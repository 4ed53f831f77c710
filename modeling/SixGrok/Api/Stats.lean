import SixGrok.Api.Live

namespace SixGrok.Api

open SixGrok.Framework SixGrok.Core

/-- `i64::saturating_sub`. -/
def saturatingSub (a b : Int64) : Int64 := Int64.ofIntClamp (a.toInt - b.toInt)

theorem toInt_saturatingSub (a b : Int64) : (saturatingSub a b).toInt =
    max Int64.minValue.toInt (min (a.toInt - b.toInt) Int64.maxValue.toInt) := by
  have hbounds : Int64.minValue.toInt ≤ Int64.maxValue.toInt := by decide
  rw [saturatingSub, Int64.ofIntClamp]
  split_ifs with hleast hmost
  · rw [Int64.toInt_ofIntLE]
    omega
  · omega
  · omega

theorem saturatingSub_mono {a b : Int64} (le : a ≤ b) (c : Int64) :
    saturatingSub a c ≤ saturatingSub b c := by
  rw [Int64.le_iff_toInt_le] at le ⊢
  rw [toInt_saturatingSub, toInt_saturatingSub]
  omega

structure Stats where
  startedAtMs : Int64
  uptimeMs : Int64
  received : Nat
  fullyDecoded : Nat
  decodeRatio : Float
  liveSubscribers : Nat
  gsmtapEnabled : Bool
  byVendor : OrderedMap String Nat
  byRat : OrderedMap String Nat
  byLayer : OrderedMap String Nat
  historyLen : Nat

section Stats

variable {φ ν : Type} {parser : Parser φ ν}

/-- `GET /api/v1/stats`. -/
def stats (settings : Settings) (now : Int64) (receiverCount : Nat) (store : Store ν) : Stats where
  startedAtMs := store.startedAtMs
  uptimeMs := saturatingSub now store.startedAtMs
  received := store.received
  fullyDecoded := store.fullyDecoded
  decodeRatio :=
    if store.received = 0 then 0.0 else store.fullyDecoded.toFloat / store.received.toFloat
  liveSubscribers := receiverCount
  gsmtapEnabled := settings.gsmtap.isSome
  byVendor := store.byVendor
  byRat := store.byRat
  byLayer := store.byLayer
  historyLen := store.history.length

/-- The vendor under which a packet is counted. -/
def Packet.vendor (packet : Packet parser) : String :=
  if packet.decoded.vendor.isEmpty then "Qualcomm" else packet.decoded.vendor

section Counters

variable (historyLimit : Nat) (startedAtMs : Int64) (packets : List (Packet parser))

theorem stored_startedAtMs : (stored historyLimit startedAtMs packets).startedAtMs = startedAtMs := by
  induction packets using List.reverseRecOn with
  | nil => rfl
  | append_singleton packets packet ih => rw [stored_append_singleton, update_eq, ih]

theorem stored_fullyDecoded : (stored historyLimit startedAtMs packets).fullyDecoded =
    packets.countP (fun packet => packet.decoded.fullyDecoded) := by
  induction packets using List.reverseRecOn with
  | nil => rfl
  | append_singleton packets packet ih =>
    rw [stored_append_singleton, update_eq, List.countP_append, ← ih, List.countP_singleton]
    cases packet.decoded.fullyDecoded <;> rfl

theorem stored_byVendor : (stored historyLimit startedAtMs packets).byVendor =
    OrderedMap.tally Packet.vendor packets := by
  induction packets using List.reverseRecOn with
  | nil => rfl
  | append_singleton packets packet ih =>
    rw [stored_append_singleton, update_eq, OrderedMap.tally_append_singleton, ← ih]
    rfl

theorem stored_byRat : (stored historyLimit startedAtMs packets).byRat =
    OrderedMap.tally (fun packet => packet.decoded.rat) packets := by
  induction packets using List.reverseRecOn with
  | nil => rfl
  | append_singleton packets packet ih =>
    rw [stored_append_singleton, update_eq, OrderedMap.tally_append_singleton, ← ih]

theorem stored_byLayer : (stored historyLimit startedAtMs packets).byLayer =
    OrderedMap.tally (fun packet => packet.decoded.layer) packets := by
  induction packets using List.reverseRecOn with
  | nil => rfl
  | append_singleton packets packet ih =>
    rw [stored_append_singleton, update_eq, OrderedMap.tally_append_singleton, ← ih]

variable {packets} in
/-- The answer does not depend on the order of the updates. -/
theorem stats_perm {settings : Settings} {packets' : List (Packet parser)}
    (same : packets.Perm packets') (now : Int64) (receiverCount : Nat) :
    stats settings now receiverCount (stored historyLimit startedAtMs packets) =
      stats settings now receiverCount (stored historyLimit startedAtMs packets') := by
  have hreceived : (stored historyLimit startedAtMs packets).received =
      (stored historyLimit startedAtMs packets').received := by
    rw [stored_received, stored_received, same.length_eq]
  have hfully : (stored historyLimit startedAtMs packets).fullyDecoded =
      (stored historyLimit startedAtMs packets').fullyDecoded := by
    rw [stored_fullyDecoded, stored_fullyDecoded, same.countP_eq]
  have hlength : (stored historyLimit startedAtMs packets).history.length =
      (stored historyLimit startedAtMs packets').history.length := by
    rw [stored_history, stored_history, length_rtake, length_rtake, List.length_map,
      List.length_map, same.length_eq]
  rw [stats, stats, stored_startedAtMs, stored_startedAtMs, hreceived, hfully, hlength,
    stored_byVendor, stored_byVendor, stored_byRat, stored_byRat, stored_byLayer, stored_byLayer,
    OrderedMap.tally_perm _ same, OrderedMap.tally_perm _ same, OrderedMap.tally_perm _ same]

end Counters

section Serve

variable {κ : Type} [DecidableEq κ] (codec : Codec) (settings : Settings) (startedAtMs : Int64)
  (parser : Parser φ ν) (input : κ → List ReadOutcome)

theorem serve_grows (schedule more : List (κ × Except ErrorKind Nat)) :
    (serve codec settings startedAtMs parser input schedule).shared.updates <+:
      (serve codec settings startedAtMs parser input (schedule ++ more)).shared.updates := by
  rw [serve, serve, Tasks.run_append]
  generalize (started startedAtMs parser input).run (connectionTurn codec settings parser) schedule =
    service
  induction more generalizing service with
  | nil => exact List.prefix_rfl
  | cons turn more ih =>
    have hdelivery := step_delivery (connectionTurn_step codec settings turn.1 turn.2
      (service.own turn.1, service.shared))
    exact hdelivery.grows.1.trans (ih (service.turn (connectionTurn codec settings parser)
      turn.1 turn.2))

/-- Between two answers of the endpoint every counter grows by the packets stored in between that
it counts, and nothing else of the answer changes but the clock and the number of receivers. The uptime
goes back only with the clock. -/
theorem stats_between {schedule more : List (κ × Except ErrorKind Nat)} {early late : Store ν}
    (first : (serve codec settings startedAtMs parser input schedule).shared.read = some early)
    (then' : (serve codec settings startedAtMs parser input (schedule ++ more)).shared.read =
      some late) (now now' : Int64) (receiverCount receiverCount' : Nat) :
    ∃ between, (serve codec settings startedAtMs parser input (schedule ++ more)).shared.updates =
        (serve codec settings startedAtMs parser input schedule).shared.updates ++ between ∧
      let packets := between.map Prod.snd
      let before := stats settings now receiverCount early
      let after := stats settings now' receiverCount' late
      after.startedAtMs = before.startedAtMs ∧
      (now ≤ now' → before.uptimeMs ≤ after.uptimeMs) ∧
      after.received = before.received + packets.length ∧
      after.fullyDecoded =
        before.fullyDecoded + packets.countP (fun packet => packet.decoded.fullyDecoded) ∧
      (∀ vendor, after.byVendor.count vendor =
        before.byVendor.count vendor + packets.countP (fun packet => packet.vendor = vendor)) ∧
      (∀ rat, after.byRat.count rat =
        before.byRat.count rat + packets.countP (fun packet => packet.decoded.rat = rat)) ∧
      (∀ layer, after.byLayer.count layer =
        before.byLayer.count layer + packets.countP (fun packet => packet.decoded.layer = layer)) ∧
      after.historyLen = min settings.historyLimit (before.received + packets.length) := by
  obtain ⟨between, hbetween⟩ := serve_grows codec settings startedAtMs parser input schedule more
  refine ⟨between, hbetween.symm, ?_⟩
  intro packets before after
  have hearly := serve_read first
  have hlate := serve_read then'
  rw [← hbetween, List.map_append] at hlate
  generalize (serve codec settings startedAtMs parser input schedule).shared.updates.map Prod.snd =
    old at hearly hlate
  subst hearly hlate
  refine ⟨?_, ?_, ?_, ?_, ?_, ?_, ?_, ?_⟩
  · show (stored _ _ _).startedAtMs = (stored _ _ _).startedAtMs
    rw [stored_startedAtMs, stored_startedAtMs]
  · intro passes
    show saturatingSub now (stored _ _ _).startedAtMs ≤ saturatingSub now' (stored _ _ _).startedAtMs
    rw [stored_startedAtMs, stored_startedAtMs]
    exact saturatingSub_mono passes _
  · show (stored _ _ _).received = (stored _ _ _).received + _
    rw [stored_received, stored_received, List.length_append]
  · show (stored _ _ _).fullyDecoded = (stored _ _ _).fullyDecoded + _
    rw [stored_fullyDecoded, stored_fullyDecoded, List.countP_append]
  · intro vendor
    show (stored _ _ _).byVendor.count vendor = (stored _ _ _).byVendor.count vendor + _
    rw [stored_byVendor, stored_byVendor, OrderedMap.count_tally, OrderedMap.count_tally,
      List.countP_append]
  · intro rat
    show (stored _ _ _).byRat.count rat = (stored _ _ _).byRat.count rat + _
    rw [stored_byRat, stored_byRat, OrderedMap.count_tally, OrderedMap.count_tally,
      List.countP_append]
  · intro layer
    show (stored _ _ _).byLayer.count layer = (stored _ _ _).byLayer.count layer + _
    rw [stored_byLayer, stored_byLayer, OrderedMap.count_tally, OrderedMap.count_tally,
      List.countP_append]
  · show (stored _ _ _).history.length = min settings.historyLimit ((stored _ _ _).received + _)
    rw [stored_history, length_rtake, stored_received, List.length_map, List.length_append,
      Nat.min_comm]

/-- From the start to the moment when both of two agents have got their packet into the store. -/
theorem stats_between_contended :
    let service (turns : Nat) := serve messagePack ⟨1, none⟩ 0 logCodeParser twoAgents
      (List.replicate turns [(false, .ok 0), (true, .ok 0)]).flatten
    ∃ early late, (service 0).shared.read = some early ∧ (service 20).shared.read = some late ∧
      (stats ⟨1, none⟩ 5 0 early).received = 0 ∧ (stats ⟨1, none⟩ 9 1 late).received = 2 ∧
      (stats ⟨1, none⟩ 5 0 early).uptimeMs ≤ (stats ⟨1, none⟩ 9 1 late).uptimeMs := by
  intro service
  have hlate : (service 20).shared.read.map Store.received = some 2 := by decide
  obtain ⟨late, hread, htwo⟩ := Option.map_eq_some_iff.mp hlate
  have hbetween := stats_between messagePack ⟨1, none⟩ 0 logCodeParser twoAgents
    (show (service 0).shared.read = some { startedAtMs := 0 } from rfl) hread
    5 9 0 1
  obtain ⟨between, -, -, huptime, -⟩ := hbetween
  exact ⟨_, late, rfl, hread, rfl, htwo, huptime (by decide)⟩

section Done

/-- All that a connection brings has been stored. -/
def Connection.done (conn : Connection parser) : Prop := conn.ahead codec = [] ∧ ¬ conn.failed

variable {codec settings startedAtMs parser input} {schedule schedule' : List (κ × Except ErrorKind Nat)}

theorem serve_done {c : κ}
    (done : ((serve codec settings startedAtMs parser input schedule).own c).done codec) :
    framesOf c (serve codec settings startedAtMs parser input schedule).shared.updates =
      (carried ServiceError codec (input c)).1 := by
  obtain ⟨lost, hframes, hlost⟩ :=
    serve_accounted parser codec settings startedAtMs input schedule c
  have hnone : lost = [] := hlost.resolve_right done.2
  rw [done.1, hnone, List.append_nil, List.append_nil] at hframes
  exact hframes.symm

/-- Nobody is in the critical section any more. -/
theorem serve_done_free
    (done : ∀ c, ((serve codec settings startedAtMs parser input schedule).own c).done codec) :
    (serve codec settings startedAtMs parser input schedule).shared.writer = none := by
  have hcritical := (serve_critical parser codec settings startedAtMs input schedule).2
  cases hwriter : (serve codec settings startedAtMs parser input schedule).shared.writer with
  | none => rfl
  | some holder =>
    obtain ⟨reads, packet, ops, hown⟩ :=
      critical_holder settings startedAtMs (hcritical holder) hwriter
    have hahead := (done holder).1
    rw [hown] at hahead
    cases hahead

omit [DecidableEq κ] in
/-- A packet is what the parser makes of its frame. -/
theorem packet_eq {packet packet' : Packet parser} (same : packet.frame = packet'.frame) :
    packet = packet' := by
  obtain ⟨frame, value, text, value_eq, text_eq⟩ := packet
  obtain ⟨frame', value', text', value_eq', text_eq'⟩ := packet'
  obtain rfl : frame = frame' := same
  obtain rfl := Except.ok.inj (value_eq.symm.trans value_eq')
  obtain rfl := Except.ok.inj (text_eq.symm.trans text_eq')
  rfl

theorem entriesOf_eq {c : κ} {log log' : List (κ × Packet parser)}
    (same : framesOf c log = framesOf c log') : entriesOf c log = entriesOf c log' := by
  have hmem (log : List (κ × Packet parser)) : ∀ entry ∈ entriesOf c log, entry.1 = c := by
    intro entry hentry
    exact of_decide_eq_true (List.mem_filter.mp hentry).2
  have hfirst := hmem log
  have hsecond := hmem log'
  change (entriesOf c log).map _ = (entriesOf c log').map _ at same
  generalize entriesOf c log = mine at same hfirst
  generalize entriesOf c log' = mine' at same hsecond
  induction mine generalizing mine' with
  | nil => exact (List.map_eq_nil_iff.mp same.symm).symm
  | cons entry mine ih =>
    cases mine' with
    | nil => cases same
    | cons entry' mine' =>
      obtain ⟨hhead, htail⟩ := List.cons.inj same
      have hkey : entry.1 = entry'.1 :=
        (hfirst _ (List.mem_cons_self ..)).trans (hsecond _ (List.mem_cons_self ..)).symm
      rw [Prod.ext hkey (packet_eq hhead), ih (fun e he => hfirst e (List.mem_cons_of_mem _ he))
        _ htail (fun e he => hsecond e (List.mem_cons_of_mem _ he))]

variable (codec settings startedAtMs parser input) in
/-- Once everything has been stored, the answer of the endpoint is one and the same in whatever
order the connections have had their turns, and so are the packets of the history, as long as it
holds them all. -/
theorem stats_schedule_independent
    (done : ∀ c, ((serve codec settings startedAtMs parser input schedule).own c).done codec)
    (done' : ∀ c, ((serve codec settings startedAtMs parser input schedule').own c).done codec) :
    ∃ store store',
      (serve codec settings startedAtMs parser input schedule).shared.read = some store ∧
      (serve codec settings startedAtMs parser input schedule').shared.read = some store' ∧
      (∀ now receiverCount,
        stats settings now receiverCount store = stats settings now receiverCount store') ∧
      (store.received ≤ settings.historyLimit → store.history.Perm store'.history) := by
  have hperm : (serve codec settings startedAtMs parser input schedule).shared.updates.Perm
      (serve codec settings startedAtMs parser input schedule').shared.updates := by
    apply perm_of_entriesOf
    intro c
    exact entriesOf_eq ((serve_done (done c)).trans (serve_done (done' c)).symm)
  have read {schedule : List (κ × Except ErrorKind Nat)}
      (done : ∀ c, ((serve codec settings startedAtMs parser input schedule).own c).done codec) :
      (serve codec settings startedAtMs parser input schedule).shared.read =
        some (serve codec settings startedAtMs parser input schedule).shared.store := by
    rw [AppState.read, serve_done_free done]
  have hpackets := hperm.map Prod.snd
  refine ⟨_, _, read done, read done', ?_, ?_⟩
  · intro now receiverCount
    rw [serve_read (read done), serve_read (read done')]
    exact stats_perm settings.historyLimit startedAtMs hpackets now receiverCount
  · intro holds
    rw [serve_read (read done)] at holds ⊢
    rw [serve_read (read done')]
    have hvalues := hpackets.map Packet.value
    rw [stored_received, ← List.length_map Packet.value] at holds
    rw [stored_history, stored_history, rtake_of_length_le holds,
      rtake_of_length_le (hvalues.length_eq ▸ holds)]
    exact hvalues

theorem stats_schedule_independent_contended :
    let service (first second : Bool) := serve messagePack ⟨2, none⟩ 0 logCodeParser twoAgents
      (List.replicate 12 (first, .ok 0) ++ List.replicate 12 (second, .ok 0))
    ∃ store store', (service false true).shared.read = some store ∧
      (service true false).shared.read = some store' ∧ store.received = 2 ∧
      (∀ now receiverCount,
        stats ⟨2, none⟩ now receiverCount store = stats ⟨2, none⟩ now receiverCount store') ∧
      store.history.Perm store'.history := by
  intro service
  have done (first second : Bool) (differ : first ≠ second) (c : Bool) :
      ((service first second).own c).done messagePack := by
    cases first <;> cases second
    case false.false | true.true => exact absurd rfl differ
    all_goals
      refine ⟨by cases c <;> decide, ?_⟩
      rintro ⟨err, herr⟩
      cases c <;> cases herr
  obtain ⟨store, store', hread, hread', hstats, hhistory⟩ :=
    stats_schedule_independent messagePack ⟨2, none⟩ 0 logCodeParser twoAgents
      (done false true nofun) (done true false nofun)
  have htwo : store.received = 2 := by
    obtain rfl := Option.some.inj hread
    rfl
  exact ⟨store, store', hread, hread', htwo, hstats, hhistory htwo.le⟩

end Done

end Serve

end Stats

end SixGrok.Api
