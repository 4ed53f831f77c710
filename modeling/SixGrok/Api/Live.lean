import Mathlib.Algebra.BigOperators.Group.Finset.Piecewise
import Mathlib.Algebra.Order.BigOperators.Group.Finset
import SixGrok.Api.Schedules

namespace SixGrok.Api

open SixGrok.Framework SixGrok.Core

section Live

variable {φ ν κ : Type} {parser : Parser φ ν}

/-- What a connection has stored and not yet handed to the live channel. -/
def Connection.undelivered (c : κ) (conn : Connection parser) : List (κ × Packet parser) :=
  match conn.phase with
  | .broadcasting packet => [(c, packet)]
  | _ => []

def Connection.betweenFrames (conn : Connection parser) : Prop :=
  conn.phase = .receiving ∨ ∃ result, conn.phase = .finished result

theorem Connection.betweenFrames.undelivered {c : κ} {conn : Connection parser}
    (h : conn.betweenFrames) : conn.undelivered c = [] := by
  obtain ⟨reads, phase⟩ := conn
  rcases h with h | ⟨result, h⟩
  · obtain rfl : phase = .receiving := h
    rfl
  · obtain rfl : phase = .finished result := h
    rfl

theorem Connection.undelivered_length (c : κ) (conn : Connection parser) :
    (conn.undelivered c).length ≤ 1 := by
  obtain ⟨reads, phase⟩ := conn
  cases phase with
  | broadcasting packet => exact Nat.le_refl 1
  | _ => exact Nat.zero_le 1

/-- What a turn does to the logs: nothing, one more update that waits for its broadcast, or the
broadcast that waited. The lock it takes only when it is free. -/
inductive Delivery (c : κ) (before after : Connection parser × AppState κ parser) : Prop where
  | none : after.1.undelivered c = before.1.undelivered c →
      after.2.updates = before.2.updates → after.2.live = before.2.live →
      (after.2.writer = before.2.writer ∨
        before.2.writer = .none ∧ ∃ packet, before.1.phase = .locking packet) →
      Delivery c before after
  | stores (packet : Packet parser) : before.1.phase = .updating packet [] →
      after.1.undelivered c = [(c, packet)] →
      after.2.updates = before.2.updates ++ [(c, packet)] → after.2.live = before.2.live →
      after.2.writer = .none → Delivery c before after
  | broadcasts (packet : Packet parser) : before.1.undelivered c = [(c, packet)] →
      after.1.undelivered c = [] → after.2.updates = before.2.updates →
      after.2.live = before.2.live ++ [(c, packet)] → after.2.writer = before.2.writer →
      Delivery c before after

theorem step_delivery {codec : Codec} {settings : Settings} {c : κ}
    {before after : Connection parser × AppState κ parser}
    (step : Step codec settings c before after) : Delivery c before after := by
  cases step with
  | waits | receives | ends | skips | mirrors | mirrorFails | serializes | serializeFails | updates =>
    exact .none rfl rfl rfl (.inl rfl)
  | @locks reads packet state hfree => exact .none rfl rfl rfl (.inr ⟨hfree, packet, rfl⟩)
  | @unlocks reads packet state => exact .stores packet rfl rfl rfl rfl rfl
  | @broadcasts reads packet state => exact .broadcasts packet rfl rfl rfl rfl rfl

/-- Both logs only grow. -/
theorem Delivery.grows {c : κ} {before after : Connection parser × AppState κ parser}
    (delivery : Delivery c before after) :
    before.2.updates <+: after.2.updates ∧ before.2.live <+: after.2.live := by
  cases delivery with
  | none _ hupdates hlive _ =>
    rw [hupdates, hlive]
    exact ⟨List.prefix_rfl, List.prefix_rfl⟩
  | stores packet _ _ hupdates hlive _ =>
    rw [hupdates, hlive]
    exact ⟨List.prefix_append .., List.prefix_rfl⟩
  | broadcasts packet _ _ hupdates hlive _ =>
    rw [hupdates, hlive]
    exact ⟨List.prefix_rfl, List.prefix_append ..⟩

section Entries

variable [DecidableEq κ]

/-- The entries of one connection in a log of all of them. -/
def entriesOf (c : κ) (log : List (κ × Packet parser)) : List (κ × Packet parser) :=
  log.filter (fun entry => entry.1 = c)

@[simp] theorem entriesOf_append (c : κ) (log more : List (κ × Packet parser)) :
    entriesOf c (log ++ more) = entriesOf c log ++ entriesOf c more := List.filter_append ..

@[simp] theorem entriesOf_own (c : κ) (packet : Packet parser) :
    entriesOf c [(c, packet)] = [(c, packet)] := by
  simp [entriesOf]

theorem entriesOf_other {c other : κ} (h : c ≠ other) (packet : Packet parser) :
    entriesOf c [(other, packet)] = [] := by
  simp [entriesOf, Ne.symm h]

/-- Logs that agree on every connection hold the same entries, in whatever order. -/
theorem perm_of_entriesOf {log log' : List (κ × Packet parser)}
    (h : ∀ c, entriesOf c log = entriesOf c log') : log.Perm log' := by
  classical
  rw [List.perm_iff_count]
  intro entry
  have hown : decide (entry.1 = entry.1) = true := decide_eq_true rfl
  have hcount (log : List (κ × Packet parser)) :
      (entriesOf entry.1 log).count entry = log.count entry := List.count_filter hown
  rw [← hcount log, h, hcount log']

theorem subperm_of_entriesOf_sublist {log log' : List (κ × Packet parser)}
    (h : ∀ c, (entriesOf c log).Sublist (entriesOf c log')) : log.Subperm log' := by
  classical
  rw [List.subperm_ext_iff]
  intro entry _
  have hown : decide (entry.1 = entry.1) = true := decide_eq_true rfl
  have hcount (log : List (κ × Packet parser)) :
      (entriesOf entry.1 log).count entry = log.count entry := List.count_filter hown
  rw [← hcount log, ← hcount log']
  exact (h entry.1).count_le entry

theorem subperm_of_entriesOf {log log' : List (κ × Packet parser)}
    (h : ∀ c, entriesOf c log <+: entriesOf c log') : log.Subperm log' :=
  subperm_of_entriesOf_sublist fun c => (h c).sublist

theorem length_eq_sum_entriesOf {connections : Finset κ} {log : List (κ × Packet parser)}
    (h : ∀ entry ∈ log, entry.1 ∈ connections) :
    log.length = ∑ c ∈ connections, (entriesOf c log).length := by
  induction log with
  | nil => exact (Finset.sum_eq_zero fun _ _ => rfl).symm
  | cons entry log ih =>
    have hentry := h entry (List.mem_cons_self ..)
    have hone (c : κ) : (entriesOf c (entry :: log)).length =
        (if entry.1 = c then 1 else 0) + (entriesOf c log).length := by
      by_cases hc : entry.1 = c
      · simp [entriesOf, hc, Nat.add_comm]
      · simp [entriesOf, hc]
    simp only [hone]
    rw [Finset.sum_add_distrib, Finset.sum_ite_eq, if_pos hentry,
      ← ih fun e he => h e (List.mem_cons_of_mem entry he), List.length_cons, Nat.add_comm]

end Entries

section Delivered

variable [DecidableEq κ] (codec : Codec) (settings : Settings)

/-- Every update of a connection has been broadcast, in its place, but the one that waits. -/
def Delivered (c : κ) : Connection parser × AppState κ parser → Prop
  | (conn, state) => entriesOf c state.updates = entriesOf c state.live ++ conn.undelivered c

theorem delivered_keeps {c : κ} {before after : Connection parser × AppState κ parser}
    (delivery : Delivery c before after) (delivered : Delivered c before) : Delivered c after := by
  rw [Delivered] at delivered ⊢
  cases delivery with
  | none hundelivered hupdates hlive _ => rw [hundelivered, hupdates, hlive, delivered]
  | stores packet hphase hundelivered hupdates hlive _ =>
    have hbefore : before.1.undelivered c = [] := by rw [Connection.undelivered, hphase]
    rw [hbefore, List.append_nil] at delivered
    rw [hundelivered, hupdates, hlive, entriesOf_append, delivered, entriesOf_own]
  | broadcasts packet hbefore hundelivered hupdates hlive _ =>
    rw [hbefore] at delivered
    rw [hundelivered, hupdates, hlive, entriesOf_append, delivered, entriesOf_own, List.append_nil]

theorem delivered_guards {c other : κ} (hne : c ≠ other)
    {before after : Connection parser × AppState κ parser} (delivery : Delivery other before after) :
    entriesOf c after.2.updates = entriesOf c before.2.updates ∧
      entriesOf c after.2.live = entriesOf c before.2.live := by
  cases delivery with
  | none _ hupdates hlive _ => exact ⟨by rw [hupdates], by rw [hlive]⟩
  | stores packet _ _ hupdates hlive _ =>
    refine ⟨?_, by rw [hlive]⟩
    rw [hupdates, entriesOf_append, entriesOf_other hne, List.append_nil]
  | broadcasts packet _ _ hupdates hlive _ =>
    refine ⟨by rw [hupdates], ?_⟩
    rw [hlive, entriesOf_append, entriesOf_other hne, List.append_nil]

variable (parser) in
theorem delivered_compatible :
    Tasks.Compatible (connectionTurn codec settings parser) (fun _ => True)
      (Delivered : κ → Connection parser × AppState κ parser → Prop)
      (fun c state state' => entriesOf c state'.updates = entriesOf c state.updates ∧
        entriesOf c state'.live = entriesOf c state.live) where
  keeps c sent _ _ _ delivered :=
    ⟨trivial, delivered_keeps (step_delivery (connectionTurn_step codec settings c sent _)) delivered⟩
  guarantees _ other sent _ _ hne _ :=
    delivered_guards hne (step_delivery (connectionTurn_step codec settings other sent _))
  stable c conn state state' delivered same := by
    rw [Delivered] at delivered ⊢
    rw [same.1, same.2, delivered]

theorem received_le_perform (historyLimit : Nat) (ops : List (StoreOp ν)) (store : Store ν) :
    store.received ≤ (perform historyLimit ops store).received := by
  induction ops generalizing store with
  | nil => exact Nat.le_refl _
  | cons op ops ih =>
    have hop : store.received ≤ (op.apply historyLimit store).received := by
      cases op with
      | received => exact Nat.le_succ _
      | _ => exact Nat.le_refl _
    exact hop.trans (ih _)

/-- The live channel has all the updates, or all but the last, which waits for its broadcast while
nobody holds the lock. -/
def InStep (service : Tasks κ (Connection parser) (AppState κ parser)) : Prop :=
  (service.shared.updates = service.shared.live ∧
    ∀ c, (service.own c).undelivered c = []) ∨
  ∃ c entry, service.shared.updates = service.shared.live ++ [entry] ∧
    (service.own c).undelivered c = [entry] ∧
    (∀ other, other ≠ c → (service.own other).undelivered other = []) ∧
    service.shared.writer = none

section InStep

variable {c : κ} {service next : Tasks κ (Connection parser) (AppState κ parser)}

theorem inStep_caughtUp
    (delivery : Delivery c (service.own c, service.shared) (next.own c, next.shared))
    (others : ∀ other, other ≠ c → next.own other = service.own other)
    (same : service.shared.updates = service.shared.live)
    (idle : ∀ c, (service.own c).undelivered c = []) : InStep next := by
  cases delivery with
  | none hundelivered hupdates hlive _ =>
    left
    refine ⟨(hupdates.trans same).trans hlive.symm, ?_⟩
    intro other
    by_cases h : other = c
    · subst h
      exact hundelivered.trans (idle other)
    · rw [others other h, idle other]
  | stores packet _ hundelivered hupdates hlive hwriter =>
    right
    refine ⟨c, (c, packet), ?_, hundelivered, ?_, hwriter⟩
    · rw [hupdates, hlive, same]
    · intro other h
      rw [others other h, idle other]
  | broadcasts packet hbefore _ _ _ _ =>
    rw [idle c] at hbefore
    cases hbefore

variable {settings} in
theorem inStep_waiting {startedAtMs : Int64} {waiting : κ} {entry : κ × Packet parser}
    (delivery : Delivery c (service.own c, service.shared) (next.own c, next.shared))
    (others : ∀ other, other ≠ c → next.own other = service.own other)
    (ahead : service.shared.updates = service.shared.live ++ [entry])
    (waits : (service.own waiting).undelivered waiting = [entry])
    (idle : ∀ other, other ≠ waiting → (service.own other).undelivered other = [])
    (free : service.shared.writer = none)
    (critical : Critical settings startedAtMs c (service.own c, service.shared))
    (holds : ¬ ∃ packet, (service.own c).phase = .locking packet) : InStep next := by
  cases delivery with
  | none hundelivered hupdates hlive hwriter =>
    right
    refine ⟨waiting, entry, ?_, ?_, ?_, ?_⟩
    · rw [hupdates, hlive, ahead]
    · by_cases h : waiting = c
      · subst h
        exact hundelivered.trans waits
      · rw [others waiting h, waits]
    · intro other h
      by_cases hc : other = c
      · subst hc
        exact hundelivered.trans (idle other h)
      · rw [others other hc, idle other h]
    · rcases hwriter with hwriter | ⟨-, hlocking⟩
      · exact hwriter.trans free
      · exact absurd hlocking holds
  | stores packet hphase _ _ _ _ =>
    -- whoever finishes an update holds the lock
    rw [show service.own c = ⟨(service.own c).reads, .updating packet []⟩ by rw [← hphase]]
      at critical
    rw [critical.1] at free
    cases free
  | broadcasts packet hbefore hundelivered hupdates hlive _ =>
    have hc : waiting = c := by
      by_contra h
      rw [idle c (Ne.symm h)] at hbefore
      cases hbefore
    subst hc
    obtain rfl : entry = (waiting, packet) := (List.cons.inj (waits.symm.trans hbefore)).1
    left
    refine ⟨?_, ?_⟩
    · rw [hupdates, hlive, ahead]
    · intro other
      by_cases h : other = waiting
      · subst h
        exact hundelivered
      · rw [others other h, idle other h]

end InStep

variable {settings} in
theorem inStep_turn {startedAtMs : Int64}
    {service : Tasks κ (Connection parser) (AppState κ parser)} (inStep : InStep service)
    (critical : ∀ c, Critical settings startedAtMs c (service.own c, service.shared)) (c : κ)
    (sent : Except ErrorKind Nat)
    (waits : (∃ packet, (service.own c).phase = .locking packet) → service.shared.writer = none →
      ∀ other, (service.own other).undelivered other = []) :
    InStep (service.turn (connectionTurn codec settings parser) c sent) := by
  have hdelivery := step_delivery (connectionTurn_step codec settings c sent
    (service.own c, service.shared))
  generalize hnext : service.turn (connectionTurn codec settings parser) c sent = next
  have hafter : connectionTurn codec settings parser c sent (service.own c, service.shared) =
      (next.own c, next.shared) := by
    rw [← hnext, Tasks.turn_own, Tasks.turn_shared]
  have hothers (other : κ) (h : other ≠ c) : next.own other = service.own other := by
    rw [← hnext, Tasks.turn_own_of_ne _ _ h]
  rw [hafter] at hdelivery
  rcases inStep with ⟨hsame, hidle⟩ | ⟨waiting, entry, hahead, hwaits, hidle, hfree⟩
  · exact inStep_caughtUp hdelivery hothers hsame hidle
  · refine inStep_waiting hdelivery hothers hahead hwaits hidle hfree (critical c) ?_
    intro hlocking
    have hnothing := waits hlocking hfree waiting
    rw [hwaits] at hnothing
    cases hnothing

section Serve

variable (startedAtMs : Int64) (parser) (input : κ → List ReadOutcome)
  (schedule : List (κ × Except ErrorKind Nat))

theorem serve_critical :
    let service := serve codec settings startedAtMs parser input schedule
    Settled settings startedAtMs service.shared ∧
      ∀ c, Critical settings startedAtMs c (service.own c, service.shared) :=
  (critical_compatible parser codec settings startedAtMs).run schedule
    (started startedAtMs parser input) (fun _ => rfl) (fun _ => nofun)

theorem serve_delivered (c : κ) :
    let service := serve codec settings startedAtMs parser input schedule
    entriesOf c service.shared.updates =
      entriesOf c service.shared.live ++ (service.own c).undelivered c :=
  ((delivered_compatible parser codec settings).run schedule
    (started startedAtMs parser input) trivial (fun _ => rfl)).2 c

/-- The counter is ahead of the finished updates by the one that the holder of the lock is at. -/
theorem serve_received {connections : Finset κ} (scheduled : ∀ turn ∈ schedule, turn.1 ∈ connections) :
    let service := serve codec settings startedAtMs parser input schedule
    service.shared.store.received ≤ service.shared.updates.length +
      ∑ c ∈ connections, if service.shared.writer = some c then 1 else 0 := by
  intro service
  obtain ⟨hsettled, hcritical⟩ :=
    serve_critical parser codec settings startedAtMs input schedule
  cases hwriter : service.shared.writer with
  | none =>
    have hreceived := stored_received settings.historyLimit startedAtMs
      (service.shared.updates.map Prod.snd)
    rw [← hsettled hwriter, List.length_map] at hreceived
    rw [hreceived]
    exact Nat.le_add_right ..
  | some holder =>
    obtain ⟨reads, packet, ops, hown⟩ := critical_holder settings startedAtMs (hcritical holder) hwriter
    have hcrit := hcritical holder
    rw [hown] at hcrit
    have hle := received_le_perform settings.historyLimit ops service.shared.store
    have hreceived := stored_received settings.historyLimit startedAtMs
      (service.shared.updates.map Prod.snd ++ [packet])
    rw [← hcrit.2, List.length_append, List.length_map, List.length_singleton] at hreceived
    have hmem : holder ∈ connections := by
      by_contra hnot
      have habsent : ∀ turn ∈ schedule, turn.1 ≠ holder :=
        fun turn hturn heq => hnot (heq ▸ scheduled turn hturn)
      have hidle := (Tasks.run_unscheduled (connectionTurn codec settings parser)
        (fun _ => ()) (fun _ _ _ _ _ => rfl) habsent (started startedAtMs parser input)).1
      rw [show (started startedAtMs parser input).own holder = ⟨input holder, .receiving⟩ from rfl]
        at hidle
      cases hidle.symm.trans hown
    have hone : ∑ c ∈ connections, (if some holder = some c then 1 else 0) = 1 := by
      simp [hmem]
    rw [hone]
    exact hle.trans (Nat.le_of_eq hreceived)

theorem serve_scheduled {connections : Finset κ}
    (scheduled : ∀ turn ∈ schedule, turn.1 ∈ connections) :
    let service := serve codec settings startedAtMs parser input schedule
    ∀ entry ∈ service.shared.updates, entry.1 ∈ connections := by
  intro service entry hentry
  by_contra hnot
  have habsent : ∀ turn ∈ schedule, turn.1 ≠ entry.1 :=
    fun turn hturn heq => hnot (heq ▸ scheduled turn hturn)
  have huntouched (other : κ) (sent : Except ErrorKind Nat) (conn : Connection parser)
      (state : AppState κ parser) (hne : other ≠ entry.1) :
      entriesOf entry.1 (connectionTurn codec settings parser other sent (conn, state)).2.updates =
        entriesOf entry.1 state.updates :=
    (delivered_guards hne.symm
      (step_delivery (connectionTurn_step codec settings other sent (conn, state)))).1
  have hnone := (Tasks.run_unscheduled (connectionTurn codec settings parser)
    (fun state => entriesOf entry.1 state.updates) huntouched habsent
    (started startedAtMs parser input)).2
  have hmem : entry ∈ entriesOf entry.1 service.shared.updates := by
    simpa [entriesOf] using hentry
  rw [show entriesOf entry.1 service.shared.updates = [] from hnone] at hmem
  cases hmem

/-- A connection that holds the lock has nothing that waits for its broadcast, and any other no
more than one packet. -/
theorem serve_waiting (c : κ) :
    let service := serve codec settings startedAtMs parser input schedule
    ((service.own c).undelivered c).length + (if service.shared.writer = some c then 1 else 0) ≤
      1 := by
  intro service
  have hcritical := (serve_critical parser codec settings startedAtMs input schedule).2
  by_cases hwriter : service.shared.writer = some c
  · obtain ⟨reads, packet, ops, hown⟩ :=
      critical_holder settings startedAtMs (hcritical c) hwriter
    rw [show service.own c = _ from hown, if_pos hwriter]
    exact Nat.le_refl 1
  · rw [if_neg hwriter]
    exact Connection.undelivered_length c (service.own c)

/-- Of what is stored each connection keeps at most one packet from the live channel. -/
theorem serve_ahead (connections : Finset κ)
    (scheduled : ∀ turn ∈ schedule, turn.1 ∈ connections) :
    let service := serve codec settings startedAtMs parser input schedule
    service.shared.store.received ≤ service.shared.live.length + connections.card := by
  intro service
  have hdelivered (c : κ) : entriesOf c service.shared.updates =
      entriesOf c service.shared.live ++ (service.own c).undelivered c :=
    serve_delivered parser codec settings startedAtMs input schedule c
  have hstored : service.shared.live.Subperm service.shared.updates :=
    subperm_of_entriesOf fun c => ⟨_, (hdelivered c).symm⟩
  have hcounter : service.shared.store.received ≤ service.shared.updates.length +
      ∑ c ∈ connections, if service.shared.writer = some c then 1 else 0 :=
    serve_received parser codec settings startedAtMs input schedule scheduled
  have hkeys : ∀ entry ∈ service.shared.updates, entry.1 ∈ connections :=
    serve_scheduled parser codec settings startedAtMs input schedule scheduled
  have hlive : ∀ entry ∈ service.shared.live, entry.1 ∈ connections := by
    intro entry hentry
    exact hkeys entry (hstored.subset hentry)
  -- connection by connection
  rw [length_eq_sum_entriesOf hkeys] at hcounter
  simp only [hdelivered, List.length_append] at hcounter
  rw [Finset.sum_add_distrib, ← length_eq_sum_entriesOf hlive, Nat.add_assoc,
    ← Finset.sum_add_distrib] at hcounter
  have hall := Finset.sum_le_sum fun c (_ : c ∈ connections) =>
    serve_waiting parser codec settings startedAtMs input schedule c
  rw [← Finset.card_eq_sum_ones] at hall
  exact hcounter.trans (Nat.add_le_add_left hall _)

/-- Whatever the order of the turns: what is broadcast has been stored, each packet once and those
of a connection in the order in which they were sent on it; the counter is ahead of the broadcasts
by no more than one packet for each connection, and by none between the frames. -/
theorem live_delivery (connections : Finset κ) (scheduled : ∀ turn ∈ schedule, turn.1 ∈ connections) :
    let service := serve codec settings startedAtMs parser input schedule
    let updates := service.shared.updates
    let live := service.shared.live
    (∀ store, service.shared.read = some store →
      store = stored settings.historyLimit startedAtMs (updates.map Prod.snd)) ∧
    live.Subperm updates ∧
    (∀ c, entriesOf c live <+: entriesOf c updates ∧
      framesOf c live <+: (carried ServiceError codec (input c)).1) ∧
    service.shared.store.received ≤ live.length + connections.card ∧
    ((∀ c, (service.own c).betweenFrames) →
      live.Perm updates ∧ service.shared.read = some service.shared.store) := by
  intro service updates live
  have hdelivered (c : κ) : entriesOf c updates = entriesOf c live ++ (service.own c).undelivered c :=
    serve_delivered parser codec settings startedAtMs input schedule c
  have hfirst (c : κ) : entriesOf c live <+: entriesOf c updates :=
    ⟨_, (hdelivered c).symm⟩
  have hcritical := (serve_critical parser codec settings startedAtMs input schedule).2
  refine ⟨fun store hread => serve_read hread, subperm_of_entriesOf hfirst, ?_, ?_, ?_⟩
  · intro c
    obtain ⟨lost, hframes, -⟩ := serve_accounted parser codec settings startedAtMs input schedule c
    refine ⟨hfirst c, ?_⟩
    have hstored : framesOf c updates <+: (carried ServiceError codec (input c)).1 :=
      ⟨_, hframes.symm⟩
    exact ((hfirst c).map _).trans hstored
  · exact serve_ahead parser codec settings startedAtMs input schedule connections scheduled
  · intro hidle
    refine ⟨perm_of_entriesOf ?_, ?_⟩
    · intro c
      rw [hdelivered c, (hidle c).undelivered, List.append_nil]
    · rw [AppState.read]
      cases hwriter : service.shared.writer with
      | none => rfl
      | some holder =>
        obtain ⟨reads, packet, ops, hown⟩ :=
          critical_holder settings startedAtMs (hcritical holder) hwriter
        have hholder := hidle holder
        rw [Connection.betweenFrames, show service.own holder = _ from hown] at hholder
        rcases hholder with h | ⟨result, h⟩
        · cases h
        · cases h

/-- Two agents with one frame each, of log codes 7 and 8. -/
def twoAgents (second : Bool) : List ReadOutcome :=
  [.ok (logCodeMessage 1 (if second then 8 else 7))]

/-- The two contend for the lock. The packet of the first has been broadcast, and that of the second
has been stored, so that the counter is ahead by one. -/
theorem live_delivery_ahead :
    let service := serve messagePack ⟨1, none⟩ 0 logCodeParser twoAgents
      ((List.replicate 12 [(false, .ok 0), (true, .ok 0)]).flatten ++ List.replicate 6 (true, .ok 0))
    service.shared.store.received = 2 ∧ service.shared.live.length = 1 ∧
      service.shared.live.Subperm service.shared.updates ∧
      service.shared.store.received ≤ service.shared.live.length + (Finset.univ : Finset Bool).card := by
  intro service
  have htwo : service.shared.store.received = 2 := by decide
  have hone : service.shared.live.length = 1 := by decide
  obtain ⟨-, hstored, -, hahead, -⟩ := live_delivery logCodeParser messagePack ⟨1, none⟩ 0 twoAgents
    ((List.replicate 12 [(false, .ok 0), (true, .ok 0)]).flatten ++ List.replicate 6 (true, .ok 0))
    Finset.univ (fun _ _ => Finset.mem_univ _)
  exact ⟨htwo, hone, hstored, hahead⟩

/-- No connection takes the lock while a packet that is stored waits for its broadcast. -/
def OneAtATime : Prop :=
  ∀ before c sent after, schedule = before ++ (c, sent) :: after →
    let service := serve codec settings startedAtMs parser input before
    (∃ packet, (service.own c).phase = .locking packet) → service.shared.writer = none →
      ∀ other, (service.own other).undelivered other = []

variable {parser codec settings startedAtMs input schedule} in
theorem inStep_serve (waits : OneAtATime parser codec settings startedAtMs input schedule) :
    InStep (serve codec settings startedAtMs parser input schedule) := by
  induction schedule using List.reverseRecOn with
  | nil => exact .inl ⟨rfl, fun _ => rfl⟩
  | append_singleton schedule turn ih =>
    have hbefore : OneAtATime parser codec settings startedAtMs input schedule := by
      intro before c sent after hschedule
      exact waits before c sent (after ++ [turn]) (by rw [hschedule]; simp)
    have hcritical := (serve_critical parser codec settings startedAtMs input schedule).2
    have hturn := inStep_turn codec (ih hbefore) hcritical turn.1 turn.2
      (waits schedule turn.1 turn.2 [] rfl)
    rw [serve, Tasks.run_append]
    exact hturn

variable {parser codec settings startedAtMs input schedule} in
/-- A connection that has the service to itself waits for nobody. -/
theorem oneAtATime_alone {c : κ} (alone : ∀ turn ∈ schedule, turn.1 = c) :
    OneAtATime parser codec settings startedAtMs input schedule := by
  intro before c' sent after hschedule service hlocking _ other
  subst hschedule
  by_cases h : other = c
  · have hc' : c' = c := alone (c', sent) (by simp)
    obtain ⟨packet, hphase⟩ := hlocking
    rw [h, ← hc', Connection.undelivered, hphase]
  · have habsent : ∀ turn ∈ before, turn.1 ≠ other := by
      intro turn hturn heq
      exact h (heq.symm.trans (alone turn (List.mem_append_left _ hturn)))
    have hidle := (Tasks.run_unscheduled (connectionTurn codec settings parser)
      (fun _ => ()) (fun _ _ _ _ _ => rfl) habsent (started startedAtMs parser input)).1
    rw [show service.own other = _ from hidle]
    rfl

/-- The live channel has the packets of each connection in the order of the updates, all but at
most the last; and the packets of all of them, if no connection takes the lock while a stored
packet waits for its broadcast, as when there is only one. -/
theorem live_order :
    let service : Tasks κ (Connection parser) (AppState κ parser) :=
      serve codec settings startedAtMs parser input schedule
    let updates := service.shared.updates
    let live := service.shared.live
    (∀ c, entriesOf c live <+: entriesOf c updates ∧
      (entriesOf c updates).length ≤ (entriesOf c live).length + 1) ∧
    (OneAtATime parser codec settings startedAtMs input schedule → live <+: updates) ∧
    (∀ c, (∀ turn ∈ schedule, turn.1 = c) → live <+: updates) := by
  intro service updates live
  have hdelivered (c : κ) : entriesOf c updates = entriesOf c live ++ (service.own c).undelivered c :=
    serve_delivered parser codec settings startedAtMs input schedule c
  have hwhole (waits : OneAtATime parser codec settings startedAtMs input schedule) :
      live <+: updates := by
    rcases inStep_serve waits with ⟨hsame, -⟩ | ⟨c, entry, hentry, -, -, -⟩
    · exact ⟨[], (List.append_nil _).trans hsame.symm⟩
    · exact ⟨[entry], hentry.symm⟩
  refine ⟨?_, hwhole, fun c alone => hwhole (oneAtATime_alone alone)⟩
  intro c
  refine ⟨⟨_, (hdelivered c).symm⟩, ?_⟩
  have hlength := Connection.undelivered_length c (service.own c)
  rw [hdelivered c, List.length_append]
  omega

/-- The second agent stores and broadcasts its packet before the first gets to broadcast. -/
theorem live_overtakes :
    let service := serve messagePack ⟨1, none⟩ 0 logCodeParser twoAgents
      (List.replicate 11 (false, .ok 0) ++ List.replicate 12 (true, .ok 0) ++ [(false, .ok 0)])
    ¬ service.shared.live.map Prod.snd <+: service.shared.updates.map Prod.snd := by
  intro service h
  have hlive : service.shared.live.map (fun entry => entry.2.value) = [8, 7] := by decide
  have hupdates : service.shared.updates.map (fun entry => entry.2.value) = [7, 8] := by decide
  have hvalues := h.map Packet.value
  rw [List.map_map, List.map_map] at hvalues
  rw [show service.shared.live.map (Packet.value ∘ Prod.snd) = [8, 7] from hlive,
    show service.shared.updates.map (Packet.value ∘ Prod.snd) = [7, 8] from hupdates] at hvalues
  revert hvalues
  decide

end Serve

end Delivered

end Live

end SixGrok.Api
