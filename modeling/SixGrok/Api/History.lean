import SixGrok.Api.Schedules

namespace SixGrok.Api

open SixGrok.Framework SixGrok.Core SixGrok.Agent

section History

variable {φ ν κ : Type} [DecidableEq κ] (codec : Codec) (settings : Settings)
  (startedAtMs : Int64) (parser : Parser φ ν) (input : κ → List ReadOutcome)
  (schedule : List (κ × Except ErrorKind Nat))

/-- Whatever the connections bring, in whatever order they have their turns and whatever the
parser makes of their frames: the counters belong together whenever they can be seen. -/
theorem store_consistent {store : Store ν}
    (h : (serve codec settings startedAtMs parser input schedule).shared.read = some store) :
    1 ≤ settings.historyLimit ∧ Consistent settings.historyLimit store := by
  have hlimit : 1 ≤ settings.historyLimit := Nat.le_max_right ..
  refine ⟨hlimit, ?_⟩
  rw [serve_read h]
  exact stored_consistent settings.historyLimit startedAtMs _

/-- Two connections that contend for the lock, and a history for one packet. -/
theorem store_consistent_contended :
    let service := serve messagePack ⟨1, none⟩ 0 logCodeParser
      (fun _ : Bool => [.ok (logCodeMessage 1 7)])
      (List.replicate 20 [(false, .ok 0), (true, .ok 0)]).flatten
    ∃ store, service.shared.read = some store ∧ store.received = 2 ∧
      1 ≤ Settings.historyLimit ⟨1, none⟩ ∧ Consistent (Settings.historyLimit ⟨1, none⟩) store := by
  intro service
  have hreceived : service.shared.read.map Store.received = some 2 := by decide
  obtain ⟨store, hread, htwo⟩ := Option.map_eq_some_iff.mp hreceived
  exact ⟨store, hread, htwo, store_consistent messagePack ⟨1, none⟩ 0 logCodeParser _ _ hread⟩

theorem framesOf_first {parser : Parser φ ν} {input : κ → List ReadOutcome} {c : κ}
    {conn : Connection parser} {state : AppState κ parser}
    (accounted : Accounted codec input c (conn, state)) :
    framesOf c state.updates <+: (carried ServiceError codec (input c)).1 := by
  obtain ⟨lost, hframes, -⟩ := accounted
  exact ⟨conn.ahead codec ++ lost, hframes.symm⟩

theorem framesOf_ahead {parser : Parser φ ν} {input : κ → List ReadOutcome} {c : κ}
    {conn : Connection parser} {state : AppState κ parser}
    (accounted : Accounted codec input c (conn, state)) (working : ¬ conn.failed) :
    (carried ServiceError codec (input c)).1 = framesOf c state.updates ++ conn.ahead codec := by
  obtain ⟨lost, hframes, hlost⟩ := accounted
  have hnone : lost = [] := hlost.resolve_right working
  rw [hframes, hnone, List.append_nil]

/-- The history is the recent past of everything that has been stored, and in that the frames
of each connection stand as the agent has sent them: those from the front of what was sent,
each once, and none is missing but the ones that are still ahead, unless the connection failed. -/
theorem packets_recent (faithful : codec.Faithful) :
    let service := serve codec settings startedAtMs parser input schedule
    let updates := service.shared.updates
    (∀ store, service.shared.read = some store → store.received = updates.length ∧
      ∀ limit, packets limit store = (updates.map fun update => update.2.value).rtake
        (min (clamp (limit.getD 100) 1 1000) (min settings.historyLimit store.received))) ∧
    ∀ c frames link result sink,
      (Session.each (WireSink.send codec) frames).run { link } = some (result, sink) →
      (arrived noRetry (input c) <+: sink.written → framesOf c updates <+: frames) ∧
      (result = .ok () → Delivers noRetry (input c) sink.written →
        (∀ frame ∈ frames, ∃ payload, encodeWireFrame codec frame = .ok payload ∧
          payload.length ≤ maxWireFrame) →
        ¬ (service.own c).failed → frames = framesOf c updates ++ (service.own c).ahead codec) := by
  intro service updates
  refine ⟨?_, ?_⟩
  · intro store hread
    have hstore := serve_read hread
    have hreceived := stored_received settings.historyLimit startedAtMs (updates.map Prod.snd)
    refine ⟨?_, ?_⟩
    · rw [hstore, hreceived, List.length_map]
    · intro limit
      have hpackets := packets_stored settings.historyLimit startedAtMs (updates.map Prod.snd) limit
      rw [← hstore, List.map_map] at hpackets
      exact hpackets
  · intro c frames link result sink hsent
    have haccounted := serve_accounted parser codec settings startedAtMs input schedule c
    refine ⟨?_, ?_⟩
    · intro came
      obtain ⟨sent, payloads, hfirst, encoded, hwritten⟩ := WireSink.sends_written hsent
      have hcarried := carried_arrived ServiceError faithful encoded (came.trans hwritten)
      exact ((framesOf_first codec haccounted).trans hcarried).trans hfirst
    · intro hok delivered bounded working
      subst hok
      obtain ⟨payloads, encoded, hwritten⟩ := WireSink.sends_ok hsent
      rw [hwritten, List.nil_append] at delivered
      have hcarried : carried ServiceError codec (input c) = (frames, .ok ()) :=
        carried_sent faithful encoded (payloads_bounded encoded bounded) delivered
      have hahead := framesOf_ahead codec haccounted working
      rw [hcarried] at hahead
      exact hahead

end History

/-- A connection with one frame and one with two, which contend for the lock. -/
def oneAndTwo (c : Bool) : List CaptureFrame :=
  if c then [logCodeFrame 1 8, logCodeFrame 2 9] else [logCodeFrame 1 7]

def oneAndTwoBytes (c : Bool) : List UInt8 :=
  if c then logCodeMessage 1 8 ++ logCodeMessage 2 9 else logCodeMessage 1 7

/-- All three frames have been stored, and the last two of them are kept. -/
theorem packets_recent_contended :
    let service := serve messagePack ⟨2, none⟩ 0 logCodeParser (fun c => [.ok (oneAndTwoBytes c)])
      (List.replicate 30 [(false, .ok 0), (true, .ok 0)]).flatten
    (∃ store, service.shared.read = some store ∧ packets none store = [8, 9]) ∧
      ∀ c, oneAndTwo c = framesOf c service.shared.updates ++ (service.own c).ahead messagePack := by
  intro service
  obtain ⟨hrecent, hconnections⟩ := packets_recent messagePack ⟨2, none⟩ 0 logCodeParser
    (fun c => [.ok (oneAndTwoBytes c)]) (List.replicate 30 [(false, .ok 0), (true, .ok 0)]).flatten
    messagePack_faithful
  refine ⟨?_, ?_⟩
  · have hread : service.shared.read.isSome = true := by decide +kernel
    have hvalues : service.shared.updates.map (fun update => update.2.value) = [7, 8, 9] := by
      decide +kernel
    obtain ⟨store, hstore⟩ := Option.isSome_iff_exists.mp hread
    obtain ⟨hreceived, hpackets⟩ := hrecent store hstore
    have hthree : store.received = 3 := by
      rw [hreceived, ← List.length_map (fun update => update.2.value), hvalues]
      rfl
    refine ⟨store, hstore, ?_⟩
    rw [hpackets none, hvalues, hthree]
    rfl
  · intro c
    have hsent : (Session.each (WireSink.send messagePack) (oneAndTwo c)).run WireSink.unbroken =
        some (.ok (), { WireSink.unbroken with written := oneAndTwoBytes c }) := by
      cases c
      · rfl
      · rfl
    have delivered : Delivers noRetry [.ok (oneAndTwoBytes c)] (oneAndTwoBytes c) := by
      apply delivers_single
      cases c <;> decide
    have bounded : ∀ sent ∈ oneAndTwo c, ∃ payload,
        encodeWireFrame messagePack sent = .ok payload ∧ payload.length ≤ maxWireFrame := by
      cases c with
      | false => exact List.forall_mem_singleton.mpr ⟨_, rfl, by decide⟩
      | true =>
        exact List.forall_mem_cons.mpr ⟨⟨_, rfl, by decide⟩,
          List.forall_mem_singleton.mpr ⟨_, rfl, by decide⟩⟩
    have hfinished : (match (service.own c).phase with
        | .finished (.error _) => false
        | _ => true) = true := by
      cases c <;> decide +kernel
    apply (hconnections c (oneAndTwo c) _ _ _ hsent).2 rfl delivered bounded
    intro hfailed
    obtain ⟨err, herr⟩ := hfailed
    rw [herr] at hfinished
    cases hfinished

end SixGrok.Api
