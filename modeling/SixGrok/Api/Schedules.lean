import SixGrok.Api.Service

namespace SixGrok.Api

open SixGrok.Framework SixGrok.Core

section Schedules

variable {φ ν κ : Type} {parser : Parser φ ν} (codec : Codec) (settings : Settings)

section Lock

variable (startedAtMs : Int64)

/-- While nobody is writing, the store is what the logged updates make of an empty one. -/
def Settled (state : AppState κ parser) : Prop :=
  state.writer = none →
    state.store = stored settings.historyLimit startedAtMs (state.updates.map Prod.snd)

/-- A connection is in its critical section exactly when it holds the lock, and what it still
has to do there completes one more update. -/
def Critical (c : κ) : Connection parser × AppState κ parser → Prop
  | (⟨_, .updating packet ops⟩, state) =>
    state.writer = some c ∧ perform settings.historyLimit ops state.store =
      stored settings.historyLimit startedAtMs (state.updates.map Prod.snd ++ [packet])
  | (_, state) => state.writer ≠ some c

/-- What the other connections leave alone: a lock that is held, and what it protects. -/
def Guarded (c : κ) (state state' : AppState κ parser) : Prop :=
  (state.writer = some c →
    state'.writer = some c ∧ state'.store = state.store ∧ state'.updates = state.updates) ∧
  (state.writer ≠ some c → state'.writer ≠ some c)

theorem critical_keeps {c : κ} {before after : Connection parser × AppState κ parser}
    (step : Step codec settings c before after)
    (settled : Settled settings startedAtMs before.2)
    (critical : Critical settings startedAtMs c before) :
    Settled settings startedAtMs after.2 ∧ Critical settings startedAtMs c after := by
  cases step with
  | waits | receives | ends | skips | mirrors | mirrorFails | serializes | serializeFails |
    broadcasts => exact ⟨settled, critical⟩
  | @locks reads packet state hfree =>
    have hstore := settled hfree
    refine ⟨?_, rfl, ?_⟩
    · intro hwriter
      cases hwriter
    · show update settings.historyLimit state.store packet = _
      rw [stored_append_singleton, hstore]
  | updates =>
    obtain ⟨hwriter, hperform⟩ := critical
    refine ⟨?_, hwriter, hperform⟩
    intro hfree
    rw [hwriter] at hfree
    cases hfree
  | @unlocks reads packet state =>
    obtain ⟨-, hstore⟩ := critical
    refine ⟨?_, ?_⟩
    · intro _
      show state.store = _
      rw [List.map_append, List.map_singleton]
      exact hstore
    · intro hwriter
      cases hwriter

theorem critical_guards {c other : κ} (hne : c ≠ other)
    {before after : Connection parser × AppState κ parser}
    (step : Step codec settings other before after)
    (critical : Critical settings startedAtMs other before) : Guarded c before.2 after.2 := by
  have same (state : AppState κ parser) : Guarded c state state :=
    ⟨fun h => ⟨h, rfl, rfl⟩, fun h => h⟩
  have excluded {state : AppState κ parser} (holds : state.writer = some other) :
      state.writer ≠ some c := by
    rw [holds]
    exact fun h => hne (Option.some.inj h).symm
  cases step with
  | waits | receives | ends | skips | mirrors | mirrorFails | serializes | serializeFails |
    broadcasts => exact same _
  | @locks reads packet state hfree =>
    refine ⟨?_, ?_⟩
    · intro hwriter
      rw [hfree] at hwriter
      cases hwriter
    · intro _ hwriter
      exact hne (Option.some.inj hwriter).symm
  | updates =>
    have hnot := excluded critical.1
    exact ⟨fun hwriter => absurd hwriter hnot, fun h => h⟩
  | unlocks =>
    have hnot := excluded critical.1
    refine ⟨fun hwriter => absurd hwriter hnot, ?_⟩
    intro _ hwriter
    cases hwriter

theorem critical_stable {c : κ} {conn : Connection parser} {state state' : AppState κ parser}
    (critical : Critical settings startedAtMs c (conn, state)) (guarded : Guarded c state state') :
    Critical settings startedAtMs c (conn, state') := by
  obtain ⟨reads, phase⟩ := conn
  cases phase with
  | updating packet ops =>
    obtain ⟨hwriter, hperform⟩ := critical
    obtain ⟨hwriter', hstore, hupdates⟩ := guarded.1 hwriter
    refine ⟨hwriter', ?_⟩
    rw [hstore, hupdates]
    exact hperform
  | receiving | mirroring | decoding | locking | broadcasting | finished =>
    exact guarded.2 critical

theorem critical_holder {c : κ} {conn : Connection parser} {state : AppState κ parser}
    (critical : Critical settings startedAtMs c (conn, state)) (hwriter : state.writer = some c) :
    ∃ reads packet ops, conn = ⟨reads, .updating packet ops⟩ := by
  obtain ⟨reads, phase⟩ := conn
  cases phase with
  | updating packet ops => exact ⟨reads, packet, ops, rfl⟩
  | _ => exact absurd hwriter critical

variable (parser) in
theorem critical_compatible :
    Tasks.Compatible (connectionTurn codec settings parser) (Settled settings startedAtMs)
      (Critical settings startedAtMs : κ → Connection parser × AppState κ parser → Prop) Guarded where
  keeps c sent _ _ settled critical :=
    critical_keeps codec settings startedAtMs (connectionTurn_step codec settings c sent _) settled
      critical
  guarantees _ other sent _ _ hne critical :=
    critical_guards codec settings startedAtMs hne (connectionTurn_step codec settings other sent _)
      critical
  stable _ _ _ _ := critical_stable settings startedAtMs

end Lock

section Accounts

variable [DecidableEq κ]

/-- The frames of one connection in a log of all of them. -/
def framesOf (c : κ) (log : List (κ × Packet parser)) : List CaptureFrame :=
  (log.filter (fun entry => entry.1 = c)).map (fun entry => entry.2.frame)

theorem framesOf_own (c : κ) (packet : Packet parser) (log : List (κ × Packet parser)) :
    framesOf c (log ++ [(c, packet)]) = framesOf c log ++ [packet.frame] := by
  simp [framesOf]

theorem framesOf_other {c other : κ} (h : c ≠ other) (packet : Packet parser)
    (log : List (κ × Packet parser)) :
    framesOf c (log ++ [(other, packet)]) = framesOf c log := by
  simp [framesOf, Ne.symm h]

/-- The frames of a connection that are not stored yet, the one in hand first. -/
def Connection.ahead (conn : Connection parser) : List CaptureFrame :=
  let unread := (carried ServiceError codec conn.reads).1
  match conn.phase with
  | .receiving => unread
  | .mirroring frame => frame :: unread
  | .decoding frame => frame :: unread
  | .locking packet => packet.frame :: unread
  | .updating packet _ => packet.frame :: unread
  | .broadcasting _ => unread
  | .finished _ => []

def Connection.failed (conn : Connection parser) : Prop := ∃ err, conn.phase = .finished (.error err)

/-- Every frame of a connection is stored or still ahead, once and in its place, unless the
connection has failed: then it has lost the frames from some point on. -/
def Accounted (input : κ → List ReadOutcome) (c : κ) :
    Connection parser × AppState κ parser → Prop
  | (conn, state) => ∃ lost, (carried ServiceError codec (input c)).1 =
      framesOf c state.updates ++ (conn.ahead codec ++ lost) ∧ (lost = [] ∨ conn.failed)

theorem accounted_keeps {input : κ → List ReadOutcome} {c : κ}
    {before after : Connection parser × AppState κ parser}
    (step : Step codec settings c before after) (accounted : Accounted codec input c before) :
    Accounted codec input c after := by
  obtain ⟨lost, hframes, hlost⟩ := accounted
  have running {reads : List ReadOutcome} {phase : Phase parser}
      (h : lost = [] ∨ (Connection.mk reads phase).failed)
      (hphase : ∀ result, phase ≠ .finished result) : lost = [] := by
    rcases h with h | ⟨err, herr⟩
    · exact h
    · exact absurd herr (hphase _)
  cases step with
  | waits => exact ⟨lost, hframes, hlost⟩
  | @receives reads rest frame state hreceive =>
    refine ⟨lost, ?_, .inl (running hlost nofun)⟩
    rw [hframes, Connection.ahead, carried_next ServiceError hreceive]
    rfl
  | @ends reads result state hreceive =>
    refine ⟨lost, ?_, .inl (running hlost nofun)⟩
    rw [hframes, Connection.ahead, carried_stop ServiceError hreceive]
    rfl
  | skips | mirrors | locks | updates | broadcasts =>
    exact ⟨lost, hframes, .inl (running hlost nofun)⟩
  | mirrorFails | serializeFails => exact ⟨_, hframes, .inr ⟨_, rfl⟩⟩
  | serializes hframe =>
    subst hframe
    exact ⟨lost, hframes, .inl (running hlost nofun)⟩
  | unlocks =>
    refine ⟨lost, ?_, .inl (running hlost nofun)⟩
    rw [hframes, framesOf_own, List.append_assoc]
    rfl

theorem accounted_guards {c other : κ} (hne : c ≠ other)
    {before after : Connection parser × AppState κ parser}
    (step : Step codec settings other before after) :
    framesOf c after.2.updates = framesOf c before.2.updates := by
  cases step with
  | unlocks => exact framesOf_other hne _ _
  | _ => rfl

variable (parser) in
theorem accounted_compatible (input : κ → List ReadOutcome) :
    Tasks.Compatible (connectionTurn codec settings parser) (fun _ => True) (Accounted codec input)
      (fun c state state' => framesOf c state'.updates = framesOf c state.updates) where
  keeps c sent _ _ _ accounted :=
    ⟨trivial, accounted_keeps codec settings (connectionTurn_step codec settings c sent _) accounted⟩
  guarantees _ other sent _ _ hne _ :=
    accounted_guards codec settings hne (connectionTurn_step codec settings other sent _)
  stable c conn state state' accounted hsame := by
    obtain ⟨lost, hframes, hlost⟩ := accounted
    rw [← hsame] at hframes
    exact ⟨lost, hframes, hlost⟩

end Accounts

section Serve

variable [DecidableEq κ] (startedAtMs : Int64)

/-- The service at its start, with what each connection is going to bring. -/
def started (parser : Parser φ ν) (input : κ → List ReadOutcome) :
    Tasks κ (Connection parser) (AppState κ parser) where
  own := fun c => ⟨input c, .receiving⟩
  shared := { store := { startedAtMs } }

/-- The service after the connections have had their turns in this order. -/
def serve (parser : Parser φ ν) (input : κ → List ReadOutcome)
    (schedule : List (κ × Except ErrorKind Nat)) :
    Tasks κ (Connection parser) (AppState κ parser) :=
  (started startedAtMs parser input).run (connectionTurn codec settings parser) schedule

variable (parser) (input : κ → List ReadOutcome) (schedule : List (κ × Except ErrorKind Nat))

variable {parser codec settings startedAtMs input schedule} in
/-- Whoever can look at the store finds what the updates logged so far make of an empty one. -/
theorem serve_read {store : Store ν}
    (h : (serve codec settings startedAtMs parser input schedule).shared.read = some store) :
    store = stored settings.historyLimit startedAtMs
      ((serve codec settings startedAtMs parser input schedule).shared.updates.map Prod.snd) := by
  have hrun := (critical_compatible parser codec settings startedAtMs).run schedule
    (started startedAtMs parser input) (fun _ => rfl) (fun _ => nofun)
  have hsettled := hrun.1
  rw [AppState.read] at h
  cases hwriter : (serve codec settings startedAtMs parser input schedule).shared.writer with
  | none =>
    rw [hwriter] at h
    rw [← Option.some.inj h]
    exact hsettled hwriter
  | some holder =>
    rw [hwriter] at h
    cases h

theorem serve_accounted (c : κ) :
    Accounted codec input c ((serve codec settings startedAtMs parser input schedule).own c,
      (serve codec settings startedAtMs parser input schedule).shared) := by
  have hstart (c : κ) : Accounted codec input c
      ((started startedAtMs parser input).own c, (started startedAtMs parser input).shared) :=
    ⟨[], (List.append_nil _).symm, .inl rfl⟩
  have hrun := (accounted_compatible parser codec settings input).run schedule
    (started startedAtMs parser input) trivial hstart
  exact hrun.2 c

end Serve

end Schedules

end SixGrok.Api
