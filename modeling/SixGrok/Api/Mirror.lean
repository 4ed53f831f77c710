import SixGrok.Api.Disconnect
import SixGrok.Api.Live

namespace SixGrok.Api

open SixGrok.Framework SixGrok.Core

section Mirror

variable {φ ν κ : Type}

/-- What a connection that has the service to itself works on. -/
structure Ingestion (parser : Parser φ ν) where
  store : Store ν
  datagrams : List Datagram := []
  live : List (Packet parser) := []
  -- how many datagrams have been handed to the socket
  attempts : Nat := 0

variable (codec : Codec) (settings : Settings) (parser : Parser φ ν)
  -- what `send_to` comes back with, time after time
  (udp : Nat → Except ErrorKind Nat)

/-- `process_frame` from the decoding on. -/
def publish (frame : CaptureFrame) (state : Ingestion parser) :
    Except ServiceError Unit × Ingestion parser :=
  match serialize parser frame with
  | .error err => (.error err, state)
  | .ok packet =>
    (.ok (), { state with store := update settings.historyLimit state.store packet,
                          live := state.live ++ [packet] })

def processFrame : Consumer (Ingestion parser) ServiceError CaptureFrame := fun frame state =>
  match mirrored settings.gsmtap frame with
  | none => publish settings parser frame state
  | some datagram =>
    match udp state.attempts with
    | .error kind => (.error (.sendingGsmtap kind), { state with attempts := state.attempts + 1 })
    | .ok _ =>
      publish settings parser frame
        { state with datagrams := state.datagrams ++ [datagram], attempts := state.attempts + 1 }

section Turns

variable {parser} {codec settings}

theorem turns_updating (c : κ) (sent : Except ErrorKind Nat) (reads : List ReadOutcome)
    (packet : Packet parser) (ops : List (StoreOp ν)) (state : AppState κ parser) :
    (connectionTurn codec settings parser c sent)^[ops.length] (⟨reads, .updating packet ops⟩, state) =
      (⟨reads, .updating packet []⟩,
        { state with store := perform settings.historyLimit ops state.store }) := by
  induction ops generalizing state with
  | nil => rfl
  | cons op ops ih => exact ih _

/-- What a connection by itself makes of the state that it shares. -/
def AppState.alone (state : AppState κ parser) (attempts : Nat) : Ingestion parser where
  store := state.store
  datagrams := state.datagrams
  live := state.live.map Prod.snd
  attempts := attempts

variable (parser) in
/-- Where a connection goes on when `process_frame` has come back. -/
def Phase.processed : Except ServiceError Unit → Phase parser
  | .ok () => .receiving
  | .error err => .finished (.error (.processing err))

variable (codec settings) in
/-- With nobody in between, the turns from a phase on do what `process_frame` does. -/
def Completes (c : κ) (sent : Except ErrorKind Nat) (reads : List ReadOutcome)
    (phase : Phase parser) (state : AppState κ parser)
    (processed : Except ServiceError Unit × Ingestion parser) : Prop :=
  ∃ n state', (connectionTurn codec settings parser c sent)^[n] (⟨reads, phase⟩, state) =
      (⟨reads, .processed parser processed.1⟩, state') ∧
    state'.writer = none ∧ state'.alone processed.2.attempts = processed.2

variable (codec settings) in
theorem turns_publish (c : κ) (sent : Except ErrorKind Nat) (reads : List ReadOutcome)
    (frame : CaptureFrame) (state : AppState κ parser) (free : state.writer = none)
    (attempts : Nat) :
    Completes codec settings c sent reads (.decoding frame) state
      (publish settings parser frame (state.alone attempts)) := by
  rw [publish]
  cases hserialize : serialize parser frame with
  | error err =>
    refine ⟨1, state, ?_, free, rfl⟩
    rw [Function.iterate_one, connectionTurn, hserialize]
    rfl
  | ok packet =>
    -- to the lock, through the critical section, and out of it to the broadcast
    refine ⟨2 + ((storeOps packet).length + 2),
      { state with
        store := update settings.historyLimit state.store packet, writer := none,
        updates := state.updates ++ [(c, packet)], live := state.live ++ [(c, packet)] },
      ?_, rfl, ?_⟩
    · rw [Function.iterate_add_apply, Function.iterate_add_apply _ _ 2]
      simp only [Function.iterate_succ_apply, Function.iterate_zero_apply, connectionTurn,
        hserialize, free, turns_updating]
      rfl
    · simp [AppState.alone]

/-- The turns of a connection that nobody interrupts, from a frame on, are `process_frame`. -/
theorem turns_processFrame (c : κ) (sent : Except ErrorKind Nat) (reads : List ReadOutcome)
    (frame : CaptureFrame) (state : AppState κ parser) (free : state.writer = none)
    (attempts : Nat) :
    Completes codec settings c sent reads (.mirroring frame) state
      (processFrame settings parser (fun _ => sent) frame (state.alone attempts)) := by
  rw [processFrame]
  cases hmirrored : mirrored settings.gsmtap frame with
  | none =>
    obtain ⟨n, state', hturns, hrest⟩ :=
      turns_publish codec settings c sent reads frame state free attempts
    refine ⟨n + 1, state', ?_, hrest⟩
    rw [Function.iterate_succ_apply, connectionTurn, hmirrored]
    exact hturns
  | some datagram =>
    cases sent with
    | error kind =>
      refine ⟨1, state, ?_, free, rfl⟩
      rw [Function.iterate_one, connectionTurn, hmirrored]
      rfl
    | ok size =>
      obtain ⟨n, state', hturns, hrest⟩ := turns_publish codec settings c (.ok size) reads frame
        { state with datagrams := state.datagrams ++ [datagram] } free (attempts + 1)
      refine ⟨n + 1, state', ?_, hrest⟩
      rw [Function.iterate_succ_apply, connectionTurn, hmirrored]
      exact hturns

end Turns

section Interference

/-- What the API shows of two states is the same. -/
def Ingestion.Agrees {parser : Parser φ ν} (state state' : Ingestion parser) : Prop :=
  state.store = state'.store ∧ state.live = state'.live

theorem publish_agrees {state state' : Ingestion parser} (agrees : state.Agrees state')
    (frame : CaptureFrame) :
    (publish settings parser frame state).1 = (publish settings parser frame state').1 ∧
      (publish settings parser frame state).2.Agrees (publish settings parser frame state').2 := by
  obtain ⟨hstore, hlive⟩ := agrees
  rw [publish, publish]
  cases serialize parser frame with
  | error err => exact ⟨rfl, hstore, hlive⟩
  | ok packet =>
    refine ⟨rfl, ?_, ?_⟩
    · exact congrArg (update settings.historyLimit · packet) hstore
    · exact congrArg (· ++ [packet]) hlive

theorem publish_attempts (frame : CaptureFrame) (state : Ingestion parser) :
    (publish settings parser frame state).2.attempts = state.attempts := by
  rw [publish]
  cases serialize parser frame <;> rfl

def Settings.unmirrored (settings : Settings) : Settings := { settings with gsmtap := none }

theorem processFrame_unmirrored (frame : CaptureFrame) (state : Ingestion parser) :
    processFrame settings.unmirrored parser udp frame state = publish settings parser frame state := by
  have hnone : mirrored settings.unmirrored.gsmtap frame = none := by
    unfold mirrored
    split <;> rfl
  rw [processFrame, hnone]
  rfl

/-- The attempts from one number on to another have all succeeded. -/
def Sent (first last : Nat) : Prop := ∀ n, first ≤ n → n < last → ∃ size, udp n = .ok size

variable {udp} in
theorem Sent.trans {first middle last : Nat} (h : Sent udp first middle)
    (h' : Sent udp middle last) : Sent udp first last := by
  intro n hfirst hlast
  rcases Nat.lt_or_ge n middle with hlt | hge
  · exact h n hfirst hlt
  · exact h' n hge hlast

variable {udp} in
theorem Sent.not_error {first last n : Nat} {kind : ErrorKind} (h : Sent udp first last)
    (hfirst : first ≤ n) (hlast : n < last) : udp n ≠ .error kind := by
  obtain ⟨size, hsize⟩ := h n hfirst hlast
  rw [hsize]
  simp

theorem sent_self (n : Nat) : Sent udp n n := by
  intro m hfirst hlast
  exact absurd hlast (Nat.not_lt.mpr hfirst)

/-- With the mirror and without it a frame has the same effect, or its datagram is not sent. -/
theorem processFrame_agrees {state state' : Ingestion parser} (agrees : state.Agrees state')
    (frame : CaptureFrame) :
    let on := processFrame settings parser udp frame state
    let off := processFrame settings.unmirrored parser udp frame state'
    (on.1 = off.1 ∧ on.2.Agrees off.2 ∧ state.attempts ≤ on.2.attempts ∧
      Sent udp state.attempts on.2.attempts) ∨
    ∃ kind, udp state.attempts = .error kind ∧ on.1 = .error (.sendingGsmtap kind) ∧
      on.2.Agrees state' ∧ on.2.attempts = state.attempts + 1 := by
  intro on off
  have hoff : off = publish settings parser frame state' := processFrame_unmirrored ..
  cases hmirrored : mirrored settings.gsmtap frame with
  | none =>
    have hon : on = publish settings parser frame state := by
      simp only [on, processFrame, hmirrored]
    left
    obtain ⟨hresult, hagrees⟩ := publish_agrees settings parser agrees frame
    have hattempts := publish_attempts settings parser frame state
    rw [hon, hoff, hattempts]
    exact ⟨hresult, hagrees, Nat.le_refl _, sent_self udp _⟩
  | some datagram =>
    cases hudp : udp state.attempts with
    | error kind =>
      have hon : on = (.error (.sendingGsmtap kind), { state with attempts := state.attempts + 1 }) := by
        simp only [on, processFrame, hmirrored, hudp]
      right
      rw [hon]
      exact ⟨kind, rfl, rfl, agrees, rfl⟩
    | ok size =>
      have hon : on = publish settings parser frame { state with
          datagrams := state.datagrams ++ [datagram], attempts := state.attempts + 1 } := by
        simp only [on, processFrame, hmirrored, hudp]
      left
      have hattempted : Ingestion.Agrees { state with
          datagrams := state.datagrams ++ [datagram], attempts := state.attempts + 1 } state' := agrees
      obtain ⟨hresult, hagrees⟩ := publish_agrees settings parser hattempted frame
      have hattempts := publish_attempts settings parser frame { state with
          datagrams := state.datagrams ++ [datagram], attempts := state.attempts + 1 }
      rw [hon, hoff, hattempts]
      refine ⟨hresult, hagrees, Nat.le_succ _, ?_⟩
      intro n hfirst hlast
      obtain rfl : n = state.attempts := by
        dsimp only at hlast
        omega
      exact ⟨size, hudp⟩

/-- With the mirror and without it the frames of a connection have the same effect, up to the
first whose datagram is not sent. -/
theorem replay_agrees (frames : List CaptureFrame) {state state' : Ingestion parser}
    (agrees : state.Agrees state') :
    let on := replay (processFrame settings parser udp) frames state
    let off := replay (processFrame settings.unmirrored parser udp)
    (on.1 = (off frames state').1 ∧ on.2.1 = (off frames state').2.1 ∧
      on.2.2.Agrees (off frames state').2.2 ∧ Sent udp state.attempts on.2.2.attempts) ∨
    ∃ n kind final, udp n = .error kind ∧ state.attempts ≤ n ∧ on.2.2.attempts = n + 1 ∧
      Sent udp state.attempts n ∧
      on.2.1 = .error (.processing (.sendingGsmtap kind)) ∧ on.1 <+: frames ∧
      off on.1 state' = (on.1, .ok (), final) ∧ on.2.2.Agrees final := by
  induction frames generalizing state state' with
  | nil =>
    left
    exact ⟨rfl, rfl, agrees, sent_self udp _⟩
  | cons frame frames ih =>
    intro on off
    rcases hon : processFrame settings parser udp frame state with ⟨result, next⟩
    rcases hoff : processFrame settings.unmirrored parser udp frame state' with ⟨result', next'⟩
    have hframe := processFrame_agrees settings parser udp agrees frame
    simp only [hon, hoff] at hframe
    rcases hframe with ⟨rfl, hagrees, hattempts, hsent⟩ | ⟨kind, hudp, rfl, hagrees, hattempts⟩
    · cases result with
      | error err =>
        left
        simp only [on, off, replay, hon, hoff]
        exact ⟨trivial, trivial, hagrees, hsent⟩
      | ok _ =>
        simp only [on, off, replay, hon, hoff]
        rcases ih hagrees with ⟨hdone, hresult, hlast, hrest⟩ |
          ⟨n, kind, final, hudp, hfirst, hlast, hrest, hresult, hbegins, hdone, hfinal⟩
        · left
          exact ⟨congrArg (frame :: ·) hdone, hresult, hlast, hsent.trans hrest⟩
        · right
          refine ⟨n, kind, final, hudp, hattempts.trans hfirst, hlast, hsent.trans hrest, hresult,
            (List.prefix_cons_inj frame).mpr hbegins, ?_, hfinal⟩
          rw [hdone]
    · right
      simp only [on, off, replay, hon]
      exact ⟨state.attempts, kind, state', hudp, Nat.le_refl _, hattempts, sent_self udp _, rfl,
        List.nil_prefix, rfl, hagrees⟩

/-- The mirror shows in nothing but its own failures: as long as the datagrams are sent, a
connection leaves the same store and the same live packets and ends in the same way as without
it; and when one is not, the connection ends there, with the store and the live packets that the
frames before it leave. -/
theorem mirror_interference (reads : List ReadOutcome) (state : Ingestion parser) :
    let on := ingestClient codec (processFrame settings parser udp) reads state
    let off := ingestClient codec (processFrame settings.unmirrored parser udp) reads state
    (Sent udp state.attempts on.2.2.attempts →
      on.1 = off.1 ∧ on.2.1 = off.2.1 ∧ on.2.2.store = off.2.2.store ∧
        on.2.2.live = off.2.2.live) ∧
    ∀ n kind, state.attempts ≤ n → n < on.2.2.attempts → udp n = .error kind →
      on.2.1 = .error (.processing (.sendingGsmtap kind)) ∧
      on.1 <+: (carried ServiceError codec reads).1 ∧
      ∃ final, Consumer.feedAll (processFrame settings.unmirrored parser udp) on.1 state =
          (.ok (), final) ∧
        on.2.2.store = final.store ∧ on.2.2.live = final.live := by
  intro on off
  have hon : on = _ := ingestClient_eq codec (processFrame settings parser udp) reads state
  have hoff : off = _ := ingestClient_eq codec (processFrame settings.unmirrored parser udp) reads state
  have same : state.Agrees state := ⟨rfl, rfl⟩
  rcases replay_agrees settings parser udp (carried ServiceError codec reads).1 same with
    ⟨hdone, hresult, ⟨hstore, hlive⟩, hsent⟩ |
    ⟨n, kind, final, hudp, hfirst, hlast, hsent, hresult, hbegins, hdone, hstore, hlive⟩
  · refine ⟨?_, ?_⟩
    · intro _
      rw [hon, hoff]
      refine ⟨hdone, ?_, hstore, hlive⟩
      dsimp only
      rw [hresult]
    · intro n kind hfirst hlast hudp
      rw [hon] at hlast
      exact absurd hudp (hsent.not_error hfirst hlast)
  · refine ⟨?_, ?_⟩
    · intro hall
      rw [hon] at hall
      have hattempted := Nat.lt_of_lt_of_eq (Nat.lt_succ_self n) hlast.symm
      exact absurd hudp (hall.not_error hfirst hattempted)
    · intro m kind' hm hm' hudp'
      rw [hon] at hm'
      -- only the last attempt can have failed
      have hn : m = n := by
        rcases Nat.lt_or_ge m n with hlt | hge
        · exact absurd hudp' (hsent.not_error hm hlt)
        · dsimp only at hm'
          omega
      subst hn
      obtain rfl : kind = kind' := Except.error.inj (hudp.symm.trans hudp')
      have hprocessed := processed_of_replay (congrArg (fun run => run.2.1) hdone)
      rw [hdone] at hprocessed
      rw [hon]
      refine ⟨?_, hbegins, final, hprocessed.2, hstore, hlive⟩
      dsimp only
      rw [hresult]
      rfl

/-- A Qualcomm frame whose datagram is not sent: with the mirror it is lost and the connection
fails, without it is stored. -/
theorem mirror_failure :
    let reads : List ReadOutcome := [.ok [0, 0, 0, 16, 0x92, 0xA5, 0x46, 0x72, 0x61, 0x6D, 0x65,
      0x96, 1, 1, 1, 7, 0x92, 7, 0, 0]]
    let on := ingestClient messagePack (processFrame ⟨1, some ⟨"127.0.0.1:4729"⟩⟩ logCodeParser
      (fun _ => .error .other)) reads { store := { startedAtMs := 0 } }
    let off := ingestClient messagePack (processFrame ⟨1, none⟩ logCodeParser
      (fun _ => .error .other)) reads { store := { startedAtMs := 0 } }
    on.2.1 = .error (.processing (.sendingGsmtap .other)) ∧ off.2.1 = .ok () ∧
      on.2.2.store.received = 0 ∧ off.2.2.store.received = 1 ∧
      on.2.2.live.length = 0 ∧ off.2.2.live.length = 1 := by
  decide

end Interference

end Mirror

end SixGrok.Api
