import SixGrok.Api.Delivery
import SixGrok.Api.History
import SixGrok.Framework.Fair

namespace SixGrok.Api

open SixGrok.Framework SixGrok.Core

section Rank

variable {φ ν κ : Type} {parser : Parser φ ν}

/-- How far a connection is from the end of the frame in hand. -/
def Phase.rank : Phase parser → Nat
  | .finished _ => 0
  | .receiving => 1
  | .broadcasting _ => 2
  | .updating _ ops => 3 + ops.length
  | .locking _ => 11
  | .decoding _ => 12
  | .mirroring _ => 13

/-- What a connection still has to do, the bytes that it has not read first. -/
def Connection.rank (conn : Connection parser) : Nat := 16 * readBytes conn.reads + conn.phase.rank

/-- Where a connection can do nothing: at its end, or before a lock that is held. -/
def Connection.Blocked (conn : Connection parser) (state : AppState κ parser) : Prop :=
  (∃ result, conn.phase = .finished result) ∨
    ∃ packet holder, conn.phase = .locking packet ∧ state.writer = some holder

theorem storeOps_length_le (packet : Packet parser) : (storeOps packet).length ≤ 7 := by
  rw [storeOps]
  cases packet.decoded.fullyDecoded <;> simp

variable (codec : Codec) (settings : Settings)

theorem turn_blocked {c : κ} {sent : Except ErrorKind Nat} {conn : Connection parser}
    {state : AppState κ parser} (blocked : conn.Blocked state) :
    connectionTurn codec settings parser c sent (conn, state) = (conn, state) := by
  obtain ⟨reads, phase⟩ := conn
  rcases blocked with ⟨result, rfl⟩ | ⟨packet, holder, rfl, hwriter⟩
  · rfl
  · simp only [connectionTurn, hwriter]

theorem turn_lowers (c : κ) (sent : Except ErrorKind Nat) {conn : Connection parser}
    {state : AppState κ parser} (free : ¬ conn.Blocked state) :
    (connectionTurn codec settings parser c sent (conn, state)).1.rank < conn.rank := by
  obtain ⟨reads, phase⟩ := conn
  cases phase with
  | receiving =>
    cases hreceive : receiveFrame ServiceError codec reads with
    | stop result => simp [connectionTurn, hreceive, Connection.rank, Phase.rank]
    | next frame rest =>
      have hshrinks := receiveFrame_shrinks ServiceError codec _ _ _ hreceive
      simp only [connectionTurn, hreceive, Connection.rank, Phase.rank]
      omega
  | mirroring frame =>
    cases hmirrored : mirrored settings.gsmtap frame with
    | none => simp [connectionTurn, hmirrored, Connection.rank, Phase.rank]
    | some datagram => cases sent <;> simp [connectionTurn, hmirrored, Connection.rank, Phase.rank]
  | decoding frame =>
    cases hserialize : serialize parser frame <;>
      simp [connectionTurn, hserialize, Connection.rank, Phase.rank]
  | locking packet =>
    cases hwriter : state.writer with
    | none =>
      have hops := storeOps_length_le packet
      simp only [connectionTurn, hwriter, Connection.rank, Phase.rank]
      omega
    | some holder => exact absurd (.inr ⟨packet, holder, rfl, hwriter⟩) free
  | updating packet ops => cases ops <;> simp [connectionTurn, Connection.rank, Phase.rank]
  | broadcasting packet => simp [connectionTurn, Connection.rank, Phase.rank]
  | finished result => exact absurd (.inl ⟨result, rfl⟩) free

end Rank

section Healthy

variable {φ ν κ : Type} {parser : Parser φ ν} (codec : Codec) (settings : Settings)

end Healthy

section Finishes

variable {φ ν κ : Type} {parser : Parser φ ν} (codec : Codec) (settings : Settings)
  (startedAtMs : Int64)

/-- Everything that the connections still have to do. -/
def workLeft [Fintype κ] (service : Tasks κ (Connection parser) (AppState κ parser)) : Nat :=
  ∑ c, (service.own c).rank

def AllFinished (service : Tasks κ (Connection parser) (AppState κ parser)) : Prop :=
  ∀ c, ∃ result, (service.own c).phase = .finished result

/-- The lock is held just by a connection in its critical section. -/
def Sound (service : Tasks κ (Connection parser) (AppState κ parser)) : Prop :=
  Settled settings startedAtMs service.shared ∧
    ∀ c, Critical settings startedAtMs c (service.own c, service.shared)

variable {service : Tasks κ (Connection parser) (AppState κ parser)} {c : κ}

/-- Whoever waits for the lock waits for one that can go on. -/
theorem exists_free (sound : Sound settings startedAtMs service) (working : ¬ AllFinished service) :
    ∃ c, ¬ (service.own c).Blocked service.shared := by
  by_contra hnone
  push Not at hnone
  apply working
  intro c
  rcases hnone c with hfinished | ⟨packet, holder, -, hwriter⟩
  · exact hfinished
  · obtain ⟨reads, packet', ops, hown⟩ :=
      critical_holder settings startedAtMs (sound.2 holder) hwriter
    have hholder := hnone holder
    rw [hown] at hholder
    rcases hholder with ⟨_, hphase⟩ | ⟨_, _, hphase, -⟩ <;> cases hphase

theorem writer_of_finished (sound : Sound settings startedAtMs service)
    (finished : AllFinished service) : service.shared.writer = none := by
  by_contra hheld
  obtain ⟨holder, hwriter⟩ := Option.ne_none_iff_exists'.mp hheld
  obtain ⟨reads, packet, ops, hown⟩ := critical_holder settings startedAtMs (sound.2 holder) hwriter
  obtain ⟨result, hphase⟩ := finished holder
  rw [hown] at hphase
  cases hphase

variable [DecidableEq κ]

theorem turn_of_blocked (sent : Except ErrorKind Nat)
    (blocked : (service.own c).Blocked service.shared) :
    service.turn (connectionTurn codec settings parser) c sent = service := by
  rw [Tasks.turn, turn_blocked codec settings blocked]
  simp only [Function.update_eq_self]

variable [Fintype κ]

theorem workLeft_turn (sent : Except ErrorKind Nat)
    (free : ¬ (service.own c).Blocked service.shared) :
    workLeft (service.turn (connectionTurn codec settings parser) c sent) < workLeft service := by
  have hown := turn_lowers codec settings c sent free
  apply Finset.sum_lt_sum
  · intro other _
    by_cases h : other = c
    · subst h
      rw [Tasks.turn_own]
      exact hown.le
    · rw [Tasks.turn_own_of_ne _ _ h]
  · refine ⟨c, Finset.mem_univ c, ?_⟩
    rw [Tasks.turn_own]
    exact hown

variable (parser) in
theorem service_variant :
    Tasks.Variant (connectionTurn codec settings parser)
      (Sound settings startedAtMs : Tasks κ (Connection parser) (AppState κ parser) → Prop)
      AllFinished workLeft where
  keeps service c sent sound :=
    (critical_compatible parser codec settings startedAtMs).turn sound.1 sound.2 c sent
  lowers service c sent _ := by
    by_cases hblocked : (service.own c).Blocked service.shared
    · exact .inl (turn_of_blocked codec settings sent hblocked)
    · exact .inr (workLeft_turn codec settings sent hblocked)
  helps service sound working := by
    obtain ⟨c, hfree⟩ := exists_free settings startedAtMs sound working
    exact ⟨c, fun sent => workLeft_turn codec settings sent hfree⟩
  stays service c sent finished := turn_of_blocked codec settings sent (.inl (finished c))

variable (parser) (input : κ → List ReadOutcome)

theorem eventually_finished {turns : Nat → κ × Except ErrorKind Nat} (fair : Tasks.Fair turns) :
    ∃ n, ∀ m, n ≤ m →
      AllFinished (serve codec settings startedAtMs parser input (Tasks.first turns m)) := by
  obtain ⟨n, hn⟩ := (service_variant parser codec settings startedAtMs).eventually
    (serve_critical parser codec settings startedAtMs input []) fair
  exact ⟨n, fun m hnm => (hn m hnm).1⟩

end Finishes

section Finished

variable {φ ν κ : Type} (parser : Parser φ ν) [DecidableEq κ] (codec : Codec) (settings : Settings)
  (startedAtMs : Int64) (input : κ → List ReadOutcome) (schedule : List (κ × Except ErrorKind Nat))

/-- What is stored of a connection that has ended well. -/
theorem frames_of_finished {c : κ} :
    let service := serve codec settings startedAtMs parser input schedule
    (service.own c).phase = .finished (.ok ()) →
      framesOf c service.shared.updates = (carried ServiceError codec (input c)).1 := by
  intro service hphase
  have working : ¬ (service.own c).failed := by
    rintro ⟨err, herr⟩
    cases hphase.symm.trans herr
  have hframes := framesOf_ahead codec
    (serve_accounted parser codec settings startedAtMs input schedule c) working
  have hahead : (service.own c).ahead codec = [] := by
    rw [Connection.ahead, hphase]
  rw [hahead, List.append_nil] at hframes
  exact hframes.symm

theorem live_of_finished :
    let service := serve codec settings startedAtMs parser input schedule
    AllFinished service → service.shared.live.Perm service.shared.updates := by
  intro service finished
  apply perm_of_entriesOf
  intro c
  have hdelivered : entriesOf c service.shared.updates =
      entriesOf c service.shared.live ++ (service.own c).undelivered c :=
    serve_delivered parser codec settings startedAtMs input schedule c
  have hnothing : (service.own c).undelivered c = [] :=
    Connection.betweenFrames.undelivered (.inr (finished c))
  rw [hnothing, List.append_nil] at hdelivered
  exact hdelivered.symm

variable [Fintype κ]

/-- Whatever the connections bring, and whatever their sends come back with: under every schedule in
which no connection is forgotten, they all come to their end. Then the lock is free, everything stored
has been broadcast, and of every connection that has ended well all the frames are stored. -/
theorem serve_finishes {turns : Nat → κ × Except ErrorKind Nat} (fair : Tasks.Fair turns) :
    ∃ n, ∀ m, n ≤ m →
      let service := serve codec settings startedAtMs parser input (Tasks.first turns m)
      service.shared.writer = none ∧ service.shared.live.Perm service.shared.updates ∧
      ∀ c, ∃ result, (service.own c).phase = .finished result ∧
        (result = .ok () →
          framesOf c service.shared.updates = (carried ServiceError codec (input c)).1) := by
  obtain ⟨n, hn⟩ := eventually_finished parser codec settings startedAtMs input fair
  refine ⟨n, ?_⟩
  intro m hnm service
  have finished : AllFinished service := hn m hnm
  refine ⟨writer_of_finished settings startedAtMs
    (serve_critical parser codec settings startedAtMs input _) finished,
    live_of_finished parser codec settings startedAtMs input _ finished, ?_⟩
  intro c
  obtain ⟨result, hphase⟩ := finished c
  refine ⟨result, hphase, ?_⟩
  rintro rfl
  exact frames_of_finished parser codec settings startedAtMs input _ hphase

end Finished

/-- Two connections that take turns. -/
def alternating (n : Nat) : Bool × Except ErrorKind Nat := (n % 2 = 0, .ok 0)

theorem fair_alternating : Tasks.Fair alternating := by
  intro k n
  cases k with
  | true =>
    refine ⟨2 * n, by omega, ?_⟩
    simp [alternating]
  | false =>
    refine ⟨2 * n + 1, by omega, ?_⟩
    simp [alternating]

/-- A connection with a frame, and one that is cut off within a length. -/
theorem serve_finishes_alternating :
    let input (c : Bool) : List ReadOutcome := [.ok (if c then logCodeMessage 1 7 else [0, 0])]
    ∃ n, ∀ m, n ≤ m →
      let service := serve messagePack ⟨1, none⟩ 0 logCodeParser input (Tasks.first alternating m)
      service.shared.live.Perm service.shared.updates ∧
        ∀ c, ∃ result, (service.own c).phase = .finished result := by
  intro input
  obtain ⟨n, hn⟩ := serve_finishes logCodeParser messagePack ⟨1, none⟩ 0 input fair_alternating
  refine ⟨n, ?_⟩
  intro m hnm service
  obtain ⟨-, hlive, hfinished⟩ := hn m hnm
  refine ⟨hlive, ?_⟩
  intro c
  obtain ⟨result, hphase, -⟩ := hfinished c
  exact ⟨result, hphase⟩

end SixGrok.Api
