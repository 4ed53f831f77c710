import SixGrok.Qualcomm.Acknowledge
import SixGrok.Qualcomm.Batch

namespace SixGrok.Qualcomm

open SixGrok.Framework

section Response

variable (checksum : List UInt8 → UInt16)

/-- A log-config response for an operation. -/
def IsResponse (operation : UInt32) (packet : List UInt8) : Prop :=
  12 ≤ packet.length ∧ packet.head? = some 0x73 ∧
    u32FromLe ((packet.drop 4).take 4) = operation

instance (operation : UInt32) (packet : List UInt8) : Decidable (IsResponse operation packet) :=
  inferInstanceAs (Decidable (_ ∧ _))

/-- The packets of the frames in a stream that are valid, in order. -/
def validFrames (bytes : List UInt8) : List (List UInt8) :=
  (decodeBatch checksum bytes).filterMap Except.toOption

theorem answers_eq (operation : UInt32) (packet : List UInt8) :
    answers operation (.ok packet) = if IsResponse operation packet then some packet else none := by
  rw [answers]
  by_cases hresponse : 12 ≤ packet.length ∧ packet.head? = some 0x73
  · have hheader : ¬ (packet.length < 12 ∨ packet.head? ≠ some diagLogConfigF) :=
      not_or.mpr ⟨Nat.not_lt.mpr hresponse.1, not_not.mpr hresponse.2⟩
    have hop : readU32 packet 4 = .ok (u32FromLe ((packet.drop 4).take 4)) := by
      rw [readU32, if_pos (by omega)]
    have hstatus : readU32 packet 8 = .ok (u32FromLe ((packet.drop 8).take 4)) := by
      rw [readU32, if_pos hresponse.1]
    rw [parseLogConfigHeader, if_neg hheader, hop, hstatus]
    simp [bind, Except.bind, pure, Except.pure, IsResponse, hresponse]
  · have hheader : packet.length < 12 ∨ packet.head? ≠ some diagLogConfigF := by
      rcases not_and_or.mp hresponse with hshort | hhead
      · exact .inl (Nat.lt_of_not_le hshort)
      · exact .inr hhead
    have hnone : ¬ IsResponse operation packet := fun h => hresponse ⟨h.1, h.2.1⟩
    rw [parseLogConfigHeader, if_pos hheader, if_neg hnone]

/-- The first answer in a stream is the first valid frame that is a response. -/
theorem firstAnswer_eq (operation : UInt32) (bytes : List UInt8) :
    firstAnswer checksum operation bytes =
      (validFrames checksum bytes).find? fun frame => IsResponse operation frame := by
  rw [firstAnswer, feed_eq_decodeBatch, validFrames]
  induction decodeBatch checksum bytes with
  | nil => rfl
  | cons result results ih =>
    cases result with
    | error err => exact ih
    | ok packet =>
      have hkept : (Except.ok packet :: results).filterMap Except.toOption =
          packet :: results.filterMap (Except.toOption (ε := FrameError)) := rfl
      rw [List.findSome?_cons, answers_eq, hkept]
      by_cases hresponse : IsResponse operation packet
      · simp [hresponse]
      · simpa [hresponse] using ih

end Response

section First

variable {π : Type} {B : Backend π} {checksum : List UInt8 → UInt16}

/-- An answer in the bytes that a wait takes in ends it. -/
theorem waitLoop_finds {operation : UInt32} {reads : List ReadOutcome} {hdlc : HdlcDecoder}
    {idleTimeouts : Nat} {packet : List UInt8}
    (h : (feed (HdlcDecoder.push checksum) hdlc (attended B reads idleTimeouts)).1.findSome?
      (answers operation) = some packet) :
    ∃ rest, waitLoop B checksum operation reads hdlc idleTimeouts = some (.ok packet, rest) := by
  induction reads generalizing hdlc idleTimeouts with
  | nil => cases h
  | cons read reads ih =>
    rw [attended] at h
    rw [waitLoop]
    cases hclass : B.classify read with
    | data bytes =>
      have hfound := takeResponse_fst checksum operation hdlc bytes
      simp only [hclass, findSome?_feed_append, ← hfound] at h
      cases htake : takeResponse checksum operation hdlc bytes with
      | mk found hdlc' =>
        rw [htake] at h
        cases found with
        | none =>
          rw [Option.none_or, ← takeResponse_snd htake] at h
          simpa only [htake] using ih h
        | some found =>
          obtain rfl : found = packet := Option.some.inj h
          exact ⟨reads, by simp only [htake]⟩
    | idle =>
      simp only [hclass] at h ⊢
      split_ifs at h ⊢
      · cases h
      · exact ih h
    | retry =>
      simp only [hclass] at h
      exact ih h
    | fail err => simp [hclass] at h

/-- A wait is its loop, on the reads that are still there. -/
theorem run_wait {operation : UInt32} {port : Port} {result : Except Failure (List UInt8)} :
    (∃ port', (waitForLogConfigResponse B checksum operation).run port = some (result, port')) ↔
      ∃ rest, waitLoop B checksum operation port.pending {} 0 = some (result, rest) := by
  constructor
  · intro h
    obtain ⟨port', hrun⟩ := h
    obtain ⟨⟨found, pending⟩, hloop, hstep⟩ := Option.map_eq_some_iff.mp hrun
    obtain ⟨rfl, -⟩ := Prod.mk.inj hstep
    exact ⟨pending, hloop⟩
  · intro h
    obtain ⟨rest, hloop⟩ := h
    refine ⟨{ port with pending := rest }, ?_⟩
    rw [Session.run, waitForLogConfigResponse, hloop]
    rfl

/-- The data that comes in before the fifth empty read in a row and before any error but an
interruption; data sets the count back, and an interruption leaves it. -/
def incoming : List ReadOutcome → Nat → List UInt8
  | [], _ => []
  | .ok [] :: reads, empties => if empties + 1 ≥ 5 then [] else incoming reads (empties + 1)
  | .ok (byte :: bytes) :: reads, _ => byte :: bytes ++ incoming reads 0
  | .error .interrupted :: reads, empties => incoming reads empties
  | .error _ :: _, _ => []

theorem attended_incoming (reads : List ReadOutcome) (empties : Nat) :
    attended agentBackend reads empties = incoming reads empties := by
  induction reads generalizing empties with
  | nil => rfl
  | cons read reads ih =>
    rw [attended]
    rcases read with kind | chunk
    · cases kind with
      | interrupted => exact ih empties
      | _ => rfl
    · cases chunk with
      | nil =>
        rw [incoming, ← ih]
        rfl
      | cons byte bytes => exact congrArg (byte :: bytes ++ ·) (ih 0)

/-- A wait returns a packet just when it is the first response among the valid frames of the data
that comes in before it would give up; where the reads cut the data and what else is in it makes no
difference. -/
theorem wait_first_response (checksum : List UInt8 → UInt16) (operation : UInt32) (port : Port)
    (packet : List UInt8) :
    (∃ port', (waitForLogConfigResponse agentBackend checksum operation).run port =
      some (.ok packet, port')) ↔
      (validFrames checksum (incoming port.pending 0)).find?
        (fun frame => IsResponse operation frame) = some packet := by
  rw [← attended_incoming, ← firstAnswer_eq, run_wait]
  constructor
  · intro h
    obtain ⟨rest, hloop⟩ := h
    exact waitLoop_ok hloop
  · exact waitLoop_finds

end First

section Silence

/-- Five of these in a row, some of which may have come in before. -/
def Silent (idleTimeouts : Nat) (idle : List Bool) : Prop :=
  List.replicate (5 - idleTimeouts) true <+: idle ∨ List.replicate 5 true <:+: idle

theorem silent_zero (idle : List Bool) : Silent 0 idle ↔ List.replicate 5 true <:+: idle := by
  constructor
  · intro h
    rcases h with hprefix | hinfix
    · exact hprefix.isInfix
    · exact hinfix
  · exact .inr

theorem not_silent_nil {idleTimeouts : Nat} (few : idleTimeouts < 5) : ¬ Silent idleTimeouts [] := by
  intro h
  rcases h with hprefix | hinfix
  · have hlength := hprefix.length_le
    rw [List.length_replicate, List.length_nil] at hlength
    omega
  · have hlength := hinfix.length_le
    simp at hlength

theorem silent_true {idleTimeouts : Nat} (few : idleTimeouts < 5) (idle : List Bool) :
    Silent idleTimeouts (true :: idle) ↔ idleTimeouts + 1 ≥ 5 ∨ Silent (idleTimeouts + 1) idle := by
  have hleft : 5 - idleTimeouts = 5 - (idleTimeouts + 1) + 1 := by omega
  have hfirst : List.replicate (5 - idleTimeouts) true <+: true :: idle ↔
      List.replicate (5 - (idleTimeouts + 1)) true <+: idle := by
    rw [hleft, List.replicate_succ, List.cons_prefix_cons]
    exact and_iff_right rfl
  have hfive : List.replicate 5 true <+: true :: idle →
      List.replicate (5 - (idleTimeouts + 1)) true <+: idle := by
    intro hprefix
    have hfewer : List.replicate (5 - (idleTimeouts + 1)) true <+: List.replicate 4 true := by
      rw [List.prefix_replicate_iff, List.length_replicate]
      exact ⟨by omega, rfl⟩
    rw [List.replicate_succ, List.cons_prefix_cons] at hprefix
    exact hfewer.trans hprefix.2
  rw [Silent, Silent, hfirst, List.infix_cons_iff]
  constructor
  · intro h
    rcases h with hprefix | hprefix | hinfix
    · exact .inr (.inl hprefix)
    · exact .inr (.inl (hfive hprefix))
    · exact .inr (.inr hinfix)
  · intro h
    rcases h with hlast | hprefix | hinfix
    · have hnone : 5 - (idleTimeouts + 1) = 0 := by omega
      rw [hnone]
      exact .inl List.nil_prefix
    · exact .inl hprefix
    · exact .inr (.inr hinfix)

theorem silent_false {idleTimeouts : Nat} (few : idleTimeouts < 5) (idle : List Bool) :
    Silent idleTimeouts (false :: idle) ↔ Silent 0 idle := by
  have hnone (n : Nat) (hpos : 0 < n) : ¬ List.replicate n true <+: false :: idle := by
    intro hprefix
    obtain ⟨n, rfl⟩ := Nat.exists_eq_succ_of_ne_zero hpos.ne'
    rw [List.replicate_succ, List.cons_prefix_cons] at hprefix
    exact absurd hprefix.1 (by decide)
  rw [silent_zero, Silent, List.infix_cons_iff]
  have hfirst := hnone (5 - idleTimeouts) (by omega)
  have hfive := hnone 5 (by decide)
  simp only [hfirst, hfive, false_or]

/-- Where the silence never lasts, everything else puts off the end by five reads at most. -/
theorem length_of_not_silent {idleTimeouts : Nat} (few : idleTimeouts < 5) {idle : List Bool}
    (h : ¬ Silent idleTimeouts idle) :
    idle.length + idleTimeouts < 5 * (idle.count false + 1) := by
  induction idle generalizing idleTimeouts with
  | nil => simpa using few
  | cons first idle ih =>
    cases first with
    | true =>
      rw [silent_true few] at h
      obtain ⟨hmore, hrest⟩ := not_or.mp h
      have hlater := ih (Nat.lt_of_not_le hmore) hrest
      rw [List.count_cons_of_ne (by decide), List.length_cons]
      omega
    | false =>
      rw [silent_false few] at h
      have hlater := ih (by decide) h
      rw [List.count_cons_self, List.length_cons]
      omega

section Classified

variable {π : Type} (B : Backend π)

/-- Which of the reads count as idle, leaving out those that are only tried again. -/
def idleReads (reads : List ReadOutcome) : List Bool :=
  (reads.filter fun read => B.classify read ≠ .retry).map fun read => B.classify read = .idle

variable {B} {checksum : List UInt8 → UInt16} {operation : UInt32}

theorem idleReads_cons (read : ReadOutcome) (reads : List ReadOutcome) :
    idleReads B (read :: reads) =
      if B.classify read = .retry then idleReads B reads
      else decide (B.classify read = .idle) :: idleReads B reads := by
  rw [idleReads, List.filter_cons]
  split_ifs <;> simp_all [idleReads]

/-- Without an answer a wait ends when a read fails or so many in a row are idle, and not before. -/
theorem waitLoop_unanswered {reads : List ReadOutcome} {hdlc : HdlcDecoder} {idleTimeouts : Nat}
    (few : idleTimeouts < 5)
    (unanswered : (feed (HdlcDecoder.push checksum) hdlc (dataBytes B reads)).1.findSome?
      (answers operation) = none) :
    (∃ failure rest, waitLoop B checksum operation reads hdlc idleTimeouts =
      some (.error failure, rest)) ↔
      (∃ read ∈ reads, ∃ err, B.classify read = .fail err) ∨
        Silent idleTimeouts (idleReads B reads) := by
  induction reads generalizing hdlc idleTimeouts with
  | nil =>
    have hnot : ¬ Silent idleTimeouts (idleReads B []) := not_silent_nil few
    simp only [hnot, List.not_mem_nil, false_and, exists_false, or_false, iff_false]
    intro h
    obtain ⟨failure, rest, hloop⟩ := h
    cases hloop
  | cons read reads ih =>
    rw [waitLoop, List.exists_mem_cons_iff, idleReads_cons]
    rw [dataBytes] at unanswered
    cases hclass : B.classify read with
    | data bytes =>
      have hfound := takeResponse_fst checksum operation hdlc bytes
      simp only [hclass, findSome?_feed_append, ← hfound, Option.or_eq_none_iff] at unanswered
      cases htake : takeResponse checksum operation hdlc bytes with
      | mk found hdlc' =>
        rw [htake] at unanswered
        obtain ⟨hnone, hrest⟩ := unanswered
        obtain rfl : found = none := hnone
        rw [← takeResponse_snd htake] at hrest
        simpa [htake, silent_false few] using ih (by decide) hrest
    | idle =>
      simp only [hclass] at unanswered
      by_cases hlast : idleTimeouts + 1 ≥ 5
      · simp [silent_true few, hlast]
      · simpa [silent_true few, hlast] using ih (Nat.lt_of_not_le hlast) unanswered
    | retry =>
      simp only [hclass] at unanswered
      simpa using ih few unanswered
    | fail err => simp

variable (B checksum operation) in
/-- A wait has come back with an error within the reads that are there. -/
def Fails (port : Port) : Prop :=
  ∃ failure port', (waitForLogConfigResponse B checksum operation).run port =
    some (.error failure, port')

theorem wait_fails_iff (port : Port)
    (unanswered : ∀ frame ∈ validFrames checksum (dataBytes B port.pending),
      ¬ IsResponse operation frame) :
    Fails B checksum operation port ↔
      (∃ read ∈ port.pending, ∃ err, B.classify read = .fail err) ∨
        List.replicate 5 true <:+: idleReads B port.pending := by
  have hnone : firstAnswer checksum operation (dataBytes B port.pending) = none := by
    rw [firstAnswer_eq, List.find?_eq_none]
    intro frame hframe
    simpa using unanswered frame hframe
  simp only [Fails, run_wait]
  rw [waitLoop_unanswered (by decide) hnone, silent_zero]

end Classified

section Outcomes

/-- The data in some reads. -/
def readData (reads : List ReadOutcome) : List UInt8 :=
  (reads.map fun read => match read with | .ok bytes => bytes | .error _ => []).flatten

def hasData : ReadOutcome → Bool
  | .ok (_ :: _) => true
  | _ => false

/-- The reads but for the interrupted ones. -/
def triedReads (reads : List ReadOutcome) : List ReadOutcome :=
  reads.filter fun read => read ≠ .error .interrupted

variable {π : Type} {B : Backend π}

/-- A backend takes for data what is data, and tries again what was interrupted. -/
structure Backend.Sorts (B : Backend π) : Prop where
  data : ∀ read bytes, B.classify read = .data bytes → read = .ok bytes ∧ hasData read = true
  retry : ∀ read, B.classify read = .retry ↔ read = .error .interrupted

theorem dataBytes_readData (sorts : B.Sorts)
    (reads : List ReadOutcome) : dataBytes B reads = readData reads := by
  induction reads with
  | nil => rfl
  | cons read reads ih =>
    have hcons : readData (read :: reads) =
        (match read with | .ok bytes => bytes | .error _ => []) ++ readData reads := rfl
    rw [dataBytes, hcons, ← ih]
    cases hclass : B.classify read with
    | data bytes => rw [(sorts.data read bytes hclass).1]
    | idle | retry | fail =>
      rcases read with kind | chunk
      · rfl
      · cases chunk with
        | nil => rfl
        | cons byte bytes => cases hclass.symm.trans (B.classify_data byte bytes)

/-- Where nothing fails, what is neither idle nor tried again brings data. -/
theorem count_idleReads (sorts : B.Sorts) {reads : List ReadOutcome}
    (unbroken : ¬ ∃ read ∈ reads, ∃ err, B.classify read = .fail err) :
    (idleReads B reads).count false ≤ (reads.filter hasData).length := by
  induction reads with
  | nil => exact Nat.le_refl 0
  | cons read reads ih =>
    rw [List.exists_mem_cons_iff, not_or] at unbroken
    have hrest := ih unbroken.2
    have hmore := ((List.sublist_cons_self read reads).filter hasData).length_le
    rw [idleReads_cons]
    cases hclass : B.classify read with
    | data bytes =>
      rw [List.filter_cons_of_pos (sorts.data read bytes hclass).2]
      simpa using hrest
    | idle | retry => simpa using hrest.trans hmore
    | fail err => exact absurd ⟨err, hclass⟩ unbroken.1

theorem idleReads_eq (sorts : B.Sorts) {idle : ReadOutcome → Bool}
    (hidle : ∀ read, B.classify read = .idle ↔ idle read = true) (reads : List ReadOutcome) :
    idleReads B reads = (triedReads reads).map idle := by
  have hkept (read : ReadOutcome) :
      decide (B.classify read ≠ .retry) = decide (read ≠ .error .interrupted) := by
    simp only [ne_eq, sorts.retry]
  have hclass (read : ReadOutcome) : decide (B.classify read = .idle) = idle read := by
    simp only [hidle, Bool.decide_eq_true]
  rw [idleReads, triedReads]
  simp only [hkept, hclass]

variable {checksum : List UInt8 → UInt16} {operation : UInt32}

/-- Five tried reads for every data read, and five more, are enough. -/
theorem wait_bounded (sorts : B.Sorts) {port : Port}
    (unanswered : ∀ frame ∈ validFrames checksum (readData port.pending),
      ¬ IsResponse operation frame) {k : Nat}
    (few : (port.pending.filter hasData).length ≤ k)
    (many : 5 * (k + 1) ≤ (triedReads port.pending).length) :
    Fails B checksum operation port := by
  rw [← dataBytes_readData sorts] at unanswered
  rw [wait_fails_iff port unanswered, ← silent_zero]
  by_contra hends
  obtain ⟨unbroken, hsilent⟩ := not_or.mp hends
  have hlength := length_of_not_silent (by decide) hsilent
  have htried : (idleReads B port.pending).length = (triedReads port.pending).length := by
    rw [idleReads_eq sorts (fun read => decide_eq_true_iff.symm), List.length_map]
  have hcount := count_idleReads sorts unbroken
  omega

theorem agent_sorts : agentBackend.Sorts where
  data read bytes h := by
    rcases read with kind | chunk
    · cases kind <;> cases h
    · cases chunk <;> cases h
      exact ⟨rfl, rfl⟩
  retry read := by
    rcases read with kind | chunk
    · cases kind <;> decide
    · cases chunk <;> simp [agentBackend, agentClassify]

theorem qcsuper_sorts : qcsuperBackend.Sorts where
  data read bytes h := by
    rcases read with kind | chunk
    · cases kind <;> cases h
    · cases chunk <;> cases h
      exact ⟨rfl, rfl⟩
  retry read := by
    rcases read with kind | chunk
    · cases kind <;> decide
    · cases chunk <;> simp [qcsuperBackend, qcsuperClassify]

theorem agent_idle (read : ReadOutcome) :
    agentBackend.classify read = .idle ↔ decide (read = .ok []) = true := by
  rcases read with kind | chunk
  · cases kind <;> decide
  · cases chunk <;> simp [agentBackend, agentClassify]

theorem qcsuper_idle (read : ReadOutcome) :
    qcsuperBackend.classify read = .idle ↔
      decide (read = .error .wouldBlock ∨ read = .error .timedOut) = true := by
  rcases read with kind | chunk
  · cases kind <;> decide
  · cases chunk <;> simp [qcsuperBackend, qcsuperClassify]

theorem agent_fails (reads : List ReadOutcome) :
    (∃ read ∈ reads, ∃ err, agentBackend.classify read = .fail err) ↔
      ∃ kind, .error kind ∈ triedReads reads := by
  have hread (read : ReadOutcome) : (∃ err, agentBackend.classify read = .fail err) ↔
      read ≠ .error .interrupted ∧ ∃ kind, read = .error kind := by
    rcases read with kind | chunk
    · cases kind <;> simp [agentBackend, agentClassify]
    · cases chunk <;> simp [agentBackend, agentClassify]
  simp only [hread, triedReads, List.mem_filter, decide_eq_true_eq]
  constructor
  · rintro ⟨read, hmem, hne, kind, rfl⟩
    exact ⟨kind, hmem, hne⟩
  · rintro ⟨kind, hmem, hne⟩
    exact ⟨_, hmem, hne, kind, rfl⟩

theorem qcsuper_fails (reads : List ReadOutcome) :
    (∃ read ∈ reads, ∃ err, qcsuperBackend.classify read = .fail err) ↔
      .ok [] ∈ triedReads reads ∨
        ∃ kind, .error kind ∈ triedReads reads ∧ kind ≠ .wouldBlock ∧ kind ≠ .timedOut := by
  have hread (read : ReadOutcome) : (∃ err, qcsuperBackend.classify read = .fail err) ↔
      read ≠ .error .interrupted ∧
        (read = .ok [] ∨ ∃ kind, read = .error kind ∧ kind ≠ .wouldBlock ∧ kind ≠ .timedOut) := by
    rcases read with kind | chunk
    · cases kind <;> simp [qcsuperBackend, qcsuperClassify]
    · cases chunk <;> simp [qcsuperBackend, qcsuperClassify]
  simp only [hread, triedReads, List.mem_filter, decide_eq_true_eq]
  constructor
  · rintro ⟨read, hmem, hne, rfl | ⟨kind, rfl, hkind⟩⟩
    · exact .inl ⟨hmem, hne⟩
    · exact .inr ⟨kind, ⟨hmem, hne⟩, hkind⟩
  · rintro (⟨hmem, hne⟩ | ⟨kind, ⟨hmem, hne⟩, hkind⟩)
    · exact ⟨_, hmem, hne, .inl rfl⟩
    · exact ⟨_, hmem, hne, .inr ⟨kind, rfl, hkind⟩⟩

variable (checksum operation) in
/-- A wait for an answer that never comes has come back within some reads exactly when, but for the
interrupted ones: on the serial port a read has failed or five in a row are empty; over the bridge one
is empty, one has failed with anything but a timeout, or five in a row are timeouts. It goes on as long
as this does not happen; with no more than `k` data reads among them `5 * (k + 1)` are enough. -/
theorem wait_ends_iff (port : Port)
    (unanswered : ∀ frame ∈ validFrames checksum (readData port.pending),
      ¬ IsResponse operation frame) :
    let tried := triedReads port.pending
    (Fails agentBackend checksum operation port ↔
      (∃ kind, .error kind ∈ tried) ∨
        List.replicate 5 true <:+: tried.map fun read => read = .ok []) ∧
    (Fails qcsuperBackend checksum operation port ↔
      (.ok [] ∈ tried ∨ ∃ kind, .error kind ∈ tried ∧ kind ≠ .wouldBlock ∧ kind ≠ .timedOut) ∨
        List.replicate 5 true <:+: tried.map fun read =>
          read = .error .wouldBlock ∨ read = .error .timedOut) ∧
    ∀ k, (port.pending.filter hasData).length ≤ k → 5 * (k + 1) ≤ tried.length →
      Fails agentBackend checksum operation port ∧ Fails qcsuperBackend checksum operation port := by
  refine ⟨?_, ?_, ?_⟩
  · rw [← agent_fails, ← idleReads_eq agent_sorts agent_idle]
    apply wait_fails_iff
    rwa [dataBytes_readData agent_sorts]
  · rw [← qcsuper_fails, ← idleReads_eq qcsuper_sorts qcsuper_idle]
    apply wait_fails_iff
    rwa [dataBytes_readData qcsuper_sorts]
  · intro k few many
    exact ⟨wait_bounded agent_sorts unanswered few many,
      wait_bounded qcsuper_sorts unanswered few many⟩

/-- A delimiter and an interruption, and then nothing more: no data on the serial port, timeouts over
the bridge. -/
theorem wait_ends_silence :
    let port (idle : ReadOutcome) : Port :=
      { modem := fun _ => .written []
        pending := .ok [0x7e] :: .error .interrupted :: List.replicate 5 idle }
    Fails agentBackend crc16IbmSdlc logConfigSetMaskOp (port (.ok [])) ∧
      Fails qcsuperBackend crc16IbmSdlc logConfigSetMaskOp (port (.error .timedOut)) := by
  intro port
  have hagent := wait_ends_iff crc16IbmSdlc logConfigSetMaskOp (port (.ok [])) (by decide)
  have hqcsuper := wait_ends_iff crc16IbmSdlc logConfigSetMaskOp (port (.error .timedOut)) (by decide)
  exact ⟨hagent.1.mpr (.inr (by decide)), hqcsuper.2.1.mpr (.inr (by decide))⟩

section Logging

/-- One log packet a read. -/
def loggingPort (bound : Nat) : Port where
  modem := fun _ => .written []
  pending := List.replicate bound
    (.ok (encodeHdlc crc16IbmSdlc [0x10, 0x00, 0x08, 0x00, 0x08, 0x00, 0x21, 0xb8]))

theorem mem_loggingPort {bound : Nat} {read : ReadOutcome} (h : read ∈ (loggingPort bound).pending) :
    read = .ok (encodeHdlc crc16IbmSdlc [0x10, 0x00, 0x08, 0x00, 0x08, 0x00, 0x21, 0xb8]) :=
  List.eq_of_mem_replicate h

theorem logging_unanswered (bound : Nat) :
    ∀ frame ∈ validFrames crc16IbmSdlc (readData (loggingPort bound).pending),
      ¬ IsResponse logConfigSetMaskOp frame := by
  let packet : List UInt8 := [0x10, 0x00, 0x08, 0x00, 0x08, 0x00, 0x21, 0xb8]
  have hdata : readData (loggingPort bound).pending =
      ((List.replicate bound packet).map (encodeHdlc crc16IbmSdlc)).flatten := by
    rw [readData, loggingPort, List.map_replicate, List.map_replicate]
  have hframes : (feed (HdlcDecoder.push crc16IbmSdlc) {} (readData (loggingPort bound).pending)).1 =
      (List.replicate bound packet).map Except.ok := by
    rw [hdata, feed_encodeHdlc_packets]
    intro p hp
    rw [List.eq_of_mem_replicate hp]
    exact List.cons_ne_nil _ _
  intro frame hframe
  rw [validFrames, ← feed_eq_decodeBatch, hframes, List.filterMap_map] at hframe
  obtain ⟨p, hp, hsome⟩ := List.mem_filterMap.mp hframe
  rw [List.eq_of_mem_replicate hp] at hsome
  obtain rfl : packet = frame := Option.some.inj hsome
  decide

theorem logging_goes_on (sorts : B.Sorts) (bound : Nat) :
    ¬ Fails B crc16IbmSdlc logConfigSetMaskOp (loggingPort bound) := by
  have hclass : ∀ read ∈ (loggingPort bound).pending, ∃ bytes, B.classify read = .data bytes := by
    intro read hread
    have hdata := classify_encodeHdlc B crc16IbmSdlc
      [0x10, 0x00, 0x08, 0x00, 0x08, 0x00, 0x21, 0xb8] []
    rw [List.append_nil, ← mem_loggingPort hread] at hdata
    exact ⟨_, hdata⟩
  rw [wait_fails_iff _ (dataBytes_readData sorts _ ▸ logging_unanswered bound)]
  rintro (⟨read, hread, err, hfail⟩ | hsilent)
  · obtain ⟨bytes, hdata⟩ := hclass read hread
    cases hdata.symm.trans hfail
  · have htrue : true ∈ idleReads B (loggingPort bound).pending := hsilent.subset (by simp)
    obtain ⟨read, hread, hidle⟩ := List.mem_map.mp htrue
    obtain ⟨bytes, hdata⟩ := hclass read (List.mem_filter.mp hread).1
    rw [hdata] at hidle
    cases hidle

/-- A modem that goes on logging keeps either wait going, however many reads it takes. -/
theorem wait_unbounded :
    let ends (fails : Port → Prop) := ∃ bound, ∀ port : Port, port.pending.length = bound →
      (∀ read ∈ port.pending, ∃ bytes, read = .ok bytes) →
      (∀ frame ∈ validFrames crc16IbmSdlc (readData port.pending),
        ¬ IsResponse logConfigSetMaskOp frame) → fails port
    ¬ ends (Fails agentBackend crc16IbmSdlc logConfigSetMaskOp) ∧
      ¬ ends (Fails qcsuperBackend crc16IbmSdlc logConfigSetMaskOp) := by
  have hport {π : Type} {B : Backend π} (bound : Nat)
      (ends : ∀ port : Port, port.pending.length = bound →
      (∀ read ∈ port.pending, ∃ bytes, read = .ok bytes) →
      (∀ frame ∈ validFrames crc16IbmSdlc (readData port.pending),
        ¬ IsResponse logConfigSetMaskOp frame) → Fails B crc16IbmSdlc logConfigSetMaskOp port) :
      Fails B crc16IbmSdlc logConfigSetMaskOp (loggingPort bound) :=
    ends (loggingPort bound) (List.length_replicate ..) (fun _ hread => ⟨_, mem_loggingPort hread⟩)
      (logging_unanswered bound)
  refine ⟨?_, ?_⟩
  · rintro ⟨bound, hbound⟩
    exact logging_goes_on agent_sorts bound (hport bound hbound)
  · rintro ⟨bound, hbound⟩
    exact logging_goes_on qcsuper_sorts bound (hport bound hbound)

end Logging

end Outcomes

end Silence

end SixGrok.Qualcomm
