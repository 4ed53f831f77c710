import SixGrok.Framework.Reader
import SixGrok.Framework.Session
import SixGrok.Qualcomm.Hdlc
import SixGrok.Qualcomm.LogConfig
import SixGrok.Qualcomm.Profiles

namespace SixGrok.Qualcomm

open SixGrok.Framework

/-- What `write_all` followed by `flush` comes back with, and in the good case the
reads that the other end adds to the ones that are still waiting. -/
inductive WriteOutcome where
  | writeFailed (kind : ErrorKind)
  | flushFailed (kind : ErrorKind)
  | written (reads : List ReadOutcome)

structure Port where
  modem : List (List UInt8) → WriteOutcome
  sent : List (List UInt8) := []
  pending : List ReadOutcome := []

inductive PortError where
  | io (context : String) (kind : ErrorKind)
  | closed
  deriving DecidableEq, Repr

inductive Failure where
  | port (err : PortError)
  | timedOut (operation : UInt32)
  | control (err : ControlError)
  | explicitOutOfRange (code : UInt16) (equip : UInt8) (lastItem : UInt32)
  | rejected (equip : UInt8) (status : UInt32)
  deriving DecidableEq, Repr

inductive ReadClass where
  | data (bytes : List UInt8)
  | idle
  | retry
  | fail (err : PortError)
  deriving DecidableEq, Repr

/-- Where the serial agent and the QCSuper bridge client differ: the profiles, the
arms of the `match` on a read and the contexts of the errors. -/
structure Backend (π : Type) where
  codes : π → List UInt16
  classify : ReadOutcome → ReadClass
  writing : String
  flushing : String
  classify_data : ∀ byte bytes, classify (.ok (byte :: bytes)) = .data (byte :: bytes)

def agentClassify : ReadOutcome → ReadClass
  | .ok [] => .idle
  | .ok (byte :: bytes) => .data (byte :: bytes)
  | .error .interrupted => .retry
  | .error kind => .fail (.io "reading Qualcomm DIAG response" kind)

def agentBackend : Backend CaptureProfile where
  codes := CaptureProfile.codes
  classify := agentClassify
  writing := "writing Qualcomm DIAG request"
  flushing := "flushing Qualcomm DIAG request"
  classify_data _ _ := rfl

def qcsuperClassify : ReadOutcome → ReadClass
  | .ok [] => .fail .closed
  | .ok (byte :: bytes) => .data (byte :: bytes)
  | .error .wouldBlock => .idle
  | .error .timedOut => .idle
  | .error .interrupted => .retry
  | .error kind => .fail (.io "reading QCSuper bridge DIAG response" kind)

def qcsuperBackend : Backend QcsuperProfile where
  codes := QcsuperProfile.codes
  classify := qcsuperClassify
  writing := "writing DIAG request to QCSuper bridge"
  flushing := "flushing QCSuper bridge request"
  classify_data _ _ := rfl

section Control

variable {π : Type} (B : Backend π) (checksum : List UInt8 → UInt16)

def sendDiagPacket (packet : List UInt8) : Session Port Failure Unit := fun port =>
  let sent := port.sent ++ [encodeHdlc checksum packet]
  match port.modem sent with
  | .writeFailed kind => some (.error (.port (.io B.writing kind)), port)
  | .flushFailed kind => some (.error (.port (.io B.flushing kind)), { port with sent })
  | .written reads => some (.ok (), { port with sent, pending := port.pending ++ reads })

/-- Does a decoded frame answer the operation that is waited for? -/
def answers (expectedOperation : UInt32) : Except FrameError (List UInt8) → Option (List UInt8)
  | .error _ => none
  | .ok packet =>
    match parseLogConfigHeader packet with
    | .error _ => none
    | .ok (header, _) => if header.operation = expectedOperation then some packet else none

/-- The loop over the bytes of one read, left at the first answer: the bytes behind it
are dropped. -/
def takeResponse (expectedOperation : UInt32) :
    HdlcDecoder → List UInt8 → Option (List UInt8) × HdlcDecoder
  | hdlc, [] => (none, hdlc)
  | hdlc, byte :: bytes =>
    match (hdlc.push checksum byte).1.bind (answers expectedOperation) with
    | some packet => (some packet, (hdlc.push checksum byte).2)
    | none => takeResponse expectedOperation (hdlc.push checksum byte).2 bytes

/-- The reads that are left come back with the result; no result is a read that has
not come back yet. -/
def waitLoop (expectedOperation : UInt32) :
    List ReadOutcome → HdlcDecoder → Nat → Option (Except Failure (List UInt8) × List ReadOutcome)
  | [], _, _ => none
  | read :: reads, hdlc, idleTimeouts =>
    match B.classify read with
    | .data bytes =>
      match takeResponse checksum expectedOperation hdlc bytes with
      | (some packet, _) => some (.ok packet, reads)
      | (none, hdlc) => waitLoop expectedOperation reads hdlc 0
    | .idle =>
      if idleTimeouts + 1 ≥ 5 then some (.error (.timedOut expectedOperation), reads)
      else waitLoop expectedOperation reads hdlc (idleTimeouts + 1)
    | .retry => waitLoop expectedOperation reads hdlc idleTimeouts
    | .fail err => some (.error (.port err), reads)

def waitForLogConfigResponse (expectedOperation : UInt32) : Session Port Failure (List UInt8) :=
  fun port =>
    (waitLoop B checksum expectedOperation port.pending {} 0).map fun (result, pending) =>
      (result, { port with pending })

def queryLogRanges : Session Port Failure (Vector UInt32 16) := do
  sendDiagPacket B checksum retrieveIdRangesRequest
  let response ← waitForLogConfigResponse B checksum logConfigRetrieveIdRangesOp
  Session.lift .control (parseIdRangesResponse response)

variable {B checksum}

variable (checksum) in
theorem takeResponse_fst (expectedOperation : UInt32) (hdlc : HdlcDecoder) (bytes : List UInt8) :
    (takeResponse checksum expectedOperation hdlc bytes).1 =
      (feed (HdlcDecoder.push checksum) hdlc bytes).1.findSome? (answers expectedOperation) := by
  induction bytes generalizing hdlc with
  | nil => rfl
  | cons byte bytes ih =>
    rw [takeResponse, findSome?_feed_cons]
    cases (hdlc.push checksum byte).1.bind (answers expectedOperation) with
    | none => exact ih _
    | some packet => rfl

/-- Bytes without an answer leave the decoder where feeding them does. -/
theorem takeResponse_snd {expectedOperation : UInt32} {hdlc hdlc' : HdlcDecoder}
    {bytes : List UInt8} (h : takeResponse checksum expectedOperation hdlc bytes = (none, hdlc')) :
    hdlc' = (feed (HdlcDecoder.push checksum) hdlc bytes).2 := by
  induction bytes generalizing hdlc with
  | nil => exact (Prod.mk.inj h).2.symm
  | cons byte bytes ih =>
    rw [takeResponse] at h
    rw [feed_cons]
    split at h
    · cases h
    · exact ih h

variable (B checksum) in
theorem classify_encodeHdlc (packet more : List UInt8) :
    B.classify (.ok (encodeHdlc checksum packet ++ more)) =
      .data (encodeHdlc checksum packet ++ more) := by
  obtain ⟨byte, bytes, hbytes⟩ : ∃ byte bytes, encodeHdlc checksum packet ++ more = byte :: bytes :=
    List.exists_cons_of_ne_nil (by simp [encodeHdlc])
  rw [hbytes]
  exact B.classify_data byte bytes

/-- The answer is found in a read that begins with it, whatever comes behind it. -/
theorem waitLoop_frame {expectedOperation : UInt32} {packet : List UInt8} (nonempty : packet ≠ [])
    (hanswers : answers expectedOperation (.ok packet) = some packet) (more : List UInt8)
    (reads : List ReadOutcome) (idleTimeouts : Nat) :
    waitLoop B checksum expectedOperation (.ok (encodeHdlc checksum packet ++ more) :: reads) {}
      idleTimeouts = some (.ok packet, reads) := by
  have hfound := takeResponse_fst checksum expectedOperation {}
    (encodeHdlc checksum packet ++ more)
  rw [feed_append, feed_encodeHdlc checksum packet nonempty, List.singleton_append,
    List.findSome?_cons, hanswers] at hfound
  rw [waitLoop, classify_encodeHdlc]
  cases htake : takeResponse checksum expectedOperation {} (encodeHdlc checksum packet ++ more) with
  | mk found hdlc =>
    rw [htake] at hfound
    obtain rfl : found = some packet := hfound
    simp only [htake]

variable (checksum) in
/-- Packets that come in one read each. -/
def frameReads (packets : List (List UInt8)) : List ReadOutcome :=
  packets.map fun packet => .ok (encodeHdlc checksum packet)

/-- Packets that are no answer are passed over. -/
theorem waitLoop_passes {expectedOperation : UInt32} {packets : List (List UInt8)}
    (nonempty : ∀ p ∈ packets, p ≠ [])
    (others : ∀ p ∈ packets, answers expectedOperation (.ok p) = none) (reads : List ReadOutcome) :
    waitLoop B checksum expectedOperation (frameReads checksum packets ++ reads) {} 0 =
      waitLoop B checksum expectedOperation reads {} 0 := by
  induction packets with
  | nil => rfl
  | cons packet packets ih =>
    obtain ⟨hnonempty, hpackets⟩ := List.forall_mem_cons.mp nonempty
    obtain ⟨hother, hothers⟩ := List.forall_mem_cons.mp others
    have hclass := classify_encodeHdlc B checksum packet []
    have hfound := takeResponse_fst checksum expectedOperation {} (encodeHdlc checksum packet)
    rw [List.append_nil] at hclass
    rw [feed_encodeHdlc checksum packet hnonempty, List.findSome?_singleton, hother] at hfound
    rw [← ih hpackets hothers, frameReads, List.map_cons, List.cons_append, waitLoop, hclass]
    cases htake : takeResponse checksum expectedOperation {} (encodeHdlc checksum packet) with
    | mk found hdlc =>
      rw [htake] at hfound
      obtain rfl : found = none := hfound
      have hhdlc := takeResponse_snd htake
      rw [feed_encodeHdlc checksum packet hnonempty] at hhdlc
      simp only [htake, hhdlc]
      rfl

theorem answers_header {expectedOperation : UInt32} {packet : List UInt8} {header : LogConfigHeader}
    {data : List UInt8} (hparse : parseLogConfigHeader packet = .ok (header, data))
    (hop : header.operation = expectedOperation) :
    answers expectedOperation (.ok packet) = some packet := by
  rw [answers, hparse]
  exact if_pos hop

theorem sendDiagPacket_written {packet : List UInt8} {port : Port} {reads : List ReadOutcome}
    (hmodem : port.modem (port.sent ++ [encodeHdlc checksum packet]) = .written reads) :
    (sendDiagPacket B checksum packet).run port =
      some (.ok (), { port with sent := port.sent ++ [encodeHdlc checksum packet],
                                pending := port.pending ++ reads }) := by
  rw [Session.run, sendDiagPacket]
  simp only [hmodem]

variable (B checksum) in
theorem sendDiagPacket_sent (packet : List UInt8) (before : List (List UInt8)) :
    Session.Meets (fun port => port.sent = before) (sendDiagPacket B checksum packet)
      (fun _ port => port.sent = before ++ [encodeHdlc checksum packet])
      (fun failure _ => ∃ err, failure = .port err) := by
  intro port hbefore r port' hrun
  subst hbefore
  cases hmodem : port.modem (port.sent ++ [encodeHdlc checksum packet]) with
  | writeFailed kind | flushFailed kind =>
    simp only [Session.run, sendDiagPacket, hmodem, Option.some.injEq, Prod.mk.injEq] at hrun
    rw [← hrun.1]
    exact ⟨_, rfl⟩
  | written reads =>
    obtain ⟨rfl, rfl⟩ := Session.run_unique hrun (sendDiagPacket_written hmodem)
    rfl

theorem waitLoop_error {expectedOperation : UInt32} {reads rest : List ReadOutcome}
    {hdlc : HdlcDecoder} {idleTimeouts : Nat} {failure : Failure}
    (h : waitLoop B checksum expectedOperation reads hdlc idleTimeouts =
      some (.error failure, rest)) :
    failure = .timedOut expectedOperation ∨ ∃ err, failure = .port err := by
  induction reads generalizing hdlc idleTimeouts with
  | nil => cases h
  | cons read reads ih =>
    rw [waitLoop] at h
    cases hclass : B.classify read with
    | data bytes =>
      cases htake : takeResponse checksum expectedOperation hdlc bytes with
      | mk found hdlc' =>
        cases found with
        | none => exact ih (by simpa only [hclass, htake] using h)
        | some packet => simp [hclass, htake] at h
    | idle =>
      simp only [hclass] at h
      split_ifs at h with htimeout
      · have herr : failure = .timedOut expectedOperation ∧ rest = reads := by
          simpa [eq_comm] using h
        exact Or.inl herr.1
      · exact ih h
    | retry => exact ih (by simpa only [hclass] using h)
    | fail err =>
      simp only [hclass, Option.some.injEq, Prod.mk.injEq, Except.error.injEq] at h
      exact Or.inr ⟨err, h.1.symm⟩

variable (B checksum) in
theorem waitForLogConfigResponse_sent (expectedOperation : UInt32) (before : List (List UInt8)) :
    Session.Meets (fun port => port.sent = before)
      (waitForLogConfigResponse B checksum expectedOperation)
      (fun _ port => port.sent = before)
      (fun failure _ => failure = .timedOut expectedOperation ∨ ∃ err, failure = .port err) := by
  intro port hbefore r port' hrun
  subst hbefore
  obtain ⟨⟨result, pending⟩, hloop, hstep⟩ := Option.map_eq_some_iff.mp hrun
  obtain ⟨rfl, rfl⟩ := Prod.mk.inj hstep
  cases result with
  | ok packet => rfl
  | error failure => exact waitLoop_error hloop

variable (B checksum) in
/-- The range query writes one packet, whatever the modem answers. -/
theorem queryLogRanges_sent (before : List (List UInt8)) :
    Session.Meets (fun port => port.sent = before) (queryLogRanges B checksum)
      (fun _ port => port.sent = before ++ [encodeHdlc checksum retrieveIdRangesRequest])
      (fun _ _ => True) := by
  apply Session.Meets.bind
  · exact (sendDiagPacket_sent B checksum retrieveIdRangesRequest before).consequence (fun _ h => h)
      (fun _ _ h => h) (fun _ _ _ => trivial)
  intro _
  apply Session.Meets.bind
  · exact (waitForLogConfigResponse_sent B checksum _ _).consequence (fun _ h => h) (fun _ _ h => h)
      (fun _ _ _ => trivial)
  · intro response
    exact Session.Meets.lift (fun _ _ h => h) (fun _ _ _ => trivial)

end Control

end SixGrok.Qualcomm
