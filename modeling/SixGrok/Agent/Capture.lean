import SixGrok.Agent.VendorRecords
import SixGrok.Core.Capture
import SixGrok.Qualcomm.Hdlc

namespace SixGrok.Agent

open SixGrok.Framework SixGrok.Core SixGrok.Qualcomm

theorem filterMap_mapIdx {α β γ : Type} {f : Nat → α → β} {g : β → Option γ} {h : α → γ}
    (hfg : ∀ i a, g (f i a) = some (h a)) (as : List α) : (as.mapIdx f).filterMap g = as.map h := by
  induction as generalizing f with
  | nil => rfl
  | cons a as ih =>
    rw [List.mapIdx_cons, List.filterMap_cons, hfg, List.map_cons, ih fun i a => hfg (i + 1) a]

structure QualcommCapture where
  hdlc : HdlcDecoder := {}
  sequence : UInt64 := 0
  deriving DecidableEq, Repr

section Capture

variable {τ ε : Type} (checksum : List UInt8 → UInt16) (clock : Clock)

/-- A decoded DIAG packet with its log code, if it is a log packet. -/
def logPacket : Except FrameError (List UInt8) → Option (UInt16 × List UInt8)
  | .error _ => none
  | .ok packet => (qualcommLogCode packet).map fun logCode => (logCode, packet)

/-- The frame of a decoded DIAG packet, if it is a log packet. -/
def logFrame (sequence : UInt64) : Except FrameError (List UInt8) → Option CaptureFrame
  | .error _ => none
  | .ok packet => (qualcommLogCode packet).map fun logCode =>
    captureFrame clock sequence .qualcomm logCode packet

def QualcommCapture.push (capture : QualcommCapture) (byte : UInt8) :
    Option CaptureFrame × QualcommCapture :=
  let (result, hdlc) := capture.hdlc.push checksum byte
  match result.bind (logFrame clock (capture.sequence + 1)) with
  | some frame => (some frame, { hdlc, sequence := capture.sequence + 1 })
  | none => (none, { capture with hdlc })

def runQualcommStream (live : Bool) (emit : Consumer τ ε CaptureFrame) (reads : List ReadOutcome)
    (out : τ) : Option (Except (StreamError ε) Unit) × τ :=
  captureLoop live (feed (QualcommCapture.push checksum clock)) emit reads {} out

/-- The log packets that a byte stream holds, with their codes. -/
def logPackets (bytes : List UInt8) : List (UInt16 × List UInt8) :=
  (feed (HdlcDecoder.push checksum) {} bytes).1.filterMap logPacket

theorem logFrame_eq (sequence : UInt64) (result : Option (Except FrameError (List UInt8))) :
    result.bind (logFrame clock sequence) = (result.bind logPacket).map fun packet =>
      captureFrame clock sequence .qualcomm packet.1 packet.2 := by
  rcases result with _ | err | packet
  · rfl
  · rfl
  · cases hcode : qualcommLogCode packet <;> simp [logFrame, logPacket, hcode]

/-- One byte of a capture, as the HDLC decoder sees it. -/
theorem capture_push (capture : QualcommCapture) (byte : UInt8) :
    let (result, hdlc) := capture.hdlc.push checksum byte
    capture.push checksum clock byte =
      match result.bind logPacket with
      | some packet =>
        (some (captureFrame clock (capture.sequence + 1) .qualcomm packet.1 packet.2),
          { hdlc, sequence := capture.sequence + 1 })
      | none => (none, { capture with hdlc }) := by
  dsimp only
  rw [QualcommCapture.push]
  dsimp only
  rw [logFrame_eq]
  cases hpacket : (capture.hdlc.push checksum byte).1.bind logPacket <;> rfl

/-- Every log packet becomes one frame, numbered on from where the capture stands. -/
theorem feed_capture (capture : QualcommCapture) (bytes : List UInt8) :
    (feed (QualcommCapture.push checksum clock) capture bytes).1 =
      ((feed (HdlcDecoder.push checksum) capture.hdlc bytes).1.filterMap logPacket).mapIdx
        fun i packet => captureFrame clock (capture.sequence + UInt64.ofNat (i + 1)) .qualcomm
          packet.1 packet.2 := by
  induction bytes generalizing capture with
  | nil => rfl
  | cons byte bytes ih =>
    have hpush := capture_push checksum clock capture byte
    have hfirst : (capture.hdlc.push checksum byte).1.toList.filterMap logPacket =
        ((capture.hdlc.push checksum byte).1.bind logPacket).toList := by
      cases (capture.hdlc.push checksum byte).1 with
      | none => rfl
      | some result => cases hresult : logPacket result <;> simp [hresult]
    rw [feed_cons, feed_cons, List.filterMap_append, hfirst]
    cases hpacket : (capture.hdlc.push checksum byte).1.bind logPacket with
    | none =>
      simp only [hpacket] at hpush
      simp only [hpush, ih, Option.toList_none, List.nil_append]
    | some packet =>
      simp only [hpacket] at hpush
      simp only [hpush, ih, sequence_succ, Option.toList_some, List.singleton_append, List.mapIdx_cons]
      rfl

/-- A capture from its start: the log packets of the stream, numbered from one. -/
theorem captured_qualcomm (live : Bool) (reads : List ReadOutcome) :
    captured live (feed (QualcommCapture.push checksum clock)) reads {} =
      (logPackets checksum (streamed live reads)).mapIdx fun i packet =>
        captureFrame clock (UInt64.ofNat (i + 1)) .qualcomm packet.1 packet.2 := by
  rw [captured_eq live (feed_incremental _) reads (feed_nil _ _), feed_capture, logPackets]
  simp only [UInt64.zero_add]

/-- Numbered or not, the log packets can be told from their frames. -/
theorem mapIdx_captureFrame_inj {packets others : List (UInt16 × List UInt8)} :
    (packets.mapIdx fun i packet =>
        captureFrame clock (UInt64.ofNat (i + 1)) .qualcomm packet.1 packet.2) =
      (others.mapIdx fun i packet =>
        captureFrame clock (UInt64.ofNat (i + 1)) .qualcomm packet.1 packet.2) ↔
      packets = others := by
  let read : CaptureFrame → Option (UInt16 × List UInt8) := fun frame =>
    some (frame.logCode, frame.payload.drop 2)
  have hread (packets : List (UInt16 × List UInt8)) :
      (packets.mapIdx fun i packet =>
        captureFrame clock (UInt64.ofNat (i + 1)) .qualcomm packet.1 packet.2).filterMap read =
          packets := by
    have hpacket (i : Nat) (packet : UInt16 × List UInt8) :
        read (captureFrame clock (UInt64.ofNat (i + 1)) .qualcomm packet.1 packet.2) =
          some (id packet) := by
      have hdrop : (u16ToLe packet.1 ++ packet.2).drop 2 = packet.2 :=
        List.drop_left' (u16ToLe_length _)
      change some (packet.1, (u16ToLe packet.1 ++ packet.2).drop 2) = some packet
      rw [hdrop]
    rw [filterMap_mapIdx hpacket, List.map_id]
  constructor
  · intro h
    rw [← hread packets, h, hread]
  · intro h
    rw [h]

/-- The sink of `run_vendor_records`: number the record, make a frame of it, emit it. -/
def recordSink (emit : Consumer τ ε CaptureFrame) : Consumer (UInt64 × τ) ε VendorRecord :=
  fun record state =>
    let sequence := state.1 + 1
    let frame := captureFrame clock sequence record.vendor record.logCode record.packet
    ((emit frame state.2).1, sequence, (emit frame state.2).2)

def runVendorRecords (format : RecordFormat) (fixedLogCode : Option UInt16)
    (emit : Consumer τ ε CaptureFrame) (reads : List ReadOutcome) (out : τ) :
    Except (RecordError ε) Unit × τ :=
  let run := (readRecords (recordSink clock emit) format fixedLogCode reads (0, out)).2
  (run.1, run.2.2)

end Capture

end SixGrok.Agent
