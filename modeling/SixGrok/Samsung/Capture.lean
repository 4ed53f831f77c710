import SixGrok.Core.Capture
import SixGrok.Samsung.Decoder

namespace SixGrok.Samsung

open SixGrok.Framework SixGrok.Core

structure SdmCapture where
  decoder : SdmDecoder := {}
  sequence : UInt64 := 0
  deriving DecidableEq, Repr

section Capture

variable {τ ε : Type} (clock : Clock)

/-- The frames of one push, numbered on from a sequence, and the last number given. -/
def numberFrames : UInt64 → List SdmResult → List CaptureFrame × UInt64
  | sequence, [] => ([], sequence)
  | sequence, .error _ :: results => numberFrames sequence results
  | sequence, .ok sdm :: results =>
    let rest := numberFrames (sequence + 1) results
    (captureFrame clock (sequence + 1) .samsung sdm.header.syntheticLogCode sdm.packet :: rest.1,
      rest.2)

def SdmCapture.push (capture : SdmCapture) (data : List UInt8) : List CaptureFrame × SdmCapture :=
  let (results, decoder) := capture.decoder.push data
  let (frames, sequence) := numberFrames clock capture.sequence results
  (frames, { decoder, sequence })

def runStream (live : Bool) (emit : Consumer τ ε CaptureFrame) (reads : List ReadOutcome)
    (out : τ) : Option (Except (StreamError ε) Unit) × τ :=
  captureLoop live (SdmCapture.push clock) emit reads {} out

theorem pass_ok_isPacket {buffer rest : List UInt8} {result : SdmResult}
    (h : loopPass buffer = .next result rest) :
    ∀ frame, result = .ok frame → IsPacket frame.packet frame.header := by
  intro frame hframe
  subst hframe
  obtain ⟨gap, -, ⟨err, herr, -⟩ | ⟨frame', hok, -, hpacket⟩⟩ := loopPass_next h
  · cases herr
  · obtain rfl : frame = frame' := Except.ok.inj hok
    exact hpacket

theorem push_ok_isPacket (decoder : SdmDecoder) (data : List UInt8) {frame : SdmFrame}
    (h : .ok frame ∈ (decoder.push data).1) : IsPacket frame.packet frame.header :=
  (push_scans decoder data).forall_results (fun _ _ _ hpass => pass_ok_isPacket hpass) _ h frame rfl

theorem mem_numberFrames {sequence : UInt64} {results : List SdmResult} {frame : CaptureFrame}
    (h : frame ∈ (numberFrames clock sequence results).1) :
    ∃ number sdm, .ok sdm ∈ results ∧
      frame = captureFrame clock number .samsung sdm.header.syntheticLogCode sdm.packet := by
  induction results generalizing sequence with
  | nil => cases h
  | cons result results ih =>
    cases result with
    | error err =>
      obtain ⟨number, sdm, hmem, heq⟩ := ih h
      exact ⟨number, sdm, List.mem_cons_of_mem _ hmem, heq⟩
    | ok sdm =>
      rcases List.mem_cons.mp h with heq | htail
      · exact ⟨_, sdm, List.mem_cons_self .., heq⟩
      · obtain ⟨number, sdm', hmem, heq⟩ := ih htail
        exact ⟨number, sdm', List.mem_cons_of_mem _ hmem, heq⟩

theorem numberFrames_append (sequence : UInt64) (results results' : List SdmResult) :
    numberFrames clock sequence (results ++ results') =
      ((numberFrames clock sequence results).1 ++
          (numberFrames clock (numberFrames clock sequence results).2 results').1,
        (numberFrames clock (numberFrames clock sequence results).2 results').2) := by
  induction results generalizing sequence with
  | nil => rfl
  | cons result results ih =>
    cases result with
    | error err => exact ih sequence
    | ok sdm =>
      rw [List.cons_append, numberFrames, ih (sequence + 1)]
      rfl

theorem capture_incremental : Incremental (SdmCapture.push clock) := by
  intro capture first second
  have hdecoder := push_incremental capture.decoder first second
  simp only [SdmCapture.push, hdecoder, numberFrames_append]

theorem capture_nil : SdmCapture.push clock {} [] = ([], {}) := by
  rw [SdmCapture.push, push_default_nil]
  rfl

/-- A captured frame holds a whole packet, behind its log code. -/
theorem captured_packet (live : Bool) (reads : List ReadOutcome) :
    ∀ frame ∈ captured live (SdmCapture.push clock) reads {},
      ∃ packet header, IsPacket packet header ∧ frame.vendor = .samsung ∧
        frame.logCode = header.syntheticLogCode ∧
        frame.payload = parserPayload frame.logCode packet := by
  intro frame hframe
  have hrest : SdmCapture.push clock {} [] = ([], {}) := by
    rw [SdmCapture.push, push_default_nil]
    rfl
  rw [captured_eq live (capture_incremental clock) reads hrest] at hframe
  obtain ⟨number, sdm, hmem, rfl⟩ := mem_numberFrames clock hframe
  exact ⟨sdm.packet, sdm.header, push_ok_isPacket _ _ hmem, rfl, rfl, rfl⟩

end Capture

end SixGrok.Samsung
