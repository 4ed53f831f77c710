import SixGrok.Agent.Capture
import SixGrok.Core.Recorded
import SixGrok.Samsung.Capture

namespace SixGrok.Agent

open SixGrok.Framework SixGrok.Core SixGrok.Qualcomm SixGrok.Samsung

/-- A frame but for what the clocks showed. -/
def untimed (frame : CaptureFrame) : CaptureFrame :=
  { frame with timestampWall := 0, timestampMono := 0 }

section RawCapture

variable {δ : Type}

/-- The frames that a replay hands over when none is refused: it is the same loop over a file, and
without a raw capture of its own. -/
def replayed (push : δ → List UInt8 → List CaptureFrame × δ) (reads : List ReadOutcome) (decoder : δ) :
    List CaptureFrame :=
  (recordedLoop false push Consumer.recorder (fun _ => none) reads decoder none []).2.2

theorem replayed_eq (push : δ → List UInt8 → List CaptureFrame × δ) (reads : List ReadOutcome)
    (decoder : δ) : replayed push reads decoder = captured false push reads decoder := by
  rw [replayed, recordedLoop_none fun _ => rfl]
  rfl

/-- A backend whose raw capture can stand for the session that wrote it: replayed in whatever
pieces, the file gives the frames that the session handed to its outlets, in the same order and with
the same numbers. It gives more of them only when the session stopped in the middle of writing to the
file, or at a frame that its outlets refused, with more frames behind it in the same read. -/
def LosslessRawCapture (push : Clock → δ → List UInt8 → List CaptureFrame × δ) (decoder : δ) : Prop :=
  ∀ (τ ε : Type) (emit : Consumer τ ε CaptureFrame) (frameCapture : τ → Option Writer)
    (live : Bool) (clock clock' : Clock) (reads : List ReadOutcome) (file : Writer) (out out' : τ)
    (result : Option (Except (RecordedError ε) Unit)) (raw : Option Writer), file.written = [] →
    recordedLoop live (push clock) emit frameCapture reads decoder (some file) out =
      (result, raw, out') →
    let whole := (∀ kind, result ≠ some (.error (.rawCapture kind))) ∧
      ∀ err, result ≠ some (.error (.emit err))
    ∃ file' frames fed, raw = some file' ∧ emit.Handed frames out fed out' ∧
      (∀ err, fed = .error err ↔ result = some (.error (.emit err))) ∧
      file'.written <+: streamed live reads ∧ (whole → file'.written = streamed live reads) ∧
      ∀ reads', streamed false reads' = file'.written →
        frames.map untimed <+: (replayed (push clock') reads' decoder).map untimed ∧
          (whole → frames.map untimed = (replayed (push clock') reads' decoder).map untimed)

variable {push : Clock → δ → List UInt8 → List CaptureFrame × δ} {decoder : δ}

theorem losslessRawCapture (incremental : ∀ clock, Incremental (push clock))
    (stable : ∀ clock, push clock decoder [] = ([], decoder))
    (timeless : ∀ clock clock' bytes,
      (push clock decoder bytes).1.map untimed = (push clock' decoder bytes).1.map untimed) :
    LosslessRawCapture push decoder := by
  intro τ ε emit frameCapture live clock clock' reads file out out' result raw hempty h whole
  have hrecorded := recordedLoop_recorded live emit frameCapture (incremental clock) reads
    (stable clock) file out
  rw [h] at hrecorded
  obtain ⟨file', consumed, bytes, fed, hraw, hwritten, ⟨more, hmore⟩, hfirst, hout, hfed, hall⟩ :=
    hrecorded
  rw [hempty, List.nil_append] at hwritten
  obtain ⟨frames, hframes, hhanded, hcomplete⟩ :=
    Consumer.feedAll_handed emit (push clock decoder consumed).1 out
  rw [hout] at hhanded hcomplete
  refine ⟨file', frames, fed, hraw, hhanded, hfed, hwritten ▸ hfirst, ?_, ?_⟩
  · rintro ⟨hnot, herr⟩
    rw [hwritten]
    exact (hall hnot).2 herr
  · intro reads' hreads'
    rw [hwritten] at hreads'
    have hreplayed : replayed (push clock') reads' decoder = (push clock' decoder bytes).1 := by
      rw [replayed_eq, captured_eq false (incremental clock') reads' (stable clock'), hreads']
    rw [hreplayed, ← timeless clock clock']
    refine ⟨?_, ?_⟩
    · rw [← hmore, incremental, List.map_append]
      exact (hframes.map untimed).trans (List.prefix_append ..)
    · rintro ⟨hnot, herr⟩
      have hok : fed = .ok () := by
        cases fed with
        | ok _ => rfl
        | error err => exact absurd ((hfed err).mp rfl) (herr err)
      rw [hcomplete hok, (hall hnot).1]

theorem mapIdx_untimed (clock clock' : Clock) (packets : List (UInt16 × List UInt8)) :
    (packets.mapIdx fun i packet => captureFrame clock (UInt64.ofNat (i + 1)) .qualcomm
        packet.1 packet.2).map untimed =
      (packets.mapIdx fun i packet => captureFrame clock' (UInt64.ofNat (i + 1)) .qualcomm
        packet.1 packet.2).map untimed := by
  rw [List.mapIdx_eq_zipIdx_map, List.mapIdx_eq_zipIdx_map, List.map_map, List.map_map]
  rfl

theorem numberFrames_untimed (clock clock' : Clock) (sequence : UInt64) (results : List SdmResult) :
    (numberFrames clock sequence results).1.map untimed =
      (numberFrames clock' sequence results).1.map untimed := by
  induction results generalizing sequence with
  | nil => rfl
  | cons result results ih =>
    cases result with
    | error err => exact ih sequence
    | ok sdm => exact congrArg₂ List.cons rfl (ih (sequence + 1))

/-- Both backends with a raw capture are lossless. -/
theorem raw_capture_lossless (checksum : List UInt8 → UInt16) :
    LosslessRawCapture (fun clock => feed (QualcommCapture.push checksum clock)) {} ∧
      LosslessRawCapture SdmCapture.push {} := by
  refine ⟨?_, ?_⟩
  · apply losslessRawCapture
    · exact fun clock => feed_incremental _
    · exact fun clock => feed_nil _ _
    · intro clock clock' bytes
      rw [feed_capture, feed_capture]
      simp only [UInt64.zero_add]
      exact mapIdx_untimed clock clock' _
  · apply losslessRawCapture
    · exact capture_incremental
    · exact capture_nil
    · intro clock clock' bytes
      exact numberFrames_untimed clock clock' 0 _

end RawCapture

end SixGrok.Agent
