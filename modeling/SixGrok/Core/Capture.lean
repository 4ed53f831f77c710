import SixGrok.Core.Frame
import SixGrok.Framework.Consumer
import SixGrok.Framework.Feed
import SixGrok.Framework.Reader

namespace SixGrok.Core

open SixGrok.Framework

/-- What the two clocks show when the frame with this number is made. -/
abbrev Clock := UInt64 → Int64 × UInt64

def captureFrame (clock : Clock) (sequence : UInt64) (vendor : Vendor) (logCode : UInt16)
    (packet : List UInt8) : CaptureFrame where
  sequence := sequence
  timestampWall := (clock sequence).1
  timestampMono := (clock sequence).2
  vendor := vendor
  logCode := logCode
  payload := parserPayload logCode packet

/-- The number of a frame, counted from before and from behind the first one. -/
theorem sequence_succ (sequence : UInt64) (i : Nat) :
    sequence + 1 + UInt64.ofNat (i + 1) = sequence + UInt64.ofNat (i + 1 + 1) := by
  rw [UInt64.ofNat_add (i + 1) 1, UInt64.add_assoc, UInt64.add_comm 1]
  rfl

inductive StreamError (ε : Type) where
  | reading (kind : ErrorKind)
  | emit (err : ε)
  deriving DecidableEq, Repr

section Loop

variable {δ τ ε : Type} (live : Bool) (push : δ → List UInt8 → List CaptureFrame × δ)
  (emit : Consumer τ ε CaptureFrame)

/-- The loop that the capture backends share: an empty read ends it, unless the source is
live. Without a result it is still reading. -/
def captureLoop : List ReadOutcome → δ → τ → Option (Except (StreamError ε) Unit) × τ
  | [], _, out => (none, out)
  | .ok [] :: reads, decoder, out =>
    if live then captureLoop reads decoder out else (some (.ok ()), out)
  | .ok chunk :: reads, decoder, out =>
    match emit.feedAll (push decoder chunk).1 out with
    | (.error err, out) => (some (.error (.emit err)), out)
    | (.ok (), out) => captureLoop reads (push decoder chunk).2 out
  | .error kind :: reads, decoder, out =>
    if kind = .interrupted then captureLoop reads decoder out
    else (some (.error (.reading kind)), out)

/-- The frames that a capture hands over when none is refused. -/
def captured (reads : List ReadOutcome) (decoder : δ) : List CaptureFrame :=
  (captureLoop live push Consumer.recorder reads decoder []).2

/-- The bytes that the loop takes in before its source ends or breaks. -/
def streamed : List ReadOutcome → List UInt8
  | [] => []
  | .ok [] :: reads => if live then streamed reads else []
  | .ok chunk :: reads => chunk ++ streamed reads
  | .error kind :: reads => if kind = .interrupted then streamed reads else []

variable {push}

/-- A capture depends on the bytes of its source, not on how the reads cut them. -/
theorem captured_eq (incremental : Incremental push) (reads : List ReadOutcome) {decoder : δ}
    (stable : push decoder [] = ([], decoder)) :
    captured live push reads decoder = (push decoder (streamed live reads)).1 := by
  have hloop (seen : List CaptureFrame) :
      (captureLoop live push Consumer.recorder reads decoder seen).2 =
        seen ++ (push decoder (streamed live reads)).1 := by
    -- over the reads, from any state that an empty push keeps
    induction reads generalizing decoder seen with
    | nil =>
      rw [captureLoop, streamed, stable]
      exact (List.append_nil seen).symm
    | cons read reads ih =>
      cases read with
      | error kind =>
        rw [captureLoop, streamed]
        split_ifs
        · exact ih stable seen
        · rw [stable]
          exact (List.append_nil seen).symm
      | ok chunk =>
        cases chunk with
        | nil =>
          rw [captureLoop, streamed]
          split_ifs
          · exact ih stable seen
          · rw [stable]
            exact (List.append_nil seen).symm
        | cons byte bytes =>
          have hrest := ih (incremental.after decoder (byte :: bytes))
            (seen ++ (push decoder (byte :: bytes)).1)
          rw [captureLoop, Consumer.feedAll_recorder, streamed, incremental, ← List.append_assoc]
          · exact hrest
          · simp
          · simp
  exact hloop []

/-- Where no frame is refused, all of them are handed over. -/
theorem captureLoop_emits (incremental : Incremental push) (emit : Consumer τ ε CaptureFrame)
    (reads : List ReadOutcome) {decoder : δ} (stable : push decoder [] = ([], decoder))
    {out out' : τ} (h : emit.feedAll (push decoder (streamed live reads)).1 out = (.ok (), out')) :
    (captureLoop live push emit reads decoder out).2 = out' ∧
      ∀ err, (captureLoop live push emit reads decoder out).1 ≠ some (.error (.emit err)) := by
  have hnothing {decoder : δ} (stable : push decoder [] = ([], decoder)) {out : τ}
      (h : emit.feedAll (push decoder []).1 out = (.ok (), out')) : out = out' := by
    rw [stable] at h
    exact (Prod.mk.inj h).2
  induction reads generalizing decoder out with
  | nil => exact ⟨hnothing stable h, nofun⟩
  | cons read reads ih =>
    cases read with
    | error kind =>
      rw [captureLoop]
      rw [streamed] at h
      split_ifs at h ⊢
      · exact ih stable h
      · exact ⟨hnothing stable h, nofun⟩
    | ok chunk =>
      cases chunk with
      | nil =>
        rw [captureLoop]
        rw [streamed] at h
        split_ifs at h ⊢
        · exact ih stable h
        · exact ⟨hnothing stable h, nofun⟩
      | cons byte bytes =>
        rw [streamed, incremental] at h
        · obtain ⟨mid, hfirst, hrest⟩ := Consumer.feedAll_append_ok h
          rw [captureLoop, hfirst]
          · exact ih (incremental.after decoder (byte :: bytes)) hrest
          · simp
        · simp

end Loop

end SixGrok.Core
