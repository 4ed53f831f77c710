import SixGrok.Core.Capture
import SixGrok.Framework.Writer

namespace SixGrok.Core

open SixGrok.Framework

/-- `file.as_mut()` followed by `write_all`. -/
def writeOptional : Consumer (Option Writer) ErrorKind (List UInt8)
  | _, none => (.ok (), none)
  | bytes, some file => ((Writer.writeAll bytes file).1, some (Writer.writeAll bytes file).2)

def flushOptional : Option Writer → Except ErrorKind Unit
  | none => .ok ()
  | some file => file.flush

inductive RecordedError (ε : Type) where
  | reading (kind : ErrorKind)
  | rawCapture (kind : ErrorKind)
  | emit (err : ε)
  | flushing (kind : ErrorKind)
  deriving DecidableEq, Repr

section Loop

variable {δ τ ε : Type} (live : Bool) (push : δ → List UInt8 → List CaptureFrame × δ)
  (emit : Consumer τ ε CaptureFrame) (frameCapture : τ → Option Writer)

/-- The loop of the capture backends with its raw capture, and with the flushes at its end. -/
def recordedLoop : List ReadOutcome → δ → Option Writer → τ →
    Option (Except (RecordedError ε) Unit) × Option Writer × τ
  | [], _, raw, out => (none, raw, out)
  | .ok [] :: reads, decoder, raw, out =>
    if live then recordedLoop reads decoder raw out
    else
      match flushOptional raw, flushOptional (frameCapture out) with
      | .error kind, _ => (some (.error (.flushing kind)), raw, out)
      | .ok (), .error kind => (some (.error (.flushing kind)), raw, out)
      | .ok (), .ok () => (some (.ok ()), raw, out)
  | .ok chunk :: reads, decoder, raw, out =>
    match writeOptional chunk raw with
    | (.error kind, raw) => (some (.error (.rawCapture kind)), raw, out)
    | (.ok (), raw) =>
      match emit.feedAll (push decoder chunk).1 out with
      | (.error err, out) => (some (.error (.emit err)), raw, out)
      | (.ok (), out) => recordedLoop reads (push decoder chunk).2 raw out
  | .error kind :: reads, decoder, raw, out =>
    if kind = .interrupted then recordedLoop reads decoder raw out
    else (some (.error (.reading kind)), raw, out)

variable {live push emit frameCapture}

/-- Without a raw capture, and with a frame capture that can be flushed, this is the plain loop. -/
theorem recordedLoop_none (flushes : ∀ out, flushOptional (frameCapture out) = .ok ())
    (reads : List ReadOutcome) (decoder : δ) (out : τ) :
    recordedLoop live push emit frameCapture reads decoder none out =
      ((captureLoop live push emit reads decoder out).1.map fun result =>
          result.mapError fun
            | .reading kind => .reading kind
            | .emit err => .emit err,
        none, (captureLoop live push emit reads decoder out).2) := by
  induction reads generalizing decoder out with
  | nil => rfl
  | cons read reads ih =>
    cases read with
    | error kind =>
      rw [recordedLoop, captureLoop]
      split_ifs
      · exact ih decoder out
      · rfl
    | ok chunk =>
      cases chunk with
      | nil =>
        rw [recordedLoop, captureLoop]
        split_ifs
        · exact ih decoder out
        · rw [flushes]
          rfl
      | cons byte bytes =>
        rw [recordedLoop, captureLoop, writeOptional]
        · rcases hfeed : emit.feedAll (push decoder (byte :: bytes)).1 out with ⟨err | ⟨⟩, next⟩
          · rfl
          · exact ih _ next
        · simp
        · simp

section Written

variable (push emit)

/-- How the loop leaves its raw capture and its outlets, whatever has failed: the file has a first
part of the stream, and what has been emitted is the frames of the bytes that it had before. -/
def Recorded (stream : List UInt8) (decoder : δ) (file : Writer) (out : τ) :
    Option (Except (RecordedError ε) Unit) × Option Writer × τ → Prop
  | (result, raw, out') => ∃ file' consumed bytes fed, raw = some file' ∧
    file'.written = file.written ++ bytes ∧ consumed <+: bytes ∧ bytes <+: stream ∧
    emit.feedAll (push decoder consumed).1 out = (fed, out') ∧
    (∀ err, fed = .error err ↔ result = some (.error (.emit err))) ∧
    ((∀ kind, result ≠ some (.error (.rawCapture kind))) → consumed = bytes ∧
      ((∀ err, result ≠ some (.error (.emit err))) → bytes = stream))

variable {push emit} {decoder : δ} {file next : Writer} {out mid : τ}

/-- Where the loop does not go on to another chunk. -/
theorem Recorded.stop (stable : push decoder [] = ([], decoder))
    {result : Option (Except (RecordedError ε) Unit)}
    (taken : ∀ err, result ≠ some (.error (.emit err))) :
    Recorded push emit [] decoder file out (result, some file, out) := by
  refine ⟨file, [], [], .ok (), rfl, (List.append_nil _).symm, List.prefix_rfl, List.prefix_rfl, ?_,
    ?_, ?_⟩
  · rw [stable]
    rfl
  · intro err
    exact iff_of_false (by intro h; cases h) (taken err)
  · exact fun _ => ⟨rfl, fun _ => rfl⟩

variable {chunk : List UInt8}

theorem Recorded.writeFails (stable : push decoder [] = ([], decoder)) {kind : ErrorKind}
    (write : Writer.writeAll chunk file = (.error kind, next)) (stream : List UInt8) :
    Recorded push emit (chunk ++ stream) decoder file out
      (some (.error (.rawCapture kind)), some next, out) := by
  rcases Writer.writeAll_cases write with ⟨hok, -⟩ | ⟨_, n, -, hwritten⟩
  · cases hok
  · refine ⟨next, [], chunk.take n, .ok (), rfl, hwritten, List.nil_prefix,
      (List.take_prefix n _).trans (List.prefix_append ..), ?_, ?_, ?_⟩
    · rw [stable]
      rfl
    · intro err
      exact iff_of_false (by intro h; cases h) (by intro h; cases h)
    · exact fun hnot => absurd rfl (hnot kind)

theorem Recorded.emitFails (write : Writer.writeAll chunk file = (.ok (), next)) {err : ε}
    (emits : emit.feedAll (push decoder chunk).1 out = (.error err, mid)) (stream : List UInt8) :
    Recorded push emit (chunk ++ stream) decoder file out
      (some (.error (.emit err)), some next, mid) := by
  rcases Writer.writeAll_cases write with ⟨-, hwritten⟩ | ⟨_, _, herr, -⟩
  · refine ⟨next, chunk, chunk, .error err, rfl, hwritten, List.prefix_rfl, List.prefix_append ..,
      emits, ?_, fun _ => ⟨rfl, fun hnot => absurd rfl (hnot err)⟩⟩
    intro err'
    constructor
    · intro h
      rw [Except.error.inj h]
    · intro h
      rw [RecordedError.emit.inj (Except.error.inj (Option.some.inj h))]
  · cases herr

theorem Recorded.goesOn (incremental : Incremental push)
    (write : Writer.writeAll chunk file = (.ok (), next))
    (emits : emit.feedAll (push decoder chunk).1 out = (.ok (), mid)) {stream : List UInt8}
    {last : Option (Except (RecordedError ε) Unit) × Option Writer × τ}
    (rest : Recorded push emit stream (push decoder chunk).2 next mid last) :
    Recorded push emit (chunk ++ stream) decoder file out last := by
  obtain ⟨file', consumed, more, fed, hraw, hmore, hconsumed, hfirst, hout, hfed, hall⟩ := rest
  rcases Writer.writeAll_cases write with ⟨-, hwritten⟩ | ⟨_, _, herr, -⟩
  swap
  · cases herr
  refine ⟨file', chunk ++ consumed, chunk ++ more, fed, hraw, ?_, (List.prefix_append_right_inj _).mpr
    hconsumed, (List.prefix_append_right_inj _).mpr hfirst, ?_, hfed, ?_⟩
  · rw [hmore, hwritten, List.append_assoc]
  · rw [incremental, Consumer.feedAll_append_of_ok emits, hout]
  · intro hnot
    obtain ⟨hsame, hrest⟩ := hall hnot
    exact ⟨by rw [hsame], fun herr => by rw [hrest herr]⟩

variable (live emit frameCapture) in
theorem recordedLoop_recorded (incremental : Incremental push) (reads : List ReadOutcome)
    (stable : push decoder [] = ([], decoder)) (file : Writer) (out : τ) :
    Recorded push emit (streamed live reads) decoder file out
      (recordedLoop live push emit frameCapture reads decoder (some file) out) := by
  induction reads generalizing decoder file out with
  | nil => exact .stop stable (by intro err h; cases h)
  | cons read reads ih =>
    cases read with
    | error kind =>
      rw [recordedLoop, streamed]
      split_ifs
      · exact ih stable file out
      · exact .stop stable (by intro err h; cases h)
    | ok chunk =>
      cases chunk with
      | nil =>
        rw [recordedLoop, streamed]
        split_ifs
        · exact ih stable file out
        · split <;> exact .stop stable (by intro err h; cases h)
      | cons byte bytes =>
        rw [recordedLoop, writeOptional, streamed]
        · rcases hwrite : Writer.writeAll (byte :: bytes) file with ⟨kind | ⟨⟩, next⟩
          · exact .writeFails stable hwrite _
          · rcases hfeed : emit.feedAll (push decoder (byte :: bytes)).1 out with ⟨err | ⟨⟩, mid⟩
            · exact .emitFails hwrite hfeed _
            · exact .goesOn incremental hwrite hfeed (ih (incremental.after decoder _) next mid)
        · simp
        · simp

end Written

end Loop

end SixGrok.Core
