import SixGrok.Agent.Capture
import SixGrok.Agent.WireSink
import SixGrok.Core.Parser

namespace SixGrok.Agent

open SixGrok.Framework SixGrok.Core SixGrok.Qualcomm

inductive EmitError where
  | recording (kind : ErrorKind)
  | sending (err : SendFailure)
  | printing (err : String)
  deriving DecidableEq, Repr

/-- Where the agent puts its frames: the frame capture, in which writing a frame comes back with
this, the connection to the service, and the standard output. -/
structure Outlets where
  frameCapture : Option (CaptureFrame → Except ErrorKind Unit) := none
  wireSink : Option WireSink := none
  printed : List String := []

section Emit

variable {φ ν : Type} (codec : Codec) (parser : Parser φ ν)

theorem WireSink.writeAll_isSome (context : String) (bytes : List UInt8) (sink : WireSink) :
    ((writeAll context bytes).run sink).isSome := by
  rw [Session.run, writeAll]
  cases sink.link sink.written bytes <;> rfl

theorem WireSink.send_isSome (frame : CaptureFrame) (sink : WireSink) :
    ((send codec frame).run sink).isSome := by
  apply Session.run_bind_isSome
  · exact Session.run_lift_isSome _ _
  intro payload
  apply Session.run_bind_isSome
  · exact Session.run_lift_isSome _ _
  intro len
  apply Session.run_bind_isSome
  · exact writeAll_isSome _ _
  · intro _
    exact writeAll_isSome _ _

def Outlets.record (outlets : Outlets) (frame : CaptureFrame) : Except EmitError Unit :=
  match outlets.frameCapture with
  | none => .ok ()
  | some write => (write frame).mapError .recording

def Outlets.send (outlets : Outlets) (frame : CaptureFrame) : Except EmitError Unit × Outlets :=
  match outlets.wireSink with
  | none => (.ok (), outlets)
  | some sink =>
    let sent := ((WireSink.send codec frame).run sink).get (WireSink.send_isSome codec frame sink)
    (sent.1.mapError .sending, { outlets with wireSink := some sent.2 })

def emitFrame : Consumer Outlets EmitError CaptureFrame := fun frame outlets =>
  match outlets.record frame with
  | .error err => (.error err, outlets)
  | .ok () =>
    match outlets.send codec frame with
    | (.error err, outlets) => (.error err, outlets)
    | (.ok (), outlets) =>
      match parser.toString (frame.decode parser) with
      | .error err => (.error (.printing err), outlets)
      | .ok line => (.ok (), { outlets with printed := outlets.printed ++ [line] })

variable {codec parser}

/-- Over a connection that does not break a frame leaves as one message behind its length. -/
theorem emitFrame_unbroken {frame : CaptureFrame} {payload : List UInt8} {line : String}
    (hpayload : encodeWireFrame codec frame = .ok payload) (hlt : payload.length < 2 ^ 32)
    (hline : parser.toString (frame.decode parser) = .ok line) {sink : WireSink}
    (hlink : ∀ w b, sink.link w b = .ok ()) (printed : List String) :
    emitFrame codec parser frame { wireSink := some sink, printed } =
      (.ok (), { wireSink := some { sink with written := sink.written ++ WireSink.prefixed payload },
                 printed := printed ++ [line] }) := by
  have hsend := WireSink.send_unbroken hpayload hlt hlink
  rw [emitFrame]
  simp only [Outlets.record, Outlets.send, hsend, Option.get_some, Except.mapError, hline]

theorem emitFrames_unbroken {frames : List CaptureFrame} {payloads : List (List UInt8)}
    (encoded : List.Forall₂ (fun frame payload => encodeWireFrame codec frame = .ok payload ∧
      payload.length < 2 ^ 32) frames payloads)
    (printable : ∀ frame : CaptureFrame, ∃ line, parser.toString (frame.decode parser) = .ok line)
    (sink : WireSink) (hlink : ∀ w b, sink.link w b = .ok ()) (printed : List String) :
    ∃ printed', (emitFrame codec parser).feedAll frames { wireSink := some sink, printed } =
      (.ok (), { wireSink := some { sink with
                   written := sink.written ++ (payloads.map WireSink.prefixed).flatten },
                 printed := printed' }) := by
  induction encoded generalizing sink printed with
  | nil =>
    refine ⟨printed, ?_⟩
    rw [List.map_nil, List.flatten_nil, List.append_nil]
    rfl
  | @cons frame payload frames payloads hframe _ ih =>
    obtain ⟨line, hline⟩ := printable frame
    have hemit := emitFrame_unbroken hframe.1 hframe.2 hline hlink printed
    have hnext : ∀ w b, WireSink.link { sink with
        written := sink.written ++ WireSink.prefixed payload } w b = .ok () := hlink
    obtain ⟨printed', hrest⟩ := ih _ hnext (printed ++ [line])
    refine ⟨printed', ?_⟩
    rw [Consumer.feedAll, hemit, List.map_cons, List.flatten_cons, ← List.append_assoc]
    exact hrest

end Emit

end SixGrok.Agent
