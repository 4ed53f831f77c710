import SixGrok.Agent.RecordSession
import SixGrok.Api.Limits
import SixGrok.Api.Progress
import SixGrok.Samsung.Replay

namespace SixGrok.Api

open SixGrok.Framework SixGrok.Core SixGrok.Qualcomm SixGrok.Agent SixGrok.Samsung

section Session

variable (codec : Codec) (line : CaptureFrame → Except String String)
  (checksum : List UInt8 → UInt16) (clock : Clock)

inductive SessionFailure where
  | stream (err : RecordedError EmitError)
  | records (err : RecordsFailure)
  deriving DecidableEq, Repr

variable {checksum clock}

variable [FrameJson] (checksum clock)

/-- The command of an agent for each kind of source; without a result it is still reading. -/
def Source.session (raw : Option Writer) (files : Files) :
    Source → Option (Except SessionFailure Unit) × Files
  | .records format fixedLogCode reads =>
    let run := recordSession codec line clock format fixedLogCode reads files
    (some (run.1.mapError .records), run.2)
  | .qualcomm live reads =>
    let run := recordedLoop live (feed (QualcommCapture.push checksum clock))
      (recordAndEmit codec line) Files.frameCapture reads {} raw files
    (run.1.map (·.mapError .stream), run.2.2)
  | .sdm live reads =>
    let run := recordedLoop live (SdmCapture.push clock) (recordAndEmit codec line)
      Files.frameCapture reads {} raw files
    (run.1.map (·.mapError .stream), run.2.2)

end Session

section Fleet

/-- An agent with a server: what it reads, and how its outlets take what they are given. -/
structure AgentSession where
  source : Source
  clock : Clock
  raw : Option Writer := none
  frameCapture : Writer := {}
  link : List UInt8 → List UInt8 → Except (ErrorKind × Nat) Unit

variable (codec : Codec) (line : CaptureFrame → Except String String)
  (checksum : List UInt8 → UInt16)

/-- The frames of the source, whatever becomes of them. -/
def AgentSession.frames (agent : AgentSession) : List CaptureFrame :=
  emitted checksum agent.clock agent.source

variable [FrameJson]

def AgentSession.run (agent : AgentSession) : Option (Except SessionFailure Unit) × Files :=
  agent.source.session codec line checksum agent.clock agent.raw
    ⟨some agent.frameCapture, some { link := agent.link }, []⟩

/-- What the agent has written to its connection. -/
def AgentSession.sent (agent : AgentSession) : List UInt8 :=
  ((agent.run codec line checksum).2.wireSink.map WireSink.written).getD []

/-- What the agent has written to its frame capture. -/
def AgentSession.recorded (agent : AgentSession) : List UInt8 :=
  ((agent.run codec line checksum).2.frameCapture.map Writer.written).getD []

variable {codec line checksum}

variable {φ ν κ : Type} [DecidableEq κ] {parser : Parser φ ν} {settings : Settings}
  {startedAtMs : Int64} {input : κ → List ReadOutcome}
  {schedule : List (κ × Except ErrorKind Nat)} {agents : κ → AgentSession}

end Fleet

end SixGrok.Api
