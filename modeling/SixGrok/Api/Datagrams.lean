import SixGrok.Api.Delivery
import SixGrok.Api.Fleet
import SixGrok.Framework.Interleaving

namespace SixGrok.Api

open SixGrok.Framework SixGrok.Core SixGrok.Qualcomm SixGrok.Agent SixGrok.Samsung

section Mirroring

variable {φ ν κ : Type} {parser : Parser φ ν} (codec : Codec) (settings : Settings)

variable [DecidableEq κ] (input : κ → List ReadOutcome)

variable {codec settings input}

end Mirroring

section Sources

variable (checksum : List UInt8 → UInt16)

variable (gsmtap : GsmtapSink) (clock : Clock)

end Sources

section Fleet

variable [FrameJson] {φ ν κ : Type} [DecidableEq κ] {parser : Parser φ ν} {codec : Codec}
  {line : CaptureFrame → Except String String} {checksum : List UInt8 → UInt16}
  {startedAtMs : Int64} {input : κ → List ReadOutcome} {schedule : List (κ × Except ErrorKind Nat)}
  {agents : κ → AgentSession}

end Fleet

end SixGrok.Api
