import SixGrok.Core.Frame

namespace SixGrok.Core

/-- The parser's own frame type. -/
structure DiagFrame where
  sequence : UInt64
  timestampWall : Int64
  timestampMono : UInt64
  logCode : UInt16
  payload : List UInt8
  vendor : UInt8
  deriving DecidableEq, Repr

/-- What the service looks at in a decoded packet, and the fields that it only passes on. -/
structure DecodedPacket (φ : Type) where
  vendor : String
  rat : String
  layer : String
  fullyDecoded : Bool
  fields : φ

/-- `fivegrok_parser`, and the two calls of `serde_json` on what it decodes. -/
structure Parser (φ ν : Type) where
  decodeAgentFrame : DiagFrame → DecodedPacket φ
  toValue : DecodedPacket φ → Except String ν
  toString : DecodedPacket φ → Except String String

def CaptureFrame.decode {φ ν : Type} (parser : Parser φ ν) (frame : CaptureFrame) :
    DecodedPacket φ :=
  parser.decodeAgentFrame
    { sequence := frame.sequence, timestampWall := frame.timestampWall,
      timestampMono := frame.timestampMono, logCode := frame.logCode, payload := frame.payload,
      vendor := frame.vendor.parserId }

end SixGrok.Core
