import SixGrok.Agent.Recording
import SixGrok.Qualcomm.Commands
import SixGrok.Samsung.Control

namespace SixGrok.Samsung

open SixGrok.Framework SixGrok.Core SixGrok.Agent SixGrok.Qualcomm

def groupCommon : UInt8 := 0x01
def groupLte : UInt8 := 0x02
def groupEdge : UInt8 := 0x03
def groupHspa : UInt8 := 0x04
def groupTrace : UInt8 := 0x05
def groupIp : UInt8 := 0x07

def groupName (group : UInt8) : String :=
  if group = groupControl then "control"
  else if group = groupCommon then "common"
  else if group = groupLte then "lte"
  else if group = groupEdge then "edge"
  else if group = groupHspa then "hspa"
  else if group = groupTrace then "trace"
  else if group = groupIp then "ip"
  else "unknown"

/-- The native envelope, as it is printed beside what is decoded of a frame. -/
structure SdmMetadata where
  direction : String
  radioId : UInt8
  group : UInt8
  groupName : String
  command : UInt8
  timestamp : UInt32
  nativeLogCode : String
  deriving DecidableEq, Repr

def sdmMetadata (frame : CaptureFrame) (header : SdmHeader) : SdmMetadata where
  direction := "0x" ++ hexPadded 2 header.direction.toNat
  radioId := header.radioId
  group := header.group
  groupName := Samsung.groupName header.group
  command := header.command
  timestamp := header.timestamp
  nativeLogCode := "0x" ++ hexPadded 4 frame.logCode.toNat

section Session

variable {φ ν : Type} (codec : Codec) (parser : Parser φ ν)
  (print : SdmMetadata → DecodedPacket φ → Except String String) (clock : Clock)

variable [FrameJson]

/-- With `serde_json` for the text of the two parts of the line. -/
def emitFrame (frame : CaptureFrame) (header : SdmHeader) (files : Files) :
    Except EmitError Unit × Files :=
  recordAndEmit codec (fun frame => print (sdmMetadata frame header) (frame.decode parser)) frame
    files

variable {codec parser print clock}

end Session

end SixGrok.Samsung
