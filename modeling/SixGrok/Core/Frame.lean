import SixGrok.Framework.Bytes

namespace SixGrok.Core

open SixGrok.Framework

inductive Vendor where
  | qualcomm
  | mediatek
  | samsung
  deriving DecidableEq, Repr

namespace Vendor

def parserId : Vendor → UInt8
  | qualcomm => 0
  | mediatek => 1
  | samsung => 2

def fromParserId (id : UInt8) : Option Vendor :=
  if id = 0 then some qualcomm
  else if id = 1 then some mediatek
  else if id = 2 then some samsung
  else none

@[simp] theorem fromParserId_parserId (vendor : Vendor) :
    fromParserId vendor.parserId = some vendor := by
  cases vendor <;> rfl

end Vendor

structure CaptureFrame where
  sequence : UInt64
  timestampWall : Int64
  timestampMono : UInt64
  vendor : Vendor
  logCode : UInt16
  payload : List UInt8
  deriving DecidableEq, Repr

def parserPayload (logCode : UInt16) (rawPacket : List UInt8) : List UInt8 :=
  u16ToLe logCode ++ rawPacket

/-- The log code of a DIAG `LOG_F` packet:
`cmd(1), more(1), outer_len(2), entry_len(2), log_code(2), ...`. -/
def qualcommLogCode (packet : List UInt8) : Option UInt16 :=
  if packet.length < 8 ∨ packet.head? ≠ some 0x10 then none
  else some (u16FromLe ((packet.drop 6).take 2))

/-- The tuple of a frame: sequence, wall clock, monotonic clock, log code, payload and
vendor ID. -/
abbrev FrameTuple := UInt64 × Int64 × UInt64 × UInt16 × List UInt8 × UInt8

abbrev WireMessage := String × FrameTuple

/-- The two calls of `rmp_serde` at the type of a wire message. -/
structure Codec where
  toVec : WireMessage → Except String (List UInt8)
  fromSlice : List UInt8 → Except String WireMessage

inductive WireError where
  | encode (err : String)
  | decode (err : String)
  | unknownMessage (kind : String)
  | unknownVendor (id : UInt8)
  deriving DecidableEq, Repr

def wireMessage (frame : CaptureFrame) : WireMessage :=
  ("Frame", frame.sequence, frame.timestampWall, frame.timestampMono, frame.logCode,
    frame.payload, frame.vendor.parserId)

def encodeWireFrame (codec : Codec) (frame : CaptureFrame) : Except WireError (List UInt8) :=
  (codec.toVec (wireMessage frame)).mapError .encode

def decodeWireFrame (codec : Codec) (data : List UInt8) : Except WireError CaptureFrame :=
  match codec.fromSlice data with
  | .error err => .error (.decode err)
  | .ok (kind, sequence, timestampWall, timestampMono, logCode, payload, vendor) =>
    if kind ≠ "Frame" then .error (.unknownMessage kind)
    else
      match Vendor.fromParserId vendor with
      | none => .error (.unknownVendor vendor)
      | some vendor =>
        .ok { sequence, timestampWall, timestampMono, vendor, logCode, payload }

/-- What is relied on of the codec: it decodes what it encodes, and no message is encoded
as nothing (an array begins with its marker). -/
structure Codec.Faithful (codec : Codec) : Prop where
  decodes : ∀ message bytes, codec.toVec message = .ok bytes → codec.fromSlice bytes = .ok message
  nonempty : ∀ message bytes, codec.toVec message = .ok bytes → bytes ≠ []

theorem encodeWireFrame_eq_ok {codec : Codec} {frame : CaptureFrame} {bytes : List UInt8}
    (h : encodeWireFrame codec frame = .ok bytes) :
    codec.toVec (wireMessage frame) = .ok bytes := by
  rw [encodeWireFrame] at h
  cases hvec : codec.toVec (wireMessage frame) with
  | error err =>
    rw [hvec] at h
    cases h
  | ok encoded =>
    rw [hvec] at h
    rw [← Except.ok.inj h]

theorem decodeWireFrame_encode {codec : Codec} (faithful : codec.Faithful) {frame : CaptureFrame}
    {bytes : List UInt8} (h : encodeWireFrame codec frame = .ok bytes) :
    decodeWireFrame codec bytes = .ok frame := by
  have hdecodes := faithful.decodes _ _ (encodeWireFrame_eq_ok h)
  rw [decodeWireFrame, hdecodes]
  simp [wireMessage]

theorem encodeWireFrame_ne_nil {codec : Codec} (faithful : codec.Faithful) {frame : CaptureFrame}
    {bytes : List UInt8} (h : encodeWireFrame codec frame = .ok bytes) : bytes ≠ [] :=
  faithful.nonempty _ _ (encodeWireFrame_eq_ok h)

end SixGrok.Core
