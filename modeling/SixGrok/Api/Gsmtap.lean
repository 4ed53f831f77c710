import SixGrok.Core.Frame

namespace SixGrok.Api

open SixGrok.Framework SixGrok.Core

def gsmtapVersion : UInt8 := 2
def gsmtapHeaderWords : UInt8 := 4
def gsmtapTypeQcDiag : UInt8 := 0x11
def gsmtapHeaderLen : Nat := 16

/-- Version, header words, type and timeslot; ARFCN; signal and SNR; frame number; subtype,
antenna, sub-slot and a reserved byte. -/
def gsmtapHeader (packetType subtype : UInt8) : List UInt8 :=
  [gsmtapVersion, gsmtapHeaderWords, packetType, 0] ++ u16ToBe 0 ++ [0, 0] ++ u32ToBe 0 ++
    [subtype, 0, 0, 0]

def qcDiagDatagram (packet : List UInt8) : List UInt8 := gsmtapHeader gsmtapTypeQcDiag 0 ++ packet

structure GsmtapSink where
  destination : String
  deriving DecidableEq, Repr

/-- A UDP packet on its way. -/
structure Datagram where
  destination : String
  bytes : List UInt8
  deriving DecidableEq, Repr

/-- What `send_qc_diag` hands to the socket. -/
def GsmtapSink.qcDiag (sink : GsmtapSink) (packet : List UInt8) : Datagram where
  destination := sink.destination
  bytes := qcDiagDatagram packet

@[simp] theorem gsmtapHeader_length (packetType subtype : UInt8) :
    (gsmtapHeader packetType subtype).length = gsmtapHeaderLen := by
  simp [gsmtapHeader, gsmtapHeaderLen]

/-- `frame.payload.get(2..)` of a Qualcomm frame, when there is a sink to mirror it to. -/
def mirrored (gsmtap : Option GsmtapSink) (frame : CaptureFrame) : Option Datagram :=
  if frame.vendor = .qualcomm then
    match gsmtap with
    | none => none
    | some sink => if 2 ≤ frame.payload.length then some (sink.qcDiag (frame.payload.drop 2)) else none
  else none

/-- What the agent makes of a raw DIAG packet is mirrored as that packet. -/
theorem mirrored_parserPayload (sink : GsmtapSink) (frame : CaptureFrame) (logCode : UInt16)
    (packet : List UInt8) (hvendor : frame.vendor = .qualcomm)
    (hpayload : frame.payload = parserPayload logCode packet) :
    mirrored (some sink) frame = some (sink.qcDiag packet) := by
  have hlength : 2 ≤ frame.payload.length := by simp [hpayload, parserPayload]
  have hdrop : frame.payload.drop 2 = packet := by
    rw [hpayload, parserPayload, List.drop_left' (u16ToLe_length logCode)]
  simp [mirrored, hvendor, hlength, hdrop]

end SixGrok.Api
