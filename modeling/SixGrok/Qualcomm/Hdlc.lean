import SixGrok.Framework.Bytes
import SixGrok.Framework.Crc
import SixGrok.Framework.Feed

namespace SixGrok.Qualcomm

open SixGrok.Framework

structure HdlcDecoder where
  frame : List UInt8 := []
  escaped : Bool := false
  deriving DecidableEq, Repr

inductive FrameError where
  | tooShort
  | badCrc (expected actual : UInt16)
  deriving DecidableEq, Repr

section Checksum

-- The crc crate's `DIAG_CRC.checksum`.
variable (checksum : List UInt8 → UInt16)

def validateDiagFrame (raw : List UInt8) : Except FrameError (List UInt8) :=
  if raw.length < 3 then .error .tooShort
  else
    let crcPos := raw.length - 2
    let expected := u16FromLe (raw.drop crcPos)
    let actual := checksum (raw.take crcPos)
    if expected ≠ actual then .error (.badCrc expected actual)
    else .ok (raw.take crcPos)

def HdlcDecoder.push (decoder : HdlcDecoder) (byte : UInt8) :
    Option (Except FrameError (List UInt8)) × HdlcDecoder :=
  if byte = 0x7e then
    if decoder.frame = [] then (none, { decoder with escaped := false })
    else (some (validateDiagFrame checksum decoder.frame), { frame := [], escaped := false })
  else if byte = 0x7d then (none, { decoder with escaped := true })
  else
    (none, { frame := decoder.frame ++ [if decoder.escaped then byte ^^^ 0x20 else byte],
             escaped := false })

def encodeByte (byte : UInt8) : List UInt8 :=
  if byte = 0x7d ∨ byte = 0x7e then [0x7d, byte ^^^ 0x20] else [byte]

def encodeHdlc (packet : List UInt8) : List UInt8 :=
  (packet ++ u16ToLe (checksum packet)).flatMap encodeByte ++ [0x7e]

/-- The crc bytes that end an encoded frame are the ones that validation expects. -/
theorem validateDiagFrame_checksum (packet : List UInt8) (nonempty : packet ≠ []) :
    validateDiagFrame checksum (packet ++ u16ToLe (checksum packet)) = .ok packet := by
  have hpos : 0 < packet.length := List.length_pos_iff.mpr nonempty
  have hcrc : (packet ++ u16ToLe (checksum packet)).length - 2 = packet.length := by simp
  have hlong : ¬ (packet ++ u16ToLe (checksum packet)).length < 3 := by
    simp only [List.length_append, u16ToLe_length]
    omega
  simp only [validateDiagFrame, hlong, if_false, hcrc, List.drop_left, List.take_left,
    u16FromLe_toLe, ne_eq, not_true_eq_false]

theorem push_delimiter_default (decoder : HdlcDecoder) :
    (decoder.push checksum 0x7e).2 = {} := by
  rw [HdlcDecoder.push, if_pos rfl]
  by_cases hframe : decoder.frame = []
  · simp [hframe]
  · simp [hframe]

/-- Escaping and unescaping one byte: whatever the byte, the decoder ends up with
it behind the frame it had, and not in the middle of an escape. -/
theorem feed_encodeByte (frame : List UInt8) (byte : UInt8) :
    feed (HdlcDecoder.push checksum) { frame } (encodeByte byte) =
      ([], { frame := frame ++ [byte] }) := by
  unfold encodeByte
  split_ifs with hbyte
  · have hplain : byte ^^^ 0x20 ≠ 0x7e ∧ byte ^^^ 0x20 ≠ 0x7d := by
      rcases hbyte with rfl | rfl <;> decide
    have hback : byte ^^^ 0x20 ^^^ 0x20 = byte := by
      rcases hbyte with rfl | rfl <;> decide
    simp [feed_cons, HdlcDecoder.push, hplain.1, hplain.2, hback]
  · obtain ⟨hescape, hdelimiter⟩ := not_or.mp hbyte
    simp [feed_cons, HdlcDecoder.push, hescape, hdelimiter]

theorem feed_encodeBytes (frame bytes : List UInt8) :
    feed (HdlcDecoder.push checksum) { frame } (bytes.flatMap encodeByte) =
      ([], { frame := frame ++ bytes }) := by
  induction bytes generalizing frame with
  | nil => simp
  | cons byte bytes ih =>
    rw [List.flatMap_cons, feed_append, feed_encodeByte, ih]
    simp

/-- One encoded packet, from the default decoder. -/
theorem feed_encodeHdlc (packet : List UInt8) (nonempty : packet ≠ []) :
    feed (HdlcDecoder.push checksum) {} (encodeHdlc checksum packet) = ([.ok packet], {}) := by
  have hvalid := validateDiagFrame_checksum checksum packet nonempty
  rw [encodeHdlc, feed_append, feed_encodeBytes]
  simp [feed_cons, HdlcDecoder.push, hvalid, nonempty]

theorem feed_encodeHdlc_packets (packets : List (List UInt8)) (nonempty : ∀ p ∈ packets, p ≠ []) :
    feed (HdlcDecoder.push checksum) {} (packets.map (encodeHdlc checksum)).flatten =
      (packets.map Except.ok, {}) :=
  feed_items _ ({} : HdlcDecoder) (encodeHdlc checksum) Except.ok packets
    (fun p hp => feed_encodeHdlc checksum p (nonempty p hp))

/-- After any noise and one delimiter the decoder is at rest, so the encoded packets
that follow come out as they went in. -/
theorem hdlc_roundtrip_resync (noise : List UInt8) (packets : List (List UInt8))
    (nonempty : ∀ p ∈ packets, p ≠ []) :
    feed (HdlcDecoder.push checksum) {}
        (noise ++ [0x7e] ++ (packets.map (encodeHdlc checksum)).flatten) =
      ((feed (HdlcDecoder.push checksum) {} (noise ++ [0x7e])).1 ++ packets.map Except.ok, {}) := by
  rw [feed_resync _ ({} : HdlcDecoder) 0x7e (push_delimiter_default checksum),
    feed_encodeHdlc_packets checksum packets nonempty]

end Checksum

/-- A dangling escape and a stray byte before the first delimiter, then two packets
that hold both special bytes. -/
theorem hdlc_roundtrip_resync_escaped :
    feed (HdlcDecoder.push crc16IbmSdlc) {}
        ([0x41, 0x7d] ++ [0x7e] ++
          ([[0x73, 0x7d, 0x7e, 0x00, 0x55], [0x7e]].map (encodeHdlc crc16IbmSdlc)).flatten) =
      ((feed (HdlcDecoder.push crc16IbmSdlc) {} ([0x41, 0x7d] ++ [0x7e])).1 ++
        [[0x73, 0x7d, 0x7e, 0x00, 0x55], [0x7e]].map Except.ok, {}) :=
  hdlc_roundtrip_resync crc16IbmSdlc [0x41, 0x7d] [[0x73, 0x7d, 0x7e, 0x00, 0x55], [0x7e]]
    (by decide)

end SixGrok.Qualcomm
