import SixGrok.Framework.Bytes

namespace SixGrok.Samsung

open SixGrok.Framework

def sdmStart : UInt8 := 0x7f
def sdmEnd : UInt8 := 0x7e
def sdmHeaderLen : Nat := 14
def maxSdmPacket : Nat := 8 * 1024 * 1024

/-- `saturating_add` on 16-bit words. -/
def saturatingAdd (a b : UInt16) : UInt16 :=
  if a.toNat + b.toNat < 2 ^ 16 then a + b else 0xffff

structure SdmHeader where
  length1 : UInt16
  zero : UInt8
  length2 : UInt16
  stamp : UInt16
  direction : UInt8
  radioId : UInt8
  group : UInt8
  command : UInt8
  timestamp : UInt32
  deriving DecidableEq, Repr

def SdmHeader.syntheticLogCode (header : SdmHeader) : UInt16 :=
  0x2400 ||| (header.group &&& 0x1f).toUInt16

structure SdmFrame where
  header : SdmHeader
  packet : List UInt8
  deriving DecidableEq, Repr

inductive SdmError where
  | headerTooShort
  | invalidLengthRelation (length1 length2 : UInt16)
  | packetTooLarge (size : Nat)
  | badTerminator (value : UInt8)
  deriving DecidableEq, Repr

def parseHeader (header : List UInt8) : Except SdmError SdmHeader :=
  if header.length < sdmHeaderLen then .error .headerTooShort
  else
    let byte (i : Nat) := header.getD i 0
    .ok {
      length1 := u16FromLe [byte 0, byte 1]
      zero := byte 2
      length2 := u16FromLe [byte 3, byte 4]
      stamp := u16FromLe [byte 5, byte 6]
      direction := byte 7
      radioId := byte 8 >>> 5
      group := byte 8 &&& 0x1f
      command := byte 9
      timestamp := u32FromLe [byte 10, byte 11, byte 12, byte 13] }

def generatePacket (direction group command : UInt8) (payload : List UInt8) (timestamp : UInt32) :
    Except SdmError (List UInt8) :=
  -- `checked_add` on usize
  if 11 + payload.length ≥ 2 ^ 64 then .error (.packetTooLarge (2 ^ 64 - 1))
  else
    let length2 := 11 + payload.length
    let length1 := length2 + 3
    let total := length1 + 2
    if total > maxSdmPacket ∨ length1 > 0xffff then .error (.packetTooLarge total)
    else
      .ok ([sdmStart] ++ u16ToLe (UInt16.ofNat length1) ++ [0] ++ u16ToLe (UInt16.ofNat length2) ++
        u16ToLe 0 ++ [direction, group, command] ++ u32ToLe timestamp ++ payload ++ [sdmEnd])

/-- A complete packet that the decoder's own tests accept, with its header. -/
structure IsPacket (packet : List UInt8) (header : SdmHeader) : Prop where
  start : packet.head? = some sdmStart
  parses : parseHeader ((packet.drop 1).take sdmHeaderLen) = .ok header
  lengths : header.length1 = saturatingAdd header.length2 3
  total : packet.length = header.length1.toNat + 2
  long : 16 ≤ packet.length
  terminator : packet.getLast? = some sdmEnd

/-- A complete packet begins at the head of the bytes. -/
def StartsPacket (bytes : List UInt8) : Prop :=
  ∃ packet header, packet <+: bytes ∧ IsPacket packet header

theorem parseHeader_ok (bytes : List UInt8) (long : sdmHeaderLen ≤ bytes.length) :
    ∃ header, parseHeader bytes = .ok header := by
  rw [parseHeader, if_neg (by omega)]
  exact ⟨_, rfl⟩

/-- The header of a candidate only depends on the fifteen bytes that it opens with. -/
theorem header_slice_append (bytes more : List UInt8) (long : 1 + sdmHeaderLen ≤ bytes.length) :
    ((bytes ++ more).drop 1).take sdmHeaderLen = (bytes.drop 1).take sdmHeaderLen := by
  rw [List.drop_append_of_le_length (by omega), List.take_append_of_le_length]
  rw [List.length_drop]
  omega

end SixGrok.Samsung
