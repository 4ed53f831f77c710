import SixGrok.Core.Frame
import SixGrok.Framework.MessagePack

namespace SixGrok.Core

open SixGrok.Framework MessagePack

def frameFormat : Format FrameTuple :=
  tuple 6 (uint64.pair (int64.pair (uint64.pair (uint16.pair ((seq uint8).pair uint8)))))

/-- `["Frame", [seq, ts_wall, ts_mono, log_code, payload, vendor]]`. -/
def wireFormat : Format WireMessage := tuple 2 (string.pair frameFormat)

/-- MessagePack, as its specification has it and `rmp_serde` writes tuples. -/
def messagePack : Codec where
  toVec message :=
    match wireFormat.encode message with
    | none => .error "length does not fit"
    | some bytes => .ok bytes
  fromSlice bytes :=
    match wireFormat.decode bytes with
    | none => .error "invalid marker"
    | some (message, _) => .ok message

/-- The codec writes the MessagePack encoding and fails where there is none. -/
def Codec.WritesMessagePack (codec : Codec) : Prop :=
  ∀ message bytes, codec.toVec message = .ok bytes ↔ wireFormat.encode message = some bytes

theorem messagePack_writes : messagePack.WritesMessagePack := by
  intro message bytes
  cases hencode : wireFormat.encode message with
  | none => simp [messagePack, hencode]
  | some encoded => simp [messagePack, hencode]

theorem messagePack_faithful : messagePack.Faithful where
  decodes message bytes h := by
    have hdecode := wireFormat.decode_encode ((messagePack_writes _ _).mp h) []
    rw [List.append_nil] at hdecode
    simp only [messagePack, hdecode]
  nonempty message bytes h := by
    have hlength := wireFormat.encode_length ((messagePack_writes _ _).mp h)
    have hheader : wireFormat.size message = 1 + (string.pair frameFormat).size message := rfl
    intro hempty
    subst hempty
    rw [hheader, List.length_nil] at hlength
    omega

def byteSize (byte : UInt8) : Nat := if byte.toNat < 128 then 1 else 2

/-- The length of an encoded frame: array, `"Frame"`, array and vendor ID take nine bytes,
the other fields as many as their values need. -/
def frameSize (frame : CaptureFrame) : Nat :=
  9 + uintTags.size frame.sequence.toNat + intSize frame.timestampWall.toInt +
    uintTags.size frame.timestampMono.toNat + uintTags.size frame.logCode.toNat +
    arrayTags.size frame.payload.length + (frame.payload.map byteSize).sum

theorem uint8_size (byte : UInt8) : uint8.size byte = byteSize byte := by
  have hlt : byte.toNat < 256 := byte.toNat_lt
  have hfind : uintTags.wide.find? (fun w => byte.toNat < 256 ^ w.2) = some (0xcc, 1) :=
    List.find?_cons_of_pos (by simpa using hlt)
  change uintTags.size byte.toNat = _
  rw [Tags.size, byteSize, hfind]
  rfl

theorem wireFormat_size (frame : CaptureFrame) :
    wireFormat.size (wireMessage frame) = frameSize frame := by
  have hvendor : uint8.size frame.vendor.parserId = 1 := by
    cases frame.vendor <;> rfl
  have hpayload : (seq uint8).size frame.payload =
      arrayTags.size frame.payload.length + (frame.payload.map byteSize).sum := by
    change arrayTags.size _ + (frame.payload.map uint8.size).sum = _
    rw [funext uint8_size]
  have hstring : string.size "Frame" = 6 := by decide
  change 1 + (string.size "Frame" + (1 + (uintTags.size frame.sequence.toNat +
    (intSize frame.timestampWall.toInt + (uintTags.size frame.timestampMono.toNat +
      (uintTags.size frame.logCode.toNat + ((seq uint8).size frame.payload +
        uint8.size frame.vendor.parserId))))))) = _
  rw [hpayload, hvendor, hstring, frameSize]
  omega

theorem length_le_byteSizes (payload : List UInt8) :
    payload.length ≤ (payload.map byteSize).sum := by
  induction payload with
  | nil => exact Nat.le_refl 0
  | cons byte payload ih =>
    have hbyte : 1 ≤ byteSize byte := by
      rw [byteSize]
      split_ifs <;> decide
    rw [List.length_cons, List.map_cons, List.sum_cons]
    omega

theorem byteSizes_le_length (payload : List UInt8) :
    (payload.map byteSize).sum ≤ 2 * payload.length := by
  induction payload with
  | nil => exact Nat.le_refl 0
  | cons byte payload ih =>
    have hbyte : byteSize byte ≤ 2 := by
      rw [byteSize]
      split_ifs <;> decide
    rw [List.length_cons, List.map_cons, List.sum_cons]
    omega

theorem frameSize_bounds (frame : CaptureFrame) :
    9 + frame.payload.length ≤ frameSize frame ∧
      frameSize frame ≤ 50 + 2 * frame.payload.length := by
  have hlow := length_le_byteSizes frame.payload
  have hhigh := byteSizes_le_length frame.payload
  have hsequence := uintTags.size_le 8 (by decide) frame.sequence.toNat
  have hwall := intSize_le frame.timestampWall.toInt
  have hmono := uintTags.size_le 8 (by decide) frame.timestampMono.toNat
  have hcode := uintTags.size_le 8 (by decide) frame.logCode.toNat
  have harray := arrayTags.size_le 4 (by decide) frame.payload.length
  rw [frameSize]
  omega

/-- Every frame is encoded whose payload an array can hold. -/
theorem wireFormat_isSome (frame : CaptureFrame) (hpayload : frame.payload.length < 2 ^ 32) :
    (wireFormat.encode (wireMessage frame)).isSome := by
  have huint {n : Nat} (h : n < 2 ^ 64) : (uintTags.encode n).isSome :=
    uintTags.encode_isSome ⟨(0xcf, 8), by decide, by simpa using h⟩
  have hbyte (byte : UInt8) : (uint8.encode byte).isSome :=
    huint (lt_of_lt_of_le byte.toNat_lt (by decide))
  have hseq : ((seq uint8).encode frame.payload).isSome :=
    Format.list_isSome (arrayTags.encode_isSome ⟨(0xdd, 4), by decide, by simpa using hpayload⟩)
      fun byte _ => hbyte byte
  have hwall : (int64.encode frame.timestampWall).isSome :=
    encodeInt_isSome frame.timestampWall.le_toInt frame.timestampWall.toInt_lt
  have hcode : (uint16.encode frame.logCode).isSome :=
    huint (lt_of_lt_of_le frame.logCode.toNat_lt (by decide))
  have hsix : (arrayTags.encode 6).isSome := by decide
  have htwo : (arrayTags.encode 2).isSome := by decide
  have hkind : (string.encode "Frame").isSome := by decide
  have hfields := Format.pair_isSome (seq uint8) uint8
    (p := (frame.payload, frame.vendor.parserId)) hseq (hbyte _)
  have hframe : (frameFormat.encode (wireMessage frame).2).isSome :=
    Format.pair_isSome arrayTags.format _ (p := (6, _)) hsix
      (Format.pair_isSome uint64 _ (huint frame.sequence.toNat_lt)
        (Format.pair_isSome int64 _ hwall
          (Format.pair_isSome uint64 _ (huint frame.timestampMono.toNat_lt)
            (Format.pair_isSome uint16 _ hcode hfields))))
  exact Format.pair_isSome arrayTags.format _ (p := (2, _)) htwo
    (Format.pair_isSome string _ (p := ("Frame", _)) hkind hframe)

end SixGrok.Core
