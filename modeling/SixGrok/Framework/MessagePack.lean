import SixGrok.Framework.Bytes
import SixGrok.Framework.Format

namespace SixGrok.Framework.MessagePack

def beBytes (width n : Nat) : List UInt8 := (leBytes width n).reverse

def takeBe (width : Nat) (bytes : List UInt8) : Option (Nat × List UInt8) :=
  if width ≤ bytes.length then some (leValue (bytes.take width).reverse, bytes.drop width) else none

@[simp] theorem beBytes_length (width n : Nat) : (beBytes width n).length = width := by
  simp [beBytes]

theorem takeBe_beBytes {width n : Nat} (h : n < 256 ^ width) (rest : List UInt8) :
    takeBe width (beBytes width n ++ rest) = some (n, rest) := by
  have htake : (beBytes width n ++ rest).take width = beBytes width n :=
    List.take_left' (beBytes_length width n)
  have hdrop : (beBytes width n ++ rest).drop width = rest :=
    List.drop_left' (beBytes_length width n)
  rw [takeBe, if_pos (by simp), htake, hdrop, beBytes, List.reverse_reverse, leValue_leBytes,
    Nat.mod_eq_of_lt h]

/-- How a family of values is marked: small ones in the marker byte itself, the others
behind a marker that tells the width of the big-endian number. -/
structure Tags where
  base : Nat
  limit : Nat
  wide : List (UInt8 × Nat)
  fits : base + limit ≤ 256
  disjoint : ∀ w ∈ wide, ¬ (base ≤ w.1.toNat ∧ w.1.toNat < base + limit)
  nodup : (wide.map Prod.fst).Nodup

namespace Tags

variable (tags : Tags)

def encode (n : Nat) : Option (List UInt8) :=
  if n < tags.limit then some [UInt8.ofNat (tags.base + n)]
  else (tags.wide.find? fun w => n < 256 ^ w.2).map fun w => w.1 :: beBytes w.2 n

def decode : List UInt8 → Option (Nat × List UInt8)
  | [] => none
  | marker :: rest =>
    if tags.base ≤ marker.toNat ∧ marker.toNat < tags.base + tags.limit then
      some (marker.toNat - tags.base, rest)
    else (tags.wide.find? fun w => w.1 = marker).bind fun w => takeBe w.2 rest

def size (n : Nat) : Nat :=
  if n < tags.limit then 1
  else match tags.wide.find? fun w => n < 256 ^ w.2 with
    | some w => 1 + w.2
    | none => 0

theorem find_marker {wide : List (UInt8 × Nat)} (nodup : (wide.map Prod.fst).Nodup)
    {w : UInt8 × Nat} (h : w ∈ wide) : wide.find? (fun v => v.1 = w.1) = some w := by
  induction wide with
  | nil => cases h
  | cons v wide ih =>
    rw [List.map_cons, List.nodup_cons] at nodup
    rcases List.mem_cons.mp h with rfl | htail
    · simp
    · have hne : v.1 ≠ w.1 := fun heq => nodup.1 (heq ▸ List.mem_map_of_mem htail)
      rw [List.find?_cons_of_neg (by simpa using hne)]
      exact ih nodup.2 htail

theorem decode_encode {n : Nat} {bytes : List UInt8} (h : tags.encode n = some bytes)
    (rest : List UInt8) : tags.decode (bytes ++ rest) = some (n, rest) := by
  rw [encode] at h
  split_ifs at h with hsmall
  · obtain rfl := Option.some.inj h
    have hfits := tags.fits
    have hmarker : (UInt8.ofNat (tags.base + n)).toNat = tags.base + n := by
      rw [UInt8.toNat_ofNat']
      exact Nat.mod_eq_of_lt (by omega)
    rw [List.singleton_append, decode, hmarker, if_pos (by omega), Nat.add_sub_cancel_left]
  · obtain ⟨w, hfind, rfl⟩ := Option.map_eq_some_iff.mp h
    have hmem : w ∈ tags.wide := List.mem_of_find?_eq_some hfind
    have hlt : n < 256 ^ w.2 := by simpa using List.find?_some hfind
    rw [List.cons_append, decode, if_neg (tags.disjoint w hmem), find_marker tags.nodup hmem,
      Option.bind_some, takeBe_beBytes hlt]

theorem encode_length {n : Nat} {bytes : List UInt8} (h : tags.encode n = some bytes) :
    bytes.length = tags.size n := by
  rw [encode] at h
  rw [size]
  split_ifs at h ⊢ with hsmall
  · obtain rfl := Option.some.inj h
    rfl
  · obtain ⟨w, hfind, rfl⟩ := Option.map_eq_some_iff.mp h
    rw [hfind, List.length_cons, beBytes_length, Nat.add_comm]

theorem encode_isSome {n : Nat} (h : ∃ w ∈ tags.wide, n < 256 ^ w.2) : (tags.encode n).isSome := by
  rw [encode]
  split_ifs
  · rfl
  · rw [Option.isSome_map, List.find?_isSome]
    obtain ⟨w, hw, hlt⟩ := h
    exact ⟨w, hw, by simpa using hlt⟩

theorem size_le (width : Nat) (h : ∀ w ∈ tags.wide, w.2 ≤ width) (n : Nat) :
    tags.size n ≤ 1 + width := by
  rw [size]
  split_ifs
  · omega
  · cases hfind : tags.wide.find? fun w => n < 256 ^ w.2 with
    | none => exact Nat.zero_le _
    | some w =>
      have hw := h w (List.mem_of_find?_eq_some hfind)
      change 1 + w.2 ≤ 1 + width
      omega

def format : Format Nat where
  encode := tags.encode
  decode := tags.decode
  size := tags.size
  decode_encode := tags.decode_encode
  encode_length := tags.encode_length

end Tags

def uintTags : Tags where
  base := 0
  limit := 128
  wide := [(0xcc, 1), (0xcd, 2), (0xce, 4), (0xcf, 8)]
  fits := by decide
  disjoint := by decide
  nodup := by decide

def strTags : Tags where
  base := 0xa0
  limit := 32
  wide := [(0xd9, 1), (0xda, 2), (0xdb, 4)]
  fits := by decide
  disjoint := by decide
  nodup := by decide

def arrayTags : Tags where
  base := 0x90
  limit := 16
  wide := [(0xdc, 2), (0xdd, 4)]
  fits := by decide
  disjoint := by decide
  nodup := by decide

/-- The markers of negative numbers below -32 and the widths of their two's complement. -/
def negWide : List (UInt8 × Nat) := [(0xd0, 1), (0xd1, 2), (0xd2, 4), (0xd3, 8)]

def twosComplement (width : Nat) (i : Int) : Nat := (256 ^ width + i).toNat

def signed (width n : Nat) : Int := if 2 * n < 256 ^ width then n else n - 256 ^ width

theorem signed_twosComplement {width : Nat} {i : Int} (hneg : i < 0)
    (h : -(256 ^ width : Int) ≤ 2 * i) : signed width (twosComplement width i) = i := by
  have hn : (twosComplement width i : Int) = 256 ^ width + i :=
    Int.toNat_of_nonneg (by omega)
  have hbig : ¬ 2 * twosComplement width i < 256 ^ width := by
    intro hlt
    have : (2 * twosComplement width i : Int) < 256 ^ width := by exact_mod_cast hlt
    omega
  rw [signed, if_neg hbig, hn]
  omega

def encodeInt (i : Int) : Option (List UInt8) :=
  if 0 ≤ i then uintTags.encode i.toNat
  else if -32 ≤ i then some [UInt8.ofNat (twosComplement 1 i)]
  else (negWide.find? fun w => -(256 ^ w.2 : Int) ≤ 2 * i).map fun w =>
    w.1 :: beBytes w.2 (twosComplement w.2 i)

def decodeInt : List UInt8 → Option (Int × List UInt8)
  | [] => none
  | marker :: rest =>
    if 0xe0 ≤ marker.toNat then some (signed 1 marker.toNat, rest)
    else match negWide.find? fun w => w.1 = marker with
      | some w => (takeBe w.2 rest).map fun r => (signed w.2 r.1, r.2)
      | none => (uintTags.decode (marker :: rest)).map fun r => ((r.1 : Int), r.2)

def intSize (i : Int) : Nat :=
  if 0 ≤ i then uintTags.size i.toNat
  else if -32 ≤ i then 1
  else match negWide.find? fun w => -(256 ^ w.2 : Int) ≤ 2 * i with
    | some w => 1 + w.2
    | none => 0

/-- An unsigned number is not taken for a negative one. -/
theorem uintTags_marker {n : Nat} {bytes : List UInt8} (h : uintTags.encode n = some bytes) :
    ∃ marker rest, bytes = marker :: rest ∧ marker.toNat < 0xe0 ∧
      negWide.find? (fun w => w.1 = marker) = none := by
  rw [Tags.encode] at h
  split_ifs at h with hsmall
  · have hn : n < 128 := hsmall
    have hmarker : (UInt8.ofNat (0 + n)).toNat = n := by
      rw [UInt8.toNat_ofNat']
      omega
    refine ⟨UInt8.ofNat (0 + n), [], (Option.some.inj h).symm, by omega, ?_⟩
    apply List.find?_eq_none.mpr
    intro w hw heq
    have hlarge : ∀ v ∈ negWide, 128 ≤ v.1.toNat := by decide
    have hw128 := hlarge w hw
    rw [of_decide_eq_true heq, hmarker] at hw128
    omega
  · obtain ⟨w, hfind, rfl⟩ := Option.map_eq_some_iff.mp h
    have hmarkers : ∀ v ∈ uintTags.wide,
        v.1.toNat < 0xe0 ∧ negWide.find? (fun u => u.1 = v.1) = none := by decide
    exact ⟨w.1, _, rfl, hmarkers w (List.mem_of_find?_eq_some hfind)⟩

theorem decodeInt_encodeInt {i : Int} {bytes : List UInt8} (h : encodeInt i = some bytes)
    (rest : List UInt8) : decodeInt (bytes ++ rest) = some (i, rest) := by
  rw [encodeInt] at h
  split_ifs at h with hnonneg hsmall
  · obtain ⟨marker, tail, rfl, hlt, hnone⟩ := uintTags_marker h
    have hdecode := uintTags.decode_encode h rest
    rw [List.cons_append] at hdecode ⊢
    rw [decodeInt, if_neg (by omega), hnone]
    simp only [hdecode, Option.map_some, Int.toNat_of_nonneg hnonneg]
  · obtain rfl := Option.some.inj h
    have hvalue : (twosComplement 1 i : Int) = 256 + i := Int.toNat_of_nonneg (by omega)
    have hmarker : (UInt8.ofNat (twosComplement 1 i)).toNat = twosComplement 1 i := by
      rw [UInt8.toNat_ofNat']
      omega
    have hsigned : signed 1 (twosComplement 1 i) = i :=
      signed_twosComplement (by omega) (by omega)
    rw [List.singleton_append, decodeInt, hmarker, if_pos (by omega), hsigned]
  · obtain ⟨w, hfind, rfl⟩ := Option.map_eq_some_iff.mp h
    have hmem : w ∈ negWide := List.mem_of_find?_eq_some hfind
    have hrange : -(256 ^ w.2 : Int) ≤ 2 * i := by simpa using List.find?_some hfind
    have hvalue : (twosComplement w.2 i : Int) = 256 ^ w.2 + i := Int.toNat_of_nonneg (by omega)
    have hlt : twosComplement w.2 i < 256 ^ w.2 := by
      have : (twosComplement w.2 i : Int) < 256 ^ w.2 := by omega
      exact_mod_cast this
    have hmarkers : ∀ v ∈ negWide, ¬ 0xe0 ≤ v.1.toNat := by decide
    rw [List.cons_append, decodeInt, if_neg (hmarkers w hmem), Tags.find_marker (by decide) hmem]
    simp only [takeBe_beBytes hlt, Option.map_some,
      signed_twosComplement (by omega : i < 0) hrange]

theorem encodeInt_length {i : Int} {bytes : List UInt8} (h : encodeInt i = some bytes) :
    bytes.length = intSize i := by
  rw [encodeInt] at h
  rw [intSize]
  split_ifs at h ⊢ with hnonneg hsmall
  · exact uintTags.encode_length h
  · obtain rfl := Option.some.inj h
    rfl
  · obtain ⟨w, hfind, rfl⟩ := Option.map_eq_some_iff.mp h
    rw [hfind, List.length_cons, beBytes_length, Nat.add_comm]

theorem encodeInt_isSome {i : Int} (hlow : -2 ^ 63 ≤ i) (hhigh : i < 2 ^ 63) :
    (encodeInt i).isSome := by
  rw [encodeInt]
  split_ifs
  · exact uintTags.encode_isSome ⟨(0xcf, 8), by decide, by change i.toNat < 256 ^ 8; omega⟩
  · rfl
  · rw [Option.isSome_map, List.find?_isSome]
    exact ⟨(0xd3, 8), by decide, decide_eq_true (by change -(256 ^ 8 : Int) ≤ 2 * i; omega)⟩

theorem intSize_le (i : Int) : intSize i ≤ 9 := by
  rw [intSize]
  split_ifs
  · exact uintTags.size_le 8 (by decide) _
  · decide
  · cases hfind : negWide.find? fun w => -(256 ^ w.2 : Int) ≤ 2 * i with
    | none => exact Nat.zero_le _
    | some w =>
      have hwide : ∀ v ∈ negWide, v.2 ≤ 8 := by decide
      have hw := hwide w (List.mem_of_find?_eq_some hfind)
      change 1 + w.2 ≤ 9
      omega

def int : Format Int where
  encode := encodeInt
  decode := decodeInt
  size := intSize
  decode_encode := decodeInt_encodeInt
  encode_length := encodeInt_length

def uint8 : Format UInt8 :=
  uintTags.format.via UInt8.toNat (fun n => if n < 2 ^ 8 then some (UInt8.ofNat n) else none)
    fun b => by simp [b.toNat_lt]

def uint16 : Format UInt16 :=
  uintTags.format.via UInt16.toNat (fun n => if n < 2 ^ 16 then some (UInt16.ofNat n) else none)
    fun b => by simp [b.toNat_lt]

def uint64 : Format UInt64 :=
  uintTags.format.via UInt64.toNat (fun n => if n < 2 ^ 64 then some (UInt64.ofNat n) else none)
    fun b => by simp [b.toNat_lt]

def int64 : Format Int64 :=
  int.via Int64.toInt
    (fun i => if -2 ^ 63 ≤ i ∧ i < 2 ^ 63 then some (Int64.ofInt i) else none)
    fun b => by rw [if_pos ⟨b.le_toInt, b.toInt_lt⟩, Int64.ofInt_toInt]

def string : Format String :=
  (Format.list strTags.format Format.byte).via (fun s => s.toUTF8.data.toList)
    (fun bytes => String.fromUTF8? ⟨bytes.toArray⟩)
    fun s => dif_pos s.isValidUTF8

/-- A list that is written as an array of its elements. -/
def seq {α : Type} (fmt : Format α) : Format (List α) := Format.list arrayTags.format fmt

/-- An array whose length is fixed by the type. -/
def tuple {α : Type} (arity : Nat) (fmt : Format α) : Format α :=
  Format.after arrayTags.format arity fmt

end SixGrok.Framework.MessagePack
