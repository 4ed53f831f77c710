import Mathlib.Data.Nat.ModEq
import Mathlib.Tactic.Ring

namespace SixGrok.Framework

/-- The `width` low bytes of a number, least significant first. -/
def leBytes : Nat → Nat → List UInt8
  | 0, _ => []
  | width + 1, n => UInt8.ofNat n :: leBytes width (n / 256)

/-- The number whose bytes, least significant first, are given. -/
def leValue : List UInt8 → Nat
  | [] => 0
  | b :: bs => b.toNat + 256 * leValue bs

@[simp] theorem leBytes_length (width n : Nat) : (leBytes width n).length = width := by
  induction width generalizing n with
  | zero => rfl
  | succ width ih => simp [leBytes, ih]

theorem leValue_leBytes (width n : Nat) : leValue (leBytes width n) = n % 256 ^ width := by
  induction width generalizing n with
  | zero => simp [leBytes, leValue, Nat.mod_one]
  | succ width ih =>
    rw [leBytes, leValue, ih, UInt8.toNat_ofNat', pow_succ' 256 width, Nat.mod_mul]

theorem leValue_lt (bs : List UInt8) : leValue bs < 256 ^ bs.length := by
  induction bs with
  | nil => simp [leValue]
  | cons b bs ih =>
    have hb : b.toNat < 256 := b.toNat_lt
    rw [leValue, List.length_cons, pow_succ]
    omega

theorem leBytes_leValue (bs : List UInt8) : leBytes bs.length (leValue bs) = bs := by
  induction bs with
  | nil => rfl
  | cons b bs ih =>
    have hb : b.toNat < 256 := b.toNat_lt
    have hlow : UInt8.ofNat (b.toNat + 256 * leValue bs) = b := by
      apply UInt8.toNat_inj.mp
      rw [UInt8.toNat_ofNat']
      omega
    have hhigh : (b.toNat + 256 * leValue bs) / 256 = leValue bs := by omega
    rw [List.length_cons, leValue, leBytes, hlow, hhigh, ih]

/-- `from_le_bytes` of a 16-bit word. -/
def u16FromLe (bs : List UInt8) : UInt16 := UInt16.ofNat (leValue bs)

/-- `to_le_bytes` of a 16-bit word. -/
def u16ToLe (x : UInt16) : List UInt8 := leBytes 2 x.toNat

/-- `to_be_bytes` of a 16-bit word. -/
def u16ToBe (x : UInt16) : List UInt8 := (u16ToLe x).reverse

/-- `from_le_bytes` of a 32-bit word. -/
def u32FromLe (bs : List UInt8) : UInt32 := UInt32.ofNat (leValue bs)

/-- `to_le_bytes` of a 32-bit word. -/
def u32ToLe (x : UInt32) : List UInt8 := leBytes 4 x.toNat

/-- `from_be_bytes` of a 32-bit word. -/
def u32FromBe (bs : List UInt8) : UInt32 := u32FromLe bs.reverse

/-- `to_be_bytes` of a 32-bit word. -/
def u32ToBe (x : UInt32) : List UInt8 := (u32ToLe x).reverse

@[simp] theorem u16ToLe_length (x : UInt16) : (u16ToLe x).length = 2 := leBytes_length 2 _

@[simp] theorem u16ToBe_length (x : UInt16) : (u16ToBe x).length = 2 := by simp [u16ToBe]

@[simp] theorem u32ToLe_length (x : UInt32) : (u32ToLe x).length = 4 := leBytes_length 4 _

@[simp] theorem u32ToBe_length (x : UInt32) : (u32ToBe x).length = 4 := by simp [u32ToBe]

@[simp] theorem u16FromLe_toLe (x : UInt16) : u16FromLe (u16ToLe x) = x := by
  have hx : x.toNat < 256 ^ 2 := x.toNat_lt
  rw [u16FromLe, u16ToLe, leValue_leBytes, Nat.mod_eq_of_lt hx, UInt16.ofNat_toNat]

theorem u16ToLe_fromLe {bs : List UInt8} (h : bs.length = 2) : u16ToLe (u16FromLe bs) = bs := by
  have hlt : leValue bs < 2 ^ 16 := by
    have hbound := leValue_lt bs
    rwa [h] at hbound
  have hvalue : (u16FromLe bs).toNat = leValue bs := UInt16.toNat_ofNat_of_lt' hlt
  have hbytes := leBytes_leValue bs
  rwa [h, ← hvalue] at hbytes

@[simp] theorem u32FromLe_toLe (x : UInt32) : u32FromLe (u32ToLe x) = x := by
  have hx : x.toNat < 256 ^ 4 := x.toNat_lt
  rw [u32FromLe, u32ToLe, leValue_leBytes, Nat.mod_eq_of_lt hx, UInt32.ofNat_toNat]

theorem u32ToLe_fromLe {bs : List UInt8} (h : bs.length = 4) : u32ToLe (u32FromLe bs) = bs := by
  have hlt : leValue bs < 2 ^ 32 := by
    have hbound := leValue_lt bs
    rwa [h] at hbound
  have hvalue : (u32FromLe bs).toNat = leValue bs := UInt32.toNat_ofNat_of_lt' hlt
  have hbytes := leBytes_leValue bs
  rwa [h, ← hvalue] at hbytes

theorem u32ToBe_fromBe {bs : List UInt8} (h : bs.length = 4) : u32ToBe (u32FromBe bs) = bs := by
  rw [u32ToBe, u32FromBe, u32ToLe_fromLe (by rw [List.length_reverse, h]), List.reverse_reverse]

@[simp] theorem u32FromBe_toBe (x : UInt32) : u32FromBe (u32ToBe x) = x := by
  simp [u32FromBe, u32ToBe]

/-- Blocks of one width lie at the multiples of it. -/
theorem take_drop_flatMap {α : Type} (width : Nat) (block : α → List UInt8) (xs : List α)
    (hwidth : ∀ x ∈ xs, (block x).length = width) (i : Nat) (hi : i < xs.length) :
    ((xs.flatMap block).drop (i * width)).take width = block xs[i] := by
  induction xs generalizing i with
  | nil => simp at hi
  | cons x xs ih =>
    have hx : (block x).length = width := hwidth x (List.mem_cons_self ..)
    rw [List.flatMap_cons]
    cases i with
    | zero => simp [← hx]
    | succ i =>
      have hrest := ih (fun y hy => hwidth y (List.mem_cons_of_mem x hy)) i
        (by simpa using hi)
      have hdrop : (block x ++ xs.flatMap block).drop ((i + 1) * width) =
          (xs.flatMap block).drop (i * width) := by
        rw [Nat.succ_mul, Nat.add_comm, ← List.drop_drop, List.drop_left' hx]
      rw [hdrop, hrest]
      rfl

end SixGrok.Framework
