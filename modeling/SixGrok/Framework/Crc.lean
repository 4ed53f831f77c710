import Mathlib.Algebra.Ring.Parity
import Mathlib.Logic.Function.Iterate
import Mathlib.Tactic.Common
import SixGrok.Framework.Bytes

namespace SixGrok.Framework

/-- One bit of a reflected CRC: the remainder moves towards its low end and takes
the polynomial when the bit that leaves it is set. -/
def crcBit {w : Nat} (poly crc : BitVec w) : BitVec w :=
  if crc.getLsbD 0 then (crc >>> 1) ^^^ poly else crc >>> 1

/-- One byte of a reflected CRC, its least significant bit first. -/
def crcByte {w : Nat} (poly crc : BitVec w) (byte : UInt8) : BitVec w :=
  (crcBit poly)^[8] (crc ^^^ byte.toBitVec.setWidth w)

/-- The remainder that a message leaves, starting from a given one. -/
def crcUpdate {w : Nat} (poly crc : BitVec w) (message : List UInt8) : BitVec w :=
  message.foldl (crcByte poly) crc

/-- CRC-16/IBM-SDLC: polynomial x^16+x^12+x^5+1 in reflected form, all ones
before the first byte and complemented after the last. -/
def crc16IbmSdlc (message : List UInt8) : UInt16 :=
  ⟨crcUpdate 0x8408#16 0xffff#16 message ^^^ 0xffff#16⟩

example : crc16IbmSdlc [0x31, 0x32, 0x33, 0x34, 0x35, 0x36, 0x37, 0x38, 0x39] = 0x906e := by
  decide +kernel

section Linear

variable {w : Nat} (poly : BitVec w)

theorem crcBit_xor (a b : BitVec w) : crcBit poly (a ^^^ b) = crcBit poly a ^^^ crcBit poly b := by
  have hcancel : a >>> 1 ^^^ poly ^^^ (b >>> 1 ^^^ poly) = a >>> 1 ^^^ b >>> 1 := by
    rw [BitVec.xor_assoc, BitVec.xor_comm poly, BitVec.xor_assoc, BitVec.xor_self,
      BitVec.xor_zero]
  have hleft : a >>> 1 ^^^ poly ^^^ b >>> 1 = a >>> 1 ^^^ b >>> 1 ^^^ poly := by
    rw [BitVec.xor_assoc, BitVec.xor_comm poly, BitVec.xor_assoc]
  simp only [crcBit, BitVec.getLsbD_xor, BitVec.ushiftRight_xor_distrib]
  cases a.getLsbD 0 <;> cases b.getLsbD 0 <;> simp [hcancel, hleft, BitVec.xor_assoc]

@[simp] theorem crcBit_zero : crcBit poly 0#w = 0#w := by
  simp [crcBit]

@[simp] theorem iterate_crcBit_zero (n : Nat) : (crcBit poly)^[n] 0#w = 0#w :=
  Function.iterate_fixed (crcBit_zero poly) n

/-- A polynomial with its highest term lets no remainder get lost. -/
theorem crcBit_ne_zero {poly : BitVec w} (top : poly.getLsbD (w - 1) = true) {x : BitVec w}
    (h : x ≠ 0#w) : crcBit poly x ≠ 0#w := by
  intro hzero
  rw [crcBit] at hzero
  cases hlow : x.getLsbD 0 with
  | true =>
    rw [hlow, if_pos rfl] at hzero
    have hbit := congrArg (fun y => y.getLsbD (w - 1)) hzero
    have hbeyond : x.getLsbD (1 + (w - 1)) = false := BitVec.getLsbD_of_ge x _ (by omega)
    simp [top, hbeyond] at hbit
  | false =>
    rw [hlow, if_neg (by simp)] at hzero
    apply h
    apply BitVec.eq_of_getLsbD_eq
    intro i _
    cases i with
    | zero => simpa using hlow
    | succ i =>
      have hbit := congrArg (fun y => y.getLsbD i) hzero
      simpa [Nat.add_comm] using hbit

theorem iterate_crcBit_ne_zero {poly : BitVec w} (top : poly.getLsbD (w - 1) = true) (n : Nat)
    {x : BitVec w} (h : x ≠ 0#w) : (crcBit poly)^[n] x ≠ 0#w := by
  induction n with
  | zero => exact h
  | succ n ih =>
    rw [Function.iterate_succ_apply']
    exact crcBit_ne_zero top ih

end Linear

section Bits

variable {w : Nat} (poly : BitVec w)

/-- The remainder that bits leave, one after the other. -/
def crcBits (crc : BitVec w) (bits : List Bool) : BitVec w :=
  bits.foldl (fun crc bit => crcBit poly (crc ^^^ (BitVec.ofBool bit).setWidth w)) crc

/-- The first bits of a word, its least significant bit first. -/
def lowBits (v : BitVec w) (n : Nat) : List Bool := (List.range n).map v.getLsbD

/-- The bits of a message, byte after byte. -/
def bitsOf (message : List UInt8) : List Bool := message.flatMap fun byte => lowBits byte.toBitVec 8

@[simp] theorem bitsOf_cons (byte : UInt8) (message : List UInt8) :
    bitsOf (byte :: message) = lowBits byte.toBitVec 8 ++ bitsOf message := rfl

@[simp] theorem lowBits_length (v : BitVec w) (n : Nat) : (lowBits v n).length = n := by
  simp [lowBits]

theorem crcBits_cons (crc : BitVec w) (bit : Bool) (bits : List Bool) :
    crcBits poly crc (bit :: bits) =
      crcBits poly (crcBit poly (crc ^^^ (BitVec.ofBool bit).setWidth w)) bits := rfl

theorem lowBits_succ (v : BitVec w) (n : Nat) :
    lowBits v (n + 1) = lowBits v n ++ [v.getLsbD n] := by
  simp [lowBits, List.range_succ]

theorem lowBits_xor (a b : BitVec w) (n : Nat) :
    lowBits (a ^^^ b) n = List.zipWith xor (lowBits a n) (lowBits b n) := by
  induction n with
  | zero => rfl
  | succ n ih =>
    rw [lowBits_succ, lowBits_succ, lowBits_succ, ih, List.zipWith_append (by simp)]
    simp

theorem crcBits_append (crc : BitVec w) (bits more : List Bool) :
    crcBits poly crc (bits ++ more) = crcBits poly (crcBits poly crc bits) more :=
  List.foldl_append

theorem zipWith_xor_false (bits : List Bool) :
    List.zipWith xor (List.replicate bits.length false) bits = bits := by
  induction bits with
  | nil => rfl
  | cons bit bits ih => simp [List.replicate_succ, ih]

theorem crcBits_xor (a b : BitVec w) {bits bits' : List Bool} (same : bits.length = bits'.length) :
    crcBits poly (a ^^^ b) (List.zipWith xor bits bits') =
      crcBits poly a bits ^^^ crcBits poly b bits' := by
  induction bits generalizing a b bits' with
  | nil =>
    obtain rfl : bits' = [] := List.length_eq_zero_iff.mp same.symm
    rfl
  | cons bit bits ih =>
    cases bits' with
    | nil => cases same
    | cons bit' bits' =>
      have hbit : (BitVec.ofBool (xor bit bit')).setWidth w =
          (BitVec.ofBool bit).setWidth w ^^^ (BitVec.ofBool bit').setWidth w := by
        cases bit <;> cases bit' <;> simp
      have hstep : crcBit poly (a ^^^ b ^^^ (BitVec.ofBool (xor bit bit')).setWidth w) =
          crcBit poly (a ^^^ (BitVec.ofBool bit).setWidth w) ^^^
            crcBit poly (b ^^^ (BitVec.ofBool bit').setWidth w) := by
        rw [← crcBit_xor, hbit]
        congr 1
        ac_rfl
      have hrest := ih (crcBit poly (a ^^^ (BitVec.ofBool bit).setWidth w))
        (crcBit poly (b ^^^ (BitVec.ofBool bit').setWidth w)) (Nat.succ.inj same)
      rw [List.zipWith_cons_cons, crcBits_cons, crcBits_cons, crcBits_cons, hstep, hrest]

theorem crcBits_false (crc : BitVec w) (n : Nat) :
    crcBits poly crc (List.replicate n false) = (crcBit poly)^[n] crc := by
  induction n generalizing crc with
  | zero => rfl
  | succ n ih =>
    rw [List.replicate_succ, crcBits_cons, ih, Function.iterate_succ_apply]
    simp

theorem ofBool_shift (bit : Bool) : (BitVec.ofBool bit).setWidth w >>> 1 = 0#w := by
  apply BitVec.eq_of_getLsbD_eq
  intro i _
  simp

/-- A remainder that is given its own bits takes the polynomial at none of them. -/
theorem crcBits_own (v : BitVec w) (n : Nat) : crcBits poly v (lowBits v n) = v >>> n := by
  induction n with
  | zero => simp [crcBits, lowBits]
  | succ n ih =>
    have hlow : (v >>> n ^^^ (BitVec.ofBool (v.getLsbD n)).setWidth w).getLsbD 0 = false := by
      cases w with
      | zero => simp
      | succ w => simp
    rw [lowBits_succ, crcBits_append, ih, crcBits_cons, crcBit, hlow]
    simp [crcBits, ofBool_shift, BitVec.ushiftRight_xor_distrib, BitVec.shiftRight_add]

/-- Bits that fit into the remainder may be added to it at once. -/
theorem crcBits_lowBits (crc v : BitVec w) (n : Nat) :
    crcBits poly crc (lowBits v n) = (crcBit poly)^[n] (crc ^^^ v) ^^^ v >>> n := by
  have hlists : List.zipWith xor (List.replicate n false) (lowBits v n) = lowBits v n := by
    have hbits := zipWith_xor_false (lowBits v n)
    rwa [lowBits_length] at hbits
  have hcrc : crc ^^^ v ^^^ v = crc := by
    rw [BitVec.xor_assoc, BitVec.xor_self, BitVec.xor_zero]
  have hlength : (List.replicate n false).length = (lowBits v n).length := by simp
  have hxor := crcBits_xor poly (crc ^^^ v) v hlength
  rwa [hlists, hcrc, crcBits_false, crcBits_own] at hxor

/-- A word that fits into the remainder, from its low end on. -/
theorem lowBits_setWidth {m n : Nat} (v : BitVec m) (fits : n ≤ w) :
    lowBits (v.setWidth w) n = lowBits v n := by
  apply List.map_congr_left
  intro i hi
  have hlt := List.mem_range.mp hi
  simp [show i < w by omega]

theorem crcByte_eq_crcBits (fits : 8 ≤ w) (crc : BitVec w) (byte : UInt8) :
    crcByte poly crc byte = crcBits poly crc (lowBits byte.toBitVec 8) := by
  have hgone : byte.toBitVec.setWidth w >>> 8 = 0#w := by
    apply BitVec.eq_of_getLsbD_eq
    intro i _
    simp
  rw [← lowBits_setWidth byte.toBitVec fits, crcBits_lowBits, hgone, BitVec.xor_zero]
  rfl

/-- A message is its bits. -/
theorem crcUpdate_eq_crcBits (fits : 8 ≤ w) (crc : BitVec w) (message : List UInt8) :
    crcUpdate poly crc message = crcBits poly crc (bitsOf message) := by
  induction message generalizing crc with
  | nil => rfl
  | cons byte message ih =>
    have hrest := ih (crcByte poly crc byte)
    rw [crcByte_eq_crcBits poly fits] at hrest
    rw [bitsOf_cons, crcBits_append, crcUpdate, List.foldl_cons, crcByte_eq_crcBits poly fits]
    exact hrest

theorem bitsOf_length (message : List UInt8) : (bitsOf message).length = 8 * message.length := by
  induction message with
  | nil => rfl
  | cons byte message ih =>
    rw [bitsOf_cons, List.length_append, ih, lowBits_length, List.length_cons]
    omega

theorem bitsOf_zipWith_xor {message error : List UInt8} (same : message.length = error.length) :
    bitsOf (List.zipWith (· ^^^ ·) message error) =
      List.zipWith xor (bitsOf message) (bitsOf error) := by
  induction message generalizing error with
  | nil => rfl
  | cons byte message ih =>
    cases error with
    | nil => cases same
    | cons flips error =>
      have hrest := ih (Nat.succ.inj same)
      have hbyte : lowBits (byte ^^^ flips).toBitVec 8 =
          List.zipWith xor (lowBits byte.toBitVec 8) (lowBits flips.toBitVec 8) := by
        rw [UInt8.toBitVec_xor, lowBits_xor]
      rw [List.zipWith_cons_cons, bitsOf_cons, bitsOf_cons, bitsOf_cons, hrest, hbyte,
        List.zipWith_append (by simp)]

/-- What an error does to the remainder does not depend on the message. -/
theorem crcUpdate_xor (fits : 8 ≤ w) (a b : BitVec w) {message error : List UInt8}
    (same : message.length = error.length) :
    crcUpdate poly (a ^^^ b) (List.zipWith (· ^^^ ·) message error) =
      crcUpdate poly a message ^^^ crcUpdate poly b error := by
  have hlength : (bitsOf message).length = (bitsOf error).length := by
    rw [bitsOf_length, bitsOf_length, same]
  rw [crcUpdate_eq_crcBits poly fits, crcUpdate_eq_crcBits poly fits,
    crcUpdate_eq_crcBits poly fits, bitsOf_zipWith_xor same, crcBits_xor poly a b hlength]

end Bits

section Parity

variable {w : Nat} {poly : BitVec w}

/-- Whether an odd number of the bits are set. -/
def parity (bits : List Bool) : Bool := bits.foldr xor false

@[simp] theorem parity_cons (bit : Bool) (bits : List Bool) :
    parity (bit :: bits) = xor bit (parity bits) := rfl

theorem parity_eq (bits : List Bool) : parity bits = decide (Odd (bits.count true)) := by
  induction bits with
  | nil => rfl
  | cons bit bits ih =>
    cases bit with
    | false => simp [ih]
    | true =>
      have hflip := Nat.odd_add_one (n := bits.count true)
      rw [parity_cons, ih, List.count_cons_self, Bool.true_xor, decide_eq_decide.mpr hflip,
        decide_not]

theorem parity_append (bits more : List Bool) :
    parity (bits ++ more) = xor (parity bits) (parity more) := by
  induction bits with
  | nil => simp [parity]
  | cons bit bits ih => simp [ih]

theorem parity_zipWith {bits bits' : List Bool} (same : bits.length = bits'.length) :
    parity (List.zipWith xor bits bits') = xor (parity bits) (parity bits') := by
  induction bits generalizing bits' with
  | nil =>
    obtain rfl : bits' = [] := List.length_eq_zero_iff.mp same.symm
    rfl
  | cons bit bits ih =>
    cases bits' with
    | nil => cases same
    | cons bit' bits' =>
      have hrest := ih (Nat.succ.inj same)
      rw [List.zipWith_cons_cons, parity_cons, parity_cons, parity_cons, hrest]
      cases bit <;> cases bit' <;> simp

def wordParity (v : BitVec w) : Bool := parity (lowBits v w)

theorem wordParity_xor (a b : BitVec w) :
    wordParity (a ^^^ b) = xor (wordParity a) (wordParity b) := by
  rw [wordParity, lowBits_xor, parity_zipWith (by simp)]
  rfl

theorem wordParity_shift (v : BitVec w) :
    xor (v.getLsbD 0) (wordParity (v >>> 1)) = wordParity v := by
  have hmoved : lowBits (v >>> 1) w = (List.range w).map fun i => v.getLsbD (i + 1) := by
    simp [lowBits, Nat.add_comm]
  have hfront : lowBits v (w + 1) = v.getLsbD 0 :: lowBits (v >>> 1) w := by
    rw [hmoved, lowBits, List.range_succ_eq_map, List.map_cons, List.map_map]
    rfl
  have hback : lowBits v (w + 1) = lowBits v w ++ [false] := by
    rw [lowBits_succ, BitVec.getLsbD_of_ge v w (Nat.le_refl w)]
  have hparity := congrArg parity (hfront.symm.trans hback)
  rw [parity_cons, parity_append] at hparity
  exact hparity.trans (Bool.xor_false _)

@[simp] theorem wordParity_zero : wordParity 0#w = false := by
  have hself := wordParity_xor 0#w 0#w
  simpa using hself

theorem wordParity_ofBool (positive : 0 < w) (bit : Bool) :
    wordParity ((BitVec.ofBool bit).setWidth w) = bit := by
  have hshift := wordParity_shift ((BitVec.ofBool bit).setWidth w)
  rw [ofBool_shift, wordParity_zero, Bool.xor_false] at hshift
  rw [← hshift]
  simp [positive]

/-- A polynomial with an odd number of terms below the highest keeps the parity. -/
theorem wordParity_crcBit (odd : wordParity poly = true) (crc : BitVec w) :
    wordParity (crcBit poly crc) = wordParity crc := by
  have hshift := wordParity_shift crc
  rw [crcBit]
  cases hlow : crc.getLsbD 0 with
  | false => simpa [hlow] using hshift
  | true =>
    rw [hlow] at hshift
    rw [if_pos rfl, wordParity_xor, odd, ← hshift, Bool.xor_comm]

theorem crcBits_parity (odd : wordParity poly = true) (crc : BitVec w) (positive : 0 < w)
    (bits : List Bool) :
    wordParity (crcBits poly crc bits) = xor (wordParity crc) (parity bits) := by
  induction bits generalizing crc with
  | nil => exact (Bool.xor_false _).symm
  | cons bit bits ih =>
    rw [crcBits_cons, ih, wordParity_crcBit odd, wordParity_xor, wordParity_ofBool positive,
      parity_cons, Bool.xor_assoc]

end Parity

section Detection

variable {w : Nat} {poly : BitVec w}

/-- Errors of an odd number of bits leave a remainder. -/
theorem crcBits_odd (odd : wordParity poly = true) (positive : 0 < w) {bits : List Bool}
    (flips : Odd (bits.count true)) : crcBits poly 0#w bits ≠ 0#w := by
  intro hzero
  have hparity := crcBits_parity odd 0#w positive bits
  rw [hzero, wordParity_zero, parity_eq, decide_eq_true flips] at hparity
  cases hparity

/-- Bits that fill the remainder leave one, unless none of them is set. -/
theorem crcBits_fitting (top : poly.getLsbD (w - 1) = true) {bits : List Bool}
    (fits : bits.length = w) (nonzero : true ∈ bits) : crcBits poly 0#w bits ≠ 0#w := by
  subst fits
  have hbit (i : Nat) (hi : i < bits.length) :
      (BitVec.ofBoolListLE bits).getLsbD i = bits[i] := by
    rw [BitVec.getLsbD_ofBoolListLE, List.getD_eq_getElem?_getD, List.getElem?_eq_getElem hi]
    rfl
  have hbits : lowBits (BitVec.ofBoolListLE bits) bits.length = bits := by
    apply List.ext_getElem (by simp)
    intro i _ hi
    rw [← hbit i hi]
    simp only [lowBits, List.getElem_map, List.getElem_range]
  have hword : BitVec.ofBoolListLE bits ≠ 0#(bits.length) := by
    intro hzero
    obtain ⟨i, hi, hset⟩ := List.getElem_of_mem nonzero
    rw [← hbit i hi, hzero, BitVec.getLsbD_zero] at hset
    cases hset
  have hremainder := crcBits_lowBits poly 0#(bits.length) (BitVec.ofBoolListLE bits) bits.length
  have hgone : BitVec.ofBoolListLE bits >>> bits.length = 0#(bits.length) :=
    BitVec.ushiftRight_eq_zero (Nat.le_refl _)
  rw [hbits, BitVec.zero_xor, hgone, BitVec.xor_zero] at hremainder
  rw [hremainder]
  exact iterate_crcBit_ne_zero top _ hword

theorem eq_replicate_false {bits : List Bool} (clear : true ∉ bits) :
    bits = List.replicate bits.length false := by
  apply List.eq_replicate_iff.mpr
  refine ⟨rfl, ?_⟩
  intro bit hbit
  cases bit with
  | false => rfl
  | true => exact absurd hbit clear

/-- Errors that lie close together, with zeros behind them, lie in one window between zeros. -/
theorem exists_window {bits : List Bool} {first : Nat} (nonzero : true ∈ bits)
    (burst : ∀ i, bits[i]? = some true → first ≤ i ∧ i < first + w) :
    ∃ before window behind, bits ++ List.replicate (first + w) false =
        List.replicate before false ++ (window ++ List.replicate behind false) ∧
      window.length = w ∧ true ∈ window := by
  obtain ⟨padded, hpadded⟩ : ∃ padded, padded = bits ++ List.replicate (first + w) false :=
    ⟨_, rfl⟩
  have hlength : padded.length = bits.length + (first + w) := by simp [hpadded]
  have hinside (i : Nat) (hi : padded[i]? = some true) : first ≤ i ∧ i < first + w := by
    apply burst
    rw [hpadded, List.getElem?_append] at hi
    split_ifs at hi with hlt
    · exact hi
    · have hmem := List.mem_of_getElem? hi
      simp at hmem
  have hbefore : true ∉ padded.take first := by
    intro hmem
    obtain ⟨i, hi⟩ := List.getElem?_of_mem hmem
    rw [List.getElem?_take] at hi
    split_ifs at hi with hlt
    have hwindow := hinside i hi
    omega
  have hbehind : true ∉ padded.drop (first + w) := by
    intro hmem
    obtain ⟨i, hi⟩ := List.getElem?_of_mem hmem
    rw [List.getElem?_drop] at hi
    have hwindow := hinside _ hi
    omega
  refine ⟨(padded.take first).length, (padded.drop first).take w,
    (padded.drop (first + w)).length, ?_, ?_, ?_⟩
  · rw [← hpadded, ← eq_replicate_false hbefore, ← eq_replicate_false hbehind, ← List.drop_drop,
      List.take_append_drop, List.take_append_drop]
  · rw [List.length_take, List.length_drop]
    omega
  · obtain ⟨i, hi⟩ := List.getElem?_of_mem nonzero
    have hwindow := burst i hi
    have hlt := (List.getElem?_eq_some_iff.mp hi).1
    apply List.mem_of_getElem? (i := i - first)
    rw [List.getElem?_take_of_lt (by omega), List.getElem?_drop, Nat.add_sub_cancel' hwindow.1,
      hpadded, List.getElem?_append_left hlt, hi]

/-- Errors that lie close together leave a remainder, wherever they are. -/
theorem crcBits_burst (top : poly.getLsbD (w - 1) = true) {bits : List Bool} {first : Nat}
    (nonzero : true ∈ bits)
    (burst : ∀ i, bits[i]? = some true → first ≤ i ∧ i < first + w) :
    crcBits poly 0#w bits ≠ 0#w := by
  obtain ⟨before, window, behind, hsplit, hlength, hset⟩ := exists_window nonzero burst
  have hremainder : crcBits poly 0#w window ≠ 0#w := crcBits_fitting top hlength hset
  intro hzero
  have hall := congrArg (crcBits poly 0#w) hsplit
  simp only [crcBits_append, crcBits_false, hzero, iterate_crcBit_zero] at hall
  exact iterate_crcBit_ne_zero top behind hremainder hall.symm

end Detection

section Sdlc

theorem bitsOf_u16ToLe (v : UInt16) : bitsOf (u16ToLe v) = lowBits v.toBitVec 16 := by
  have hlow : lowBits (UInt8.ofNat v.toNat).toBitVec 8 = lowBits v.toBitVec 8 := by
    apply List.map_congr_left
    intro i hi
    have hlt := List.mem_range.mp hi
    change (BitVec.ofNat 8 v.toNat).getLsbD i = v.toNat.testBit i
    rw [BitVec.getLsbD_ofNat, decide_eq_true hlt, Bool.true_and]
  have hhigh : lowBits (UInt8.ofNat (v.toNat / 256)).toBitVec 8 =
      (List.range 8).map fun i => v.toBitVec.getLsbD (8 + i) := by
    apply List.map_congr_left
    intro i hi
    have hlt := List.mem_range.mp hi
    have hshift : (v.toNat / 256).testBit i = v.toNat.testBit (i + 8) :=
      Nat.testBit_div_two_pow (n := 8) v.toNat i
    change (BitVec.ofNat 8 (v.toNat / 256)).getLsbD i = v.toNat.testBit (8 + i)
    rw [BitVec.getLsbD_ofNat, decide_eq_true hlt, Bool.true_and, Nat.add_comm 8]
    exact hshift
  have hword : lowBits v.toBitVec 16 =
      lowBits v.toBitVec 8 ++ (List.range 8).map fun i => v.toBitVec.getLsbD (8 + i) := rfl
  change bitsOf [UInt8.ofNat v.toNat, UInt8.ofNat (v.toNat / 256)] = _
  rw [bitsOf_cons, bitsOf_cons, hlow, hhigh, hword]
  simp [bitsOf]

/-- A message with its checksum behind it leaves the same remainder as any other. -/
theorem crc16_residue (message : List UInt8) :
    crcUpdate 0x8408#16 0xffff#16 (message ++ u16ToLe (crc16IbmSdlc message)) =
      (crcBit 0x8408#16)^[16] 0xffff#16 := by
  generalize hcrc : crcUpdate 0x8408#16 0xffff#16 message = crc
  have hchecksum : (crc16IbmSdlc message).toBitVec = crc ^^^ 0xffff#16 := by
    rw [← hcrc]
    rfl
  have hgone : (crc ^^^ 0xffff#16) >>> 16 = 0#16 := BitVec.ushiftRight_eq_zero (Nat.le_refl _)
  have hleft : crc ^^^ (crc ^^^ 0xffff#16) = 0xffff#16 := by
    rw [← BitVec.xor_assoc, BitVec.xor_self, BitVec.zero_xor]
  rw [crcUpdate, List.foldl_append, ← crcUpdate, ← crcUpdate, hcrc,
    crcUpdate_eq_crcBits _ (by decide), bitsOf_u16ToLe, hchecksum, crcBits_lowBits, hgone, hleft,
    BitVec.xor_zero]

/-- An error that turns a message with its checksum into another leaves no remainder. -/
theorem crc16_undetected {message message' error : List UInt8}
    (same : (message ++ u16ToLe (crc16IbmSdlc message)).length = error.length)
    (undetected : List.zipWith (· ^^^ ·) (message ++ u16ToLe (crc16IbmSdlc message)) error =
      message' ++ u16ToLe (crc16IbmSdlc message')) : crcUpdate 0x8408#16 0#16 error = 0#16 := by
  have hxor := crcUpdate_xor 0x8408#16 (by decide) 0xffff#16 0#16 same
  rw [undetected, BitVec.xor_zero, crc16_residue, crc16_residue] at hxor
  have hcancel := congrArg ((crcBit 0x8408#16)^[16] 0xffff#16 ^^^ ·) hxor
  simpa [← BitVec.xor_assoc] using hcancel.symm

/-- The polynomial tells odd errors and errors within sixteen bits. -/
theorem crc16_detects {error : List UInt8} (nonzero : true ∈ bitsOf error)
    (kind : Odd ((bitsOf error).count true) ∨
      ∃ first, ∀ i, (bitsOf error)[i]? = some true → first ≤ i ∧ i < first + 16) :
    crcUpdate 0x8408#16 0#16 error ≠ 0#16 := by
  rw [crcUpdate_eq_crcBits _ (by decide)]
  rcases kind with hodd | ⟨first, hburst⟩
  · exact crcBits_odd (by decide) (by decide) hodd
  · exact crcBits_burst (by decide) nonzero hburst

end Sdlc

end SixGrok.Framework
