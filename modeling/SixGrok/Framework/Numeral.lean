import Mathlib.Data.List.DropRight
import Mathlib.Data.Nat.Digits.Defs
import Mathlib.Tactic.IntervalCases
import Mathlib.Tactic.Ring

namespace SixGrok.Framework

section Trim

variable {α : Type} (blank : α → Bool)

/-- `str::trim`, for any notion of white space. -/
def trim (text : List α) : List α := (text.dropWhile blank).rdropWhile blank

/-- What is trimmed off is blank, and what stays has no blank end. -/
theorem trim_split (text : List α) :
    ∃ lead trail, text = lead ++ trim blank text ++ trail ∧ (∀ a ∈ lead, blank a) ∧
      ∀ a ∈ trail, blank a := by
  refine ⟨text.takeWhile blank, (text.dropWhile blank).rtakeWhile blank, ?_, ?_, ?_⟩
  · rw [trim, List.append_assoc, List.rdropWhile_append_rtakeWhile, List.takeWhile_append_dropWhile]
  · intro a ha
    exact List.mem_takeWhile_imp ha
  · intro a ha
    exact List.mem_rtakeWhile_imp ha

variable {blank}

theorem trim_blank {text : List α} (h : ∀ a ∈ text, blank a) : trim blank text = [] := by
  rw [trim, List.dropWhile_eq_nil_iff.mpr h, List.rdropWhile_nil]

theorem dropWhile_blank_append {lead : List α} (h : ∀ a ∈ lead, blank a) (text : List α) :
    (lead ++ text).dropWhile blank = text.dropWhile blank := by
  rw [List.dropWhile_append, List.dropWhile_eq_nil_iff.mpr h]
  rfl

theorem rdropWhile_dark_append {text : List α} (dark : ∀ a ∈ text, ¬ blank a) (rest : List α) :
    (text ++ rest).rdropWhile blank = text ++ rest.rdropWhile blank := by
  induction rest using List.reverseRecOn with
  | nil =>
    rw [List.append_nil, List.rdropWhile_nil, List.append_nil]
    exact List.rdropWhile_eq_self_iff.mpr fun hne => dark _ (List.getLast_mem hne)
  | append_singleton rest a ih =>
    rw [← List.append_assoc]
    by_cases ha : blank a
    · rw [List.rdropWhile_concat_pos _ _ _ ha, List.rdropWhile_concat_pos _ _ _ ha, ih]
    · rw [List.rdropWhile_concat_neg _ _ _ ha, List.rdropWhile_concat_neg _ _ _ ha,
        List.append_assoc]

/-- Characters that are not blank stay, behind blanks and whatever stands behind them. -/
theorem trim_dark {lead text : List α} (h : ∀ a ∈ lead, blank a) (dark : ∀ a ∈ text, ¬ blank a)
    (hne : text ≠ []) (rest : List α) :
    trim blank (lead ++ text ++ rest) = text ++ rest.rdropWhile blank := by
  obtain ⟨a, tail, rfl⟩ := List.exists_cons_of_ne_nil hne
  rw [trim, List.append_assoc, dropWhile_blank_append h, List.cons_append,
    List.dropWhile_cons_of_neg (dark a (List.mem_cons_self ..)), ← List.cons_append,
    rdropWhile_dark_append dark]

end Trim

inductive NumeralError where
  | empty
  | invalidDigit
  | tooLarge
  deriving DecidableEq, Repr

/-- `char::to_digit`. -/
def digitOf (radix : Nat) (c : Char) : Option Nat :=
  let digit :=
    if '0' ≤ c ∧ c ≤ '9' then some (c.toNat - 48)
    else if 'a' ≤ c ∧ c ≤ 'z' then some (c.toNat - 87)
    else if 'A' ≤ c ∧ c ≤ 'Z' then some (c.toNat - 55)
    else none
  digit.filter (· < radix)

section Digits

variable (radix bound : Nat)

/-- The digits from the left on; the value must stay below the bound. -/
def fromDigits : Nat → List Char → Except NumeralError Nat
  | value, [] => .ok value
  | value, c :: text =>
    match digitOf radix c with
    | none => .error .invalidDigit
    | some digit =>
      if value * radix + digit < bound then fromDigits (value * radix + digit) text
      else .error .tooLarge

/-- `from_str_radix` of an unsigned integer. -/
def fromStrRadix : List Char → Except NumeralError Nat
  | [] => .error .empty
  | ['+'] => .error .invalidDigit
  | '+' :: text => fromDigits radix bound 0 text
  | text => fromDigits radix bound 0 text

/-- The text is digits of the radix, and this is their value by place. -/
def Digits (text : List Char) (value : Nat) : Prop :=
  ∃ digits : List Nat,
    text.map (digitOf radix) = digits.map some ∧ Nat.ofDigits radix digits.reverse = value

/-- What `from_str_radix` takes for a number. -/
def Numeral (text : List Char) (value : Nat) : Prop :=
  ∃ sign digits, text = sign ++ digits ∧ (sign = [] ∨ sign = ['+']) ∧ digits ≠ [] ∧
    Digits radix digits value

/-- Digits that come to the bound or beyond, with anything behind them. -/
def Exceeds (text : List Char) : Prop :=
  ∃ sign digits rest value, text = sign ++ digits ++ rest ∧ (sign = [] ∨ sign = ['+']) ∧
    Digits radix digits value ∧ bound ≤ value

variable {radix bound}

theorem digits_nil : Digits radix [] 0 := ⟨[], rfl, rfl⟩

theorem digits_nil_iff {value : Nat} : Digits radix [] value ↔ value = 0 := by
  constructor
  · rintro ⟨digits, hdigits, rfl⟩
    rw [List.map_eq_nil_iff.mp hdigits.symm]
    rfl
  · rintro rfl
    exact digits_nil

theorem digits_cons_iff {c : Char} {text : List Char} {value : Nat} :
    Digits radix (c :: text) value ↔
      ∃ digit rest, digitOf radix c = some digit ∧ Digits radix text rest ∧
        value = digit * radix ^ text.length + rest := by
  have hlength {digits : List Nat} (h : text.map (digitOf radix) = digits.map some) :
      digits.length = text.length := by
    simpa using (congrArg List.length h).symm
  constructor
  · rintro ⟨digits, hdigits, rfl⟩
    cases digits with
    | nil => cases hdigits
    | cons digit digits =>
      obtain ⟨hdigit, hrest⟩ := List.cons.inj hdigits
      refine ⟨digit, _, hdigit, ⟨digits, hrest, rfl⟩, ?_⟩
      rw [Nat.ofDigits_reverse_cons, hlength hrest]
      ring
  · rintro ⟨digit, rest, hdigit, ⟨digits, hrest, rfl⟩, rfl⟩
    refine ⟨digit :: digits, ?_, ?_⟩
    · rw [List.map_cons, List.map_cons, hdigit, hrest]
    · rw [Nat.ofDigits_reverse_cons, hlength hrest]
      ring

theorem digits_cons_none {c : Char} (hdigit : digitOf radix c = none) (text : List Char)
    (value : Nat) : ¬ Digits radix (c :: text) value := by
  intro h
  obtain ⟨digit, -, hsome, -⟩ := digits_cons_iff.mp h
  rw [hdigit] at hsome
  cases hsome

theorem digits_cons_some {c : Char} {digit : Nat} (hdigit : digitOf radix c = some digit)
    {text : List Char} {value : Nat} : Digits radix (c :: text) value ↔
      ∃ rest, Digits radix text rest ∧ value = digit * radix ^ text.length + rest := by
  simp only [digits_cons_iff, hdigit, Option.some.injEq, existsAndEq, true_and]

theorem Digits.isSome {text : List Char} {value : Nat} (h : Digits radix text value) :
    ∀ c ∈ text, (digitOf radix c).isSome := by
  obtain ⟨digits, hdigits, -⟩ := h
  intro c hc
  have hmem : digitOf radix c ∈ digits.map some := hdigits ▸ List.mem_map_of_mem hc
  obtain ⟨digit, -, hdigit⟩ := List.mem_map.mp hmem
  rw [← hdigit]
  rfl

theorem digitOf_plus : digitOf radix '+' = none := rfl

theorem place_value (value digit rest n : Nat) :
    value * radix ^ (n + 1) + (digit * radix ^ n + rest) =
      (value * radix + digit) * radix ^ n + rest := by
  ring

theorem fromDigits_ok_iff (hradix : 0 < radix) {text : List Char} {start n : Nat}
    (hstart : start < bound) :
    fromDigits radix bound start text = .ok n ↔
      n < bound ∧ ∃ value, Digits radix text value ∧ n = start * radix ^ text.length + value := by
  induction text generalizing start with
  | nil =>
    rw [fromDigits]
    constructor
    · rintro ⟨⟩
      exact ⟨hstart, 0, digits_nil, by simp⟩
    · rintro ⟨-, value, hvalue, rfl⟩
      rw [digits_nil_iff.mp hvalue]
      simp
  | cons c text ih =>
    rw [fromDigits]
    cases hdigit : digitOf radix c with
    | none =>
      constructor
      · intro h
        cases h
      · rintro ⟨-, value, hvalue, -⟩
        cases digits_cons_none hdigit text value hvalue
    | some digit =>
      dsimp only
      by_cases hnext : start * radix + digit < bound
      · rw [if_pos hnext, ih hnext]
        refine and_congr_right fun _ => ⟨?_, ?_⟩
        · rintro ⟨rest, hrest, rfl⟩
          exact ⟨_, (digits_cons_some hdigit).mpr ⟨rest, hrest, rfl⟩, (place_value ..).symm⟩
        · rintro ⟨value, hvalue, rfl⟩
          obtain ⟨rest, hrest, rfl⟩ := (digits_cons_some hdigit).mp hvalue
          exact ⟨rest, hrest, place_value ..⟩
      · -- more digits only make the value larger
        rw [if_neg hnext]
        constructor
        · intro h
          cases h
        · rintro ⟨hlt, value, hvalue, rfl⟩
          obtain ⟨rest, -, rfl⟩ := (digits_cons_some hdigit).mp hvalue
          rw [List.length_cons, place_value] at hlt
          have hpow := Nat.le_mul_of_pos_right (start * radix + digit)
            (Nat.pow_pos hradix (n := text.length))
          omega

/-- A value is too large as soon as the first digits reach the bound, whatever follows. -/
theorem fromDigits_tooLarge_iff {text : List Char} {start : Nat} (hstart : start < bound) :
    fromDigits radix bound start text = .error .tooLarge ↔
      ∃ first rest value, text = first ++ rest ∧ Digits radix first value ∧
        bound ≤ start * radix ^ first.length + value := by
  have hnone {start : Nat} (hstart : start < bound) {value : Nat} (hvalue : Digits radix [] value) :
      ¬ bound ≤ start * radix ^ ([] : List Char).length + value := by
    rw [digits_nil_iff.mp hvalue]
    simpa using hstart
  induction text generalizing start with
  | nil =>
    constructor
    · intro h
      cases h
    · rintro ⟨first, rest, value, htext, hvalue, hle⟩
      obtain ⟨rfl, -⟩ := List.nil_eq_append_iff.mp htext
      cases hnone hstart hvalue hle
  | cons c text ih =>
    rw [fromDigits]
    cases hdigit : digitOf radix c with
    | none =>
      constructor
      · intro h
        cases h
      · rintro ⟨first, rest, value, htext, hvalue, hle⟩
        cases first with
        | nil => cases hnone hstart hvalue hle
        | cons c' first =>
          obtain ⟨rfl, -⟩ := List.cons.inj htext
          cases digits_cons_none hdigit first value hvalue
    | some digit =>
      dsimp only
      by_cases hnext : start * radix + digit < bound
      · rw [if_pos hnext]
        refine (ih hnext).trans ⟨?_, ?_⟩
        · rintro ⟨first, rest, value, rfl, hvalue, hle⟩
          refine ⟨c :: first, rest, _, rfl, (digits_cons_some hdigit).mpr ⟨value, hvalue, rfl⟩, ?_⟩
          rwa [List.length_cons, place_value]
        · rintro ⟨first, rest, value, htext, hvalue, hle⟩
          cases first with
          | nil => cases hnone hstart hvalue hle
          | cons c' first =>
            obtain ⟨rfl, rfl⟩ := List.cons.inj htext
            obtain ⟨more, hmore, rfl⟩ := (digits_cons_some hdigit).mp hvalue
            rw [List.length_cons, place_value] at hle
            exact ⟨first, rest, more, rfl, hmore, hle⟩
      · rw [if_neg hnext]
        refine iff_of_true rfl ⟨[c], text, digit, rfl, ?_, ?_⟩
        · exact (digits_cons_some hdigit).mpr ⟨0, digits_nil, by simp⟩
        · simpa using hnext

theorem fromDigits_ne_empty (start : Nat) (text : List Char) :
    fromDigits radix bound start text ≠ .error .empty := by
  fun_induction fromDigits radix bound start text with
  | case1 => nofun
  | case2 => nofun
  | case3 _ _ _ _ _ _ ih => exact ih
  | case4 => nofun

/-- A sign is taken off before the digits are read; it has to have some behind it. -/
theorem fromStrRadix_sign (text : List Char) (hne : text ≠ []) :
    fromStrRadix radix bound ('+' :: text) = fromDigits radix bound 0 text := by
  cases text with
  | nil => cases hne rfl
  | cons c text => rfl

theorem fromStrRadix_unsigned {text : List Char} (hne : text ≠ []) (hsign : text.head? ≠ some '+') :
    fromStrRadix radix bound text = fromDigits radix bound 0 text := by
  cases text with
  | nil => cases hne rfl
  | cons c text =>
    have hc : c ≠ '+' := by simpa using hsign
    rw [fromStrRadix]
    all_goals simp [hc]

theorem not_digits_plus (text : List Char) (value : Nat) : ¬ Digits radix ('+' :: text) value :=
  digits_cons_none digitOf_plus text value

theorem numeral_sign {text : List Char} {value : Nat} :
    Numeral radix ('+' :: text) value ↔ text ≠ [] ∧ Digits radix text value := by
  constructor
  · rintro ⟨sign, digits, htext, rfl | rfl, hne, hdigits⟩
    · rw [List.nil_append] at htext
      cases not_digits_plus text value (htext ▸ hdigits)
    · obtain rfl := List.tail_eq_of_cons_eq htext
      exact ⟨hne, hdigits⟩
  · rintro ⟨hne, hdigits⟩
    exact ⟨['+'], text, rfl, .inr rfl, hne, hdigits⟩

theorem numeral_unsigned {text : List Char} {value : Nat} (hne : text ≠ [])
    (hsign : text.head? ≠ some '+') : Numeral radix text value ↔ Digits radix text value := by
  constructor
  · rintro ⟨sign, digits, rfl, rfl | rfl, -, hdigits⟩
    · exact hdigits
    · cases hsign rfl
  · intro hdigits
    exact ⟨[], text, rfl, .inl rfl, hne, hdigits⟩

theorem fromStrRadix_ok_iff (hradix : 0 < radix) (hbound : 0 < bound) {text : List Char} {n : Nat} :
    fromStrRadix radix bound text = .ok n ↔ n < bound ∧ Numeral radix text n := by
  have hdigits (digits : List Char) : fromDigits radix bound 0 digits = .ok n ↔
      n < bound ∧ Digits radix digits n := by
    rw [fromDigits_ok_iff hradix hbound]
    simp
  by_cases hne : text = []
  · subst hne
    refine iff_of_false nofun ?_
    rintro ⟨-, sign, digits, htext, -, hdigits, -⟩
    exact hdigits (List.append_eq_nil_iff.mp htext.symm).2
  by_cases hsign : text.head? = some '+'
  · obtain ⟨rest, rfl⟩ := List.head?_eq_some_iff.mp hsign
    rw [numeral_sign]
    by_cases hrest : rest = []
    · subst hrest
      exact iff_of_false nofun fun h => h.2.1 rfl
    · rw [fromStrRadix_sign rest hrest, hdigits]
      simp [hrest]
  · rw [fromStrRadix_unsigned hne hsign, numeral_unsigned hne hsign, hdigits]

theorem Digits.ne_nil {text : List Char} {value : Nat} (h : Digits radix text value)
    (hvalue : 0 < value) : text ≠ [] := by
  rintro rfl
  have hzero := digits_nil_iff.mp h
  omega

theorem exceeds_sign (hbound : 0 < bound) {text : List Char} :
    Exceeds radix bound ('+' :: text) ↔
      ∃ first rest value, text = first ++ rest ∧ Digits radix first value ∧ bound ≤ value := by
  constructor
  · rintro ⟨sign, first, rest, value, htext, rfl | rfl, hvalue, hle⟩
    · -- without the sign the first digit would be a plus
      obtain ⟨c, first, rfl⟩ := List.exists_cons_of_ne_nil (hvalue.ne_nil (by omega))
      obtain ⟨rfl, -⟩ := List.cons.inj htext
      cases not_digits_plus first value hvalue
    · exact ⟨first, rest, value, List.tail_eq_of_cons_eq htext, hvalue, hle⟩
  · rintro ⟨first, rest, value, rfl, hvalue, hle⟩
    exact ⟨['+'], first, rest, value, rfl, .inr rfl, hvalue, hle⟩

theorem exceeds_unsigned {text : List Char} (hsign : text.head? ≠ some '+') :
    Exceeds radix bound text ↔
      ∃ first rest value, text = first ++ rest ∧ Digits radix first value ∧ bound ≤ value := by
  constructor
  · rintro ⟨sign, first, rest, value, rfl, rfl | rfl, hvalue, hle⟩
    · exact ⟨first, rest, value, rfl, hvalue, hle⟩
    · cases hsign rfl
  · rintro ⟨first, rest, value, rfl, hvalue, hle⟩
    exact ⟨[], first, rest, value, rfl, .inl rfl, hvalue, hle⟩

theorem fromStrRadix_tooLarge_iff (hbound : 0 < bound) {text : List Char} :
    fromStrRadix radix bound text = .error .tooLarge ↔ Exceeds radix bound text := by
  have hdigits (digits : List Char) : fromDigits radix bound 0 digits = .error .tooLarge ↔
      ∃ first rest value, digits = first ++ rest ∧ Digits radix first value ∧ bound ≤ value := by
    rw [fromDigits_tooLarge_iff hbound]
    simp
  by_cases hne : text = []
  · subst hne
    have hsign : ([] : List Char).head? ≠ some '+' := by simp
    rw [exceeds_unsigned hsign, ← hdigits]
    exact iff_of_false nofun nofun
  by_cases hsign : text.head? = some '+'
  · obtain ⟨tail, rfl⟩ := List.head?_eq_some_iff.mp hsign
    rw [exceeds_sign hbound, ← hdigits]
    by_cases htail : tail = []
    · subst htail
      exact iff_of_false nofun nofun
    · rw [fromStrRadix_sign tail htail]
  · rw [fromStrRadix_unsigned hne hsign, exceeds_unsigned hsign, hdigits]

theorem fromStrRadix_empty_iff {text : List Char} :
    fromStrRadix radix bound text = .error .empty ↔ text = [] := by
  constructor
  · intro h
    by_contra hne
    by_cases hsign : text.head? = some '+'
    · obtain ⟨tail, rfl⟩ := List.head?_eq_some_iff.mp hsign
      by_cases htail : tail = []
      · subst htail
        cases h
      · rw [fromStrRadix_sign tail htail] at h
        exact fromDigits_ne_empty 0 tail h
    · rw [fromStrRadix_unsigned hne hsign] at h
      exact fromDigits_ne_empty 0 text h
  · rintro rfl
    rfl

end Digits

section Printing

variable {radix : Nat}

theorem digitOf_digitChar {digit : Nat} (hdigit : digit < radix) (hradix : radix ≤ 16) :
    digitOf radix (Nat.digitChar digit) = some digit := by
  have hlt : digit < 16 := by omega
  have hfilter : (some digit).filter (· < radix) = some digit := by simpa using hdigit
  rw [← hfilter]
  clear hfilter
  interval_cases digit
  all_goals rfl

theorem Digits.append {first second : List Char} {value value' : Nat} (h : Digits radix first value)
    (h' : Digits radix second value') :
    Digits radix (first ++ second) (value * radix ^ second.length + value') := by
  induction first generalizing value with
  | nil =>
    rw [digits_nil_iff.mp h]
    simpa using h'
  | cons c first ih =>
    obtain ⟨digit, rest, hdigit, hrest, rfl⟩ := digits_cons_iff.mp h
    refine digits_cons_iff.mpr ⟨digit, _, hdigit, ih hrest, ?_⟩
    change _ = digit * radix ^ (first ++ second).length + _
    rw [List.length_append, pow_add]
    ring

theorem digits_toDigits (one_lt : 1 < radix) (hradix : radix ≤ 16) (n : Nat) :
    Digits radix (Nat.toDigits radix n) n := by
  have hsingle {digit : Nat} (hdigit : digit < radix) : Digits radix [Nat.digitChar digit] digit :=
    digits_cons_iff.mpr ⟨digit, 0, digitOf_digitChar hdigit hradix, digits_nil, by simp⟩
  induction n using Nat.strongRecOn with
  | _ n ih =>
    by_cases hlt : n < radix
    · rw [Nat.toDigits_of_lt_base hlt]
      exact hsingle hlt
    · have hle : radix ≤ n := by omega
      have hrest := ih (n / radix) (Nat.div_lt_self (by omega) one_lt)
      have happend := hrest.append (hsingle (Nat.mod_lt n (by omega)))
      rw [Nat.toDigits_of_base_le one_lt hle]
      simpa [Nat.div_add_mod'] using happend

/-- Padding with zeros does not change what digits say. -/
theorem Digits.leftpad {text : List Char} {value : Nat} (h : Digits radix text value)
    (hradix : 0 < radix) (width : Nat) : Digits radix (text.leftpad width '0') value := by
  have hzeros (count : Nat) : Digits radix (List.replicate count '0') 0 := by
    induction count with
    | zero => exact digits_nil
    | succ count ih =>
      refine digits_cons_iff.mpr ⟨0, 0, ?_, ih, by simp⟩
      simp [digitOf, Option.filter, hradix]
  have happend := (hzeros (width - text.length)).append h
  rw [Nat.zero_mul, Nat.zero_add] at happend
  exact happend

end Printing

end SixGrok.Framework
