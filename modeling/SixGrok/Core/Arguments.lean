import SixGrok.Framework.Numeral
import SixGrok.Framework.Session

namespace SixGrok.Core

open SixGrok.Framework

/-- The Unicode property White_Space, which `str::trim` goes by. -/
def isWhiteSpace (c : Char) : Bool :=
  c.toNat ∈ [0x20, 0x85, 0xa0, 0x1680, 0x2028, 0x2029, 0x202f, 0x205f, 0x3000] ∨
    (9 ≤ c.toNat ∧ c.toNat ≤ 13) ∨ (0x2000 ≤ c.toNat ∧ c.toNat ≤ 0x200a)

/-- The text of a `ParseIntError`. -/
def parseIntErrorText : NumeralError → String
  | .empty => "cannot parse integer from empty string"
  | .invalidDigit => "invalid digit found in string"
  | .tooLarge => "number too large to fit in target type"

section Parse

variable (bound : Nat)

def parseTrimmed : List Char → Except NumeralError Nat
  | '0' :: 'x' :: hex => fromStrRadix 16 bound hex
  | '0' :: 'X' :: hex => fromStrRadix 16 bound hex
  | value => fromStrRadix 10 bound value

def parseAuto (value : String) : Except NumeralError Nat :=
  parseTrimmed bound (trim isWhiteSpace value.toList)

end Parse

def parseU16Auto (value : String) : Except String UInt16 :=
  ((parseAuto (2 ^ 16) value).map UInt16.ofNat).mapError parseIntErrorText

def parseU32Auto (value : String) : Except String UInt32 :=
  ((parseAuto (2 ^ 32) value).map UInt32.ofNat).mapError parseIntErrorText

section Grammar

/-- What stands before the numerals of a base. -/
inductive Marker : Nat → List Char → Prop where
  | decimal : Marker 10 []
  | lower : Marker 16 ['0', 'x']
  | upper : Marker 16 ['0', 'X']

def Blank (text : List Char) : Prop := ∀ c ∈ text, isWhiteSpace c

/-- A text says a number: a numeral behind the marker of its base, and white space around. -/
def Denotes (text : String) (n : Nat) : Prop :=
  ∃ lead base marker numeral trail, text.toList = lead ++ (marker ++ numeral) ++ trail ∧
    Blank lead ∧ Blank trail ∧ Marker base marker ∧ Numeral base numeral n

/-- A text says a number that is too large, or begins with one. -/
def DenotesBeyond (bound : Nat) (text : String) : Prop :=
  ∃ lead base marker rest, text.toList = lead ++ marker ++ rest ∧
    Blank lead ∧ Marker base marker ∧ Exceeds base bound rest

/-- A marker at most, and white space. -/
def NoNumeral (text : String) : Prop :=
  ∃ lead base marker trail, text.toList = lead ++ marker ++ trail ∧
    Blank lead ∧ Blank trail ∧ Marker base marker

variable {bound base : Nat} {marker : List Char}

theorem Marker.base_pos (h : Marker base marker) : 0 < base := by
  cases h
  all_goals decide

theorem Marker.dark (h : Marker base marker) : ∀ c ∈ marker, ¬ isWhiteSpace c := by
  cases h with
  | decimal => exact List.forall_mem_nil _
  | lower => exact List.forall_mem_cons.mpr ⟨by decide, List.forall_mem_singleton.mpr (by decide)⟩
  | upper => exact List.forall_mem_cons.mpr ⟨by decide, List.forall_mem_singleton.mpr (by decide)⟩

theorem digitOf_dark {c : Char} (h : (digitOf base c).isSome) : ¬ isWhiteSpace c := by
  have hle (a b : Char) : a ≤ b ↔ a.toNat ≤ b.toNat := UInt32.le_iff_toNat_le
  have hrange : 48 ≤ c.toNat ∧ c.toNat ≤ 122 := by
    simp only [digitOf, hle, Char.reduceToNat] at h
    split_ifs at h
    · omega
    · omega
    · omega
    · cases h
  simp only [isWhiteSpace, List.mem_cons, List.not_mem_nil, or_false, decide_eq_true_eq]
  omega

theorem signed_dark {sign digits : List Char} {value : Nat} (hsign : sign = [] ∨ sign = ['+'])
    (hdigits : Digits base digits value) : ∀ c ∈ sign ++ digits, ¬ isWhiteSpace c := by
  intro c hc
  rcases List.mem_append.mp hc with hc | hc
  · rcases hsign with rfl | rfl
    · cases hc
    · rw [List.mem_singleton.mp hc]
      decide
  · exact digitOf_dark (hdigits.isSome c hc)

/-- A text that is parsed in base ten does not begin with the marker of the other base. -/
def Unmarked (text : List Char) : Prop :=
  ∀ c rest, text = '0' :: c :: rest → c ≠ 'x' ∧ c ≠ 'X'

theorem parseTrimmed_marked (h : Marker base marker) {text : List Char}
    (hten : base = 10 → Unmarked text) :
    parseTrimmed bound (marker ++ text) = fromStrRadix base bound text := by
  cases h with
  | decimal =>
    have hunmarked := hten rfl
    rw [List.nil_append, parseTrimmed]
    · intro hex heq
      exact (hunmarked 'x' hex heq).1 rfl
    · intro hex heq
      exact (hunmarked 'X' hex heq).2 rfl
  | lower => rfl
  | upper => rfl

theorem exists_marker (text : List Char) :
    ∃ base marker rest, text = marker ++ rest ∧ Marker base marker ∧ (base = 10 → Unmarked rest) := by
  by_cases hunmarked : Unmarked text
  · exact ⟨10, [], text, rfl, .decimal, fun _ => hunmarked⟩
  · rw [Unmarked] at hunmarked
    push Not at hunmarked
    obtain ⟨c, rest, rfl, hc⟩ := hunmarked
    by_cases hx : c = 'x'
    · subst hx
      exact ⟨16, ['0', 'x'], rest, rfl, .lower, nofun⟩
    · obtain rfl := hc hx
      exact ⟨16, ['0', 'X'], rest, rfl, .upper, nofun⟩

theorem digit_unmarked {digits : List Char} {n : Nat} (h : Digits 10 digits n) {c : Char}
    (hc : c ∈ digits) : c ≠ 'x' ∧ c ≠ 'X' := by
  have hsome := h.isSome c hc
  constructor
  · rintro rfl
    cases hsome
  · rintro rfl
    cases hsome

theorem numeral_unmarked {numeral : List Char} {n : Nat} (h : Numeral 10 numeral n) :
    Unmarked numeral := by
  obtain ⟨sign, digits, rfl, rfl | rfl, -, hdigits⟩ := h
  · intro c rest heq
    apply digit_unmarked hdigits
    rw [show digits = '0' :: c :: rest from heq]
    exact List.mem_cons_of_mem _ (List.mem_cons_self ..)
  · intro c rest heq
    cases heq

theorem exceeds_unmarked (hbound : 0 < bound) {text : List Char} (h : Exceeds 10 bound text) :
    Unmarked text := by
  obtain ⟨sign, digits, rest, value, rfl, rfl | rfl, hdigits, hle⟩ := h
  · intro c tail heq
    -- the zero by itself does not exceed anything, so the next character is a digit too
    match digits, hdigits with
    | [], hdigits =>
      have hzero := digits_nil_iff.mp hdigits
      omega
    | [zero], hdigits =>
      obtain ⟨rfl, -⟩ := List.cons.inj heq
      obtain ⟨digit, value', hzero, hnil, rfl⟩ := digits_cons_iff.mp hdigits
      obtain rfl := Option.some.inj hzero
      rw [digits_nil_iff.mp hnil] at hle
      have hvalue : bound ≤ 0 := hle
      omega
    | zero :: digit :: digits, hdigits =>
      obtain ⟨-, htail⟩ := List.cons.inj heq
      obtain ⟨rfl, -⟩ := List.cons.inj htail
      exact digit_unmarked hdigits (List.mem_cons_of_mem _ (List.mem_cons_self ..))
  · intro c tail heq
    cases heq

/-- Every text is a marker and what is parsed in its base, with white space around. -/
theorem exists_trimmed (bound : Nat) (text : String) :
    ∃ lead base marker rest trail, text.toList = lead ++ (marker ++ rest) ++ trail ∧
      Blank lead ∧ Blank trail ∧ Marker base marker ∧
      parseAuto bound text = fromStrRadix base bound rest := by
  obtain ⟨lead, trail, hsplit, hlead, htrail⟩ := trim_split isWhiteSpace text.toList
  obtain ⟨base, marker, rest, htrim, hmarker, hten⟩ := exists_marker (trim isWhiteSpace text.toList)
  refine ⟨lead, base, marker, rest, trail, htrim ▸ hsplit, hlead, htrail, hmarker, ?_⟩
  rw [parseAuto, htrim, parseTrimmed_marked hmarker hten]

/-- The parsing of a text, from the characters on that the trimming keeps. -/
theorem parseAuto_kept {text : String} {lead kept rest : List Char}
    (htext : text.toList = lead ++ (marker ++ kept) ++ rest) (hlead : Blank lead)
    (hmarker : Marker base marker) (dark : ∀ c ∈ kept, ¬ isWhiteSpace c) (hne : marker ++ kept ≠ [])
    (hten : base = 10 → Unmarked (kept ++ rest.rdropWhile isWhiteSpace)) :
    parseAuto bound text = fromStrRadix base bound (kept ++ rest.rdropWhile isWhiteSpace) := by
  have hdark : ∀ c ∈ marker ++ kept, ¬ isWhiteSpace c := by
    intro c hc
    rcases List.mem_append.mp hc with hc | hc
    · exact hmarker.dark c hc
    · exact dark c hc
  rw [parseAuto, htext, trim_dark hlead hdark hne, List.append_assoc,
    parseTrimmed_marked hmarker hten]

theorem parseAuto_ok_iff (hbound : 0 < bound) (text : String) (n : Nat) :
    parseAuto bound text = .ok n ↔ n < bound ∧ Denotes text n := by
  constructor
  · intro h
    obtain ⟨lead, base, marker, rest, trail, htext, hlead, htrail, hmarker, hparse⟩ :=
      exists_trimmed bound text
    rw [hparse, fromStrRadix_ok_iff hmarker.base_pos hbound] at h
    exact ⟨h.1, lead, base, marker, rest, trail, htext, hlead, htrail, hmarker, h.2⟩
  · rintro ⟨hlt, lead, base, marker, numeral, trail, htext, hlead, htrail, hmarker, hnumeral⟩
    have hnone : trail.rdropWhile isWhiteSpace = [] := List.rdropWhile_eq_nil_iff.mpr htrail
    have hten : base = 10 → Unmarked (numeral ++ trail.rdropWhile isWhiteSpace) := by
      rintro rfl
      rw [hnone, List.append_nil]
      exact numeral_unmarked hnumeral
    obtain ⟨sign, digits, rfl, hsign, hne, hdigits⟩ := id hnumeral
    have hkept := List.append_ne_nil_of_right_ne_nil marker
      (List.append_ne_nil_of_right_ne_nil sign hne)
    rw [parseAuto_kept htext hlead hmarker (signed_dark hsign hdigits) hkept hten, hnone,
      List.append_nil]
    exact (fromStrRadix_ok_iff hmarker.base_pos hbound).mpr ⟨hlt, hnumeral⟩

theorem parseAuto_tooLarge_iff (hbound : 0 < bound) (text : String) :
    parseAuto bound text = .error .tooLarge ↔ DenotesBeyond bound text := by
  constructor
  · intro h
    obtain ⟨lead, base, marker, rest, trail, htext, hlead, htrail, hmarker, hparse⟩ :=
      exists_trimmed bound text
    rw [hparse, fromStrRadix_tooLarge_iff hbound] at h
    obtain ⟨sign, digits, more, value, rfl, hsign, hdigits, hle⟩ := h
    refine ⟨lead, base, marker, sign ++ digits ++ (more ++ trail), ?_, hlead, hmarker, sign, digits,
      _, value, rfl, hsign, hdigits, hle⟩
    rw [htext]
    simp only [List.append_assoc]
  · rintro ⟨lead, base, marker, text', htext, hlead, hmarker, sign, digits, rest, value, rfl, hsign,
      hdigits, hle⟩
    have hexceeds : Exceeds base bound (sign ++ digits ++ rest.rdropWhile isWhiteSpace) :=
      ⟨sign, digits, _, value, rfl, hsign, hdigits, hle⟩
    have hten : base = 10 → Unmarked (sign ++ digits ++ rest.rdropWhile isWhiteSpace) := by
      rintro rfl
      exact exceeds_unmarked hbound hexceeds
    have hne : digits ≠ [] := hdigits.ne_nil (by omega)
    have hkept := List.append_ne_nil_of_right_ne_nil marker
      (List.append_ne_nil_of_right_ne_nil sign hne)
    have hsplit : text.toList = lead ++ (marker ++ (sign ++ digits)) ++ rest := by
      rw [htext]
      simp only [List.append_assoc]
    rw [parseAuto_kept hsplit hlead hmarker (signed_dark hsign hdigits) hkept hten]
    exact (fromStrRadix_tooLarge_iff hbound).mpr hexceeds

theorem parseAuto_empty_iff (bound : Nat) (text : String) :
    parseAuto bound text = .error .empty ↔ NoNumeral text := by
  constructor
  · intro h
    obtain ⟨lead, base, marker, rest, trail, htext, hlead, htrail, hmarker, hparse⟩ :=
      exists_trimmed bound text
    rw [hparse, fromStrRadix_empty_iff] at h
    rw [h, List.append_nil] at htext
    exact ⟨lead, base, marker, trail, htext, hlead, htrail, hmarker⟩
  · rintro ⟨lead, base, marker, trail, htext, hlead, htrail, hmarker⟩
    by_cases hne : marker = []
    · subst hne
      have hblank : Blank text.toList := by
        rw [htext, List.append_nil]
        exact List.forall_mem_append.mpr ⟨hlead, htrail⟩
      rw [parseAuto, trim_blank hblank]
      rfl
    · have hnone : trail.rdropWhile isWhiteSpace = [] := List.rdropWhile_eq_nil_iff.mpr htrail
      have hsplit : text.toList = lead ++ (marker ++ []) ++ trail := by
        rw [htext, List.append_nil]
      have hten : base = 10 → Unmarked ([] ++ trail.rdropWhile isWhiteSpace) := by
        intro _ c rest heq
        rw [hnone] at heq
        cases heq
      rw [parseAuto_kept hsplit hlead hmarker (by simp) (by simpa using hne) hten, hnone]
      rfl

end Grammar

/-- What a parser of numbers below a bound owes to a text: the number that the text says, or else
the first thing that is wrong with it. -/
structure Parses (bound : Nat) (text : String) (result : Except String Nat) : Prop where
  ok : ∀ n, result = .ok n ↔ n < bound ∧ Denotes text n
  tooLarge : result = .error "number too large to fit in target type" ↔ DenotesBeyond bound text
  empty : result = .error "cannot parse integer from empty string" ↔ NoNumeral text
  invalid : result = .error "invalid digit found in string" ↔
    (∀ n < bound, ¬ Denotes text n) ∧ ¬ DenotesBeyond bound text ∧ ¬ NoNumeral text

theorem parseIntErrorText_injective : Function.Injective parseIntErrorText := by
  intro err other
  cases err <;> cases other <;> decide

theorem parses_parseAuto {bound : Nat} (hbound : 0 < bound) (text : String) :
    Parses bound text ((parseAuto bound text).mapError parseIntErrorText) := by
  have herror (err : NumeralError) : (parseAuto bound text).mapError parseIntErrorText =
      .error (parseIntErrorText err) ↔ parseAuto bound text = .error err :=
    mapError_eq_error parseIntErrorText_injective
  have hok := parseAuto_ok_iff hbound text
  have htooLarge := parseAuto_tooLarge_iff hbound text
  have hempty := parseAuto_empty_iff bound text
  constructor
  · intro n
    exact mapError_eq_ok.trans (hok n)
  · exact (herror .tooLarge).trans htooLarge
  · exact (herror .empty).trans hempty
  · refine (herror .invalidDigit).trans ?_
    rw [← htooLarge, ← hempty]
    cases hparse : parseAuto bound text with
    | ok n =>
      have hn := (hok n).mp hparse
      exact iff_of_false nofun fun h => h.1 n hn.1 hn.2
    | error err =>
      have hnone : ∀ n < bound, ¬ Denotes text n := by
        intro n hlt hdenotes
        rw [(hok n).mpr ⟨hlt, hdenotes⟩] at hparse
        cases hparse
      cases err with
      | empty => simp
      | tooLarge => simp
      | invalidDigit => simpa using hnone

/-- A parsed number fits the word that it is made. -/
theorem parseAuto_word {α : Type} {bound : Nat} (hbound : 0 < bound) {ofNat : Nat → α}
    {toNat : α → Nat} (fits : ∀ n < bound, toNat (ofNat n) = n) (text : String) :
    (((parseAuto bound text).map ofNat).mapError parseIntErrorText).map toNat =
      (parseAuto bound text).mapError parseIntErrorText := by
  cases hparse : parseAuto bound text with
  | error err => rfl
  | ok n =>
    have hlt := ((parseAuto_ok_iff hbound text n).mp hparse).1
    change Except.ok (toNat (ofNat n)) = .ok n
    rw [fits n hlt]

theorem parseU16Auto_denotes {text : String} {code : UInt16} (h : Denotes text code.toNat) :
    parseU16Auto text = .ok code := by
  have hparse := (parseAuto_ok_iff (by decide) text code.toNat).mpr ⟨code.toNat_lt, h⟩
  rw [parseU16Auto, hparse]
  change Except.ok (UInt16.ofNat code.toNat) = .ok code
  rw [UInt16.ofNat_toNat]

theorem parseU32Auto_denotes {text : String} {word : UInt32} (h : Denotes text word.toNat) :
    parseU32Auto text = .ok word := by
  have hparse := (parseAuto_ok_iff (by decide) text word.toNat).mpr ⟨word.toNat_lt, h⟩
  rw [parseU32Auto, hparse]
  change Except.ok (UInt32.ofNat word.toNat) = .ok word
  rw [UInt32.ofNat_toNat]

/-- For every text, what the programs make of the numbers of `--log` and `--start-magic`. -/
theorem parse_auto_exact (text : String) :
    Parses (2 ^ 16) text ((parseU16Auto text).map UInt16.toNat) ∧
      Parses (2 ^ 32) text ((parseU32Auto text).map UInt32.toNat) := by
  have hu16 : ∀ n < 2 ^ 16, (UInt16.ofNat n).toNat = n := fun n => UInt16.toNat_ofNat_of_lt'
  have hu32 : ∀ n < 2 ^ 32, (UInt32.ofNat n).toNat = n := fun n => UInt32.toNat_ofNat_of_lt'
  constructor
  · rw [parseU16Auto, parseAuto_word (by decide) hu16]
    exact parses_parseAuto (by decide) text
  · rw [parseU32Auto, parseAuto_word (by decide) hu32]
    exact parses_parseAuto (by decide) text

end SixGrok.Core
