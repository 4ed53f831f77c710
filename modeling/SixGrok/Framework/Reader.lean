import Mathlib.Algebra.GroupWithZero.Nat
import Mathlib.Data.List.Basic
import Mathlib.Tactic.Common

namespace SixGrok.Framework

inductive ErrorKind where
  | interrupted
  | wouldBlock
  | timedOut
  | connectionReset
  | other
  deriving DecidableEq, Repr

/-- What one `read` comes back with; `Ok(0)` is the empty list. -/
abbrev ReadOutcome := Except ErrorKind (List UInt8)

inductive ReadError where
  | unexpectedEof
  | broken (kind : ErrorKind)
  deriving DecidableEq, Repr

/-- How the filling of a buffer ends. -/
inductive Filled where
  | full (bytes : List UInt8) (rest : List ReadOutcome)
  | eof (got : List UInt8)
  | failed (kind : ErrorKind)

namespace Filled

def after (chunk : List UInt8) : Filled → Filled
  | full bytes rest => full (chunk ++ bytes) rest
  | eof got => eof (chunk ++ got)
  | failed kind => failed kind

end Filled

section Fill

-- The errors after which the read is tried again.
variable (retry : ErrorKind → Bool)

/-- Read into a buffer of a fixed length until it is full. A chunk that is longer than what
is left of the buffer waits for the next call; no outcome left is the end of the input. -/
def fill : Nat → List ReadOutcome → Filled
  | 0, reads => .full [] reads
  | _ + 1, [] => .eof []
  | n + 1, .error kind :: reads => if retry kind then fill (n + 1) reads else .failed kind
  | n + 1, .ok chunk :: reads =>
    if chunk = [] then .eof []
    else if n + 1 < chunk.length then .full (chunk.take (n + 1)) (.ok (chunk.drop (n + 1)) :: reads)
    else (fill (n + 1 - chunk.length) reads).after chunk

/-- `read_exact`. -/
def readExact (n : Nat) (reads : List ReadOutcome) :
    Except ReadError (List UInt8 × List ReadOutcome) :=
  match fill retry n reads with
  | .full bytes rest => .ok (bytes, rest)
  | .eof _ => .error .unexpectedEof
  | .failed kind => .error (.broken kind)

/-- The reads hand over exactly these bytes, in whatever pieces and with whatever failures
that are tried again, and then come to their end. -/
inductive Delivers : List ReadOutcome → List UInt8 → Prop where
  | finished : Delivers [] []
  | closed {reads : List ReadOutcome} : Delivers (.ok [] :: reads) []
  | retried {kind : ErrorKind} {reads : List ReadOutcome} {bytes : List UInt8} :
      retry kind = true → Delivers reads bytes → Delivers (.error kind :: reads) bytes
  | chunk {chunk bytes : List UInt8} {reads : List ReadOutcome} :
      chunk ≠ [] → Delivers reads bytes → Delivers (.ok chunk :: reads) (chunk ++ bytes)

/-- The bytes that come in before the input ends or breaks. -/
def arrived : List ReadOutcome → List UInt8
  | [] => []
  | .error kind :: reads => if retry kind then arrived reads else []
  | .ok chunk :: reads => if chunk = [] then [] else chunk ++ arrived reads

/-- The failure, not tried again, with which the input breaks before it ends. -/
def broken : List ReadOutcome → Option ErrorKind
  | [] => none
  | .error kind :: reads => if retry kind then broken reads else some kind
  | .ok chunk :: reads => if chunk = [] then none else broken reads

/-- All the bytes in a list of reads. -/
def readBytes (reads : List ReadOutcome) : Nat :=
  (reads.map fun read => match read with | .ok chunk => chunk.length | .error _ => 0).sum

variable {retry}

/-- A full buffer holds the bytes that came in first, and they are used up. -/
theorem fill_full {n : Nat} {reads rest : List ReadOutcome} {bytes : List UInt8}
    (h : fill retry n reads = .full bytes rest) :
    bytes.length = n ∧ n + readBytes rest = readBytes reads ∧
      arrived retry reads = bytes ++ arrived retry rest := by
  induction reads generalizing n bytes with
  | nil =>
    cases n with
    | zero =>
      rw [fill] at h
      obtain ⟨rfl, rfl⟩ := Filled.full.inj h
      exact ⟨rfl, Nat.zero_add _, rfl⟩
    | succ n => simp [fill] at h
  | cons read reads ih =>
    cases n with
    | zero =>
      rw [fill] at h
      obtain ⟨rfl, rfl⟩ := Filled.full.inj h
      exact ⟨rfl, Nat.zero_add _, rfl⟩
    | succ n =>
      cases read with
      | error kind =>
        rw [fill] at h
        split_ifs at h with hretry
        obtain ⟨hlen, hsum, hbytes⟩ := ih h
        have hread : readBytes (.error kind :: reads) = readBytes reads := by simp [readBytes]
        refine ⟨hlen, hsum.trans hread.symm, ?_⟩
        rw [arrived, if_pos hretry]
        exact hbytes
      | ok chunk =>
        rw [fill] at h
        split_ifs at h with hempty hlong
        · obtain ⟨rfl, rfl⟩ := Filled.full.inj h
          have hleft : chunk.drop (n + 1) ≠ [] :=
            List.ne_nil_of_length_pos (by rw [List.length_drop]; omega)
          refine ⟨List.length_take_of_le (Nat.le_of_lt hlong), ?_, ?_⟩
          · simp only [readBytes, List.map_cons, List.sum_cons, List.length_drop]
            omega
          · rw [arrived, if_neg hempty, arrived, if_neg hleft, ← List.append_assoc,
              List.take_append_drop]
        · cases hrest : fill retry (n + 1 - chunk.length) reads with
          | eof got => simp [hrest, Filled.after] at h
          | failed kind => simp [hrest, Filled.after] at h
          | full more rest' =>
            rw [hrest, Filled.after] at h
            obtain ⟨rfl, rfl⟩ := Filled.full.inj h
            obtain ⟨hlen, hsum, hbytes⟩ := ih hrest
            refine ⟨?_, ?_, ?_⟩
            · rw [List.length_append]
              omega
            · simp only [readBytes, List.map_cons, List.sum_cons] at hsum ⊢
              omega
            · rw [arrived, if_neg hempty, hbytes, List.append_assoc]

theorem readExact_ok {n : Nat} {reads rest : List ReadOutcome} {bytes : List UInt8}
    (h : readExact retry n reads = .ok (bytes, rest)) :
    bytes.length = n ∧ n + readBytes rest = readBytes reads ∧
      arrived retry reads = bytes ++ arrived retry rest := by
  rw [readExact] at h
  cases hfill : fill retry n reads with
  | eof got => simp [hfill] at h
  | failed kind => simp [hfill] at h
  | full taken rest' =>
    rw [hfill] at h
    obtain ⟨rfl, rfl⟩ := Prod.mk.inj (Except.ok.inj h)
    exact fill_full hfill

theorem arrived_chunk {chunk : List UInt8} (hne : chunk ≠ []) (reads : List ReadOutcome) :
    arrived retry (.ok chunk :: reads) = chunk ++ arrived retry reads := if_neg hne

theorem broken_chunk {chunk : List UInt8} (hne : chunk ≠ []) (reads : List ReadOutcome) :
    broken retry (.ok chunk :: reads) = broken retry reads := if_neg hne

/-- When the bytes are there, they fill the buffer, however they are cut. -/
theorem fill_enough {n : Nat} {reads : List ReadOutcome} (enough : n ≤ (arrived retry reads).length) :
    ∃ rest, fill retry n reads = .full ((arrived retry reads).take n) rest ∧
      arrived retry rest = (arrived retry reads).drop n ∧ broken retry rest = broken retry reads := by
  induction reads generalizing n with
  | nil =>
    obtain rfl : n = 0 := Nat.le_zero.mp enough
    exact ⟨[], rfl, rfl, rfl⟩
  | cons read reads ih =>
    cases n with
    | zero => exact ⟨_, rfl, rfl, rfl⟩
    | succ n =>
      cases read with
      | error kind =>
        rw [arrived] at enough ⊢
        rw [fill, broken]
        split_ifs at enough ⊢ with hretry
        · exact ih enough
        · exact absurd enough (Nat.not_succ_le_zero n)
      | ok chunk =>
        by_cases hempty : chunk = []
        · rw [arrived, if_pos hempty] at enough
          exact absurd enough (Nat.not_succ_le_zero n)
        rw [arrived_chunk hempty] at enough ⊢
        rw [broken_chunk hempty, fill, if_neg hempty]
        by_cases hlong : n + 1 < chunk.length
        · have hleft : chunk.drop (n + 1) ≠ [] :=
            List.ne_nil_of_length_pos (by rw [List.length_drop]; omega)
          rw [if_pos hlong, List.take_append_of_le_length (Nat.le_of_lt hlong),
            List.drop_append_of_le_length (Nat.le_of_lt hlong)]
          exact ⟨_, rfl, arrived_chunk hleft reads, broken_chunk hleft reads⟩
        · rw [List.length_append] at enough
          obtain ⟨rest, hfill, hrest, hbroken⟩ := ih (n := n + 1 - chunk.length) (by omega)
          refine ⟨rest, ?_, ?_, hbroken⟩
          · rw [if_neg hlong, hfill, Filled.after, List.take_append,
              List.take_of_length_le (Nat.le_of_not_lt hlong)]
          · rw [hrest, List.drop_append, List.drop_of_length_le (Nat.le_of_not_lt hlong),
              List.nil_append]

/-- When they are not, the filling goes the way of the input. -/
theorem fill_short {n : Nat} {reads : List ReadOutcome} (short : (arrived retry reads).length < n) :
    fill retry n reads =
      match broken retry reads with
      | none => .eof (arrived retry reads)
      | some kind => .failed kind := by
  induction reads generalizing n with
  | nil =>
    obtain ⟨n, rfl⟩ := Nat.exists_eq_add_one_of_ne_zero (Nat.ne_of_gt short)
    rfl
  | cons read reads ih =>
    obtain ⟨n, rfl⟩ := Nat.exists_eq_add_one_of_ne_zero (Nat.ne_of_gt (Nat.zero_lt_of_lt short))
    cases read with
    | error kind =>
      rw [arrived] at short
      rw [fill, broken, arrived]
      split_ifs at short ⊢ with hretry
      · exact ih short
      · rfl
    | ok chunk =>
      by_cases hempty : chunk = []
      · rw [fill, if_pos hempty, broken, if_pos hempty, arrived, if_pos hempty]
      rw [arrived_chunk hempty] at short ⊢
      rw [List.length_append] at short
      rw [broken_chunk hempty, fill, if_neg hempty, if_neg (by omega), ih (by omega)]
      cases broken retry reads <;> rfl

theorem readExact_enough {n : Nat} {reads : List ReadOutcome}
    (enough : n ≤ (arrived retry reads).length) :
    ∃ rest, readExact retry n reads = .ok ((arrived retry reads).take n, rest) ∧
      arrived retry rest = (arrived retry reads).drop n ∧ broken retry rest = broken retry reads := by
  obtain ⟨rest, hfill, hrest⟩ := fill_enough enough
  exact ⟨rest, by rw [readExact, hfill], hrest⟩

theorem readExact_short {n : Nat} {reads : List ReadOutcome}
    (short : (arrived retry reads).length < n) : ∃ err, readExact retry n reads = .error err := by
  rw [readExact, fill_short short]
  cases broken retry reads with
  | none => exact ⟨_, rfl⟩
  | some kind => exact ⟨_, rfl⟩

/-- What is delivered is what arrives of an input that does not break. -/
theorem delivers_iff {reads : List ReadOutcome} {bytes : List UInt8} :
    Delivers retry reads bytes ↔ arrived retry reads = bytes ∧ broken retry reads = none := by
  constructor
  · intro h
    induction h with
    | finished => exact ⟨rfl, rfl⟩
    | closed => exact ⟨rfl, rfl⟩
    | retried hretry _ ih => rwa [arrived, broken, if_pos hretry, if_pos hretry]
    | chunk hne _ ih => rwa [arrived_chunk hne, broken_chunk hne, List.append_right_inj]
  · rintro ⟨rfl, hbroken⟩
    induction reads with
    | nil => exact .finished
    | cons read reads ih =>
      cases read with
      | error kind =>
        rw [broken] at hbroken
        rw [arrived]
        split_ifs at hbroken ⊢ with hretry
        · exact .retried hretry (ih hbroken)
      | ok chunk =>
        by_cases hempty : chunk = []
        · subst hempty
          exact .closed
        · rw [broken_chunk hempty] at hbroken
          rw [arrived_chunk hempty]
          exact .chunk hempty (ih hbroken)

theorem Delivers.arrived {reads : List ReadOutcome} {bytes : List UInt8}
    (h : Delivers retry reads bytes) : arrived retry reads = bytes := (delivers_iff.mp h).1

theorem Delivers.fill {reads : List ReadOutcome} {bytes : List UInt8}
    (h : Delivers retry reads bytes) {n : Nat} (enough : n ≤ bytes.length) :
    ∃ rest, fill retry n reads = .full (bytes.take n) rest ∧
      Delivers retry rest (bytes.drop n) := by
  obtain ⟨rfl, hbroken⟩ := delivers_iff.mp h
  obtain ⟨rest, hfill, hrest, hsame⟩ := fill_enough enough
  exact ⟨rest, hfill, delivers_iff.mpr ⟨hrest, hsame.trans hbroken⟩⟩

theorem Delivers.fill_short {reads : List ReadOutcome} {bytes : List UInt8}
    (h : Delivers retry reads bytes) {n : Nat} (short : bytes.length < n) :
    Framework.fill retry n reads = .eof bytes := by
  obtain ⟨rfl, hbroken⟩ := delivers_iff.mp h
  rw [Framework.fill_short short, hbroken]

theorem Delivers.readExact {reads : List ReadOutcome} {front back : List UInt8}
    (h : Delivers retry reads (front ++ back)) :
    ∃ rest, readExact retry front.length reads = .ok (front, rest) ∧
      Delivers retry rest back := by
  obtain ⟨rest, hfill, hrest⟩ := h.fill (n := front.length) (by simp)
  rw [List.take_left] at hfill
  rw [List.drop_left] at hrest
  refine ⟨rest, ?_, hrest⟩
  rw [Framework.readExact, hfill]

theorem Delivers.readExact_short {reads : List ReadOutcome} {bytes : List UInt8}
    (h : Delivers retry reads bytes) {n : Nat} (short : bytes.length < n) :
    Framework.readExact retry n reads = .error .unexpectedEof := by
  rw [Framework.readExact, h.fill_short short]

/-- A byte string in one piece. -/
theorem delivers_single {bytes : List UInt8} (h : bytes ≠ []) :
    Delivers retry [.ok bytes] bytes := by
  have hchunk : Delivers retry [.ok bytes] (bytes ++ []) := .chunk h .finished
  rwa [List.append_nil] at hchunk

end Fill

end SixGrok.Framework
