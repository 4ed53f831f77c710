import Mathlib.Algebra.BigOperators.Group.List.Basic
import Mathlib.Algebra.GroupWithZero.Nat
import Mathlib.Data.List.Induction
import Mathlib.Data.List.Sort
import Mathlib.Order.Lattice
import Mathlib.Tactic.Common

namespace SixGrok.Framework

/-- A finite map that iterates in ascending key order. -/
structure OrderedMap (κ ν : Type) [LinearOrder κ] where
  entries : List (κ × ν)
  sorted : entries.Pairwise (fun a b => a.1 < b.1)

namespace OrderedMap

variable {κ ν μ : Type} [LinearOrder κ]

def empty : OrderedMap κ ν := ⟨[], List.Pairwise.nil⟩

def keys (m : OrderedMap κ ν) : List κ := m.entries.map Prod.fst

def values (m : OrderedMap κ ν) : List ν := m.entries.map Prod.snd

def lookupEntries (k : κ) : List (κ × ν) → Option ν
  | [] => none
  | entry :: rest => if k = entry.1 then some entry.2 else lookupEntries k rest

def get? (m : OrderedMap κ ν) (k : κ) : Option ν := lookupEntries k m.entries

/-- Change the entry of a key in place, or insert one where the key belongs. -/
def updateEntries (k : κ) (f : Option ν → ν) : List (κ × ν) → List (κ × ν)
  | [] => [(k, f none)]
  | entry :: rest =>
    if k < entry.1 then (k, f none) :: entry :: rest
    else if k = entry.1 then (entry.1, f (some entry.2)) :: rest
    else entry :: updateEntries k f rest

theorem mem_updateEntries_key {k : κ} {f : Option ν → ν} {entries : List (κ × ν)} {e : κ × ν}
    (h : e ∈ updateEntries k f entries) : e.1 = k ∨ ∃ e' ∈ entries, e'.1 = e.1 := by
  induction entries with
  | nil =>
    obtain rfl : e = (k, f none) := by simpa [updateEntries] using h
    exact .inl rfl
  | cons entry rest ih =>
    rw [updateEntries] at h
    split_ifs at h with hlt heq
    · rcases List.mem_cons.mp h with rfl | h
      · exact .inl rfl
      · exact .inr ⟨e, h, rfl⟩
    · rcases List.mem_cons.mp h with rfl | h
      · exact .inl heq.symm
      · exact .inr ⟨e, List.mem_cons_of_mem _ h, rfl⟩
    · rcases List.mem_cons.mp h with rfl | h
      · exact .inr ⟨e, List.mem_cons_self .., rfl⟩
      · rcases ih h with hk | ⟨e', he', hkey⟩
        · exact .inl hk
        · exact .inr ⟨e', List.mem_cons_of_mem _ he', hkey⟩

theorem updateEntries_sorted (k : κ) (f : Option ν → ν) (entries : List (κ × ν))
    (h : entries.Pairwise (fun a b => a.1 < b.1)) :
    (updateEntries k f entries).Pairwise (fun a b => a.1 < b.1) := by
  induction entries with
  | nil => simp [updateEntries]
  | cons entry rest ih =>
    obtain ⟨hhead, htail⟩ := List.pairwise_cons.mp h
    rw [updateEntries]
    split_ifs with hlt heq
    · refine List.pairwise_cons.mpr ⟨?_, h⟩
      intro e he
      rcases List.mem_cons.mp he with rfl | he
      · exact hlt
      · exact hlt.trans (hhead e he)
    · exact List.pairwise_cons.mpr ⟨hhead, htail⟩
    · refine List.pairwise_cons.mpr ⟨?_, ih htail⟩
      intro e he
      rcases mem_updateEntries_key he with hk | ⟨e', he', hkey⟩
      · rw [hk]
        exact lt_of_le_of_ne (le_of_not_gt hlt) (Ne.symm heq)
      · rw [← hkey]
        exact hhead e' he'

/-- `entry(k)` followed by a change of the value found there, if any. -/
def update (m : OrderedMap κ ν) (k : κ) (f : Option ν → ν) : OrderedMap κ ν :=
  ⟨updateEntries k f m.entries, updateEntries_sorted k f m.entries m.sorted⟩

def mapValues (m : OrderedMap κ ν) (g : ν → μ) : OrderedMap κ μ :=
  ⟨m.entries.map (fun e => (e.1, g e.2)), List.pairwise_map.mpr m.sorted⟩

theorem lookupEntries_of_lt (entries : List (κ × ν)) (k : κ) (h : ∀ e ∈ entries, k < e.1) :
    lookupEntries k entries = none := by
  induction entries with
  | nil => rfl
  | cons entry rest ih =>
    rw [lookupEntries, if_neg (h entry (List.mem_cons_self ..)).ne]
    exact ih fun e he => h e (List.mem_cons_of_mem _ he)

theorem lookupEntries_update (k k' : κ) (f : Option ν → ν) (entries : List (κ × ν))
    (h : entries.Pairwise (fun a b => a.1 < b.1)) :
    lookupEntries k' (updateEntries k f entries) =
      if k' = k then some (f (lookupEntries k entries)) else lookupEntries k' entries := by
  induction entries with
  | nil => rfl
  | cons entry rest ih =>
    obtain ⟨hhead, htail⟩ := List.pairwise_cons.mp h
    rw [updateEntries]
    by_cases hlt : k < entry.1
    · have hnone : lookupEntries k (entry :: rest) = none := by
        apply lookupEntries_of_lt
        intro e he
        rcases List.mem_cons.mp he with rfl | he
        · exact hlt
        · exact hlt.trans (hhead e he)
      rw [if_pos hlt, hnone]
      rfl
    rw [if_neg hlt]
    by_cases heq : k = entry.1
    · rw [if_pos heq, lookupEntries, lookupEntries, lookupEntries, if_pos heq, heq]
      by_cases hk : k' = entry.1
      · rw [if_pos hk, if_pos hk]
      · rw [if_neg hk, if_neg hk, if_neg hk]
    · rw [if_neg heq, lookupEntries, ih htail, lookupEntries, lookupEntries, if_neg heq]
      by_cases hk : k' = entry.1
      · rw [if_pos hk, if_pos hk, if_neg (hk ▸ Ne.symm heq)]
      · rw [if_neg hk, if_neg hk]

theorem get?_update (m : OrderedMap κ ν) (k k' : κ) (f : Option ν → ν) :
    (m.update k f).get? k' = if k' = k then some (f (m.get? k)) else m.get? k' :=
  lookupEntries_update k k' f m.entries m.sorted

/-- An entry is in the map exactly when its key looks it up. -/
theorem mem_entries_iff (m : OrderedMap κ ν) (k : κ) (v : ν) :
    (k, v) ∈ m.entries ↔ m.get? k = some v := by
  obtain ⟨entries, hsorted⟩ := m
  change (k, v) ∈ entries ↔ lookupEntries k entries = some v
  induction entries with
  | nil => simp [lookupEntries]
  | cons entry rest ih =>
    obtain ⟨hhead, htail⟩ := List.pairwise_cons.mp hsorted
    rw [lookupEntries, List.mem_cons]
    by_cases hk : k = entry.1
    · have hrest : (entry.1, v) ∉ rest := fun hmem => (hhead _ hmem).ne rfl
      rw [if_pos hk, hk]
      constructor
      · intro h
        rcases h with hentry | hmem
        · exact congrArg (fun e => some e.2) hentry.symm
        · exact absurd hmem hrest
      · intro hv
        exact .inl (Prod.ext rfl (Option.some.inj hv).symm)
    · rw [if_neg hk, ← ih htail]
      constructor
      · intro h
        rcases h with rfl | hmem
        · exact absurd rfl hk
        · exact hmem
      · exact .inr

/-- A map is what its entries are, however it was built. -/
theorem ext_mem {m m' : OrderedMap κ ν} (same : ∀ k v, (k, v) ∈ m.entries ↔ (k, v) ∈ m'.entries) :
    m = m' := by
  obtain ⟨entries, sorted⟩ := m
  obtain ⟨entries', sorted'⟩ := m'
  have irrefl : Std.Irrefl (fun a b : κ × ν => a.1 < b.1) := ⟨fun a => lt_irrefl a.1⟩
  have antisymm : Std.Antisymm (fun a b : κ × ν => a.1 < b.1) :=
    ⟨fun a b hab hba => absurd hab (lt_asymm hba)⟩
  have hentries : entries = entries' := sorted.eq_of_mem_iff sorted' fun e => same e.1 e.2
  subst hentries
  rfl

theorem keys_pairwise (m : OrderedMap κ ν) : m.keys.Pairwise (· < ·) :=
  List.pairwise_map.mpr m.sorted

/-- The first entry has the least key. -/
theorem head_le {m : OrderedMap κ ν} {head : κ × ν} {rest : List (κ × ν)}
    (hentries : m.entries = head :: rest) {e : κ × ν} (he : e ∈ m.entries) : head.1 ≤ e.1 := by
  have hsorted := m.sorted
  rw [hentries] at hsorted he
  rcases List.mem_cons.mp he with rfl | hrest
  · exact le_refl e.1
  · exact le_of_lt ((List.pairwise_cons.mp hsorted).1 e hrest)

section Group

variable {α : Type} (key : α → κ) (value : α → ν)

/-- Collect the values of each key, in the order in which they come. -/
def group (xs : List α) : OrderedMap κ (List ν) :=
  xs.foldl (fun m x => m.update (key x) (fun old => old.getD [] ++ [value x])) empty

theorem get?_group (xs : List α) (k : κ) :
    (group key value xs).get? k =
      let mine := (xs.filter (fun x => key x = k)).map value
      if mine = [] then none else some mine := by
  -- from the back: the last element is the one that `update` appends
  induction xs using List.reverseRecOn with
  | nil => rfl
  | append_singleton xs x ih =>
    have hstep : group key value (xs ++ [x]) =
        (group key value xs).update (key x) (fun old => old.getD [] ++ [value x]) := by
      rw [group, List.foldl_append]
      rfl
    rw [hstep, get?_update, List.filter_append, List.map_append]
    by_cases hk : k = key x
    · subst hk
      rw [if_pos rfl, ih]
      by_cases hempty : (xs.filter (fun y => key y = key x)).map value = []
      · simp [hempty]
      · simp [hempty]
    · rw [if_neg hk, ih]
      simp [Ne.symm hk]

theorem mem_group_entries (xs : List α) (k : κ) (vs : List ν) :
    (k, vs) ∈ (group key value xs).entries ↔
      vs ≠ [] ∧ vs = (xs.filter (fun x => key x = k)).map value := by
  rw [mem_entries_iff, get?_group]
  dsimp only
  split_ifs with hempty
  · simp only [hempty, false_iff, not_and]
    exact fun hne heq => hne heq
  · constructor
    · intro h
      obtain rfl := Option.some.inj h
      exact ⟨hempty, rfl⟩
    · intro h
      obtain ⟨_, rfl⟩ := h
      rfl

end Group

section Count

/-- The sum of all counters. -/
def total (m : OrderedMap κ Nat) : Nat := m.values.sum

/-- `*entry(k).or_default() += 1`. -/
def bump (m : OrderedMap κ Nat) (k : κ) : OrderedMap κ Nat :=
  m.update k (fun old => old.getD 0 + 1)

theorem total_bump (m : OrderedMap κ Nat) (k : κ) : (m.bump k).total = m.total + 1 := by
  change ((updateEntries k _ m.entries).map Prod.snd).sum = (m.entries.map Prod.snd).sum + 1
  induction m.entries with
  | nil => rfl
  | cons entry rest ih =>
    rw [updateEntries]
    split_ifs with hlt heq
    · simp only [List.map_cons, List.sum_cons, Option.getD_none]
      omega
    · simp only [List.map_cons, List.sum_cons, Option.getD_some]
      omega
    · simp only [List.map_cons, List.sum_cons, ih]
      omega

section Tally

variable {α : Type} (key : α → κ)

/-- How often each key comes. -/
def tally (xs : List α) : OrderedMap κ Nat := xs.foldl (fun m x => m.bump (key x)) empty

theorem tally_append_singleton (xs : List α) (x : α) :
    tally key (xs ++ [x]) = (tally key xs).bump (key x) := by
  rw [tally, List.foldl_append]
  rfl

theorem get?_tally (xs : List α) (k : κ) :
    (tally key xs).get? k =
      let count := xs.countP (fun x => key x = k)
      if count = 0 then none else some count := by
  induction xs using List.reverseRecOn with
  | nil => rfl
  | append_singleton xs x ih =>
    rw [tally_append_singleton, bump, get?_update, List.countP_append]
    by_cases hk : k = key x
    · subst hk
      rw [if_pos rfl, ih]
      by_cases hnone : xs.countP (fun y => key y = key x) = 0
      · simp [hnone]
      · simp [hnone]
    · rw [if_neg hk, ih]
      simp [Ne.symm hk]

/-- The number under a key, where no entry is a zero. -/
def count (m : OrderedMap κ Nat) (k : κ) : Nat := (m.get? k).getD 0

theorem count_tally (xs : List α) (k : κ) :
    (tally key xs).count k = xs.countP (fun x => key x = k) := by
  rw [count, get?_tally]
  dsimp only
  split_ifs with hzero
  · exact hzero.symm
  · rfl

/-- It does not matter in which order they come. -/
theorem tally_perm {xs ys : List α} (same : xs.Perm ys) : tally key xs = tally key ys := by
  apply ext_mem
  intro k v
  rw [mem_entries_iff, mem_entries_iff, get?_tally, get?_tally, same.countP_eq]

end Tally

end Count

end OrderedMap

end SixGrok.Framework
