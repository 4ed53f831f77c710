import Mathlib.Algebra.GroupWithZero.Nat
import Mathlib.Data.List.Basic
import Mathlib.Tactic.Common

namespace SixGrok.Framework

/-- A self-delimiting byte format, with the proofs that decoding undoes encoding whatever
follows and that the size is the length of the encoding. -/
structure Format (α : Type) where
  encode : α → Option (List UInt8)
  decode : List UInt8 → Option (α × List UInt8)
  size : α → Nat
  decode_encode : ∀ {a bytes}, encode a = some bytes → ∀ rest,
    decode (bytes ++ rest) = some (a, rest)
  encode_length : ∀ {a bytes}, encode a = some bytes → bytes.length = size a

namespace Format

variable {α β : Type}

/-- One raw byte. -/
def byte : Format UInt8 where
  encode b := some [b]
  decode
    | [] => none
    | b :: rest => some (b, rest)
  size _ := 1
  decode_encode := by
    intro b bytes h rest
    obtain rfl := Option.some.inj h
    rfl
  encode_length := by
    intro b bytes h
    obtain rfl := Option.some.inj h
    rfl

/-- A format for the values that an embedding sends into another format. -/
def via (fmt : Format α) (embed : β → α) (back : α → Option β)
    (h : ∀ b, back (embed b) = some b) :
    Format β where
  encode b := fmt.encode (embed b)
  decode bytes := (fmt.decode bytes).bind fun r => (back r.1).map fun b => (b, r.2)
  size b := fmt.size (embed b)
  decode_encode := by
    intro b bytes hbytes rest
    rw [fmt.decode_encode hbytes, Option.bind_some, h]
    rfl
  encode_length := fun hbytes => fmt.encode_length hbytes

/-- One value behind the other. -/
def pair (first : Format α) (second : Format β) : Format (α × β) where
  encode p := (first.encode p.1).bind fun front =>
    (second.encode p.2).map fun back => front ++ back
  decode bytes := (first.decode bytes).bind fun r =>
    (second.decode r.2).map fun q => ((r.1, q.1), q.2)
  size p := first.size p.1 + second.size p.2
  decode_encode := by
    intro pair bytes hbytes rest
    obtain ⟨a, b⟩ := pair
    obtain ⟨front, hfront, htail⟩ := Option.bind_eq_some_iff.mp hbytes
    obtain ⟨back, hback, rfl⟩ := Option.map_eq_some_iff.mp htail
    rw [List.append_assoc, first.decode_encode hfront, Option.bind_some,
      second.decode_encode hback]
    rfl
  encode_length := by
    intro pair bytes hbytes
    obtain ⟨a, b⟩ := pair
    obtain ⟨front, hfront, htail⟩ := Option.bind_eq_some_iff.mp hbytes
    obtain ⟨back, hback, rfl⟩ := Option.map_eq_some_iff.mp htail
    rw [List.length_append, first.encode_length hfront, second.encode_length hback]

/-- A value behind a fixed header. -/
def after [DecidableEq β] (header : Format β) (mark : β) (fmt : Format α) : Format α :=
  (header.pair fmt).via (fun a => (mark, a)) (fun p => if p.1 = mark then some p.2 else none)
    (fun _ => if_pos rfl)

def encodeMany (fmt : Format α) : List α → Option (List UInt8)
  | [] => some []
  | a :: as => (fmt.encode a).bind fun front => (encodeMany fmt as).map fun back => front ++ back

def decodeMany (fmt : Format α) : Nat → List UInt8 → Option (List α × List UInt8)
  | 0, bytes => some ([], bytes)
  | n + 1, bytes => (fmt.decode bytes).bind fun r =>
    (decodeMany fmt n r.2).map fun q => (r.1 :: q.1, q.2)

theorem decodeMany_encodeMany (fmt : Format α) {as : List α} {bytes : List UInt8}
    (h : fmt.encodeMany as = some bytes) (rest : List UInt8) :
    fmt.decodeMany as.length (bytes ++ rest) = some (as, rest) := by
  induction as generalizing bytes with
  | nil =>
    obtain rfl := Option.some.inj h
    rfl
  | cons a as ih =>
    obtain ⟨front, hfront, htail⟩ := Option.bind_eq_some_iff.mp h
    obtain ⟨back, hback, rfl⟩ := Option.map_eq_some_iff.mp htail
    rw [List.length_cons, decodeMany, List.append_assoc, fmt.decode_encode hfront,
      Option.bind_some, ih hback]
    rfl

theorem encodeMany_length (fmt : Format α) {as : List α} {bytes : List UInt8}
    (h : fmt.encodeMany as = some bytes) : bytes.length = (as.map fmt.size).sum := by
  induction as generalizing bytes with
  | nil =>
    obtain rfl := Option.some.inj h
    rfl
  | cons a as ih =>
    obtain ⟨front, hfront, htail⟩ := Option.bind_eq_some_iff.mp h
    obtain ⟨back, hback, rfl⟩ := Option.map_eq_some_iff.mp htail
    rw [List.length_append, fmt.encode_length hfront, ih hback, List.map_cons, List.sum_cons]

/-- A list behind its length. -/
def list (count : Format Nat) (fmt : Format α) : Format (List α) where
  encode as := (count.encode as.length).bind fun front =>
    (fmt.encodeMany as).map fun back => front ++ back
  decode bytes := (count.decode bytes).bind fun r => fmt.decodeMany r.1 r.2
  size as := count.size as.length + (as.map fmt.size).sum
  decode_encode := by
    intro as bytes hbytes rest
    obtain ⟨front, hfront, htail⟩ := Option.bind_eq_some_iff.mp hbytes
    obtain ⟨back, hback, rfl⟩ := Option.map_eq_some_iff.mp htail
    rw [List.append_assoc, count.decode_encode hfront, Option.bind_some]
    exact fmt.decodeMany_encodeMany hback rest
  encode_length := by
    intro as bytes hbytes
    obtain ⟨front, hfront, htail⟩ := Option.bind_eq_some_iff.mp hbytes
    obtain ⟨back, hback, rfl⟩ := Option.map_eq_some_iff.mp htail
    rw [List.length_append, count.encode_length hfront, fmt.encodeMany_length hback]

theorem pair_isSome (first : Format α) (second : Format β) {p : α × β}
    (h₁ : (first.encode p.1).isSome) (h₂ : (second.encode p.2).isSome) :
    ((first.pair second).encode p).isSome := by
  obtain ⟨front, hfront⟩ := Option.isSome_iff_exists.mp h₁
  obtain ⟨back, hback⟩ := Option.isSome_iff_exists.mp h₂
  change ((first.encode p.1).bind _).isSome
  rw [hfront, Option.bind_some, hback]
  rfl

theorem encodeMany_isSome (fmt : Format α) {as : List α}
    (h : ∀ a ∈ as, (fmt.encode a).isSome) : (fmt.encodeMany as).isSome := by
  induction as with
  | nil => rfl
  | cons a as ih =>
    obtain ⟨front, hfront⟩ := Option.isSome_iff_exists.mp (h a (List.mem_cons_self ..))
    obtain ⟨back, hback⟩ := Option.isSome_iff_exists.mp
      (ih fun b hb => h b (List.mem_cons_of_mem a hb))
    rw [encodeMany, hfront, Option.bind_some, hback]
    rfl

theorem list_isSome {count : Format Nat} {fmt : Format α} {as : List α}
    (hcount : (count.encode as.length).isSome) (h : ∀ a ∈ as, (fmt.encode a).isSome) :
    ((list count fmt).encode as).isSome := by
  obtain ⟨front, hfront⟩ := Option.isSome_iff_exists.mp hcount
  obtain ⟨back, hback⟩ := Option.isSome_iff_exists.mp (fmt.encodeMany_isSome h)
  change ((count.encode as.length).bind _).isSome
  rw [hfront, Option.bind_some, hback]
  rfl

end Format

end SixGrok.Framework
