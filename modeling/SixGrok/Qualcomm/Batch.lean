import SixGrok.Qualcomm.Hdlc

namespace SixGrok.Qualcomm

open SixGrok.Framework

section Unescape

/-- The bytes of a piece without the escapes, in which the byte behind an escape has its sixth
bit flipped. The first byte stands behind the given one, if there is one. -/
def unescapeAfter (previous : Option UInt8) (piece : List UInt8) : List UInt8 :=
  ((previous :: piece.map some).zip piece).filterMap fun (before, byte) =>
    if byte = 0x7d then none else some (if before = some 0x7d then byte ^^^ 0x20 else byte)

def unescape (piece : List UInt8) : List UInt8 := unescapeAfter none piece

@[simp] theorem unescapeAfter_nil (previous : Option UInt8) : unescapeAfter previous [] = [] := rfl

theorem unescapeAfter_escape (previous : Option UInt8) (piece : List UInt8) :
    unescapeAfter previous (0x7d :: piece) = unescapeAfter (some 0x7d) piece := rfl

theorem unescapeAfter_cons (previous : Option UInt8) {byte : UInt8} (plain : byte ≠ 0x7d)
    (piece : List UInt8) :
    unescapeAfter previous (byte :: piece) =
      (if previous = some 0x7d then byte ^^^ 0x20 else byte) :: unescapeAfter (some byte) piece := by
  simp only [unescapeAfter, List.map_cons, List.zip_cons_cons, List.filterMap_cons, if_neg plain]

end Unescape

section Checksum

variable (checksum : List UInt8 → UInt16)

/-- What a piece between two delimiters stands for; most of the time, of nothing at all. -/
def decodePiece (piece : List UInt8) : Option (Except FrameError (List UInt8)) :=
  if unescape piece = [] then none else some (validateDiagFrame checksum (unescape piece))

/-- The format read at once: the pieces that a delimiter ends, each for itself. -/
def decodeBatch (bytes : List UInt8) : List (Except FrameError (List UInt8)) :=
  (bytes.splitOn 0x7e).dropLast.filterMap (decodePiece checksum)

/-- Within a piece the decoder only collects, and its flag says whether an escape is open. -/
theorem feed_piece (frame : List UInt8) (escaped : Bool) (previous : Option UInt8)
    (flag : escaped = decide (previous = some 0x7d)) {piece : List UInt8} (plain : 0x7e ∉ piece) :
    ∃ escaped', feed (HdlcDecoder.push checksum) { frame, escaped } piece =
      ([], { frame := frame ++ unescapeAfter previous piece, escaped := escaped' }) := by
  induction piece generalizing frame escaped previous with
  | nil => exact ⟨escaped, by simp⟩
  | cons byte piece ih =>
    have hdelimiter : byte ≠ 0x7e := fun h => plain (h ▸ List.mem_cons_self ..)
    have hrest : 0x7e ∉ piece := fun h => plain (List.mem_cons_of_mem byte h)
    by_cases hescape : byte = 0x7d
    · subst hescape
      obtain ⟨escaped', hfeed⟩ := ih frame true (some 0x7d) (by simp) hrest
      refine ⟨escaped', ?_⟩
      rw [feed_cons, HdlcDecoder.push, if_neg hdelimiter, if_pos rfl, unescapeAfter_escape, hfeed]
      rfl
    · obtain ⟨escaped', hfeed⟩ := ih
        (frame ++ [if escaped then byte ^^^ 0x20 else byte]) false (some byte) (by simpa using hescape)
        hrest
      refine ⟨escaped', ?_⟩
      rw [feed_cons, HdlcDecoder.push, if_neg hdelimiter, if_neg hescape, hfeed,
        unescapeAfter_cons previous hescape, flag, List.append_assoc]
      simp

/-- A piece and its delimiter, from the default decoder. -/
theorem feed_terminated {piece : List UInt8} (plain : 0x7e ∉ piece) :
    feed (HdlcDecoder.push checksum) {} (piece ++ [0x7e]) =
      ((decodePiece checksum piece).toList, {}) := by
  obtain ⟨escaped, hfeed⟩ := feed_piece checksum [] false none rfl plain
  rw [feed_append, hfeed, List.nil_append, feed_cons, HdlcDecoder.push, if_pos rfl]
  by_cases hempty : unescapeAfter none piece = []
  · simp [decodePiece, unescape, hempty]
  · simp [decodePiece, unescape, hempty]

theorem decodeBatch_plain {bytes : List UInt8} (plain : 0x7e ∉ bytes) :
    decodeBatch checksum bytes = [] := by
  have hone : bytes.splitOn 0x7e = [bytes] := by
    rw [List.splitOn_eq_splitOnP, List.splitOnP_eq_singleton]
    intro byte hbyte
    simpa using fun h : byte = 0x7e => plain (h ▸ hbyte)
  rw [decodeBatch, hone]
  rfl

theorem decodeBatch_terminated {piece rest : List UInt8} (plain : 0x7e ∉ piece) :
    decodeBatch checksum (piece ++ 0x7e :: rest) =
      (decodePiece checksum piece).toList ++ decodeBatch checksum rest := by
  have hsplit : (piece ++ 0x7e :: rest).splitOn 0x7e = piece :: rest.splitOn 0x7e := by
    rw [List.splitOn_eq_splitOnP, List.splitOnP_append_cons_of_forall_mem _ _ (by simp)]
    · rfl
    · intro byte hbyte
      simpa using fun h : byte = 0x7e => plain (h ▸ hbyte)
  have hne : rest.splitOn 0x7e ≠ [] := List.splitOn_ne_nil 0x7e rest
  rw [decodeBatch, hsplit, List.dropLast_cons_of_ne_nil hne, List.filterMap_cons, decodeBatch]
  cases decodePiece checksum piece <;> rfl

/-- The decoder that is fed byte by byte reads the format. -/
theorem feed_eq_decodeBatch (bytes : List UInt8) :
    (feed (HdlcDecoder.push checksum) {} bytes).1 = decodeBatch checksum bytes := by
  -- from delimiter to delimiter
  generalize hlength : bytes.length = length
  induction length using Nat.strongRecOn generalizing bytes with
  | ind length ih =>
    by_cases hmem : 0x7e ∈ bytes
    · obtain ⟨piece, rest, rfl, hplain⟩ := List.eq_append_cons_of_mem hmem
      have hshort : rest.length < length := by
        rw [← hlength, List.length_append, List.length_cons]
        omega
      have hrest := ih rest.length hshort rest rfl
      rw [decodeBatch_terminated checksum hplain, ← List.singleton_append, ← List.append_assoc,
        feed_append, feed_terminated checksum hplain, hrest]
    · obtain ⟨escaped, hfeed⟩ := feed_piece checksum [] false none rfl hmem
      rw [decodeBatch_plain checksum hmem, hfeed]

theorem validateDiagFrame_ok_iff (raw packet : List UInt8) :
    validateDiagFrame checksum raw = .ok packet ↔
      packet ≠ [] ∧ raw = packet ++ u16ToLe (checksum packet) := by
  constructor
  · intro h
    simp only [validateDiagFrame] at h
    split_ifs at h with hshort hcrc
    obtain rfl := Except.ok.inj h
    have hlength : (raw.drop (raw.length - 2)).length = 2 := by
      rw [List.length_drop]
      omega
    have hsame := not_not.mp hcrc
    refine ⟨List.ne_nil_of_length_pos ?_, ?_⟩
    · rw [List.length_take]
      omega
    · rw [← hsame, u16ToLe_fromLe hlength, List.take_append_drop]
  · intro h
    obtain ⟨hne, rfl⟩ := h
    exact validateDiagFrame_checksum checksum packet hne

theorem validateDiagFrame_tooShort_iff (raw : List UInt8) :
    validateDiagFrame checksum raw = .error .tooShort ↔ raw.length < 3 := by
  rw [validateDiagFrame]
  by_cases hshort : raw.length < 3
  · simp [hshort]
  · simp only [hshort, if_false, iff_false]
    split_ifs <;> simp

theorem validateDiagFrame_badCrc_iff (raw : List UInt8) :
    (∃ expected actual, validateDiagFrame checksum raw = .error (.badCrc expected actual)) ↔
      ¬ raw.length < 3 ∧ ¬ ∃ packet, validateDiagFrame checksum raw = .ok packet := by
  rw [← validateDiagFrame_tooShort_iff checksum]
  rcases validateDiagFrame checksum raw with (_ | ⟨expected, actual⟩) | packet <;> simp

theorem decodePiece_ok_iff (piece packet : List UInt8) :
    decodePiece checksum piece = some (.ok packet) ↔
      packet ≠ [] ∧ unescape piece = packet ++ u16ToLe (checksum packet) := by
  rw [decodePiece]
  by_cases hempty : unescape piece = []
  · have hlong : (unescape piece).length ≠ (packet ++ u16ToLe (checksum packet)).length := by
      simp [hempty]
    simp only [hempty, if_true, reduceCtorEq, false_iff, not_and]
    intro _ heq
    exact hlong (by rw [hempty, heq])
  · simp only [hempty, if_false, Option.some.injEq, validateDiagFrame_ok_iff]

/-- Fed byte by byte the decoder gives what the pieces of the stream stand for, in order; and a
piece is a packet when it unescapes to one and its checksum, too short when it unescapes to one
byte or two, and corrupted when it unescapes to anything else. -/
theorem hdlc_feed_batch (bytes : List UInt8) :
    (feed (HdlcDecoder.push checksum) {} bytes).1 =
        (bytes.splitOn 0x7e).dropLast.filterMap (decodePiece checksum) ∧
      ∀ piece,
        (∀ packet, decodePiece checksum piece = some (.ok packet) ↔
          packet ≠ [] ∧ unescape piece = packet ++ u16ToLe (checksum packet)) ∧
        (decodePiece checksum piece = some (.error .tooShort) ↔
          (unescape piece).length = 1 ∨ (unescape piece).length = 2) ∧
        ((∃ expected actual, decodePiece checksum piece = some (.error (.badCrc expected actual))) ↔
          unescape piece ≠ [] ∧
          ¬ ((unescape piece).length = 1 ∨ (unescape piece).length = 2) ∧
          ¬ ∃ packet, packet ≠ [] ∧ unescape piece = packet ++ u16ToLe (checksum packet)) := by
  refine ⟨feed_eq_decodeBatch checksum bytes, ?_⟩
  intro piece
  refine ⟨decodePiece_ok_iff checksum piece, ?_⟩
  rw [decodePiece]
  by_cases hempty : unescape piece = []
  · simp [hempty]
  · have hpos : 0 < (unescape piece).length := List.length_pos_iff.mpr hempty
    have hshort : (unescape piece).length < 3 ↔
        (unescape piece).length = 1 ∨ (unescape piece).length = 2 := by omega
    simp only [hempty, if_false, Option.some.injEq, ← hshort, ne_eq, not_false_eq_true, true_and,
      validateDiagFrame_tooShort_iff, validateDiagFrame_badCrc_iff, validateDiagFrame_ok_iff,
      and_self]

end Checksum

end SixGrok.Qualcomm
