import SixGrok.Qualcomm.Batch

namespace SixGrok.Qualcomm

open SixGrok.Framework

section Errors

theorem true_mem_bitsOf {error : List UInt8} (nonzero : ∃ flips ∈ error, flips ≠ 0) :
    true ∈ bitsOf error := by
  obtain ⟨flips, hmem, hne⟩ := nonzero
  by_contra hclear
  apply hne
  apply UInt8.toBitVec_inj.mp
  apply BitVec.eq_of_getLsbD_eq
  intro i hi
  have hbit : flips.toBitVec.getLsbD i ∈ lowBits flips.toBitVec 8 :=
    List.mem_map.mpr ⟨i, List.mem_range.mpr hi, rfl⟩
  have hall : flips.toBitVec.getLsbD i ∈ bitsOf error := List.mem_flatMap.mpr ⟨flips, hmem, hbit⟩
  cases hset : flips.toBitVec.getLsbD i with
  | false => exact (BitVec.getLsbD_zero).symm
  | true =>
    rw [hset] at hall
    exact absurd hall hclear

/-- A frame in which an odd number of bits has been flipped, or bits within sixteen places of each
other only, is found to be corrupted. -/
theorem validateDiagFrame_detects (packet error : List UInt8) (nonempty : packet ≠ [])
    (same : error.length = (packet ++ u16ToLe (crc16IbmSdlc packet)).length)
    (nonzero : ∃ flips ∈ error, flips ≠ 0)
    (kind : Odd ((bitsOf error).count true) ∨
      ∃ first, ∀ i, (bitsOf error)[i]? = some true → first ≤ i ∧ i < first + 16) :
    ∃ expected actual, validateDiagFrame crc16IbmSdlc
        (List.zipWith (· ^^^ ·) (packet ++ u16ToLe (crc16IbmSdlc packet)) error) =
      .error (.badCrc expected actual) := by
  have hlength : (List.zipWith (· ^^^ ·) (packet ++ u16ToLe (crc16IbmSdlc packet)) error).length =
      packet.length + 2 := by
    rw [List.length_zipWith, same, Nat.min_self, List.length_append, u16ToLe_length]
  have hpos : 0 < packet.length := List.length_pos_iff.mpr nonempty
  rw [validateDiagFrame_badCrc_iff]
  constructor
  · omega
  · intro h
    obtain ⟨packet', hvalid⟩ := h
    obtain ⟨-, hundetected⟩ := (validateDiagFrame_ok_iff _ _ _).mp hvalid
    have hremainder := crc16_undetected same.symm hundetected
    exact crc16_detects (true_mem_bitsOf nonzero) kind hremainder

/-- A burst of nine bits across the boundary of the payload and its checksum. -/
theorem validateDiagFrame_detects_burst :
    ∃ expected actual, validateDiagFrame crc16IbmSdlc
        (List.zipWith (· ^^^ ·) ([0x4b, 0x13] ++ u16ToLe (crc16IbmSdlc [0x4b, 0x13]))
          [0x00, 0xc0, 0x7f, 0x00]) =
      .error (.badCrc expected actual) := by
  have hburst : ∀ i < 32, (bitsOf [0x00, 0xc0, 0x7f, 0x00])[i]? = some true →
      14 ≤ i ∧ i < 14 + 16 := by decide
  have hinside (i : Nat) (hi : (bitsOf [0x00, 0xc0, 0x7f, 0x00])[i]? = some true) : i < 32 :=
    (List.getElem?_eq_some_iff.mp hi).1
  exact validateDiagFrame_detects [0x4b, 0x13] [0x00, 0xc0, 0x7f, 0x00] (by decide) (by decide)
    ⟨0xc0, by decide, by decide⟩ (.inr ⟨14, fun i hi => hburst i (hinside i hi) hi⟩)

end Errors

section Escapes

variable (checksum : List UInt8 → UInt16)

/-- Escapes that are all of a byte that needs one, in a piece without a delimiter. -/
def Canonical (piece : List UInt8) : Prop :=
  0x7e ∉ piece ∧
    ∀ i : Nat, piece[i]? = some 0x7d → piece[i + 1]? = some 0x5d ∨ piece[i + 1]? = some 0x5e

theorem unescapeAfter_encodeByte (previous : Option UInt8) (plain : previous ≠ some 0x7d)
    (byte : UInt8) (piece : List UInt8) :
    ∃ previous', previous' ≠ some 0x7d ∧
      unescapeAfter previous (encodeByte byte ++ piece) =
        byte :: unescapeAfter previous' piece := by
  rw [encodeByte]
  split_ifs with hbyte
  · have hplain : byte ^^^ 0x20 ≠ 0x7d := by
      rcases hbyte with rfl | rfl <;> decide
    have hback : byte ^^^ 0x20 ^^^ 0x20 = byte := by
      rcases hbyte with rfl | rfl <;> decide
    refine ⟨some (byte ^^^ 0x20), by simpa using hplain, ?_⟩
    rw [List.cons_append, unescapeAfter_escape, List.singleton_append,
      unescapeAfter_cons _ hplain, if_pos rfl, hback]
  · have hplain : byte ≠ 0x7d := (not_or.mp hbyte).1
    refine ⟨some byte, by simpa using hplain, ?_⟩
    rw [List.singleton_append, unescapeAfter_cons _ hplain, if_neg plain]

/-- Unescaping undoes the escaping of any bytes. -/
theorem unescape_encodeBytes (bytes : List UInt8) : unescape (bytes.flatMap encodeByte) = bytes := by
  have hall (previous : Option UInt8) (plain : previous ≠ some 0x7d) :
      unescapeAfter previous (bytes.flatMap encodeByte) = bytes := by
    induction bytes generalizing previous with
    | nil => rfl
    | cons byte bytes ih =>
      obtain ⟨previous', hplain, hrest⟩ :=
        unescapeAfter_encodeByte previous plain byte (bytes.flatMap encodeByte)
      rw [List.flatMap_cons, hrest, ih previous' hplain]
  exact hall none nofun

theorem Canonical.tail {byte : UInt8} {piece : List UInt8} (h : Canonical (byte :: piece)) :
    Canonical piece := by
  obtain ⟨hplain, hescapes⟩ := h
  refine ⟨fun hmem => hplain (List.mem_cons_of_mem byte hmem), ?_⟩
  intro i hi
  exact hescapes (i + 1) hi

/-- A canonical piece is what the encoder makes of some bytes. -/
theorem Canonical.exists_encodeBytes {piece : List UInt8} (h : Canonical piece) :
    ∃ bytes : List UInt8, piece = bytes.flatMap encodeByte := by
  -- an escape takes two bytes of the piece
  generalize hlength : piece.length = length
  induction length using Nat.strongRecOn generalizing piece with
  | ind length ih =>
    cases piece with
    | nil => exact ⟨[], rfl⟩
    | cons byte rest =>
      rw [List.length_cons] at hlength
      by_cases hescape : byte = 0x7d
      · subst hescape
        have hnext := h.2 0 rfl
        obtain ⟨escaped, after, rfl⟩ : ∃ escaped after, rest = escaped :: after := by
          cases rest with
          | nil => simp at hnext
          | cons escaped after => exact ⟨escaped, after, rfl⟩
        have hshort : after.length < length := by
          rw [← hlength, List.length_cons]
          omega
        obtain ⟨bytes, hbytes⟩ := ih after.length hshort h.tail.tail rfl
        rcases hnext with hnext | hnext
        · obtain rfl : escaped = 0x5d := Option.some.inj hnext
          exact ⟨0x7d :: bytes, by rw [hbytes]; rfl⟩
        · obtain rfl : escaped = 0x5e := Option.some.inj hnext
          exact ⟨0x7e :: bytes, by rw [hbytes]; rfl⟩
      · have hdelimiter : byte ≠ 0x7e := fun hb => h.1 (hb ▸ List.mem_cons_self ..)
        obtain ⟨bytes, hbytes⟩ := ih rest.length (by omega) h.tail rfl
        have hone : encodeByte byte = [byte] := by simp [encodeByte, hescape, hdelimiter]
        refine ⟨byte :: bytes, ?_⟩
        rw [List.flatMap_cons, hone, ← hbytes]
        rfl

/-- A canonical piece that decodes to a packet is the one that the packet encodes to. -/
theorem encodeHdlc_canonical (piece packet : List UInt8) (canonical : Canonical piece)
    (decoded : (feed (HdlcDecoder.push checksum) {} (piece ++ [0x7e])).1 = [.ok packet]) :
    encodeHdlc checksum packet = piece ++ [0x7e] := by
  obtain ⟨bytes, hbytes⟩ := canonical.exists_encodeBytes
  have hraw : unescape piece = bytes := by rw [hbytes, unescape_encodeBytes]
  have hpiece : decodePiece checksum piece = some (.ok packet) := by
    rw [feed_terminated checksum canonical.1] at decoded
    simpa using decoded
  obtain ⟨-, hpacket⟩ := (decodePiece_ok_iff checksum piece packet).mp hpiece
  rw [encodeHdlc, ← hpacket, hraw, ← hbytes]

/-- A packet of a delimiter and an escape, both escaped. -/
theorem encodeHdlc_canonical_escaped :
    encodeHdlc crc16IbmSdlc [0x7e, 0x7d] = [0x7d, 0x5e, 0x7d, 0x5d, 0xf1, 0xcd] ++ [0x7e] := by
  have hescapes : ∀ i < 6, [0x7d, 0x5e, 0x7d, 0x5d, 0xf1, 0xcd][i]? = some (0x7d : UInt8) →
      [0x7d, 0x5e, 0x7d, 0x5d, 0xf1, 0xcd][i + 1]? = some (0x5d : UInt8) ∨
        [0x7d, 0x5e, 0x7d, 0x5d, 0xf1, 0xcd][i + 1]? = some (0x5e : UInt8) := by decide
  have canonical : Canonical [0x7d, 0x5e, 0x7d, 0x5d, 0xf1, 0xcd] := by
    refine ⟨by decide, ?_⟩
    intro i hi
    exact hescapes i (List.getElem?_eq_some_iff.mp hi).1 hi
  exact encodeHdlc_canonical crc16IbmSdlc _ [0x7e, 0x7d] canonical (by decide +kernel)

/-- An escape with nothing behind it is gone. -/
theorem unescape_dangling (body : List UInt8) : unescape (body ++ [0x7d]) = unescape body := by
  have hall (previous : Option UInt8) :
      unescapeAfter previous (body ++ [0x7d]) = unescapeAfter previous body := by
    induction body generalizing previous with
    | nil => rfl
    | cons byte body ih =>
      by_cases hescape : byte = 0x7d
      · subst hescape
        rw [List.cons_append, unescapeAfter_escape, unescapeAfter_escape, ih]
      · rw [List.cons_append, unescapeAfter_cons _ hescape, unescapeAfter_cons _ hescape, ih]
  exact hall none

/-- The decoder takes a piece that ends in an open escape for the piece without it: it is a packet
when what comes before the escape is one. -/
theorem decodePiece_dangling (bytes : List UInt8) :
    (feed (HdlcDecoder.push checksum) {} bytes).1 =
        (bytes.splitOn 0x7e).dropLast.filterMap (decodePiece checksum) ∧
      ∀ body, decodePiece checksum (body ++ [0x7d]) = decodePiece checksum body ∧
        ∀ packet, decodePiece checksum (body ++ [0x7d]) = some (.ok packet) ↔
          packet ≠ [] ∧ unescape body = packet ++ u16ToLe (checksum packet) := by
  refine ⟨feed_eq_decodeBatch checksum bytes, ?_⟩
  intro body
  have hsame : decodePiece checksum (body ++ [0x7d]) = decodePiece checksum body := by
    rw [decodePiece, decodePiece, unescape_dangling]
  refine ⟨hsame, ?_⟩
  intro packet
  rw [hsame, decodePiece_ok_iff]

/-- One byte and its checksum, an open escape and the delimiter: a packet all the same. -/
theorem feed_dangling_accepted :
    (feed (HdlcDecoder.push crc16IbmSdlc) {} ([0x41, 0xf5, 0xa3] ++ [0x7d] ++ [0x7e])).1 =
      [.ok [0x41]] := by
  decide

end Escapes

end SixGrok.Qualcomm
