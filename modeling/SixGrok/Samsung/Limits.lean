import SixGrok.Samsung.Replay

namespace SixGrok.Samsung

open SixGrok.Framework

section Retained

/-- The chunks may be joined: what a decoder holds after them it holds after their bytes. -/
theorem pushAll_eq_push_flatten (chunks : List (List UInt8)) :
    pushAll SdmDecoder.push {} chunks = SdmDecoder.push {} chunks.flatten :=
  pushAll_eq_push push_incremental {} push_default_nil chunks

theorem Pending.length_le {buffer : List UInt8} (h : Pending buffer) : buffer.length ≤ 65536 := by
  rcases h.incomplete with hshort | ⟨header, -, -, -, hcut⟩
  · have hlen : buffer.length < 15 := hshort
    omega
  · have hword : header.length1.toNat < 2 ^ 16 := header.length1.toNat_lt
    omega

/-- Whatever a scan is given, it retains nothing or a candidate that is still incomplete. -/
theorem scans_retained {bytes retained : List UInt8} {results : List SdmResult}
    (h : Scans loopPass bytes results retained) : retained = [] ∨ Pending retained := by
  apply h.invariant (I := fun _ => True) (J := fun retained => retained = [] ∨ Pending retained)
  · intro _ _ _ _ _
    trivial
  · intro buffer kept _ hstop
    obtain ⟨gap, -, -, hkept⟩ := loopPass_stop hstop
    exact hkept
  · trivial

/-- The buffer of a default decoder after a sequence of pushes. -/
def heldAfter (chunks : List (List UInt8)) : List UInt8 :=
  (pushAll SdmDecoder.push {} chunks).2.buffer

/-- After any pushes the decoder holds nothing or a candidate that more bytes may complete, at
most 65536 bytes of it; and the loop of a push comes to its end on any buffer. -/
theorem sdm_retained (chunks : List (List UInt8)) :
    (heldAfter chunks = [] ∨ Pending (heldAfter chunks)) ∧ (heldAfter chunks).length ≤ 65536 ∧
      ∀ bytes, (loop loopPass (bytes.length + 1) bytes).isSome := by
  have hretained : heldAfter chunks = [] ∨ Pending (heldAfter chunks) := by
    rw [heldAfter, pushAll_eq_push_flatten]
    exact scans_retained (push_scans {} chunks.flatten)
  refine ⟨hretained, ?_, ?_⟩
  · rcases hretained with hempty | hpending
    · rw [hempty]
      exact Nat.zero_le _
    · exact hpending.length_le
  · intro bytes
    exact loop_isSome loopPass_shrinks _ bytes (Nat.lt_succ_self _)

end Retained

section Lengths

/-- Every frame that the pushes give has a first length that is the second and three. -/
def ExactLengths (chunks : List (List UInt8)) : Prop :=
  ∀ frame, .ok frame ∈ (pushAll SdmDecoder.push {} chunks).1 →
    frame.header.length1.toNat = frame.header.length2.toNat + 3

/-- A complete packet begins here, and three more than its second length is no 16-bit number. -/
def Saturated (bytes : List UInt8) : Prop :=
  ∃ packet header, packet <+: bytes ∧ IsPacket packet header ∧ 0xfffd ≤ header.length2.toNat

theorem saturatingAdd_exact {a b : UInt16} (h : a.toNat + b.toNat < 2 ^ 16) :
    (saturatingAdd a b).toNat = a.toNat + b.toNat := by
  rw [saturatingAdd, if_pos h, UInt16.toNat_add]
  exact Nat.mod_eq_of_lt h

theorem saturatingAdd_saturated {a b : UInt16} (h : 2 ^ 16 ≤ a.toNat + b.toNat) :
    saturatingAdd a b = 0xffff := by
  rw [saturatingAdd, if_neg (Nat.not_lt.mpr h)]

/-- The check of the lengths is exact just below the top of the range. -/
theorem IsPacket.exact_iff {packet : List UInt8} {header : SdmHeader} (h : IsPacket packet header) :
    header.length1.toNat = header.length2.toNat + 3 ↔ header.length2.toNat < 0xfffd := by
  have hthree : (3 : UInt16).toNat = 3 := rfl
  rw [h.lengths]
  by_cases hfits : header.length2.toNat + (3 : UInt16).toNat < 2 ^ 16
  · rw [saturatingAdd_exact hfits]
    omega
  · have htop : (0xffff : UInt16).toNat = 65535 := rfl
    rw [saturatingAdd_saturated (Nat.le_of_not_lt hfits), htop]
    omega

theorem IsPacket.length_saturated {packet : List UInt8} {header : SdmHeader}
    (h : IsPacket packet header) (saturated : 0xfffd ≤ header.length2.toNat) :
    packet.length = 65537 := by
  have hthree : (3 : UInt16).toNat = 3 := rfl
  have htop : (0xffff : UInt16).toNat = 65535 := rfl
  rw [h.total, h.lengths, saturatingAdd_saturated (by omega), htop]

theorem Saturated.starts {bytes : List UInt8} (h : Saturated bytes) : StartsPacket bytes := by
  obtain ⟨packet, header, hprefix, hpacket, -⟩ := h
  exact ⟨packet, header, hprefix, hpacket⟩

theorem not_saturated_of_head (bytes : List UInt8) (h : bytes.head? ≠ some sdmStart) :
    ¬ Saturated bytes := fun hsaturated => h hsaturated.starts.head

theorem saturated_packet {packet rest : List UInt8} {header : SdmHeader}
    (h : IsPacket packet header) :
    Saturated (packet ++ rest) ↔ ¬ header.length1.toNat = header.length2.toNat + 3 := by
  rw [h.exact_iff, not_lt]
  constructor
  · intro hsaturated
    obtain ⟨packet', header', ⟨rest', hsame⟩, hpacket, htop⟩ := hsaturated
    obtain ⟨rfl, -⟩ := h.unique hpacket hsame.symm
    obtain rfl : header = header' := Except.ok.inj (h.parses.symm.trans hpacket.parses)
    exact htop
  · intro htop
    exact ⟨packet, header, List.prefix_append .., h, htop⟩

/-- A saturated packet is longer than all that a decoder retains. -/
theorem not_saturated_of_retained {retained suffix : List UInt8}
    (h : retained = [] ∨ Pending retained) (hreach : Reaches retained suffix) :
    ¬ Saturated suffix := by
  intro hsaturated
  obtain ⟨packet, header, hprefix, hpacket, htop⟩ := hsaturated
  have hlength := hpacket.length_saturated htop
  have hfits := hprefix.length_le.trans hreach.isSuffix.length_le
  rcases h with rfl | hpending
  · have hnone : packet.length ≤ 0 := hfits
    omega
  · have hretained := hpending.length_le
    omega

/-- Scan by scan: the frames have exact lengths when no saturated packet is reached. -/
theorem scans_exact_iff {bytes retained : List UInt8} {results : List SdmResult}
    (h : Scans loopPass bytes results retained) :
    (∀ frame, .ok frame ∈ results → frame.header.length1.toNat = frame.header.length2.toNat + 3) ↔
      ∀ suffix, Reaches bytes suffix → ¬ Saturated suffix := by
  induction h with
  | @stop bytes retained hpass =>
    obtain ⟨gap, rfl, hclean, hretained⟩ := loopPass_stop hpass
    rw [reached_gap hclean not_saturated_of_head]
    constructor
    · intro _ suffix hreach
      exact not_saturated_of_retained hretained hreach
    · intro _ frame hframe
      cases hframe
  | @next bytes rest result results retained hpass _ ih =>
    obtain ⟨gap, hclean, ⟨err, rfl, rfl, hrejected⟩ | ⟨frame, rfl, rfl, hpacket⟩⟩ :=
      loopPass_next hpass
    · have hfirst : ¬ Saturated (sdmStart :: rest) := fun h => hrejected h.starts
      rw [reached_gap hclean not_saturated_of_head, reached_rejected hrejected hfirst, ← ih]
      simp
    · rw [reached_gap hclean not_saturated_of_head, reached_packet hpacket,
        saturated_packet hpacket, not_not, ← ih]
      simp

/-- The lengths of the frames are exact as long as no packet of the stream has lengths at the top
of the range, where the sum saturates. -/
theorem exactLengths_iff (chunks : List (List UInt8)) :
    ExactLengths chunks ↔ ∀ suffix, Reaches chunks.flatten suffix → ¬ Saturated suffix := by
  rw [ExactLengths, pushAll_eq_push_flatten]
  exact scans_exact_iff (push_scans {} chunks.flatten)

/-- A packet of 65537 bytes: 65535 in the first length, 65533 in the second. -/
def saturatedPacket : List UInt8 :=
  [0x7f, 0xff, 0xff, 0x00, 0xfd, 0xff] ++ List.replicate 65530 0 ++ [0x7e]

theorem saturatedPacket_isPacket :
    IsPacket saturatedPacket ⟨0xffff, 0, 0xfffd, 0, 0, 0, 0, 0, 0⟩ where
  start := rfl
  parses := rfl
  lengths := by decide
  total := by
    rw [saturatedPacket, List.length_append, List.length_append, List.length_replicate]
    rfl
  long := by
    rw [saturatedPacket, List.length_append, List.length_append, List.length_replicate]
    exact Nat.le_add_left 16 _
  terminator := by
    rw [saturatedPacket, List.getLast?_append]
    rfl

/-- The decoder takes it for a packet, though its lengths differ by two. -/
theorem saturatedPacket_accepted : ¬ ExactLengths [saturatedPacket] := by
  intro exact_lengths
  rw [ExactLengths, pushAll_eq_push_flatten, List.flatten_singleton] at exact_lengths
  have hreached := (scans_exact_iff (push_scans {} saturatedPacket)).mp exact_lengths
  apply hreached saturatedPacket (.here _)
  exact ⟨saturatedPacket, _, List.prefix_rfl, saturatedPacket_isPacket, by decide⟩

end Lengths

end SixGrok.Samsung
