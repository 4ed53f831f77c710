import SixGrok.Samsung.Capture
import SixGrok.Samsung.Resync

namespace SixGrok.Samsung

open SixGrok.Framework SixGrok.Core

section Places

/-- The frames that the decoder cuts out of the bytes behind an offset, each with the offset at
which its packet begins. -/
inductive Places : Nat → List UInt8 → List (Nat × SdmFrame) → Prop where
  | ends {offset : Nat} {bytes retained : List UInt8} :
      loopPass bytes = .stop retained → Places offset bytes []
  | drops {offset : Nat} {bytes rest : List UInt8} {err : SdmError} {places : List (Nat × SdmFrame)} :
      loopPass bytes = .next (.error err) rest →
      Places (offset + (bytes.length - rest.length)) rest places → Places offset bytes places
  | cuts {offset : Nat} {bytes rest : List UInt8} {frame : SdmFrame}
      {places : List (Nat × SdmFrame)} :
      loopPass bytes = .next (.ok frame) rest →
      Places (offset + (bytes.length - rest.length)) rest places →
      Places offset bytes
        ((offset + (bytes.length - rest.length) - frame.packet.length, frame) :: places)

/-- Every complete packet behind the offset begins or reaches into one of the places. -/
def Covers (offset : Nat) (bytes : List UInt8) (places : List (Nat × SdmFrame)) : Prop :=
  ∀ i packet header, packet <+: bytes.drop i → IsPacket packet header →
    ∃ place ∈ places, place.1 < offset + i + packet.length ∧
      offset + i < place.1 + place.2.packet.length

/-- From the front of the bytes one gets to this suffix by reading packet after packet, and byte
after byte where no packet begins. -/
inductive Reaches : List UInt8 → List UInt8 → Prop where
  | here (bytes : List UInt8) : Reaches bytes bytes
  | skip {byte : UInt8} {bytes suffix : List UInt8} :
      ¬ StartsPacket (byte :: bytes) → Reaches bytes suffix → Reaches (byte :: bytes) suffix
  | jump {packet bytes suffix : List UInt8} {header : SdmHeader} :
      IsPacket packet header → Reaches bytes suffix → Reaches (packet ++ bytes) suffix

/-- No packet begins behind a candidate that the end of the bytes leaves incomplete. -/
def Unobstructed (bytes : List UInt8) : Prop :=
  ∀ candidate, Reaches bytes candidate → Pending candidate →
    ∀ i, 0 < i → ¬ StartsPacket (candidate.drop i)

theorem IsPacket.starts {packet : List UInt8} {header : SdmHeader} (h : IsPacket packet header)
    (rest : List UInt8) : StartsPacket (packet ++ rest) :=
  ⟨packet, header, List.prefix_append .., h⟩

/-- Where a packet begins, its length says where it ends. -/
theorem IsPacket.unique {packet packet' rest rest' : List UInt8} {header header' : SdmHeader}
    (h : IsPacket packet header) (h' : IsPacket packet' header')
    (same : packet ++ rest = packet' ++ rest') : packet = packet' ∧ rest = rest' := by
  have hexamine := examine_packet packet rest header h
  rw [same, examine_packet packet' rest' header' h'] at hexamine
  obtain ⟨hframe, hrest⟩ := Pass.next.inj hexamine
  exact ⟨(SdmFrame.mk.inj (Except.ok.inj hframe)).2.symm, hrest.symm⟩

theorem Pending.examine {buffer : List UInt8} (h : Pending buffer) :
    examine buffer = .stop buffer := by
  rw [Samsung.examine]
  by_cases hshort : buffer.length < 1 + sdmHeaderLen
  · exact if_pos hshort
  obtain ⟨header, hparse, hlengths, hlong, hcut⟩ := h.incomplete.resolve_left hshort
  rw [if_neg hshort, hparse]
  dsimp only
  rw [if_neg (not_not.mpr hlengths), if_neg, if_pos hcut]
  refine not_or.mpr ⟨?_, total_le_max _⟩
  rw [sdmHeaderLen]
  omega

theorem Pending.not_starts {buffer : List UInt8} (h : Pending buffer) : ¬ StartsPacket buffer := by
  intro hstarts
  obtain ⟨packet, header, ⟨rest, rfl⟩, hpacket⟩ := hstarts
  have hstop := h.examine
  rw [examine_packet packet rest header hpacket] at hstop
  cases hstop

theorem Pending.not_rejected {rest rest' : List UInt8} {err : SdmError}
    (h : Pending (sdmStart :: rest)) : loopPass (sdmStart :: rest) ≠ .next (.error err) rest' := by
  intro hpass
  have hskip := loopPass_skip [] (sdmStart :: rest) List.not_mem_nil rfl
  rw [List.nil_append, hpass, h.examine] at hskip
  cases hskip

theorem Reaches.gap {gap rest suffix : List UInt8} (clean : sdmStart ∉ gap)
    (h : Reaches rest suffix) : Reaches (gap ++ rest) suffix := by
  induction gap with
  | nil => exact h
  | cons byte gap ih =>
    have hbyte := clean_gap_missed (byte :: gap) rest clean 0 (Nat.zero_lt_succ _)
    exact .skip hbyte (ih fun hmem => clean (List.mem_cons_of_mem byte hmem))

theorem Reaches.behind_gap {gap rest suffix : List UInt8} (clean : sdmStart ∉ gap)
    (h : Reaches (gap ++ rest) suffix) (start : suffix.head? = some sdmStart) :
    Reaches rest suffix := by
  induction gap with
  | nil => exact h
  | cons byte gap ih =>
    have hbyte : byte ≠ sdmStart := fun hb => clean (hb ▸ List.mem_cons_self ..)
    have hgap : sdmStart ∉ gap := fun hmem => clean (List.mem_cons_of_mem byte hmem)
    generalize hbytes : byte :: gap ++ rest = bytes at h
    cases h with
    | here =>
      rw [← hbytes] at start
      exact absurd (Option.some.inj start) hbyte
    | skip _ hrest =>
      obtain ⟨-, rfl⟩ := List.cons.inj hbytes
      exact ih hgap hrest
    | @jump packet bytes _ header hpacket _ =>
      have hhead := (hpacket.starts bytes).head
      rw [← hbytes] at hhead
      exact absurd (Option.some.inj hhead) hbyte

theorem Reaches.behind_rejected {rest suffix : List UInt8} {byte : UInt8}
    (rejected : ¬ StartsPacket (byte :: rest)) (h : Reaches (byte :: rest) suffix) :
    suffix = byte :: rest ∨ Reaches rest suffix := by
  generalize hbytes : byte :: rest = bytes at h
  cases h with
  | here => exact .inl rfl
  | skip _ hrest =>
    obtain ⟨-, rfl⟩ := List.cons.inj hbytes
    exact .inr hrest
  | jump hpacket _ =>
    rw [hbytes] at rejected
    exact absurd (hpacket.starts _) rejected

theorem Reaches.behind_packet {packet rest suffix : List UInt8} {header : SdmHeader}
    (packet_ok : IsPacket packet header) (h : Reaches (packet ++ rest) suffix) :
    suffix = packet ++ rest ∨ Reaches rest suffix := by
  generalize hbytes : packet ++ rest = bytes at h
  cases h with
  | here => exact .inl rfl
  | skip hnot _ =>
    rw [← hbytes] at hnot
    exact absurd (packet_ok.starts rest) hnot
  | jump hpacket hrest =>
    obtain ⟨-, rfl⟩ := packet_ok.unique hpacket hbytes
    exact .inr hrest

theorem Reaches.isSuffix {bytes suffix : List UInt8} (h : Reaches bytes suffix) :
    suffix <:+ bytes := by
  induction h with
  | here => exact List.suffix_rfl
  | skip _ _ ih => exact ih.trans (List.suffix_cons ..)
  | jump _ _ ih => exact ih.trans (List.suffix_append ..)

section Reached

variable {Q : List UInt8 → Prop}

theorem reached_gap {gap rest : List UInt8} (clean : sdmStart ∉ gap)
    (others : ∀ suffix, suffix.head? ≠ some sdmStart → Q suffix) :
    (∀ suffix, Reaches (gap ++ rest) suffix → Q suffix) ↔ ∀ suffix, Reaches rest suffix → Q suffix := by
  constructor
  · intro h suffix hreach
    exact h suffix (hreach.gap clean)
  · intro h suffix hreach
    by_cases hstart : suffix.head? = some sdmStart
    · exact h suffix (hreach.behind_gap clean hstart)
    · exact others suffix hstart

theorem reached_rejected {rest : List UInt8} (rejected : ¬ StartsPacket (sdmStart :: rest))
    (first : Q (sdmStart :: rest)) :
    (∀ suffix, Reaches (sdmStart :: rest) suffix → Q suffix) ↔
      ∀ suffix, Reaches rest suffix → Q suffix := by
  constructor
  · intro h suffix hreach
    exact h suffix (.skip rejected hreach)
  · intro h suffix hreach
    rcases hreach.behind_rejected rejected with rfl | hrest
    · exact first
    · exact h suffix hrest

theorem reached_packet {packet rest : List UInt8} {header : SdmHeader}
    (hpacket : IsPacket packet header) :
    (∀ suffix, Reaches (packet ++ rest) suffix → Q suffix) ↔
      Q (packet ++ rest) ∧ ∀ suffix, Reaches rest suffix → Q suffix := by
  constructor
  · intro h
    refine ⟨h _ (.here _), ?_⟩
    intro suffix hreach
    exact h suffix (.jump hpacket hreach)
  · intro h suffix hreach
    rcases hreach.behind_packet hpacket with rfl | hrest
    · exact h.1
    · exact h.2 suffix hrest

end Reached

theorem unobstructed_gap {gap rest : List UInt8} (clean : sdmStart ∉ gap) :
    Unobstructed (gap ++ rest) ↔ Unobstructed rest := by
  apply reached_gap clean
  intro suffix hother hpending
  exact absurd hpending.start hother

theorem unobstructed_rejected {rest : List UInt8} {err : SdmError}
    (hpass : loopPass (sdmStart :: rest) = .next (.error err) rest)
    (rejected : ¬ StartsPacket (sdmStart :: rest)) :
    Unobstructed (sdmStart :: rest) ↔ Unobstructed rest := by
  apply reached_rejected rejected
  intro hpending
  exact absurd hpass hpending.not_rejected

theorem unobstructed_packet {packet rest : List UInt8} {header : SdmHeader}
    (hpacket : IsPacket packet header) : Unobstructed (packet ++ rest) ↔ Unobstructed rest := by
  apply (reached_packet hpacket).trans
  apply and_iff_right
  intro hpending
  exact absurd (hpacket.starts rest) hpending.not_starts

theorem covers_front {offset : Nat} {front rest : List UInt8} {places : List (Nat × SdmFrame)}
    (none : ∀ j < front.length, ¬ StartsPacket ((front ++ rest).drop j)) :
    Covers offset (front ++ rest) places ↔ Covers (offset + front.length) rest places := by
  constructor
  · intro h i packet header hbegins hpacket
    rw [← List.drop_length_add_append] at hbegins
    simpa only [Nat.add_assoc] using h (front.length + i) packet header hbegins hpacket
  · intro h i packet header hbegins hpacket
    rcases Nat.lt_or_ge i front.length with hlt | hge
    · exact absurd ⟨packet, header, hbegins, hpacket⟩ (none i hlt)
    · obtain ⟨k, rfl⟩ := Nat.exists_eq_add_of_le hge
      rw [List.drop_length_add_append] at hbegins
      simpa only [Nat.add_assoc] using h k packet header hbegins hpacket

theorem covers_packet {offset : Nat} {frame : SdmFrame} {rest : List UInt8}
    {places : List (Nat × SdmFrame)} :
    Covers offset (frame.packet ++ rest) ((offset, frame) :: places) ↔
      Covers (offset + frame.packet.length) rest places := by
  constructor
  · intro h i packet header hbegins hpacket
    rw [← List.drop_length_add_append] at hbegins
    obtain ⟨place, hmem, hbefore, hbehind⟩ :=
      h (frame.packet.length + i) packet header hbegins hpacket
    rcases List.mem_cons.mp hmem with rfl | hmem
    · dsimp only at hbehind
      omega
    · exact ⟨place, hmem, by omega, by omega⟩
  · intro h i packet header hbegins hpacket
    rcases Nat.lt_or_ge i frame.packet.length with hlt | hge
    · have hlong := hpacket.long
      exact ⟨(offset, frame), List.mem_cons_self .., by dsimp only; omega, by dsimp only; omega⟩
    · obtain ⟨k, rfl⟩ := Nat.exists_eq_add_of_le hge
      rw [List.drop_length_add_append] at hbegins
      obtain ⟨place, hmem, hbefore, hbehind⟩ := h k packet header hbegins hpacket
      exact ⟨place, List.mem_cons_of_mem _ hmem, by omega, by omega⟩

/-- Where the decoder keeps an incomplete candidate, or nothing. -/
theorem covers_retained (offset : Nat) {retained : List UInt8}
    (h : retained = [] ∨ Pending retained) :
    Covers offset retained [] ↔ Unobstructed retained := by
  constructor
  · intro covers candidate hreach _ i _ hstarts
    obtain ⟨packet, header, hbegins, hpacket⟩ := hstarts
    obtain ⟨front, hfront⟩ := hreach.isSuffix
    have hdrop : candidate.drop i = retained.drop (front.length + i) := by
      rw [← hfront, List.drop_length_add_append]
    rw [hdrop] at hbegins
    obtain ⟨place, hmem, -⟩ := covers _ packet header hbegins hpacket
    cases hmem
  · intro unobstructed i packet header hbegins hpacket
    exfalso
    have hstarts : StartsPacket (retained.drop i) := ⟨packet, header, hbegins, hpacket⟩
    rcases h with rfl | hpending
    · have hhead := hstarts.head
      simp at hhead
    · rcases Nat.eq_zero_or_pos i with rfl | hpos
      · exact hpending.not_starts hstarts
      · exact unobstructed retained (.here retained) hpending i hpos hstarts

/-- The decoder's places cover all packets exactly when no packet stands behind an incomplete
candidate: for that is where the decoder waits for more bytes until the input ends. -/
theorem Places.covers_iff {offset : Nat} {bytes : List UInt8} {places : List (Nat × SdmFrame)}
    (h : Places offset bytes places) : Covers offset bytes places ↔ Unobstructed bytes := by
  induction h with
  | @ends offset bytes retained hpass =>
    obtain ⟨gap, rfl, hclean, hretained⟩ := loopPass_stop hpass
    rw [covers_front (clean_gap_missed gap retained hclean), unobstructed_gap hclean,
      covers_retained _ hretained]
  | @drops offset bytes rest err places hpass _ ih =>
    obtain ⟨gap, hclean, ⟨err', herr, rfl, hrejected⟩ | ⟨frame, hok, -⟩⟩ := loopPass_next hpass
    · have hlength : (gap ++ sdmStart :: rest).length - rest.length = gap.length + 1 := by
        rw [List.length_append, List.length_cons]
        omega
      rw [loopPass_append_clean gap _ hclean] at hpass
      have hfirst : ∀ j < [sdmStart].length, ¬ StartsPacket (([sdmStart] ++ rest).drop j) := by
        intro j hj
        obtain rfl : j = 0 := Nat.lt_one_iff.mp hj
        exact hrejected
      have hbehind : Covers (offset + gap.length) (sdmStart :: rest) places ↔
          Covers (offset + gap.length + 1) rest places := covers_front hfirst
      rw [covers_front (clean_gap_missed gap _ hclean), unobstructed_gap hclean,
        unobstructed_rejected hpass hrejected, ← ih, hlength]
      exact hbehind
    · cases hok
  | @cuts offset bytes rest frame places hpass _ ih =>
    obtain ⟨gap, hclean, ⟨err, herr, -⟩ | ⟨frame', hok, rfl, hpacket⟩⟩ := loopPass_next hpass
    · cases herr
    · obtain rfl := Except.ok.inj hok
      have hlength : (gap ++ (frame.packet ++ rest)).length - rest.length =
          gap.length + frame.packet.length := by
        rw [List.length_append, List.length_append]
        omega
      have hplace : offset + (gap.length + frame.packet.length) - frame.packet.length =
          offset + gap.length := by omega
      rw [hlength, Nat.add_comm gap.length] at ih
      rw [hlength, hplace, covers_front (clean_gap_missed gap _ hclean), unobstructed_gap hclean,
        unobstructed_packet hpacket, covers_packet, ← ih, Nat.add_assoc,
        Nat.add_comm gap.length]

/-- Every scan of the decoder gives its frames their places. -/
theorem scans_places {bytes retained : List UInt8} {results : List SdmResult}
    (h : Scans loopPass bytes results retained) (offset : Nat) :
    ∃ places, Places offset bytes places ∧ places.map Prod.snd = oks results := by
  induction h generalizing offset with
  | stop hpass => exact ⟨[], .ends hpass, rfl⟩
  | @next bytes rest result results retained hpass _ ih =>
    obtain ⟨places, hplaces, hframes⟩ := ih (offset + (bytes.length - rest.length))
    cases result with
    | error err => exact ⟨places, .drops hpass hplaces, hframes⟩
    | ok frame => exact ⟨_, .cuts hpass hplaces, congrArg (frame :: ·) hframes⟩

end Places

section Replay

variable (clock : Clock)

theorem numberFrames_eq (sequence : UInt64) (results : List SdmResult) :
    (numberFrames clock sequence results).1 = (oks results).mapIdx fun i sdm =>
      captureFrame clock (sequence + UInt64.ofNat (i + 1)) .samsung sdm.header.syntheticLogCode
        sdm.packet := by
  induction results generalizing sequence with
  | nil => rfl
  | cons result results ih =>
    cases result with
    | error err => exact ih sequence
    | ok sdm =>
      have hoks : oks (.ok sdm :: results) = sdm :: oks results := rfl
      rw [numberFrames, hoks, List.mapIdx_cons]
      simp only [ih, sequence_succ]
      rfl

/-- A replay that loses no packet: its frames are the ones at these places of the stream, and
every complete packet of the stream begins or reaches into one of them. -/
def Lossless (reads : List ReadOutcome) : Prop :=
  ∃ places, Places 0 (streamed false reads) places ∧
    (runStream (ε := Empty) clock false Consumer.recorder reads []).2 =
      (places.map Prod.snd).mapIdx (fun i sdm => captureFrame clock (UInt64.ofNat (i + 1)) .samsung
        sdm.header.syntheticLogCode sdm.packet) ∧
    ∀ i packet header, packet <+: (streamed false reads).drop i → IsPacket packet header →
      ∃ place ∈ places, place.1 < i + packet.length ∧ i < place.1 + place.2.packet.length

/-- A replay is lossless exactly when no packet stands behind a candidate that is incomplete at
the end of the stream. -/
theorem replay_lossless_iff (reads : List ReadOutcome) :
    Lossless clock reads ↔ Unobstructed (streamed false reads) := by
  have hcovers (places : List (Nat × SdmFrame)) :
      (∀ i packet header, packet <+: (streamed false reads).drop i → IsPacket packet header →
        ∃ place ∈ places, place.1 < i + packet.length ∧ i < place.1 + place.2.packet.length) ↔
      Covers 0 (streamed false reads) places := by
    simp only [Covers, Nat.zero_add]
  constructor
  · intro h
    obtain ⟨places, hplaces, -, hall⟩ := h
    exact hplaces.covers_iff.mp ((hcovers places).mp hall)
  · intro h
    obtain ⟨places, hplaces, hframes⟩ := scans_places (push_scans {} (streamed false reads)) 0
    refine ⟨places, hplaces, ?_, (hcovers places).mpr (hplaces.covers_iff.mpr h)⟩
    have hrest : SdmCapture.push clock {} [] = ([], {}) := by
      rw [SdmCapture.push, push_default_nil]
      rfl
    have hcaptured := captured_eq false (capture_incremental clock) reads hrest
    show captured false (SdmCapture.push clock) reads {} = _
    rw [hcaptured]
    show (numberFrames clock 0 (SdmDecoder.push {} (streamed false reads)).1).1 = _
    rw [numberFrames_eq, hframes]
    simp only [UInt64.zero_add]

end Replay

/-- The beginning of a header that announces more than the file holds, and behind it a packet
that is whole. -/
theorem replay_loses_packet :
    ¬ Lossless (fun _ => (0, 0)) [.ok ([0x7f, 0x00, 0x01, 0x00, 0xfd, 0x00] ++
      [0x7f, 0x0e, 0x00, 0x00, 0x0b, 0x00, 0x00, 0x00, 0x01, 0x02, 0x03, 0, 0, 0, 0, 0x7e]),
      .ok []] := by
  intro lossless
  obtain ⟨places, -, hframes, hall⟩ := lossless
  have hnone : (runStream (ε := Empty) (fun _ => (0, 0)) false Consumer.recorder
      [.ok ([0x7f, 0x00, 0x01, 0x00, 0xfd, 0x00] ++
        [0x7f, 0x0e, 0x00, 0x00, 0x0b, 0x00, 0x00, 0x00, 0x01, 0x02, 0x03, 0, 0, 0, 0, 0x7e]),
        .ok []] []).2 = [] := by decide
  rw [hnone] at hframes
  obtain rfl : places = [] :=
    List.map_eq_nil_iff.mp (List.mapIdx_eq_nil_iff.mp hframes.symm)
  have hpacket : IsPacket
      [0x7f, 0x0e, 0x00, 0x00, 0x0b, 0x00, 0x00, 0x00, 0x01, 0x02, 0x03, 0, 0, 0, 0, 0x7e]
      ⟨14, 0, 11, 0, 1, 0, 2, 3, 0⟩ := by
    constructor <;> decide
  obtain ⟨place, hmem, -⟩ := hall 6 _ _ (List.prefix_refl _) hpacket
  cases hmem

end SixGrok.Samsung
