import SixGrok.Samsung.Decoder

namespace SixGrok.Samsung

open SixGrok.Framework

def oks (results : List SdmResult) : List SdmFrame :=
  results.filterMap fun
    | .ok frame => some frame
    | .error _ => none

def errs (results : List SdmResult) : List SdmError :=
  results.filterMap fun
    | .ok _ => none
    | .error err => some err

@[simp] theorem errs_ok (frame : SdmFrame) (results : List SdmResult) :
    errs (.ok frame :: results) = errs results := rfl

@[simp] theorem errs_error (err : SdmError) (results : List SdmResult) :
    errs (.error err :: results) = err :: errs results := rfl

/-- A gap, a packet, a gap, and so on, with a gap at the end. -/
def weave : List (List UInt8) → List (List UInt8) → List UInt8
  | gap :: gaps, packet :: packets => gap ++ packet ++ weave gaps packets
  | gap :: _, [] => gap
  | [], _ => []

/-- Where gap number `i` begins in the woven bytes. -/
def gapOffset (gaps packets : List (List UInt8)) (i : Nat) : Nat :=
  (gaps.take i).flatten.length + (packets.take i).flatten.length

theorem gapOffset_cons (gap packet : List UInt8) (gaps packets : List (List UInt8)) (i : Nat) :
    gapOffset (gap :: gaps) (packet :: packets) (i + 1) =
      gap.length + packet.length + gapOffset gaps packets i := by
  simp only [gapOffset, List.take_succ_cons, List.flatten_cons, List.length_append]
  omega

theorem gapOffset_lead (lead gap : List UInt8) (gaps packets : List (List UInt8)) (i : Nat) :
    gapOffset ((lead ++ gap) :: gaps) packets (i + 1) =
      lead.length + gapOffset (gap :: gaps) packets (i + 1) := by
  simp only [gapOffset, List.take_succ_cons, List.flatten_cons, List.length_append]
  omega

/-- Bytes cut into packets, the gaps around them and what is retained at the end,
such that no packet begins inside a gap. -/
structure Decomposition (bytes : List UInt8) (gaps : List (List UInt8)) (frames : List SdmFrame)
    (retained : List UInt8) : Prop where
  count : gaps.length = frames.length + 1
  whole : bytes = weave gaps (frames.map SdmFrame.packet) ++ retained
  packets : ∀ frame ∈ frames, IsPacket frame.packet frame.header
  missed : ∀ i gap, gaps[i]? = some gap → ∀ j < gap.length,
    ¬ StartsPacket (bytes.drop (gapOffset gaps (frames.map SdmFrame.packet) i + j))

theorem StartsPacket.head {bytes : List UInt8} (h : StartsPacket bytes) :
    bytes.head? = some sdmStart := by
  obtain ⟨packet, header, ⟨tail, rfl⟩, hpacket⟩ := h
  rw [List.head?_append, hpacket.start]
  rfl

theorem clean_gap_missed (gap rest : List UInt8) (clean : sdmStart ∉ gap) (j : Nat)
    (inside : j < gap.length) : ¬ StartsPacket ((gap ++ rest).drop j) := by
  intro h
  have hhead := h.head
  rw [List.head?_drop, List.getElem?_append_left inside] at hhead
  exact clean (List.mem_of_getElem? hhead)

theorem Decomposition.last (gap retained : List UInt8) (clean : sdmStart ∉ gap) :
    Decomposition (gap ++ retained) [gap] [] retained where
  count := rfl
  whole := rfl
  packets := by simp
  missed := by
    intro i gap' hgap j hj
    obtain ⟨rfl, rfl⟩ : i = 0 ∧ gap = gap' := by
      cases i with
      | zero => simpa using hgap
      | succ i => simp at hgap
    simpa [gapOffset] using clean_gap_missed gap retained clean j hj

/-- A packet after a clean gap, in front of bytes that are cut already. -/
theorem Decomposition.accept {rest retained : List UInt8} {gaps : List (List UInt8)}
    {frames : List SdmFrame} (h : Decomposition rest gaps frames retained) (gap : List UInt8)
    (clean : sdmStart ∉ gap) (frame : SdmFrame) (packet : IsPacket frame.packet frame.header) :
    Decomposition (gap ++ (frame.packet ++ rest)) (gap :: gaps) (frame :: frames) retained where
  count := by simp [h.count]
  whole := by
    rw [List.map_cons, weave, h.whole]
    simp
  packets := by
    intro f hf
    rcases List.mem_cons.mp hf with rfl | hf
    · exact packet
    · exact h.packets f hf
  missed := by
    intro i gap' hgap j hj
    cases i with
    | zero =>
      obtain rfl : gap = gap' := by simpa using hgap
      simpa [gapOffset] using clean_gap_missed gap (frame.packet ++ rest) clean j hj
    | succ i =>
      have hrest := h.missed i gap' (by simpa using hgap) j hj
      rw [List.map_cons, gapOffset_cons]
      have hdrop : (gap ++ (frame.packet ++ rest)).drop (gap.length + frame.packet.length +
          gapOffset gaps (frames.map SdmFrame.packet) i + j) =
          rest.drop (gapOffset gaps (frames.map SdmFrame.packet) i + j) := by
        rw [← List.append_assoc, ← List.length_append, Nat.add_assoc,
          List.drop_length_add_append]
      rw [hdrop]
      exact hrest

/-- A rejected start byte after a clean gap: both join the first gap of the rest. -/
theorem Decomposition.reject {rest retained gap' : List UInt8} {gaps : List (List UInt8)}
    {frames : List SdmFrame} (h : Decomposition rest (gap' :: gaps) frames retained)
    (gap : List UInt8) (clean : sdmStart ∉ gap) (rejected : ¬ StartsPacket (sdmStart :: rest)) :
    Decomposition (gap ++ sdmStart :: rest) ((gap ++ [sdmStart] ++ gap') :: gaps) frames
      retained where
  count := by simpa using h.count
  whole := by
    have hwhole := h.whole
    cases frames with
    | nil => rw [hwhole]; simp [weave]
    | cons frame frames => rw [hwhole]; simp [weave]
  packets := h.packets
  missed := by
    have hdrop (k : Nat) : (gap ++ sdmStart :: rest).drop ((gap ++ [sdmStart]).length + k) =
        rest.drop k := by
      have hsplit : gap ++ sdmStart :: rest = gap ++ [sdmStart] ++ rest := by simp
      rw [hsplit, List.drop_length_add_append]
    intro i gap'' hgap j hj
    cases i with
    | zero =>
      obtain rfl : gap ++ [sdmStart] ++ gap' = gap'' := by simpa using hgap
      have hfirst := h.missed 0 gap' rfl
      simp only [gapOffset, List.take_zero, List.flatten_nil, List.length_nil, Nat.zero_add]
        at hfirst ⊢
      rcases Nat.lt_trichotomy j gap.length with hlt | rfl | hgt
      · exact clean_gap_missed gap (sdmStart :: rest) clean j hlt
      · rw [List.drop_left]
        exact rejected
      · obtain ⟨k, rfl⟩ := Nat.exists_eq_add_of_le
          (show (gap ++ [sdmStart]).length ≤ j by simp; omega)
        rw [hdrop]
        apply hfirst k
        simp only [List.length_append] at hj
        omega
    | succ i =>
      have hrest := h.missed (i + 1) gap'' (by simpa using hgap) j hj
      rw [gapOffset_lead, Nat.add_assoc, hdrop]
      exact hrest

/-- Every finished scan cuts its bytes that way, and errs once per start byte in the gaps. -/
theorem scans_decomposition {bytes retained : List UInt8} {results : List SdmResult}
    (h : Scans loopPass bytes results retained) :
    ∃ gaps, Decomposition bytes gaps (oks results) retained ∧
      (errs results).length = gaps.flatten.count sdmStart := by
  induction h with
  | @stop bytes retained hpass =>
    obtain ⟨gap, rfl, hclean, -⟩ := loopPass_stop hpass
    have hcount := List.count_eq_zero.mpr hclean
    refine ⟨[gap], Decomposition.last gap retained hclean, ?_⟩
    simpa [errs] using hcount.symm
  | @next bytes rest result results retained hpass _ ih =>
    obtain ⟨gaps, hcut, herrs⟩ := ih
    obtain ⟨gap, hclean, hresult⟩ := loopPass_next hpass
    have hcount := List.count_eq_zero.mpr hclean
    rcases hresult with ⟨err, rfl, rfl, hreject⟩ | ⟨frame, rfl, rfl, hpacket⟩
    · -- a rejection: its start byte and the gap before it join the next gap
      cases gaps with
      | nil =>
        have hnone := hcut.count
        simp at hnone
      | cons gap' gaps =>
        refine ⟨_, hcut.reject gap hclean hreject, ?_⟩
        simp only [errs_error, List.length_cons, herrs, List.flatten_cons, List.count_append,
          hcount, List.count_singleton_self]
        omega
    · refine ⟨_, hcut.accept gap hclean frame hpacket, ?_⟩
      simp only [errs_ok, herrs, List.flatten_cons, List.count_append, hcount]
      omega

/-- The bytes that were pushed are the emitted packets, the gaps around them and what
the buffer retains: nothing is lost, invented or overlooked. -/
theorem sdm_decode_decomposition (chunks : List (List UInt8)) :
    ∃ gaps, Decomposition chunks.flatten gaps (oks (pushAll SdmDecoder.push {} chunks).1)
        (pushAll SdmDecoder.push {} chunks).2.buffer ∧
      (errs (pushAll SdmDecoder.push {} chunks).1).length = gaps.flatten.count sdmStart := by
  rw [pushAll_eq_push push_incremental {} push_default_nil]
  exact scans_decomposition (push_scans {} chunks.flatten)

end SixGrok.Samsung
