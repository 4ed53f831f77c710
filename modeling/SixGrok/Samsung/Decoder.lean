import SixGrok.Framework.Feed
import SixGrok.Framework.Scan
import SixGrok.Samsung.Sdm

namespace SixGrok.Samsung

open SixGrok.Framework

structure SdmDecoder where
  buffer : List UInt8 := []
  deriving DecidableEq, Repr

abbrev SdmResult := Except SdmError SdmFrame
abbrev SdmPass := Pass (List UInt8) SdmResult (List UInt8)

/-- One round of the loop in `push`, once the buffer has been drained to its first
start byte: every rejection drops that byte only. -/
def examine (buffer : List UInt8) : SdmPass :=
  if buffer.length < 1 + sdmHeaderLen then .stop buffer
  else
    match parseHeader ((buffer.drop 1).take sdmHeaderLen) with
    | .error err => .next (.error err) (buffer.drop 1)
    | .ok header =>
      if header.length1 ≠ saturatingAdd header.length2 3 then
        .next (.error (.invalidLengthRelation header.length1 header.length2)) (buffer.drop 1)
      else
        let total := header.length1.toNat + 2
        if total < 1 + sdmHeaderLen + 1 ∨ total > maxSdmPacket then
          .next (.error (.packetTooLarge total)) (buffer.drop 1)
        else if buffer.length < total then .stop buffer
        else
          let terminator := buffer.getD (total - 1) 0
          if terminator ≠ sdmEnd then .next (.error (.badTerminator terminator)) (buffer.drop 1)
          else .next (.ok ⟨header, buffer.take total⟩) (buffer.drop total)

def loopPass (buffer : List UInt8) : SdmPass :=
  match buffer.findIdx? (· == sdmStart) with
  | none => .stop []
  | some start => examine (buffer.drop start)

/-- A candidate that more bytes may still complete. -/
structure Pending (buffer : List UInt8) : Prop where
  start : buffer.head? = some sdmStart
  incomplete : buffer.length < 1 + sdmHeaderLen ∨
    ∃ header, parseHeader ((buffer.drop 1).take sdmHeaderLen) = .ok header ∧
      header.length1 = saturatingAdd header.length2 3 ∧ 14 ≤ header.length1.toNat ∧
      buffer.length < header.length1.toNat + 2

theorem total_le_max (x : UInt16) : ¬ x.toNat + 2 > maxSdmPacket := by
  have hx : x.toNat < 2 ^ 16 := x.toNat_lt
  rw [maxSdmPacket]
  omega

/-- The bytes that the last branch of `examine` cuts off form a packet. -/
theorem isPacket_take (buffer : List UInt8) (header : SdmHeader)
    (start : buffer.head? = some sdmStart)
    (parses : parseHeader ((buffer.drop 1).take sdmHeaderLen) = .ok header)
    (lengths : header.length1 = saturatingAdd header.length2 3)
    (fits : 1 + sdmHeaderLen + 1 ≤ header.length1.toNat + 2)
    (complete : header.length1.toNat + 2 ≤ buffer.length)
    (terminator : buffer.getD (header.length1.toNat + 2 - 1) 0 = sdmEnd) :
    IsPacket (buffer.take (header.length1.toNat + 2)) header := by
  have hlen : (buffer.take (header.length1.toNat + 2)).length = header.length1.toNat + 2 := by
    rw [List.length_take]
    omega
  have hslice := header_slice_append (buffer.take (header.length1.toNat + 2))
    (buffer.drop (header.length1.toNat + 2)) (by omega)
  rw [List.take_append_drop] at hslice
  refine ⟨?_, ?_, lengths, hlen, ?_, ?_⟩
  · rw [List.head?_take, if_neg (by omega)]
    exact start
  · rw [← hslice]
    exact parses
  · rw [hlen]
    exact fits
  · rw [List.getLast?_eq_getElem?, hlen, List.getElem?_take_of_lt (by omega),
      List.getElem?_eq_getElem (by omega)]
    rw [List.getD_eq_getElem?_getD, List.getElem?_eq_getElem (by omega)] at terminator
    exact congrArg some terminator

/-- What one round does with a candidate: keep it, drop its start byte, or cut off a packet. -/
theorem examine_cases (buffer : List UInt8) (start : buffer.head? = some sdmStart) :
    (examine buffer = .stop buffer ∧ Pending buffer) ∨
    (∃ err, examine buffer = .next (.error err) (buffer.drop 1)) ∨
    (∃ frame rest, examine buffer = .next (.ok frame) rest ∧
      buffer = frame.packet ++ rest ∧ IsPacket frame.packet frame.header) := by
  by_cases hshort : buffer.length < 1 + sdmHeaderLen
  · left
    have hkept : examine buffer = .stop buffer := by rw [examine, if_pos hshort]
    exact ⟨hkept, start, .inl hshort⟩
  have hslice : sdmHeaderLen ≤ ((buffer.drop 1).take sdmHeaderLen).length := by
    rw [List.length_take, List.length_drop]
    omega
  obtain ⟨header, hparse⟩ := parseHeader_ok _ hslice
  rw [examine, if_neg hshort, hparse]
  dsimp only
  by_cases hlengths : header.length1 = saturatingAdd header.length2 3
  swap
  · right; left
    exact ⟨_, if_pos hlengths⟩
  rw [if_neg (not_not.mpr hlengths)]
  by_cases hsmall : header.length1.toNat + 2 < 1 + sdmHeaderLen + 1
  · right; left
    exact ⟨_, if_pos (.inl hsmall)⟩
  rw [if_neg (not_or.mpr ⟨hsmall, total_le_max _⟩)]
  by_cases hpending : buffer.length < header.length1.toNat + 2
  · left
    refine ⟨if_pos hpending, start, .inr ⟨header, hparse, hlengths, ?_, hpending⟩⟩
    rw [sdmHeaderLen] at hsmall
    omega
  rw [if_neg hpending]
  by_cases hend : buffer.getD (header.length1.toNat + 2 - 1) 0 = sdmEnd
  swap
  · right; left
    exact ⟨_, if_pos hend⟩
  right; right
  exact ⟨_, _, if_neg (not_not.mpr hend), (List.take_append_drop _ buffer).symm,
    isPacket_take buffer header start hparse hlengths (by omega) (by omega) hend⟩

/-- A packet at the head of the buffer is cut off, whatever stands behind it. -/
theorem examine_packet (packet rest : List UInt8) (header : SdmHeader)
    (h : IsPacket packet header) :
    examine (packet ++ rest) = .next (.ok ⟨header, packet⟩) rest := by
  have hlong : 1 + sdmHeaderLen ≤ packet.length := by
    have hpacket := h.long
    rw [sdmHeaderLen]
    omega
  have hall : (packet ++ rest).length = packet.length + rest.length := List.length_append
  have hterminator : (packet ++ rest).getD (packet.length - 1) 0 = sdmEnd := by
    have hlast := h.terminator
    rw [List.getLast?_eq_getElem?] at hlast
    rw [List.getD_eq_getElem?_getD, List.getElem?_append_left (by omega), hlast]
    rfl
  rw [examine, if_neg (by omega), header_slice_append packet rest hlong, h.parses]
  dsimp only
  rw [if_neg (not_not.mpr h.lengths), ← h.total, if_neg, if_neg (by omega),
    if_neg (not_not.mpr hterminator), List.take_left, List.drop_left]
  refine not_or.mpr ⟨?_, ?_⟩
  · have hpacket := h.long
    rw [sdmHeaderLen]
    omega
  · rw [h.total]
    exact total_le_max _

/-- A decision that yields a result stands whatever arrives later. -/
theorem examine_append (buffer more : List UInt8) (o : SdmResult) (rest : List UInt8)
    (h : examine buffer = .next o rest) : examine (buffer ++ more) = .next o (rest ++ more) := by
  rw [examine] at h ⊢
  by_cases hshort : buffer.length < 1 + sdmHeaderLen
  · rw [if_pos hshort] at h
    exact absurd h (by simp)
  have hall : (buffer ++ more).length = buffer.length + more.length := List.length_append
  have hdrop : (buffer ++ more).drop 1 = buffer.drop 1 ++ more :=
    List.drop_append_of_le_length (by omega)
  have hrejects (err : SdmError)
      (hnext : (.next (.error err) (buffer.drop 1) : SdmPass) = .next o rest) :
      (.next (.error err) ((buffer ++ more).drop 1) : SdmPass) = .next o (rest ++ more) := by
    obtain ⟨rfl, rfl⟩ := Pass.next.inj hnext
    rw [hdrop]
  rw [if_neg hshort] at h
  rw [if_neg (by omega), header_slice_append buffer more (by omega)]
  cases hparse : parseHeader ((buffer.drop 1).take sdmHeaderLen) with
  | error err =>
    rw [hparse] at h
    exact hrejects err h
  | ok header =>
    rw [hparse] at h
    dsimp only at h ⊢
    by_cases hlengths : header.length1 = saturatingAdd header.length2 3
    swap
    · rw [if_pos hlengths] at h ⊢
      exact hrejects _ h
    rw [if_neg (not_not.mpr hlengths)] at h ⊢
    by_cases hbounds : header.length1.toNat + 2 < 1 + sdmHeaderLen + 1 ∨
        header.length1.toNat + 2 > maxSdmPacket
    · rw [if_pos hbounds] at h ⊢
      exact hrejects _ h
    rw [if_neg hbounds] at h ⊢
    by_cases hpending : buffer.length < header.length1.toNat + 2
    · rw [if_pos hpending] at h
      exact absurd h (by simp)
    have hbyte : (buffer ++ more).getD (header.length1.toNat + 2 - 1) 0 =
        buffer.getD (header.length1.toNat + 2 - 1) 0 := by
      rw [List.getD_eq_getElem?_getD, List.getD_eq_getElem?_getD,
        List.getElem?_append_left (by omega)]
    rw [if_neg hpending] at h
    rw [if_neg (by omega), hbyte]
    by_cases hend : buffer.getD (header.length1.toNat + 2 - 1) 0 = sdmEnd
    · rw [if_neg (not_not.mpr hend)] at h ⊢
      obtain ⟨rfl, rfl⟩ := Pass.next.inj h
      rw [List.take_append_of_le_length (by omega), List.drop_append_of_le_length (by omega)]
    · rw [if_pos hend] at h ⊢
      exact hrejects _ h

/-- A rejected candidate is not the start of a packet, whatever arrives later. -/
theorem examine_error_not_packet (buffer more rest : List UInt8) (err : SdmError)
    (h : examine buffer = .next (.error err) rest) : ¬ StartsPacket (buffer ++ more) := by
  intro h
  obtain ⟨packet, header, ⟨tail, htail⟩, hpacket⟩ := h
  have hreject := examine_append buffer more _ rest h
  rw [← htail, examine_packet packet tail header hpacket] at hreject
  exact absurd (Pass.next.inj hreject).1 (by simp)

/-- A pass skips the bytes before the first start byte and examines what it opens. -/
theorem loopPass_skip (gap buffer : List UInt8) (clean : sdmStart ∉ gap)
    (start : buffer.head? = some sdmStart) : loopPass (gap ++ buffer) = examine buffer := by
  have hfind : (gap ++ buffer).findIdx? (· == sdmStart) = some gap.length := by
    obtain ⟨tail, rfl⟩ := List.head?_eq_some_iff.mp start
    rw [List.findIdx?_append, List.findIdx?_eq_none_iff.mpr]
    · simp [List.findIdx?_cons]
    · intro byte hbyte
      simpa using fun hb : byte = sdmStart => clean (hb ▸ hbyte)
  rw [loopPass, hfind]
  exact congrArg examine (List.drop_left ..)

theorem loopPass_no_start (gap : List UInt8) (clean : sdmStart ∉ gap) :
    loopPass gap = .stop [] := by
  have hfind : gap.findIdx? (· == sdmStart) = none := by
    apply List.findIdx?_eq_none_iff.mpr
    intro byte hbyte
    simpa using fun hb : byte = sdmStart => clean (hb ▸ hbyte)
  rw [loopPass, hfind]

/-- Bytes either hold no start byte or open with bytes that hold none, before the first. -/
theorem split_at_start (bytes : List UInt8) :
    sdmStart ∉ bytes ∨ ∃ gap buffer, bytes = gap ++ buffer ∧ sdmStart ∉ gap ∧
      buffer.head? = some sdmStart := by
  induction bytes with
  | nil => left; simp
  | cons byte bytes ih =>
    by_cases hbyte : byte = sdmStart
    · right
      have hstart : (byte :: bytes).head? = some sdmStart := by simp [hbyte]
      exact ⟨[], byte :: bytes, rfl, List.not_mem_nil, hstart⟩
    · rcases ih with hclean | ⟨gap, buffer, rfl, hclean, hstart⟩
      · left
        simp [Ne.symm hbyte, hclean]
      · right
        have hboth : sdmStart ∉ byte :: gap := by simp [Ne.symm hbyte, hclean]
        exact ⟨byte :: gap, buffer, rfl, hboth, hstart⟩

/-- What one pass of the loop does, with the gap that it skips. -/
theorem loopPass_cases (bytes : List UInt8) :
    (loopPass bytes = .stop [] ∧ sdmStart ∉ bytes) ∨
    (∃ gap buffer, bytes = gap ++ buffer ∧ sdmStart ∉ gap ∧ buffer.head? = some sdmStart ∧
      loopPass bytes = examine buffer) := by
  rcases split_at_start bytes with hclean | ⟨gap, buffer, rfl, hclean, hstart⟩
  · left
    exact ⟨loopPass_no_start bytes hclean, hclean⟩
  · right
    exact ⟨gap, buffer, rfl, hclean, hstart, loopPass_skip gap buffer hclean hstart⟩

/-- A pass that breaks the loop has skipped a clean gap, and keeps the candidate behind it. -/
theorem loopPass_stop {bytes retained : List UInt8} (h : loopPass bytes = .stop retained) :
    ∃ gap, bytes = gap ++ retained ∧ sdmStart ∉ gap ∧ (retained = [] ∨ Pending retained) := by
  rcases loopPass_cases bytes with ⟨hstop, hclean⟩ | ⟨gap, buffer, rfl, hclean, hstart, hexamine⟩
  · obtain rfl : [] = retained := Pass.stop.inj (hstop.symm.trans h)
    exact ⟨bytes, (List.append_nil bytes).symm, hclean, .inl rfl⟩
  rw [hexamine] at h
  rcases examine_cases buffer hstart with ⟨hs, hpending⟩ | ⟨err, hs⟩ | ⟨frame, rest, hs, _⟩
  · obtain rfl : buffer = retained := Pass.stop.inj (hs.symm.trans h)
    exact ⟨gap, rfl, hclean, .inr hpending⟩
  · rw [hs] at h
    cases h
  · rw [hs] at h
    cases h

/-- A pass that goes round again has skipped a clean gap, and either rejects the start byte
behind it, which then opens no packet, or cuts off a packet. -/
theorem loopPass_next {bytes rest : List UInt8} {result : SdmResult}
    (h : loopPass bytes = .next result rest) : ∃ gap, sdmStart ∉ gap ∧
      ((∃ err, result = .error err ∧ bytes = gap ++ sdmStart :: rest ∧
        ¬ StartsPacket (sdmStart :: rest)) ∨
      ∃ frame, result = .ok frame ∧ bytes = gap ++ (frame.packet ++ rest) ∧
        IsPacket frame.packet frame.header) := by
  rcases loopPass_cases bytes with ⟨hstop, _⟩ | ⟨gap, buffer, rfl, hclean, hstart, hexamine⟩
  · rw [hstop] at h
    cases h
  refine ⟨gap, hclean, ?_⟩
  rw [hexamine] at h
  rcases examine_cases buffer hstart with ⟨hs, _⟩ | ⟨err, hs⟩ | ⟨frame, tail, hs, hbuffer, hpacket⟩
  · rw [hs] at h
    cases h
  · left
    have hreject := examine_error_not_packet buffer [] _ err hs
    obtain ⟨rfl, rfl⟩ := Pass.next.inj (hs.symm.trans h)
    obtain ⟨tail, rfl⟩ := List.head?_eq_some_iff.mp hstart
    rw [List.append_nil] at hreject
    exact ⟨err, rfl, rfl, hreject⟩
  · right
    obtain ⟨rfl, rfl⟩ := Pass.next.inj (hs.symm.trans h)
    exact ⟨frame, rfl, congrArg (gap ++ ·) hbuffer, hpacket⟩

/-- Bytes without a start byte make no difference to the pass. -/
theorem loopPass_append_clean (gap bytes : List UInt8) (clean : sdmStart ∉ gap) :
    loopPass (gap ++ bytes) = loopPass bytes := by
  rcases split_at_start bytes with hclean | ⟨gap', buffer, rfl, hclean, hstart⟩
  · have hboth : sdmStart ∉ gap ++ bytes := by simp [clean, hclean]
    rw [loopPass_no_start _ hboth, loopPass_no_start _ hclean]
  · have hboth : sdmStart ∉ gap ++ gap' := by simp [clean, hclean]
    rw [← List.append_assoc, loopPass_skip _ _ hboth hstart, loopPass_skip _ _ hclean hstart]

theorem loopPass_shrinks : Shrinks List.length loopPass := by
  intro bytes result rest h
  obtain ⟨gap, -, ⟨err, -, rfl, -⟩ | ⟨frame, -, rfl, hpacket⟩⟩ := loopPass_next h
  · rw [List.length_append, List.length_cons]
    omega
  · have hlong := hpacket.long
    rw [List.length_append, List.length_append]
    omega

theorem loopPass_stable : Stable loopPass where
  next := by
    intro bytes result rest more h
    rcases loopPass_cases bytes with ⟨hstop, _⟩ | ⟨gap, buffer, rfl, hclean, hstart, hexamine⟩
    · rw [hstop] at h
      cases h
    · have hmore : (buffer ++ more).head? = some sdmStart := by
        rw [List.head?_append, hstart]
        rfl
      rw [hexamine] at h
      rw [List.append_assoc, loopPass_skip gap _ hclean hmore]
      exact examine_append buffer more result rest h
  stop := by
    intro bytes retained more h
    obtain ⟨gap, rfl, hclean, -⟩ := loopPass_stop h
    rw [List.append_assoc]
    exact loopPass_append_clean gap (retained ++ more) hclean

def SdmDecoder.push (decoder : SdmDecoder) (data : List UInt8) : List SdmResult × SdmDecoder :=
  let run := runLoop loopPass loopPass_shrinks (decoder.buffer ++ data)
  (run.1, { buffer := run.2 })

theorem push_scans (decoder : SdmDecoder) (data : List UInt8) :
    Scans loopPass (decoder.buffer ++ data) (decoder.push data).1 (decoder.push data).2.buffer :=
  runLoop_scans loopPass_shrinks _

theorem push_eq_of_scans (decoder : SdmDecoder) (data retained : List UInt8)
    (results : List SdmResult) (h : Scans loopPass (decoder.buffer ++ data) results retained) :
    decoder.push data = (results, { buffer := retained }) := by
  rw [SdmDecoder.push, runLoop_eq loopPass_shrinks h]

theorem push_incremental : Incremental SdmDecoder.push := by
  intro decoder first second
  have hfirst := push_scans decoder first
  have hsecond := push_scans (decoder.push first).2 second
  refine push_eq_of_scans decoder (first ++ second)
    ((decoder.push first).2.push second).2.buffer _ ?_
  rw [← List.append_assoc]
  exact hfirst.append loopPass_stable hsecond

theorem push_default_nil : SdmDecoder.push {} [] = ([], {}) :=
  push_eq_of_scans {} [] [] [] (.stop (loopPass_no_start [] (by simp)))

/-- Results and retained bytes are a function of the stream, not of the reads. -/
theorem sdm_push_chunking (chunks chunks' : List (List UInt8))
    (same : chunks.flatten = chunks'.flatten) :
    pushAll SdmDecoder.push {} chunks = pushAll SdmDecoder.push {} chunks' :=
  pushAll_chunking push_incremental {} push_default_nil chunks chunks' same

def smallPacket : List UInt8 := [0x7f, 14, 0, 0, 11, 0, 0, 0, 0xa0, 1, 6, 5, 0, 0, 0, 0x7e]

/-- A packet cut in its header and before its terminator, behind a stray byte and with the start
byte of the next one behind it. -/
theorem sdm_push_chunking_split :
    pushAll SdmDecoder.push {}
        [[0x00, 0x7f, 14, 0, 0], [], [11, 0, 0, 0, 0xa0, 1, 6, 5, 0, 0, 0], [0x7e, 0x7f]] =
      ([.ok ⟨⟨14, 0, 11, 0, 0xa0, 0, 1, 6, 5⟩, smallPacket⟩], { buffer := [0x7f] }) :=
  (sdm_push_chunking
    [[0x00, 0x7f, 14, 0, 0], [], [11, 0, 0, 0, 0xa0, 1, 6, 5, 0, 0, 0], [0x7e, 0x7f]]
    [0x00 :: smallPacket ++ [0x7f]] rfl).trans rfl

end SixGrok.Samsung
