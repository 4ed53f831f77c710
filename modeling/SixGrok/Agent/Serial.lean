import Mathlib.Data.List.DropRight
import SixGrok.Agent.Capture
import SixGrok.Qualcomm.Acknowledge
import SixGrok.Qualcomm.Batch

namespace SixGrok.Agent

open SixGrok.Framework SixGrok.Core SixGrok.Qualcomm

inductive SerialError (ε : Type) where
  | configure (err : Failure)
  | stream (err : StreamError ε)
  deriving DecidableEq, Repr

section Serial

variable {τ ε : Type} (checksum : List UInt8 → UInt16) (clock : Clock)

/-- `Command::Serial`: the masks are only touched when codes or profiles are named, and the
capture goes on with the reads that the configuration has left. -/
def serial (emit : Consumer τ ε CaptureFrame) (logs : List UInt16)
    (profiles : List CaptureProfile) (port : Port) (out : τ) :
    Option (Except (SerialError ε) Unit) × τ :=
  let stream := fun (port : Port) =>
    let run := runQualcommStream checksum clock true emit port.pending out
    (run.1.map fun result => result.mapError .stream, run.2)
  if logs = [] ∧ profiles = [] then stream port
  else
    match (configureQualcommLogs agentBackend checksum logs profiles).run port with
    | none => (none, out)
    | some (.error err, _) => (some (.error (.configure err)), out)
    | some (.ok (), port') => stream port'

/-- The port right behind the last SET_MASK request of a configuration. -/
def LastRequest (logs : List UInt16) (profiles : List CaptureProfile) (port asked : Port) : Prop :=
  ∃ ranges queried front group before,
    (queryLogRanges agentBackend checksum).run port = some (.ok ranges, queried) ∧
    (groupLogCodes (selectCodes agentBackend ranges logs profiles)).entries = front ++ [group] ∧
    (Session.each (configureGroup agentBackend checksum ranges logs) front).run queried =
      some (.ok (), before) ∧
    (sendDiagPacket agentBackend checksum (groupPacket ranges group)).run before =
      some (.ok (), asked)

/-- The log packets behind the first SET_MASK response of a stream. -/
def followingLogs (stream : List UInt8) : List (UInt16 × List UInt8) :=
  ((feed (HdlcDecoder.push checksum) {} stream).1.dropWhile fun frame =>
    (answers logConfigSetMaskOp frame).isNone).tail.filterMap logPacket

/-- The log packet that a piece between two delimiters stands for, if it does. -/
def pieceLogs (piece : List UInt8) : List (UInt16 × List UInt8) :=
  ((decodePiece checksum piece).bind logPacket).toList

/-- The bytes behind the last delimiter. -/
def begun (bytes : List UInt8) : List UInt8 := bytes.rtakeWhile (· ≠ 0x7e)

/-- The bytes before the first delimiter. -/
def ended (bytes : List UInt8) : List UInt8 := bytes.takeWhile (· ≠ 0x7e)

/-- What comes before a stream ends no log packet and begins none, nor does it spoil one:
together with it the first piece of the stream stands for what it stands for alone. -/
def Kept (tail stream : List UInt8) : Prop :=
  if 0x7e ∈ stream then
    logPackets checksum tail ++ pieceLogs checksum (begun tail ++ ended stream) =
      pieceLogs checksum (ended stream)
  else logPackets checksum tail = []

/-- Where the wait for the response leaves off: the read that brings the end of the frame, with
the bytes that it holds up to the delimiter and behind it. -/
structure Handover (hdlc : HdlcDecoder) (reads earlier : List ReadOutcome)
    (front tail : List UInt8) (rest : List ReadOutcome) : Prop where
  reads_eq : reads = earlier ++ .ok (front ++ 0x7e :: tail) :: rest
  unanswered : (feed (HdlcDecoder.push checksum) hdlc (streamed true earlier ++ front)).1.findSome?
    (answers logConfigSetMaskOp) = none
  answered : (feed (HdlcDecoder.push checksum) hdlc
    (streamed true earlier ++ front ++ [0x7e])).1.findSome? (answers logConfigSetMaskOp) ≠ none

section Pieces

theorem logPackets_eq (bytes : List UInt8) :
    logPackets checksum bytes = (decodeBatch checksum bytes).filterMap logPacket := by
  rw [logPackets, feed_eq_decodeBatch]

theorem logPackets_plain {bytes : List UInt8} (plain : 0x7e ∉ bytes) :
    logPackets checksum bytes = [] := by
  rw [logPackets_eq, decodeBatch_plain checksum plain]
  rfl

theorem logPackets_terminated {piece rest : List UInt8} (plain : 0x7e ∉ piece) :
    logPackets checksum (piece ++ 0x7e :: rest) =
      pieceLogs checksum piece ++ logPackets checksum rest := by
  rw [logPackets_eq, logPackets_eq, decodeBatch_terminated checksum plain, List.filterMap_append,
    pieceLogs]
  cases hpiece : decodePiece checksum piece with
  | none => rfl
  | some result => cases hlog : logPacket result <;> simp [hlog]

theorem logPackets_resync (noise rest : List UInt8) :
    logPackets checksum (noise ++ [0x7e] ++ rest) =
      logPackets checksum (noise ++ [0x7e]) ++ logPackets checksum rest := by
  rw [logPackets, feed_resync _ ({} : HdlcDecoder) 0x7e (push_delimiter_default checksum),
    List.filterMap_append]
  rfl

theorem begun_plain (bytes : List UInt8) : 0x7e ∉ begun bytes := by
  intro hmem
  have hplain := List.mem_rtakeWhile_imp hmem
  simp at hplain

/-- Everything before the bytes that are left at the end has been delimited. -/
theorem begun_cases (bytes : List UInt8) :
    0x7e ∉ bytes ∧ begun bytes = bytes ∨
      ∃ noise, bytes = noise ++ [0x7e] ++ begun bytes := by
  have hsplit : bytes.rdropWhile (· ≠ 0x7e) ++ begun bytes = bytes :=
    List.rdropWhile_append_rtakeWhile ..
  by_cases hdone : bytes.rdropWhile (· ≠ 0x7e) = []
  · rw [hdone, List.nil_append] at hsplit
    refine Or.inl ⟨?_, hsplit⟩
    rw [← hsplit]
    exact begun_plain bytes
  · have hlast := List.rdropWhile_last_not _ _ hdone
    have hdelimiter : (bytes.rdropWhile (· ≠ 0x7e)).getLast hdone = 0x7e := by
      simpa using hlast
    have hnoise := List.dropLast_append_getLast hdone
    rw [hdelimiter] at hnoise
    refine Or.inr ⟨(bytes.rdropWhile (· ≠ 0x7e)).dropLast, ?_⟩
    rw [hnoise, hsplit]

/-- Two streams, joined within a piece. -/
theorem logPackets_join (bytes : List UInt8) {piece rest : List UInt8} (plain : 0x7e ∉ piece) :
    logPackets checksum (bytes ++ (piece ++ 0x7e :: rest)) =
      logPackets checksum bytes ++ (pieceLogs checksum (begun bytes ++ piece) ++
        logPackets checksum rest) := by
  have hjoined : 0x7e ∉ begun bytes ++ piece := by
    rw [List.mem_append]
    exact not_or.mpr ⟨begun_plain bytes, plain⟩
  have hpiece : logPackets checksum (begun bytes ++ piece ++ 0x7e :: rest) =
      pieceLogs checksum (begun bytes ++ piece) ++ logPackets checksum rest :=
    logPackets_terminated checksum hjoined
  rcases begun_cases bytes with ⟨hplain, hbegun⟩ | ⟨noise, hnoise⟩
  · rw [hbegun] at hpiece ⊢
    rw [logPackets_plain checksum hplain, ← List.append_assoc, hpiece]
    rfl
  · have hfirst : logPackets checksum bytes = logPackets checksum (noise ++ [0x7e]) := by
      rw [hnoise, logPackets_resync, logPackets_plain checksum (begun_plain bytes), List.append_nil]
    have hall : bytes ++ (piece ++ 0x7e :: rest) =
        noise ++ [0x7e] ++ (begun bytes ++ piece ++ 0x7e :: rest) := by
      conv_lhs => rw [hnoise]
      simp only [List.append_assoc]
    rw [hall, logPackets_resync, hpiece, hfirst]

/-- A stream without a delimiter ends no packet. -/
theorem logPackets_append_plain (bytes : List UInt8) {more : List UInt8} (plain : 0x7e ∉ more) :
    logPackets checksum (bytes ++ more) = logPackets checksum bytes := by
  rcases begun_cases bytes with ⟨hplain, -⟩ | ⟨noise, hnoise⟩
  · have hboth : 0x7e ∉ bytes ++ more := by
      rw [List.mem_append]
      exact not_or.mpr ⟨hplain, plain⟩
    rw [logPackets_plain checksum hboth, logPackets_plain checksum hplain]
  · have hboth : 0x7e ∉ begun bytes ++ more := by
      rw [List.mem_append]
      exact not_or.mpr ⟨begun_plain bytes, plain⟩
    rw [hnoise, List.append_assoc, logPackets_resync, logPackets_resync,
      logPackets_plain checksum hboth, logPackets_plain checksum (begun_plain bytes)]

theorem kept_iff (tail stream : List UInt8) :
    Kept checksum tail stream ↔
      logPackets checksum (tail ++ stream) = logPackets checksum stream := by
  rw [Kept]
  split_ifs with hmem
  · obtain ⟨piece, rest, rfl, hplain⟩ := List.eq_append_cons_of_mem hmem
    have hended : ended (piece ++ 0x7e :: rest) = piece := by
      have hpiece : ∀ byte ∈ piece, decide (byte ≠ 0x7e) = true := by
        intro byte hbyte
        exact decide_eq_true fun h => hplain (h ▸ hbyte)
      rw [ended, List.takeWhile_append_of_pos hpiece, List.takeWhile_cons_of_neg (by simp),
        List.append_nil]
    rw [hended, logPackets_join checksum tail hplain, logPackets_terminated checksum hplain,
      ← List.append_assoc, List.append_left_inj]
  · rw [logPackets_append_plain checksum tail hmem, logPackets_plain checksum hmem]

/-- A read that ends with the response loses nothing. -/
theorem kept_nil (stream : List UInt8) : Kept checksum [] stream := by
  rw [kept_iff, List.nil_append]

end Pieces

section Handover

/-- Only a delimiter ends a frame. -/
theorem push_eq_some {hdlc : HdlcDecoder} {byte : UInt8} {packet : List UInt8}
    {operation : UInt32} (h : (hdlc.push checksum byte).1.bind (answers operation) = some packet) :
    byte = 0x7e := by
  by_contra hdelimiter
  rw [HdlcDecoder.push, if_neg hdelimiter] at h
  split_ifs at h <;> cases h

/-- The read that brings the answer. -/
theorem takeResponse_split {hdlc hdlc' : HdlcDecoder} {bytes packet : List UInt8}
    {operation : UInt32}
    (h : takeResponse checksum operation hdlc bytes = (some packet, hdlc')) :
    ∃ front tail, bytes = front ++ 0x7e :: tail ∧
      (feed (HdlcDecoder.push checksum) hdlc front).1.findSome? (answers operation) = none ∧
      (feed (HdlcDecoder.push checksum) hdlc (front ++ [0x7e])).1.findSome? (answers operation) =
        some packet := by
  induction bytes generalizing hdlc with
  | nil => cases h
  | cons byte bytes ih =>
    rw [takeResponse] at h
    cases hpush : (hdlc.push checksum byte).1.bind (answers operation) with
    | some found =>
      rw [hpush] at h
      obtain rfl := Option.some.inj (Prod.mk.inj h).1
      obtain rfl := push_eq_some checksum hpush
      refine ⟨[], bytes, rfl, rfl, ?_⟩
      rw [List.nil_append, findSome?_feed_cons, hpush]
      rfl
    | none =>
      rw [hpush] at h
      obtain ⟨front, tail, rfl, hnone, hsome⟩ := ih h
      refine ⟨byte :: front, tail, rfl, ?_, ?_⟩
      · rw [findSome?_feed_cons, hpush]
        exact hnone
      · rw [List.cons_append, findSome?_feed_cons, hpush]
        exact hsome

theorem streamed_live (chunk : List UInt8) (reads : List ReadOutcome) :
    streamed true (.ok chunk :: reads) = chunk ++ streamed true reads := by
  cases chunk <;> simp [streamed]

theorem agentClassify_data {read : ReadOutcome} {chunk : List UInt8}
    (h : agentBackend.classify read = .data chunk) : read = .ok chunk := by
  rcases read with kind | bytes
  · cases kind <;> cases h
  · cases bytes with
    | nil => cases h
    | cons byte bytes => exact congrArg Except.ok (ReadClass.data.inj h)

/-- The wait and the capture take the same bytes from a read. -/
theorem streamed_brings {read : ReadOutcome} {chunk : List UInt8}
    (h : agentBackend.Brings read chunk) (more : List ReadOutcome) :
    streamed true (read :: more) = chunk ++ streamed true more := by
  rcases h with hdata | ⟨rfl, hnothing⟩
  · rw [agentClassify_data hdata, streamed_live]
  · rcases read with kind | bytes
    · cases kind <;> first | rfl | (rcases hnothing with h | h <;> cases h)
    · cases bytes with
      | nil => rfl
      | cons byte bytes => rcases hnothing with h | h <;> cases h

theorem exists_handover {reads rest : List ReadOutcome} {hdlc : HdlcDecoder} {idleTimeouts : Nat}
    {packet : List UInt8}
    (h : waitLoop agentBackend checksum logConfigSetMaskOp reads hdlc idleTimeouts =
      some (.ok packet, rest)) :
    ∃ earlier front tail, Handover checksum hdlc reads earlier front tail rest := by
  induction reads generalizing hdlc idleTimeouts with
  | nil => cases h
  | cons read reads ih =>
    obtain ⟨chunk, idleTimeouts', hbrings, -, ⟨hdlc', htake, rfl⟩ | ⟨hnone, hrest⟩⟩ :=
      waitLoop_cons_ok h
    · obtain ⟨front, tail, hchunk, hnone, hsome⟩ := takeResponse_split checksum htake
      have hread : read = .ok chunk := by
        rcases hbrings with hdata | ⟨hempty, -⟩
        · exact agentClassify_data hdata
        · simp [hempty] at hchunk
      rw [hread, hchunk]
      refine ⟨[], front, tail, rfl, hnone, ?_⟩
      rw [streamed, List.nil_append, hsome]
      simp
    · have hchunk := streamed_brings hbrings
      obtain ⟨earlier, front, tail, hreads, hunanswered, hanswered⟩ := ih hrest
      refine ⟨read :: earlier, front, tail, ?_, ?_, ?_⟩
      · rw [hreads, List.cons_append]
      · rw [hchunk, List.append_assoc, findSome?_feed_append, hnone]
        exact hunanswered
      · rw [hchunk, List.append_assoc, List.append_assoc, findSome?_feed_append, hnone,
          ← List.append_assoc]
        exact hanswered

/-- A wait that ends well leaves the reads behind the one that brings the answer, and has lost
nothing before it. -/
theorem Handover.left {hdlc : HdlcDecoder} {reads earlier rest rest' : List ReadOutcome}
    {front tail packet : List UInt8} {idleTimeouts : Nat}
    (h : Handover checksum hdlc reads earlier front tail rest)
    (hrun : waitLoop agentBackend checksum logConfigSetMaskOp reads hdlc idleTimeouts =
      some (.ok packet, rest')) :
    rest' = rest ∧ streamed true reads =
      streamed true earlier ++ front ++ 0x7e :: (tail ++ streamed true rest) := by
  obtain ⟨rfl, hnone, hsome⟩ := h
  induction earlier generalizing hdlc idleTimeouts with
  | nil =>
    obtain ⟨chunk, idleTimeouts', hbrings, -, ⟨hdlc', -, hrest⟩ | ⟨hmissed, -⟩⟩ :=
      waitLoop_cons_ok hrun
    · refine ⟨hrest, ?_⟩
      rw [List.nil_append, streamed_live, List.append_assoc]
      rfl
    · have hsame : chunk = front ++ [0x7e] ++ tail := by
        have hone := streamed_brings hbrings []
        rw [streamed_live] at hone
        simpa [streamed] using hone.symm
      rw [hsame, findSome?_feed_append, Option.or_eq_none_iff] at hmissed
      exact absurd hmissed.1 hsome
  | cons read earlier ih =>
    obtain ⟨chunk, idleTimeouts', hbrings, -, ⟨hdlc', htake, -⟩ | ⟨hmissed, hrest⟩⟩ :=
      waitLoop_cons_ok hrun
    all_goals have hchunk := streamed_brings hbrings
    · have hfound := takeResponse_fst checksum logConfigSetMaskOp hdlc chunk
      rw [htake] at hfound
      rw [hchunk, List.append_assoc, findSome?_feed_append, ← hfound] at hnone
      cases hnone
    · rw [hchunk, List.append_assoc, findSome?_feed_append, hmissed, Option.none_or] at hnone
      rw [hchunk, List.append_assoc, List.append_assoc, findSome?_feed_append, hmissed,
        Option.none_or, ← List.append_assoc] at hsome
      obtain ⟨hleft, hstream⟩ := ih hnone hsome hrest
      refine ⟨hleft, ?_⟩
      rw [List.cons_append, hchunk, hchunk, hstream]
      simp only [List.append_assoc]

/-- A read that begins with the frame of the response. -/
theorem handover_framed {response : List UInt8} (tail : List UInt8) (rest : List ReadOutcome)
    (nonempty : response ≠ [])
    (hanswers : answers logConfigSetMaskOp (.ok response) = some response) :
    Handover checksum {} (.ok (encodeHdlc checksum response ++ tail) :: rest) []
      ((response ++ u16ToLe (checksum response)).flatMap encodeByte) tail rest := by
  have hfeed := feed_encodeHdlc checksum response nonempty
  rw [encodeHdlc] at hfeed
  constructor
  · rw [encodeHdlc, List.append_assoc]
    rfl
  · rw [streamed, List.nil_append, feed_encodeBytes]
    rfl
  · rw [streamed, List.nil_append, hfeed, List.findSome?_cons, hanswers]
    simp

/-- Where the response fills its read, nothing is lost with it. -/
theorem handover_filled {response : List UInt8} (rest : List ReadOutcome) (nonempty : response ≠ [])
    (hanswers : answers logConfigSetMaskOp (.ok response) = some response) :
    ∃ earlier front tail rest',
      Handover checksum {} (.ok (encodeHdlc checksum response ++ []) :: rest) earlier front tail
        rest' ∧ Kept checksum tail (streamed true rest') :=
  ⟨_, _, _, _, handover_framed checksum [] rest nonempty hanswers, kept_nil ..⟩

end Handover

section Run

/-- Behind the end of the first answer the decoder starts afresh. -/
theorem followingLogs_eq {front behind : List UInt8}
    (hnone : (feed (HdlcDecoder.push checksum) {} front).1.findSome? (answers logConfigSetMaskOp) =
      none)
    (hsome : (feed (HdlcDecoder.push checksum) {} (front ++ [0x7e])).1.findSome?
      (answers logConfigSetMaskOp) ≠ none) :
    followingLogs checksum (front ++ 0x7e :: behind) = logPackets checksum behind := by
  have hmissed : ∀ frame ∈ (feed (HdlcDecoder.push checksum) {} front).1,
      (answers logConfigSetMaskOp frame).isNone = true := by
    intro frame hframe
    rw [Option.isNone_iff_eq_none]
    exact List.findSome?_eq_none_iff.mp hnone frame hframe
  have hstate := push_delimiter_default checksum (feed (HdlcDecoder.push checksum) {} front).2
  rw [findSome?_feed_append, hnone, Option.none_or, findSome?_feed_cons] at hsome
  rw [followingLogs, feed_append, feed_cons, hstate, List.dropWhile_append_of_pos hmissed]
  cases hpush : ((feed (HdlcDecoder.push checksum) {} front).2.push checksum 0x7e).1 with
  | none =>
    rw [hpush] at hsome
    exact absurd rfl hsome
  | some frame =>
    rw [hpush] at hsome
    have hanswer : ¬ (answers logConfigSetMaskOp frame).isNone = true := by
      intro h
      rw [Option.isNone_iff_eq_none] at h
      simp [h] at hsome
    rw [Option.toList_some, List.singleton_append, List.dropWhile_cons, if_neg hanswer,
      List.tail_cons, logPackets]

variable {logs : List UInt16} {profiles : List CaptureProfile} {port asked port' : Port}

/-- The last wait of a configuration that ends well. -/
theorem last_wait
    (hrun : (configureQualcommLogs agentBackend checksum logs profiles).run port =
      some (.ok (), port'))
    (hasked : LastRequest checksum logs profiles port asked) :
    ∃ packet, waitLoop agentBackend checksum logConfigSetMaskOp asked.pending {} 0 =
      some (.ok packet, port'.pending) := by
  obtain ⟨ranges, queried, front, group, before, hquery, hentries, hfront, hsend⟩ := hasked
  have hgroup : group ∈ (groupLogCodes (selectCodes agentBackend ranges logs profiles)).entries := by
    rw [hentries]
    exact List.mem_append_right front (List.mem_singleton_self group)
  rw [configureQualcommLogs, Session.run_bind_ok hquery, hentries, Session.each_append,
    Session.run_bind_ok hfront] at hrun
  obtain ⟨_, next, hlast, hend⟩ := Session.run_bind_eq_ok hrun
  obtain ⟨reads, packet, header, data, pending, hreply, hloop, -, -, rfl⟩ :=
    configureGroup_ok hgroup hlast
  obtain ⟨reads', hreply', rfl⟩ := sendDiagPacket_ok hsend
  obtain rfl := WriteOutcome.written.inj (hreply.symm.trans hreply')
  obtain ⟨-, rfl⟩ := Session.run_ok_unique (Session.run_each_nil ..) hend
  exact ⟨packet, hloop⟩

/-- A SET_MASK request is only sent when there is something to select. -/
theorem selects_of_lastRequest (hasked : LastRequest checksum logs profiles port asked) :
    ¬ (logs = [] ∧ profiles = []) := by
  obtain ⟨ranges, queried, front, group, before, -, hentries, -, -⟩ := hasked
  have hgroup : group ∈ (groupLogCodes (selectCodes agentBackend ranges logs profiles)).entries := by
    rw [hentries]
    exact List.mem_append_right front (List.mem_singleton_self group)
  obtain ⟨code, hselected, -⟩ := exists_group_selected (show (group.1, group.2) ∈ _ from hgroup)
  intro h
  obtain ⟨rfl, rfl⟩ := h
  rcases hselected with hlog | ⟨⟨profile, hprofile, -⟩, -⟩
  · cases hlog
  · cases hprofile

/-- A serial run hands over a frame for each log packet behind the response to the last mask
exactly when the read that ends that response brings nothing behind it of such a packet. -/
theorem serial_lossless_iff
    (hrun : (configureQualcommLogs agentBackend checksum logs profiles).run port =
      some (.ok (), port'))
    (hasked : LastRequest checksum logs profiles port asked) :
    (serial checksum clock Consumer.recorder logs profiles port []).2 =
        ((followingLogs checksum (streamed true asked.pending)).mapIdx fun i packet =>
          captureFrame clock (UInt64.ofNat (i + 1)) .qualcomm packet.1 packet.2) ↔
      ∃ earlier front tail rest,
        Handover checksum {} asked.pending earlier front tail rest ∧
          Kept checksum tail (streamed true rest) := by
  obtain ⟨packet, hwait⟩ := last_wait checksum hrun hasked
  have hserial : (serial checksum clock Consumer.recorder logs profiles port []).2 =
      (logPackets checksum (streamed true port'.pending)).mapIdx fun i packet =>
        captureFrame clock (UInt64.ofNat (i + 1)) .qualcomm packet.1 packet.2 := by
    rw [← captured_qualcomm, serial, if_neg (selects_of_lastRequest checksum hasked), hrun]
    rfl
  have hkept {earlier rest : List ReadOutcome} {front tail : List UInt8}
      (h : Handover checksum {} asked.pending earlier front tail rest) :
      port'.pending = rest ∧ followingLogs checksum (streamed true asked.pending) =
        logPackets checksum (tail ++ streamed true rest) := by
    obtain ⟨hleft, hstream⟩ := h.left checksum hwait
    refine ⟨hleft, ?_⟩
    rw [hstream]
    exact followingLogs_eq checksum h.unanswered h.answered
  rw [hserial, mapIdx_captureFrame_inj]
  constructor
  · intro hsame
    obtain ⟨earlier, front, tail, hhandover⟩ := exists_handover checksum hwait
    refine ⟨earlier, front, tail, port'.pending, hhandover, (kept_iff checksum _ _).mpr ?_⟩
    rw [hsame, (hkept hhandover).2]
  · intro h
    obtain ⟨earlier, front, tail, rest, hhandover, hrest⟩ := h
    obtain ⟨rfl, hfollowing⟩ := hkept hhandover
    rw [hfollowing, (kept_iff checksum _ _).mp hrest]

end Run

end Serial

section Example

/-- A modem that sends a log packet behind the response to the mask; what differs is the reads. -/
def loggingReplies (reads : List ReadOutcome) : List (List ReadOutcome) :=
  [frameReads crc16IbmSdlc [idRangesResponse (Vector.replicate 16 0xA00)], reads]

theorem followingLogs_smallLog :
    followingLogs crc16IbmSdlc
        (([maskResponse 0 1, smallLog].map (encodeHdlc crc16IbmSdlc)).flatten) =
      [(0x1001, smallLog)] := by
  have hanswer : ¬ (answers logConfigSetMaskOp (.ok (maskResponse 0 1))).isNone = true := by
    rw [answers_maskResponse]
    simp
  rw [followingLogs, feed_encodeHdlc_packets _ _ (by decide), List.map_cons,
    List.dropWhile_cons, if_neg hanswer]
  rfl

/-- Frames that are all made at one moment. -/
def stoppedClock : Clock := fun _ => (0, 0)

theorem lastRequest_logging (reads : List ReadOutcome) :
    ∃ asked, LastRequest crc16IbmSdlc [0x1001] [] (scriptedPort (loggingReplies reads) [] []) asked ∧
      asked.pending = reads := by
  have hquery := query_scripted agentBackend crc16IbmSdlc (loggingReplies reads)
    (show (loggingReplies reads).getD 0 [] =
      frameReads crc16IbmSdlc [idRangesResponse (Vector.replicate 16 0xA00)] from rfl)
  have hmodem := modem_scripted (loggingReplies reads)
    [encodeHdlc crc16IbmSdlc retrieveIdRangesRequest] []
    (encodeHdlc crc16IbmSdlc (groupPacket (Vector.replicate 16 0xA00) (1, [1])))
  exact ⟨_, ⟨_, _, [], (1, [1]), _, hquery, by decide, rfl, sendDiagPacket_written hmodem⟩, rfl⟩

theorem configure_logging (more : List UInt8) (rest : List ReadOutcome) :
    ∃ port', (configureQualcommLogs agentBackend crc16IbmSdlc [0x1001] []).run
        (scriptedPort (loggingReplies (.ok (encodeHdlc crc16IbmSdlc (maskResponse 0 1) ++ more) ::
          rest)) [] []) = some (.ok (), port') ∧ port'.pending = rest :=
  ⟨_, configure_scripted agentBackend crc16IbmSdlc _ [0x1001] [] 1
    (show _ = [(1, [1])] by decide) (by decide) rfl rfl, rfl⟩

/-- In two reads the response and the log packet both arrive where they are looked for. -/
theorem serial_lossless_split :
    ∃ port, (serial crc16IbmSdlc stoppedClock Consumer.recorder [0x1001] [] port []).2 =
      [captureFrame stoppedClock 1 .qualcomm 0x1001 smallLog] := by
  obtain ⟨port', hrun, -⟩ := configure_logging [] (frameReads crc16IbmSdlc [smallLog])
  obtain ⟨asked, hasked, hreads⟩ := lastRequest_logging
    (.ok (encodeHdlc crc16IbmSdlc (maskResponse 0 1) ++ []) :: frameReads crc16IbmSdlc [smallLog])
  have hstream : streamed true asked.pending =
      ([maskResponse 0 1, smallLog].map (encodeHdlc crc16IbmSdlc)).flatten := by
    rw [hreads, streamed_live, List.append_nil, frameReads, List.map_singleton, streamed_live]
    rfl
  have hkept := handover_filled crc16IbmSdlc (frameReads crc16IbmSdlc [smallLog])
    (maskResponse_ne_nil 0 1) (answers_maskResponse 0 1)
  rw [← hreads] at hkept
  have hlossless := (serial_lossless_iff crc16IbmSdlc stoppedClock hrun hasked).mpr hkept
  rw [hstream, followingLogs_smallLog] at hlossless
  exact ⟨_, hlossless⟩

/-- In one read the log packet is dropped with the rest of the read. -/
theorem serial_loses_packet :
    ∃ port asked port',
      (configureQualcommLogs agentBackend crc16IbmSdlc [0x1001] []).run port =
        some (.ok (), port') ∧
      LastRequest crc16IbmSdlc [0x1001] [] port asked ∧
      (serial crc16IbmSdlc stoppedClock Consumer.recorder [0x1001] [] port []).2 = [] ∧
      (followingLogs crc16IbmSdlc (streamed true asked.pending)).mapIdx (fun i packet =>
        captureFrame stoppedClock (UInt64.ofNat (i + 1)) .qualcomm packet.1 packet.2) ≠ [] := by
  obtain ⟨port', hrun, hpending⟩ := configure_logging (encodeHdlc crc16IbmSdlc smallLog) []
  obtain ⟨asked, hasked, hreads⟩ := lastRequest_logging
    [.ok (encodeHdlc crc16IbmSdlc (maskResponse 0 1) ++ encodeHdlc crc16IbmSdlc smallLog)]
  have hstream : streamed true asked.pending =
      ([maskResponse 0 1, smallLog].map (encodeHdlc crc16IbmSdlc)).flatten := by
    rw [hreads, streamed_live]
    simp [streamed]
  refine ⟨_, asked, port', hrun, hasked, ?_, ?_⟩
  · rw [serial, if_neg (by simp), hrun]
    change (captureLoop true _ _ port'.pending _ _).2 = []
    rw [hpending]
    rfl
  · rw [hstream, followingLogs_smallLog]
    simp

end Example

end SixGrok.Agent
