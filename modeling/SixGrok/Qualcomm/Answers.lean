import SixGrok.Qualcomm.Commands
import SixGrok.Qualcomm.Wait

namespace SixGrok.Qualcomm

open SixGrok.Framework

section Responses

/-- The 32-bit word at an offset of a packet that is long enough. -/
def wordAt (packet : List UInt8) (offset : Nat) : UInt32 := u32FromLe ((packet.drop offset).take 4)

def statusOf (packet : List UInt8) : UInt32 := wordAt packet 8

variable {operation : UInt32} {packet : List UInt8}

theorem readU32_ok {data : List UInt8} {offset : Nat} (inside : offset + 4 ≤ data.length) :
    readU32 data offset = .ok (wordAt data offset) := by
  rw [readU32, if_pos inside]
  rfl

theorem parseLogConfigHeader_isResponse (h : IsResponse operation packet) :
    parseLogConfigHeader packet =
      .ok ({ operation, status := statusOf packet }, packet.drop 12) := by
  obtain ⟨hlong, hhead, rfl⟩ := h
  have hheader : ¬ (packet.length < 12 ∨ packet.head? ≠ some diagLogConfigF) :=
    not_or.mpr ⟨Nat.not_lt.mpr hlong, not_not.mpr hhead⟩
  rw [parseLogConfigHeader, if_neg hheader, readU32_ok (by omega), readU32_ok hlong]
  rfl

/-- The last items of the sixteen equipment IDs, behind the header. -/
def rangesOf (packet : List UInt8) : Vector UInt32 16 :=
  Vector.ofFn fun equip : Fin 16 => wordAt packet (12 + equip * 4)

theorem parseIdRangesResponse_isResponse (h : IsResponse logConfigRetrieveIdRangesOp packet) :
    parseIdRangesResponse packet =
      if statusOf packet ≠ 0 then .error (.remoteStatus (statusOf packet))
      else if packet.length < 76 then .error .truncatedResponse
      else .ok (rangesOf packet) := by
  have hlength : (packet.drop 12).length < 16 * 4 ↔ packet.length < 76 := by
    rw [List.length_drop]
    omega
  rw [parseIdRangesResponse, parseLogConfigHeader_isResponse h]
  simp only [bind, Except.bind, ne_eq, not_true_eq_false, if_false, hlength]
  by_cases hstatus : statusOf packet = 0
  · by_cases hshort : packet.length < 76
    · simp only [hstatus, not_true_eq_false, if_false, if_pos hshort]
      rfl
    · have hread (equip : Fin 16) : readU32 (packet.drop 12) (equip * 4) =
          pure (wordAt packet (12 + equip * 4)) := by
        rw [readU32_ok (by rw [List.length_drop]; omega), wordAt, wordAt, List.drop_drop]
        rfl
      simp only [hstatus, not_true_eq_false, if_false, if_neg hshort]
      rw [funext hread, Vector.ofFnM_pure]
      rfl
  · simp only [if_pos hstatus]
    rfl

end Responses

section MaxCode

variable {equip : Nat} {lastItem : UInt32}

theorem maxCode_toNat (small : equip < 16) (lastItem : UInt32) :
    (maxCode equip lastItem).toNat = equip * 4096 + lastItem.toNat % 4096 := by
  have hequip : (UInt32.ofNat equip).toNat = equip := by
    rw [UInt32.toNat_ofNat']
    omega
  have hshift : equip <<< 12 = equip * 4096 := Nat.shiftLeft_eq _ 12
  have hmask : lastItem.toNat &&& 4095 = lastItem.toNat % 4096 :=
    Nat.and_two_pow_sub_one_eq_mod _ 12
  have hor := Nat.shiftLeft_add_eq_or_of_lt
    (show lastItem.toNat % 4096 < 2 ^ 12 by omega) equip
  rw [maxCode, UInt32.toNat_or, UInt32.toNat_shiftLeft, UInt32.toNat_and, hequip]
  change equip <<< 12 % 2 ^ 32 ||| lastItem.toNat &&& 4095 = _
  rw [hmask, Nat.mod_eq_of_lt (by omega), ← hor, hshift]

theorem code_le_maxCode {code : UInt16} (hcode : (splitLogCode code).1.toNat = equip)
    (lastItem : UInt32) :
    code.toNat ≤ (maxCode equip lastItem).toNat ↔
      (splitLogCode code).2.toNat ≤ lastItem.toNat % 4096 := by
  have hequip := splitLogCode_equip code
  have hitem := splitLogCode_item code
  rw [maxCode_toNat (hcode ▸ splitLogCode_equip_lt code), hitem]
  omega

theorem inRange_equip {ranges : Vector UInt32 16} {code : UInt16} (small : equip < 16)
    (hcode : (splitLogCode code).1.toNat = equip) :
    InRange ranges code ↔ (splitLogCode code).2.toNat ≤ ranges[equip].toNat := by
  subst hcode
  rw [InRange, UInt32.le_iff_toNat_le, UInt16.toNat_toUInt32, lastItemOf,
    Vector.getElem?_eq_getElem small]
  rfl

/-- The printed code bounds the codes of an equipment ID unless the cut to twelve bits loses some
of them. -/
theorem maxCode_bounds_iff (ranges : Vector UInt32 16) (small : equip < 16) :
    (∀ code, (splitLogCode code).1.toNat = equip →
        (InRange ranges code ↔ code.toNat ≤ (maxCode equip ranges[equip]).toNat)) ↔
      ranges[equip].toNat < 4096 ∨ ranges[equip].toNat % 4096 = 4095 := by
  constructor
  · intro h
    have hjoin : (joinLogCode (UInt8.ofNat equip) 0xfff).toNat = equip * 4096 + 4095 := by
      have hequip : (UInt8.ofNat equip).toNat = equip := by
        rw [UInt8.toNat_ofNat']
        omega
      rw [joinLogCode_toNat _ _ (by omega) (by decide), hequip]
      rfl
    have hsplit := splitLogCode_equip (joinLogCode (UInt8.ofNat equip) 0xfff)
    have hitem := splitLogCode_item (joinLogCode (UInt8.ofNat equip) 0xfff)
    have hcode : (splitLogCode (joinLogCode (UInt8.ofNat equip) 0xfff)).1.toNat = equip := by omega
    have hlast := h _ hcode
    rw [inRange_equip small hcode, code_le_maxCode hcode] at hlast
    omega
  · intro h code hcode
    have hitem := splitLogCode_item code
    rw [inRange_equip small hcode, code_le_maxCode hcode]
    omega

end MaxCode

section Outcomes

variable {π : Type} (B : Backend π) (checksum : List UInt8 → UInt16)

/-- The first valid frame that is a response, in what comes in before a wait gives up. -/
def firstResponse (operation : UInt32) (reads : List ReadOutcome) : Option (List UInt8) :=
  (validFrames checksum (attended B reads 0)).find? fun frame => IsResponse operation frame

variable {B checksum}

theorem isResponse_of_first {operation : UInt32} {reads : List ReadOutcome} {packet : List UInt8}
    (h : firstResponse B checksum operation reads = some packet) : IsResponse operation packet := by
  simpa using List.find?_some h

theorem wait_finds_iff {operation : UInt32} {port : Port} {packet : List UInt8} :
    (∃ port', (waitForLogConfigResponse B checksum operation).run port =
      some (.ok packet, port')) ↔
        firstResponse B checksum operation port.pending = some packet := by
  rw [run_wait, firstResponse, ← firstAnswer_eq]
  constructor
  · intro h
    obtain ⟨rest, hloop⟩ := h
    exact waitLoop_ok hloop
  · exact waitLoop_finds

variable (B checksum) in
theorem firstResponse_frameReads (operation : UInt32) {packets : List (List UInt8)}
    (nonempty : ∀ p ∈ packets, p ≠ []) :
    firstResponse B checksum operation (frameReads checksum packets) =
      packets.find? fun packet => IsResponse operation packet := by
  rw [firstResponse, attended_frameReads, validFrames, ← feed_eq_decodeBatch,
    feed_encodeHdlc_packets _ _ nonempty, List.filterMap_map]
  exact congrArg _ (List.filterMap_some)

section Exchange

variable {α : Type} {packet : List UInt8} {operation : UInt32} {port : Port}
  {reads : List ReadOutcome} {rest : List UInt8 → Session Port Failure α}
  {outcome : List UInt8 → Except Failure α}

/-- A packet that goes out, and what comes of the first response to it. -/
theorem exchange_first
    (hmodem : port.modem (port.sent ++ [encodeHdlc checksum packet]) = .written reads)
    (hrest : ∀ response port', (rest response).run port' = some (outcome response, port'))
    {response : List UInt8}
    (hfirst : firstResponse B checksum operation (port.pending ++ reads) = some response) :
    ∃ port', (sendDiagPacket B checksum packet >>= fun _ =>
      waitForLogConfigResponse B checksum operation >>= rest).run port =
        some (outcome response, port') := by
  let asked : Port := { port with sent := port.sent ++ [encodeHdlc checksum packet],
                                  pending := port.pending ++ reads }
  obtain ⟨waited, hwait⟩ : ∃ waited, (waitForLogConfigResponse B checksum operation).run asked =
      some (.ok response, waited) := wait_finds_iff.mpr hfirst
  refine ⟨waited, ?_⟩
  rw [Session.run_bind_ok (sendDiagPacket_written hmodem), Session.run_bind_ok hwait, hrest]

/-- Every end but the one of a wait comes from the first response. -/
theorem exchange_iff
    (hmodem : port.modem (port.sent ++ [encodeHdlc checksum packet]) = .written reads)
    (hrest : ∀ response port', (rest response).run port' = some (outcome response, port'))
    {result : Except Failure α}
    (answered : ∀ failure, result = .error failure → ∃ err, failure = .control err) :
    (∃ port', (sendDiagPacket B checksum packet >>= fun _ =>
      waitForLogConfigResponse B checksum operation >>= rest).run port = some (result, port')) ↔
      ∃ response, firstResponse B checksum operation (port.pending ++ reads) = some response ∧
        outcome response = result := by
  constructor
  · intro h
    obtain ⟨port', hrun⟩ := h
    rw [Session.run_bind_ok (sendDiagPacket_written hmodem)] at hrun
    rcases Session.run_bind_cases hrun with
      ⟨failure, hwait, hfailure⟩ | ⟨response, waited, hwait, hend⟩
    · obtain ⟨err, rfl⟩ := answered failure hfailure
      have hsilent := waitForLogConfigResponse_sent B checksum operation _ _ rfl _ _ hwait
      rcases hsilent with hsilent | ⟨_, hsilent⟩ <;> cases hsilent
    · rw [hrest] at hend
      exact ⟨response, wait_finds_iff.mp ⟨waited, hwait⟩, (Prod.mk.inj (Option.some.inj hend)).1⟩
  · intro h
    obtain ⟨response, hfirst, houtcome⟩ := h
    obtain ⟨port', hrun⟩ := exchange_first hmodem hrest hfirst
    exact ⟨port', houtcome ▸ hrun⟩

end Exchange

section Probing

theorem parseIdRangesResponse_ok_iff {response : List UInt8}
    (h : IsResponse logConfigRetrieveIdRangesOp response) (ranges : Vector UInt32 16) :
    parseIdRangesResponse response = .ok ranges ↔
      statusOf response = 0 ∧ 76 ≤ response.length ∧ rangesOf response = ranges := by
  rw [parseIdRangesResponse_isResponse h]
  by_cases hstatus : statusOf response = 0
  · by_cases hshort : response.length < 76
    · simp [hstatus, hshort, Nat.not_le.mpr hshort]
    · simp [hstatus, hshort, Nat.le_of_not_lt hshort]
  · simp [hstatus]

theorem parseIdRangesResponse_status_iff {response : List UInt8}
    (h : IsResponse logConfigRetrieveIdRangesOp response) (status : UInt32) :
    parseIdRangesResponse response = .error (.remoteStatus status) ↔
      status ≠ 0 ∧ statusOf response = status := by
  rw [parseIdRangesResponse_isResponse h]
  by_cases hstatus : statusOf response = 0
  · rw [hstatus]
    by_cases hshort : response.length < 76
    · simpa [hshort] using fun hne h => hne h.symm
    · simpa [hshort] using fun hne h => hne h.symm
  · simp only [if_pos hstatus, Except.error.injEq, ControlError.remoteStatus.injEq]
    constructor
    · rintro rfl
      exact ⟨hstatus, rfl⟩
    · exact And.right

theorem mapError_control {α : Type} {result : Except ControlError α} {err : ControlError} :
    result.mapError Failure.control = .error (.control err) ↔ result = .error err :=
  mapError_eq_error fun _ _ => Failure.control.inj

variable {port : Port} {reads : List ReadOutcome}
  (hmodem : port.modem (port.sent ++ [encodeHdlc checksum retrieveIdRangesRequest]) = .written reads)

include hmodem in
theorem queryLogRanges_iff {result : Except Failure (Vector UInt32 16)}
    (answered : ∀ failure, result = .error failure → ∃ err, failure = .control err) :
    (∃ port', (queryLogRanges B checksum).run port = some (result, port')) ↔
      ∃ response,
        firstResponse B checksum logConfigRetrieveIdRangesOp (port.pending ++ reads) =
            some response ∧
          (parseIdRangesResponse response).mapError Failure.control = result :=
  exchange_iff hmodem (fun _ => Session.run_lift _ _) answered

include hmodem in
theorem runProbe_ok_iff (lines : List String) :
    (∃ port', (Command.probe.session B checksum).run port = some (.ok lines, port')) ↔
      ∃ response, firstResponse B checksum logConfigRetrieveIdRangesOp (port.pending ++ reads) =
          some response ∧
        statusOf response = 0 ∧ 76 ≤ response.length ∧
        lines = "equipment_id,last_item,max_log_code" ::
          (rangesOf response).toList.mapIdx probeLine := by
  have hanswered (ranges : Vector UInt32 16) (failure : Failure)
      (h : .ok ranges = Except.error failure) :
      ∃ err, failure = .control err := nomatch h
  have hquery (ranges : Vector UInt32 16) := queryLogRanges_iff (B := B) hmodem (hanswered ranges)
  simp only [Command.session, Session.run_mapError_eq_ok]
  constructor
  · intro h
    obtain ⟨port', hrun⟩ := h
    obtain ⟨ranges, queried, hqueried, hlines⟩ := Session.run_bind_eq_ok hrun
    obtain ⟨response, hfirst, hparse⟩ := (hquery ranges).mp ⟨queried, hqueried⟩
    obtain ⟨hstatus, hlong, rfl⟩ :=
      (parseIdRangesResponse_ok_iff (isResponse_of_first hfirst) ranges).mp (mapError_eq_ok.mp hparse)
    exact ⟨response, hfirst, hstatus, hlong, (Session.run_pure_eq_ok hlines).1.symm⟩
  · intro h
    obtain ⟨response, hfirst, hstatus, hlong, rfl⟩ := h
    have hparse := (parseIdRangesResponse_ok_iff (isResponse_of_first hfirst) _).mpr
      ⟨hstatus, hlong, rfl⟩
    obtain ⟨queried, hqueried⟩ := (hquery (rangesOf response)).mpr
      ⟨response, hfirst, mapError_eq_ok.mpr hparse⟩
    exact ⟨queried, Session.run_bind_ok hqueried⟩

include hmodem in
theorem runProbe_refused_iff (status : UInt32) :
    (∃ port', (Command.probe.session B checksum).run port =
        some (.error (.control (.control (.remoteStatus status))), port')) ↔
      status ≠ 0 ∧ ∃ response,
        firstResponse B checksum logConfigRetrieveIdRangesOp (port.pending ++ reads) =
            some response ∧
          statusOf response = status := by
  have hrefused (failure : Failure) (h : Except.error (.control (.remoteStatus status)) =
      (.error failure : Except Failure (Vector UInt32 16))) : ∃ err, failure = .control err :=
    ⟨_, (Except.error.inj h).symm⟩
  simp only [Command.session, Session.run_mapError_eq_error, CommandFailure.control.injEq,
    exists_eq_right, runProbe, Session.run_map_eq_error]
  refine (queryLogRanges_iff hmodem hrefused).trans ?_
  constructor
  · intro h
    obtain ⟨response, hfirst, hparse⟩ := h
    obtain ⟨hne, hstatus⟩ :=
      (parseIdRangesResponse_status_iff (isResponse_of_first hfirst) status).mp
        (mapError_control.mp hparse)
    exact ⟨hne, response, hfirst, hstatus⟩
  · intro h
    obtain ⟨hne, response, hfirst, hstatus⟩ := h
    exact ⟨response, hfirst, mapError_control.mpr
      ((parseIdRangesResponse_status_iff (isResponse_of_first hfirst) status).mpr ⟨hne, hstatus⟩)⟩

include hmodem in
/-- What a probe says of a modem that takes the range query: it prints the ranges of the first
response when that has status 0 and room for all sixteen, and refuses with the status of that
response when it is not 0, whatever else the modem sends and however the reads cut it. The printed
code bounds the codes that a configuration takes for the equipment ID just when the cut to twelve
bits makes no range smaller than they need. -/
theorem probe_reports :
    (∀ lines, (∃ port', (Command.probe.session B checksum).run port = some (.ok lines, port')) ↔
      ∃ response, firstResponse B checksum logConfigRetrieveIdRangesOp (port.pending ++ reads) =
          some response ∧
        statusOf response = 0 ∧ 76 ≤ response.length ∧
        lines = "equipment_id,last_item,max_log_code" ::
          (rangesOf response).toList.mapIdx probeLine) ∧
    (∀ status, (∃ port', (Command.probe.session B checksum).run port =
        some (.error (.control (.control (.remoteStatus status))), port')) ↔
      status ≠ 0 ∧ ∃ response,
        firstResponse B checksum logConfigRetrieveIdRangesOp (port.pending ++ reads) =
            some response ∧
          statusOf response = status) ∧
    ∀ (ranges : Vector UInt32 16) (equip : Fin 16),
      (∀ code, (splitLogCode code).1.toNat = equip →
        (InRange ranges code ↔ code.toNat ≤ (maxCode equip ranges[equip]).toNat)) ↔
      ranges[equip].toNat < 4096 ∨ ranges[equip].toNat % 4096 = 4095 :=
  ⟨runProbe_ok_iff hmodem, runProbe_refused_iff hmodem,
    fun ranges equip => maxCode_bounds_iff ranges equip.isLt⟩

/-- A port with a late response to a mask, whose modem answers with its ranges. -/
def latePort : Port :=
  scriptedPort [frameReads crc16IbmSdlc [idRangesResponse (Vector.replicate 16 0x1A00)]] []
    (frameReads crc16IbmSdlc [maskResponse 0 1])

theorem probe_reports_late :
    ∃ port', (Command.probe.session agentBackend crc16IbmSdlc).run latePort =
      some (.ok ("equipment_id,last_item,max_log_code" ::
        (Vector.replicate 16 0x1A00).toList.mapIdx probeLine), port') := by
  have hmodem : latePort.modem
      (latePort.sent ++ [encodeHdlc crc16IbmSdlc retrieveIdRangesRequest]) =
        .written (frameReads crc16IbmSdlc [idRangesResponse (Vector.replicate 16 0x1A00)]) := rfl
  have hnonempty : ∀ packet ∈ [maskResponse 0 1, idRangesResponse (Vector.replicate 16 0x1A00)],
      packet ≠ [] := by decide
  have hfirst :=
    firstResponse_frameReads agentBackend crc16IbmSdlc logConfigRetrieveIdRangesOp hnonempty
  refine ((probe_reports hmodem).1 _).mpr ⟨_, hfirst, ?_, ?_, ?_⟩
  · decide
  · decide
  · decide

end Probing

section Disabling

variable {port : Port} {reads : List ReadOutcome}
  (hmodem : port.modem (port.sent ++ [encodeHdlc checksum disableLoggingRequest]) = .written reads)

include hmodem in
theorem disableHeader_ok_iff (header : LogConfigHeader) :
    (∃ port', (disableHeader B checksum).run port = some (.ok header, port')) ↔
      ∃ response, firstResponse B checksum logConfigDisableOp (port.pending ++ reads) =
          some response ∧
        { operation := logConfigDisableOp, status := statusOf response } = header := by
  have hrest (response : List UInt8) (port' : Port) :
      (Session.lift Failure.control (parseLogConfigHeader response) >>= fun parsed =>
        pure parsed.1).run port' =
          some (((parseLogConfigHeader response).map Prod.fst).mapError Failure.control, port') := by
    cases parseLogConfigHeader response <;> rfl
  have hok : ∀ failure, Except.ok (ε := Failure) header = .error failure →
      ∃ err, failure = .control err := fun _ h => nomatch h
  refine (exchange_iff hmodem hrest hok).trans ?_
  apply exists_congr
  intro response
  apply and_congr_right
  intro hfirst
  rw [parseLogConfigHeader_isResponse (isResponse_of_first hfirst)]
  exact ⟨Except.ok.inj, congrArg Except.ok⟩

/-- A command that disables the logging ends well or is rejected by what it has read of the header;
every other failure is one of the exchange. -/
theorem runDisable_iff {result : Except CommandFailure Unit}
    (decided : ∀ failure, result ≠ .error (.control failure)) :
    (∃ port', (runDisable B checksum).run port = some (result, port')) ↔
      ∃ header, (∃ port', (disableHeader B checksum).run port = some (.ok header, port')) ∧
        (if header.status ≠ 0 then .error (.disableRejected header.status) else .ok ()) = result := by
  have hend (header : LogConfigHeader) (port' : Port) :
      (if header.status ≠ 0 then Session.fail (.disableRejected header.status) else pure () :
        Session Port CommandFailure Unit).run port' =
      some (if header.status ≠ 0 then .error (.disableRejected header.status) else .ok (), port') := by
    split_ifs <;> rfl
  constructor
  · intro h
    obtain ⟨port', hrun⟩ := h
    rcases Session.run_bind_cases hrun with ⟨_, hfailed, rfl⟩ | ⟨header, waited, hheader, hrest⟩
    · obtain ⟨failure, -, rfl⟩ := Session.run_mapError_eq_error.mp hfailed
      exact absurd rfl (decided failure)
    · rw [hend] at hrest
      exact ⟨header, ⟨waited, Session.run_mapError_eq_ok.mp hheader⟩,
        (Prod.mk.inj (Option.some.inj hrest)).1⟩
  · intro h
    obtain ⟨header, ⟨waited, hheader⟩, rfl⟩ := h
    refine ⟨waited, ?_⟩
    have hmapped : (Session.mapError CommandFailure.control (disableHeader B checksum)).run port =
        some (.ok header, waited) := Session.run_mapError_eq_ok.mpr hheader
    exact (Session.run_bind_ok hmapped).trans (hend header waited)

include hmodem in
/-- What becomes of disabling at a modem that takes the request: it is done just when the first
response has status 0, and rejected with the status of that response when it is not 0. -/
theorem disable_reports :
    ((∃ port', (Command.disable.session B checksum).run port = some (.ok [], port')) ↔
      ∃ response, firstResponse B checksum logConfigDisableOp (port.pending ++ reads) =
          some response ∧
        statusOf response = 0) ∧
    ∀ status, (∃ port', (Command.disable.session B checksum).run port =
        some (.error (.disableRejected status), port')) ↔
      status ≠ 0 ∧ ∃ response,
        firstResponse B checksum logConfigDisableOp (port.pending ++ reads) = some response ∧
          statusOf response = status := by
  constructor
  · have hlines : (∃ port', (Command.disable.session B checksum).run port = some (.ok [], port')) ↔
        ∃ port', (runDisable B checksum).run port = some (.ok (), port') := by
      apply exists_congr
      intro port'
      constructor
      · intro h
        obtain ⟨_, disabled, hrun, hpure⟩ := Session.run_bind_eq_ok h
        rw [← (Session.run_pure_eq_ok hpure).2]
        exact hrun
      · exact Session.run_bind_ok
    have hdone (failure : Failure) :
        (.ok () : Except CommandFailure Unit) ≠ .error (.control failure) := by
      intro h
      cases h
    rw [hlines, runDisable_iff hdone]
    simp only [disableHeader_ok_iff hmodem]
    constructor
    · rintro ⟨_, ⟨response, hfirst, rfl⟩, hok⟩
      refine ⟨response, hfirst, ?_⟩
      by_contra hne
      rw [if_pos hne] at hok
      cases hok
    · rintro ⟨response, hfirst, hstatus⟩
      exact ⟨_, ⟨response, hfirst, rfl⟩, if_neg (not_not.mpr hstatus)⟩
  · intro status
    have hrefused (failure : Failure) :
        (.error (.disableRejected status) : Except CommandFailure Unit) ≠
          .error (.control failure) := by
      intro h
      cases h
    simp only [Command.session, Session.run_map_eq_error]
    rw [runDisable_iff hrefused]
    simp only [disableHeader_ok_iff hmodem]
    constructor
    · rintro ⟨_, ⟨response, hfirst, rfl⟩, hrejected⟩
      by_cases hne : statusOf response ≠ 0
      · rw [if_pos hne] at hrejected
        obtain rfl : statusOf response = status := CommandFailure.disableRejected.inj
          (Except.error.inj hrejected)
        exact ⟨hne, response, hfirst, rfl⟩
      · rw [if_neg hne] at hrejected
        cases hrejected
    · rintro ⟨hne, response, hfirst, rfl⟩
      exact ⟨_, ⟨response, hfirst, rfl⟩, if_pos hne⟩

/-- A modem that rejects the request, behind a packet of its log. -/
def rejectingPort : Port :=
  scriptedPort [frameReads crc16IbmSdlc
    [[0x10, 0x00, 0x08, 0x00], logConfigResponse logConfigDisableOp 3 []]] [] []

theorem disable_reports_rejected :
    ∃ port', (Command.disable.session agentBackend crc16IbmSdlc).run rejectingPort =
      some (.error (.disableRejected 3), port') := by
  have hmodem : rejectingPort.modem
      (rejectingPort.sent ++ [encodeHdlc crc16IbmSdlc disableLoggingRequest]) =
        .written (frameReads crc16IbmSdlc
          [[0x10, 0x00, 0x08, 0x00], logConfigResponse logConfigDisableOp 3 []]) := rfl
  have hnonempty : ∀ packet ∈ [[0x10, 0x00, 0x08, 0x00], logConfigResponse logConfigDisableOp 3 []],
      packet ≠ [] := by decide
  have hfirst := firstResponse_frameReads agentBackend crc16IbmSdlc logConfigDisableOp hnonempty
  exact ((disable_reports hmodem).2 3).mpr ⟨by decide, _, hfirst, by decide⟩

end Disabling

end Outcomes

end SixGrok.Qualcomm
