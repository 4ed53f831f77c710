import Mathlib.Data.List.TakeWhile
import SixGrok.Qualcomm.Sent

namespace SixGrok.Qualcomm

open SixGrok.Framework

section AckModem

variable {π : Type} (B : Backend π) (checksum : List UInt8 → UInt16) (ranges : Vector UInt32 16)

/-- A modem that answers the first packet with its ranges and every later one with a
SET_MASK response of status 0. -/
def ackModem (sent : List (List UInt8)) : WriteOutcome :=
  .written [.ok (encodeHdlc checksum
    (if sent.length = 1 then idRangesResponse ranges else logConfigResponse logConfigSetMaskOp 0 []))]

def ackPort : Port where
  modem := ackModem checksum ranges

/-- One packet, and a wait that passes over other packets and finds the answer. -/
theorem exchange_answered {port : Port} {request response : List UInt8} {operation : UInt32}
    {reads rest : List ReadOutcome} {others : List (List UInt8)} {more : List UInt8}
    (hmodem : port.modem (port.sent ++ [encodeHdlc checksum request]) = .written reads)
    (hnonempty : ∀ p ∈ others, p ≠ [])
    (hothers : ∀ p ∈ others, answers operation (.ok p) = none)
    (hreads : port.pending ++ reads =
      frameReads checksum others ++ .ok (encodeHdlc checksum response ++ more) :: rest)
    (nonempty : response ≠ []) (hanswers : answers operation (.ok response) = some response) :
    ∃ asked, (sendDiagPacket B checksum request).run port = some (.ok (), asked) ∧
      (waitForLogConfigResponse B checksum operation).run asked =
        some (.ok response,
          { port with sent := port.sent ++ [encodeHdlc checksum request], pending := rest }) := by
  refine ⟨_, sendDiagPacket_written hmodem, ?_⟩
  rw [Session.run, waitForLogConfigResponse, hreads, waitLoop_passes hnonempty hothers,
    waitLoop_frame nonempty hanswers]
  rfl

theorem answers_idRangesResponse :
    answers logConfigRetrieveIdRangesOp (.ok (idRangesResponse ranges)) =
      some (idRangesResponse ranges) :=
  answers_header (parseLogConfigHeader_response ..) rfl

theorem answers_setMask (status : UInt32) (data : List UInt8) :
    answers logConfigSetMaskOp (.ok (logConfigResponse logConfigSetMaskOp status data)) =
      some (logConfigResponse logConfigSetMaskOp status data) :=
  answers_header (parseLogConfigHeader_response ..) rfl

theorem ackPort_obliging : Obliging B checksum ranges (ackPort checksum ranges) := by
  let ready : Port → Prop := fun port =>
    port.modem = ackModem checksum ranges ∧ port.sent ≠ [] ∧ port.pending = []
  let port := ackPort checksum ranges
  have hreply : port.modem (port.sent ++ [encodeHdlc checksum retrieveIdRangesRequest]) =
      .written [.ok (encodeHdlc checksum (idRangesResponse ranges))] := rfl
  have hreads : port.pending ++ [.ok (encodeHdlc checksum (idRangesResponse ranges))] =
      [.ok (encodeHdlc checksum (idRangesResponse ranges) ++ [])] := by
    rw [List.append_nil]
    rfl
  obtain ⟨asked, hsend, hwait⟩ := exchange_answered B checksum hreply
    (List.forall_mem_nil _) (List.forall_mem_nil _) hreads
    (logConfigResponse_ne_nil _ _ _) (answers_idRangesResponse ranges)
  refine ⟨ready, { port with sent := [encodeHdlc checksum retrieveIdRangesRequest] },
    queryLogRanges_answered hsend hwait (parseIdRangesResponse_response ranges),
    ⟨rfl, by simp, rfl⟩, ?_⟩
  intro port hport equip items request _
  obtain ⟨hmodem, hsent, hpending⟩ := hport
  have hlater : (port.sent ++ [encodeHdlc checksum request]).length ≠ 1 := by
    have hpos : 0 < port.sent.length := List.length_pos_iff.mpr hsent
    rw [List.length_append, List.length_singleton]
    omega
  have hreply : port.modem (port.sent ++ [encodeHdlc checksum request]) =
      .written [.ok (encodeHdlc checksum (logConfigResponse logConfigSetMaskOp 0 []))] := by
    rw [hmodem, ackModem, if_neg hlater]
  have hreads : port.pending ++ [.ok (encodeHdlc checksum
      (logConfigResponse logConfigSetMaskOp 0 []))] =
        [.ok (encodeHdlc checksum (logConfigResponse logConfigSetMaskOp 0 []) ++ [])] := by
    rw [hpending, List.nil_append, List.append_nil]
  obtain ⟨asked, hsend, hwait⟩ := exchange_answered B checksum hreply
    (List.forall_mem_nil _) (List.forall_mem_nil _) hreads
    (logConfigResponse_ne_nil _ _ _) (answers_setMask 0 [])
  exact ⟨asked, _, _, [], _, hsend, hwait, parseLogConfigHeader_response .., rfl,
    hmodem, by simp, rfl⟩

end AckModem

section Install

variable {π : Type} {B : Backend π} {checksum : List UInt8 → UInt16} {ranges : Vector UInt32 16}
  {explicit : List UInt16} {profiles : List π}

variable (explicit profiles) in
/-- The run of the whole configuration against a modem that does its part. -/
theorem run_configure {port : Port} (obliging : Obliging B checksum ranges port) :
    ∃ result port', (configureQualcommLogs B checksum explicit profiles).run port =
        some (result, port') ∧
      port'.sent = port.sent ++ encodeHdlc checksum retrieveIdRangesRequest ::
        ((groupLogCodes (selectCodes B ranges explicit profiles)).entries.takeWhile
          (fun group => Accepted ranges explicit group)).map
            (fun group => encodeHdlc checksum (groupPacket ranges group)) ∧
      ((result = .ok () ∧ ∀ code ∈ explicit, InRange ranges code) ∨
        (∃ code equip lastItem, result = .error (.explicitOutOfRange code equip lastItem)) ∧
          ¬ ∀ code ∈ explicit, InRange ranges code) := by
  obtain ⟨ready, queried, hquery, hready, acks⟩ := obliging
  obtain ⟨result, port', hrun, hsent, hresult⟩ := run_groups explicit acks
    (groupLogCodes (selectCodes B ranges explicit profiles)).entries
    (fun group hgroup => setMaskRequest_group hgroup) queried hready
  have hqueried : queried.sent = port.sent ++ [encodeHdlc checksum retrieveIdRangesRequest] :=
    queryLogRanges_sent B checksum port.sent port rfl _ queried hquery
  refine ⟨result, port', ?_, ?_, ?_⟩
  · rw [configureQualcommLogs, Session.run_bind_ok hquery, hrun]
  · rw [hsent, hqueried, List.append_assoc, List.singleton_append]
  · rcases hresult with ⟨hok, hall⟩ | ⟨group, hgroup, code, hnot, herr⟩
    · exact Or.inl ⟨hok, (all_accepted_iff B ranges explicit profiles).mp hall⟩
    · refine Or.inr ⟨⟨code, _, _, herr⟩, fun hrange => hnot ?_⟩
      exact (all_accepted_iff B ranges explicit profiles).mpr hrange _ hgroup

theorem maskEquip_groupPacket (group : UInt8 × List UInt16) :
    maskEquip (groupPacket ranges group) = group.1.toUInt32 := maskEquip_requestPacket ..

theorem groupPackets_ascending :
    (((groupLogCodes (selectCodes B ranges explicit profiles)).entries.map
      (groupPacket ranges)).map maskEquip).Pairwise (· < ·) := by
  have hkeys := groupLogCodes_pairwise (selectCodes B ranges explicit profiles)
  rw [List.pairwise_map] at hkeys
  rw [List.map_map, List.pairwise_map]
  apply hkeys.imp
  intro first second hlt
  rw [Function.comp_apply, Function.comp_apply, maskEquip_groupPacket, maskEquip_groupPacket,
    UInt32.lt_iff_toNat_lt, UInt8.toNat_toUInt32, UInt8.toNat_toUInt32]
  exact UInt8.lt_iff_toNat_lt.mp hlt

theorem mem_groupPackets_equip (equip : UInt32) :
    equip ∈ ((groupLogCodes (selectCodes B ranges explicit profiles)).entries.map
        (groupPacket ranges)).map maskEquip ↔
      ∃ code, Selected B ranges explicit profiles code ∧
        (splitLogCode code).1.toUInt32 = equip := by
  rw [List.map_map, List.mem_map]
  constructor
  · intro h
    obtain ⟨⟨key, items⟩, hgroup, rfl⟩ := h
    obtain ⟨code, hselected, hequip⟩ := exists_group_selected hgroup
    refine ⟨code, hselected, ?_⟩
    rw [Function.comp_apply, maskEquip_groupPacket, hequip]
  · intro h
    obtain ⟨code, hselected, rfl⟩ := h
    obtain ⟨items, hgroup⟩ := exists_selected_group hselected
    exact ⟨_, hgroup, maskEquip_groupPacket _⟩

theorem maskHas_groupPackets (hrange : ∀ code ∈ explicit, InRange ranges code) (code : UInt16) :
    (∃ request ∈ (groupLogCodes (selectCodes B ranges explicit profiles)).entries.map
        (groupPacket ranges), maskHas request code) ↔
      Selected B ranges explicit profiles code := by
  have hall := (all_accepted_iff B ranges explicit profiles).mpr hrange
  constructor
  · intro h
    obtain ⟨request, hrequest, hhas⟩ := h
    obtain ⟨⟨equip, items⟩, hgroup, rfl⟩ := List.mem_map.mp hrequest
    have hitems := accepted_items hgroup (hall _ hgroup)
    obtain ⟨hequip, hitem⟩ := (maskHas_requestPacket _ _ _ hitems code).mp hhas
    obtain ⟨other, hselected, hsplit⟩ := (mem_items_iff hgroup _).mp hitem
    have hcode : splitLogCode other = splitLogCode code := by
      rw [hsplit, show equip = (splitLogCode code).1 from hequip]
    rwa [← splitLogCode_injective hcode]
  · intro hselected
    obtain ⟨items, hgroup⟩ := exists_selected_group hselected
    have hitems := accepted_items hgroup (hall _ hgroup)
    refine ⟨_, List.mem_map_of_mem hgroup, (maskHas_requestPacket _ _ _ hitems code).mpr ⟨rfl, ?_⟩⟩
    exact (mem_items_iff hgroup _).mpr ⟨code, hselected, rfl⟩

theorem takeWhile_accepted (hrange : ∀ code ∈ explicit, InRange ranges code) :
    (groupLogCodes (selectCodes B ranges explicit profiles)).entries.takeWhile
        (fun group => Accepted ranges explicit group) =
      (groupLogCodes (selectCodes B ranges explicit profiles)).entries :=
  List.takeWhile_eq_self_iff.mpr fun group hgroup =>
    decide_eq_true ((all_accepted_iff B ranges explicit profiles).mpr hrange group hgroup)

variable (B checksum ranges explicit profiles) in
/-- Behind the query one request to each equipment ID that has a selected code, and in their masks the
selected codes and no others. -/
def Installed (port port' : Port) : Prop :=
  ∃ requests : List (List UInt8),
    port'.sent = port.sent ++ encodeHdlc checksum retrieveIdRangesRequest ::
      requests.map (encodeHdlc checksum) ∧
    (∀ request ∈ requests, IsSetMask request) ∧
    (requests.map maskEquip).Pairwise (· < ·) ∧
    (∀ equip, equip ∈ requests.map maskEquip ↔
      ∃ code, Selected B ranges explicit profiles code ∧
        (splitLogCode code).1.toUInt32 = equip) ∧
    ∀ code, (∃ request ∈ requests, maskHas request code) ↔
      code ∈ explicit ∨ (∃ profile ∈ profiles, code ∈ B.codes profile) ∧ InRange ranges code

theorem installed {port port' : Port} (hrange : ∀ code ∈ explicit, InRange ranges code)
    (hsent : port'.sent = port.sent ++ encodeHdlc checksum retrieveIdRangesRequest ::
      ((groupLogCodes (selectCodes B ranges explicit profiles)).entries.map
        (groupPacket ranges)).map (encodeHdlc checksum)) :
    Installed B checksum ranges explicit profiles port port' := by
  refine ⟨_, hsent, ?_, groupPackets_ascending, mem_groupPackets_equip, maskHas_groupPackets hrange⟩
  intro request hrequest
  obtain ⟨group, -, rfl⟩ := List.mem_map.mp hrequest
  exact isSetMask_requestPacket ..

/-- Whatever the modem does, a configuration that ends well has installed the selection. -/
theorem installed_of_ok {port port' : Port}
    (h : (configureQualcommLogs B checksum explicit profiles).run port = some (.ok (), port')) :
    ∃ ranges queried, (queryLogRanges B checksum).run port = some (.ok ranges, queried) ∧
      (∀ code ∈ explicit, InRange ranges code) ∧
      Installed B checksum ranges explicit profiles port port' := by
  obtain ⟨ranges, queried, hquery, hgroups⟩ := Session.run_bind_eq_ok h
  have hqueried : queried.sent = port.sent ++ [encodeHdlc checksum retrieveIdRangesRequest] :=
    queryLogRanges_sent B checksum port.sent port rfl _ queried hquery
  obtain ⟨front, -, hall, hsent, hwhole⟩ := configure_adds B checksum explicit profiles hgroups
  obtain rfl := hwhole rfl
  have hrange := (all_accepted_iff B ranges explicit profiles).mp hall
  refine ⟨ranges, queried, hquery, hrange, installed hrange ?_⟩
  rw [hsent, hqueried, List.append_assoc, List.singleton_append]

variable (B checksum explicit profiles) in
/-- A configuration that ends well has sent masks that hold the selected codes and no others, one
request to each equipment ID that has one. With a modem that reports these ranges and acknowledges,
it ends well exactly when the explicit codes are in range. -/
theorem configure_installs_selection (port : Port) :
    (∀ port', (configureQualcommLogs B checksum explicit profiles).run port = some (.ok (), port') →
      ∃ ranges queried, (queryLogRanges B checksum).run port = some (.ok ranges, queried) ∧
        (∀ code ∈ explicit, InRange ranges code) ∧
        Installed B checksum ranges explicit profiles port port') ∧
    ∀ ranges, Obliging B checksum ranges port →
      ∃ result port', (configureQualcommLogs B checksum explicit profiles).run port =
          some (result, port') ∧
        (result = .ok () ↔ ∀ code ∈ explicit, InRange ranges code) ∧
        (result = .ok () → Installed B checksum ranges explicit profiles port port') ∧
        ((∀ code ∈ explicit, InRange ranges code) →
          ∀ group ∈ (groupLogCodes (selectCodes B ranges explicit profiles)).entries,
            ∃ request, setMaskRequest group.1 (lastItemOf ranges group.1) group.2 =
              .ok request) := by
  refine ⟨fun _ => installed_of_ok, ?_⟩
  intro ranges obliging
  obtain ⟨result, port', hrun, hsent, hresult⟩ :=
    run_configure explicit profiles obliging
  have hiff : result = .ok () ↔ ∀ code ∈ explicit, InRange ranges code := by
    rcases hresult with ⟨hok, hrange⟩ | ⟨⟨code, equip, lastItem, herr⟩, hnot⟩
    · exact iff_of_true hok hrange
    · exact iff_of_false (by simp [herr]) hnot
  refine ⟨result, port', hrun, hiff, ?_, ?_⟩
  · intro hok
    have hrange := hiff.mp hok
    apply installed hrange
    rw [hsent, takeWhile_accepted hrange, List.map_map]
    rfl
  · intro hrange group hgroup
    exact ⟨_, setMaskRequest_group hgroup
      ((all_accepted_iff B ranges explicit profiles).mpr hrange group hgroup)⟩

/-- Two explicit codes and a profile of which some codes are beyond the ranges: the run
ends well, with a request that has the explicit code 0x1234 and none that has 0x1D0B. -/
theorem configure_installs_selection_signaling :
    ∃ port', ∃ requests : List (List UInt8),
      (configureQualcommLogs agentBackend crc16IbmSdlc [0xB0C0, 0x1234]
        [.signaling]).run (ackPort crc16IbmSdlc (Vector.replicate 16 0xA00)) =
        some (.ok (), port') ∧
      port'.sent = encodeHdlc crc16IbmSdlc retrieveIdRangesRequest ::
        requests.map (encodeHdlc crc16IbmSdlc) ∧
      (∃ request ∈ requests, maskHas request 0x1234) ∧
      ¬ ∃ request ∈ requests, maskHas request 0x1D0B := by
  obtain ⟨result, port', hrun, hiff, hsent, -⟩ :=
    (configure_installs_selection agentBackend crc16IbmSdlc [0xB0C0, 0x1234] [.signaling]
      (ackPort crc16IbmSdlc (Vector.replicate 16 0xA00))).2 _ (ackPort_obliging ..)
  have hrange : ∀ code ∈ [0xB0C0, 0x1234], InRange (Vector.replicate 16 0xA00) code :=
    List.forall_mem_cons.mpr ⟨by decide, List.forall_mem_singleton.mpr (by decide)⟩
  have hok : result = .ok () := hiff.mpr hrange
  obtain ⟨requests, hrequests, -, -, -, hmask⟩ := hsent hok
  rw [hok] at hrun
  have hexplicit : ∃ request ∈ requests, maskHas request 0x1234 :=
    (hmask 0x1234).mpr (Or.inl (by simp))
  refine ⟨port', requests, hrun, hrequests, hexplicit, ?_⟩
  rw [hmask]
  intro h
  rcases h with hexplicit | ⟨-, hitem⟩
  · exact absurd hexplicit (by decide)
  · exact absurd hitem (by decide)

end Install

end SixGrok.Qualcomm
