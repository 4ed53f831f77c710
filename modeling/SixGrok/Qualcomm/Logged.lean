import Mathlib.Data.Set.Basic
import SixGrok.Qualcomm.Commands

namespace SixGrok.Qualcomm

open SixGrok.Framework

section Modem

variable {μ : Type} (heed : List UInt8 → μ → μ) (logged : μ → Set UInt16)

/-- A modem that does what the requests are meant for. A mask may add to the one that its equipment
ID had, or take its place. -/
structure Heeding : Prop where
  queried : ∀ m, logged (heed retrieveIdRangesRequest m) = logged m
  disabled : ∀ m, logged (heed disableLoggingRequest m) = ∅
  masked : ∀ m request, IsSetMask request → ∀ code ∈ logged (heed request m),
    code ∈ logged m ∨ maskHas request code

/-- A modem at which a mask takes the place of the one that its equipment ID had. -/
structure Replacing : Prop where
  queried : ∀ m, logged (heed retrieveIdRangesRequest m) = logged m
  masked : ∀ m request, IsSetMask request → ∀ code,
    code ∈ logged (heed request m) ↔
      maskHas request code ∨ maskEquip request ≠ (splitLogCode code).1.toUInt32 ∧ code ∈ logged m

/-- The modem once it has heeded these requests. -/
def heeded (requests : List (List UInt8)) (m : μ) : μ :=
  requests.foldl (fun m request => heed request m) m

variable {heed logged}

theorem heeded_append (requests later : List (List UInt8)) (m : μ) :
    heeded heed (requests ++ later) m = heeded heed later (heeded heed requests m) :=
  List.foldl_append

/-- Masks for different equipment IDs do not touch each other. -/
theorem Replacing.mem_masks (replacing : Replacing heed logged) {requests : List (List UInt8)}
    (masks : ∀ request ∈ requests, IsSetMask request)
    (distinct : (requests.map maskEquip).Nodup) (m : μ) (code : UInt16) :
    code ∈ logged (heeded heed requests m) ↔
      (∃ request ∈ requests, maskHas request code) ∨
        (∀ request ∈ requests, maskEquip request ≠ (splitLogCode code).1.toUInt32) ∧
          code ∈ logged m := by
  induction requests generalizing m with
  | nil => simp [heeded]
  | cons request requests ih =>
    obtain ⟨hmask, hmasks⟩ := List.forall_mem_cons.mp masks
    obtain ⟨hfirst, hdistinct⟩ := List.nodup_cons.mp distinct
    have hothers (h : maskHas request code) :
        ∀ other ∈ requests, maskEquip other ≠ (splitLogCode code).1.toUInt32 := by
      intro other hother hequip
      exact hfirst (h.1.trans hequip.symm ▸ List.mem_map_of_mem hother)
    have hrest := ih hmasks hdistinct (heed request m)
    rw [replacing.masked m request hmask] at hrest
    rw [List.exists_mem_cons_iff, List.forall_mem_cons]
    refine hrest.trans ?_
    constructor
    · rintro (hhas | ⟨hother, hhas | ⟨hequip, hlogged⟩⟩)
      · exact .inl (.inr hhas)
      · exact .inl (.inl hhas)
      · exact .inr ⟨⟨hequip, hother⟩, hlogged⟩
    · rintro ((hhas | hhas) | ⟨⟨hequip, hother⟩, hlogged⟩)
      · exact .inr ⟨hothers hhas, .inl hhas⟩
      · exact .inl hhas
      · exact .inr ⟨hother, .inr ⟨hequip, hlogged⟩⟩

/-- After queries, disables and masks for codes that are asked for, the modem logs no others but the
ones that it did before. -/
theorem Heeding.logs_asked (heeding : Heeding heed logged) (asked : UInt16 → Prop)
    {requests : List (List UInt8)}
    (kinds : ∀ request ∈ requests, request = retrieveIdRangesRequest ∨
      request = disableLoggingRequest ∨
        IsSetMask request ∧ ∀ code, maskHas request code → asked code)
    {m : μ} {code : UInt16} (h : code ∈ logged (heeded heed requests m)) :
    code ∈ logged m ∨ asked code := by
  induction requests generalizing m with
  | nil => exact .inl h
  | cons request requests ih =>
    obtain ⟨hkind, hkinds⟩ := List.forall_mem_cons.mp kinds
    rcases ih hkinds h with hlogged | hasked
    · rcases hkind with rfl | rfl | ⟨hmask, hasks⟩
      · exact .inl (heeding.queried m ▸ hlogged)
      · rw [heeding.disabled] at hlogged
        cases hlogged
      · rcases heeding.masked m request hmask code hlogged with hbefore | hhas
        · exact .inl hbefore
        · exact .inr (hasks code hhas)
    · exact .inr hasked

/-- A modem that keeps for each code whether it logs it. -/
def obeyed (request : List UInt8) (logs : UInt16 → Bool) (code : UInt16) : Bool :=
  if request = disableLoggingRequest then false
  else if IsSetMask request ∧ maskEquip request = (splitLogCode code).1.toUInt32 then
    decide (maskHas request code)
  else logs code

/-- The codes of such a modem. -/
def obeyedLogs (logs : UInt16 → Bool) : Set UInt16 := {code | logs code = true}

theorem obeyed_mask {request : List UInt8} (hmask : IsSetMask request) (logs : UInt16 → Bool)
    (code : UInt16) : code ∈ obeyedLogs (obeyed request logs) ↔
      maskHas request code ∨
        maskEquip request ≠ (splitLogCode code).1.toUInt32 ∧ code ∈ obeyedLogs logs := by
  have hne : request ≠ disableLoggingRequest := by
    rintro rfl
    exact absurd hmask (by decide)
  change obeyed request logs code = true ↔ _
  rw [obeyed, if_neg hne]
  by_cases hequip : maskEquip request = (splitLogCode code).1.toUInt32
  · rw [if_pos ⟨hmask, hequip⟩, decide_eq_true_iff]
    exact (or_iff_left fun h => h.1 hequip).symm
  · rw [if_neg fun h => hequip h.2]
    refine ⟨fun hlogs => .inr ⟨hequip, hlogs⟩, ?_⟩
    rintro (hhas | ⟨-, hlogs⟩)
    · exact absurd hhas.1 hequip
    · exact hlogs

theorem obeyed_query (logs : UInt16 → Bool) :
    obeyedLogs (obeyed retrieveIdRangesRequest logs) = obeyedLogs logs := by
  ext code
  change obeyed retrieveIdRangesRequest logs code = true ↔ _
  rw [obeyed, if_neg (by decide), if_neg fun h => absurd h.1 (by decide)]
  rfl

theorem obeyed_replacing : Replacing obeyed obeyedLogs where
  queried := obeyed_query
  masked logs _ hmask code := obeyed_mask hmask logs code

theorem obeyed_heeding : Heeding obeyed obeyedLogs where
  queried := obeyed_query
  disabled logs := by
    ext code
    simp [obeyedLogs, obeyed]
  masked logs _ hmask code hcode := by
    rcases (obeyed_mask hmask logs code).mp hcode with hhas | ⟨-, hlogs⟩
    · exact .inr hhas
    · exact .inl hlogs

end Modem

section Runs

variable {π : Type} (B : Backend π) (checksum : List UInt8 → UInt16)

/-- A command that has come back, and the port before and after. -/
structure CommandRun where
  command : Command π
  port : Port
  result : Except CommandFailure (List String)
  port' : Port
  ran : (command.session B checksum).run port = some (result, port')

/-- What the user asks for with a command. -/
def Command.Asks (command : Command π) (code : UInt16) : Prop :=
  match command with
  | .probe | .disable => False
  | .capture explicit profiles => code ∈ explicit ∨ ∃ profile ∈ profiles, code ∈ B.codes profile

variable {B checksum}

/-- The packets that a modem finds in what a run has written. -/
def CommandRun.packets (run : CommandRun B checksum) : List (List UInt8) :=
  (feed (HdlcDecoder.push checksum) {}
    (run.port'.sent.drop run.port.sent.length).flatten).1.filterMap Except.toOption

theorem CommandRun.packets_eq {run : CommandRun B checksum} {packets : List (List UInt8)}
    (nonempty : ∀ packet ∈ packets, packet ≠ [])
    (h : run.port'.sent = run.port.sent ++ packets.map (encodeHdlc checksum)) :
    run.packets = packets := by
  have hkeep : (packets.map Except.ok).filterMap (Except.toOption (ε := FrameError)) = packets := by
    rw [List.filterMap_map]
    exact List.filterMap_some ..
  rw [CommandRun.packets, h, List.drop_left, feed_encodeHdlc_packets checksum packets nonempty]
  exact hkeep

variable {ranges : Vector UInt32 16} {explicit : List UInt16} {profiles : List π}

theorem groupPacket_ne_nil (group : UInt8 × List UInt16) : groupPacket ranges group ≠ [] := by
  intro h
  have hmask := isSetMask_requestPacket group.1 (lastItemOf ranges group.1) group.2
  rw [show requestPacket group.1 (lastItemOf ranges group.1) group.2 = [] from h] at hmask
  exact absurd hmask (by decide)

/-- A configuration runs when there is something to configure. -/
theorem capture_session (explicit : List UInt16) (profiles : List π) :
    (Command.capture explicit profiles).session B checksum =
      if explicit ≠ [] ∨ profiles ≠ [] then
        Session.mapError .control (configureQualcommLogs B checksum explicit profiles) >>= fun _ =>
          pure []
      else pure [] := rfl

theorem capture_configures {run : CommandRun B checksum}
    (hcommand : run.command = .capture explicit profiles) (asked : explicit ≠ [] ∨ profiles ≠ []) :
    ∃ result, (configureQualcommLogs B checksum explicit profiles).run run.port =
        some (result, run.port') ∧
      ((∃ lines, run.result = .ok lines) → result = .ok ()) := by
  have hran := run.ran
  rw [hcommand, capture_session, if_pos asked] at hran
  rcases Session.run_bind_cases hran with ⟨failure, hfailed, hresult⟩ | ⟨⟨⟩, port, hdone, hrest⟩
  · obtain ⟨⟨result, port⟩, hrun, heq⟩ := Option.map_eq_some_iff.mp hfailed
    obtain ⟨herror, rfl⟩ := Prod.mk.inj heq
    refine ⟨result, hrun, ?_⟩
    rintro ⟨lines, hok⟩
    rw [hresult] at hok
    cases hok
  · obtain ⟨-, hport⟩ := Prod.mk.inj (Option.some.inj hrest)
    obtain ⟨⟨result, port⟩, hrun, heq⟩ := Option.map_eq_some_iff.mp hdone
    obtain ⟨hresult, rfl⟩ := Prod.mk.inj heq
    refine ⟨result, hport ▸ hrun, fun _ => ?_⟩
    cases result with
    | ok _ => rfl
    | error failure => cases hresult

theorem capture_nothing {run : CommandRun B checksum} (hcommand : run.command = .capture [] []) :
    run.packets = [] := by
  have hran := run.ran
  rw [hcommand, capture_session, if_neg (by simp)] at hran
  obtain ⟨-, hport⟩ := Prod.mk.inj (Option.some.inj hran)
  apply CommandRun.packets_eq (List.forall_mem_nil _)
  rw [← hport, List.map_nil, List.append_nil]

/-- A run that has got the ranges has sent the masks of the first of the groups, and of all of them
when it ends well. -/
theorem capture_packets {run : CommandRun B checksum}
    (hcommand : run.command = .capture explicit profiles) {queried : Port}
    (hquery : (queryLogRanges B checksum).run run.port = some (.ok ranges, queried)) :
    ∃ front, front <+: (groupLogCodes (selectCodes B ranges explicit profiles)).entries ∧
      (∀ group ∈ front, Accepted ranges explicit group) ∧
      (run.packets = front.map (groupPacket ranges) ∨
        run.packets = retrieveIdRangesRequest :: front.map (groupPacket ranges)) ∧
      ((∃ lines, run.result = .ok lines) →
        front = (groupLogCodes (selectCodes B ranges explicit profiles)).entries) := by
  by_cases asked : explicit ≠ [] ∨ profiles ≠ []
  · obtain ⟨result, hrun, hok⟩ := capture_configures hcommand asked
    rw [configureQualcommLogs, Session.run_bind_ok hquery] at hrun
    obtain ⟨front, hfront, hall, hsent, hwhole⟩ := configure_adds B checksum explicit profiles hrun
    have hqueried : queried.sent = run.port.sent ++ [encodeHdlc checksum retrieveIdRangesRequest] :=
      queryLogRanges_sent B checksum run.port.sent run.port rfl _ queried hquery
    refine ⟨front, hfront, hall, .inr ?_, fun h => hwhole (hok h)⟩
    apply CommandRun.packets_eq
    · refine List.forall_mem_cons.mpr ⟨by decide, ?_⟩
      intro packet hpacket
      obtain ⟨group, -, rfl⟩ := List.mem_map.mp hpacket
      exact groupPacket_ne_nil group
    · rw [hsent, hqueried, List.append_assoc]
      rfl
  · push Not at asked
    obtain ⟨rfl, rfl⟩ := asked
    have hnone : (groupLogCodes (selectCodes B ranges [] [])).entries = [] := by
      apply List.eq_nil_iff_forall_not_mem.mpr
      intro group hgroup
      obtain ⟨code, hselected, -⟩ := exists_group_selected hgroup
      rcases hselected with hexplicit | ⟨⟨profile, hprofile, -⟩, -⟩
      · cases hexplicit
      · cases hprofile
    exact ⟨[], List.nil_prefix, List.forall_mem_nil _, .inl (capture_nothing hcommand),
      fun _ => hnone.symm⟩

theorem maskHas_groupPacket {group : UInt8 × List UInt16}
    (hgroup : group ∈ (groupLogCodes (selectCodes B ranges explicit profiles)).entries)
    (haccepted : Accepted ranges explicit group) (code : UInt16) :
    maskHas (groupPacket ranges group) code ↔
      group.1 = (splitLogCode code).1 ∧ Selected B ranges explicit profiles code := by
  rw [groupPacket, maskHas_requestPacket _ _ _ (accepted_items hgroup haccepted)]
  apply and_congr_right
  intro hequip
  rw [mem_items_iff hgroup]
  constructor
  · rintro ⟨other, hselected, hsplit⟩
    have hsame : splitLogCode other = splitLogCode code := by
      rw [hsplit, hequip]
    rwa [← splitLogCode_injective hsame]
  · intro hselected
    exact ⟨code, hselected, Prod.ext hequip.symm rfl⟩

/-- A run that has sent no more than one packet. -/
theorem CommandRun.packets_one {run : CommandRun B checksum} {packet : List UInt8} (hne : packet ≠ [])
    (h : run.port'.sent = run.port.sent ∨
      run.port'.sent = run.port.sent ++ [encodeHdlc checksum packet]) :
    run.packets = [] ∨ run.packets = [packet] := by
  rcases h with h | h
  · left
    apply CommandRun.packets_eq (List.forall_mem_nil _)
    rw [h, List.map_nil, List.append_nil]
  · right
    exact CommandRun.packets_eq (List.forall_mem_singleton.mpr hne) h

theorem probe_packets {run : CommandRun B checksum} (hcommand : run.command = .probe) :
    run.packets = [] ∨ run.packets = [retrieveIdRangesRequest] := by
  have hran := run.ran
  rw [hcommand] at hran
  have hadds : Session.Meets (fun port => port.sent = run.port.sent) (Command.probe.session B checksum)
      (fun _ port => port.sent = run.port.sent ∨
        port.sent = run.port.sent ++ [encodeHdlc checksum retrieveIdRangesRequest])
      (fun _ port => port.sent = run.port.sent ∨
        port.sent = run.port.sent ++ [encodeHdlc checksum retrieveIdRangesRequest]) := by
    apply Session.Meets.mapError
    apply Session.Meets.bind
    · exact queryLogRanges_adds B checksum run.port.sent
    · intro ranges
      exact Session.Meets.pure fun _ h => .inr h
  have hsent := hadds run.port rfl run.result run.port' hran
  cases hresult : run.result with
  | ok lines =>
    rw [hresult] at hsent
    exact CommandRun.packets_one (by decide) hsent
  | error failure =>
    rw [hresult] at hsent
    exact CommandRun.packets_one (by decide) hsent

theorem disable_packets {run : CommandRun B checksum} (hcommand : run.command = .disable) :
    (run.packets = [] ∨ run.packets = [disableLoggingRequest]) ∧
      ((∃ lines, run.result = .ok lines) → run.packets = [disableLoggingRequest]) := by
  have hran := run.ran
  rw [hcommand] at hran
  have hadds : Session.Meets (fun port => port.sent = run.port.sent)
      (Command.disable.session B checksum)
      (fun _ port => port.sent = run.port.sent ++ [encodeHdlc checksum disableLoggingRequest])
      (fun _ port => port.sent = run.port.sent ∨
        port.sent = run.port.sent ++ [encodeHdlc checksum disableLoggingRequest]) := by
    apply Session.Meets.bind
    · exact runDisable_adds B checksum run.port.sent
    · intro _
      exact Session.Meets.pure fun _ h => h
  have hsent := hadds run.port rfl run.result run.port' hran
  cases hresult : run.result with
  | ok lines =>
    rw [hresult] at hsent
    have hone := CommandRun.packets_eq (List.forall_mem_singleton.mpr
      (by decide : disableLoggingRequest ≠ [])) hsent
    exact ⟨.inr hone, fun _ => hone⟩
  | error failure =>
    rw [hresult] at hsent
    refine ⟨CommandRun.packets_one (by decide) hsent, ?_⟩
    rintro ⟨lines, hok⟩
    cases hok

/-- Without an answer to the range query a capture sends nothing else, and does not end well unless
there is nothing to configure. -/
theorem capture_unanswered {run : CommandRun B checksum}
    (hcommand : run.command = .capture explicit profiles)
    (unanswered : ∀ ranges queried,
      (queryLogRanges B checksum).run run.port ≠ some (.ok ranges, queried)) :
    (run.packets = [] ∨ run.packets = [retrieveIdRangesRequest]) ∧
      ((∃ lines, run.result = .ok lines) → explicit = [] ∧ profiles = []) := by
  by_cases asked : explicit ≠ [] ∨ profiles ≠ []
  · obtain ⟨result, hrun, hok⟩ := capture_configures hcommand asked
    rcases Session.run_bind_cases hrun with ⟨failure, hquery, herr⟩ | ⟨ranges, queried, hquery, -⟩
    · refine ⟨CommandRun.packets_one (by decide) (queryLogRanges_adds B checksum run.port.sent run.port
        rfl (.error failure) run.port' hquery), fun h => ?_⟩
      rw [hok h] at herr
      cases herr
    · exact absurd hquery (unanswered ranges queried)
  · push Not at asked
    obtain ⟨rfl, rfl⟩ := asked
    exact ⟨.inl (capture_nothing hcommand), fun _ => ⟨rfl, rfl⟩⟩

variable (B checksum) in
/-- The run of a capture against a modem that acknowledges. -/
theorem exists_captureRun (ranges : Vector UInt32 16) (explicit : List UInt16) (profiles : List π)
    (hrange : ∀ code ∈ explicit, InRange ranges code) (asked : explicit ≠ [] ∨ profiles ≠ []) :
    ∃ run : CommandRun B checksum, run.command = .capture explicit profiles ∧
      run.port = ackPort checksum ranges ∧ run.result = .ok [] := by
  obtain ⟨result, port', hrun, -, hresult⟩ :=
    run_configure explicit profiles (ackPort_obliging B checksum ranges)
  have hok : result = .ok () := by
    rcases hresult with ⟨hok, -⟩ | ⟨-, hnot⟩
    · exact hok
    · exact absurd hrange hnot
  refine ⟨⟨.capture explicit profiles, ackPort checksum ranges, .ok [], port', ?_⟩, rfl, rfl, rfl⟩
  have hmapped : (Session.mapError CommandFailure.control
      (configureQualcommLogs B checksum explicit profiles)).run (ackPort checksum ranges) =
        some (.ok (), port') := by
    rw [Session.run, Session.mapError]
    rw [Session.run, hok] at hrun
    rw [hrun]
    rfl
  rw [capture_session, if_pos asked, Session.run_bind_ok hmapped]
  rfl

variable (B checksum) in
/-- The run of a disable command against a modem that answers it. -/
theorem exists_disableRun :
    ∃ run : CommandRun B checksum, run.command = .disable ∧ run.result = .ok [] := by
  let response := logConfigResponse logConfigDisableOp 0 []
  let port : Port := { modem := fun _ => .written [.ok (encodeHdlc checksum response ++ [])] }
  have hmodem : port.modem (port.sent ++ [encodeHdlc checksum disableLoggingRequest]) =
      .written [.ok (encodeHdlc checksum response ++ [])] := rfl
  have hanswers : answers logConfigDisableOp (.ok response) = some response :=
    answers_header (parseLogConfigHeader_response ..) rfl
  obtain ⟨asked, hsend, hwait⟩ := exchange_answered B checksum hmodem
    (List.forall_mem_nil _) (List.forall_mem_nil _) rfl (logConfigResponse_ne_nil _ _ _) hanswers
  have hheader : (disableHeader B checksum).run port = some (.ok ⟨logConfigDisableOp, 0⟩,
      { port with sent := port.sent ++ [encodeHdlc checksum disableLoggingRequest] }) := by
    rw [disableHeader, Session.run_bind_ok hsend, Session.run_bind_ok hwait,
      parseLogConfigHeader_response]
    rfl
  have hmapped : (Session.mapError CommandFailure.control (disableHeader B checksum)).run port = _ :=
    Session.run_mapError_eq_ok.mpr hheader
  have hdone : (runDisable B checksum).run port = some (.ok (), _) := Session.run_bind_ok hmapped
  have hran : (Command.disable.session B checksum).run port = some (.ok [], _) :=
    Session.run_bind_ok hdone
  exact ⟨⟨.disable, port, .ok [], _, hran⟩, rfl, rfl⟩

section Replacing

variable {μ : Type} {heed : List UInt8 → μ → μ} {logged : μ → Set UInt16}

/-- What some of the requests of a configuration make of the codes that are logged. -/
theorem Replacing.mem_groups (replacing : Replacing heed logged) {chosen : List (UInt8 × List UInt16)}
    (hchosen : chosen.Sublist (groupLogCodes (selectCodes B ranges explicit profiles)).entries)
    (accepted : ∀ group ∈ chosen, Accepted ranges explicit group) (m : μ) (code : UInt16) :
    code ∈ logged (heeded heed (chosen.map (groupPacket ranges)) m) ↔
      (∃ group ∈ chosen, group.1 = (splitLogCode code).1 ∧ Selected B ranges explicit profiles code) ∨
        (∀ group ∈ chosen, group.1 ≠ (splitLogCode code).1) ∧ code ∈ logged m := by
  have hmasks : ∀ request ∈ chosen.map (groupPacket ranges), IsSetMask request := by
    intro request hrequest
    obtain ⟨group, -, rfl⟩ := List.mem_map.mp hrequest
    exact isSetMask_requestPacket ..
  have hascending : ((chosen.map (groupPacket ranges)).map maskEquip).Pairwise (· < ·) :=
    groupPackets_ascending.sublist ((hchosen.map _).map _)
  have hdistinct : ((chosen.map (groupPacket ranges)).map maskEquip).Nodup :=
    hascending.imp fun h => UInt32.ne_of_lt h
  have hwiden (equip equip' : UInt8) : equip.toUInt32 = equip'.toUInt32 ↔ equip = equip' := by
    rw [← UInt32.toNat_inj, UInt8.toNat_toUInt32, UInt8.toNat_toUInt32, UInt8.toNat_inj]
  rw [replacing.mem_masks hmasks hdistinct]
  simp only [List.forall_mem_map, maskEquip_groupPacket, ne_eq, hwiden]
  apply or_congr_left
  constructor
  · rintro ⟨request, hrequest, hhas⟩
    obtain ⟨group, hgroup, rfl⟩ := List.mem_map.mp hrequest
    exact ⟨group, hgroup, (maskHas_groupPacket (hchosen.subset hgroup) (accepted group hgroup) code).mp
      hhas⟩
  · rintro ⟨group, hgroup, hboth⟩
    exact ⟨_, List.mem_map_of_mem hgroup,
      (maskHas_groupPacket (hchosen.subset hgroup) (accepted group hgroup) code).mpr hboth⟩

/-- What is heard of the range query changes nothing. -/
theorem Replacing.heard_masks (replacing : Replacing heed logged)
    {heard packets masks : List (List UInt8)} (h : heard.Sublist packets)
    (hpackets : packets = masks ∨ packets = retrieveIdRangesRequest :: masks) (m : μ) :
    ∃ heard' m', heard'.Sublist masks ∧ logged m' = logged m ∧
      heeded heed heard m = heeded heed heard' m' ∧ (heard = packets → heard' = masks) := by
  rcases hpackets with rfl | rfl
  · exact ⟨heard, m, h, rfl, rfl, id⟩
  · cases h with
    | cons _ h =>
      refine ⟨heard, m, h, rfl, rfl, ?_⟩
      rintro rfl
      exact absurd h.length_le (by simp)
    | @cons_cons heard' _ _ h =>
      exact ⟨heard', _, h, replacing.queried m, rfl, fun hsame => (List.cons.inj hsame).2⟩

theorem Replacing.heard_query (replacing : Replacing heed logged) {heard packets : List (List UInt8)}
    (h : heard.Sublist packets) (hpackets : packets = [] ∨ packets = [retrieveIdRangesRequest])
    (m : μ) : logged (heeded heed heard m) = logged m := by
  obtain ⟨heard', m', hnone, hlogged, hheard, -⟩ := replacing.heard_masks h hpackets m
  rw [hheard, List.sublist_nil.mp hnone]
  exact hlogged

/-- Of an equipment ID whose group is chosen the selected codes are logged, and of any other the ones
from before. -/
theorem logs_unmixed {chosen : List (UInt8 × List UInt16)} {logs before : Set UInt16}
    {selected : UInt16 → Prop}
    (h : ∀ code, code ∈ logs ↔
      (∃ group ∈ chosen, group.1 = (splitLogCode code).1 ∧ selected code) ∨
        (∀ group ∈ chosen, group.1 ≠ (splitLogCode code).1) ∧ code ∈ before) (equip : UInt8) :
    (∀ code, (splitLogCode code).1 = equip → (code ∈ logs ↔ code ∈ before)) ∨
      ∀ code, (splitLogCode code).1 = equip → (code ∈ logs ↔ selected code) := by
  by_cases htouched : ∃ group ∈ chosen, group.1 = equip
  · right
    rintro code rfl
    obtain ⟨group, hgroup, hequip⟩ := htouched
    rw [h]
    constructor
    · rintro (⟨_, -, -, hselected⟩ | ⟨hnone, -⟩)
      · exact hselected
      · exact absurd hequip (hnone group hgroup)
    · intro hselected
      exact .inl ⟨group, hgroup, hequip, hselected⟩
  · left
    rintro code rfl
    push Not at htouched
    rw [h]
    constructor
    · rintro (⟨group, hgroup, hequip, -⟩ | ⟨-, hbefore⟩)
      · exact absurd hequip (htouched group hgroup)
      · exact hbefore
    · intro hbefore
      exact .inr ⟨htouched, hbefore⟩

/-- For each equipment ID the codes that are logged are the ones from before or the selected ones. -/
theorem Replacing.capture_mixes_none (replacing : Replacing heed logged) {run : CommandRun B checksum}
    (hcommand : run.command = .capture explicit profiles) {queried : Port}
    (hquery : (queryLogRanges B checksum).run run.port = some (.ok ranges, queried))
    {heard : List (List UInt8)} (hheard : heard.Sublist run.packets) (m : μ) :
    let logs := logged (heeded heed heard m)
    (∀ equip, (∀ code, (splitLogCode code).1 = equip → (code ∈ logs ↔ code ∈ logged m)) ∨
      ∀ code, (splitLogCode code).1 = equip →
        (code ∈ logs ↔ Selected B ranges explicit profiles code)) ∧
    ((∃ lines, run.result = .ok lines) → heard = run.packets → ∀ code,
      code ∈ logs ↔ Selected B ranges explicit profiles code ∨
        (∀ other, Selected B ranges explicit profiles other →
          (splitLogCode other).1 ≠ (splitLogCode code).1) ∧ code ∈ logged m) := by
  obtain ⟨front, hfront, hall, hpackets, hwhole⟩ := capture_packets hcommand hquery
  obtain ⟨masks, queried, hmasks, hlogged, hheeded, hsame⟩ :=
    replacing.heard_masks hheard hpackets m
  obtain ⟨chosen, hchosen, rfl⟩ := List.sublist_map_iff.mp hmasks
  have haccepted : ∀ group ∈ chosen, Accepted ranges explicit group := fun group hgroup =>
    hall group (hchosen.subset hgroup)
  have hmem := replacing.mem_groups (hchosen.trans hfront.sublist) haccepted queried
  rw [hlogged] at hmem
  rw [hheeded]
  refine ⟨logs_unmixed hmem, ?_⟩
  intro hok hmissed code
  have hentries : chosen = (groupLogCodes (selectCodes B ranges explicit profiles)).entries := by
    have hlength := congrArg List.length (hsame hmissed)
    rw [List.length_map, List.length_map] at hlength
    rw [hchosen.eq_of_length hlength, hwhole hok]
  rw [hmem, hentries]
  apply or_congr
  · constructor
    · rintro ⟨_, -, -, hselected⟩
      exact hselected
    · intro hselected
      obtain ⟨items, hgroup⟩ := exists_selected_group hselected
      exact ⟨_, hgroup, rfl, hselected⟩
  · apply and_congr_left
    intro _
    constructor
    · intro hnone other hother
      obtain ⟨items, hgroup⟩ := exists_selected_group hother
      exact hnone _ hgroup
    · intro hnone group hgroup
      obtain ⟨other, hother, hequip⟩ := exists_group_selected hgroup
      exact hequip ▸ hnone other hother

/-- Wherever a capture stops configuring and whatever the modem misses of it, for each equipment ID
the codes that are logged are the ones from before or exactly the selected ones; all of them are the
ones from before unless the range query has been answered, as it has when the capture asks for
anything and ends well. When it ends well and nothing is missed, they are the selected ones for each
equipment ID that has any, and for the others still the ones from before. -/
theorem capture_masks (replacing : Replacing heed logged) {run : CommandRun B checksum}
    (hcommand : run.command = .capture explicit profiles) {heard : List (List UInt8)}
    (hheard : heard.Sublist run.packets) (m : μ) :
    let logs := logged (heeded heed heard m)
    ((∀ ranges queried, (queryLogRanges B checksum).run run.port ≠ some (.ok ranges, queried)) →
      logs = logged m ∧
        ((∃ lines, run.result = .ok lines) → explicit = [] ∧ profiles = [])) ∧
    ∀ ranges queried, (queryLogRanges B checksum).run run.port = some (.ok ranges, queried) →
      (∀ equip, (∀ code, (splitLogCode code).1 = equip → (code ∈ logs ↔ code ∈ logged m)) ∨
        ∀ code, (splitLogCode code).1 = equip →
          (code ∈ logs ↔ Selected B ranges explicit profiles code)) ∧
      ((∃ lines, run.result = .ok lines) → heard = run.packets → ∀ code,
        code ∈ logs ↔ Selected B ranges explicit profiles code ∨
          (∀ other, Selected B ranges explicit profiles other →
            (splitLogCode other).1 ≠ (splitLogCode code).1) ∧ code ∈ logged m) := by
  constructor
  · intro unanswered
    obtain ⟨hpackets, hnothing⟩ := capture_unanswered hcommand unanswered
    exact ⟨replacing.heard_query hheard hpackets m, hnothing⟩
  · intro ranges queried hquery
    exact replacing.capture_mixes_none hcommand hquery hheard m

/-- An explicit code of equipment 1, on a modem that logs another one there and one of equipment 5. -/
theorem capture_masks_single :
    ∃ run : CommandRun agentBackend crc16IbmSdlc, run.command = .capture [0x1234] [] ∧
      let logs := obeyedLogs (heeded obeyed run.packets fun code => code = 0x1235 ∨ code = 0x5000)
      0x1234 ∈ logs ∧ 0x1235 ∉ logs ∧ 0x5000 ∈ logs := by
  have hrange : ∀ code ∈ [0x1234], InRange (Vector.replicate 16 0xA00) code :=
    List.forall_mem_singleton.mpr (by decide)
  obtain ⟨run, hcommand, hport, hok⟩ := exists_captureRun agentBackend crc16IbmSdlc
    (Vector.replicate 16 0xA00) [0x1234] [] hrange (.inl (List.cons_ne_nil _ _))
  obtain ⟨ready, queried, hquery, -, -⟩ :=
    ackPort_obliging agentBackend crc16IbmSdlc (Vector.replicate 16 0xA00)
  have hmasks := ((capture_masks obeyed_replacing hcommand (List.Sublist.refl _)
    fun code => code = 0x1235 ∨ code = 0x5000).2 _ queried (hport ▸ hquery)).2 ⟨[], hok⟩ rfl
  have hselected (code : UInt16) :
      Selected agentBackend (Vector.replicate 16 0xA00) [0x1234] [] code ↔ code = 0x1234 := by
    simp [Selected]
  refine ⟨run, hcommand, ?_, ?_, ?_⟩
  · exact (hmasks 0x1234).mpr (.inl ((hselected _).mpr rfl))
  · intro h
    rcases (hmasks 0x1235).mp h with h | ⟨h, -⟩
    · exact absurd ((hselected _).mp h) (by decide)
    · exact absurd (h 0x1234 ((hselected _).mpr rfl)) (by decide)
  · refine (hmasks 0x5000).mpr (.inr ⟨?_, rfl⟩)
    intro other hother
    rw [(hselected other).mp hother]
    decide

end Replacing

/-- What a run has sent are queries, disables and masks for codes that the user asked for. -/
theorem packet_asked {run : CommandRun B checksum} :
    ∀ request ∈ run.packets, request = retrieveIdRangesRequest ∨ request = disableLoggingRequest ∨
      IsSetMask request ∧ ∀ code, maskHas request code → run.command.Asks B code := by
  intro request h
  have hone {packet : List UInt8} (hone : run.packets = [] ∨ run.packets = [packet]) :
      request = packet := by
    rcases hone with hnone | hone
    · rw [hnone] at h
      cases h
    · rw [hone] at h
      exact List.mem_singleton.mp h
  cases hcommand : run.command with
  | probe => exact .inl (hone (probe_packets hcommand))
  | disable => exact .inr (.inl (hone (disable_packets hcommand).1))
  | capture explicit profiles =>
    by_cases answered : ∃ ranges queried,
        (queryLogRanges B checksum).run run.port = some (.ok ranges, queried)
    · obtain ⟨ranges, queried, hquery⟩ := answered
      obtain ⟨front, hfront, hall, hpackets, -⟩ := capture_packets hcommand hquery
      have hmem : request = retrieveIdRangesRequest ∨ request ∈ front.map (groupPacket ranges) := by
        rcases hpackets with hpackets | hpackets
        · exact .inr (hpackets ▸ h)
        · rw [hpackets] at h
          exact List.mem_cons.mp h
      refine hmem.imp_right fun hmask => .inr ?_
      obtain ⟨group, hgroup, rfl⟩ := List.mem_map.mp hmask
      refine ⟨isSetMask_requestPacket .., fun code hhas => ?_⟩
      obtain ⟨-, hselected⟩ := (maskHas_groupPacket (hfront.subset hgroup) (hall group hgroup) code).mp
        hhas
      rcases hselected with hexplicit | ⟨hprofile, -⟩
      · exact .inl hexplicit
      · exact .inr hprofile
    · push Not at answered
      exact .inl (hone (capture_unanswered hcommand answered).1)

section Heeding

variable {μ : Type} {heed : List UInt8 → μ → μ} {logged : μ → Set UInt16}

theorem Heeding.logs_runs (heeding : Heeding heed logged) {runs : List (CommandRun B checksum)}
    {heard : List (List UInt8)} (hheard : heard.Sublist (runs.flatMap CommandRun.packets)) {m : μ}
    {code : UInt16} (hcode : code ∈ logged (heeded heed heard m)) :
    code ∈ logged m ∨ ∃ run ∈ runs, run.command.Asks B code := by
  refine heeding.logs_asked (fun code => ∃ run ∈ runs, run.command.Asks B code) ?_ hcode
  intro request hrequest
  obtain ⟨run, hrun, hpacket⟩ := List.mem_flatMap.mp (hheard.subset hrequest)
  rcases packet_asked request hpacket with hquery | hdisable | ⟨hmask, hasks⟩
  · exact .inl hquery
  · exact .inr (.inl hdisable)
  · exact .inr (.inr ⟨hmask, fun code hhas => ⟨run, hrun, hasks code hhas⟩⟩)

/-- Whatever commands are run, whatever becomes of them and whatever the modem misses, it logs nothing
that it did not log before and that none of them asks for. Once it has heeded what a disable command
has sent, as such a command has when it ends well, it logs nothing at all that none of the commands
behind it asks for. -/
theorem logs_only_asked (heeding : Heeding heed logged) {runs : List (CommandRun B checksum)}
    {heard : List (List UInt8)} (hheard : heard.Sublist (runs.flatMap CommandRun.packets)) (m : μ) :
    (∀ code ∈ logged (heeded heed heard m),
      code ∈ logged m ∨ ∃ run ∈ runs, run.command.Asks B code) ∧
    ∀ disable : CommandRun B checksum, disable.command = .disable →
      ((∃ lines, disable.result = .ok lines) → disable.packets ≠ []) ∧
      ∀ taken : List (List UInt8), taken ≠ [] → taken.Sublist disable.packets →
        ∀ code ∈ logged (heeded heed (taken ++ heard) m), ∃ run ∈ runs, run.command.Asks B code := by
  refine ⟨fun code hcode => heeding.logs_runs hheard hcode, ?_⟩
  intro disable hcommand
  obtain ⟨hpackets, hsent⟩ := disable_packets hcommand
  refine ⟨fun hok => hsent hok ▸ List.cons_ne_nil _ _, ?_⟩
  intro taken hne htaken code hcode
  have hone : taken = [disableLoggingRequest] := by
    rcases hpackets with hnone | hone
    · rw [hnone] at htaken
      exact absurd (List.sublist_nil.mp htaken) hne
    · rw [hone] at htaken
      exact (List.sublist_singleton.mp htaken).resolve_left hne
  rw [hone, heeded_append] at hcode
  rcases heeding.logs_runs hheard hcode with hbefore | hasked
  · have hempty : logged (heeded heed [disableLoggingRequest] m) = ∅ := heeding.disabled m
    rw [hempty] at hbefore
    cases hbefore
  · exact hasked

/-- A capture with a profile and an explicit code behind a disable command, on a modem that logged
everything. -/
theorem logs_only_asked_signaling :
    ∃ disable run : CommandRun agentBackend crc16IbmSdlc,
      disable.command = .disable ∧ disable.result = .ok [] ∧ run.result = .ok [] ∧
      ∀ code ∈ obeyedLogs (heeded obeyed (disable.packets ++ run.packets) fun _ => true),
        code = 0x1234 ∨ code ∈ CaptureProfile.codes .signaling := by
  have hrange : ∀ code ∈ [0x1234], InRange (Vector.replicate 16 0xA00) code :=
    List.forall_mem_singleton.mpr (by decide)
  obtain ⟨disable, hdisable, hdone⟩ := exists_disableRun agentBackend crc16IbmSdlc
  obtain ⟨run, hcommand, -, hok⟩ := exists_captureRun agentBackend crc16IbmSdlc
    (Vector.replicate 16 0xA00) [0x1234] [CaptureProfile.signaling] hrange
    (.inl (List.cons_ne_nil _ _))
  have hone : run.packets.Sublist ([run].flatMap CommandRun.packets) := by
    rw [List.flatMap_singleton]
  obtain ⟨-, hlater⟩ := logs_only_asked obeyed_heeding hone fun _ => true
  obtain ⟨hsent, htaken⟩ := hlater disable hdisable
  refine ⟨disable, run, hdisable, hdone, hok, ?_⟩
  intro code hcode
  obtain ⟨other, hother, hasked⟩ :=
    htaken disable.packets (hsent ⟨[], hdone⟩) (List.Sublist.refl _) code hcode
  rw [List.mem_singleton.mp hother, hcommand] at hasked
  rcases hasked with hexplicit | ⟨profile, hprofile, hcodes⟩
  · exact .inl (List.mem_singleton.mp hexplicit)
  · exact .inr (List.mem_singleton.mp hprofile ▸ hcodes)

end Heeding

end Runs

end SixGrok.Qualcomm
