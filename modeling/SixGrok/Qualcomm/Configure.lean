import SixGrok.Qualcomm.Port

namespace SixGrok.Qualcomm

open SixGrok.Framework

/-- `ranges[usize::from(equip)]`; the equipment ID of a log code is below 16. -/
def lastItemOf (ranges : Vector UInt32 16) (equip : UInt8) : UInt32 :=
  ranges[equip.toNat]?.getD 0

def InRange (ranges : Vector UInt32 16) (code : UInt16) : Prop :=
  (splitLogCode code).2.toUInt32 ≤ lastItemOf ranges (splitLogCode code).1

instance (ranges : Vector UInt32 16) (code : UInt16) : Decidable (InRange ranges code) :=
  inferInstanceAs (Decidable (_ ≤ _))

section Configure

variable {π : Type} (B : Backend π) (checksum : List UInt8 → UInt16) (ranges : Vector UInt32 16)
  (explicit : List UInt16) (profiles : List π)

def selectCodes : List UInt16 :=
  sortDedup (explicit ++ (mergeProfiles B.codes [] profiles).filter
    (fun code => code ∉ explicit ∧ InRange ranges code))

/-- The first code of a group that is explicit and beyond what the modem reported. -/
def findOutOfRange (equip : UInt8) (items : List UInt16) : Option UInt16 :=
  items.findSome? fun item =>
    if joinLogCode equip item ∈ explicit ∧ item.toUInt32 > lastItemOf ranges equip then
      some (joinLogCode equip item)
    else none

def setMask (equip : UInt8) (items : List UInt16) : Session Port Failure Unit := do
  let request ← Session.lift .control (setMaskRequest equip (lastItemOf ranges equip) items)
  sendDiagPacket B checksum request
  let response ← waitForLogConfigResponse B checksum logConfigSetMaskOp
  let (header, _) ← Session.lift .control (parseLogConfigHeader response)
  if header.status ≠ 0 then Session.fail (.rejected equip header.status) else pure ()

/-- One pass of the loop over the grouped codes. -/
def configureGroup (group : UInt8 × List UInt16) : Session Port Failure Unit :=
  match findOutOfRange ranges explicit group.1 group.2 with
  | some code => Session.fail (.explicitOutOfRange code group.1 (lastItemOf ranges group.1))
  | none => setMask B checksum ranges group.1 group.2

def configureQualcommLogs : Session Port Failure Unit := do
  let ranges ← queryLogRanges B checksum
  Session.each (configureGroup B checksum ranges explicit)
    (groupLogCodes (selectCodes B ranges explicit profiles)).entries

/-- What is asked of the modem: every explicit code, and the codes of the chosen profiles
that it supports. -/
def Selected (code : UInt16) : Prop :=
  code ∈ explicit ∨ (∃ profile ∈ profiles, code ∈ B.codes profile) ∧ InRange ranges code

def Accepted (group : UInt8 × List UInt16) : Prop :=
  findOutOfRange ranges explicit group.1 group.2 = none

instance (group : UInt8 × List UInt16) : Decidable (Accepted ranges explicit group) :=
  inferInstanceAs (Decidable (_ = _))

def groupPacket (group : UInt8 × List UInt16) : List UInt8 :=
  requestPacket group.1 (lastItemOf ranges group.1) group.2

/-- From a ready port every SET_MASK request gets a response of status 0, and leaves a
ready port. -/
def Acknowledges (ready : Port → Prop) : Prop :=
  ∀ port, ready port → ∀ equip items request,
    setMaskRequest equip (lastItemOf ranges equip) items = .ok request →
    ∃ asked response header data port',
      (sendDiagPacket B checksum request).run port = some (.ok (), asked) ∧
      (waitForLogConfigResponse B checksum logConfigSetMaskOp).run asked =
        some (.ok response, port') ∧
      parseLogConfigHeader response = .ok (header, data) ∧ header.status = 0 ∧ ready port'

/-- The modem behind the port reports the ranges and then acknowledges. -/
def Obliging (port : Port) : Prop :=
  ∃ ready queried, (queryLogRanges B checksum).run port = some (.ok ranges, queried) ∧
    ready queried ∧ Acknowledges B checksum ranges ready

variable {B checksum ranges explicit profiles}

theorem mem_selectCodes {code : UInt16} :
    code ∈ selectCodes B ranges explicit profiles ↔
      Selected B ranges explicit profiles code := by
  rw [selectCodes, mem_sortDedup, List.mem_append, List.mem_filter, mem_mergeProfiles,
    decide_eq_true_iff, Selected]
  by_cases hexplicit : code ∈ explicit
  · simp [hexplicit]
  · simp [hexplicit]

theorem not_toUInt32_gt {item : UInt16} {lastItem : UInt32} :
    ¬ item.toUInt32 > lastItem ↔ item.toUInt32 ≤ lastItem := UInt32.not_lt

/-- The groups of the selected codes, without their lists. -/
theorem mem_items_iff {equip : UInt8} {items : List UInt16}
    (h : (equip, items) ∈ (groupLogCodes (selectCodes B ranges explicit profiles)).entries)
    (item : UInt16) : item ∈ items ↔
      ∃ code, Selected B ranges explicit profiles code ∧ splitLogCode code = (equip, item) := by
  rw [(mem_groupLogCodes h).2 item]
  simp only [mem_selectCodes]

theorem exists_group_selected {equip : UInt8} {items : List UInt16}
    (h : (equip, items) ∈ (groupLogCodes (selectCodes B ranges explicit profiles)).entries) :
    ∃ code, Selected B ranges explicit profiles code ∧ (splitLogCode code).1 = equip := by
  have hne := (mem_groupLogCodes h).1
  obtain ⟨item, hitem⟩ := List.exists_mem_of_ne_nil items hne
  obtain ⟨code, hselected, hsplit⟩ := (mem_items_iff h item).mp hitem
  exact ⟨code, hselected, congrArg Prod.fst hsplit⟩

theorem exists_selected_group {code : UInt16} (h : Selected B ranges explicit profiles code) :
    ∃ items, ((splitLogCode code).1, items) ∈
      (groupLogCodes (selectCodes B ranges explicit profiles)).entries :=
  exists_groupLogCodes (mem_selectCodes.mpr h)

/-- A group passes the check exactly when its explicit codes are in range. -/
theorem accepted_iff {equip : UInt8} {items : List UInt16}
    (h : (equip, items) ∈ (groupLogCodes (selectCodes B ranges explicit profiles)).entries) :
    Accepted ranges explicit (equip, items) ↔
      ∀ code ∈ explicit, (splitLogCode code).1 = equip → InRange ranges code := by
  have hitems := mem_items_iff h
  rw [Accepted, findOutOfRange, List.findSome?_eq_none_iff]
  constructor
  · intro hnone code hcode hequip
    subst hequip
    have hmem := (hitems (splitLogCode code).2).mpr ⟨code, Or.inl hcode, rfl⟩
    have hitem := hnone _ hmem
    rw [joinLogCode_split, ite_eq_right_iff] at hitem
    apply not_toUInt32_gt.mp
    intro hgt
    have hfound := hitem ⟨hcode, hgt⟩
    cases hfound
  · intro hrange item hitem
    obtain ⟨code, -, hsplit⟩ := (hitems item).mp hitem
    have hjoin : joinLogCode equip item = code := by
      have hcode := joinLogCode_split code
      rwa [hsplit] at hcode
    apply if_neg
    intro h
    obtain ⟨hexplicit, hgt⟩ := h
    rw [hjoin] at hexplicit
    have hequip : (splitLogCode code).1 = equip := congrArg Prod.fst hsplit
    have hle := hrange code hexplicit hequip
    rw [InRange, hsplit] at hle
    exact not_toUInt32_gt.mpr hle hgt

theorem accepted_items {equip : UInt8} {items : List UInt16}
    (h : (equip, items) ∈ (groupLogCodes (selectCodes B ranges explicit profiles)).entries)
    (haccepted : Accepted ranges explicit (equip, items)) :
    ∀ item ∈ items, ¬ item.toUInt32 > lastItemOf ranges equip := by
  intro item hitem
  obtain ⟨code, hselected, hsplit⟩ := (mem_items_iff h item).mp hitem
  have hrange : InRange ranges code := by
    rcases hselected with hexplicit | ⟨-, hrange⟩
    · have hequip : (splitLogCode code).1 = equip := congrArg Prod.fst hsplit
      exact (accepted_iff h).mp haccepted code hexplicit hequip
    · exact hrange
  rw [InRange, hsplit] at hrange
  exact not_toUInt32_gt.mpr hrange

variable (B ranges explicit profiles) in
theorem all_accepted_iff :
    (∀ group ∈ (groupLogCodes (selectCodes B ranges explicit profiles)).entries,
      Accepted ranges explicit group) ↔ ∀ code ∈ explicit, InRange ranges code := by
  constructor
  · intro hall code hcode
    have hselected : Selected B ranges explicit profiles code := Or.inl hcode
    obtain ⟨items, hgroup⟩ := exists_selected_group hselected
    exact (accepted_iff hgroup).mp (hall _ hgroup) code hcode rfl
  · intro hrange group hgroup
    exact (accepted_iff hgroup).mpr fun code hcode _ => hrange code hcode

theorem configureGroup_rejected {group : UInt8 × List UInt16} {code : UInt16}
    (h : findOutOfRange ranges explicit group.1 group.2 = some code) (port : Port) :
    (configureGroup B checksum ranges explicit group).run port =
      some (.error (.explicitOutOfRange code group.1 (lastItemOf ranges group.1)), port) := by
  rw [configureGroup, h]
  rfl

theorem queryLogRanges_answered {port asked port' : Port} {response : List UInt8}
    (hsend : (sendDiagPacket B checksum retrieveIdRangesRequest).run port = some (.ok (), asked))
    (hwait : (waitForLogConfigResponse B checksum logConfigRetrieveIdRangesOp).run asked =
      some (.ok response, port'))
    (hparse : parseIdRangesResponse response = .ok ranges) :
    (queryLogRanges B checksum).run port = some (.ok ranges, port') := by
  rw [queryLogRanges, Session.run_bind_ok hsend, Session.run_bind_ok hwait, hparse]
  rfl

/-- A group whose request is answered with status 0. -/
theorem configureGroup_answered {group : UInt8 × List UInt16} {port asked port' : Port}
    {response : List UInt8} {header : LogConfigHeader} {data : List UInt8}
    (haccepted : Accepted ranges explicit group)
    (hrequest : setMaskRequest group.1 (lastItemOf ranges group.1) group.2 =
      .ok (groupPacket ranges group))
    (hsend : (sendDiagPacket B checksum (groupPacket ranges group)).run port =
      some (.ok (), asked))
    (hwait : (waitForLogConfigResponse B checksum logConfigSetMaskOp).run asked =
      some (.ok response, port'))
    (hparse : parseLogConfigHeader response = .ok (header, data)) (hstatus : header.status = 0) :
    (configureGroup B checksum ranges explicit group).run port = some (.ok (), port') := by
  rw [configureGroup, show findOutOfRange ranges explicit group.1 group.2 = none from haccepted]
  change (setMask B checksum ranges group.1 group.2).run port = _
  rw [setMask, hrequest, Session.run_bind_ok (Session.run_lift_ok ..), Session.run_bind_ok hsend,
    Session.run_bind_ok hwait, hparse, Session.run_bind_ok (Session.run_lift_ok ..)]
  simp only [hstatus, ne_eq, not_true_eq_false, if_false]
  rfl

theorem configureGroup_acknowledged {ready : Port → Prop}
    (acks : Acknowledges B checksum ranges ready) {group : UInt8 × List UInt16} {port : Port}
    (hready : ready port) (haccepted : Accepted ranges explicit group)
    (hrequest : setMaskRequest group.1 (lastItemOf ranges group.1) group.2 =
      .ok (groupPacket ranges group)) :
    ∃ port', (configureGroup B checksum ranges explicit group).run port = some (.ok (), port') ∧
      ready port' ∧ port'.sent = port.sent ++ [encodeHdlc checksum (groupPacket ranges group)] := by
  obtain ⟨asked, response, header, data, port', hsend, hwait, hparse, hstatus, hready'⟩ :=
    acks port hready _ _ _ hrequest
  have hasked : asked.sent = port.sent ++ [encodeHdlc checksum (groupPacket ranges group)] :=
    sendDiagPacket_sent B checksum _ port.sent port rfl _ asked hsend
  have hsent : port'.sent = asked.sent :=
    waitForLogConfigResponse_sent B checksum _ asked.sent asked rfl _ port' hwait
  exact ⟨port', configureGroup_answered haccepted hrequest hsend hwait hparse hstatus, hready',
    hsent.trans hasked⟩

variable (explicit) in
/-- The whole loop: it sends the requests of the groups that stand before the first one
that fails the check, and the check is all that can fail. -/
theorem run_groups {ready : Port → Prop} (acks : Acknowledges B checksum ranges ready)
    (groups : List (UInt8 × List UInt16))
    (hgroups : ∀ group ∈ groups, Accepted ranges explicit group →
      setMaskRequest group.1 (lastItemOf ranges group.1) group.2 = .ok (groupPacket ranges group))
    (port : Port) (hready : ready port) :
    ∃ result port',
      (Session.each (configureGroup B checksum ranges explicit) groups).run port =
        some (result, port') ∧
      port'.sent = port.sent ++ (groups.takeWhile (fun group => Accepted ranges explicit group)).map
        (fun group => encodeHdlc checksum (groupPacket ranges group)) ∧
      ((result = .ok () ∧ ∀ group ∈ groups, Accepted ranges explicit group) ∨
        ∃ group ∈ groups, ∃ code, ¬ Accepted ranges explicit group ∧
          result = .error (.explicitOutOfRange code group.1 (lastItemOf ranges group.1))) := by
  induction groups generalizing port with
  | nil => exact ⟨.ok (), port, rfl, by simp, Or.inl ⟨rfl, by simp⟩⟩
  | cons group groups ih =>
    by_cases haccepted : Accepted ranges explicit group
    · obtain ⟨next, hrun, hnext, hsent⟩ := configureGroup_acknowledged acks hready haccepted
        (hgroups group (List.mem_cons_self ..) haccepted)
      obtain ⟨result, port', hrest, hsent', hresult⟩ :=
        ih (fun g hg => hgroups g (List.mem_cons_of_mem _ hg)) next hnext
      refine ⟨result, port', ?_, ?_, ?_⟩
      · rw [Session.each, Session.run_bind_ok hrun, hrest]
      · rw [hsent', hsent, List.takeWhile_cons_of_pos (by simpa using haccepted)]
        simp
      · rcases hresult with ⟨hok, hall⟩ | ⟨g, hg, code, hnot, herr⟩
        · exact Or.inl ⟨hok, List.forall_mem_cons.mpr ⟨haccepted, hall⟩⟩
        · exact Or.inr ⟨g, List.mem_cons_of_mem _ hg, code, hnot, herr⟩
    · obtain ⟨code, hcode⟩ := Option.ne_none_iff_exists'.mp haccepted
      refine ⟨_, port, ?_, ?_, Or.inr ⟨group, List.mem_cons_self .., code, haccepted, rfl⟩⟩
      · rw [Session.each, Session.run_bind_error (configureGroup_rejected hcode port)]
      · rw [List.takeWhile_cons_of_neg (by simpa using haccepted)]
        simp

end Configure

end SixGrok.Qualcomm
