import SixGrok.Qualcomm.Install

namespace SixGrok.Qualcomm

open SixGrok.Framework

section Reject

variable {π : Type} (B : Backend π) (checksum : List UInt8 → UInt16) (ranges : Vector UInt32 16)
  (explicit : List UInt16) (profiles : List π)

def Failure.IsOutOfRange : Failure → Prop
  | .explicitOutOfRange .. => True
  | _ => False

def NoMaskIn (packets : List (List UInt8)) : Prop :=
  ∀ request, IsSetMask request → encodeHdlc checksum request ∉ packets

/-- A configuration that fails over an explicit code has not sent a single mask. -/
def UntouchedOnReject : Prop :=
  ∀ port queried port' code equip lastItem,
    (queryLogRanges B checksum).run port = some (.ok ranges, queried) →
    (configureQualcommLogs B checksum explicit profiles).run port =
      some (.error (.explicitOutOfRange code equip lastItem), port') →
    ∃ packets, port'.sent = port.sent ++ packets ∧ NoMaskIn checksum packets

/-- An explicit code out of range stands in the first group: the loop meets it before it
sends anything. -/
def RejectedFirst : Prop :=
  ∃ code ∈ explicit, ¬ InRange ranges code ∧
    ∀ other, Selected B ranges explicit profiles other →
      (splitLogCode code).1 ≤ (splitLogCode other).1

variable {B checksum ranges explicit profiles}

/-- Nothing but the check raises its failure. -/
theorem setMask_failure (equip : UInt8) (items : List UInt16) :
    Session.Meets (fun _ => True) (setMask B checksum ranges equip items) (fun _ _ => True)
      (fun failure _ => ¬ failure.IsOutOfRange) := by
  have hport (failure : Failure) (h : ∃ err, failure = .port err) : ¬ failure.IsOutOfRange := by
    obtain ⟨err, rfl⟩ := h
    exact not_false
  have hsend (request : List UInt8) := Session.Meets.exists fun before =>
    sendDiagPacket_sent B checksum request before
  have hwait := Session.Meets.exists fun before =>
    waitForLogConfigResponse_sent B checksum logConfigSetMaskOp before
  unfold setMask
  apply Session.Meets.bind
  · exact Session.Meets.lift (fun _ _ h => h) fun _ _ _ => not_false
  intro request
  apply Session.Meets.bind
  · exact (hsend request).consequence (fun port _ => ⟨port.sent, rfl⟩) (fun _ _ _ => trivial)
      fun failure _ h => hport failure h
  intro _
  apply Session.Meets.bind
  · refine hwait.consequence (fun port _ => ⟨port.sent, rfl⟩) (fun _ _ _ => trivial) ?_
    intro failure _ h
    rcases h with rfl | h
    · exact not_false
    · exact hport failure h
  intro response
  apply Session.Meets.bind
  · exact Session.Meets.lift (fun _ _ h => h) fun _ _ _ => not_false
  intro parsed
  by_cases hstatus : parsed.1.status ≠ 0
  · simp only [hstatus, ne_eq, not_false_eq_true, if_true]
    exact Session.Meets.fail fun _ _ => not_false
  · simp only [hstatus, if_false]
    exact Session.Meets.pure fun _ h => h

variable (B checksum) in
theorem configureGroup_failure {group : UInt8 × List UInt16}
    (h : Accepted ranges explicit group) :
    Session.Meets (fun _ => True) (configureGroup B checksum ranges explicit group)
      (fun _ _ => True) (fun failure _ => ¬ failure.IsOutOfRange) := by
  have hgroup : configureGroup B checksum ranges explicit group =
      setMask B checksum ranges group.1 group.2 := by
    rw [configureGroup, show findOutOfRange ranges explicit group.1 group.2 = none from h]
  rw [hgroup]
  exact setMask_failure group.1 group.2

theorem noMaskIn_query : NoMaskIn checksum [encodeHdlc checksum retrieveIdRangesRequest] := by
  intro request hmask hmem
  have hne : request ≠ [] := by
    intro hempty
    rw [hempty] at hmask
    exact absurd hmask (by decide)
  have hsame := List.mem_singleton.mp hmem
  have hfeed := feed_encodeHdlc checksum request hne
  rw [hsame, feed_encodeHdlc checksum _ (by decide)] at hfeed
  obtain rfl : retrieveIdRangesRequest = request := by simpa using hfeed
  exact absurd hmask (by decide)

/-- The loop begins with the lowest equipment ID that is selected. -/
theorem head_group {head : UInt8 × List UInt16} {rest : List (UInt8 × List UInt16)}
    (hentries : (groupLogCodes (selectCodes B ranges explicit profiles)).entries = head :: rest) :
    head ∈ (groupLogCodes (selectCodes B ranges explicit profiles)).entries ∧
      ∀ code, Selected B ranges explicit profiles code → head.1 ≤ (splitLogCode code).1 := by
  refine ⟨by simp [hentries], ?_⟩
  intro code hselected
  obtain ⟨items, hgroup⟩ := exists_selected_group hselected
  exact OrderedMap.head_le hentries hgroup

variable (checksum) in
/-- The groups in the order of the loop, when one of them holds a rejected code and none
comes before it. -/
theorem run_rejectedFirst (h : RejectedFirst B ranges explicit profiles) (port : Port) :
    ∃ failure, (Session.each (configureGroup B checksum ranges explicit)
      (groupLogCodes (selectCodes B ranges explicit profiles)).entries).run port =
        some (.error failure, port) := by
  obtain ⟨code, hcode, hrange, hfirst⟩ := h
  have hselected : Selected B ranges explicit profiles code := Or.inl hcode
  cases hentries : (groupLogCodes (selectCodes B ranges explicit profiles)).entries with
  | nil =>
    obtain ⟨items, hgroup⟩ := exists_selected_group hselected
    rw [hentries] at hgroup
    cases hgroup
  | cons head rest =>
    obtain ⟨hhead, hleast⟩ := head_group hentries
    have hequip : (splitLogCode code).1 = head.1 := by
      obtain ⟨other, hother, hequip⟩ := exists_group_selected hhead
      have hle := hfirst other hother
      rw [hequip] at hle
      exact le_antisymm hle (hleast code hselected)
    have hreject : ¬ Accepted ranges explicit head := fun haccepted =>
      hrange ((accepted_iff hhead).mp haccepted code hcode hequip)
    obtain ⟨rejected, hfind⟩ := Option.ne_none_iff_exists'.mp hreject
    exact ⟨_, Session.run_bind_error (configureGroup_rejected hfind port)⟩

theorem untouched_of_accepted (h : ∀ code ∈ explicit, InRange ranges code) :
    UntouchedOnReject B checksum ranges explicit profiles := by
  intro port queried port' code equip lastItem hquery hrun
  have haccepted := (all_accepted_iff B ranges explicit profiles).mpr h
  have hloop := Session.Meets.each
    (groupLogCodes (selectCodes B ranges explicit profiles)).entries
    fun group hgroup => configureGroup_failure B checksum (haccepted group hgroup)
  rw [configureQualcommLogs, Session.run_bind_ok hquery] at hrun
  exact absurd trivial (hloop queried trivial _ port' hrun)

theorem untouched_of_rejectedFirst (h : RejectedFirst B ranges explicit profiles) :
    UntouchedOnReject B checksum ranges explicit profiles := by
  intro port queried port' code equip lastItem hquery hrun
  obtain ⟨failure, hloop⟩ := run_rejectedFirst checksum h queried
  rw [configureQualcommLogs, Session.run_bind_ok hquery, hloop] at hrun
  obtain ⟨-, rfl⟩ := Prod.mk.inj (Option.some.inj hrun)
  have hsent := queryLogRanges_sent B checksum port.sent port rfl _ queried hquery
  exact ⟨_, hsent, noMaskIn_query⟩

/-- A modem that acknowledges brings out the masks that go out before the rejection. -/
theorem rejectedFirst_of_untouched (h : UntouchedOnReject B checksum ranges explicit profiles)
    (hrange : ¬ ∀ code ∈ explicit, InRange ranges code) :
    RejectedFirst B ranges explicit profiles := by
  have hobliging := ackPort_obliging B checksum ranges
  obtain ⟨result, port', hrun, hsent, hresult⟩ :=
    run_configure explicit profiles hobliging
  obtain ⟨ready, queried, hquery, -, -⟩ := hobliging
  rcases hresult with ⟨-, hall⟩ | ⟨⟨code, equip, lastItem, rfl⟩, -⟩
  · exact absurd hall hrange
  obtain ⟨packets, hpackets, hnone⟩ := h _ queried port' code equip lastItem hquery hrun
  rw [hsent] at hpackets
  have hsame := List.append_cancel_left hpackets
  cases hentries : (groupLogCodes (selectCodes B ranges explicit profiles)).entries with
  | nil =>
    have hvacuous : ∀ group ∈ (groupLogCodes (selectCodes B ranges explicit profiles)).entries,
        Accepted ranges explicit group := by
      rw [hentries]
      exact List.forall_mem_nil _
    exact absurd ((all_accepted_iff B ranges explicit profiles).mp hvacuous) hrange
  | cons head rest =>
    obtain ⟨hhead, hleast⟩ := head_group hentries
    have hreject : ¬ Accepted ranges explicit head := by
      intro haccepted
      rw [hentries, List.takeWhile_cons_of_pos (by simpa using haccepted)] at hsame
      apply hnone (groupPacket ranges head) (isSetMask_requestPacket ..)
      rw [← hsame]
      simp
    rw [accepted_iff hhead] at hreject
    push Not at hreject
    obtain ⟨code, hcode, hequip, hout⟩ := hreject
    refine ⟨code, hcode, hout, ?_⟩
    intro other hother
    rw [hequip]
    exact hleast other hother

/-- When rejected explicit codes leave the modem untouched: when there are none, or when one
of them is of the lowest equipment ID that is selected at all. -/
theorem untouchedOnReject_iff :
    UntouchedOnReject B checksum ranges explicit profiles ↔
      (∀ code ∈ explicit, InRange ranges code) ∨
        ∃ code ∈ explicit, ¬ InRange ranges code ∧
          ∀ other, Selected B ranges explicit profiles other →
            (splitLogCode code).1 ≤ (splitLogCode other).1 := by
  constructor
  · intro h
    by_cases hrange : ∀ code ∈ explicit, InRange ranges code
    · exact Or.inl hrange
    · exact Or.inr (rejectedFirst_of_untouched h hrange)
  · intro h
    rcases h with hrange | hfirst
    · exact untouched_of_accepted hrange
    · exact untouched_of_rejectedFirst hfirst

end Reject

/-- Item 0 of equipment 1 is fine and goes out; item 0xFFF of equipment 2 is not. -/
theorem not_untouchedOnReject :
    ¬ UntouchedOnReject agentBackend crc16IbmSdlc (Vector.replicate 16 0x100) [0x1000, 0x2FFF]
      [] := by
  intro h
  have hreject : ¬ ∀ code ∈ [0x1000, 0x2FFF], InRange (Vector.replicate 16 0x100) code :=
    fun hall => absurd (hall 0x2FFF (by simp)) (by decide)
  obtain ⟨code, hcode, hrange, hfirst⟩ := rejectedFirst_of_untouched h hreject
  have hle := hfirst 0x1000 (Or.inl (by simp))
  have hcases : code = 0x1000 ∨ code = 0x2FFF := by simpa using hcode
  rcases hcases with rfl | rfl
  · exact hrange (by decide)
  · exact absurd hle (by decide)

end SixGrok.Qualcomm
