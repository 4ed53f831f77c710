import SixGrok.Qualcomm.Configure

namespace SixGrok.Qualcomm

open SixGrok.Framework

section Sent

variable {π : Type} {B : Backend π} {checksum : List UInt8 → UInt16} {ranges : Vector UInt32 16}
  {explicit : List UInt16} {profiles : List π}

theorem setMaskRequest_group {group : UInt8 × List UInt16}
    (h : group ∈ (groupLogCodes (selectCodes B ranges explicit profiles)).entries)
    (haccepted : Accepted ranges explicit group) :
    setMaskRequest group.1 (lastItemOf ranges group.1) group.2 = .ok (groupPacket ranges group) := by
  obtain ⟨code, -, hequip⟩ := exists_group_selected h
  have hlt := splitLogCode_equip_lt code
  rw [hequip] at hlt
  exact setMaskRequest_ok _ _ _ hlt (accepted_items h haccepted)

variable (B checksum)

/-- However the write ends, nothing but the packet can have been sent. -/
theorem sendDiagPacket_adds (packet : List UInt8) (before : List (List UInt8)) :
    Session.Meets (fun port => port.sent = before) (sendDiagPacket B checksum packet)
      (fun _ port => port.sent = before ++ [encodeHdlc checksum packet])
      (fun _ port => port.sent = before ∨ port.sent = before ++ [encodeHdlc checksum packet]) := by
  intro port hbefore r port' hrun
  subst hbefore
  rw [Session.run, sendDiagPacket] at hrun
  cases hmodem : port.modem (port.sent ++ [encodeHdlc checksum packet]) with
  | writeFailed kind =>
    simp only [hmodem, Option.some.injEq, Prod.mk.injEq] at hrun
    obtain ⟨rfl, rfl⟩ := hrun
    exact .inl rfl
  | flushFailed kind =>
    simp only [hmodem, Option.some.injEq, Prod.mk.injEq] at hrun
    obtain ⟨rfl, rfl⟩ := hrun
    exact .inr rfl
  | written reads =>
    simp only [hmodem, Option.some.injEq, Prod.mk.injEq] at hrun
    obtain ⟨rfl, rfl⟩ := hrun
    rfl

theorem wait_sends_nothing (operation : UInt32) (before : List (List UInt8)) :
    Session.Meets (fun port => port.sent = before)
      (waitForLogConfigResponse B checksum operation)
      (fun _ port => port.sent = before) (fun _ port => port.sent = before) := by
  intro port hbefore r port' hrun
  obtain ⟨⟨result, pending⟩, -, hstep⟩ := Option.map_eq_some_iff.mp hrun
  obtain ⟨rfl, rfl⟩ := Prod.mk.inj hstep
  cases result with
  | ok packet => exact hbefore
  | error failure => exact hbefore

/-- A packet, and what is done with the answer to it. -/
theorem exchange_adds {α : Type} {Q : α → Port → Prop} {E : Failure → Port → Prop}
    (packet : List UInt8) (operation : UInt32) (before : List (List UInt8))
    {rest : List UInt8 → Session Port Failure α}
    (hrest : ∀ response, Session.Meets
      (fun port => port.sent = before ++ [encodeHdlc checksum packet]) (rest response) Q E)
    (hbefore : ∀ failure port, port.sent = before → E failure port)
    (hafter : ∀ failure port, port.sent = before ++ [encodeHdlc checksum packet] → E failure port) :
    Session.Meets (fun port => port.sent = before)
      (sendDiagPacket B checksum packet >>= fun _ =>
        waitForLogConfigResponse B checksum operation >>= rest) Q E := by
  apply Session.Meets.bind
  · refine (sendDiagPacket_adds B checksum packet before).consequence (fun _ h => h)
      (fun _ _ h => h) ?_
    intro failure port h
    rcases h with h | h
    · exact hbefore failure port h
    · exact hafter failure port h
  intro _
  apply Session.Meets.bind
  · exact (wait_sends_nothing B checksum operation _).consequence (fun _ h => h) (fun _ _ h => h)
      hafter
  · exact hrest

/-- A request of the loop has been sent only for a group that passes the check. -/
theorem configureGroup_adds {group : UInt8 × List UInt16}
    (hgroup : Accepted ranges explicit group →
      setMaskRequest group.1 (lastItemOf ranges group.1) group.2 = .ok (groupPacket ranges group))
    (before : List (List UInt8)) :
    let after := before ++ [encodeHdlc checksum (groupPacket ranges group)]
    Session.Meets (fun port => port.sent = before) (configureGroup B checksum ranges explicit group)
      (fun _ port => Accepted ranges explicit group ∧ port.sent = after)
      (fun _ port => port.sent = before ∨ Accepted ranges explicit group ∧ port.sent = after) := by
  intro after
  cases hfind : findOutOfRange ranges explicit group.1 group.2 with
  | some code =>
    rw [configureGroup, hfind]
    exact Session.Meets.fail fun _ h => .inl h
  | none =>
    have haccepted : Accepted ranges explicit group := hfind
    rw [configureGroup, hfind]
    change Session.Meets _ (setMask B checksum ranges group.1 group.2) _ _
    rw [setMask, hgroup haccepted]
    refine exchange_adds B checksum (groupPacket ranges group) logConfigSetMaskOp before ?_
      (fun _ _ h => .inl h) (fun _ _ h => .inr ⟨haccepted, h⟩)
    intro response
    apply Session.Meets.bind
    · exact Session.Meets.lift (fun _ _ h => h) fun _ _ h => .inr ⟨haccepted, h⟩
    intro parsed
    by_cases hstatus : parsed.1.status ≠ 0
    · simp only [hstatus, ne_eq, not_false_eq_true, if_true]
      exact Session.Meets.fail fun _ h => .inr ⟨haccepted, h⟩
    · simp only [hstatus, if_false]
      exact Session.Meets.pure fun _ h => ⟨haccepted, h⟩

/-- However the loop ends, it has sent the requests of the first of the groups. -/
theorem groups_add {groups : List (UInt8 × List UInt16)}
    (hgroups : ∀ group ∈ groups, Accepted ranges explicit group →
      setMaskRequest group.1 (lastItemOf ranges group.1) group.2 = .ok (groupPacket ranges group))
    (before : List (List UInt8)) :
    Session.Meets (fun port => port.sent = before)
      (Session.each (configureGroup B checksum ranges explicit) groups)
      (fun _ port => (∀ group ∈ groups, Accepted ranges explicit group) ∧
        port.sent = before ++ (groups.map (groupPacket ranges)).map (encodeHdlc checksum))
      (fun _ port => ∃ front, front <+: groups ∧ (∀ group ∈ front, Accepted ranges explicit group) ∧
        port.sent = before ++ (front.map (groupPacket ranges)).map (encodeHdlc checksum)) := by
  induction groups generalizing before with
  | nil =>
    refine Session.Meets.pure fun port h => ⟨List.forall_mem_nil _, ?_⟩
    rw [h, List.map_nil, List.map_nil, List.append_nil]
  | cons group groups ih =>
    obtain ⟨hfirst, hrest⟩ := List.forall_mem_cons.mp hgroups
    have hcons (front : List (UInt8 × List UInt16)) :
        before ++ [encodeHdlc checksum (groupPacket ranges group)] ++
            (front.map (groupPacket ranges)).map (encodeHdlc checksum) =
          before ++ ((group :: front).map (groupPacket ranges)).map (encodeHdlc checksum) := by
      rw [List.append_assoc]
      rfl
    rw [Session.each]
    apply Session.Meets.bind
    · refine (configureGroup_adds B checksum hfirst before).consequence (fun _ h => h)
        (fun _ _ h => h) ?_
      intro _ port h
      rcases h with h | ⟨haccepted, h⟩
      · refine ⟨[], List.nil_prefix, List.forall_mem_nil _, ?_⟩
        rw [h, List.map_nil, List.map_nil, List.append_nil]
      · exact ⟨[group], List.prefix_append [group] groups, List.forall_mem_singleton.mpr haccepted, h⟩
    intro _ port h
    obtain ⟨haccepted, hsent⟩ := h
    refine (ih hrest (before ++ [encodeHdlc checksum (groupPacket ranges group)])).consequence
      (fun _ h => h) ?_ ?_ port hsent
    · intro _ port' h
      obtain ⟨hall, hsent'⟩ := h
      rw [hcons] at hsent'
      exact ⟨List.forall_mem_cons.mpr ⟨haccepted, hall⟩, hsent'⟩
    · intro _ port' h
      obtain ⟨front, hfront, hall, hsent'⟩ := h
      rw [hcons] at hsent'
      exact ⟨group :: front, (List.prefix_cons_inj group).mpr hfront,
        List.forall_mem_cons.mpr ⟨haccepted, hall⟩, hsent'⟩

theorem queryLogRanges_adds (before : List (List UInt8)) :
    let after := before ++ [encodeHdlc checksum retrieveIdRangesRequest]
    Session.Meets (fun port => port.sent = before) (queryLogRanges B checksum)
      (fun _ port => port.sent = after) (fun _ port => port.sent = before ∨ port.sent = after) := by
  intro after
  refine exchange_adds B checksum retrieveIdRangesRequest logConfigRetrieveIdRangesOp before ?_
    (fun _ _ h => .inl h) (fun _ _ h => .inr h)
  intro response
  exact Session.Meets.lift (fun _ _ h => h) fun _ _ h => .inr h

variable (explicit profiles) in
/-- What a configuration has sent once it knows the ranges. -/
theorem configure_adds {queried port' : Port} {result : Except Failure Unit}
    (h : (Session.each (configureGroup B checksum ranges explicit)
      (groupLogCodes (selectCodes B ranges explicit profiles)).entries).run queried =
        some (result, port')) :
    ∃ front, front <+: (groupLogCodes (selectCodes B ranges explicit profiles)).entries ∧
      (∀ group ∈ front, Accepted ranges explicit group) ∧
      port'.sent = queried.sent ++ (front.map (groupPacket ranges)).map (encodeHdlc checksum) ∧
      (result = .ok () →
        front = (groupLogCodes (selectCodes B ranges explicit profiles)).entries) := by
  have hgroups : ∀ group ∈ (groupLogCodes (selectCodes B ranges explicit profiles)).entries,
      Accepted ranges explicit group →
        setMaskRequest group.1 (lastItemOf ranges group.1) group.2 =
          .ok (groupPacket ranges group) :=
    fun group hgroup => setMaskRequest_group hgroup
  have hadds := groups_add B checksum hgroups queried.sent queried rfl result port' h
  cases result with
  | ok _ =>
    obtain ⟨hall, hsent⟩ := hadds
    exact ⟨_, List.prefix_rfl, hall, hsent, fun _ => rfl⟩
  | error failure =>
    obtain ⟨front, hfront, hall, hsent⟩ := hadds
    refine ⟨front, hfront, hall, hsent, ?_⟩
    intro hok
    cases hok

end Sent

end SixGrok.Qualcomm
