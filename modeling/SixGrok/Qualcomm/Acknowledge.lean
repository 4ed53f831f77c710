import SixGrok.Qualcomm.Install

namespace SixGrok.Qualcomm

open SixGrok.Framework

section Arrival

variable {π : Type} (B : Backend π) (checksum : List UInt8 → UInt16)

/-- The bytes that reads bring, whoever reads them. -/
def dataBytes : List ReadOutcome → List UInt8
  | [] => []
  | read :: reads =>
    match B.classify read with
    | .data bytes => bytes ++ dataBytes reads
    | _ => dataBytes reads

/-- The bytes that a wait without an answer takes in before it gives up. -/
def attended : List ReadOutcome → Nat → List UInt8
  | [], _ => []
  | read :: reads, idleTimeouts =>
    match B.classify read with
    | .data bytes => bytes ++ attended reads 0
    | .idle => if idleTimeouts + 1 ≥ 5 then [] else attended reads (idleTimeouts + 1)
    | .retry => attended reads idleTimeouts
    | .fail _ => []

/-- What a read brings a wait, unless it ends it by failing. -/
def Backend.Brings (read : ReadOutcome) (chunk : List UInt8) : Prop :=
  B.classify read = .data chunk ∨
    chunk = [] ∧ (B.classify read = .idle ∨ B.classify read = .retry)

/-- What the modem sent in reply to the write with this number. -/
def Port.answerTo (port : Port) (n : Nat) : List ReadOutcome :=
  match port.modem (port.sent.take (n + 1)) with
  | .written reads => reads
  | _ => []

/-- Every read that the port has got from the write with this number on. -/
def Port.delivered (port : Port) (n : Nat) : List ReadOutcome :=
  (List.range' n (port.sent.length - n)).flatMap port.answerTo

/-- The frames that end behind the bytes that were already there. -/
def heard (before after : List UInt8) : List (Except FrameError (List UInt8)) :=
  (feed (HdlcDecoder.push checksum) (feed (HdlcDecoder.push checksum) {} before).2 after).1

/-- A SET_MASK response with this status, in which the equipment ID stands behind the status. -/
def IsMaskResponse (packet : List UInt8) (status : UInt32) (equip : UInt8) : Prop :=
  ∃ header data, parseLogConfigHeader packet = .ok (header, data) ∧
    header.operation = logConfigSetMaskOp ∧ header.status = status ∧
    readU32 data 0 = .ok equip.toUInt32

def firstAnswer (operation : UInt32) (bytes : List UInt8) : Option (List UInt8) :=
  (feed (HdlcDecoder.push checksum) {} bytes).1.findSome? (answers operation)

variable {B}

theorem dataBytes_append (reads more : List ReadOutcome) :
    dataBytes B (reads ++ more) = dataBytes B reads ++ dataBytes B more := by
  induction reads with
  | nil => rfl
  | cons read reads ih =>
    rw [List.cons_append, dataBytes, dataBytes, ih]
    cases B.classify read <;> simp

theorem attended_initial (reads : List ReadOutcome) (idleTimeouts : Nat) :
    attended B reads idleTimeouts <+: dataBytes B reads := by
  induction reads generalizing idleTimeouts with
  | nil => exact List.prefix_rfl
  | cons read reads ih =>
    rw [attended, dataBytes]
    cases B.classify read with
    | data bytes => exact (List.prefix_append_right_inj bytes).mpr (ih 0)
    | idle =>
      dsimp only
      split_ifs
      · exact List.nil_prefix
      · exact ih _
    | retry => exact ih idleTimeouts
    | fail err => exact List.nil_prefix

/-- A wait either gives up within the first reads or takes all their bytes in. -/
theorem attended_append (reads more : List ReadOutcome) (idleTimeouts : Nat) :
    attended B (reads ++ more) idleTimeouts = attended B reads idleTimeouts ∨
      attended B reads idleTimeouts = dataBytes B reads ∧
        ∃ idleTimeouts', attended B (reads ++ more) idleTimeouts =
          dataBytes B reads ++ attended B more idleTimeouts' := by
  induction reads generalizing idleTimeouts with
  | nil => exact Or.inr ⟨rfl, idleTimeouts, rfl⟩
  | cons read reads ih =>
    rw [List.cons_append, attended, attended, dataBytes]
    cases B.classify read with
    | data bytes =>
      rcases ih 0 with hsame | ⟨hall, idleTimeouts', hrest⟩
      · exact Or.inl (congrArg (bytes ++ ·) hsame)
      · refine Or.inr ⟨congrArg (bytes ++ ·) hall, idleTimeouts', ?_⟩
        simp only [hrest, List.append_assoc]
    | idle =>
      dsimp only
      split_ifs
      · exact Or.inl rfl
      · exact ih _
    | retry => exact ih idleTimeouts
    | fail err => exact Or.inl rfl

theorem Port.delivered_eq {port : Port} {n : Nat} (h : n < port.sent.length) :
    port.delivered n = port.answerTo n ++ port.delivered (n + 1) := by
  have hcount : port.sent.length - n = port.sent.length - (n + 1) + 1 := by omega
  rw [Port.delivered, hcount, List.range'_succ, List.flatMap_cons]
  rfl

theorem heard_append (before after more : List UInt8) :
    ∃ later, heard checksum before (after ++ more) = heard checksum before after ++ later := by
  rw [heard, feed_append]
  exact ⟨_, rfl⟩

variable {checksum}

/-- Everything that the first read can do to a wait that ends well. -/
theorem waitLoop_cons_ok {operation : UInt32} {read : ReadOutcome} {reads rest : List ReadOutcome}
    {hdlc : HdlcDecoder} {idleTimeouts : Nat} {packet : List UInt8}
    (h : waitLoop B checksum operation (read :: reads) hdlc idleTimeouts =
      some (.ok packet, rest)) :
    ∃ chunk idleTimeouts', B.Brings read chunk ∧
      attended B (read :: reads) idleTimeouts = chunk ++ attended B reads idleTimeouts' ∧
      ((∃ hdlc', takeResponse checksum operation hdlc chunk = (some packet, hdlc') ∧
          rest = reads) ∨
        (feed (HdlcDecoder.push checksum) hdlc chunk).1.findSome? (answers operation) = none ∧
          waitLoop B checksum operation reads (feed (HdlcDecoder.push checksum) hdlc chunk).2
            idleTimeouts' = some (.ok packet, rest)) := by
  rw [waitLoop] at h
  rw [attended]
  cases hclass : B.classify read with
  | data bytes =>
    have hfound := takeResponse_fst checksum operation hdlc bytes
    simp only [hclass] at h
    refine ⟨bytes, 0, Or.inl hclass, rfl, ?_⟩
    cases htake : takeResponse checksum operation hdlc bytes with
    | mk found hdlc' =>
      rw [htake] at h hfound
      cases found with
      | none =>
        rw [takeResponse_snd htake] at h
        exact Or.inr ⟨hfound.symm, h⟩
      | some found =>
        have hsame : found = packet ∧ reads = rest := by simpa using h
        rw [hsame.1]
        exact Or.inl ⟨hdlc', rfl, hsame.2.symm⟩
  | idle =>
    simp only [hclass] at h ⊢
    split_ifs at h ⊢
    · simp at h
    · exact ⟨[], idleTimeouts + 1, Or.inr ⟨rfl, Or.inl hclass⟩, rfl, Or.inr ⟨rfl, h⟩⟩
  | retry =>
    simp only [hclass] at h
    exact ⟨[], idleTimeouts, Or.inr ⟨rfl, Or.inr hclass⟩, rfl, Or.inr ⟨rfl, h⟩⟩
  | fail err => simp [hclass] at h

/-- The wait finds the first answer in the bytes that it takes in. -/
theorem waitLoop_ok {operation : UInt32} {reads rest : List ReadOutcome} {hdlc : HdlcDecoder}
    {idleTimeouts : Nat} {packet : List UInt8}
    (h : waitLoop B checksum operation reads hdlc idleTimeouts = some (.ok packet, rest)) :
    (feed (HdlcDecoder.push checksum) hdlc (attended B reads idleTimeouts)).1.findSome?
      (answers operation) = some packet := by
  induction reads generalizing hdlc idleTimeouts with
  | nil => cases h
  | cons read reads ih =>
    obtain ⟨chunk, idleTimeouts', -, hattended, ⟨hdlc', htake, -⟩ | ⟨hnone, hrest⟩⟩ :=
      waitLoop_cons_ok h
    · have hfound := takeResponse_fst checksum operation hdlc chunk
      rw [htake] at hfound
      rw [hattended, findSome?_feed_append, ← hfound, Option.some_or]
    · rw [hattended, findSome?_feed_append, hnone, Option.none_or]
      exact ih hrest

theorem answers_eq_some {operation : UInt32} {frame : Except FrameError (List UInt8)}
    {packet : List UInt8} (h : answers operation frame = some packet) : frame = .ok packet := by
  cases frame with
  | error err => cases h
  | ok found =>
    rw [answers] at h
    split at h
    · cases h
    · split_ifs at h
      exact congrArg Except.ok (Option.some.inj h)

/-- The answer that a wait finds is new when the unread bytes hold none. -/
theorem heard_of_firstAnswer {operation : UInt32} {unread reads more : List ReadOutcome}
    {packet : List UInt8}
    (hfound : firstAnswer checksum operation (attended B (unread ++ reads) 0) = some packet)
    (hnone : firstAnswer checksum operation (attended B unread 0) = none) :
    .ok packet ∈ heard checksum (dataBytes B unread) (dataBytes B (reads ++ more)) := by
  rcases attended_append (B := B) unread reads 0 with hsame | ⟨hall, idleTimeouts, hrest⟩
  · rw [hsame, hnone] at hfound
    cases hfound
  rw [firstAnswer, hall] at hnone
  rw [firstAnswer, hrest, feed_append, List.findSome?_append, hnone, Option.none_or] at hfound
  obtain ⟨frame, hframe, hanswers⟩ := List.exists_of_findSome?_eq_some hfound
  rw [answers_eq_some hanswers] at hframe
  obtain ⟨behind, hbehind⟩ := attended_initial (B := B) reads idleTimeouts
  obtain ⟨later, hlater⟩ := heard_append checksum (dataBytes B unread)
    (attended B reads idleTimeouts) (behind ++ dataBytes B more)
  rw [dataBytes_append, ← hbehind, List.append_assoc, hlater]
  exact List.mem_append_left later hframe

end Arrival

section Acknowledge

variable {π : Type} (B : Backend π) (checksum : List UInt8 → UInt16) (ranges : Vector UInt32 16)
  (explicit : List UInt16) (profiles : List π)

/-- The loop of a configuration stands before this group. -/
def AtGroup (queried : Port) (front : List (UInt8 × List UInt16)) (group : UInt8 × List UInt16)
    (before : Port) : Prop :=
  (∃ back, (groupLogCodes (selectCodes B ranges explicit profiles)).entries =
    front ++ group :: back) ∧
  (Session.each (configureGroup B checksum ranges explicit) front).run queried =
    some (.ok (), before)

/-- Behind the request for the equipment ID comes a response that enables it. -/
def Acknowledged (before port' : Port) (equip : UInt8) : Prop :=
  ∃ packet, .ok packet ∈ heard checksum (dataBytes B before.pending)
      (dataBytes B (port'.delivered before.sent.length)) ∧
    IsMaskResponse packet 0 equip

/-- The mask of each group that was configured has been acknowledged. -/
def AllAcknowledged (port port' : Port) : Prop :=
  ∃ ranges queried, (queryLogRanges B checksum).run port = some (.ok ranges, queried) ∧
    ∀ group ∈ (groupLogCodes (selectCodes B ranges explicit profiles)).entries,
      ∃ front before, AtGroup B checksum ranges explicit profiles queried front group before ∧
        Acknowledged B checksum before port' group.1

/-- If the modem's reply to the request for this group brings the wait an answer, then the
unread bytes held none, and it is an answer for the same equipment ID. -/
def Matched (before : Port) (group : UInt8 × List UInt16) : Prop :=
  ∀ reads packet,
    before.modem (before.sent ++ [encodeHdlc checksum (groupPacket ranges group)]) =
      .written reads →
    firstAnswer checksum logConfigSetMaskOp (attended B (before.pending ++ reads) 0) =
      some packet →
    firstAnswer checksum logConfigSetMaskOp (attended B before.pending 0) = none ∧
      ∃ status, IsMaskResponse packet status group.1

def AllMatched (port : Port) : Prop :=
  ∀ ranges queried front group before,
    (queryLogRanges B checksum).run port = some (.ok ranges, queried) →
    AtGroup B checksum ranges explicit profiles queried front group before →
    Matched B checksum ranges before group

variable {B checksum ranges explicit profiles}

theorem sendDiagPacket_ok {packet : List UInt8} {port port' : Port}
    (h : (sendDiagPacket B checksum packet).run port = some (.ok (), port')) :
    ∃ reads, port.modem (port.sent ++ [encodeHdlc checksum packet]) = .written reads ∧
      port' = { port with sent := port.sent ++ [encodeHdlc checksum packet],
                          pending := port.pending ++ reads } := by
  cases hmodem : port.modem (port.sent ++ [encodeHdlc checksum packet]) with
  | writeFailed kind | flushFailed kind =>
    simp [Session.run, sendDiagPacket, hmodem] at h
  | written reads =>
    have hwritten := Session.run_ok_unique (sendDiagPacket_written hmodem) h
    exact ⟨reads, rfl, hwritten.2.symm⟩

/-- Everything that a configured group has done. -/
theorem configureGroup_ok {group : UInt8 × List UInt16} {before port' : Port}
    (hgroup : group ∈ (groupLogCodes (selectCodes B ranges explicit profiles)).entries)
    (h : (configureGroup B checksum ranges explicit group).run before = some (.ok (), port')) :
    ∃ reads packet header data pending,
      before.modem (before.sent ++ [encodeHdlc checksum (groupPacket ranges group)]) =
        .written reads ∧
      waitLoop B checksum logConfigSetMaskOp (before.pending ++ reads) {} 0 =
        some (.ok packet, pending) ∧
      parseLogConfigHeader packet = .ok (header, data) ∧ header.status = 0 ∧
      port' = { before with
        sent := before.sent ++ [encodeHdlc checksum (groupPacket ranges group)], pending } := by
  cases hfind : findOutOfRange ranges explicit group.1 group.2 with
  | some code =>
    rw [configureGroup_rejected hfind] at h
    simp at h
  | none =>
    have hset : configureGroup B checksum ranges explicit group =
        setMask B checksum ranges group.1 group.2 := by
      rw [configureGroup, hfind]
    rw [hset, setMask, setMaskRequest_group hgroup hfind,
      Session.run_bind_ok (Session.run_lift_ok ..)] at h
    obtain ⟨_, asked, hsend, h⟩ := Session.run_bind_eq_ok h
    obtain ⟨reads, hmodem, rfl⟩ := sendDiagPacket_ok hsend
    obtain ⟨packet, waited, hwait, h⟩ := Session.run_bind_eq_ok h
    obtain ⟨⟨result, pending⟩, hloop, hstep⟩ := Option.map_eq_some_iff.mp hwait
    obtain ⟨rfl, rfl⟩ := Prod.mk.inj hstep
    obtain ⟨⟨header, data⟩, parsed, hlift, h⟩ := Session.run_bind_eq_ok h
    obtain ⟨hparse, rfl⟩ := Session.run_lift_eq_ok hlift
    refine ⟨reads, packet, header, data, pending, hmodem, hloop, hparse, ?_⟩
    dsimp only at h
    split_ifs at h with hstatus
    · simp [Session.run, Session.fail] at h
    · have hdone := Session.run_pure_eq_ok h
      exact ⟨not_not.mp hstatus, hdone.2.symm⟩

/-- Groups only write to the port, behind what it has sent. -/
theorem each_extends {groups : List (UInt8 × List UInt16)} {before port' : Port}
    (hgroups : ∀ group ∈ groups,
      group ∈ (groupLogCodes (selectCodes B ranges explicit profiles)).entries)
    (h : (Session.each (configureGroup B checksum ranges explicit) groups).run before =
      some (.ok (), port')) :
    port'.modem = before.modem ∧ before.sent <+: port'.sent := by
  induction groups generalizing before with
  | nil =>
    have hdone := Session.run_ok_unique (Session.run_each_nil _ before) h
    rw [← hdone.2]
    exact ⟨rfl, List.prefix_rfl⟩
  | cons group groups ih =>
    obtain ⟨_, next, hgroup, hrest⟩ := Session.run_bind_eq_ok h
    obtain ⟨reads, packet, header, data, pending, -, -, -, -, rfl⟩ :=
      configureGroup_ok (hgroups group (List.mem_cons_self ..)) hgroup
    obtain ⟨hmodem, hsent⟩ := ih (fun g hg => hgroups g (List.mem_cons_of_mem _ hg)) hrest
    exact ⟨hmodem, (List.prefix_append _ _).trans hsent⟩

/-- The reply to a request is the first thing that the port gets from it on. -/
theorem delivered_reply {before port' : Port} {request : List UInt8} {reads : List ReadOutcome}
    (hreply : before.modem (before.sent ++ [request]) = .written reads)
    (hmodem : port'.modem = before.modem) (hsent : before.sent ++ [request] <+: port'.sent) :
    ∃ more, port'.delivered before.sent.length = reads ++ more := by
  have hlength : before.sent.length + 1 ≤ port'.sent.length := by
    simpa using hsent.length_le
  have htake : port'.sent.take (before.sent.length + 1) = before.sent ++ [request] := by
    obtain ⟨later, hlater⟩ := hsent
    rw [← hlater]
    exact List.take_left' (by simp)
  have hanswer : port'.answerTo before.sent.length = reads := by
    rw [Port.answerTo, htake, hmodem, hreply]
  refine ⟨port'.delivered (before.sent.length + 1), ?_⟩
  rw [Port.delivered_eq hlength, hanswer]

/-- One group of a configuration that came to its end. -/
theorem acknowledged_of_matched {group : UInt8 × List UInt16}
    {back : List (UInt8 × List UInt16)} {before port' : Port}
    (hgroups : ∀ g ∈ group :: back,
      g ∈ (groupLogCodes (selectCodes B ranges explicit profiles)).entries)
    (h : (Session.each (configureGroup B checksum ranges explicit) (group :: back)).run before =
      some (.ok (), port'))
    (matched : Matched B checksum ranges before group) :
    Acknowledged B checksum before port' group.1 := by
  obtain ⟨_, next, hgroup, hrest⟩ := Session.run_bind_eq_ok h
  obtain ⟨reads, packet, header, data, pending, hreply, hloop, hparse, hstatus, rfl⟩ :=
    configureGroup_ok (hgroups group (List.mem_cons_self ..)) hgroup
  obtain ⟨hmodem, hsent⟩ := each_extends (fun g hg => hgroups g (List.mem_cons_of_mem _ hg)) hrest
  obtain ⟨more, hmore⟩ := delivered_reply hreply hmodem hsent
  obtain ⟨hnone, status, header', data', hparse', hoperation, -, hequip⟩ :=
    matched reads packet hreply (waitLoop_ok hloop)
  obtain ⟨rfl, rfl⟩ := Prod.mk.inj (Except.ok.inj (hparse.symm.trans hparse'))
  refine ⟨packet, ?_, header, data, hparse, hoperation, hstatus, hequip⟩
  rw [hmore]
  exact heard_of_firstAnswer (waitLoop_ok hloop) hnone

/-- When every answer that ends a wait belongs to the request before it, a configuration that
succeeds has had the mask of each equipment ID acknowledged behind its request. -/
theorem configure_acknowledged {port port' : Port}
    (h : (configureQualcommLogs B checksum explicit profiles).run port = some (.ok (), port'))
    (matched : AllMatched B checksum explicit profiles port) :
    AllAcknowledged B checksum explicit profiles port port' := by
  obtain ⟨ranges, queried, hquery, heach⟩ := Session.run_bind_eq_ok h
  refine ⟨ranges, queried, hquery, ?_⟩
  intro group hgroup
  obtain ⟨front, back, hentries⟩ := List.append_of_mem hgroup
  rw [hentries, Session.each_append] at heach
  obtain ⟨_, before, hfront, hback⟩ := Session.run_bind_eq_ok heach
  have hat : AtGroup B checksum ranges explicit profiles queried front group before :=
    ⟨⟨back, hentries⟩, hfront⟩
  have hgroups : ∀ g ∈ group :: back,
      g ∈ (groupLogCodes (selectCodes B ranges explicit profiles)).entries := by
    intro g hg
    rw [hentries]
    exact List.mem_append_right front hg
  exact ⟨front, before, hat, acknowledged_of_matched hgroups hback
    (matched ranges queried front group before hquery hat)⟩

end Acknowledge

section Replies

variable {π : Type} (B : Backend π) (checksum : List UInt8 → UInt16)

/-- A port whose modem has its replies ready, for one write after the other. -/
def scriptedPort (replies : List (List ReadOutcome)) (sent : List (List UInt8))
    (pending : List ReadOutcome) : Port where
  modem sent := .written (replies.getD (sent.length - 1) [])
  sent := sent
  pending := pending

def maskResponse (status : UInt32) (equip : UInt8) : List UInt8 :=
  logConfigResponse logConfigSetMaskOp status (u32ToLe equip.toUInt32)

theorem maskResponse_ne_nil (status : UInt32) (equip : UInt8) : maskResponse status equip ≠ [] :=
  logConfigResponse_ne_nil _ _ _

theorem answers_maskResponse (status : UInt32) (equip : UInt8) :
    answers logConfigSetMaskOp (.ok (maskResponse status equip)) =
      some (maskResponse status equip) := answers_setMask ..

theorem dataBytes_frameReads (packets : List (List UInt8)) :
    dataBytes B (frameReads checksum packets) =
      (packets.map (encodeHdlc checksum)).flatten := by
  induction packets with
  | nil => rfl
  | cons packet packets ih =>
    have hclass := classify_encodeHdlc B checksum packet []
    rw [List.append_nil] at hclass
    rw [frameReads, List.map_cons, dataBytes, hclass, List.map_cons, List.flatten_cons, ← ih]
    rfl

theorem attended_frameReads (packets : List (List UInt8)) (idleTimeouts : Nat) :
    attended B (frameReads checksum packets) idleTimeouts =
      (packets.map (encodeHdlc checksum)).flatten := by
  induction packets generalizing idleTimeouts with
  | nil => rfl
  | cons packet packets ih =>
    have hclass := classify_encodeHdlc B checksum packet []
    rw [List.append_nil] at hclass
    rw [frameReads, List.map_cons, attended, hclass, List.map_cons, List.flatten_cons, ← ih 0]
    rfl

theorem firstAnswer_frameReads (operation : UInt32) {packets : List (List UInt8)}
    (nonempty : ∀ p ∈ packets, p ≠ []) (idleTimeouts : Nat) :
    firstAnswer checksum operation (attended B (frameReads checksum packets) idleTimeouts) =
      packets.findSome? fun packet => answers operation (.ok packet) := by
  rw [firstAnswer, attended_frameReads, feed_encodeHdlc_packets _ _ nonempty, List.findSome?_map]
  rfl

theorem heard_frameReads {before after : List (List UInt8)} (hbefore : ∀ p ∈ before, p ≠ [])
    (hafter : ∀ p ∈ after, p ≠ []) :
    heard checksum (dataBytes B (frameReads checksum before))
      (dataBytes B (frameReads checksum after)) = after.map .ok := by
  rw [heard, dataBytes_frameReads, dataBytes_frameReads, feed_encodeHdlc_packets _ _ hbefore,
    feed_encodeHdlc_packets _ _ hafter]

theorem isMaskResponse_maskResponse (status status' : UInt32) (equip equip' : UInt8) :
    IsMaskResponse (maskResponse status equip) status' equip' ↔
      status = status' ∧ equip = equip' := by
  have hread : readU32 (u32ToLe equip.toUInt32) 0 = .ok equip.toUInt32 := by
    rw [readU32, if_pos (by simp), List.drop_zero, List.take_of_length_le (by simp), u32FromLe_toLe]
  have hwiden : equip.toUInt32 = equip'.toUInt32 ↔ equip = equip' := by
    rw [← UInt32.toNat_inj, UInt8.toNat_toUInt32, UInt8.toNat_toUInt32, UInt8.toNat_inj]
  constructor
  · intro h
    obtain ⟨header, data, hparse, -, hstatus, hequip⟩ := h
    rw [maskResponse, parseLogConfigHeader_response] at hparse
    obtain ⟨rfl, rfl⟩ := Prod.mk.inj (Except.ok.inj hparse)
    exact ⟨hstatus, hwiden.mp (Except.ok.inj (hread.symm.trans hequip))⟩
  · intro h
    obtain ⟨rfl, rfl⟩ := h
    exact ⟨_, _, parseLogConfigHeader_response .., rfl, rfl, hread⟩

section Run

variable (replies : List (List ReadOutcome)) (sent : List (List UInt8))
  (pending : List ReadOutcome) {others : List (List UInt8)} {rest : List ReadOutcome}
  {more : List UInt8}
  {ranges : Vector UInt32 16} {explicit : List UInt16} {profiles : List π}

theorem modem_scripted (request : List UInt8) :
    (scriptedPort replies sent pending).modem (sent ++ [request]) =
      .written (replies.getD sent.length []) := by
  simp [scriptedPort]

theorem query_scripted
    (hreply : replies.getD 0 [] = [.ok (encodeHdlc checksum (idRangesResponse ranges))]) :
    (queryLogRanges B checksum).run (scriptedPort replies [] []) =
      some (.ok ranges,
        scriptedPort replies [encodeHdlc checksum retrieveIdRangesRequest] []) := by
  have hreads : [] ++ replies.getD ([] : List (List UInt8)).length [] =
      [.ok (encodeHdlc checksum (idRangesResponse ranges) ++ [])] := by
    rw [List.append_nil]
    exact hreply
  obtain ⟨asked, hsend, hwait⟩ := exchange_answered B checksum
    (modem_scripted replies [] [] (encodeHdlc checksum retrieveIdRangesRequest))
    (List.forall_mem_nil _) (List.forall_mem_nil _) hreads (logConfigResponse_ne_nil _ _ _)
    (answers_idRangesResponse ranges)
  exact queryLogRanges_answered hsend hwait (parseIdRangesResponse_response ranges)

/-- A group whose response comes in behind packets that are none. -/
theorem group_scripted (group : UInt8 × List UInt16) (equip : UInt8)
    (hgroup : group ∈ (groupLogCodes (selectCodes B ranges explicit profiles)).entries)
    (haccepted : Accepted ranges explicit group) (hnonempty : ∀ p ∈ others, p ≠ [])
    (hothers : ∀ p ∈ others, answers logConfigSetMaskOp (.ok p) = none)
    (hreply : pending ++ replies.getD sent.length [] = frameReads checksum others ++
      .ok (encodeHdlc checksum (maskResponse 0 equip) ++ more) :: rest) :
    (configureGroup B checksum ranges explicit group).run (scriptedPort replies sent pending) =
      some (.ok (), scriptedPort replies
        (sent ++ [encodeHdlc checksum (groupPacket ranges group)]) rest) := by
  obtain ⟨asked, hsend, hwait⟩ := exchange_answered B checksum
    (modem_scripted replies sent pending (encodeHdlc checksum (groupPacket ranges group)))
    hnonempty hothers hreply (maskResponse_ne_nil _ _) (answers_maskResponse ..)
  exact configureGroup_answered haccepted (setMaskRequest_group hgroup haccepted) hsend hwait
    (parseLogConfigHeader_response ..) rfl

variable (explicit profiles) in
/-- A configuration with one group. -/
theorem configure_scripted {group : UInt8 × List UInt16} (equip : UInt8)
    (hentries : (groupLogCodes (selectCodes B ranges explicit profiles)).entries = [group])
    (haccepted : Accepted ranges explicit group)
    (hranges : replies.getD 0 [] = [.ok (encodeHdlc checksum (idRangesResponse ranges))])
    (hreply : replies.getD 1 [] = .ok (encodeHdlc checksum (maskResponse 0 equip) ++ more) :: rest) :
    (configureQualcommLogs B checksum explicit profiles).run (scriptedPort replies [] []) =
      some (.ok (), scriptedPort replies ([encodeHdlc checksum retrieveIdRangesRequest] ++
        [encodeHdlc checksum (groupPacket ranges group)]) rest) := by
  have hgroup : group ∈ (groupLogCodes (selectCodes B ranges explicit profiles)).entries := by
    rw [hentries]
    exact List.mem_singleton_self group
  have hquery := query_scripted B checksum replies hranges
  have hmask := group_scripted B checksum replies [encodeHdlc checksum retrieveIdRangesRequest] []
    group equip hgroup haccepted (List.forall_mem_nil _) (List.forall_mem_nil _) hreply
  rw [configureQualcommLogs, Session.run_bind_ok hquery, hentries,
    Session.run_each_singleton hmask]

/-- What the last of its writes has brought a scripted port. -/
theorem acknowledged_scripted {before after : List (List UInt8)} (request : List UInt8)
    (equip : UInt8) (hbefore : ∀ p ∈ before, p ≠ []) (hafter : ∀ p ∈ after, p ≠ [])
    (hreply : replies.getD sent.length [] = frameReads checksum after) :
    Acknowledged B checksum (scriptedPort replies sent (frameReads checksum before))
        (scriptedPort replies (sent ++ [request]) rest) equip ↔
      ∃ packet ∈ after, IsMaskResponse packet 0 equip := by
  have hsent : sent.length < (scriptedPort replies (sent ++ [request]) rest).sent.length := by
    simp [scriptedPort]
  have hnew : (scriptedPort replies (sent ++ [request]) rest).delivered sent.length =
      frameReads checksum after := by
    rw [Port.delivered_eq hsent, Port.delivered, ← hreply]
    simp [scriptedPort, Port.answerTo]
  have hheard := heard_frameReads B checksum hbefore hafter
  rw [Acknowledged]
  change (∃ packet, .ok packet ∈ heard checksum (dataBytes B (frameReads checksum before))
    (dataBytes B (Port.delivered _ sent.length)) ∧ _) ↔ _
  simp only [hnew, hheard, List.mem_map, Except.ok.injEq, exists_eq_right]

/-- A reply whose first answer is for the group, behind unread packets that are none. -/
theorem matched_scripted {group : UInt8 × List UInt16} {unread packets : List (List UInt8)}
    (status : UInt32) (hreply : replies.getD sent.length [] = frameReads checksum packets)
    (hunread : ∀ p ∈ unread, p ≠ []) (hpackets : ∀ p ∈ packets, p ≠ [])
    (hnone : unread.findSome? (fun p => answers logConfigSetMaskOp (.ok p)) = none)
    (hfirst : packets.findSome? (fun p => answers logConfigSetMaskOp (.ok p)) =
      some (maskResponse status group.1)) :
    Matched B checksum ranges (scriptedPort replies sent (frameReads checksum unread)) group := by
  intro reads packet hmodem hfound
  have hpending : (scriptedPort replies sent (frameReads checksum unread)).pending ++
      frameReads checksum packets = frameReads checksum (unread ++ packets) :=
    List.map_append.symm
  obtain rfl := WriteOutcome.written.inj ((modem_scripted ..).symm.trans hmodem)
  rw [hreply, hpending, firstAnswer_frameReads B checksum _ (List.forall_mem_append.mpr
    ⟨hunread, hpackets⟩), List.findSome?_append, hnone, hfirst, Option.none_or] at hfound
  obtain rfl := Option.some.inj hfound
  refine ⟨?_, status, (isMaskResponse_maskResponse ..).mpr ⟨rfl, rfl⟩⟩
  exact (firstAnswer_frameReads B checksum _ hunread _).trans hnone

end Run

end Replies

section TwoMasks

theorem twoMasks_entries :
    (groupLogCodes (selectCodes agentBackend (Vector.replicate 16 0xA00)
      [0x1001, 0x2001] [])).entries = [(1, [1]), (2, [1])] := by decide

theorem twoMasks_split {front back : List (UInt8 × List UInt16)} {group : UInt8 × List UInt16}
    (h : [(1, [1]), (2, [1])] = front ++ group :: back) :
    front = [] ∧ group = (1, [1]) ∨ front = [(1, [1])] ∧ group = (2, [1]) := by
  rcases front with _ | ⟨head, _ | ⟨next, front⟩⟩
  · simp at h
    exact Or.inl ⟨rfl, h.1.symm⟩
  · simp at h
    exact Or.inr ⟨by rw [h.1], h.2.1.symm⟩
  · simp at h

/-- The requests of a configuration with one code for each of two equipment IDs. -/
def twoMasks : List (List UInt8) :=
  [retrieveIdRangesRequest, groupPacket (Vector.replicate 16 0xA00) (1, [1]),
    groupPacket (Vector.replicate 16 0xA00) (2, [1])].map (encodeHdlc crc16IbmSdlc)

/-- The port behind the query, behind the first mask and behind the second one. -/
theorem twoMasks_run {first second others behind others' unread : List (List UInt8)}
    {equip equip' : UInt8}
    (hothers : ∀ p ∈ others, p ≠ [] ∧ answers logConfigSetMaskOp (.ok p) = none)
    (hothers' : ∀ p ∈ others', p ≠ [] ∧ answers logConfigSetMaskOp (.ok p) = none)
    (hfirst : first = others ++ maskResponse 0 equip :: behind)
    (hsecond : behind ++ second = others' ++ maskResponse 0 equip' :: unread) :
    let ranges : Vector UInt32 16 := Vector.replicate 16 0xA00
    let port (n : Nat) (pending : List (List UInt8)) :=
      scriptedPort ([[idRangesResponse ranges], first, second].map (frameReads crc16IbmSdlc))
        (twoMasks.take n) (frameReads crc16IbmSdlc pending)
    (queryLogRanges agentBackend crc16IbmSdlc).run (port 0 []) = some (.ok ranges, port 1 []) ∧
    (configureGroup agentBackend crc16IbmSdlc ranges [0x1001, 0x2001] (1, [1])).run (port 1 []) =
      some (.ok (), port 2 behind) ∧
    (configureQualcommLogs agentBackend crc16IbmSdlc [0x1001, 0x2001] []).run (port 0 []) =
      some (.ok (), port 3 unread) := by
  intro ranges port
  let replies := [[idRangesResponse ranges], first, second].map (frameReads crc16IbmSdlc)
  have hquery : (queryLogRanges agentBackend crc16IbmSdlc).run (port 0 []) =
      some (.ok ranges, port 1 []) := query_scripted agentBackend crc16IbmSdlc replies rfl
  have hreply : [] ++ replies.getD (twoMasks.take 1).length [] = frameReads crc16IbmSdlc others ++
      .ok (encodeHdlc crc16IbmSdlc (maskResponse 0 equip) ++ []) ::
        frameReads crc16IbmSdlc behind := by
    rw [List.append_nil]
    exact (congrArg (frameReads crc16IbmSdlc) hfirst).trans List.map_append
  have hbehind : frameReads crc16IbmSdlc behind ++ replies.getD (twoMasks.take 2).length [] =
      frameReads crc16IbmSdlc others' ++
        .ok (encodeHdlc crc16IbmSdlc (maskResponse 0 equip') ++ []) ::
          frameReads crc16IbmSdlc unread := by
    rw [List.append_nil]
    exact List.map_append.symm.trans
      ((congrArg (frameReads crc16IbmSdlc) hsecond).trans List.map_append)
  have hone : (configureGroup agentBackend crc16IbmSdlc ranges [0x1001, 0x2001] (1, [1])).run
      (port 1 []) = some (.ok (), port 2 behind) :=
    group_scripted agentBackend crc16IbmSdlc replies (twoMasks.take 1) [] (1, [1]) equip
      (by rw [twoMasks_entries]; simp) (by decide) (forall₂_and.mp hothers).1
      (forall₂_and.mp hothers).2 hreply
  have htwo : (configureGroup agentBackend crc16IbmSdlc ranges [0x1001, 0x2001] (2, [1])).run
      (port 2 behind) = some (.ok (), port 3 unread) :=
    group_scripted agentBackend crc16IbmSdlc replies (twoMasks.take 2) _ (2, [1]) equip'
      (by rw [twoMasks_entries]; simp) (by decide) (forall₂_and.mp hothers').1
      (forall₂_and.mp hothers').2 hbehind
  refine ⟨hquery, hone, ?_⟩
  rw [configureQualcommLogs, Session.run_bind_ok hquery, twoMasks_entries, Session.each,
    Session.run_bind_ok hone, Session.run_each_singleton htwo]

/-- A log packet with the code 0x1001. -/
def smallLog : List UInt8 := [0x10, 0x00, 0x08, 0x00, 0x08, 0x00, 0x01, 0x10]

theorem smallLog_unanswered :
    ∀ p ∈ [smallLog], p ≠ [] ∧ answers logConfigSetMaskOp (.ok p) = none :=
  List.forall_mem_singleton.mpr (by decide)

/-- The modem accepts both masks, while it goes on sending log packets. -/
def orderlyReplies : List (List ReadOutcome) :=
  [frameReads crc16IbmSdlc [idRangesResponse (Vector.replicate 16 0xA00)],
    frameReads crc16IbmSdlc [smallLog, maskResponse 0 1, smallLog],
    frameReads crc16IbmSdlc [maskResponse 0 2]]

theorem configure_acknowledged_orderly :
    ∃ port', (configureQualcommLogs agentBackend crc16IbmSdlc [0x1001, 0x2001] []).run
        (scriptedPort orderlyReplies [] []) = some (.ok (), port') ∧
      AllAcknowledged agentBackend crc16IbmSdlc [0x1001, 0x2001] []
        (scriptedPort orderlyReplies [] []) port' := by
  obtain ⟨hquery, hfirst, hrun⟩ := twoMasks_run smallLog_unanswered smallLog_unanswered
    (rfl : [smallLog, maskResponse 0 1, smallLog] = [smallLog] ++ maskResponse 0 1 :: [smallLog])
    (rfl : [smallLog] ++ [maskResponse 0 2] = [smallLog] ++ [maskResponse 0 2])
  refine ⟨_, hrun, configure_acknowledged hrun ?_⟩
  intro ranges queried front group before hqueried hat
  obtain ⟨rfl, rfl⟩ := Session.run_ok_unique hqueried hquery
  obtain ⟨⟨back, hsplit⟩, hfront⟩ := hat
  rw [twoMasks_entries] at hsplit
  rcases twoMasks_split hsplit with ⟨rfl, rfl⟩ | ⟨rfl, rfl⟩
  · obtain ⟨-, rfl⟩ := Session.run_ok_unique hfront (Session.run_each_nil ..)
    exact matched_scripted agentBackend crc16IbmSdlc orderlyReplies (twoMasks.take 1) 0 rfl
      (List.forall_mem_nil _) (by decide) rfl rfl
  · obtain ⟨-, rfl⟩ := Session.run_ok_unique hfront (Session.run_each_singleton hfirst)
    exact matched_scripted agentBackend crc16IbmSdlc orderlyReplies (twoMasks.take 2) 0 rfl
      (forall₂_and.mp smallLog_unanswered).1 (by decide) rfl rfl

/-- The modem answers the first mask twice, and then rejects the second one. -/
def repeatedReplies : List (List ReadOutcome) :=
  [frameReads crc16IbmSdlc [idRangesResponse (Vector.replicate 16 0xA00)],
    frameReads crc16IbmSdlc [maskResponse 0 1, maskResponse 0 1],
    frameReads crc16IbmSdlc [maskResponse 1 2]]

/-- The second wait is over before the rejection is read: the run ends well, with a mask that
the modem has refused. -/
theorem configure_unacknowledged :
    ∃ port', (configureQualcommLogs agentBackend crc16IbmSdlc [0x1001, 0x2001] []).run
        (scriptedPort repeatedReplies [] []) = some (.ok (), port') ∧
      ¬ AllAcknowledged agentBackend crc16IbmSdlc [0x1001, 0x2001] []
        (scriptedPort repeatedReplies [] []) port' := by
  obtain ⟨hquery, hfirst, hdone⟩ := twoMasks_run (List.forall_mem_nil _) (List.forall_mem_nil _)
    (rfl : [maskResponse 0 1, maskResponse 0 1] = [] ++ maskResponse 0 1 :: [maskResponse 0 1])
    (rfl : [maskResponse 0 1] ++ [maskResponse 1 2] = [] ++ maskResponse 0 1 :: [maskResponse 1 2])
  refine ⟨_, hdone, ?_⟩
  intro hall
  obtain ⟨ranges, queried, hrun, hgroups⟩ := hall
  obtain ⟨rfl, rfl⟩ := Session.run_ok_unique hrun hquery
  obtain ⟨front, before, ⟨⟨back, hsplit⟩, hfront⟩, hacked⟩ :=
    hgroups (2, [1]) (by rw [twoMasks_entries]; simp)
  rw [twoMasks_entries] at hsplit
  obtain ⟨-, hgroup⟩ | ⟨rfl, -⟩ := twoMasks_split hsplit
  · exact absurd hgroup (by decide)
  obtain ⟨-, rfl⟩ := Session.run_ok_unique hfront (Session.run_each_singleton hfirst)
  obtain ⟨packet, hmem, hresponse⟩ := (acknowledged_scripted agentBackend crc16IbmSdlc
    repeatedReplies (twoMasks.take 2) _ 2 (by simp [maskResponse_ne_nil])
    (List.forall_mem_singleton.mpr (maskResponse_ne_nil 1 2)) rfl).mp hacked
  obtain rfl : packet = maskResponse 1 2 := List.mem_singleton.mp hmem
  obtain ⟨hstatus, -⟩ := (isMaskResponse_maskResponse ..).mp hresponse
  exact absurd hstatus (by decide)

end TwoMasks

end SixGrok.Qualcomm
