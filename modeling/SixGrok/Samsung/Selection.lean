import Mathlib.Data.Bool.AllAny
import SixGrok.Samsung.Control

namespace SixGrok.Samsung

open SixGrok.Framework

/-- What a control packet asks of the modem. -/
inductive ControlRequest where
  | start (magic : UInt32)
  | stop
  | updatePeriod (period : UInt8)
  | deselect (command : UInt8)
  | selectAll (command : UInt8)
  | select (command : UInt8) (items : List UInt8)
  deriving DecidableEq, Repr

/-- Whose items a request selects or deselects. -/
def ControlRequest.command : ControlRequest → Option UInt8
  | .start _ | .stop | .updatePeriod _ => none
  | .deselect command | .selectAll command | .select command _ => some command

/-- Items that are all flagged with one. -/
def flaggedItems : List UInt8 → Option (List UInt8)
  | [] => some []
  | item :: flag :: rest => if flag = 1 then (flaggedItems rest).map (item :: ·) else none
  | [_] => none

def selection (command : UInt8) (payload : List UInt8) : Option ControlRequest :=
  if payload = selectAll then some (.selectAll command)
  else if payload = deselectAll then some (.deselect command)
  else
    match payload with
    | [] => none
    | count :: rest =>
      match flaggedItems rest with
      | none => none
      | some items => if items.length = count.toNat then some (.select command items) else none

def controlRequest (command : UInt8) (payload : List UInt8) : Option ControlRequest :=
  if command = controlStart then
    if payload.length = 4 then some (.start (u32FromBe payload)) else none
  else if command = controlStop then if payload = [] then some .stop else none
  else if command = changeUpdatePeriodRequest then
    if payload.length = 1 then payload.head?.map .updatePeriod else none
  else if itemSelectRequests.contains command then selection command payload
  else none

/-- Read a control packet the way it is meant. -/
def SdmFrame.request? (frame : SdmFrame) : Option ControlRequest :=
  if frame.header.direction = sdmDirectionDm ∧ frame.header.group = groupControl then
    controlRequest frame.header.command (frame.packet.drop 15).dropLast
  else none

section Read

theorem flaggedItems_flatMap (items : List UInt8) :
    flaggedItems (items.flatMap fun item => [item, 1]) = some items := by
  induction items with
  | nil => rfl
  | cons item items ih =>
    show (flaggedItems (items.flatMap fun item => [item, 1])).map (item :: ·) = some (item :: items)
    rw [ih]
    rfl

/-- A selection of items is read as one, whatever the items: the cap keeps it from being taken for a
selection of everything. Only the empty one deselects. -/
theorem selection_itemSelection (command : UInt8) (items : List UInt8) :
    selection command (itemSelection items) =
      some (if items = [] then .deselect command else .select command (items.take 0xfe)) := by
  by_cases hempty : items = []
  · subst hempty
    rfl
  · have hpos : 0 < items.length := List.length_pos_iff.mpr hempty
    have hcount : (UInt8.ofNat (min items.length 0xfe)).toNat = min items.length 0xfe :=
      UInt8.toNat_ofNat_of_lt' (by show min items.length 0xfe < 256; omega)
    have hall : itemSelection items ≠ selectAll := by
      intro h
      have hhead := (List.cons.inj h).1
      rw [← UInt8.toNat_inj, hcount] at hhead
      have htop : (0xff : UInt8).toNat = 255 := rfl
      omega
    have hnone : itemSelection items ≠ deselectAll := by
      intro h
      have hhead := (List.cons.inj h).1
      rw [← UInt8.toNat_inj, hcount] at hhead
      have hzero : (0x00 : UInt8).toNat = 0 := rfl
      omega
    rw [selection.eq_def, if_neg hall, if_neg hnone, if_neg hempty, itemSelection]
    simp only [flaggedItems_flatMap, List.length_take, hcount]
    exact if_pos (Nat.min_comm ..)

theorem payload_bytes (args : PacketArgs) : (args.bytes.drop 15).dropLast = args.payload := by
  have hdrop : args.bytes.drop 15 = args.payload ++ [sdmEnd] := rfl
  rw [hdrop, List.dropLast_concat]

theorem request_controlArgs (command : UInt8) (payload : List UInt8) :
    (controlArgs command payload).frame.request? = controlRequest command payload := by
  have hgroup : groupControl &&& 0x1f = groupControl := by decide
  rw [SdmFrame.request?, if_pos ⟨rfl, hgroup⟩]
  exact congrArg (controlRequest command) (payload_bytes (controlArgs command payload))

theorem request_selection {command : UInt8} (selects : command ∈ itemSelectRequests)
    (payload : List UInt8) :
    (controlArgs command payload).frame.request? = selection command payload := by
  have hcommands : command ≠ controlStart ∧ command ≠ controlStop ∧
      command ≠ changeUpdatePeriodRequest := by
    have hall : ∀ c ∈ itemSelectRequests, c ≠ controlStart ∧ c ≠ controlStop ∧
        c ≠ changeUpdatePeriodRequest := List.all_iff_forall_prop.mp (by decide)
    exact hall command selects
  obtain ⟨hstart, hstop, hperiod⟩ := hcommands
  rw [request_controlArgs, controlRequest.eq_def, if_neg hstart, if_neg hstop, if_neg hperiod,
    if_pos (List.contains_iff_mem.mpr selects)]

theorem request_start (magic : UInt32) :
    (controlArgs controlStart (u32ToBe magic)).frame.request? = some (.start magic) := by
  rw [request_controlArgs, controlRequest.eq_def, if_pos rfl, if_pos (u32ToBe_length magic),
    u32FromBe_toBe]

/-- What `init_packets` asks for. -/
def initRequests (startMagic : UInt32) (profile : SdmProfile) (allItems : Bool) :
    List ControlRequest :=
  [.start startMagic, .updatePeriod 0x05] ++ itemSelectRequests.map .deselect ++
    if allItems then itemSelectRequests.map .selectAll
    else [.select commonItemSelectRequest (profileItems profile).1,
      .select lteItemSelectRequest (profileItems profile).2]

theorem profileItems_selected (profile : SdmProfile) (command : UInt8) :
    selection command (itemSelection (profileItems profile).1) =
        some (.select command (profileItems profile).1) ∧
      selection command (itemSelection (profileItems profile).2) =
        some (.select command (profileItems profile).2) := by
  rw [selection_itemSelection, selection_itemSelection]
  cases profile <;> exact ⟨rfl, rfl⟩

theorem initArgs_requests (startMagic : UInt32) (profile : SdmProfile) (allItems : Bool) :
    (initArgs startMagic profile allItems).map (fun args => args.frame.request?) =
      (initRequests startMagic profile allItems).map some := by
  have hselects (payload : List UInt8) (request : UInt8 → ControlRequest)
      (h : ∀ command, selection command payload = some (request command)) :
      (itemSelectRequests.map fun command => controlArgs command payload).map
          (fun args => args.frame.request?) = (itemSelectRequests.map request).map some := by
    rw [List.map_map, List.map_map, List.map_inj_left]
    intro command hcommand
    exact (request_selection hcommand payload).trans (h command)
  rw [initArgs, initRequests, List.map_append, List.map_append, List.map_append, List.map_append]
  refine congrArg₂ (· ++ ·) (congrArg₂ (· ++ ·) ?_ ?_) ?_
  · have hperiod : (controlArgs changeUpdatePeriodRequest [0x05]).frame.request? =
        some (.updatePeriod 0x05) := request_controlArgs changeUpdatePeriodRequest [0x05]
    rw [List.map_cons, List.map_cons, request_start, hperiod]
    rfl
  · exact hselects deselectAll .deselect fun _ => rfl
  · cases allItems with
    | true => exact hselects selectAll .selectAll fun _ => rfl
    | false =>
      have hcommon := request_selection (show commonItemSelectRequest ∈ itemSelectRequests by decide)
        (itemSelection (profileItems profile).1)
      have hlte := request_selection (show lteItemSelectRequest ∈ itemSelectRequests by decide)
        (itemSelection (profileItems profile).2)
      rw [(profileItems_selected profile _).1] at hcommon
      rw [(profileItems_selected profile _).2] at hlte
      simp only [Bool.false_eq_true, if_false, List.map_cons, List.map_nil, hcommon, hlte]

end Read

section Modem

variable {μ : Type} (apply : ControlRequest → μ → μ) (selected : μ → UInt8 → UInt8 → Prop)

/-- A modem that does what the requests are meant for. To select items on top of others may add to
them or take their place. -/
structure Lawful : Prop where
  deselects : ∀ m command item, ¬ selected (apply (.deselect command) m) command item
  selectsAll : ∀ m command item, selected (apply (.selectAll command) m) command item
  selects : ∀ m command items, (∀ item, ¬ selected m command item) →
    ∀ item, selected (apply (.select command items) m) command item ↔ item ∈ items
  keeps : ∀ m request command, request.command ≠ some command →
    ∀ item, selected (apply request m) command item ↔ selected m command item

def afterRequests (requests : List ControlRequest) (m : μ) : μ :=
  requests.foldl (fun m request => apply request m) m

/-- What the transaction is for. -/
def Wanted (profile : SdmProfile) (allItems : Bool) (command item : UInt8) : Prop :=
  allItems = true ∨ (command = commonItemSelectRequest ∧ item ∈ (profileItems profile).1) ∨
    (command = lteItemSelectRequest ∧ item ∈ (profileItems profile).2)

instance (profile : SdmProfile) (allItems : Bool) (command item : UInt8) :
    Decidable (Wanted profile allItems command item) := inferInstanceAs (Decidable (_ ∨ _))

variable {apply selected}

theorem Lawful.keepsAll (lawful : Lawful apply selected) {command : UInt8}
    {requests : List ControlRequest} (others : ∀ request ∈ requests, request.command ≠ some command)
    (m : μ) (item : UInt8) :
    selected (afterRequests apply requests m) command item ↔ selected m command item := by
  induction requests generalizing m with
  | nil => exact Iff.rfl
  | cons request requests ih =>
    have hkeeps := lawful.keeps m request command (others request (List.mem_cons_self ..)) item
    exact (ih (fun r hr => others r (List.mem_cons_of_mem request hr)) (apply request m)).trans hkeeps

/-- The first request about the items of a command finds them as they were. -/
theorem Lawful.after_cons (lawful : Lawful apply selected) {command : UInt8}
    {requests rest : List ControlRequest} {request : ControlRequest}
    (about : requests.filter (fun r => r.command = some command) = request :: rest) (m : μ) :
    ∃ before back, (∀ item, selected before command item ↔ selected m command item) ∧
      back.filter (fun r => r.command = some command) = rest ∧
      afterRequests apply requests m = afterRequests apply back (apply request before) := by
  obtain ⟨front, back, rfl, hfront, -, hback⟩ := List.filter_eq_cons_iff.mp about
  refine ⟨afterRequests apply front m, back, ?_, hback, ?_⟩
  · apply lawful.keepsAll
    intro r hr
    exact fun heq => hfront r hr (decide_eq_true heq)
  · rw [afterRequests, List.foldl_append]
    rfl

theorem Lawful.after_none (lawful : Lawful apply selected) {command : UInt8}
    {requests : List ControlRequest}
    (about : requests.filter (fun r => r.command = some command) = []) (m : μ) (item : UInt8) :
    selected (afterRequests apply requests m) command item ↔ selected m command item := by
  apply lawful.keepsAll
  intro request hrequest heq
  exact List.filter_eq_nil_iff.mp about request hrequest (decide_eq_true heq)

/-- How the transaction ends for the items of one command. -/
def lastRequest (profile : SdmProfile) (allItems : Bool) (command : UInt8) : Option ControlRequest :=
  if allItems then some (.selectAll command)
  else if command = commonItemSelectRequest then some (.select command (profileItems profile).1)
  else if command = lteItemSelectRequest then some (.select command (profileItems profile).2)
  else none

/-- The requests of the transaction that are about the items of one command. -/
theorem filter_initRequests (startMagic : UInt32) (profile : SdmProfile) (allItems : Bool)
    {command : UInt8} (selects : command ∈ itemSelectRequests) :
    (initRequests startMagic profile allItems).filter (fun r => r.command = some command) =
      .deselect command :: (lastRequest profile allItems command).toList := by
  simp only [itemSelectRequests, List.mem_cons, List.not_mem_nil, or_false] at selects
  rcases selects with rfl | rfl | rfl | rfl | rfl <;> cases allItems <;> rfl

theorem mem_initRequests_command {startMagic : UInt32} {profile : SdmProfile} {allItems : Bool}
    {request : ControlRequest} (h : request ∈ initRequests startMagic profile allItems)
    {command : UInt8} (about : request.command = some command) : command ∈ itemSelectRequests := by
  have hcommands : (initRequests startMagic profile allItems).filterMap ControlRequest.command =
      itemSelectRequests ++ if allItems then itemSelectRequests
        else [commonItemSelectRequest, lteItemSelectRequest] := by
    cases allItems <;> rfl
  have hmem := List.mem_filterMap.mpr ⟨request, h, about⟩
  rw [hcommands, List.mem_append] at hmem
  rcases hmem with hmem | hmem
  · exact hmem
  · cases allItems with
    | true => exact hmem
    | false =>
      have hboth : ∀ c ∈ [commonItemSelectRequest, lteItemSelectRequest],
          c ∈ itemSelectRequests := List.all_iff_forall_prop.mp (by decide)
      exact hboth command hmem

section Last

variable {command : UInt8} {profile : SdmProfile} {allItems : Bool}

/-- After the deselection the last request brings what is wanted. -/
theorem Lawful.last (lawful : Lawful apply selected) {request : ControlRequest}
    (h : lastRequest profile allItems command = some request) {m : μ}
    (nothing : ∀ item, ¬ selected m command item) (item : UInt8) :
    selected (apply request m) command item ↔ Wanted profile allItems command item := by
  rw [lastRequest] at h
  rw [Wanted]
  split_ifs at h with hall hcommon hlte
  · obtain rfl := Option.some.inj h
    exact ⟨fun _ => .inl hall, fun _ => lawful.selectsAll m command item⟩
  · obtain rfl := Option.some.inj h
    have hother : command ≠ lteItemSelectRequest := by
      rw [hcommon]
      decide
    rw [lawful.selects m _ _ nothing item, or_iff_right hall,
      or_iff_left fun wanted => hother wanted.1, and_iff_right hcommon]
  · obtain rfl := Option.some.inj h
    rw [lawful.selects m _ _ nothing item, or_iff_right hall,
      or_iff_right fun wanted => hcommon wanted.1, and_iff_right hlte]

/-- Where there is none, nothing is wanted. -/
theorem not_wanted (h : lastRequest profile allItems command = none) (item : UInt8) :
    ¬ Wanted profile allItems command item := by
  rw [lastRequest] at h
  rw [Wanted]
  split_ifs at h with hall hcommon hlte
  rintro (wanted | ⟨wanted, -⟩ | ⟨wanted, -⟩)
  · exact hall wanted
  · exact hcommon wanted
  · exact hlte wanted

variable {startMagic : UInt32}

/-- Wherever the transaction is broken off, the items of a command are as they were before, or all
deselected, or what is wanted. -/
theorem Lawful.after_first (lawful : Lawful apply selected) {requests : List ControlRequest}
    (first : requests <+: initRequests startMagic profile allItems) (m : μ) (command : UInt8) :
    (∀ item, selected (afterRequests apply requests m) command item ↔ selected m command item) ∨
    (∀ item, ¬ selected (afterRequests apply requests m) command item) ∨
    ∀ item, selected (afterRequests apply requests m) command item ↔
      Wanted profile allItems command item := by
  cases hfilter : requests.filter (fun r => r.command = some command) with
  | nil => exact .inl fun item => lawful.after_none hfilter m item
  | cons request rest =>
    have hmem : request ∈ requests.filter (fun r => r.command = some command) :=
      hfilter ▸ List.mem_cons_self ..
    obtain ⟨hrequest, habout⟩ := List.mem_filter.mp hmem
    have hselects := mem_initRequests_command (first.subset hrequest) (of_decide_eq_true habout)
    have hprefix := first.filter (fun r => r.command = some command)
    rw [hfilter, filter_initRequests startMagic profile allItems hselects,
      List.cons_prefix_cons] at hprefix
    obtain ⟨rfl, hrest⟩ := hprefix
    obtain ⟨before, back, -, hback, hafter⟩ := lawful.after_cons hfilter m
    have hnothing := lawful.deselects before command
    right
    rw [hafter]
    cases rest with
    | nil =>
      left
      intro item
      rw [lawful.after_none hback]
      exact hnothing item
    | cons last rest =>
      right
      intro item
      cases hlast : lastRequest profile allItems command with
      | none =>
        rw [hlast] at hrest
        cases List.prefix_nil.mp hrest
      | some request =>
        rw [hlast, Option.toList_some, List.cons_prefix_cons, List.prefix_nil] at hrest
        obtain ⟨rfl, rfl⟩ := hrest
        obtain ⟨before', back', hbefore, hback', hafter'⟩ :=
          lawful.after_cons hback (apply (.deselect command) before)
        rw [hafter', lawful.after_none hback']
        exact lawful.last hlast (fun item => (hbefore item).not.mpr (hnothing item)) item

/-- The whole transaction brings what is wanted, whatever was selected before. -/
theorem Lawful.after_all (lawful : Lawful apply selected) (startMagic : UInt32) (m : μ)
    (selects : command ∈ itemSelectRequests) (item : UInt8) :
    selected (afterRequests apply (initRequests startMagic profile allItems) m) command item ↔
      Wanted profile allItems command item := by
  have hfilter := filter_initRequests startMagic profile allItems selects
  obtain ⟨before, back, -, hback, hafter⟩ := lawful.after_cons hfilter m
  have hnothing := lawful.deselects before command
  rw [hafter]
  cases hlast : lastRequest profile allItems command with
  | none =>
    rw [hlast] at hback
    rw [lawful.after_none hback]
    exact iff_of_false (hnothing item) (not_wanted hlast item)
  | some request =>
    rw [hlast] at hback
    obtain ⟨before', back', hbefore, hback', hafter'⟩ :=
      lawful.after_cons hback (apply (.deselect command) before)
    rw [hafter', lawful.after_none hback']
    exact lawful.last hlast (fun item => (hbefore item).not.mpr (hnothing item)) item

end Last

end Modem

section Stream

variable (startMagic : UInt32) (profile : SdmProfile) (allItems : Bool)

/-- The bytes of the transaction. -/
def initBytes : List UInt8 := ((initArgs startMagic profile allItems).map PacketArgs.bytes).flatten

def readRequest : SdmResult → Option ControlRequest
  | .ok frame => frame.request?
  | .error _ => none

theorem initArgs_fits : ∀ args ∈ initArgs startMagic profile allItems,
    args.payload.length ≤ 65521 := by
  intro args hargs
  have hselects (payload : List UInt8) (few : payload.length ≤ 65521) :
      ∀ args ∈ itemSelectRequests.map (fun command => controlArgs command payload),
        args.payload.length ≤ 65521 := by
    intro args hargs
    obtain ⟨command, -, rfl⟩ := List.mem_map.mp hargs
    exact few
  rw [initArgs, List.mem_append, List.mem_append] at hargs
  rcases hargs with (hargs | hargs) | hargs
  · simp only [List.mem_cons, List.not_mem_nil, or_false] at hargs
    rcases hargs with rfl | rfl
    · show (u32ToBe startMagic).length ≤ 65521
      rw [u32ToBe_length]
      decide
    · decide
  · exact hselects deselectAll (by decide) args hargs
  · cases allItems with
    | true => exact hselects selectAll (by decide) args hargs
    | false =>
      simp only [Bool.false_eq_true, if_false, List.mem_cons, List.not_mem_nil, or_false] at hargs
      rcases hargs with rfl | rfl
      · exact itemSelection_fits _
      · exact itemSelection_fits _

/-- The decoder gets the transaction back as one packet for each request. -/
theorem push_initBytes : SdmDecoder.push {} (initBytes startMagic profile allItems) =
    (((initArgs startMagic profile allItems).map PacketArgs.frame).map .ok, {}) := by
  have hpackets : ∀ frame ∈ (initArgs startMagic profile allItems).map PacketArgs.frame,
      IsPacket frame.packet frame.header := by
    intro frame hframe
    obtain ⟨args, hargs, rfl⟩ := List.mem_map.mp hframe
    exact isPacket_bytes args (initArgs_fits startMagic profile allItems args hargs)
  have hscan := scans_packets [] (List.not_mem_nil) _ hpackets
  rw [List.nil_append, List.map_map] at hscan
  exact push_eq_of_scans {} _ [] _ hscan

theorem readRequests_initBytes :
    (SdmDecoder.push {} (initBytes startMagic profile allItems)).1.map readRequest =
      (initRequests startMagic profile allItems).map some := by
  rw [push_initBytes, ← initArgs_requests, List.map_map, List.map_map]
  rfl

/-- As far as the transaction has come in, the decoder gets the first of the requests. -/
theorem readRequests_first {chunks : List (List UInt8)}
    (came : chunks.flatten <+: initBytes startMagic profile allItems) :
    ∃ requests, requests <+: initRequests startMagic profile allItems ∧
      (pushAll SdmDecoder.push {} chunks).1.map readRequest = requests.map some := by
  obtain ⟨more, hmore⟩ := came
  have hall := readRequests_initBytes startMagic profile allItems
  rw [← hmore, push_incremental, List.map_append,
    ← pushAll_eq_push push_incremental {} push_default_nil] at hall
  have hprefix : (pushAll SdmDecoder.push {} chunks).1.map readRequest <+:
      (initRequests startMagic profile allItems).map some := ⟨_, hall⟩
  obtain ⟨requests, hrequests, heq⟩ := List.prefix_map_iff.mp hprefix
  exact ⟨requests, hrequests, heq⟩

/-- What `configure_sdm` has written when it comes back: the first of the transaction, and all of
it when nothing has failed. -/
theorem configureSdm_written {io io' : Writer} {result : Except ControlError Unit}
    (h : configureSdm startMagic profile allItems io = (result, io')) :
    ∃ sent, io'.written = io.written ++ sent ∧ sent <+: initBytes startMagic profile allItems ∧
      (result = .ok () → sent = initBytes startMagic profile allItems) := by
  rw [configureSdm, initPackets_eq] at h
  dsimp only at h
  rcases hfeed : Writer.writeAll.feedAll ((initArgs startMagic profile allItems).map PacketArgs.bytes)
    io with ⟨kind | ⟨⟩, next⟩
  all_goals
    obtain ⟨sent, hsent, hprefix, hall⟩ := Writer.written_feedAll hfeed
    rw [hfeed] at h
    obtain ⟨rfl, rfl⟩ := Prod.mk.inj h
    refine ⟨sent, hsent, hprefix, ?_⟩
    intro hok
  · cases hok
  · exact hall rfl

end Stream

section Configure

variable {μ : Type} {apply : ControlRequest → μ → μ} {selected : μ → UInt8 → UInt8 → Prop}

/-- Wherever the writing of the transaction breaks off and however much of it the modem has got in
whatever pieces, each selection is as it was, empty, or what is wanted; and all of them are what is
wanted once everything has come in, whatever was selected before. -/
theorem configureSdm_selects (lawful : Lawful apply selected) {startMagic : UInt32}
    {profile : SdmProfile} {allItems : Bool} {io io' : Writer} {result : Except ControlError Unit}
    (h : configureSdm startMagic profile allItems io = (result, io')) (m : μ) :
    ∃ sent, io'.written = io.written ++ sent ∧
      ∀ chunks : List (List UInt8), chunks.flatten <+: sent →
        ∃ requests, (pushAll SdmDecoder.push {} chunks).1.map readRequest = requests.map some ∧
          let m' := afterRequests apply requests m
          (∀ command, (∀ item, selected m' command item ↔ selected m command item) ∨
            (∀ item, ¬ selected m' command item) ∨
            ∀ item, selected m' command item ↔ Wanted profile allItems command item) ∧
          (result = .ok () → chunks.flatten = sent → ∀ command ∈ itemSelectRequests, ∀ item,
            selected m' command item ↔ Wanted profile allItems command item) := by
  obtain ⟨sent, hsent, hprefix, hall⟩ := configureSdm_written startMagic profile allItems h
  refine ⟨sent, hsent, ?_⟩
  intro chunks came
  obtain ⟨requests, hfirst, hread⟩ :=
    readRequests_first startMagic profile allItems (came.trans hprefix)
  refine ⟨requests, hread, lawful.after_first hfirst m, ?_⟩
  intro hok hcomplete command hselects item
  have hrequests : requests = initRequests startMagic profile allItems := by
    have hbytes := readRequests_initBytes startMagic profile allItems
    rw [← hall hok, ← hcomplete, ← pushAll_eq_push push_incremental {} push_default_nil,
      hread] at hbytes
    exact List.map_injective_iff.mpr (Option.some_injective _) hbytes
  rw [hrequests]
  exact lawful.after_all startMagic m hselects item

/-- A modem that adds items to the ones that are selected. -/
def addItems : ControlRequest → (UInt8 → UInt8 → Bool) → UInt8 → UInt8 → Bool
  | .start _, items | .stop, items | .updatePeriod _, items => items
  | .deselect command, items => Function.update items command fun _ => false
  | .selectAll command, items => Function.update items command fun _ => true
  | .select command more, items =>
    Function.update items command fun item => items command item || more.contains item

theorem addItems_lawful :
    Lawful addItems fun (items : UInt8 → UInt8 → Bool) command item => items command item = true where
  deselects m command item := by simp [addItems]
  selectsAll m command item := by simp [addItems]
  selects m command items nothing item := by
    have hnot : m command item = false := Bool.eq_false_iff.mpr (nothing item)
    simp [addItems, hnot]
  keeps m request command other item := by
    cases request with
    | start | stop | updatePeriod => exact Iff.rfl
    | deselect c | selectAll c | select c items =>
      have hne : command ≠ c := fun heq => other (congrArg some heq.symm)
      simp [addItems, hne]

/-- Everything was selected; the device takes the transaction, and it comes in at once. -/
theorem configureSdm_selects_radio :
    ∃ sent, (configureSdm 0x41414141 .radio false {}).2.written = sent ∧
      ∃ requests, (SdmDecoder.push {} sent).1.map readRequest = requests.map some ∧
        ∀ command ∈ itemSelectRequests, ∀ item,
          afterRequests addItems requests (fun _ _ => true) command item = true ↔
            Wanted .radio false command item := by
  obtain ⟨sent, hsent, hcame⟩ := configureSdm_selects addItems_lawful
    (show configureSdm 0x41414141 .radio false {} = (.ok (), _) from rfl) (fun _ _ => true)
  obtain ⟨requests, hread, -, hall⟩ := hcame [sent] (by simp)
  rw [pushAll_eq_push push_incremental {} push_default_nil, List.flatten_singleton] at hread
  exact ⟨sent, hsent, requests, hread, hall rfl (List.flatten_singleton ..)⟩

end Configure

end SixGrok.Samsung
