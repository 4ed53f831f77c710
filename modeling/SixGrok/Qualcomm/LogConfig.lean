import Mathlib.Data.Nat.Bitwise
import SixGrok.Framework.Bytes
import SixGrok.Framework.OrderedMap
import SixGrok.Framework.Sorted

namespace SixGrok.Qualcomm

open SixGrok.Framework

def diagLogConfigF : UInt8 := 0x73
def logConfigDisableOp : UInt32 := 0
def logConfigRetrieveIdRangesOp : UInt32 := 1
def logConfigSetMaskOp : UInt32 := 3

inductive ControlError where
  | invalidEquipmentId (id : UInt8)
  | itemOutOfRange (equipId : UInt8) (item : UInt16) (lastItem : UInt32)
  | notLogConfigResponse
  | unexpectedOperation (operation : UInt32)
  | remoteStatus (status : UInt32)
  | truncatedResponse
  deriving DecidableEq, Repr

def logConfigRequest (operation : UInt32) : List UInt8 :=
  [diagLogConfigF] ++ [0, 0, 0] ++ u32ToLe operation

@[simp] theorem logConfigRequest_length (operation : UInt32) :
    (logConfigRequest operation).length = 8 := by
  simp [logConfigRequest]

def retrieveIdRangesRequest : List UInt8 := logConfigRequest logConfigRetrieveIdRangesOp

def disableLoggingRequest : List UInt8 := logConfigRequest logConfigDisableOp

/-- A 16-bit log code is an equipment ID of four bits and an item of twelve. -/
def splitLogCode (code : UInt16) : UInt8 × UInt16 :=
  (((code >>> 12) &&& 0x0f).toUInt8, code &&& 0x0fff)

/-- The code that a group's key and item stand for. -/
def joinLogCode (equip : UInt8) (item : UInt16) : UInt16 := (equip.toUInt16 <<< 12) ||| item

def groupLogCodes (codes : List UInt16) : OrderedMap UInt8 (List UInt16) :=
  (OrderedMap.group (fun code => (splitLogCode code).1) (fun code => (splitLogCode code).2)
    codes).mapValues sortDedup

/-- `mask[index] |= 1 << bit` for one item. -/
def setItem (mask : List UInt8) (item : UInt16) : List UInt8 :=
  mask.modify (item.toNat / 8) (· ||| (1 <<< (item % 8).toUInt8))

/-- The loop over the items: the first one out of range ends it. -/
def setItems (equipId : UInt8) (lastItem : UInt32) :
    List UInt16 → List UInt8 → Except ControlError (List UInt8)
  | [], mask => .ok mask
  | item :: items, mask =>
    if item.toUInt32 > lastItem then .error (.itemOutOfRange equipId item lastItem)
    else setItems equipId lastItem items (setItem mask item)

def setMaskRequest (equipId : UInt8) (lastItem : UInt32) (items : List UInt16) :
    Except ControlError (List UInt8) :=
  if equipId > 0x0f then .error (.invalidEquipmentId equipId)
  else
    match setItems equipId lastItem items (List.replicate (lastItem.toNat / 8 + 1) 0) with
    | .error err => .error err
    | .ok mask =>
      .ok ([diagLogConfigF] ++ [0, 0, 0] ++ u32ToLe logConfigSetMaskOp ++ u32ToLe equipId.toUInt32 ++
        u32ToLe lastItem ++ mask)

structure LogConfigHeader where
  operation : UInt32
  status : UInt32
  deriving DecidableEq, Repr

def readU32 (data : List UInt8) (offset : Nat) : Except ControlError UInt32 :=
  if offset + 4 ≤ data.length then .ok (u32FromLe ((data.drop offset).take 4))
  else .error .truncatedResponse

def parseLogConfigHeader (packet : List UInt8) :
    Except ControlError (LogConfigHeader × List UInt8) :=
  if packet.length < 12 ∨ packet.head? ≠ some diagLogConfigF then .error .notLogConfigResponse
  else do
    let operation ← readU32 packet 4
    let status ← readU32 packet 8
    return ({ operation, status }, packet.drop 12)

def parseIdRangesResponse (packet : List UInt8) : Except ControlError (Vector UInt32 16) := do
  let (header, data) ← parseLogConfigHeader packet
  if header.operation ≠ logConfigRetrieveIdRangesOp then
    throw (.unexpectedOperation header.operation)
  if header.status ≠ 0 then
    throw (.remoteStatus header.status)
  if data.length < 16 * 4 then
    throw .truncatedResponse
  Vector.ofFnM fun idx : Fin 16 => readU32 data (idx * 4)

theorem splitLogCode_equip (code : UInt16) : (splitLogCode code).1.toNat = code.toNat / 4096 := by
  have hcode : code.toNat < 2 ^ 16 := code.toNat_lt
  have hshift : code.toNat >>> 12 = code.toNat / 4096 := Nat.shiftRight_eq_div_pow _ 12
  have hmask : code.toNat / 4096 &&& 15 = code.toNat / 4096 % 16 :=
    Nat.and_two_pow_sub_one_eq_mod _ 4
  change ((code >>> 12) &&& 0x0f).toUInt8.toNat = _
  rw [UInt16.toNat_toUInt8, UInt16.toNat_and, UInt16.toNat_shiftRight]
  change (code.toNat >>> 12 &&& 15) % 2 ^ 8 = _
  rw [hshift, hmask]
  omega

theorem splitLogCode_item (code : UInt16) : (splitLogCode code).2.toNat = code.toNat % 4096 := by
  change (code &&& 0x0fff).toNat = _
  rw [UInt16.toNat_and]
  exact Nat.and_two_pow_sub_one_eq_mod _ 12

theorem splitLogCode_equip_lt (code : UInt16) : (splitLogCode code).1.toNat < 16 := by
  have hcode : code.toNat < 2 ^ 16 := code.toNat_lt
  rw [splitLogCode_equip]
  omega

theorem joinLogCode_toNat (equip : UInt8) (item : UInt16) (hequip : equip.toNat < 16)
    (hitem : item.toNat < 4096) :
    (joinLogCode equip item).toNat = equip.toNat * 4096 + item.toNat := by
  have hshift : equip.toNat <<< 12 = equip.toNat * 4096 := Nat.shiftLeft_eq _ 12
  have hor := Nat.shiftLeft_add_eq_or_of_lt (show item.toNat < 2 ^ 12 by omega) equip.toNat
  rw [joinLogCode, UInt16.toNat_or, UInt16.toNat_shiftLeft, UInt8.toNat_toUInt16]
  change (equip.toNat <<< 12) % 2 ^ 16 ||| item.toNat = _
  rw [Nat.mod_eq_of_lt (by omega), ← hor, hshift]

theorem joinLogCode_split (code : UInt16) :
    joinLogCode (splitLogCode code).1 (splitLogCode code).2 = code := by
  have hcode : code.toNat < 2 ^ 16 := code.toNat_lt
  have hequip := splitLogCode_equip code
  have hitem := splitLogCode_item code
  apply UInt16.toNat_inj.mp
  rw [joinLogCode_toNat _ _ (by omega) (by omega), hequip, hitem]
  omega

theorem splitLogCode_injective : Function.Injective splitLogCode := by
  intro code other h
  rw [← joinLogCode_split code, ← joinLogCode_split other, h]

/-- A group is there for every equipment ID that occurs, with exactly its items. -/
theorem mem_groupLogCodes {codes : List UInt16} {equip : UInt8} {items : List UInt16}
    (h : (equip, items) ∈ (groupLogCodes codes).entries) :
    items ≠ [] ∧ ∀ item, item ∈ items ↔ ∃ code ∈ codes, splitLogCode code = (equip, item) := by
  obtain ⟨⟨key, raw⟩, hraw, heq⟩ := List.mem_map.mp h
  obtain ⟨rfl, rfl⟩ := Prod.mk.inj heq
  obtain ⟨hne, hmine⟩ := (OrderedMap.mem_group_entries _ _ codes key raw).mp hraw
  refine ⟨?_, ?_⟩
  · obtain ⟨item, hitem⟩ := List.exists_mem_of_ne_nil raw hne
    exact List.ne_nil_of_mem (mem_sortDedup.mpr hitem)
  · intro item
    rw [mem_sortDedup, hmine, List.mem_map]
    constructor
    · intro h
      obtain ⟨code, hcode, rfl⟩ := h
      obtain ⟨hmem, hkey⟩ := List.mem_filter.mp hcode
      exact ⟨code, hmem, Prod.ext (of_decide_eq_true hkey) rfl⟩
    · intro h
      obtain ⟨code, hmem, hsplit⟩ := h
      have hkey : (splitLogCode code).1 = key := congrArg Prod.fst hsplit
      have hvalue : (splitLogCode code).2 = item := congrArg Prod.snd hsplit
      refine ⟨code, ?_, hvalue⟩
      exact List.mem_filter.mpr ⟨hmem, decide_eq_true hkey⟩

theorem exists_groupLogCodes {codes : List UInt16} {code : UInt16} (h : code ∈ codes) :
    ∃ items, ((splitLogCode code).1, items) ∈ (groupLogCodes codes).entries := by
  let mine := (codes.filter (fun c => (splitLogCode c).1 = (splitLogCode code).1)).map
    (fun c => (splitLogCode c).2)
  have hmine : mine ≠ [] := by
    refine List.ne_nil_of_mem (a := (splitLogCode code).2) (List.mem_map.mpr ⟨code, ?_, rfl⟩)
    exact List.mem_filter.mpr ⟨h, by simp⟩
  refine ⟨sortDedup mine, List.mem_map.mpr ⟨((splitLogCode code).1, mine), ?_, rfl⟩⟩
  exact (OrderedMap.mem_group_entries _ _ codes _ mine).mpr ⟨hmine, rfl⟩

theorem groupLogCodes_pairwise (codes : List UInt16) :
    ((groupLogCodes codes).entries.map Prod.fst).Pairwise (· < ·) :=
  (groupLogCodes codes).keys_pairwise

/-- Bit `j` of a mask, eight to a byte. -/
def itemBit (mask : List UInt8) (j : Nat) : Bool := (mask.getD (j / 8) 0).toNat.testBit (j % 8)

theorem testBit_or_shift (byte bit : UInt8) (i : Nat) (hbit : bit.toNat < 8) :
    (byte ||| (1 <<< bit)).toNat.testBit i = (byte.toNat.testBit i || decide (bit.toNat = i)) := by
  have hone : (1 <<< bit.toNat) % 2 ^ 8 = 2 ^ bit.toNat := by
    rw [Nat.one_shiftLeft]
    exact Nat.mod_eq_of_lt (Nat.pow_lt_pow_right (by decide) hbit)
  rw [UInt8.toNat_or, UInt8.toNat_shiftLeft, Nat.testBit_or, Nat.mod_eq_of_lt hbit]
  change (_ || Nat.testBit ((1 <<< bit.toNat) % 2 ^ 8) i) = _
  rw [hone, Nat.testBit_two_pow]

@[simp] theorem setItem_length (mask : List UInt8) (item : UInt16) :
    (setItem mask item).length = mask.length := List.length_modify ..

theorem itemBit_setItem (mask : List UInt8) (item : UInt16) (j : Nat)
    (inside : item.toNat / 8 < mask.length) :
    itemBit (setItem mask item) j = (itemBit mask j || decide (item.toNat = j)) := by
  have hbit : (item % 8).toUInt8.toNat = item.toNat % 8 := by
    rw [UInt16.toNat_toUInt8, UInt16.toNat_mod]
    change item.toNat % 8 % 2 ^ 8 = item.toNat % 8
    omega
  rw [itemBit, itemBit, setItem, List.getD_eq_getElem?_getD, List.getD_eq_getElem?_getD,
    List.getElem?_modify]
  by_cases hbyte : item.toNat / 8 = j / 8
  · have hshift : (item % 8).toUInt8.toNat < 8 := by omega
    have hsame : decide (item.toNat % 8 = j % 8) = decide (item.toNat = j) :=
      decide_eq_decide.mpr ⟨fun h => by omega, fun h => by omega⟩
    rw [← hbyte, List.getElem?_eq_getElem inside]
    simp only [if_true, Option.map_eq_map, Option.map_some, Option.getD_some]
    rw [testBit_or_shift _ _ _ hshift, hbit, hsame]
  · have hne : item.toNat ≠ j := fun h => hbyte (by rw [h])
    simp [hbyte, hne]

theorem itemBit_foldl (items : List UInt16) (mask : List UInt8) (j : Nat)
    (inside : ∀ item ∈ items, item.toNat / 8 < mask.length) :
    itemBit (items.foldl setItem mask) j =
      (itemBit mask j || decide (∃ item ∈ items, item.toNat = j)) := by
  induction items generalizing mask with
  | nil => simp
  | cons item items ih =>
    have hitem := inside item (List.mem_cons_self ..)
    have hrest : ∀ i ∈ items, i.toNat / 8 < (setItem mask item).length := by
      intro i hi
      rw [setItem_length]
      exact inside i (List.mem_cons_of_mem _ hi)
    rw [List.foldl_cons, ih _ hrest, itemBit_setItem mask item j hitem, Bool.or_assoc]
    simp

theorem itemBit_replicate (n j : Nat) : itemBit (List.replicate n 0) j = false := by
  rw [itemBit, List.getD_eq_getElem?_getD, List.getElem?_replicate]
  split_ifs <;> simp

theorem setItems_ok (equipId : UInt8) (lastItem : UInt32) (items : List UInt16) (mask : List UInt8)
    (inRange : ∀ item ∈ items, ¬ item.toUInt32 > lastItem) :
    setItems equipId lastItem items mask = .ok (items.foldl setItem mask) := by
  induction items generalizing mask with
  | nil => rfl
  | cons item items ih =>
    rw [setItems, if_neg (inRange item (List.mem_cons_self ..))]
    exact ih _ fun i hi => inRange i (List.mem_cons_of_mem _ hi)

/-- The mask that a request for these items carries. -/
def requestMask (lastItem : UInt32) (items : List UInt16) : List UInt8 :=
  items.foldl setItem (List.replicate (lastItem.toNat / 8 + 1) 0)

/-- The packet of a SET_MASK request. -/
def requestPacket (equipId : UInt8) (lastItem : UInt32) (items : List UInt16) : List UInt8 :=
  [diagLogConfigF] ++ [0, 0, 0] ++ u32ToLe logConfigSetMaskOp ++ u32ToLe equipId.toUInt32 ++
    u32ToLe lastItem ++ requestMask lastItem items

theorem setMaskRequest_ok (equipId : UInt8) (lastItem : UInt32) (items : List UInt16)
    (hequip : equipId.toNat < 16) (inRange : ∀ item ∈ items, ¬ item.toUInt32 > lastItem) :
    setMaskRequest equipId lastItem items = .ok (requestPacket equipId lastItem items) := by
  have hid : ¬ equipId > 0x0f := by
    rw [gt_iff_lt, UInt8.lt_iff_toNat_lt]
    change ¬ 15 < equipId.toNat
    omega
  rw [setMaskRequest, if_neg hid, setItems_ok equipId lastItem items _ inRange]
  rfl

theorem itemBit_requestMask (lastItem : UInt32) (items : List UInt16)
    (inRange : ∀ item ∈ items, ¬ item.toUInt32 > lastItem) (j : Nat) :
    itemBit (requestMask lastItem items) j = decide (∃ item ∈ items, item.toNat = j) := by
  have hinside : ∀ item ∈ items,
      item.toNat / 8 < (List.replicate (lastItem.toNat / 8 + 1) (0 : UInt8)).length := by
    intro item hitem
    have hle := inRange item hitem
    rw [gt_iff_lt, UInt32.lt_iff_toNat_lt, UInt16.toNat_toUInt32] at hle
    rw [List.length_replicate]
    omega
  rw [requestMask, itemBit_foldl items _ j hinside, itemBit_replicate, Bool.false_or]

section Packets

/-- Fields of a SET_MASK request, read back from its bytes. -/
def IsSetMask (packet : List UInt8) : Prop := packet.take 8 = logConfigRequest logConfigSetMaskOp

def maskEquip (packet : List UInt8) : UInt32 := u32FromLe ((packet.drop 8).take 4)

def maskHas (packet : List UInt8) (code : UInt16) : Prop :=
  maskEquip packet = (splitLogCode code).1.toUInt32 ∧
    itemBit (packet.drop 16) (splitLogCode code).2.toNat = true

instance (packet : List UInt8) : Decidable (IsSetMask packet) :=
  inferInstanceAs (Decidable (_ = _))

instance (packet : List UInt8) (code : UInt16) : Decidable (maskHas packet code) :=
  inferInstanceAs (Decidable (_ ∧ _))

variable (equipId : UInt8) (lastItem : UInt32) (items : List UInt16)

theorem requestPacket_eq :
    requestPacket equipId lastItem items =
      logConfigRequest logConfigSetMaskOp ++ (u32ToLe equipId.toUInt32 ++
        (u32ToLe lastItem ++ requestMask lastItem items)) := by
  simp [requestPacket, logConfigRequest]

theorem isSetMask_requestPacket : IsSetMask (requestPacket equipId lastItem items) := by
  rw [IsSetMask, requestPacket_eq]
  exact List.take_left' (logConfigRequest_length _)

theorem maskEquip_requestPacket :
    maskEquip (requestPacket equipId lastItem items) = equipId.toUInt32 := by
  have hdrop : (requestPacket equipId lastItem items).drop 8 =
      u32ToLe equipId.toUInt32 ++ (u32ToLe lastItem ++ requestMask lastItem items) := by
    rw [requestPacket_eq]
    exact List.drop_left' (logConfigRequest_length _)
  have htake : ((requestPacket equipId lastItem items).drop 8).take 4 =
      u32ToLe equipId.toUInt32 := by
    rw [hdrop]
    exact List.take_left' (u32ToLe_length _)
  rw [maskEquip, htake, u32FromLe_toLe]

theorem drop_requestPacket :
    (requestPacket equipId lastItem items).drop 16 = requestMask lastItem items := by
  have hassoc : requestPacket equipId lastItem items =
      (logConfigRequest logConfigSetMaskOp ++ u32ToLe equipId.toUInt32 ++ u32ToLe lastItem) ++
        requestMask lastItem items := by
    simp [requestPacket, logConfigRequest]
  rw [hassoc]
  exact List.drop_left' (by simp)

/-- A request has the bit of a code exactly when the code is of its equipment and among
its items. -/
theorem maskHas_requestPacket (inRange : ∀ item ∈ items, ¬ item.toUInt32 > lastItem)
    (code : UInt16) :
    maskHas (requestPacket equipId lastItem items) code ↔
      equipId = (splitLogCode code).1 ∧ (splitLogCode code).2 ∈ items := by
  have hwiden : equipId.toUInt32 = (splitLogCode code).1.toUInt32 ↔
      equipId = (splitLogCode code).1 := by
    rw [← UInt32.toNat_inj, UInt8.toNat_toUInt32, UInt8.toNat_toUInt32, UInt8.toNat_inj]
  have hbit : (∃ item ∈ items, item.toNat = (splitLogCode code).2.toNat) ↔
      (splitLogCode code).2 ∈ items := by
    constructor
    · intro h
      obtain ⟨item, hitem, heq⟩ := h
      rwa [← UInt16.toNat_inj.mp heq]
    · intro hitem
      exact ⟨_, hitem, rfl⟩
  rw [maskHas, maskEquip_requestPacket, drop_requestPacket, itemBit_requestMask _ _ inRange,
    decide_eq_true_iff, hwiden, hbit]

end Packets

section Responses

/-- The answer of a modem: operation, status and what the operation returns. -/
def logConfigResponse (operation status : UInt32) (data : List UInt8) : List UInt8 :=
  logConfigRequest operation ++ u32ToLe status ++ data

def idRangesResponse (ranges : Vector UInt32 16) : List UInt8 :=
  logConfigResponse logConfigRetrieveIdRangesOp 0 (ranges.toList.flatMap u32ToLe)

theorem logConfigResponse_ne_nil (operation status : UInt32) (data : List UInt8) :
    logConfigResponse operation status data ≠ [] := by
  simp [logConfigResponse, logConfigRequest]

theorem parseLogConfigHeader_response (operation status : UInt32) (data : List UInt8) :
    parseLogConfigHeader (logConfigResponse operation status data) =
      .ok ({ operation, status }, data) := by
  have hlen : 12 ≤ (logConfigResponse operation status data).length := by
    simp [logConfigResponse]
    omega
  have hhead : (logConfigResponse operation status data).head? = some diagLogConfigF := rfl
  have hop : ((logConfigResponse operation status data).drop 4).take 4 = u32ToLe operation := by
    rw [logConfigResponse, List.append_assoc]
    exact List.take_left' (u32ToLe_length _)
  have hstatus : ((logConfigResponse operation status data).drop 8).take 4 = u32ToLe status := by
    have hdrop : (logConfigResponse operation status data).drop 8 = u32ToLe status ++ data := by
      rw [logConfigResponse, List.append_assoc]
      exact List.drop_left' (logConfigRequest_length _)
    rw [hdrop]
    exact List.take_left' (u32ToLe_length _)
  have hdata : (logConfigResponse operation status data).drop 12 = data :=
    List.drop_left' (by simp)
  have hop4 : readU32 (logConfigResponse operation status data) 4 = .ok operation := by
    rw [readU32, if_pos (by omega), hop, u32FromLe_toLe]
  have hop8 : readU32 (logConfigResponse operation status data) 8 = .ok status := by
    rw [readU32, if_pos (by omega), hstatus, u32FromLe_toLe]
  rw [parseLogConfigHeader, if_neg (not_or.mpr ⟨by omega, by simp [hhead]⟩), hop4, hop8, hdata]
  rfl

theorem parseIdRangesResponse_response (ranges : Vector UInt32 16) :
    parseIdRangesResponse (idRangesResponse ranges) = .ok ranges := by
  have hlength : (ranges.toList.flatMap u32ToLe).length = 64 := by
    rw [List.length_flatMap]
    simp
  have hread (i : Fin 16) :
      readU32 (ranges.toList.flatMap u32ToLe) (i * 4) = pure ranges[i.val] := by
    have hblock := take_drop_flatMap 4 u32ToLe ranges.toList (fun _ _ => u32ToLe_length _) i
      (by simp)
    rw [readU32, if_pos (by omega), hblock, u32FromLe_toLe]
    rfl
  have hslots : (Vector.ofFnM fun i : Fin 16 => readU32 (ranges.toList.flatMap u32ToLe) (i * 4)) =
      .ok ranges := by
    rw [funext hread, Vector.ofFnM_pure, Vector.ofFn_getElem]
    rfl
  rw [parseIdRangesResponse, idRangesResponse, parseLogConfigHeader_response]
  simp only [bind, Except.bind, ne_eq, not_true_eq_false, if_false, hlength,
    Nat.lt_irrefl, hslots]

end Responses

end SixGrok.Qualcomm
