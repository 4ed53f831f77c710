import SixGrok.Qualcomm.LogConfig

namespace SixGrok.Qualcomm

open SixGrok.Framework

section Groups

theorem splitLogCode_item_lt (code : UInt16) : (splitLogCode code).2.toNat < 4096 := by
  have hitem := splitLogCode_item code
  omega

theorem groupLogCodes_bounds {codes : List UInt16} {equip : UInt8} {items : List UInt16}
    (h : (equip, items) ∈ (groupLogCodes codes).entries) :
    equip.toNat < 16 ∧ ∀ item ∈ items, item.toNat < 4096 := by
  obtain ⟨hne, hitems⟩ := mem_groupLogCodes h
  have hsplit {item : UInt16} (hitem : item ∈ items) :
      ∃ code, splitLogCode code = (equip, item) := by
    obtain ⟨code, -, hcode⟩ := (hitems item).mp hitem
    exact ⟨code, hcode⟩
  constructor
  · obtain ⟨item, hitem⟩ := List.exists_mem_of_ne_nil items hne
    obtain ⟨code, hcode⟩ := hsplit hitem
    have hlt := splitLogCode_equip_lt code
    rwa [hcode] at hlt
  · intro item hitem
    obtain ⟨code, hcode⟩ := hsplit hitem
    have hlt := splitLogCode_item_lt code
    rwa [hcode] at hlt

theorem groupLogCodes_sorted {codes : List UInt16} {equip : UInt8} {items : List UInt16}
    (h : (equip, items) ∈ (groupLogCodes codes).entries) : items.Pairwise (· < ·) := by
  obtain ⟨⟨key, raw⟩, hraw, heq⟩ := List.mem_map.mp h
  obtain ⟨rfl, rfl⟩ := Prod.mk.inj heq
  exact sortDedup_pairwise raw

/-- A group with its items joined again is a code that was asked for. -/
theorem joinLogCode_mem {codes : List UInt16} {equip : UInt8} {items : List UInt16} {item : UInt16}
    (h : (equip, items) ∈ (groupLogCodes codes).entries) (hitem : item ∈ items) :
    joinLogCode equip item ∈ codes := by
  obtain ⟨code, hcode, hsplit⟩ := ((mem_groupLogCodes h).2 item).mp hitem
  have hjoin := joinLogCode_split code
  rw [hsplit] at hjoin
  rwa [hjoin]

theorem mem_groupLogCodes_congr {codes codes' : List UInt16} (same : ∀ c, c ∈ codes ↔ c ∈ codes')
    {equip : UInt8} {items : List UInt16} (h : (equip, items) ∈ (groupLogCodes codes).entries) :
    (equip, items) ∈ (groupLogCodes codes').entries := by
  obtain ⟨hne, hitems⟩ := mem_groupLogCodes h
  obtain ⟨item, hitem⟩ := List.exists_mem_of_ne_nil items hne
  obtain ⟨code, hcode, hsplit⟩ := (hitems item).mp hitem
  obtain ⟨items', h'⟩ := exists_groupLogCodes ((same code).mp hcode)
  rw [hsplit] at h'
  have hitems' := (mem_groupLogCodes h').2
  have hsame : items = items' := by
    apply (groupLogCodes_sorted h).eq_of_mem_iff (groupLogCodes_sorted h')
    intro i
    rw [hitems, hitems']
    simp only [same]
  rwa [hsame]

/-- The groups of a list of codes are sorted sets of items, one for each equipment ID that occurs,
and together they hold just the codes of the list; so they depend on nothing else. -/
theorem groupLogCodes_partition (codes : List UInt16) :
    (∀ equip items, (equip, items) ∈ (groupLogCodes codes).entries →
      equip ≤ 15 ∧ items ≠ [] ∧ items.Pairwise (· < ·) ∧ ∀ item ∈ items, item ≤ 0xfff) ∧
    (∀ code, code ∈ codes ↔ ∃ equip items, (equip, items) ∈ (groupLogCodes codes).entries ∧
      ∃ item ∈ items, (equip.toUInt16 <<< 12) ||| item = code) ∧
    ∀ codes' : List UInt16, (∀ code, code ∈ codes' ↔ code ∈ codes) →
      groupLogCodes codes' = groupLogCodes codes := by
  refine ⟨?_, ?_, ?_⟩
  · intro equip items h
    obtain ⟨hequip, hitems⟩ := groupLogCodes_bounds h
    have hle : equip ≤ 15 := by
      rw [UInt8.le_iff_toNat_le]
      exact Nat.le_of_lt_succ hequip
    refine ⟨hle, (mem_groupLogCodes h).1, groupLogCodes_sorted h, ?_⟩
    intro item hitem
    rw [UInt16.le_iff_toNat_le]
    exact Nat.le_of_lt_succ (hitems item hitem)
  · intro code
    constructor
    · intro hcode
      obtain ⟨items, h⟩ := exists_groupLogCodes hcode
      have hitem : (splitLogCode code).2 ∈ items :=
        ((mem_groupLogCodes h).2 _).mpr ⟨code, hcode, rfl⟩
      exact ⟨_, items, h, _, hitem, joinLogCode_split code⟩
    · intro h
      obtain ⟨equip, items, hgroup, item, hitem, rfl⟩ := h
      exact joinLogCode_mem hgroup hitem
  · intro codes' same
    apply OrderedMap.ext_mem
    intro equip items
    exact ⟨mem_groupLogCodes_congr same, mem_groupLogCodes_congr fun code => (same code).symm⟩

end Groups

section Requests

variable {equipId : UInt8} {lastItem : UInt32} {items : List UInt16}

theorem setItems_eq_ok {mask mask' : List UInt8}
    (h : setItems equipId lastItem items mask = .ok mask') :
    ∀ item ∈ items, ¬ item.toUInt32 > lastItem := by
  induction items generalizing mask with
  | nil => exact List.forall_mem_nil _
  | cons item items ih =>
    rw [setItems] at h
    split_ifs at h with hrange
    exact List.forall_mem_cons.mpr ⟨hrange, ih h⟩

/-- A request is built for the sixteen equipment IDs and the items of their range, and for nothing
else. -/
theorem setMaskRequest_eq_ok {packet : List UInt8}
    (h : setMaskRequest equipId lastItem items = .ok packet) :
    equipId.toNat < 16 ∧ (∀ item ∈ items, ¬ item.toUInt32 > lastItem) ∧
      packet = requestPacket equipId lastItem items := by
  have hrequest := h
  rw [setMaskRequest] at h
  split_ifs at h with hid
  have hequip : equipId.toNat < 16 := by
    rw [gt_iff_lt, UInt8.lt_iff_toNat_lt, not_lt] at hid
    exact Nat.lt_succ_of_le hid
  cases hmask : setItems equipId lastItem items (List.replicate (lastItem.toNat / 8 + 1) 0) with
  | error err =>
    rw [hmask] at h
    cases h
  | ok mask =>
    have hitems := setItems_eq_ok hmask
    have hok := setMaskRequest_ok equipId lastItem items hequip hitems
    exact ⟨hequip, hitems, Except.ok.inj (hrequest.symm.trans hok)⟩

theorem requestMask_length (lastItem : UInt32) (items : List UInt16) :
    (requestMask lastItem items).length = lastItem.toNat / 8 + 1 := by
  have hfold (mask : List UInt8) : (items.foldl setItem mask).length = mask.length := by
    induction items generalizing mask with
    | nil => rfl
    | cons item items ih => rw [List.foldl_cons, ih, setItem_length]
  rw [requestMask, hfold, List.length_replicate]

theorem requestPacket_length (equipId : UInt8) (lastItem : UInt32) (items : List UInt16) :
    (requestPacket equipId lastItem items).length = 16 + lastItem.toNat / 8 + 1 := by
  rw [requestPacket_eq]
  simp only [List.length_append, logConfigRequest_length, u32ToLe_length, requestMask_length]
  omega

theorem take_requestPacket (equipId : UInt8) (lastItem : UInt32) (items : List UInt16) :
    (requestPacket equipId lastItem items).take 16 =
      [0x73, 0, 0, 0] ++ u32ToLe 3 ++ u32ToLe equipId.toUInt32 ++ u32ToLe lastItem := by
  have hassoc : requestPacket equipId lastItem items =
      ([0x73, 0, 0, 0] ++ u32ToLe 3 ++ u32ToLe equipId.toUInt32 ++ u32ToLe lastItem) ++
        requestMask lastItem items := rfl
  rw [hassoc]
  exact List.take_left' (by simp)

/-- Every bit of a mask stands in a byte of its own eight. -/
theorem getElem?_itemBit {mask : List UInt8} {j : Nat} (inside : j / 8 < mask.length) :
    ∃ byte, mask[j / 8]? = some byte ∧ byte.toNat.testBit (j % 8) = itemBit mask j := by
  have hbyte := List.getElem?_eq_getElem inside
  refine ⟨mask[j / 8], hbyte, ?_⟩
  rw [itemBit, List.getD_eq_getElem?_getD, hbyte]
  rfl

theorem inRange_iff : (∀ item ∈ items, ¬ item.toUInt32 > lastItem) ↔
    ∀ item ∈ items, item.toNat ≤ lastItem.toNat := by
  simp only [gt_iff_lt, UInt32.lt_iff_toNat_lt, UInt16.toNat_toUInt32, not_lt]

/-- Within the mask, the bits of the items are set and no others; there is room behind the last
item, and it stays clear. -/
theorem requestMask_bit (hrange : ∀ item ∈ items, item.toNat ≤ lastItem.toNat) {j : Nat}
    (inside : j < 8 * (lastItem.toNat / 8 + 1)) :
    ∃ byte, (requestMask lastItem items)[j / 8]? = some byte ∧
      (byte.toNat.testBit (j % 8) = true ↔ ∃ item ∈ items, item.toNat = j) ∧
      (lastItem.toNat < j → byte.toNat.testBit (j % 8) = false) := by
  have hinside : j / 8 < (requestMask lastItem items).length := by
    rw [requestMask_length]
    omega
  obtain ⟨byte, hbyte, hbit⟩ := getElem?_itemBit hinside
  have hset := itemBit_requestMask lastItem items (inRange_iff.mpr hrange) j
  rw [← hbit] at hset
  refine ⟨byte, hbyte, ?_, ?_⟩
  · rw [hset, decide_eq_true_iff]
  · intro habove
    rw [hset]
    apply decide_eq_false
    intro h
    obtain ⟨item, hitem, rfl⟩ := h
    exact absurd (hrange item hitem) (Nat.not_le.mpr habove)

/-- A request is built exactly for an equipment ID of four bits and items up to the last one. Its
bytes are the header with the operation, the equipment ID and the last item, and behind them a
mask in which the bits of the items are set and no others; each item has its byte in the mask. -/
theorem setMaskRequest_exact (equipId : UInt8) (lastItem : UInt32) (items : List UInt16) :
    ((∃ packet, setMaskRequest equipId lastItem items = .ok packet) ↔
      equipId.toNat ≤ 15 ∧ ∀ item ∈ items, item.toNat ≤ lastItem.toNat) ∧
    ∀ packet, setMaskRequest equipId lastItem items = .ok packet →
      packet.length = 16 + lastItem.toNat / 8 + 1 ∧
      packet.take 16 =
        [0x73, 0, 0, 0] ++ u32ToLe 3 ++ u32ToLe equipId.toUInt32 ++ u32ToLe lastItem ∧
      (∀ j < 8 * (lastItem.toNat / 8 + 1), ∃ byte, (packet.drop 16)[j / 8]? = some byte ∧
        (byte.toNat.testBit (j % 8) = true ↔ ∃ item ∈ items, item.toNat = j) ∧
        (lastItem.toNat < j → byte.toNat.testBit (j % 8) = false)) ∧
      ∀ item ∈ items, item.toNat / 8 < (packet.drop 16).length := by
  constructor
  · constructor
    · intro h
      obtain ⟨packet, hpacket⟩ := h
      obtain ⟨hequip, hitems, -⟩ := setMaskRequest_eq_ok hpacket
      exact ⟨Nat.le_of_lt_succ hequip, inRange_iff.mp hitems⟩
    · intro h
      obtain ⟨hequip, hitems⟩ := h
      exact ⟨_, setMaskRequest_ok equipId lastItem items (Nat.lt_succ_of_le hequip)
        (inRange_iff.mpr hitems)⟩
  · intro packet hpacket
    obtain ⟨-, hitems, rfl⟩ := setMaskRequest_eq_ok hpacket
    have hrange := inRange_iff.mp hitems
    refine ⟨requestPacket_length .., take_requestPacket .., ?_, ?_⟩
    · intro j hj
      rw [drop_requestPacket]
      exact requestMask_bit hrange hj
    · intro item hitem
      have hle := hrange item hitem
      rw [drop_requestPacket, requestMask_length]
      omega

end Requests

end SixGrok.Qualcomm
