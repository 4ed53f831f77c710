import SixGrok.Agent.RecordStreams
import SixGrok.Samsung.Sdm

namespace SixGrok.Agent

open SixGrok.Framework SixGrok.Core SixGrok.Samsung

section Native

/-- The log code of a header that native SDM framing can have. -/
def IsNative (logCode : UInt16) : Prop :=
  ∃ bytes header, parseHeader bytes = .ok header ∧ header.syntheticLogCode = logCode

theorem syntheticLogCode_toNat (header : SdmHeader) :
    header.syntheticLogCode.toNat = 0x2400 + header.group.toNat % 32 := by
  have hmask : (header.group &&& 0x1f).toNat = header.group.toNat % 32 :=
    Nat.and_two_pow_sub_one_eq_mod _ 5
  have hlow : (header.group &&& 0x1f).toUInt16.toNat = header.group.toNat % 32 := by
    rw [UInt8.toNat_toUInt16, hmask]
  have hor := Nat.shiftLeft_add_eq_or_of_lt (show header.group.toNat % 32 < 2 ^ 5 by omega) 0x120
  rw [SdmHeader.syntheticLogCode, UInt16.toNat_or, hlow]
  exact hor.symm

/-- Native codes are the thirty-two from 0x2400 on. -/
theorem isNative_iff (logCode : UInt16) :
    IsNative logCode ↔ 0x2400 ≤ logCode.toNat ∧ logCode.toNat ≤ 0x241f := by
  constructor
  · intro h
    obtain ⟨bytes, header, -, rfl⟩ := h
    have hcode := syntheticLogCode_toNat header
    omega
  · intro h
    obtain ⟨hlow, hhigh⟩ := h
    let bytes : List UInt8 := List.replicate 8 0 ++ [UInt8.ofNat (logCode.toNat - 0x2400)] ++
      List.replicate 5 0
    obtain ⟨header, hparse⟩ := parseHeader_ok bytes (Nat.le_refl 14)
    refine ⟨bytes, header, hparse, ?_⟩
    have hgroup : header.group = UInt8.ofNat (logCode.toNat - 0x2400) &&& 0x1f :=
      (congrArg SdmHeader.group (Except.ok.inj hparse)).symm
    have hvalue : header.group.toNat = logCode.toNat - 0x2400 := by
      have hmask : (UInt8.ofNat (logCode.toNat - 0x2400) &&& 0x1f).toNat =
          (UInt8.ofNat (logCode.toNat - 0x2400)).toNat % 32 := Nat.and_two_pow_sub_one_eq_mod _ 5
      rw [hgroup, hmask, UInt8.toNat_ofNat']
      omega
    apply UInt16.toNat_inj.mp
    rw [syntheticLogCode_toNat, hvalue]
    omega

theorem not_isNative_of_isSynthetic {logCode : UInt16} (h : isSynthetic logCode = true) :
    ¬ IsNative logCode := by
  obtain ⟨-, hhigh⟩ : 0x2000 ≤ logCode ∧ logCode ≤ 0x23ff := by simpa [isSynthetic] using h
  rw [isNative_iff]
  intro hnative
  have hle : logCode.toNat ≤ 0x23ff := UInt16.le_iff_toNat_le.mp hhigh
  omega

end Native

section Disjoint

/-- No Samsung record that is delivered has the log code of a native header. -/
def NamespacesDisjoint (format : RecordFormat) (fixedLogCode : Option UInt16)
    (reads : List ReadOutcome) : Prop :=
  ∀ record ∈ (readRecords Consumer.recorder format fixedLogCode reads []).1,
    record.vendor = .samsung → ¬ IsNative record.logCode

theorem rawVendor_samsung {logCode : UInt16} (h : rawVendor logCode = some .samsung) :
    isSynthetic logCode = true := by
  rw [rawVendor] at h
  split_ifs at h with hsynthetic hmediatek
  · exact hsynthetic
  · cases h

theorem readRaw_samsung {σ ε : Type} {sink : Consumer σ ε VendorRecord}
    {fixedLogCode : Option UInt16} {reads : List ReadOutcome} {state : σ} {record : VendorRecord}
    (h : record ∈ (readRaw sink fixedLogCode reads state).1) (samsung : record.vendor = .samsung) :
    isSynthetic record.logCode = true := by
  cases fixedLogCode with
  | none => simp [readRaw] at h
  | some logCode =>
    rw [readRaw] at h
    cases hvendor : rawVendor logCode with
    | none => simp [hvendor] at h
    | some vendor =>
      cases hfill : fill retryInterrupted (maxRecord + 1) reads with
      | failed kind => simp [hvendor, hfill] at h
      | full bytes rest => simp [hvendor, hfill] at h
      | eof packet =>
        simp only [hvendor, hfill] at h
        split_ifs at h with hempty
        · simp at h
        · rcases hsink : sink ⟨vendor, logCode, packet⟩ state with ⟨err | ⟨⟩, state'⟩
          · simp [hsink] at h
          · simp only [hsink, List.mem_singleton] at h
            subst h
            apply rawVendor_samsung
            rw [hvendor]
            exact congrArg some samsung

/-- A record in the Samsung envelope has the fixed code, or else one of the parser's. -/
theorem IsRecord.logCode_cases {fixedLogCode : Option UInt16} {record : VendorRecord}
    (h : IsRecord fixedLogCode .samsung record) :
    fixedLogCode = some record.logCode ∨
      fixedLogCode = none ∧ isSynthetic record.logCode = true := by
  cases h with
  | fixed _ _ hfixed => exact .inl hfixed
  | command _ _ hnone _ hlow hhigh => exact .inr ⟨hnone, by simpa [isSynthetic] using ⟨hlow, hhigh⟩⟩

theorem readRecords_mediatek_vendor {σ ε : Type} (sink : Consumer σ ε VendorRecord)
    (fixedLogCode : Option UInt16) (reads : List ReadOutcome) (state : σ) :
    ∀ record ∈ (readRecords sink .mediatek fixedLogCode reads state).1,
      record.vendor = .mediatek := by
  have hpositive : 0 < mediatekEnvelope.headerLen := by decide
  have hscans := runLoop_scans (recordPass_shrinks sink mediatekEnvelope hpositive) (reads, state)
  refine hscans.forall_results (P := fun record => record.vendor = .mediatek) ?_
  intro input record output hnext
  obtain ⟨_, _, -, -, hvendor, -⟩ := recordPass_next sink hnext
  exact hvendor

theorem IsRecord.vendor_samsung {fixedLogCode : Option UInt16} {record : VendorRecord}
    (h : IsRecord fixedLogCode .samsung record) : record.vendor = .samsung := by
  obtain ⟨_, _, holds⟩ := (samsungEnvelope_carries fixedLogCode record).mpr h
  exact holds.vendor

theorem IsRecord.packet_ne_nil {fixedLogCode : Option UInt16} {record : VendorRecord}
    (h : IsRecord fixedLogCode .samsung record) : record.packet ≠ [] := by
  obtain ⟨header, payload, holds⟩ := (samsungEnvelope_carries fixedLogCode record).mpr h
  have hheader : header.length = 16 := holds.header_length
  apply List.ne_nil_of_length_pos
  rw [holds.packet, List.length_append, hheader]
  omega

theorem samsung_records {fixedLogCode : Option UInt16} {reads : List ReadOutcome}
    {bytes : List UInt8} (delivers : Delivers retryInterrupted reads bytes) :
    ∃ rest, bytes = ((readRecords Consumer.recorder .samsung fixedLogCode reads []).1.map
        VendorRecord.packet).flatten ++ rest ∧
      (∀ record ∈ (readRecords Consumer.recorder .samsung fixedLogCode reads []).1,
        IsRecord fixedLogCode .samsung record) ∧
      (rest ≠ [] → ¬ ∃ record, IsRecord fixedLogCode .samsung record ∧ record.packet <+: rest) := by
  have accepts (record : VendorRecord) (seen : List VendorRecord) :
      (Consumer.recorder record seen).1 = .ok () := rfl
  have enveloped : RecordFormat.samsung ≠ .raw := by decide
  obtain ⟨-, rest, hbytes, hall, -, hrest⟩ := readRecords_arrived enveloped fixedLogCode accepts [] reads
  exact ⟨rest, delivers.arrived.symm.trans hbytes, hall, fun hne => (hrest hne).2⟩

/-- A stream that is read as records of the Samsung format gives some just when one begins it. -/
theorem samsung_delivers_iff (fixedLogCode : Option UInt16) {reads : List ReadOutcome}
    {bytes : List UInt8} (delivers : Delivers retryInterrupted reads bytes) :
    (readRecords Consumer.recorder .samsung fixedLogCode reads []).1 ≠ [] ↔
      ∃ record, IsRecord fixedLogCode .samsung record ∧ record.packet <+: bytes := by
  obtain ⟨rest, hbytes, hall, hrest⟩ := samsung_records delivers
  constructor
  · intro hsome
    obtain ⟨first, more, hrecords⟩ := List.exists_cons_of_ne_nil hsome
    have hfirst : first ∈ (readRecords Consumer.recorder .samsung fixedLogCode reads []).1 := by
      rw [hrecords]
      exact List.mem_cons_self
    refine ⟨first, hall first hfirst, ?_⟩
    rw [hbytes, hrecords, List.map_cons, List.flatten_cons, List.append_assoc]
    exact List.prefix_append ..
  · intro hbegins hnone
    -- Everything is left over, and no complete record begins what is left over.
    rw [hnone] at hbytes
    have hleft : bytes = rest := hbytes
    obtain ⟨record, hrecord, hprefix⟩ := hbegins
    have hne : rest ≠ [] := by
      intro hempty
      rw [hleft, hempty, List.prefix_nil] at hprefix
      exact hrecord.packet_ne_nil hprefix
    apply hrest hne
    rw [hleft] at hprefix
    exact ⟨record, hrecord, hprefix⟩

/-- With records of the Samsung format everything hangs on the fixed code, and on there being a
record to go by it. -/
theorem namespacesDisjoint_samsung (fixedLogCode : Option UInt16) {reads : List ReadOutcome}
    {bytes : List UInt8} (delivers : Delivers retryInterrupted reads bytes) :
    NamespacesDisjoint .samsung fixedLogCode reads ↔
      ¬ ∃ code, fixedLogCode = some code ∧ IsNative code ∧
        ∃ record, IsRecord fixedLogCode .samsung record ∧ record.packet <+: bytes := by
  obtain ⟨-, -, hall, -⟩ := samsung_records delivers
  rw [← samsung_delivers_iff fixedLogCode delivers]
  constructor
  · intro hdisjoint hnative
    obtain ⟨code, hcode, hcodeNative, hsome⟩ := hnative
    obtain ⟨record, hrecord⟩ := List.exists_mem_of_ne_nil _ hsome
    have henvelope := hall record hrecord
    apply hdisjoint record hrecord henvelope.vendor_samsung
    rcases henvelope.logCode_cases with hfixed | ⟨hfixed, -⟩
    · rw [hcode] at hfixed
      rw [← Option.some.inj hfixed]
      exact hcodeNative
    · rw [hcode] at hfixed
      cases hfixed
  · intro hnone record hrecord _ hnative
    rcases (hall record hrecord).logCode_cases with hfixed | ⟨-, hsynthetic⟩
    · exact hnone ⟨record.logCode, hfixed, hnative, List.ne_nil_of_mem hrecord⟩
    · exact not_isNative_of_isSynthetic hsynthetic hnative

/-- The two Samsung namespaces stay apart, except where a native code is given for records of the
Samsung format and there is a record to go by it. -/
theorem namespacesDisjoint_iff (format : RecordFormat) (fixedLogCode : Option UInt16)
    (reads : List ReadOutcome) (bytes : List UInt8)
    (delivers : Delivers retryInterrupted reads bytes) :
    NamespacesDisjoint format fixedLogCode reads ↔
      ¬ (format = .samsung ∧ ∃ code, fixedLogCode = some code ∧ 0x2400 ≤ code ∧ code ≤ 0x241f ∧
        ∃ record, IsRecord fixedLogCode .samsung record ∧ record.packet <+: bytes) := by
  cases format with
  | mediatek =>
    simp only [reduceCtorEq, false_and, not_false_eq_true, iff_true]
    intro record hrecord hsamsung
    have hmediatek := readRecords_mediatek_vendor _ fixedLogCode reads _ record hrecord
    rw [hsamsung] at hmediatek
    cases hmediatek
  | raw =>
    simp only [reduceCtorEq, false_and, not_false_eq_true, iff_true]
    intro record hrecord hsamsung
    exact not_isNative_of_isSynthetic (readRaw_samsung hrecord hsamsung)
  | samsung =>
    rw [namespacesDisjoint_samsung fixedLogCode delivers]
    simp only [isNative_iff, UInt16.le_iff_toNat_le, true_and, and_assoc]
    exact Iff.rfl

/-- A record without a payload, with the last parser code as its fixed code. -/
theorem namespacesDisjoint_parserCode :
    NamespacesDisjoint .samsung (some 0x23ff) [.ok (List.replicate 16 0)] := by
  have delivers : Delivers retryInterrupted [.ok (List.replicate 16 0)] (List.replicate 16 0) :=
    delivers_single (by decide)
  apply (namespacesDisjoint_iff .samsung (some 0x23ff) _ _ delivers).mpr
  intro h
  obtain ⟨-, code, hcode, hlow, -⟩ := h
  obtain rfl := Option.some.inj hcode
  exact absurd hlow (by decide)

/-- The same record with a native code given for it. -/
theorem namespacesDisjoint_fails :
    ¬ NamespacesDisjoint .samsung (some 0x2402) [.ok (List.replicate 16 0)] := by
  intro h
  have hrun : (readRecords Consumer.recorder .samsung (some 0x2402)
      [.ok (List.replicate 16 0)] []).1 = [⟨.samsung, 0x2402, List.replicate 16 0⟩] := by decide
  rw [NamespacesDisjoint, hrun] at h
  apply h _ (List.mem_singleton_self _) rfl
  rw [isNative_iff]
  decide

end Disjoint

end SixGrok.Agent
