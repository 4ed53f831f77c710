import SixGrok.Agent.VendorRecords

namespace SixGrok.Agent

open SixGrok.Framework SixGrok.Core

/-- A complete record of one of the two envelope formats, with the vendor and the log code that
it goes by. -/
inductive IsRecord (fixedLogCode : Option UInt16) : RecordFormat → VendorRecord → Prop where
  | mediatek {header payload : List UInt8} :
      header.length = 9 → payload.length = leValue ((header.drop 6).take 2) →
      IsRecord fixedLogCode .mediatek
        ⟨.mediatek, u16FromLe (header.take 2), header ++ payload⟩
  | fixed {header payload : List UInt8} {logCode : UInt16} :
      header.length = 16 → payload.length = leValue ((header.drop 6).take 2) →
      fixedLogCode = some logCode →
      IsRecord fixedLogCode .samsung ⟨.samsung, logCode, header ++ payload⟩
  | command {header payload : List UInt8} {logCode : UInt16} :
      header.length = 16 → payload.length = leValue ((header.drop 6).take 2) →
      fixedLogCode = none → logCode = u16FromLe ((header.drop 4).take 2) →
      0x2000 ≤ logCode → logCode ≤ 0x23ff →
      IsRecord fixedLogCode .samsung ⟨.samsung, logCode, header ++ payload⟩

/-- A record in an envelope: a header that has a log code, and the payload that it announces. -/
structure Envelope.Holds (envelope : Envelope) (record : VendorRecord)
    (header payload : List UInt8) : Prop where
  vendor : record.vendor = envelope.vendor
  header_length : header.length = envelope.headerLen
  payload_length : payload.length = (u16FromLe ((header.drop 6).take 2)).toNat
  logCode : envelope.logCode header = .ok record.logCode
  packet : record.packet = header ++ payload

def Envelope.Carries (envelope : Envelope) (record : VendorRecord) : Prop :=
  ∃ header payload, envelope.Holds record header payload

theorem announced_eq {header : List UInt8} (long : 8 ≤ header.length) :
    (u16FromLe ((header.drop 6).take 2)).toNat = leValue ((header.drop 6).take 2) := by
  have htwo : ((header.drop 6).take 2).length = 2 := by
    rw [List.length_take, List.length_drop]
    omega
  have hlt := leValue_lt ((header.drop 6).take 2)
  rw [htwo] at hlt
  exact UInt16.toNat_ofNat_of_lt' hlt

theorem mediatekEnvelope_carries (fixedLogCode : Option UInt16) (record : VendorRecord) :
    mediatekEnvelope.Carries record ↔
      IsRecord fixedLogCode .mediatek record := by
  constructor
  · intro h
    obtain ⟨header, payload, h⟩ := h
    obtain ⟨vendor, logCode, packet⟩ := record
    obtain rfl : vendor = .mediatek := h.vendor
    obtain rfl : u16FromLe (header.take 2) = logCode := Except.ok.inj h.logCode
    obtain rfl : packet = header ++ payload := h.packet
    have hlength : header.length = 9 := h.header_length
    exact .mediatek hlength (h.payload_length.trans (announced_eq (by omega)))
  · intro h
    cases h with
    | mediatek hheader hpayload =>
      exact ⟨_, _, rfl, hheader, hpayload.trans (announced_eq (by omega)).symm, rfl, rfl⟩

theorem samsungEnvelope_carries (fixedLogCode : Option UInt16) (record : VendorRecord) :
    (samsungEnvelope fixedLogCode).Carries record ↔
      IsRecord fixedLogCode .samsung record := by
  constructor
  · intro h
    obtain ⟨header, payload, h⟩ := h
    obtain ⟨vendor, logCode, packet⟩ := record
    obtain rfl : vendor = .samsung := h.vendor
    obtain rfl : packet = header ++ payload := h.packet
    have hlength : header.length = 16 := h.header_length
    have hpayload := h.payload_length.trans (announced_eq (by omega))
    have hcode := h.logCode
    cases fixedLogCode with
    | some code => exact .fixed hlength hpayload (congrArg some (Except.ok.inj hcode))
    | none =>
      simp only [samsungEnvelope] at hcode
      split_ifs at hcode with hsynthetic
      obtain rfl := Except.ok.inj hcode
      obtain ⟨hlow, hhigh⟩ : _ ∧ _ := by simpa [isSynthetic] using hsynthetic
      exact .command hlength hpayload rfl rfl hlow hhigh
  · intro h
    cases h with
    | fixed hheader hpayload hfixed =>
      subst hfixed
      exact ⟨_, _, rfl, hheader, hpayload.trans (announced_eq (by omega)).symm, rfl, rfl⟩
    | @command header payload logCode hheader hpayload hfixed hcode hlow hhigh =>
      subst hfixed
      refine ⟨_, _, rfl, hheader, hpayload.trans (announced_eq (by omega)).symm, ?_, rfl⟩
      have hsynthetic : isSynthetic (u16FromLe ((header.drop 4).take 2)) = true := by
        rw [← hcode]
        simpa [isSynthetic] using ⟨hlow, hhigh⟩
      simp only [samsungEnvelope, hsynthetic, if_true, hcode]

section Stream

variable {σ ε : Type} {sink : Consumer σ ε VendorRecord} {envelope : Envelope}

theorem readExactOrEof_full {n : Nat} {reads rest : List ReadOutcome} {bytes : List UInt8}
    (h : fill retryInterrupted n reads = .full bytes rest) :
    (readExactOrEof n reads : Except (RecordError ε) _) = .ok (some (bytes, rest)) := by
  rw [readExactOrEof, h]

/-- A record that begins here has the bytes that come first as its header. -/
theorem Envelope.Holds.front {record : VendorRecord} {header payload bytes : List UInt8}
    (holds : envelope.Holds record header payload) (begins : record.packet <+: bytes) :
    bytes.take envelope.headerLen = header ∧ payload <+: bytes.drop envelope.headerLen := by
  obtain ⟨back, hback⟩ := begins
  rw [holds.packet, List.append_assoc] at hback
  rw [← hback, ← holds.header_length, List.take_left, List.drop_left]
  exact ⟨rfl, List.prefix_append ..⟩

/-- A pass that fails because no complete record begins where it stands. -/
def RecordPassFails (sink : Consumer σ ε VendorRecord) (envelope : Envelope) (reads : List ReadOutcome)
    (bytes : List UInt8) (state : σ) : Prop :=
  (∃ err, recordPass sink envelope (reads, state) = .stop (.error err, state)) ∧
    ¬ ∃ record, envelope.Carries record ∧ record.packet <+: bytes

section Pass

variable {reads : List ReadOutcome} {bytes : List UInt8} (state : σ)

/-- How a pass ends where nothing more arrives. -/
def recordEnd : Option ErrorKind → Except (RecordError ε) Unit
  | none => .ok ()
  | some kind => .error (.readingHeader kind)

theorem recordPass_ended (positive : 0 < envelope.headerLen)
    (nothing : arrived retryInterrupted reads = []) :
    recordPass sink envelope (reads, state) =
      .stop (recordEnd (broken retryInterrupted reads), state) := by
  have hshort : (arrived retryInterrupted reads).length < envelope.headerLen := by rwa [nothing]
  have hfill := fill_short hshort
  rw [nothing] at hfill
  rw [recordPass]
  cases hbroken : broken retryInterrupted reads with
  | none | some =>
    rw [hbroken] at hfill
    simp only [readExactOrEof, hfill]
    rfl

theorem recordPass_short (harrived : arrived retryInterrupted reads = bytes) (nonempty : bytes ≠ [])
    (short : bytes.length < envelope.headerLen) : RecordPassFails sink envelope reads bytes state := by
  subst harrived
  have hfill := fill_short short
  refine ⟨?_, ?_⟩
  · rw [recordPass]
    cases hbroken : broken retryInterrupted reads with
    | none =>
      obtain ⟨byte, more, hbytes⟩ := List.exists_cons_of_ne_nil nonempty
      rw [hbroken, hbytes] at hfill
      simp only [readExactOrEof, hfill]
      exact ⟨_, rfl⟩
    | some kind =>
      rw [hbroken] at hfill
      simp only [readExactOrEof, hfill]
      exact ⟨_, rfl⟩
  · intro h
    obtain ⟨record, ⟨header, payload, holds⟩, begins⟩ := h
    have hlength := begins.length_le
    rw [holds.packet, List.length_append, holds.header_length] at hlength
    omega

/-- No length of 16 bits is over the limit of a record. -/
theorem announced_le (header : List UInt8) :
    ¬ (u16FromLe ((header.drop 6).take 2)).toNat > maxRecord := by
  have hlt := (u16FromLe ((header.drop 6).take 2)).toNat_lt
  rw [maxRecord]
  omega

theorem recordPass_unresolved {command : UInt16} {mid : List ReadOutcome}
    (header : fill retryInterrupted envelope.headerLen reads =
      .full (bytes.take envelope.headerLen) mid)
    (unresolved : envelope.logCode (bytes.take envelope.headerLen) = .error command) :
    RecordPassFails sink envelope reads bytes state := by
  have hread : (readExactOrEof envelope.headerLen reads : Except (RecordError ε) _) =
      .ok (some (bytes.take envelope.headerLen, mid)) := readExactOrEof_full header
  refine ⟨⟨.unresolvedCommand command, ?_⟩, ?_⟩
  · rw [recordPass]
    simp only [hread, announced_le, if_false, unresolved]
  · intro h
    obtain ⟨record, ⟨header, payload, holds⟩, begins⟩ := h
    rw [(holds.front begins).1, holds.logCode] at unresolved
    cases unresolved

theorem recordPass_cut {logCode : UInt16} {mid : List ReadOutcome}
    (header : fill retryInterrupted envelope.headerLen reads =
      .full (bytes.take envelope.headerLen) mid)
    (harrived : arrived retryInterrupted mid = bytes.drop envelope.headerLen)
    (resolved : envelope.logCode (bytes.take envelope.headerLen) = .ok logCode)
    (cut : (bytes.drop envelope.headerLen).length <
      (u16FromLe (((bytes.take envelope.headerLen).drop 6).take 2)).toNat) :
    RecordPassFails sink envelope reads bytes state := by
  have hread : (readExactOrEof envelope.headerLen reads : Except (RecordError ε) _) =
      .ok (some (bytes.take envelope.headerLen, mid)) := readExactOrEof_full header
  obtain ⟨err, hpayload⟩ := readExact_short (harrived ▸ cut)
  refine ⟨⟨.readingPayload envelope.context err, ?_⟩, ?_⟩
  · rw [recordPass]
    simp only [hread, announced_le, if_false, resolved, hpayload]
  · intro h
    obtain ⟨record, ⟨header, payload, holds⟩, begins⟩ := h
    obtain ⟨hheader, hbegins⟩ := holds.front begins
    have hlength := hbegins.length_le
    rw [holds.payload_length, ← hheader] at hlength
    omega

theorem recordPass_takes (accepts : ∀ record state, (sink record state).1 = .ok ())
    {logCode : UInt16} {mid : List ReadOutcome} (long : envelope.headerLen ≤ bytes.length)
    (header : fill retryInterrupted envelope.headerLen reads =
      .full (bytes.take envelope.headerLen) mid)
    (harrived : arrived retryInterrupted mid = bytes.drop envelope.headerLen)
    (resolved : envelope.logCode (bytes.take envelope.headerLen) = .ok logCode)
    (complete : (u16FromLe (((bytes.take envelope.headerLen).drop 6).take 2)).toNat ≤
      (bytes.drop envelope.headerLen).length) :
    ∃ record rest, envelope.Carries record ∧
      bytes = record.packet ++ arrived retryInterrupted rest ∧
      broken retryInterrupted rest = broken retryInterrupted mid ∧
      recordPass sink envelope (reads, state) = .next record (rest, (sink record state).2) := by
  have hread : (readExactOrEof envelope.headerLen reads : Except (RecordError ε) _) =
      .ok (some (bytes.take envelope.headerLen, mid)) := readExactOrEof_full header
  obtain ⟨rest, hpayload, hrest, hbroken⟩ := readExact_enough (harrived ▸ complete)
  rw [harrived] at hpayload hrest
  have hheader : (bytes.take envelope.headerLen).length = envelope.headerLen :=
    List.length_take_of_le long
  refine ⟨⟨envelope.vendor, logCode, _⟩, rest,
    ⟨_, _, rfl, hheader, List.length_take_of_le complete, resolved, rfl⟩, ?_, hbroken, ?_⟩
  · rw [hrest, List.append_assoc, List.take_append_drop, List.take_append_drop]
  · rw [recordPass]
    simp only [hread, announced_le, if_false, resolved, hpayload]
    split
    · rename_i hsink
      have haccepts := congrArg Prod.fst hsink
      rw [accepts] at haccepts
      cases haccepts
    · rename_i hsink
      rw [hsink]

/-- Whatever the reads: one pass ends where nothing more arrives, fails where no complete record
begins, or takes the record that begins there. -/
theorem recordPass_cases (accepts : ∀ record state, (sink record state).1 = .ok ())
    (positive : 0 < envelope.headerLen) (harrived : arrived retryInterrupted reads = bytes) :
    (bytes = [] ∧ recordPass sink envelope (reads, state) =
      .stop (recordEnd (broken retryInterrupted reads), state)) ∨
    (bytes ≠ [] ∧ RecordPassFails sink envelope reads bytes state) ∨
    ∃ record rest, envelope.Carries record ∧
      bytes = record.packet ++ arrived retryInterrupted rest ∧
      broken retryInterrupted rest = broken retryInterrupted reads ∧
      recordPass sink envelope (reads, state) = .next record (rest, (sink record state).2) := by
  by_cases hempty : bytes = []
  · left
    exact ⟨hempty, recordPass_ended state positive (harrived.trans hempty)⟩
  right
  by_cases hshort : bytes.length < envelope.headerLen
  · left
    exact ⟨hempty, recordPass_short state harrived hempty hshort⟩
  have hlong : envelope.headerLen ≤ bytes.length := Nat.le_of_not_lt hshort
  obtain ⟨mid, hheader, hmid, hbroken⟩ := fill_enough (harrived ▸ hlong)
  rw [harrived] at hheader hmid
  cases hcode : envelope.logCode (bytes.take envelope.headerLen) with
  | error command =>
    left
    exact ⟨hempty, recordPass_unresolved state hheader hcode⟩
  | ok logCode =>
    by_cases hcut : (bytes.drop envelope.headerLen).length <
        (u16FromLe (((bytes.take envelope.headerLen).drop 6).take 2)).toNat
    · left
      exact ⟨hempty, recordPass_cut state hheader hmid hcode hcut⟩
    · right
      rw [← hbroken]
      exact recordPass_takes state accepts hlong hheader hmid hcode (Nat.le_of_not_lt hcut)

end Pass

/-- The loop over the records, on whatever comes in: it ends well when that is records and nothing
else and the input does not break. -/
theorem recordPass_scans (accepts : ∀ record state, (sink record state).1 = .ok ())
    (positive : 0 < envelope.headerLen) {input : List ReadOutcome × σ}
    {records : List VendorRecord} {output : Except (RecordError ε) Unit × σ}
    (scans : Scans (recordPass sink envelope) input records output) {bytes : List UInt8}
    (harrived : arrived retryInterrupted input.1 = bytes) :
    Consumer.feedAll sink records input.2 = (.ok (), output.2) ∧
    ∃ rest, bytes = (records.map VendorRecord.packet).flatten ++ rest ∧
      (∀ record ∈ records, envelope.Carries record) ∧
      (output.1 = .ok () ↔ rest = [] ∧ broken retryInterrupted input.1 = none) ∧
      (rest ≠ [] → (∃ err, output.1 = .error err) ∧
        ¬ ∃ record, envelope.Carries record ∧ record.packet <+: rest) := by
  induction scans generalizing bytes with
  | @stop input output hstop =>
    obtain ⟨reads, state⟩ := input
    rcases recordPass_cases state accepts positive harrived with
      ⟨hempty, hpass⟩ | ⟨hne, ⟨err, hpass⟩, hnone⟩ | ⟨_, _, -, -, -, hpass⟩
    · obtain rfl := Pass.stop.inj (hstop.symm.trans hpass)
      refine ⟨rfl, bytes, rfl, List.forall_mem_nil _, ?_, fun hne => absurd hempty hne⟩
      rw [and_iff_right hempty]
      cases broken retryInterrupted reads with
      | none => exact iff_of_true rfl rfl
      | some kind => exact iff_of_false (by intro h; cases h) (by intro h; cases h)
    · obtain rfl := Pass.stop.inj (hstop.symm.trans hpass)
      exact ⟨rfl, bytes, rfl, List.forall_mem_nil _,
        iff_of_false (by intro h; cases h) fun hempty => hne hempty.1, fun _ => ⟨⟨err, rfl⟩, hnone⟩⟩
    · cases hstop.symm.trans hpass
  | @next input output record records final hnext _ ih =>
    obtain ⟨reads, state⟩ := input
    rcases recordPass_cases state accepts positive harrived with
      ⟨-, hpass⟩ | ⟨-, ⟨err, hpass⟩, -⟩ | ⟨_, rest, carries, hbytes, hbroken, hpass⟩
    · cases hnext.symm.trans hpass
    · cases hnext.symm.trans hpass
    · obtain ⟨rfl, rfl⟩ := Pass.next.inj (hnext.symm.trans hpass)
      obtain ⟨hfed, left, hback, hall, hresult, hleft⟩ := ih rfl
      rw [hbroken] at hresult
      refine ⟨?_, left, ?_, List.forall_mem_cons.mpr ⟨carries, hall⟩, hresult, hleft⟩
      · rw [Consumer.feedAll]
        have haccepts := accepts record state
        rcases hsink : sink record state with ⟨err | ⟨⟩, state'⟩
        · rw [hsink] at haccepts
          cases haccepts
        · rw [hsink] at hfed
          exact hfed
      · rw [hbytes, hback, List.map_cons, List.flatten_cons, List.append_assoc]

/-- Complete records come from the front of whatever arrives, and behind them begins no other. -/
theorem readRecords_arrived {format : RecordFormat} (enveloped : format ≠ .raw)
    (fixedLogCode : Option UInt16) (accepts : ∀ record state, (sink record state).1 = .ok ())
    (state : σ) (reads : List ReadOutcome) :
    let run := readRecords sink format fixedLogCode reads state
    Consumer.feedAll sink run.1 state = (.ok (), run.2.2) ∧
    ∃ rest, arrived retryInterrupted reads = (run.1.map VendorRecord.packet).flatten ++ rest ∧
      (∀ record ∈ run.1, IsRecord fixedLogCode format record) ∧
      (run.2.1 = .ok () ↔ rest = [] ∧ broken retryInterrupted reads = none) ∧
      (rest ≠ [] → (∃ err, run.2.1 = .error err) ∧
        ¬ ∃ record, IsRecord fixedLogCode format record ∧ record.packet <+: rest) := by
  intro run
  cases format with
  | raw => exact absurd rfl enveloped
  | mediatek =>
    have hpositive : 0 < mediatekEnvelope.headerLen := by decide
    have hscans := runLoop_scans (recordPass_shrinks sink mediatekEnvelope hpositive) (reads, state)
    have hsplit := recordPass_scans accepts hpositive hscans rfl
    simp only [mediatekEnvelope_carries fixedLogCode] at hsplit
    exact hsplit
  | samsung =>
    have hpositive : 0 < (samsungEnvelope fixedLogCode).headerLen := Nat.zero_lt_succ 15
    have hscans := runLoop_scans
      (recordPass_shrinks sink (samsungEnvelope fixedLogCode) hpositive) (reads, state)
    have hsplit := recordPass_scans accepts hpositive hscans rfl
    simp only [samsungEnvelope_carries fixedLogCode] at hsplit
    exact hsplit

/-- A stream of records is split where they end, however it is read: what the sink is handed
are complete records from its front, and either they are all of it or an error says that no
complete record begins behind them. -/
theorem readRecords_split (format : RecordFormat) (enveloped : format ≠ .raw)
    (fixedLogCode : Option UInt16) (sink : Consumer σ ε VendorRecord)
    (accepts : ∀ record state, (sink record state).1 = .ok ()) (state : σ)
    (reads : List ReadOutcome) (bytes : List UInt8)
    (delivers : Delivers retryInterrupted reads bytes) :
    let run := readRecords sink format fixedLogCode reads state
    Consumer.feedAll sink run.1 state = (.ok (), run.2.2) ∧
    ∃ rest, bytes = (run.1.map VendorRecord.packet).flatten ++ rest ∧
      (∀ record ∈ run.1, IsRecord fixedLogCode format record) ∧
      (run.2.1 = .ok () ↔ rest = []) ∧
      (rest ≠ [] → (∃ err, run.2.1 = .error err) ∧
        ¬ ∃ record, IsRecord fixedLogCode format record ∧ record.packet <+: rest) := by
  obtain ⟨hbytes, hbroken⟩ := delivers_iff.mp delivers
  obtain ⟨hfed, rest, hsplit, hrecords, hresult, hrest⟩ :=
    readRecords_arrived enveloped fixedLogCode accepts state reads
  refine ⟨hfed, rest, hbytes.symm.trans hsplit, hrecords, ?_, hrest⟩
  rw [hresult, and_iff_left hbroken]

end Stream

/-- Two records without a fixed code, the second cut off, with an interruption in the header of
the first. -/
theorem readRecords_split_truncated :
    let header : List UInt8 := [0x43, 0x50, 0x49, 0x4d, 0x60, 0x20, 0, 0, 0, 0, 0, 0, 0, 0, 0, 0]
    let reads : List ReadOutcome := [.ok (header.take 5), .error .interrupted,
      .ok (header.drop 5 ++ header.take 3)]
    let run := readRecords Consumer.recorder .samsung none reads []
    run.1 = [⟨.samsung, 0x2060, header⟩] ∧ ∃ err, run.2.1 = .error err := by
  intro header reads run
  have hlater : Delivers retryInterrupted [.ok (header.drop 5 ++ header.take 3)]
      (header.drop 5 ++ header.take 3) := delivers_single (by decide)
  have delivers : Delivers retryInterrupted reads (header ++ header.take 3) :=
    .chunk (by decide) (.retried rfl hlater)
  obtain ⟨-, rest, hbytes, -, hresult, hrest⟩ := readRecords_split .samsung nofun none
    Consumer.recorder (fun _ _ => rfl) [] reads _ delivers
  have hrun : run.1 = [⟨.samsung, 0x2060, header⟩] := by decide
  refine ⟨hrun, (hrest ?_).1⟩
  intro hempty
  rw [hempty, hrun] at hbytes
  revert hbytes
  decide

end SixGrok.Agent
