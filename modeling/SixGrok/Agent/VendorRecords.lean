import SixGrok.Core.Frame
import SixGrok.Framework.Consumer
import SixGrok.Framework.Reader
import SixGrok.Framework.Scan

namespace SixGrok.Agent

open SixGrok.Framework SixGrok.Core

def mtkHeaderLen : Nat := 9
def samsungHeaderLen : Nat := 16
def maxRecord : Nat := 8 * 1024 * 1024

inductive RecordFormat where
  | mediatek
  | samsung
  | raw
  deriving DecidableEq, Repr

structure VendorRecord where
  vendor : Vendor
  logCode : UInt16
  packet : List UInt8
  deriving DecidableEq, Repr

inductive RecordError (ε : Type) where
  | truncatedHeader (offset len : Nat)
  | readingHeader (kind : ErrorKind)
  | exceedsLimit (label : String) (length : Nat)
  | unresolvedCommand (command : UInt16)
  | readingPayload (context : String) (err : ReadError)
  | logRequired
  | unknownVendor (logCode : UInt16)
  | readingRaw (kind : ErrorKind)
  | rawExceedsLimit
  | sink (err : ε)
  deriving DecidableEq, Repr

/-- Blocking reads are tried again after an interruption. -/
def retryInterrupted (kind : ErrorKind) : Bool := kind = .interrupted

/-- Where the two record formats differ. -/
structure Envelope where
  vendor : Vendor
  headerLen : Nat
  label : String
  context : String
  logCode : List UInt8 → Except UInt16 UInt16

def mediatekEnvelope : Envelope where
  vendor := .mediatek
  headerLen := mtkHeaderLen
  label := "MediaTek record payload"
  context := "reading MediaTek record payload"
  logCode header := .ok (u16FromLe (header.take 2))

def isSynthetic (code : UInt16) : Bool := 0x2000 ≤ code ∧ code ≤ 0x23ff

def samsungEnvelope (fixedLogCode : Option UInt16) : Envelope where
  vendor := .samsung
  headerLen := samsungHeaderLen
  label := "Samsung record payload"
  context := "reading Samsung MIPC record payload"
  logCode header :=
    let command := u16FromLe ((header.drop 4).take 2)
    match fixedLogCode with
    | some code => .ok code
    | none => if isSynthetic command then .ok command else .error command

section Records

variable {σ ε : Type} (sink : Consumer σ ε VendorRecord)

/-- `none` is the end of the input between two records. -/
def readExactOrEof (n : Nat) (reads : List ReadOutcome) :
    Except (RecordError ε) (Option (List UInt8 × List ReadOutcome)) :=
  match fill retryInterrupted n reads with
  | .full bytes rest => .ok (some (bytes, rest))
  | .eof [] => .ok none
  | .eof got => .error (.truncatedHeader got.length n)
  | .failed kind => .error (.readingHeader kind)

/-- One pass of the loop over the records: header, checks, payload, sink. -/
def recordPass (envelope : Envelope) (input : List ReadOutcome × σ) :
    Pass (List ReadOutcome × σ) VendorRecord (Except (RecordError ε) Unit × σ) :=
  match readExactOrEof envelope.headerLen input.1 with
  | .error err => .stop (.error err, input.2)
  | .ok none => .stop (.ok (), input.2)
  | .ok (some (header, rest)) =>
    let length := (u16FromLe ((header.drop 6).take 2)).toNat
    if length > maxRecord then .stop (.error (.exceedsLimit envelope.label length), input.2)
    else
      match envelope.logCode header with
      | .error command => .stop (.error (.unresolvedCommand command), input.2)
      | .ok logCode =>
        match readExact retryInterrupted length rest with
        | .error err => .stop (.error (.readingPayload envelope.context err), input.2)
        | .ok (payload, rest) =>
          let record := { vendor := envelope.vendor, logCode, packet := header ++ payload }
          match sink record input.2 with
          | (.error err, state) => .stop (.error (.sink err), state)
          | (.ok (), state) => .next record (rest, state)

/-- A pass that goes round again has read a header and as much payload as it announces. -/
theorem recordPass_next {envelope : Envelope} {input output : List ReadOutcome × σ}
    {record : VendorRecord} (h : recordPass sink envelope input = .next record output) :
    ∃ header payload, header.length = envelope.headerLen ∧
      payload.length = (u16FromLe ((header.drop 6).take 2)).toNat ∧
      record.vendor = envelope.vendor ∧ envelope.logCode header = .ok record.logCode ∧
      record.packet = header ++ payload ∧ sink record input.2 = (.ok (), output.2) ∧
      readBytes input.1 = envelope.headerLen + payload.length + readBytes output.1 := by
  rw [recordPass] at h
  cases hfill : fill retryInterrupted envelope.headerLen input.1 with
  | eof got => cases got <;> simp [readExactOrEof, hfill] at h
  | failed kind => simp [readExactOrEof, hfill] at h
  | full header rest =>
    obtain ⟨hheader, hbytes, -⟩ := fill_full hfill
    have hread : (readExactOrEof envelope.headerLen input.1 : Except (RecordError ε) _) =
        .ok (some (header, rest)) := by rw [readExactOrEof, hfill]
    simp only [hread] at h
    split_ifs at h with hlarge
    cases hcode : envelope.logCode header with
    | error command => simp [hcode] at h
    | ok logCode =>
      cases hpayload : readExact retryInterrupted (u16FromLe ((header.drop 6).take 2)).toNat rest with
      | error err => simp [hcode, hpayload] at h
      | ok second =>
        obtain ⟨payload, rest'⟩ := second
        simp only [hcode, hpayload] at h
        obtain ⟨hlength, hbytes', -⟩ := readExact_ok hpayload
        rcases hsink : sink ⟨envelope.vendor, logCode, header ++ payload⟩ input.2 with
          ⟨err | ⟨⟩, state⟩
        · simp [hsink] at h
        · simp only [hsink] at h
          obtain ⟨rfl, rfl⟩ := Pass.next.inj h
          refine ⟨header, payload, hheader, hlength, rfl, hcode, rfl, hsink, ?_⟩
          change readBytes input.1 = envelope.headerLen + payload.length + readBytes rest'
          omega

theorem recordPass_shrinks (envelope : Envelope) (hpos : 0 < envelope.headerLen) :
    Shrinks (fun input : List ReadOutcome × σ => readBytes input.1) (recordPass sink envelope) := by
  intro input record output h
  obtain ⟨header, payload, -, -, -, -, -, -, hbytes⟩ := recordPass_next sink h
  change readBytes output.1 < readBytes input.1
  omega

def rawVendor (logCode : UInt16) : Option Vendor :=
  if isSynthetic logCode then some .samsung
  else if (0x0c00 ≤ logCode ∧ logCode ≤ 0x0eff) ∨ (0x1c00 ≤ logCode ∧ logCode ≤ 0x1eff) then
    some .mediatek
  else none

/-- The raw format takes the whole input as one packet: `take(MAX_RECORD + 1)` and
`read_to_end` end where the filling of a buffer of that length does. -/
def readRaw (fixedLogCode : Option UInt16) (reads : List ReadOutcome) (state : σ) :
    List VendorRecord × (Except (RecordError ε) Unit × σ) :=
  match fixedLogCode with
  | none => ([], .error .logRequired, state)
  | some logCode =>
    match rawVendor logCode with
    | none => ([], .error (.unknownVendor logCode), state)
    | some vendor =>
      match fill retryInterrupted (maxRecord + 1) reads with
      | .failed kind => ([], .error (.readingRaw kind), state)
      | .full _ _ => ([], .error .rawExceedsLimit, state)
      | .eof packet =>
        if packet = [] then ([], .ok (), state)
        else
          match sink { vendor, logCode, packet } state with
          | (.error err, state) => ([], .error (.sink err), state)
          | (.ok (), state) => ([{ vendor, logCode, packet }], .ok (), state)

/-- The records that the sink has taken, and what `read_records` returns. -/
def readRecords (format : RecordFormat) (fixedLogCode : Option UInt16) (reads : List ReadOutcome)
    (state : σ) : List VendorRecord × (Except (RecordError ε) Unit × σ) :=
  match format with
  | .mediatek =>
    runLoop (recordPass sink mediatekEnvelope)
      (recordPass_shrinks sink mediatekEnvelope (by decide)) (reads, state)
  | .samsung =>
    runLoop (recordPass sink (samsungEnvelope fixedLogCode))
      (recordPass_shrinks sink (samsungEnvelope fixedLogCode) (Nat.zero_lt_succ 15)) (reads, state)
  | .raw => readRaw sink fixedLogCode reads state

end Records

end SixGrok.Agent
