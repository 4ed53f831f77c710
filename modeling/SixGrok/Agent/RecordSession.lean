import Mathlib.Data.List.Forall2
import SixGrok.Agent.Capture
import SixGrok.Agent.RecordStreams
import SixGrok.Agent.Recording
import SixGrok.Core.WireFormat

namespace SixGrok.Agent

open SixGrok.Framework SixGrok.Core

section Handed

variable {σ ε : Type}

/-- A sink that takes every record. -/
def accept : Consumer Unit Empty VendorRecord := fun _ _ => (.ok (), ())

/-- A failure of the reading, whatever the sink. -/
def RecordError.lift : RecordError Empty → RecordError ε
  | .truncatedHeader offset len => .truncatedHeader offset len
  | .readingHeader kind => .readingHeader kind
  | .exceedsLimit label length => .exceedsLimit label length
  | .unresolvedCommand command => .unresolvedCommand command
  | .readingPayload context err => .readingPayload context err
  | .logRequired => .logRequired
  | .unknownVendor logCode => .unknownVendor logCode
  | .readingRaw kind => .readingRaw kind
  | .rawExceedsLimit => .rawExceedsLimit

/-- What comes of handing over all the records of an input that ends like this. -/
def handed (sink : Consumer σ ε VendorRecord) (ending : Except (RecordError Empty) Unit)
    (records : List VendorRecord) (state : σ) : Except (RecordError ε) Unit × σ :=
  match sink.feedAll records state with
  | (.error err, state) => (.error (.sink err), state)
  | (.ok (), state) => (ending.mapError RecordError.lift, state)

variable (sink : Consumer σ ε VendorRecord)

end Handed

section Numbered

variable {τ ε : Type} (clock : Clock)

end Numbered

section Session

variable (codec : Codec) (line : CaptureFrame → Except String String) (clock : Clock)

inductive RecordsFailure where
  | reading (err : RecordError EmitError)
  | flushing (kind : ErrorKind)
  deriving DecidableEq, Repr

variable [FrameJson]

/-- `run_vendor_records` with the outlets of the agent, and the flush at its end. -/
def recordSession (format : RecordFormat) (fixedLogCode : Option UInt16)
    (reads : List ReadOutcome) (files : Files) : Except RecordsFailure Unit × Files :=
  match runVendorRecords clock format fixedLogCode (recordAndEmit codec line) reads files with
  | (.error err, files) => (.error (.reading err), files)
  | (.ok (), files) => ((flushOptional files.frameCapture).mapError .flushing, files)

end Session

end SixGrok.Agent
