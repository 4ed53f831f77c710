import SixGrok.Api.Gsmtap
import SixGrok.Api.Ingest
import SixGrok.Api.Store
import SixGrok.Framework.Tasks

namespace SixGrok.Api

open SixGrok.Framework SixGrok.Core

structure Settings where
  history : Nat
  gsmtap : Option GsmtapSink

def Settings.historyLimit (settings : Settings) : Nat := max settings.history 1

inductive ServiceError where
  | sendingGsmtap (kind : ErrorKind)
  | serializing (err : String)
  | encodingLive (err : String)
  deriving DecidableEq, Repr

section Service

variable {φ ν κ : Type}

/-- The decoded packet as a value, and then as a text. -/
def serialize (parser : Parser φ ν) (frame : CaptureFrame) : Except ServiceError (Packet parser) :=
  match hvalue : parser.toValue (frame.decode parser) with
  | .error err => .error (.serializing err)
  | .ok value =>
    match htext : parser.toString (frame.decode parser) with
    | .error err => .error (.encodingLive err)
    | .ok text => .ok { frame, value, text, value_eq := hvalue, text_eq := htext }

theorem serialize_frame {parser : Parser φ ν} {frame : CaptureFrame} {packet : Packet parser}
    (h : serialize parser frame = .ok packet) : packet.frame = frame := by
  rw [serialize] at h
  split at h
  · cases h
  · split at h
    · cases h
    · rw [← Except.ok.inj h]

/-- Where the task of a connection stands in `ingest_client` and `process_frame`. A connection
that has not been accepted yet is one that has had no turn. -/
inductive Phase (parser : Parser φ ν) where
  | receiving
  | mirroring (frame : CaptureFrame)
  | decoding (frame : CaptureFrame)
  | locking (packet : Packet parser)
  | updating (packet : Packet parser) (ops : List (StoreOp ν))
  | broadcasting (packet : Packet parser)
  | finished (result : Except (IngestError ServiceError) Unit)

structure Connection (parser : Parser φ ν) where
  reads : List ReadOutcome
  phase : Phase parser

/-- What the connections share: the store behind its lock, the UDP socket and the live channel. -/
structure AppState (κ : Type) (parser : Parser φ ν) where
  store : Store ν
  -- the connection that holds the write lock
  writer : Option κ := none
  datagrams : List Datagram := []
  live : List (κ × Packet parser) := []
  -- not part of the program: the updates of the store, in their order
  updates : List (κ × Packet parser) := []

/-- What a reader gets who asks for the lock now. -/
def AppState.read {parser : Parser φ ν} (state : AppState κ parser) : Option (Store ν) :=
  match state.writer with
  | none => some state.store
  | some _ => none

variable (codec : Codec) (settings : Settings) {parser : Parser φ ν}

variable (parser) in
/-- What the task of a connection does from one point where another can come in between to the
next. The last argument is what a `send_to` of this turn would come back with. -/
def connectionTurn (c : κ) (sent : Except ErrorKind Nat) :
    Connection parser × AppState κ parser → Connection parser × AppState κ parser
  | (⟨reads, .receiving⟩, state) =>
    match receiveFrame ServiceError codec reads with
    | .stop result => (⟨reads, .finished result⟩, state)
    | .next frame rest => (⟨rest, .mirroring frame⟩, state)
  | (⟨reads, .mirroring frame⟩, state) =>
    match mirrored settings.gsmtap frame with
    | none => (⟨reads, .decoding frame⟩, state)
    | some datagram =>
      match sent with
      | .error kind => (⟨reads, .finished (.error (.processing (.sendingGsmtap kind)))⟩, state)
      | .ok _ => (⟨reads, .decoding frame⟩, { state with datagrams := state.datagrams ++ [datagram] })
  | (⟨reads, .decoding frame⟩, state) =>
    match serialize parser frame with
    | .error err => (⟨reads, .finished (.error (.processing err))⟩, state)
    | .ok packet => (⟨reads, .locking packet⟩, state)
  | (⟨reads, .locking packet⟩, state) =>
    match state.writer with
    | none => (⟨reads, .updating packet (storeOps packet)⟩, { state with writer := some c })
    | some _ => (⟨reads, .locking packet⟩, state)
  | (⟨reads, .updating packet (op :: ops)⟩, state) =>
    (⟨reads, .updating packet ops⟩,
      { state with store := op.apply settings.historyLimit state.store })
  | (⟨reads, .updating packet []⟩, state) =>
    (⟨reads, .broadcasting packet⟩,
      { state with writer := none, updates := state.updates ++ [(c, packet)] })
  | (⟨reads, .broadcasting packet⟩, state) =>
    (⟨reads, .receiving⟩, { state with live := state.live ++ [(c, packet)] })
  | (⟨reads, .finished result⟩, state) => (⟨reads, .finished result⟩, state)

/-- Everything that a turn can be. -/
inductive Step (c : κ) :
    Connection parser × AppState κ parser → Connection parser × AppState κ parser → Prop where
  | waits (before : Connection parser × AppState κ parser) : Step c before before
  | receives {reads rest : List ReadOutcome} {frame : CaptureFrame} {state : AppState κ parser} :
      receiveFrame ServiceError codec reads = .next frame rest →
      Step c (⟨reads, .receiving⟩, state) (⟨rest, .mirroring frame⟩, state)
  | ends {reads : List ReadOutcome} {result : Except (IngestError ServiceError) Unit}
      {state : AppState κ parser} : receiveFrame ServiceError codec reads = .stop result →
      Step c (⟨reads, .receiving⟩, state) (⟨reads, .finished result⟩, state)
  | skips {reads : List ReadOutcome} {frame : CaptureFrame} {state : AppState κ parser} :
      mirrored settings.gsmtap frame = none →
      Step c (⟨reads, .mirroring frame⟩, state) (⟨reads, .decoding frame⟩, state)
  | mirrors {reads : List ReadOutcome} {frame : CaptureFrame} {datagram : Datagram}
      {state : AppState κ parser} : mirrored settings.gsmtap frame = some datagram →
      Step c (⟨reads, .mirroring frame⟩, state)
        (⟨reads, .decoding frame⟩, { state with datagrams := state.datagrams ++ [datagram] })
  | mirrorFails {reads : List ReadOutcome} {frame : CaptureFrame} {kind : ErrorKind}
      {state : AppState κ parser} :
      Step c (⟨reads, .mirroring frame⟩, state)
        (⟨reads, .finished (.error (.processing (.sendingGsmtap kind)))⟩, state)
  | serializes {reads : List ReadOutcome} {frame : CaptureFrame} {packet : Packet parser}
      {state : AppState κ parser} : packet.frame = frame →
      Step c (⟨reads, .decoding frame⟩, state) (⟨reads, .locking packet⟩, state)
  | serializeFails {reads : List ReadOutcome} {frame : CaptureFrame} {err : ServiceError}
      {state : AppState κ parser} :
      Step c (⟨reads, .decoding frame⟩, state)
        (⟨reads, .finished (.error (.processing err))⟩, state)
  | locks {reads : List ReadOutcome} {packet : Packet parser} {state : AppState κ parser} :
      state.writer = none →
      Step c (⟨reads, .locking packet⟩, state)
        (⟨reads, .updating packet (storeOps packet)⟩, { state with writer := some c })
  | updates {reads : List ReadOutcome} {packet : Packet parser} {op : StoreOp ν}
      {ops : List (StoreOp ν)} {state : AppState κ parser} :
      Step c (⟨reads, .updating packet (op :: ops)⟩, state)
        (⟨reads, .updating packet ops⟩,
          { state with store := op.apply settings.historyLimit state.store })
  | unlocks {reads : List ReadOutcome} {packet : Packet parser} {state : AppState κ parser} :
      Step c (⟨reads, .updating packet []⟩, state)
        (⟨reads, .broadcasting packet⟩,
          { state with writer := none, updates := state.updates ++ [(c, packet)] })
  | broadcasts {reads : List ReadOutcome} {packet : Packet parser} {state : AppState κ parser} :
      Step c (⟨reads, .broadcasting packet⟩, state)
        (⟨reads, .receiving⟩, { state with live := state.live ++ [(c, packet)] })

theorem connectionTurn_step (c : κ) (sent : Except ErrorKind Nat)
    (before : Connection parser × AppState κ parser) :
    Step codec settings c before (connectionTurn codec settings parser c sent before) := by
  obtain ⟨⟨reads, phase⟩, state⟩ := before
  cases phase with
  | receiving =>
    cases hreceive : receiveFrame ServiceError codec reads with
    | stop result => simpa only [connectionTurn, hreceive] using .ends hreceive
    | next frame rest => simpa only [connectionTurn, hreceive] using .receives hreceive
  | mirroring frame =>
    cases hmirrored : mirrored settings.gsmtap frame with
    | none => simpa only [connectionTurn, hmirrored] using .skips hmirrored
    | some datagram =>
      cases sent with
      | error kind => simpa only [connectionTurn, hmirrored] using .mirrorFails
      | ok n => simpa only [connectionTurn, hmirrored] using .mirrors hmirrored
  | decoding frame =>
    cases hserialize : serialize parser frame with
    | error err => simpa only [connectionTurn, hserialize] using .serializeFails
    | ok packet =>
      simpa only [connectionTurn, hserialize] using .serializes (serialize_frame hserialize)
  | locking packet =>
    cases hwriter : state.writer with
    | none => simpa only [connectionTurn, hwriter] using .locks hwriter
    | some holder => simpa only [connectionTurn, hwriter] using .waits _
  | updating packet ops =>
    cases ops with
    | nil => exact .unlocks
    | cons op ops => exact .updates
  | broadcasting packet => exact .broadcasts
  | finished result => exact .waits _

end Service

/-- A parser that shows nothing but the log code. -/
def logCodeParser : Parser UInt16 UInt16 where
  decodeAgentFrame frame :=
    { vendor := "", rat := "", layer := "", fullyDecoded := false, fields := frame.logCode }
  toValue packet := .ok packet.fields
  toString packet := .ok packet.vendor

/-- A MediaTek frame of a small log code, without a payload. -/
def logCodeFrame (sequence logCode : UInt8) : CaptureFrame :=
  { sequence := sequence.toUInt64, timestampWall := 1, timestampMono := 1, vendor := .mediatek,
    logCode := logCode.toUInt16, payload := [] }

/-- Its message. -/
def logCodeMessage (sequence logCode : UInt8) : List UInt8 :=
  [0, 0, 0, 14, 0x92, 0xA5, 0x46, 0x72, 0x61, 0x6D, 0x65, 0x96, sequence, 1, 1, logCode, 0x90, 1]

end SixGrok.Api
