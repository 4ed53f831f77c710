import SixGrok.Agent.WireSink
import SixGrok.Core.WireFormat
import SixGrok.Framework.Consumer
import SixGrok.Framework.Reader
import SixGrok.Framework.Scan

namespace SixGrok.Api

open SixGrok.Framework SixGrok.Core

def maxWireFrame : Nat := 8 * 1024 * 1024

inductive IngestError (ε : Type) where
  | readingLength (kind : ErrorKind)
  | invalidLength (len : Nat)
  | readingFrame (err : ReadError)
  | decoding (err : WireError)
  | processing (err : ε)
  deriving DecidableEq, Repr

/-- An asynchronous `read_exact` passes every error on. -/
def noRetry : ErrorKind → Bool := fun _ => false

section Ingest

variable {σ ε : Type} (codec : Codec) (process : Consumer σ ε CaptureFrame)

variable (ε) in
/-- The reading half of a pass: a length, as many bytes, and a frame. -/
def receiveFrame (reads : List ReadOutcome) :
    Pass (List ReadOutcome) CaptureFrame (Except (IngestError ε) Unit) :=
  match readExact noRetry 4 reads with
  | .error .unexpectedEof => .stop (.ok ())
  | .error (.broken kind) => .stop (.error (.readingLength kind))
  | .ok (lenBuf, rest) =>
    let len := (u32FromBe lenBuf).toNat
    if len = 0 ∨ len > maxWireFrame then .stop (.error (.invalidLength len))
    else
      match readExact noRetry len rest with
      | .error err => .stop (.error (.readingFrame err))
      | .ok (payload, rest) =>
        match decodeWireFrame codec payload with
        | .error err => .stop (.error (.decoding err))
        | .ok frame => .next frame rest

/-- One pass of the loop: a frame is received, and `process_frame` runs on it. -/
def ingestPass (input : List ReadOutcome × σ) :
    Pass (List ReadOutcome × σ) CaptureFrame (Except (IngestError ε) Unit × σ) :=
  match receiveFrame ε codec input.1 with
  | .stop result => .stop (result, input.2)
  | .next frame rest =>
    match process frame input.2 with
    | (.error err, state) => .stop (.error (.processing err), state)
    | (.ok (), state) => .next frame (rest, state)

variable (ε) in
/-- A frame is a length and a message that have both been read. -/
theorem receiveFrame_next {reads rest : List ReadOutcome} {frame : CaptureFrame}
    (h : receiveFrame ε codec reads = .next frame rest) :
    ∃ lenBuf payload, lenBuf.length = 4 ∧ (u32FromBe lenBuf).toNat = payload.length ∧
      0 < payload.length ∧ payload.length ≤ maxWireFrame ∧
      readBytes reads = 4 + payload.length + readBytes rest ∧
      arrived noRetry reads = lenBuf ++ (payload ++ arrived noRetry rest) ∧
      decodeWireFrame codec payload = .ok frame := by
  rw [receiveFrame] at h
  cases hlenBuf : readExact noRetry 4 reads with
  | error err => cases err <;> simp [hlenBuf] at h
  | ok first =>
    obtain ⟨lenBuf, mid⟩ := first
    simp only [hlenBuf] at h
    split_ifs at h with hlen
    cases hpayload : readExact noRetry (u32FromBe lenBuf).toNat mid with
    | error err => simp [hpayload] at h
    | ok second =>
      obtain ⟨payload, rest'⟩ := second
      simp only [hpayload] at h
      cases hdecode : decodeWireFrame codec payload with
      | error err => simp [hdecode] at h
      | ok decoded =>
        simp only [hdecode] at h
        obtain ⟨rfl, rfl⟩ := Pass.next.inj h
        obtain ⟨hlen4, hbytes, hcame⟩ := readExact_ok hlenBuf
        obtain ⟨hlenN, hbytes', hcame'⟩ := readExact_ok hpayload
        have hpos : 0 < payload.length := by omega
        have hmax : payload.length ≤ maxWireFrame := by omega
        have hread : readBytes reads = 4 + payload.length + readBytes rest' := by omega
        refine ⟨lenBuf, payload, hlen4, hlenN.symm, hpos, hmax, hread, ?_, hdecode⟩
        rw [hcame, hcame']

variable (ε) in
theorem receiveFrame_shrinks : Shrinks readBytes (receiveFrame ε codec) := by
  intro reads frame rest h
  obtain ⟨lenBuf, payload, -, -, -, -, hbytes, -⟩ := receiveFrame_next ε codec h
  omega

theorem ingestPass_shrinks :
    Shrinks (fun input : List ReadOutcome × σ => readBytes input.1) (ingestPass codec process) := by
  intro input frame output h
  rw [ingestPass] at h
  cases hreceive : receiveFrame ε codec input.1 with
  | stop result => simp [hreceive] at h
  | next received rest =>
    rcases hprocess : process received input.2 with ⟨err | ⟨⟩, state⟩
    · simp [hreceive, hprocess] at h
    · simp only [hreceive, hprocess] at h
      obtain ⟨rfl, rfl⟩ := Pass.next.inj h
      exact receiveFrame_shrinks ε codec _ _ _ hreceive

/-- The frames that `ingest_client` has processed, and what it returns. -/
def ingestClient (reads : List ReadOutcome) (state : σ) :
    List CaptureFrame × (Except (IngestError ε) Unit × σ) :=
  runLoop (ingestPass codec process) (ingestPass_shrinks codec process) (reads, state)

variable (ε) in
/-- The frames that a connection carries, up to its end or the first thing that is none, and
what the service makes of the end. -/
def carried (reads : List ReadOutcome) : List CaptureFrame × Except (IngestError ε) Unit :=
  runLoop (receiveFrame ε codec) (receiveFrame_shrinks ε codec) reads

/-- `process_frame` on one frame after the other, up to the first that fails. -/
def replay : List CaptureFrame → σ → List CaptureFrame × (Except (IngestError ε) Unit × σ)
  | [], state => ([], .ok (), state)
  | frame :: frames, state =>
    match process frame state with
    | (.error err, state) => ([], .error (.processing err), state)
    | (.ok (), state) => (frame :: (replay frames state).1, (replay frames state).2)

variable {codec process}

theorem replay_ok {frames : List CaptureFrame} (h : ∀ frame ∈ frames, ∀ state,
    (process frame state).1 = .ok ()) (state : σ) :
    (replay process frames state).1 = frames ∧ (replay process frames state).2.1 = .ok () := by
  induction frames generalizing state with
  | nil => exact ⟨rfl, rfl⟩
  | cons frame frames ih =>
    have hframe := h frame (List.mem_cons_self ..) state
    have hrest := ih fun f hf => h f (List.mem_cons_of_mem frame hf)
    rcases hprocess : process frame state with ⟨err | ⟨⟩, next⟩
    · rw [hprocess] at hframe
      cases hframe
    · obtain ⟨hframes, hresult⟩ := hrest next
      simp only [replay, hprocess]
      exact ⟨congrArg (frame :: ·) hframes, hresult⟩

/-- Whatever comes in: the frames that the connection carries are processed in order, and its
own end counts only when none of them failed. -/
theorem ingest_scans {reads : List ReadOutcome} {frames : List CaptureFrame}
    {ending : Except (IngestError ε) Unit}
    (received : Scans (receiveFrame ε codec) reads frames ending) (state : σ) :
    let replayed := replay process frames state
    Scans (ingestPass codec process) (reads, state) replayed.1
      (replayed.2.1.bind fun _ => ending, replayed.2.2) := by
  induction received generalizing state with
  | stop hstop => exact .stop (by rw [ingestPass, hstop]; rfl)
  | @next reads rest frame frames ending hnext _ ih =>
    rw [replay]
    rcases hprocess : process frame state with ⟨err | ⟨⟩, next⟩
    · exact .stop (by simp only [ingestPass, hnext, hprocess]; rfl)
    · exact .next (by simp only [ingestPass, hnext, hprocess]) (ih next)

variable (codec process) in
theorem ingestClient_eq (reads : List ReadOutcome) (state : σ) :
    let replayed := replay process (carried ε codec reads).1 state
    ingestClient codec process reads state =
      (replayed.1, replayed.2.1.bind fun _ => (carried ε codec reads).2, replayed.2.2) :=
  runLoop_eq _ (ingest_scans (runLoop_scans (receiveFrame_shrinks ε codec) reads) state)

/-- One message that is there in full, in whatever pieces. -/
theorem receiveFrame_prefixed {reads : List ReadOutcome} {payload back : List UInt8}
    {frame : CaptureFrame}
    (delivers : Delivers noRetry reads (Agent.WireSink.prefixed payload ++ back))
    (hdecode : decodeWireFrame codec payload = .ok frame) (nonempty : payload ≠ [])
    (bounded : payload.length ≤ maxWireFrame) :
    ∃ rest, Delivers noRetry rest back ∧
      receiveFrame ε codec reads = .next frame rest := by
  have hpos : 0 < payload.length := List.length_pos_iff.mpr nonempty
  have hlt : payload.length < 2 ^ 32 := by
    have hmax : maxWireFrame = 8388608 := rfl
    omega
  have hlen : (u32FromBe (u32ToBe (UInt32.ofNat payload.length))).toNat = payload.length := by
    rw [u32FromBe_toBe]
    exact UInt32.toNat_ofNat_of_lt' hlt
  rw [Agent.WireSink.prefixed, List.append_assoc] at delivers
  obtain ⟨mid, hfirst, hmid⟩ := delivers.readExact
  obtain ⟨rest, hsecond, hrest⟩ := hmid.readExact
  rw [u32ToBe_length] at hfirst
  refine ⟨rest, hrest, ?_⟩
  rw [receiveFrame]
  simp only [hfirst, hlen, hsecond, hdecode]
  rw [if_neg (by omega)]

theorem receiveFrame_closed {reads : List ReadOutcome} (delivers : Delivers noRetry reads []) :
    receiveFrame ε codec reads = .stop (.ok ()) := by
  have hshort : readExact noRetry 4 reads = .error .unexpectedEof :=
    delivers.readExact_short (by decide)
  rw [receiveFrame]
  simp only [hshort]

/-- A connection carries the frames whose messages it delivers. -/
theorem carried_sent (faithful : codec.Faithful) {frames : List CaptureFrame}
    {payloads : List (List UInt8)}
    (encoded : List.Forall₂ (fun frame payload => encodeWireFrame codec frame = .ok payload)
      frames payloads)
    (bounded : ∀ payload ∈ payloads, payload.length ≤ maxWireFrame) {reads : List ReadOutcome}
    (delivers : Delivers noRetry reads (payloads.map Agent.WireSink.prefixed).flatten) :
    carried ε codec reads = (frames, .ok ()) := by
  apply runLoop_eq
  induction encoded generalizing reads with
  | nil => exact .stop (receiveFrame_closed delivers)
  | @cons frame payload frames payloads hframe _ ih =>
    obtain ⟨rest, hrest, hreceive⟩ := receiveFrame_prefixed delivers
      (decodeWireFrame_encode faithful hframe) (encodeWireFrame_ne_nil faithful hframe)
      (bounded payload (List.mem_cons_self ..))
    have hbounded : ∀ p ∈ payloads, p.length ≤ maxWireFrame := fun p hp =>
      bounded p (List.mem_cons_of_mem payload hp)
    exact .next hreceive (ih hbounded hrest)

variable (ε) in
theorem carried_stop {reads : List ReadOutcome} {result : Except (IngestError ε) Unit}
    (h : receiveFrame ε codec reads = .stop result) : carried ε codec reads = ([], result) :=
  runLoop_eq _ (.stop h)

variable (ε) in
theorem carried_next {reads rest : List ReadOutcome} {frame : CaptureFrame}
    (h : receiveFrame ε codec reads = .next frame rest) :
    carried ε codec reads = (frame :: (carried ε codec rest).1, (carried ε codec rest).2) :=
  runLoop_eq _ (.next h (runLoop_scans (receiveFrame_shrinks ε codec) rest))

variable (ε) in
/-- However much of what was sent has come in, the frames received are the first of those
that were sent. -/
theorem carried_arrived (faithful : codec.Faithful) {frames : List CaptureFrame}
    {payloads : List (List UInt8)}
    (encoded : List.Forall₂ (fun frame payload => encodeWireFrame codec frame = .ok payload ∧
      payload.length < 2 ^ 32) frames payloads) {reads : List ReadOutcome}
    (came : arrived noRetry reads <+: (payloads.map Agent.WireSink.prefixed).flatten) :
    (carried ε codec reads).1 <+: frames := by
  induction encoded generalizing reads with
  | nil =>
    have hnone : arrived noRetry reads = [] := List.prefix_nil.mp came
    cases hreceive : receiveFrame ε codec reads with
    | stop result =>
      simp [carried_stop ε hreceive]
    | next frame rest =>
      obtain ⟨lenBuf, payload, hlen4, -, -, -, -, hbytes, -⟩ := receiveFrame_next ε codec hreceive
      rw [hnone] at hbytes
      have hempty : lenBuf = [] := (List.append_eq_nil_iff.mp hbytes.symm).1
      simp [hempty] at hlen4
  | @cons frame payload frames payloads hframe _ ih =>
    cases hreceive : receiveFrame ε codec reads with
    | stop result =>
      simp [carried_stop ε hreceive]
    | next received rest =>
      obtain ⟨lenBuf, read, hlen4, hlenN, -, -, -, hbytes, hdecode⟩ :=
        receiveFrame_next ε codec hreceive
      rw [hbytes, List.map_cons, List.flatten_cons, Agent.WireSink.prefixed] at came
      obtain ⟨more, hmore⟩ := came
      simp only [List.append_assoc] at hmore
      obtain ⟨hhead, htail⟩ := List.append_inj hmore (by rw [hlen4, u32ToBe_length])
      have hlength : read.length = payload.length := by
        rw [← hlenN, hhead, u32FromBe_toBe]
        exact UInt32.toNat_ofNat_of_lt' hframe.2
      obtain ⟨rfl, hback⟩ := List.append_inj htail hlength
      have hsame : received = frame :=
        Except.ok.inj (hdecode.symm.trans (decodeWireFrame_encode faithful hframe.1))
      rw [carried_next ε hreceive, hsame]
      exact List.prefix_cons_inj frame |>.mpr (ih ⟨more, hback⟩)

theorem payloads_bounded {frames : List CaptureFrame} {payloads : List (List UInt8)}
    (encoded : List.Forall₂ (fun frame payload => encodeWireFrame codec frame = .ok payload)
      frames payloads)
    (bounded : ∀ frame ∈ frames, ∃ payload, encodeWireFrame codec frame = .ok payload ∧
      payload.length ≤ maxWireFrame) : ∀ payload ∈ payloads, payload.length ≤ maxWireFrame := by
  induction encoded with
  | nil => exact List.forall_mem_nil _
  | @cons frame payload frames payloads hframe _ ih =>
    obtain ⟨payload', hpayload', hle⟩ := bounded frame (List.mem_cons_self ..)
    obtain rfl : payload = payload' := Except.ok.inj (hframe.symm.trans hpayload')
    exact List.forall_mem_cons.mpr ⟨hle, ih fun f hf => bounded f (List.mem_cons_of_mem frame hf)⟩

/-- Where everything that was sent comes in, a connection is the processing of its frames. -/
theorem ingestClient_sent (faithful : codec.Faithful) {frames : List CaptureFrame}
    {payloads : List (List UInt8)}
    (encoded : List.Forall₂ (fun frame payload => encodeWireFrame codec frame = .ok payload)
      frames payloads)
    (bounded : ∀ frame ∈ frames, ∃ payload, encodeWireFrame codec frame = .ok payload ∧
      payload.length ≤ maxWireFrame) {reads : List ReadOutcome}
    (delivered : Delivers noRetry reads (payloads.map Agent.WireSink.prefixed).flatten)
    (state : σ) : ingestClient codec process reads state = replay process frames state := by
  have hcarried : carried ε codec reads = (frames, .ok ()) :=
    carried_sent faithful encoded (payloads_bounded encoded bounded) delivered
  rw [ingestClient_eq, hcarried]
  rcases replay process frames state with ⟨done, err | ⟨⟩, last⟩ <;> rfl

/-- What the agent has sent is what the service processes: the same frames in the same
order, whatever the segments, and nothing but `process_frame` can end the connection early. -/
theorem wire_roundtrip (faithful : codec.Faithful) (frames : List CaptureFrame)
    (bounded : ∀ frame ∈ frames, ∃ payload, encodeWireFrame codec frame = .ok payload ∧
      payload.length ≤ maxWireFrame)
    (link : List UInt8 → List UInt8 → Except (ErrorKind × Nat) Unit) (sink : Agent.WireSink)
    (sent : (Session.each (Agent.WireSink.send codec) frames).run { link } = some (.ok (), sink))
    (reads : List ReadOutcome) (delivered : Delivers noRetry reads sink.written) (state : σ) :
    ingestClient codec process reads state = replay process frames state ∧
      ((∀ frame ∈ frames, ∀ state, (process frame state).1 = .ok ()) →
        (ingestClient codec process reads state).1 = frames ∧
        (ingestClient codec process reads state).2.1 = .ok ()) := by
  obtain ⟨payloads, encoded, hwritten⟩ := Agent.WireSink.sends_ok sent
  rw [hwritten, List.nil_append] at delivered
  have hreplay : ingestClient codec process reads state = replay process frames state :=
    ingestClient_sent faithful encoded bounded delivered state
  refine ⟨hreplay, ?_⟩
  intro hok
  rw [hreplay]
  exact replay_ok hok state

end Ingest

/-- Two frames, cut within the first length and within the first message. -/
theorem wire_roundtrip_segments :
    let frames : List CaptureFrame :=
      [{ sequence := 42, timestampWall := 1000, timestampMono := 55, vendor := .samsung,
         logCode := 0x2101, payload := [1, 2, 3, 4] },
       { sequence := 300, timestampWall := -1, timestampMono := 70000, vendor := .qualcomm,
         logCode := 0xB821, payload := [0x21, 0xB8, 0x10, 0xFF] }]
    ∃ sink, (Session.each (Agent.WireSink.send messagePack) frames).run Agent.WireSink.unbroken =
        some (.ok (), sink) ∧
      ∀ reads, Delivers noRetry reads sink.written →
        (ingestClient messagePack (fun frame seen => (Except.ok (ε := Unit) (), seen ++ [frame]))
          reads []).1 = frames := by
  intro frames
  have bounded : ∀ frame ∈ frames, ∃ payload, encodeWireFrame messagePack frame = .ok payload ∧
      payload.length ≤ maxWireFrame :=
    List.forall_mem_cons.mpr ⟨⟨_, rfl, by decide⟩, List.forall_mem_cons.mpr
      ⟨⟨_, rfl, by decide⟩, List.forall_mem_nil _⟩⟩
  have encodable : ∀ frame ∈ frames, ∃ payload, encodeWireFrame messagePack frame = .ok payload ∧
      payload.length < 2 ^ 32 := by
    intro frame hframe
    obtain ⟨payload, hpayload, hle⟩ := bounded frame hframe
    exact ⟨payload, hpayload, lt_of_le_of_lt hle (by decide)⟩
  obtain ⟨sink, hsent⟩ := Agent.WireSink.sends_unbroken encodable
    Agent.WireSink.unbroken (fun _ _ => rfl)
  refine ⟨sink, hsent, ?_⟩
  intro reads delivered
  exact ((wire_roundtrip messagePack_faithful frames bounded _ sink hsent reads delivered []).2
    fun _ _ _ => rfl).1

end SixGrok.Api
