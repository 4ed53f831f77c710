import SixGrok.Agent.Capture
import SixGrok.Api.Ingest
import SixGrok.Samsung.Capture

namespace SixGrok.Api

open SixGrok.Framework SixGrok.Core SixGrok.Agent SixGrok.Samsung

/-- What the agent backends read their frames from. -/
inductive Source where
  | records (format : RecordFormat) (fixedLogCode : Option UInt16) (reads : List ReadOutcome)
  | qualcomm (live : Bool) (reads : List ReadOutcome)
  | sdm (live : Bool) (reads : List ReadOutcome)

section Emitted

variable (checksum : List UInt8 → UInt16) (clock : Clock)

def emitted : Source → List CaptureFrame
  | .records format fixedLogCode reads =>
    (runVendorRecords clock format fixedLogCode Consumer.recorder reads []).2
  | .qualcomm live reads => (runQualcommStream checksum clock live Consumer.recorder reads []).2
  | .sdm live reads => (runStream clock live Consumer.recorder reads []).2

variable {clock}

theorem recordSink_recorder (record : VendorRecord) (state : UInt64 × List CaptureFrame) :
    recordSink clock Consumer.recorder record state =
      (.ok (), state.1 + 1, state.2 ++
        [captureFrame clock (state.1 + 1) record.vendor record.logCode record.packet]) := rfl

/-- A pass over the records that stops has handed over nothing more. -/
theorem recordPass_stop {envelope : Envelope}
    {input : List ReadOutcome × UInt64 × List CaptureFrame}
    {result : Except (RecordError Empty) Unit × UInt64 × List CaptureFrame}
    (h : recordPass (recordSink clock Consumer.recorder) envelope input = .stop result) :
    result.2 = input.2 := by
  rw [recordPass] at h
  cases hread : (readExactOrEof envelope.headerLen input.1 : Except (RecordError Empty) _) with
  | error err =>
    rw [hread] at h
    rw [← Pass.stop.inj h]
  | ok first =>
    rw [hread] at h
    cases first with
    | none => rw [← Pass.stop.inj h]
    | some first =>
      obtain ⟨header, rest⟩ := first
      simp only at h
      split_ifs at h with hlarge
      · rw [← Pass.stop.inj h]
      · cases hcode : envelope.logCode header with
        | error command =>
          simp only [hcode] at h
          rw [← Pass.stop.inj h]
        | ok logCode =>
          cases hpayload : readExact retryInterrupted (u16FromLe ((header.drop 6).take 2)).toNat
              rest with
          | error err =>
            simp only [hcode, hpayload] at h
            rw [← Pass.stop.inj h]
          | ok second => simp [hcode, hpayload, recordSink_recorder] at h

/-- A record packet is a header and a payload whose length is a 16-bit number. -/
theorem envelope_frames (envelope : Envelope) (hpos : 0 < envelope.headerLen)
    (reads : List ReadOutcome) :
    ∀ frame ∈ (runLoop (recordPass (recordSink clock Consumer.recorder) envelope)
        (recordPass_shrinks _ envelope hpos) (reads, 0, [])).2.2.2,
      frame.payload.length ≤ 2 + envelope.headerLen + 65535 := by
  let bounded (frames : List CaptureFrame) :=
    ∀ frame ∈ frames, frame.payload.length ≤ 2 + envelope.headerLen + 65535
  have hscan := runLoop_scans (recordPass_shrinks (recordSink clock Consumer.recorder) envelope hpos)
    (reads, 0, [])
  refine hscan.invariant (I := fun input => bounded input.2.2) (J := fun result => bounded result.2.2)
    ?_ ?_ (List.forall_mem_nil _)
  · intro input record output hinput hpass frame hframe
    obtain ⟨header, payload, hheader, hpayload, -, -, hpacket, hsink, -⟩ := recordPass_next _ hpass
    rw [recordSink_recorder] at hsink
    have hlog : output.2.2 = input.2.2 ++
        [captureFrame clock (input.2.1 + 1) record.vendor record.logCode record.packet] :=
      (congrArg (fun r => r.2.2) hsink).symm
    rw [hlog] at hframe
    rcases List.mem_append.mp hframe with hold | hnew
    · exact hinput frame hold
    · have hword := (u16FromLe ((header.drop 6).take 2)).toNat_lt
      rw [List.mem_singleton.mp hnew, captureFrame, parserPayload, hpacket]
      simp only [List.length_append, u16ToLe_length]
      omega
  · intro input result hinput hpass
    rw [recordPass_stop hpass]
    exact hinput

theorem sdm_frames (live : Bool) (reads : List ReadOutcome) :
    ∀ frame ∈ emitted checksum clock (.sdm live reads), frame.payload.length ≤ 2 + 65537 := by
  intro frame hframe
  obtain ⟨packet, header, hpacket, -, -, hpayload⟩ := captured_packet clock live reads frame hframe
  have hword : header.length1.toNat < 2 ^ 16 := header.length1.toNat_lt
  have htotal := hpacket.total
  rw [hpayload, parserPayload, List.length_append, u16ToLe_length]
  omega

/-- The frames of a DIAG stream are its log packets, numbered from one. -/
theorem qualcomm_frames (live : Bool) (reads : List ReadOutcome) (frame : CaptureFrame) :
    frame ∈ emitted checksum clock (.qualcomm live reads) ↔
      ∃ i logCode packet, (logPackets checksum (streamed live reads))[i]? = some (logCode, packet) ∧
        frame = captureFrame clock (UInt64.ofNat (i + 1)) .qualcomm logCode packet := by
  change frame ∈ captured live (feed (QualcommCapture.push checksum clock)) reads {} ↔ _
  rw [captured_qualcomm, List.mem_iff_getElem?]
  simp only [List.getElem?_mapIdx, Option.map_eq_some_iff, Prod.exists]
  constructor
  · intro h
    obtain ⟨i, logCode, packet, hpacket, hframe⟩ := h
    exact ⟨i, logCode, packet, hpacket, hframe.symm⟩
  · intro h
    obtain ⟨i, logCode, packet, hpacket, hframe⟩ := h
    exact ⟨i, logCode, packet, hpacket, hframe.symm⟩

/-- The one frame of a raw input. -/
theorem raw_frames (fixedLogCode : Option UInt16) (reads : List ReadOutcome) (frame : CaptureFrame) :
    frame ∈ emitted checksum clock (.records .raw fixedLogCode reads) ↔
      ∃ logCode vendor packet, fixedLogCode = some logCode ∧ rawVendor logCode = some vendor ∧
        fill retryInterrupted (maxRecord + 1) reads = .eof packet ∧ packet ≠ [] ∧
        frame = captureFrame clock 1 vendor logCode packet := by
  change frame ∈ (readRaw (recordSink clock Consumer.recorder) fixedLogCode reads (0, [])).2.2.2 ↔ _
  cases fixedLogCode with
  | none => simp [readRaw]
  | some logCode =>
    cases hvendor : rawVendor logCode with
    | none => simp [readRaw, hvendor]
    | some vendor =>
      cases hfill : fill retryInterrupted (maxRecord + 1) reads with
      | failed kind => simp [readRaw, hvendor, hfill]
      | full bytes rest => simp [readRaw, hvendor, hfill]
      | eof packet =>
        by_cases hempty : packet = []
        · simp [readRaw, hvendor, hfill, hempty]
        · simp [readRaw, hvendor, hfill, hempty, recordSink_recorder]

end Emitted

section Agreement

/-- If the agent's send succeeds, the service accepts the length that it has written. -/
def AgreesOn (codec : Codec) (frame : CaptureFrame) : Prop :=
  ∀ sink sink', (WireSink.send codec frame).run sink = some (.ok (), sink') →
    ∃ len payload, sink'.written = sink.written ++ u32ToBe len ++ payload ∧
      payload.length = len.toNat ∧ 1 ≤ len.toNat ∧ len.toNat ≤ maxWireFrame

variable {codec : Codec}

theorem encoded_length (writes : codec.WritesMessagePack) {frame : CaptureFrame}
    {payload : List UInt8} (h : encodeWireFrame codec frame = .ok payload) :
    payload.length = frameSize frame := by
  have hencode := (writes _ _).mp (encodeWireFrame_eq_ok h)
  rw [wireFormat.encode_length hencode, wireFormat_size]

theorem encodable (writes : codec.WritesMessagePack) (frame : CaptureFrame)
    (hpayload : frame.payload.length < 2 ^ 32) :
    ∃ payload, encodeWireFrame codec frame = .ok payload := by
  obtain ⟨payload, hencode⟩ := Option.isSome_iff_exists.mp (wireFormat_isSome frame hpayload)
  refine ⟨payload, ?_⟩
  rw [encodeWireFrame, (writes _ _).mpr hencode]
  rfl

/-- A send that goes through with a message beyond the limit is not agreed on. -/
theorem not_agreesOn {frame : CaptureFrame} {payload : List UInt8}
    (hpayload : encodeWireFrame codec frame = .ok payload) (hlt : payload.length < 2 ^ 32)
    (hlong : maxWireFrame < payload.length) : ¬ AgreesOn codec frame := by
  intro h
  obtain ⟨len, payload', hwritten, hlen, -, hmax⟩ :=
    h WireSink.unbroken _ (WireSink.send_unbroken hpayload hlt fun _ _ => rfl)
  have hlength := congrArg List.length hwritten
  simp only [WireSink.prefixed, List.length_append, u32ToBe_length] at hlength
  omega

theorem agreesOn_iff (writes : codec.WritesMessagePack) (frame : CaptureFrame) :
    AgreesOn codec frame ↔ frameSize frame ≤ maxWireFrame ∨ 2 ^ 32 ≤ frameSize frame := by
  obtain ⟨hlow, -⟩ := frameSize_bounds frame
  constructor
  · intro h
    by_contra hnot
    obtain ⟨hlong, hlt⟩ := not_or.mp hnot
    obtain ⟨payload, hpayload⟩ := encodable writes frame (by omega)
    have hlength := encoded_length writes hpayload
    have hsent : payload.length < 2 ^ 32 := by omega
    have hover : maxWireFrame < payload.length := by omega
    exact not_agreesOn hpayload hsent hover h
  · intro h sink sink' hsend
    obtain ⟨payload, hpayload, hlt, hwritten⟩ := WireSink.send_ok hsend
    have hlength := encoded_length writes hpayload
    have hlen : (UInt32.ofNat payload.length).toNat = payload.length :=
      UInt32.toNat_ofNat_of_lt' hlt
    have hpos : 1 ≤ (UInt32.ofNat payload.length).toNat := by omega
    have hmax : (UInt32.ofNat payload.length).toNat ≤ maxWireFrame := by omega
    refine ⟨UInt32.ofNat payload.length, payload, ?_, hlen.symm, hpos, hmax⟩
    rw [hwritten, WireSink.prefixed, List.append_assoc]

theorem agreesOn_short (writes : codec.WritesMessagePack) {frame : CaptureFrame}
    (h : frame.payload.length ≤ 65553) : AgreesOn codec frame := by
  obtain ⟨-, hhigh⟩ := frameSize_bounds frame
  have hmax : maxWireFrame = 8388608 := rfl
  have hsize : frameSize frame ≤ maxWireFrame := by omega
  exact (agreesOn_iff writes frame).mpr (Or.inl hsize)

/-- The sources whose frames the service accepts: every record stream and every SDM stream; a
raw input when its packet makes a message of 8 MiB at most (or one so long that the agent
itself refuses to send it), and a DIAG stream when each of its log packets does. -/
def Fits (checksum : List UInt8 → UInt16) (clock : Clock) : Source → Prop
  | .records .mediatek _ _ | .records .samsung _ _ | .sdm _ _ => True
  | .records .raw fixedLogCode reads =>
    ∀ logCode vendor packet, fixedLogCode = some logCode → rawVendor logCode = some vendor →
      fill retryInterrupted (maxRecord + 1) reads = .eof packet → packet ≠ [] →
      let size := frameSize (captureFrame clock 1 vendor logCode packet)
      size ≤ maxWireFrame ∨ 2 ^ 32 ≤ size
  | .qualcomm live reads =>
    ∀ i logCode packet, (logPackets checksum (streamed live reads))[i]? = some (logCode, packet) →
      let size := frameSize (captureFrame clock (UInt64.ofNat (i + 1)) .qualcomm logCode packet)
      size ≤ maxWireFrame ∨ 2 ^ 32 ≤ size

/-- Agent and service agree on the frames of a source exactly when it fits. -/
theorem wireAgreement_iff (writes : codec.WritesMessagePack) (checksum : List UInt8 → UInt16)
    (clock : Clock) (source : Source) :
    (∀ frame ∈ emitted checksum clock source, AgreesOn codec frame) ↔
      Fits checksum clock source := by
  cases source with
  | records format fixedLogCode reads =>
    cases format with
    | mediatek =>
      refine iff_of_true ?_ trivial
      intro frame hframe
      apply agreesOn_short writes
      have hheader : mediatekEnvelope.headerLen = 9 := rfl
      have hlength := envelope_frames mediatekEnvelope (by decide) reads frame hframe
      omega
    | samsung =>
      refine iff_of_true ?_ trivial
      intro frame hframe
      apply agreesOn_short writes
      have hheader : (samsungEnvelope fixedLogCode).headerLen = 16 := rfl
      have hlength := envelope_frames (samsungEnvelope fixedLogCode) (Nat.zero_lt_succ 15) reads
        frame hframe
      omega
    | raw =>
      simp only [raw_frames, agreesOn_iff writes, Fits]
      constructor
      · intro h logCode vendor packet hcode hvendor hfill hne
        exact h _ ⟨logCode, vendor, packet, hcode, hvendor, hfill, hne, rfl⟩
      · intro h frame hframe
        obtain ⟨logCode, vendor, packet, hcode, hvendor, hfill, hne, rfl⟩ := hframe
        exact h logCode vendor packet hcode hvendor hfill hne
  | qualcomm live reads =>
    simp only [qualcomm_frames, agreesOn_iff writes, Fits]
    constructor
    · intro h i logCode packet hpacket
      exact h _ ⟨i, logCode, packet, hpacket, rfl⟩
    · intro h frame hframe
      obtain ⟨i, logCode, packet, hpacket, rfl⟩ := hframe
      exact h i logCode packet hpacket
  | sdm live reads =>
    refine iff_of_true ?_ trivial
    intro frame hframe
    apply agreesOn_short writes
    have hlength := sdm_frames checksum live reads frame hframe
    omega

/-- A MediaTek record and a Samsung record reach the service. -/
theorem wireAgreement_records :
    (∀ frame ∈ emitted Framework.crc16IbmSdlc (fun _ => (0, 0))
        (.records .mediatek none [.ok [0x01, 0x1d, 1, 2, 3, 4, 3, 0, 1, 0x7e, 0x00, 0x41]]),
      AgreesOn messagePack frame) ∧
    ∀ frame ∈ emitted Framework.crc16IbmSdlc (fun _ => (0, 0))
        (.records .samsung (some 0x2060) [.ok (List.replicate 16 0)]), AgreesOn messagePack frame :=
  ⟨(wireAgreement_iff messagePack_writes _ _ _).mpr trivial,
    (wireAgreement_iff messagePack_writes _ _ _).mpr trivial⟩

/-- A raw packet as long as the agent lets it be is sent in a message that is longer than
the service lets it be. -/
theorem raw_limit_not_agreed {checksum : List UInt8 → UInt16} {clock : Clock}
    (writes : codec.WritesMessagePack) {logCode : UInt16} {vendor : Vendor}
    (hvendor : rawVendor logCode = some vendor) {packet : List UInt8}
    (hlength : packet.length = maxRecord) :
    ¬ ∀ frame ∈ emitted checksum clock (.records .raw (some logCode) [.ok packet]),
      AgreesOn codec frame := by
  intro h
  have hmax : maxRecord = 8388608 ∧ maxWireFrame = 8388608 := ⟨rfl, rfl⟩
  have hne : packet ≠ [] := List.ne_nil_of_length_pos (by omega)
  have hfill : fill retryInterrupted (maxRecord + 1) [.ok packet] = .eof packet :=
    (delivers_single hne).fill_short (by omega)
  have hagrees := h _ ((raw_frames checksum (some logCode) _ _).mpr
    ⟨logCode, vendor, packet, rfl, hvendor, hfill, hne, rfl⟩)
  have hpayload : (captureFrame clock 1 vendor logCode packet).payload.length =
      2 + packet.length := by
    rw [captureFrame, parserPayload, List.length_append, u16ToLe_length]
  obtain ⟨hlow, hhigh⟩ := frameSize_bounds (captureFrame clock 1 vendor logCode packet)
  have hsize := (agreesOn_iff writes _).mp hagrees
  omega

/-- 8 MiB of zeros as a raw Samsung packet. -/
theorem not_wireAgreement :
    ¬ ∀ frame ∈ emitted Framework.crc16IbmSdlc (fun _ => (0, 0))
        (.records .raw (some 0x2060) [.ok (List.replicate (8 * 1024 * 1024) 0)]),
      AgreesOn messagePack frame :=
  raw_limit_not_agreed messagePack_writes (show rawVendor 0x2060 = some .samsung by decide)
    List.length_replicate

end Agreement

end SixGrok.Api
