import SixGrok.Agent.Emit
import SixGrok.Api.Mirror

namespace SixGrok.Api

open SixGrok.Framework SixGrok.Core SixGrok.Agent SixGrok.Qualcomm

section Delivery

variable {φ ν : Type} (codec : Codec) (settings : Settings) (parser : Parser φ ν)
  (udp : Nat → Except ErrorKind Nat)

theorem serialize_ok (values : ∀ decoded, ∃ value, parser.toValue decoded = .ok value)
    (texts : ∀ decoded, ∃ text, parser.toString decoded = .ok text) (frame : CaptureFrame) :
    ∃ packet, serialize parser frame = .ok packet := by
  obtain ⟨value, hvalue⟩ := values (frame.decode parser)
  obtain ⟨text, htext⟩ := texts (frame.decode parser)
  rw [serialize]
  split
  · rename_i err herr
    rw [hvalue] at herr
    cases herr
  · split
    · rename_i err herr
      rw [htext] at herr
      cases herr
    · exact ⟨_, rfl⟩

/-- Where every datagram is sent and every packet serialized, all frames are processed. -/
theorem replay_sent (sends : ∀ n, ∃ size, udp n = .ok size)
    (serializes : ∀ frame, ∃ packet, serialize parser frame = .ok packet)
    (frames : List CaptureFrame) (state : Ingestion parser) :
    ∃ final, replay (processFrame settings parser udp) frames state = (frames, .ok (), final) ∧
      final.datagrams = state.datagrams ++ frames.filterMap (mirrored settings.gsmtap) ∧
      final.store.received = state.store.received + frames.length := by
  have hpublish (frame : CaptureFrame) (state : Ingestion parser) :
      ∃ next, publish settings parser frame state = (.ok (), next) ∧
        next.datagrams = state.datagrams ∧ next.store.received = state.store.received + 1 := by
    obtain ⟨packet, hserialize⟩ := serializes frame
    rw [publish, hserialize]
    refine ⟨_, rfl, rfl, ?_⟩
    rw [update_eq]
  induction frames generalizing state with
  | nil => exact ⟨state, rfl, (List.append_nil _).symm, rfl⟩
  | cons frame frames ih =>
    obtain ⟨next, hprocess, hdatagrams, hreceived⟩ :
        ∃ next, processFrame settings parser udp frame state = (.ok (), next) ∧
          next.datagrams = state.datagrams ++ (mirrored settings.gsmtap frame).toList ∧
          next.store.received = state.store.received + 1 := by
      rw [processFrame]
      cases mirrored settings.gsmtap frame with
      | none =>
        obtain ⟨next, hnext, hdatagrams, hreceived⟩ := hpublish frame state
        exact ⟨next, hnext, hdatagrams.trans (List.append_nil _).symm, hreceived⟩
      | some datagram =>
        obtain ⟨size, hsize⟩ := sends state.attempts
        rw [hsize]
        exact hpublish frame _
    obtain ⟨final, hreplay, hrest, hcount⟩ := ih next
    refine ⟨final, ?_, ?_, ?_⟩
    · simp only [replay, hprocess, hreplay]
    · rw [hrest, hdatagrams, List.append_assoc, List.filterMap_cons]
      cases mirrored settings.gsmtap frame <;> rfl
    · rw [hcount, hreceived, List.length_cons]
      omega

theorem exists_payloads {frames : List CaptureFrame}
    (bounded : ∀ frame ∈ frames, ∃ payload, encodeWireFrame codec frame = .ok payload ∧
      payload.length ≤ maxWireFrame) :
    ∃ payloads, List.Forall₂ (fun frame payload => encodeWireFrame codec frame = .ok payload ∧
      payload.length ≤ maxWireFrame) frames payloads := by
  induction frames with
  | nil => exact ⟨[], .nil⟩
  | cons frame frames ih =>
    obtain ⟨payload, hpayload⟩ := bounded frame (List.mem_cons_self ..)
    obtain ⟨payloads, hall⟩ := ih fun f hf => bounded f (List.mem_cons_of_mem frame hf)
    exact ⟨payload :: payloads, .cons hpayload hall⟩

section Logs

theorem logPackets_encoded (checksum : List UInt8 → UInt16) {packets : List (List UInt8)}
    (nonempty : ∀ p ∈ packets, p ≠ []) :
    logPackets checksum (packets.map (encodeHdlc checksum)).flatten =
      (packets.filter (fun p => p.head? = some 0x10 ∧ 8 ≤ p.length)).map fun p =>
        (u16FromLe ((p.drop 6).take 2), p) := by
  rw [logPackets, feed_encodeHdlc_packets checksum packets nonempty]
  clear nonempty
  induction packets with
  | nil => rfl
  | cons packet packets ih =>
    rw [List.map_cons, List.filterMap_cons, ih]
    by_cases hlog : packet.head? = some 0x10 ∧ 8 ≤ packet.length
    · have hcode : qualcommLogCode packet = some (u16FromLe ((packet.drop 6).take 2)) := by
        rw [qualcommLogCode, if_neg]
        exact not_or.mpr ⟨Nat.not_lt.mpr hlog.2, not_not.mpr hlog.1⟩
      rw [List.filter_cons_of_pos (by simpa using hlog), logPacket, hcode]
      rfl
    · have hcode : qualcommLogCode packet = none := by
        rw [qualcommLogCode, if_pos]
        rcases not_and_or.mp hlog with hhead | hshort
        · exact .inr hhead
        · exact .inl (Nat.lt_of_not_le hshort)
      rw [List.filter_cons_of_neg (by simpa using hlog), logPacket, hcode]
      rfl

theorem mirrored_captureFrames (gsmtap : GsmtapSink) (clock : Clock)
    (packets : List (UInt16 × List UInt8)) :
    (packets.mapIdx fun i packet => captureFrame clock (UInt64.ofNat (i + 1)) .qualcomm packet.1
        packet.2).filterMap (mirrored (some gsmtap)) =
      packets.map fun packet => gsmtap.qcDiag packet.2 := by
  apply filterMap_mapIdx
  intro i packet
  exact mirrored_parserPayload gsmtap _ packet.1 packet.2 rfl rfl

/-- The log code of a log packet, where the frame has it and where the packet has it. -/
theorem payload_logCode {p : List UInt8} (long : 8 ≤ p.length) :
    (parserPayload (u16FromLe ((p.drop 6).take 2)) p).take 2 = (p.drop 6).take 2 ∧
      (p.drop 6).take 2 = u16ToLe (u16FromLe ((p.drop 6).take 2)) := by
  have htwo : ((p.drop 6).take 2).length = 2 := by
    rw [List.length_take, List.length_drop]
    omega
  have hcode := u16ToLe_fromLe htwo
  refine ⟨?_, hcode.symm⟩
  rw [parserPayload, hcode, List.take_left' htwo]

theorem captureFrames_getElem? (clock : Clock) {logs : List (List UInt8)} {i : Nat}
    {p : List UInt8} (hp : logs[i]? = some p) (long : 8 ≤ p.length) :
    ∃ frame, ((logs.map fun p => (u16FromLe ((p.drop 6).take 2), p)).mapIdx fun i packet =>
        captureFrame clock (UInt64.ofNat (i + 1)) .qualcomm packet.1 packet.2)[i]? = some frame ∧
      frame.sequence = UInt64.ofNat (i + 1) ∧ frame.payload.take 2 = (p.drop 6).take 2 ∧
      (p.drop 6).take 2 = u16ToLe frame.logCode := by
  obtain ⟨hpayload, hcode⟩ := payload_logCode long
  refine ⟨captureFrame clock (UInt64.ofNat (i + 1)) .qualcomm (u16FromLe ((p.drop 6).take 2)) p,
    ?_, rfl, hpayload, hcode⟩
  rw [List.getElem?_mapIdx, List.getElem?_map, hp]
  rfl

end Logs

/-- From the DIAG port to the socket of the mirror: whatever the log packets are and wherever the
reads on either side cut the streams, each comes out byte for byte behind the header, and the
frames in between are numbered without a gap. -/
theorem verbatim_delivery (faithful : codec.Faithful) (gsmtap : GsmtapSink) (history : Nat)
    (checksum : List UInt8 → UInt16) (clock : Clock) (live : Bool) (reads : List ReadOutcome)
    (packets : List (List UInt8)) (nonempty : ∀ p ∈ packets, p ≠ [])
    (stream : streamed live reads = (packets.map (encodeHdlc checksum)).flatten)
    (bounded : ∀ frame ∈ captured live (feed (QualcommCapture.push checksum clock)) reads {},
      ∃ payload, encodeWireFrame codec frame = .ok payload ∧ payload.length ≤ maxWireFrame)
    (link : List UInt8 → List UInt8 → Except (ErrorKind × Nat) Unit)
    (connected : ∀ written bytes, link written bytes = .ok ())
    (values : ∀ decoded, ∃ value, parser.toValue decoded = .ok value)
    (texts : ∀ decoded, ∃ text, parser.toString decoded = .ok text)
    (sends : ∀ n, ∃ size, udp n = .ok size) (state : Ingestion parser) :
    let run := runQualcommStream checksum clock live (emitFrame codec parser) reads
      { wireSink := some { link } }
    let logs := packets.filter fun p => p.head? = some 0x10 ∧ 8 ≤ p.length
    (∀ err, run.1 ≠ some (.error (.emit err))) ∧
    ∃ sink, run.2.wireSink = some sink ∧ ∀ arriving, Delivers noRetry arriving sink.written →
      let served := ingestClient codec (processFrame ⟨history, some gsmtap⟩ parser udp) arriving state
      served.2.1 = .ok () ∧
      served.2.2.datagrams = state.datagrams ++ logs.map (fun p =>
        ⟨gsmtap.destination, gsmtapHeader gsmtapTypeQcDiag 0 ++ p⟩) ∧
      (gsmtapHeader gsmtapTypeQcDiag 0).length = 16 ∧
      served.1.length = logs.length ∧
      (∀ i p, logs[i]? = some p → ∃ frame, served.1[i]? = some frame ∧
        frame.sequence = UInt64.ofNat (i + 1) ∧ frame.payload.take 2 = (p.drop 6).take 2 ∧
        (p.drop 6).take 2 = u16ToLe frame.logCode) ∧
      served.2.2.store.received = state.store.received + logs.length := by
  intro run logs
  have hframes : captured live (feed (QualcommCapture.push checksum clock)) reads {} =
      (logs.map fun p => (u16FromLe ((p.drop 6).take 2), p)).mapIdx fun i packet =>
        captureFrame clock (UInt64.ofNat (i + 1)) .qualcomm packet.1 packet.2 := by
    rw [captured_qualcomm, stream, logPackets_encoded checksum nonempty]
  have hpushed : (feed (QualcommCapture.push checksum clock) {} (streamed live reads)).1 =
      captured live (feed (QualcommCapture.push checksum clock)) reads {} :=
    (captured_eq live (feed_incremental _) reads (feed_nil _ _)).symm
  obtain ⟨payloads, hpayloads⟩ := exists_payloads codec bounded
  have encoded := hpayloads.imp fun _ _ h => h.1
  have encodable := hpayloads.imp fun _ _ h => And.intro h.1 (lt_of_le_maxWireFrame h.2)
  obtain ⟨printed, hemitted⟩ := emitFrames_unbroken encodable
    (fun frame => texts (frame.decode parser)) { link } connected []
  rw [← hpushed] at hemitted
  obtain ⟨hout, herr⟩ := captureLoop_emits live (feed_incremental _) (emitFrame codec parser) reads
    (feed_nil _ _) hemitted
  refine ⟨herr, { link, written := [] ++ (payloads.map WireSink.prefixed).flatten }, ?_, ?_⟩
  · rw [show run.2 = _ from hout]
  intro arriving delivered served
  rw [List.nil_append] at delivered
  obtain ⟨final, hreplay, hdatagrams, hreceived⟩ := replay_sent ⟨history, some gsmtap⟩ parser udp
    sends (serialize_ok parser values texts)
    (captured live (feed (QualcommCapture.push checksum clock)) reads {}) state
  have hserved : served = (captured live (feed (QualcommCapture.push checksum clock)) reads {},
      .ok (), final) :=
    (ingestClient_sent faithful encoded bounded delivered state).trans hreplay
  have hcount : (captured live (feed (QualcommCapture.push checksum clock)) reads {}).length =
      logs.length := by
    rw [hframes, List.length_mapIdx, List.length_map]
  rw [hserved]
  refine ⟨rfl, ?_, gsmtapHeader_length _ _, hcount, ?_, ?_⟩
  · rw [hdatagrams, hframes, mirrored_captureFrames, List.map_map]
    rfl
  · intro i p hp
    have hlog : p.head? = some 0x10 ∧ 8 ≤ p.length := by
      simpa using (List.mem_filter.mp (List.mem_of_getElem? hp)).2
    rw [hframes]
    exact captureFrames_getElem? clock hp hlog.2
  · rw [hreceived, hcount]

end Delivery

/-- A log packet and one that is none, read in two pieces. -/
theorem verbatim_delivery_one :
    let reads : List ReadOutcome := [.ok [16, 0, 8, 0, 8, 0, 33], .error .interrupted,
      .ok [184, 163, 31, 126, 115, 125, 94, 18, 79, 126], .ok []]
    let run := runQualcommStream crc16IbmSdlc (fun _ => (0, 0)) false
      (emitFrame messagePack logCodeParser) reads { wireSink := some { link := fun _ _ => .ok () } }
    ∃ sink, run.2.wireSink = some sink ∧ ∀ arriving, Delivers noRetry arriving sink.written →
      let served := ingestClient messagePack (processFrame ⟨1, some ⟨"127.0.0.1:4729"⟩⟩ logCodeParser
        (fun _ => .ok 24)) arriving { store := { startedAtMs := 0 } }
      served.2.2.datagrams = [⟨"127.0.0.1:4729",
        gsmtapHeader gsmtapTypeQcDiag 0 ++ [16, 0, 8, 0, 8, 0, 33, 184]⟩] ∧
      served.2.2.store.received = 1 := by
  intro reads
  have stream : streamed false reads =
      ([[16, 0, 8, 0, 8, 0, 33, 184], [115, 126]].map (encodeHdlc crc16IbmSdlc)).flatten := by
    decide +kernel
  have hframes : captured false (feed (QualcommCapture.push crc16IbmSdlc (fun _ => (0, 0)))) reads {} =
      [captureFrame (fun _ => (0, 0)) 1 .qualcomm 0xB821 [16, 0, 8, 0, 8, 0, 33, 184]] := by
    decide +kernel
  have bounded : ∀ frame ∈ captured false
        (feed (QualcommCapture.push crc16IbmSdlc (fun _ => (0, 0)))) reads {},
      ∃ payload, encodeWireFrame messagePack frame = .ok payload ∧
        payload.length ≤ maxWireFrame := by
    rw [hframes]
    exact List.forall_mem_cons.mpr ⟨⟨_, rfl, by decide⟩, List.forall_mem_nil _⟩
  obtain ⟨-, sink, hsink, hserved⟩ := verbatim_delivery messagePack logCodeParser (fun _ => .ok 24)
    messagePack_faithful ⟨"127.0.0.1:4729"⟩ 1 crc16IbmSdlc (fun _ => (0, 0)) false reads
    [[16, 0, 8, 0, 8, 0, 33, 184], [115, 126]] (by decide) stream bounded (fun _ _ => .ok ())
    (fun _ _ => rfl) (fun _ => ⟨_, rfl⟩) (fun _ => ⟨_, rfl⟩) (fun _ => ⟨24, rfl⟩)
    { store := { startedAtMs := 0 } }
  refine ⟨sink, hsink, ?_⟩
  intro arriving delivered
  obtain ⟨-, hdatagrams, -, -, -, hreceived⟩ := hserved arriving delivered
  exact ⟨hdatagrams, hreceived⟩

end SixGrok.Api
