import SixGrok.Api.Ingest

namespace SixGrok.Api

open SixGrok.Framework SixGrok.Core SixGrok.Agent

section Prefixed

/-- The length in front of a message tells where it ends. -/
theorem prefixed_append_inj {message message' rest rest' : List UInt8}
    (short : message.length < 2 ^ 32) (short' : message'.length < 2 ^ 32)
    (h : WireSink.prefixed message ++ rest = WireSink.prefixed message' ++ rest') :
    message = message' ∧ rest = rest' := by
  simp only [WireSink.prefixed, List.append_assoc] at h
  obtain ⟨hlengths, htail⟩ := List.append_inj h (by rw [u32ToBe_length, u32ToBe_length])
  have hlength : message.length = message'.length := by
    have hwords := congrArg u32FromBe hlengths
    rw [u32FromBe_toBe, u32FromBe_toBe] at hwords
    have hvalues := congrArg UInt32.toNat hwords
    rwa [UInt32.toNat_ofNat_of_lt' short, UInt32.toNat_ofNat_of_lt' short'] at hvalues
  exact List.append_inj htail hlength

/-- Bytes that do not begin with a whole message. -/
def Partial (rest : List UInt8) : Prop :=
  ∀ m more : List UInt8, m.length < 2 ^ 32 → rest ≠ WireSink.prefixed m ++ more

theorem partial_few {rest : List UInt8} (few : rest.length < 4) : Partial rest := by
  intro m more _ h
  have hlength := congrArg List.length h
  rw [List.length_append, WireSink.prefixed, List.length_append, u32ToBe_length] at hlength
  omega

/-- Bytes are split into whole messages in one way only, as far as there are any. -/
theorem prefixed_flatten_rest {messages messages' : List (List UInt8)} {rest rest' : List UInt8}
    (short : ∀ m ∈ messages, m.length < 2 ^ 32) (short' : ∀ m ∈ messages', m.length < 2 ^ 32)
    (partly : Partial rest) (partly' : Partial rest')
    (h : (messages.map WireSink.prefixed).flatten ++ rest =
      (messages'.map WireSink.prefixed).flatten ++ rest') : rest = rest' := by
  induction messages' generalizing messages with
  | nil =>
    cases messages with
    | nil => exact h
    | cons m messages =>
      rw [List.map_cons, List.flatten_cons, List.append_assoc] at h
      exact absurd h.symm (partly' m _ (short m (List.mem_cons_self ..)))
  | cons m' messages' ih =>
    have hshort' := short' m' (List.mem_cons_self ..)
    rw [List.map_cons, List.flatten_cons, List.append_assoc] at h
    cases messages with
    | nil => exact absurd h (partly m' _ hshort')
    | cons m messages =>
      rw [List.map_cons, List.flatten_cons, List.append_assoc] at h
      obtain ⟨-, hrest⟩ := prefixed_append_inj (short m (List.mem_cons_self ..)) hshort' h
      exact ih (fun p hp => short p (List.mem_cons_of_mem m hp))
        (fun p hp => short' p (List.mem_cons_of_mem m' hp)) hrest

/-- The beginning of a message holds no whole one. -/
theorem prefixed_part {message cut : List UInt8} (short : message.length < 2 ^ 32)
    (begins : cut <+: WireSink.prefixed message) (partly : cut ≠ WireSink.prefixed message) :
    Partial cut := by
  intro m more hm h
  obtain ⟨missing, hmissing⟩ := begins
  rw [h, List.append_assoc, ← List.append_nil (WireSink.prefixed message)] at hmissing
  obtain ⟨rfl, hnone⟩ := prefixed_append_inj hm short hmissing
  rw [(List.append_eq_nil_iff.mp hnone).1, List.append_nil] at h
  exact partly h

end Prefixed

section Disconnect

variable {σ ε : Type} (codec : Codec) (process : Consumer σ ε CaptureFrame)

/-- What a connection that ends without an error is taken for: its bytes are whole messages, each
behind its length, and all of them have been decoded and processed; while bytes that end within a
message or its length end in an error. -/
structure CleanEnd (reads : List ReadOutcome) (bytes : List UInt8) (state : σ) : Prop where
  whole : (ingestClient codec process reads state).2.1 = .ok () →
    ∃ messages : List (List UInt8), (∀ message ∈ messages, message.length < 2 ^ 32) ∧
      bytes = (messages.map WireSink.prefixed).flatten ∧
      messages.map (decodeWireFrame codec) =
        (ingestClient codec process reads state).1.map .ok ∧
      process.feedAll (ingestClient codec process reads state).1 state =
        (.ok (), (ingestClient codec process reads state).2.2)
  cut : ∀ (messages : List (List UInt8)) (message cut : List UInt8),
    (∀ m ∈ messages, m.length < 2 ^ 32) → message.length < 2 ^ 32 →
    bytes = (messages.map WireSink.prefixed).flatten ++ cut →
    cut ≠ [] → cut <+: WireSink.prefixed message → cut ≠ WireSink.prefixed message →
    ∃ err, (ingestClient codec process reads state).2.1 = .error err

/-- Messages that the service takes, and behind them one to three bytes of a length. -/
def CutInLength (bytes : List UInt8) (state : σ) : Prop :=
  ∃ (messages : List (List UInt8)) (frames : List CaptureFrame) (cut : List UInt8),
    bytes = (messages.map WireSink.prefixed).flatten ++ cut ∧ cut ≠ [] ∧ cut.length < 4 ∧
    (∀ message ∈ messages, 0 < message.length ∧ message.length ≤ maxWireFrame) ∧
    messages.map (decodeWireFrame codec) = frames.map .ok ∧
    (process.feedAll frames state).1 = .ok ()

variable {codec process}

theorem replay_processed {frames : List CaptureFrame} {state final : σ}
    (h : process.feedAll frames state = (.ok (), final)) :
    replay process frames state = (frames, .ok (), final) := by
  induction frames generalizing state with
  | nil =>
    obtain ⟨-, rfl⟩ := Prod.mk.inj h
    rfl
  | cons frame frames ih =>
    rw [Consumer.feedAll] at h
    rw [replay]
    rcases hprocess : process frame state with ⟨err | ⟨⟩, next⟩
    · rw [hprocess] at h
      cases h
    · rw [hprocess] at h
      simp only [ih h]

theorem processed_of_replay {frames : List CaptureFrame} {state : σ}
    (h : (replay process frames state).2.1 = .ok ()) :
    (replay process frames state).1 = frames ∧
      process.feedAll frames state = (.ok (), (replay process frames state).2.2) := by
  induction frames generalizing state with
  | nil => exact ⟨rfl, rfl⟩
  | cons frame frames ih =>
    rw [replay] at h ⊢
    rw [Consumer.feedAll]
    rcases hprocess : process frame state with ⟨err | ⟨⟩, next⟩
    · rw [hprocess] at h
      cases h
    · rw [hprocess] at h
      obtain ⟨hframes, hfed⟩ := ih h
      exact ⟨congrArg (frame :: ·) hframes, hfed⟩

variable (ε codec) in
/-- What the service reads from the bytes that a connection still has: too few for a length end
it, and anything else is a message or an error. -/
theorem receiveFrame_cases {reads : List ReadOutcome} {bytes : List UInt8}
    (delivers : Delivers noRetry reads bytes) :
    (bytes.length < 4 ∧ receiveFrame ε codec reads = .stop (.ok ())) ∨
    (4 ≤ bytes.length ∧ ∃ err, receiveFrame ε codec reads = .stop (.error err)) ∨
    ∃ message frame back rest, bytes = WireSink.prefixed message ++ back ∧
      0 < message.length ∧ message.length ≤ maxWireFrame ∧
      decodeWireFrame codec message = .ok frame ∧ Delivers noRetry rest back ∧
      receiveFrame ε codec reads = .next frame rest := by
  by_cases hshort : bytes.length < 4
  · left
    have hread := delivers.readExact_short hshort
    refine ⟨hshort, ?_⟩
    rw [receiveFrame]
    simp only [hread]
  right
  have hlong : 4 ≤ bytes.length := Nat.le_of_not_lt hshort
  have hfour : (bytes.take 4).length = 4 := List.length_take_of_le hlong
  rw [← List.take_append_drop 4 bytes] at delivers
  obtain ⟨mid, hread, hmid⟩ := delivers.readExact
  rw [hfour] at hread
  by_cases hlen : (u32FromBe (bytes.take 4)).toNat = 0 ∨ (u32FromBe (bytes.take 4)).toNat > maxWireFrame
  · left
    refine ⟨hlong, .invalidLength (u32FromBe (bytes.take 4)).toNat, ?_⟩
    rw [receiveFrame]
    simp only [hread, if_pos hlen]
  by_cases hcut : (bytes.drop 4).length < (u32FromBe (bytes.take 4)).toNat
  · left
    have hpayload := hmid.readExact_short hcut
    refine ⟨hlong, .readingFrame .unexpectedEof, ?_⟩
    rw [receiveFrame]
    simp only [hread, if_neg hlen, hpayload]
  have hmessage := List.length_take_of_le (Nat.le_of_not_lt hcut)
  have hsplit := List.take_append_drop (u32FromBe (bytes.take 4)).toNat (bytes.drop 4)
  rw [← hsplit] at hmid
  obtain ⟨rest, hpayload, hrest⟩ := hmid.readExact
  rw [hmessage] at hpayload
  cases hdecode : decodeWireFrame codec ((bytes.drop 4).take (u32FromBe (bytes.take 4)).toNat) with
  | error err =>
    left
    refine ⟨hlong, .decoding err, ?_⟩
    rw [receiveFrame]
    simp only [hread, if_neg hlen, hpayload, hdecode]
  | ok frame =>
    right
    refine ⟨_, frame, _, rest, ?_, by omega, by omega, hdecode, hrest, ?_⟩
    · rw [WireSink.prefixed, hmessage, UInt32.ofNat_toNat, u32ToBe_fromBe hfour,
        List.append_assoc, hsplit, List.take_append_drop]
    · rw [receiveFrame]
      simp only [hread, if_neg hlen, hpayload, hdecode]

/-- Whole messages that the service takes, and behind them fewer than four bytes: it has taken
them all, and the connection has come to its end. -/
theorem carried_cut {messages : List (List UInt8)} {frames : List CaptureFrame} {cut : List UInt8}
    (decoded : messages.map (decodeWireFrame codec) = frames.map .ok)
    (bounded : ∀ message ∈ messages, 0 < message.length ∧ message.length ≤ maxWireFrame)
    (few : cut.length < 4) {reads : List ReadOutcome}
    (delivers : Delivers noRetry reads ((messages.map WireSink.prefixed).flatten ++ cut)) :
    carried ε codec reads = (frames, .ok ()) := by
  induction messages generalizing frames reads with
  | nil =>
    obtain rfl : frames = [] := List.map_eq_nil_iff.mp decoded.symm
    rcases receiveFrame_cases ε codec delivers with ⟨-, hstop⟩ | ⟨hlong, -⟩ | ⟨m, _, _, _, hbytes, -⟩
    · exact carried_stop ε hstop
    · exact absurd few (Nat.not_lt.mpr hlong)
    · have hlength := congrArg List.length hbytes
      simp only [WireSink.prefixed, List.length_append, u32ToBe_length, List.map_nil,
        List.flatten_nil, List.length_nil] at hlength
      omega
  | cons message messages ih =>
    cases frames with
    | nil => cases decoded
    | cons frame frames =>
      obtain ⟨hdecode, hrest⟩ := List.cons.inj decoded
      obtain ⟨hpos, hmax⟩ := bounded message (List.mem_cons_self ..)
      rw [List.map_cons, List.flatten_cons, List.append_assoc] at delivers
      obtain ⟨rest, hdelivers, hreceive⟩ := receiveFrame_prefixed (ε := ε) delivers hdecode
        (List.ne_nil_of_length_pos hpos) hmax
      have hcarried := ih hrest (fun m hm => bounded m (List.mem_cons_of_mem message hm)) hdelivers
      rw [carried_next ε hreceive, hcarried]

/-- What a connection carries: whole messages from the front of its bytes, and it ends without an
error when what is left is too short for a length. -/
theorem carried_delivered {reads : List ReadOutcome} {frames : List CaptureFrame}
    {ending : Except (IngestError ε) Unit}
    (received : Scans (receiveFrame ε codec) reads frames ending) {bytes : List UInt8}
    (delivers : Delivers noRetry reads bytes) :
    ∃ (messages : List (List UInt8)) (rest : List UInt8),
      bytes = (messages.map WireSink.prefixed).flatten ++ rest ∧
      (∀ message ∈ messages, 0 < message.length ∧ message.length ≤ maxWireFrame) ∧
      messages.map (decodeWireFrame codec) = frames.map .ok ∧
      (ending = .ok () ↔ rest.length < 4) := by
  induction received generalizing bytes with
  | stop hstop =>
    refine ⟨[], bytes, rfl, List.forall_mem_nil _, rfl, ?_⟩
    rcases receiveFrame_cases ε codec delivers with
      ⟨hshort, hpass⟩ | ⟨hlong, err, hpass⟩ | ⟨_, _, _, _, -, -, -, -, -, hpass⟩
    · obtain rfl := Pass.stop.inj (hstop.symm.trans hpass)
      exact ⟨fun _ => hshort, fun _ => rfl⟩
    · obtain rfl := Pass.stop.inj (hstop.symm.trans hpass)
      exact ⟨nofun, fun hshort => absurd hshort (Nat.not_lt.mpr hlong)⟩
    · cases hstop.symm.trans hpass
  | @next reads rest frame frames ending hnext _ ih =>
    rcases receiveFrame_cases ε codec delivers with
      ⟨-, hpass⟩ | ⟨-, err, hpass⟩ | ⟨message, _, back, _, hbytes, hpos, hmax, hdecode, hback, hpass⟩
    · cases hnext.symm.trans hpass
    · cases hnext.symm.trans hpass
    · obtain ⟨rfl, rfl⟩ := Pass.next.inj (hnext.symm.trans hpass)
      obtain ⟨messages, left, hrest, hbounded, hdecoded, hending⟩ := ih hback
      refine ⟨message :: messages, left, ?_, List.forall_mem_cons.mpr ⟨⟨hpos, hmax⟩, hbounded⟩, ?_,
        hending⟩
      · rw [hbytes, hrest, List.map_cons, List.flatten_cons, List.append_assoc]
      · rw [List.map_cons, List.map_cons, hdecode, hdecoded]

theorem lt_of_le_maxWireFrame {n : Nat} (h : n ≤ maxWireFrame) : n < 2 ^ 32 := by
  rw [maxWireFrame] at h
  omega

theorem short_of_bounded {messages : List (List UInt8)}
    (bounded : ∀ message ∈ messages, 0 < message.length ∧ message.length ≤ maxWireFrame) :
    ∀ message ∈ messages, message.length < 2 ^ 32 := by
  intro message hmessage
  obtain ⟨-, hmax⟩ := bounded message hmessage
  exact lt_of_le_maxWireFrame hmax

/-- One to three bytes of a length are taken for the end of the connection. -/
theorem not_cleanEnd_of_cut {reads : List ReadOutcome} {bytes : List UInt8}
    (delivers : Delivers noRetry reads bytes) {state : σ}
    (cutoff : CutInLength codec process bytes state) :
    ¬ CleanEnd codec process reads bytes state := by
  intro clean
  obtain ⟨messages, frames, cut, rfl, hne, hfew, hbounded, hdecoded, hfed⟩ := cutoff
  rcases hfeed : process.feedAll frames state with ⟨err | ⟨⟩, final⟩
  · rw [hfeed] at hfed
    cases hfed
  have hcarried := carried_cut (ε := ε) hdecoded hbounded hfew delivers
  have hingest := ingestClient_eq codec process reads state
  simp only [hcarried, replay_processed hfeed] at hingest
  have hok : (ingestClient codec process reads state).2.1 = .ok () := by
    rw [hingest]
    rfl
  obtain ⟨whole, hwhole, hbytes, -, -⟩ := clean.whole hok
  rw [← List.append_nil (whole.map WireSink.prefixed).flatten] at hbytes
  exact hne (prefixed_flatten_rest (short_of_bounded hbounded) hwhole (partial_few hfew)
    (partial_few (by decide)) hbytes)

theorem ingestClient_ok {reads : List ReadOutcome} {state : σ}
    (h : (ingestClient codec process reads state).2.1 = .ok ()) :
    (replay process (carried ε codec reads).1 state).2.1 = .ok () ∧
      (carried ε codec reads).2 = .ok () := by
  rw [ingestClient_eq] at h
  cases hreplay : (replay process (carried ε codec reads).1 state).2.1 with
  | error err =>
    rw [hreplay] at h
    cases h
  | ok a =>
    rw [hreplay] at h
    exact ⟨rfl, h⟩

/-- A connection that is not cut off within a length has only whole messages behind it when it
ends without an error. -/
theorem whole_of_uncut {reads : List ReadOutcome} {bytes : List UInt8}
    (delivers : Delivers noRetry reads bytes) {state : σ}
    (uncut : ¬ CutInLength codec process bytes state)
    (hok : (ingestClient codec process reads state).2.1 = .ok ()) :
    ∃ messages : List (List UInt8), (∀ message ∈ messages, message.length < 2 ^ 32) ∧
      bytes = (messages.map WireSink.prefixed).flatten ∧
      messages.map (decodeWireFrame codec) =
        (ingestClient codec process reads state).1.map .ok ∧
      process.feedAll (ingestClient codec process reads state).1 state =
        (.ok (), (ingestClient codec process reads state).2.2) := by
  obtain ⟨messages, rest, hbytes, hbounded, hdecoded, hending⟩ := carried_delivered
    (runLoop_scans (receiveFrame_shrinks ε codec) reads) delivers
  obtain ⟨hreplayed, hend⟩ := ingestClient_ok hok
  obtain ⟨hframes, hfed⟩ := processed_of_replay hreplayed
  have hnothing : rest = [] := by
    by_contra hne
    apply uncut
    exact ⟨messages, _, rest, hbytes, hne, hending.mp hend, hbounded, hdecoded,
      congrArg Prod.fst hfed⟩
  rw [hnothing, List.append_nil] at hbytes
  rw [ingestClient_eq]
  refine ⟨messages, short_of_bounded hbounded, hbytes, ?_, ?_⟩
  · rw [hframes]
    exact hdecoded
  · rw [hframes]
    exact hfed

/-- The end of a connection without an error means what it is taken for, unless the bytes are
messages that have all been processed and the first one to three bytes of another length. -/
theorem ingestClient_cleanEnd_iff (reads : List ReadOutcome) (bytes : List UInt8)
    (delivers : Delivers noRetry reads bytes) (state : σ) :
    CleanEnd codec process reads bytes state ↔ ¬ CutInLength codec process bytes state := by
  constructor
  · intro clean cutoff
    exact not_cleanEnd_of_cut delivers cutoff clean
  · intro uncut
    refine ⟨whole_of_uncut delivers uncut, ?_⟩
    intro messages message cut hmessages hmessage hbytes hne hbegins hpartly
    cases hresult : (ingestClient codec process reads state).2.1 with
    | error err => exact ⟨err, rfl⟩
    | ok _ =>
      obtain ⟨whole, hlengths, hall, -, -⟩ := whole_of_uncut delivers uncut hresult
      have hpart := prefixed_part hmessage hbegins hpartly
      rw [hbytes] at hall
      rw [← List.append_nil (whole.map WireSink.prefixed).flatten] at hall
      exact absurd (prefixed_flatten_rest hmessages hlengths hpart (partial_few (by decide)) hall) hne

end Disconnect

/-- A connection that closes behind the first byte of a length: it ends without an error. -/
theorem ingestClient_partial_length :
    Delivers noRetry [.ok [0]] [0] ∧
      ¬ CleanEnd messagePack (ε := Empty) Consumer.recorder [.ok [0]] [0] [] := by
  refine ⟨delivers_single (by decide), ?_⟩
  intro clean
  obtain ⟨err, herr⟩ := clean.cut [] [] [0] (List.forall_mem_nil _) (by decide) rfl (by decide)
    (by decide) (by decide)
  have hok : (ingestClient messagePack (ε := Empty) Consumer.recorder [.ok [0]] []).2.1 = .ok () := by
    rfl
  rw [hok] at herr
  cases herr

/-- Two messages in pieces that are cut in a length and in a body, and then the end, or a third one
of which only the length and a part of the body come in. -/
theorem ingestClient_cleanEnd_cut :
    let message : List UInt8 :=
      [0x92, 0xA5, 0x46, 0x72, 0x61, 0x6D, 0x65, 0x96, 1, 1, 1, 7, 0x92, 7, 0, 0]
    let whole := WireSink.prefixed message ++ WireSink.prefixed message
    let reads (cut : List UInt8) : List ReadOutcome :=
      [.ok (whole.take 2), .ok ((whole.drop 2).take 15), .ok (whole.drop 17 ++ cut)]
    let clean (cut : List UInt8) :=
      CleanEnd messagePack (ε := Empty) Consumer.recorder (reads cut) (whole ++ cut) []
    clean [] ∧ clean ((WireSink.prefixed message).take 9) := by
  intro message whole reads clean
  have delivers (cut : List UInt8) : Delivers noRetry (reads cut) (whole ++ cut) :=
    .chunk (by decide) (.chunk (by decide) (delivers_single (List.cons_ne_nil _ _)))
  have hpart : Partial ((WireSink.prefixed message).take 9) :=
    prefixed_part (by decide : message.length < 2 ^ 32) (List.take_prefix 9 _) (by decide)
  have huncut (cut : List UInt8) (partly : Partial cut) (hcut : cut = [] ∨ 4 ≤ cut.length) :
      ¬ CutInLength messagePack (ε := Empty) Consumer.recorder (whole ++ cut) [] := by
    rintro ⟨messages, frames, cut', hbytes, hne, hfew, hbounded, -⟩
    obtain rfl : cut = cut' := prefixed_flatten_rest
      (List.forall_mem_cons.mpr ⟨by decide, List.forall_mem_singleton.mpr (by decide)⟩)
      (short_of_bounded hbounded) partly (partial_few hfew)
      (show ([message, message].map WireSink.prefixed).flatten ++ cut = _ from hbytes)
    rcases hcut with hnil | hlong
    · exact hne hnil
    · exact absurd hfew (Nat.not_lt.mpr hlong)
  exact ⟨(ingestClient_cleanEnd_iff _ _ (delivers []) []).mpr
      (huncut [] (partial_few (by decide)) (.inl rfl)),
    (ingestClient_cleanEnd_iff _ _ (delivers _) []).mpr (huncut _ hpart (.inr (by decide)))⟩

end SixGrok.Api
