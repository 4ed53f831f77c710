import SixGrok.Core.Frame
import SixGrok.Framework.Reader
import SixGrok.Framework.Session

namespace SixGrok.Agent

open SixGrok.Framework SixGrok.Core

/-- The agent's end of the connection to the service: what a `write_all` of the next bytes
comes back with, a failure telling how many of them have gone out. -/
structure WireSink where
  link : List UInt8 → List UInt8 → Except (ErrorKind × Nat) Unit
  written : List UInt8 := []

inductive SendFailure where
  | encoding (err : WireError)
  | tooLong (len : Nat)
  | io (context : String) (kind : ErrorKind)
  deriving DecidableEq, Repr

namespace WireSink

def writeAll (context : String) (bytes : List UInt8) : Session WireSink SendFailure Unit :=
  fun sink =>
    match sink.link sink.written bytes with
    | .ok () => some (.ok (), { sink with written := sink.written ++ bytes })
    | .error (kind, n) =>
      some (.error (.io context kind), { sink with written := sink.written ++ bytes.take n })

/-- `u32::try_from`. -/
def lengthOf (payload : List UInt8) : Except Nat UInt32 :=
  if payload.length < 2 ^ 32 then .ok (UInt32.ofNat payload.length) else .error payload.length

def send (codec : Codec) (frame : CaptureFrame) : Session WireSink SendFailure Unit := do
  let payload ← Session.lift .encoding (encodeWireFrame codec frame)
  let len ← Session.lift .tooLong (lengthOf payload)
  writeAll "writing agent frame length" (u32ToBe len)
  writeAll "writing agent MessagePack frame" payload

/-- A message as it goes over the connection. -/
def prefixed (payload : List UInt8) : List UInt8 := u32ToBe (UInt32.ofNat payload.length) ++ payload

/-- Everything that a `write_all` can do. -/
theorem writeAll_cases {context : String} {bytes : List UInt8} {sink sink' : WireSink}
    {result : Except SendFailure Unit}
    (h : (writeAll context bytes).run sink = some (result, sink')) :
    (result = .ok () ∧ sink'.written = sink.written ++ bytes) ∨
    ∃ err n, result = .error err ∧ sink'.written = sink.written ++ bytes.take n := by
  rw [Session.run, writeAll] at h
  cases hlink : sink.link sink.written bytes with
  | ok _ =>
    simp only [hlink] at h
    obtain ⟨rfl, rfl⟩ := Prod.mk.inj (Option.some.inj h)
    exact .inl ⟨rfl, rfl⟩
  | error failure =>
    simp only [hlink] at h
    obtain ⟨rfl, rfl⟩ := Prod.mk.inj (Option.some.inj h)
    exact .inr ⟨_, failure.2, rfl, rfl⟩

/-- Everything that a send can do: fail before it writes, write one message behind its length,
or fail in between and leave the beginning of that. -/
theorem send_cases {codec : Codec} {frame : CaptureFrame} {sink sink' : WireSink}
    {result : Except SendFailure Unit} (h : (send codec frame).run sink = some (result, sink')) :
    (sink' = sink ∧ ∃ err, result = .error err) ∨
    ∃ payload, encodeWireFrame codec frame = .ok payload ∧ payload.length < 2 ^ 32 ∧
      ((result = .ok () ∧ sink'.written = sink.written ++ prefixed payload) ∨
        (∃ err, result = .error err) ∧ sink'.written <+: sink.written ++ prefixed payload) := by
  rcases Session.run_bind_cases h with ⟨err, hencode, rfl⟩ | ⟨payload, s₁, hencode, hrest⟩
  · exact .inl ⟨Session.run_lift_state hencode, err, rfl⟩
  obtain ⟨hpayload, rfl⟩ := Session.run_lift_eq_ok hencode
  rcases Session.run_bind_cases hrest with ⟨err, hlength, rfl⟩ | ⟨len, s₂, hlength, hwrites⟩
  · exact .inl ⟨Session.run_lift_state hlength, err, rfl⟩
  obtain ⟨hlen, rfl⟩ := Session.run_lift_eq_ok hlength
  rw [lengthOf] at hlen
  split_ifs at hlen with hlt
  obtain rfl := Except.ok.inj hlen
  refine .inr ⟨payload, hpayload, hlt, ?_⟩
  have hpart (bytes : List UInt8) (n : Nat) : bytes.take n <+: bytes := List.take_prefix n bytes
  rcases Session.run_bind_cases hwrites with ⟨err, hfirst, rfl⟩ | ⟨⟨⟩, s₃, hfirst, hsecond⟩
  · right
    refine ⟨⟨err, rfl⟩, ?_⟩
    rcases writeAll_cases hfirst with ⟨hok, -⟩ | ⟨-, n, -, hwritten⟩
    · cases hok
    · rw [hwritten, List.prefix_append_right_inj, prefixed]
      exact (hpart _ n).trans (List.prefix_append ..)
  · rcases writeAll_cases hfirst with ⟨-, hlength⟩ | ⟨_, _, herr, -⟩
    · rcases writeAll_cases hsecond with ⟨hok, hwritten⟩ | ⟨err, n, herr, hwritten⟩
      · left
        refine ⟨hok, ?_⟩
        rw [hwritten, hlength, List.append_assoc, prefixed]
      · right
        refine ⟨⟨err, herr⟩, ?_⟩
        rw [hwritten, hlength, List.append_assoc, prefixed, List.prefix_append_right_inj,
          List.prefix_append_right_inj]
        exact hpart payload n
    · cases herr

/-- A send that succeeds has written one message behind its length. -/
theorem send_ok {codec : Codec} {frame : CaptureFrame} {sink sink' : WireSink}
    (h : (send codec frame).run sink = some (.ok (), sink')) :
    ∃ payload, encodeWireFrame codec frame = .ok payload ∧ payload.length < 2 ^ 32 ∧
      sink'.written = sink.written ++ prefixed payload := by
  rcases send_cases h with ⟨-, err, herr⟩ | ⟨payload, hpayload, hlt, hresult⟩
  · cases herr
  · rcases hresult with ⟨-, hwritten⟩ | ⟨⟨err, herr⟩, -⟩
    · exact ⟨payload, hpayload, hlt, hwritten⟩
    · cases herr

theorem sends_ok {codec : Codec} {frames : List CaptureFrame} {sink sink' : WireSink}
    (h : (Session.each (send codec) frames).run sink = some (.ok (), sink')) :
    ∃ payloads, List.Forall₂ (fun frame payload => encodeWireFrame codec frame = .ok payload)
        frames payloads ∧
      sink'.written = sink.written ++ (payloads.map prefixed).flatten := by
  induction frames generalizing sink with
  | nil =>
    obtain ⟨-, rfl⟩ := Session.run_unique h (Session.run_each_nil ..)
    exact ⟨[], .nil, by simp⟩
  | cons frame frames ih =>
    obtain ⟨⟨⟩, next, hsend, hrest⟩ := Session.run_bind_eq_ok h
    obtain ⟨payload, hpayload, -, hwritten⟩ := send_ok hsend
    obtain ⟨payloads, hall, hwritten'⟩ := ih hrest
    refine ⟨payload :: payloads, .cons hpayload hall, ?_⟩
    rw [hwritten', hwritten, List.map_cons, List.flatten_cons, List.append_assoc]

/-- However the sending ends, what has been written is the beginning of the messages of the
first of the frames. -/
theorem sends_written {codec : Codec} {frames : List CaptureFrame} {sink sink' : WireSink}
    {result : Except SendFailure Unit}
    (h : (Session.each (send codec) frames).run sink = some (result, sink')) :
    ∃ sent payloads, sent <+: frames ∧
      List.Forall₂ (fun frame payload => encodeWireFrame codec frame = .ok payload ∧
        payload.length < 2 ^ 32) sent payloads ∧
      sink'.written <+: sink.written ++ (payloads.map prefixed).flatten := by
  induction frames generalizing sink with
  | nil =>
    obtain ⟨-, rfl⟩ := Session.run_unique h (Session.run_each_nil ..)
    exact ⟨[], [], List.nil_prefix, .nil, List.prefix_append ..⟩
  | cons frame frames ih =>
    rcases Session.run_bind_cases h with ⟨_, hsend, -⟩ | ⟨⟨⟩, next, hsend, hrest⟩
    · rcases send_cases hsend with ⟨rfl, -⟩ | ⟨payload, hpayload, hlt, hresult⟩
      · exact ⟨[], [], List.nil_prefix, .nil, List.prefix_append ..⟩
      · have hwritten : sink'.written <+: sink.written ++ prefixed payload := by
          rcases hresult with ⟨hok, -⟩ | ⟨-, hpart⟩
          · cases hok
          · exact hpart
        refine ⟨[frame], [payload], ?_, .cons ⟨hpayload, hlt⟩ .nil, by simpa using hwritten⟩
        exact List.prefix_append [frame] frames
    · obtain ⟨payload, hpayload, hlt, hwritten⟩ := send_ok hsend
      obtain ⟨sent, payloads, hsent, hall, hwritten'⟩ := ih hrest
      refine ⟨frame :: sent, payload :: payloads, (List.prefix_cons_inj frame).mpr hsent,
        .cons ⟨hpayload, hlt⟩ hall, ?_⟩
      rwa [List.map_cons, List.flatten_cons, ← List.append_assoc, ← hwritten]

/-- A connection that takes whatever is written. -/
def unbroken : WireSink where
  link _ _ := .ok ()

theorem writeAll_unbroken (context : String) (bytes : List UInt8) {sink : WireSink}
    (hlink : ∀ w b, sink.link w b = .ok ()) :
    (writeAll context bytes).run sink =
      some (.ok (), { sink with written := sink.written ++ bytes }) := by
  rw [Session.run, writeAll]
  simp only [hlink]

theorem send_unbroken {codec : Codec} {frame : CaptureFrame} {payload : List UInt8}
    (hpayload : encodeWireFrame codec frame = .ok payload) (hlt : payload.length < 2 ^ 32)
    {sink : WireSink} (hlink : ∀ w b, sink.link w b = .ok ()) :
    (send codec frame).run sink =
      some (.ok (), { sink with written := sink.written ++ prefixed payload }) := by
  have hlen : lengthOf payload = .ok (UInt32.ofNat payload.length) := if_pos hlt
  rw [send, hpayload, Session.run_bind_ok (Session.run_lift_ok ..), hlen,
    Session.run_bind_ok (Session.run_lift_ok ..),
    Session.run_bind_ok (writeAll_unbroken _ _ hlink), writeAll_unbroken _ _ (by exact hlink),
    List.append_assoc, prefixed]

/-- Over a connection that does not break, what can be encoded is sent. -/
theorem sends_unbroken {codec : Codec} {frames : List CaptureFrame}
    (encodable : ∀ frame ∈ frames, ∃ payload, encodeWireFrame codec frame = .ok payload ∧
      payload.length < 2 ^ 32) (sink : WireSink) (hlink : ∀ w b, sink.link w b = .ok ()) :
    ∃ sink', (Session.each (send codec) frames).run sink = some (.ok (), sink') := by
  induction frames generalizing sink with
  | nil => exact ⟨sink, rfl⟩
  | cons frame frames ih =>
    obtain ⟨payload, hpayload, hlt⟩ := encodable frame (List.mem_cons_self ..)
    have hsend := send_unbroken hpayload hlt hlink
    obtain ⟨sink', hrest⟩ := ih (fun f hf => encodable f (List.mem_cons_of_mem frame hf))
      { sink with written := sink.written ++ prefixed payload } hlink
    refine ⟨sink', ?_⟩
    rw [Session.each, Session.run_bind_ok hsend, hrest]

end WireSink

end SixGrok.Agent
