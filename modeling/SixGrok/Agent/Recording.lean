import SixGrok.Agent.Emit
import SixGrok.Core.Json
import SixGrok.Core.Recorded
import SixGrok.Samsung.Capture

namespace SixGrok.Agent

open SixGrok.Framework SixGrok.Core SixGrok.Qualcomm SixGrok.Samsung

def newline : UInt8 := 0x0A

/-- The outlets of the agent, with the frame capture as a file. -/
structure Files where
  frameCapture : Option Writer := none
  wireSink : Option WireSink := none
  printed : List String := []

section Record

variable [FrameJson] (codec : Codec) (line : CaptureFrame → Except String String)

/-- `to_writer`, and then the newline. -/
def recordFrame (frame : CaptureFrame) (file : Writer) : Except ErrorKind Unit × Writer :=
  Writer.writeAll.feedAll [frame.toJson, [newline]] file

def Files.record (frame : CaptureFrame) (files : Files) : Except EmitError Unit × Files :=
  match files.frameCapture with
  | none => (.ok (), files)
  | some file =>
    ((recordFrame frame file).1.mapError .recording,
      { files with frameCapture := some (recordFrame frame file).2 })

def Files.send {ε : Type} (wrap : SendFailure → ε) (frame : CaptureFrame) (files : Files) :
    Except ε Unit × Files :=
  match files.wireSink with
  | none => (.ok (), files)
  | some sink =>
    let sent := ((WireSink.send codec frame).run sink).get (WireSink.send_isSome codec frame sink)
    (sent.1.mapError wrap, { files with wireSink := some sent.2 })

/-- The connection, and then the standard output. -/
def Files.deliver {ε : Type} (sending : SendFailure → ε) (printing : String → ε) :
    Consumer Files ε CaptureFrame := fun frame files =>
  match files.send codec sending frame with
  | (.error err, files) => (.error err, files)
  | (.ok (), files) =>
    match line frame with
    | .error err => (.error (printing err), files)
    | .ok text => (.ok (), { files with printed := files.printed ++ [text] })

/-- `emit_frame`, with what it prints of a frame. -/
def recordAndEmit : Consumer Files EmitError CaptureFrame := fun frame files =>
  match files.record frame with
  | (.error err, files) => (.error err, files)
  | (.ok (), files) => Files.deliver codec line .sending .printing frame files

/-- As far as the other outlets go, the file is what it makes of the frame. -/
def Files.outlets (files : Files) : Outlets where
  frameCapture := files.frameCapture.map fun file frame => (recordFrame frame file).1
  wireSink := files.wireSink
  printed := files.printed

theorem recordAndEmit_emitFrame {φ ν : Type} (parser : Parser φ ν) (frame : CaptureFrame)
    (files : Files) :
    let emitted := emitFrame codec parser frame files.outlets
    let recorded := recordAndEmit codec (fun frame => parser.toString (frame.decode parser))
      frame files
    recorded.1 = emitted.1 ∧ recorded.2.wireSink = emitted.2.wireSink ∧
      recorded.2.printed = emitted.2.printed := by
  obtain ⟨file, sink, printed⟩ := files
  have hfirst : ∃ file', Files.record frame ⟨file, sink, printed⟩ =
      (Outlets.record (Files.outlets ⟨file, sink, printed⟩) frame, ⟨file', sink, printed⟩) := by
    cases file with
    | none => exact ⟨none, rfl⟩
    | some file => exact ⟨_, rfl⟩
  obtain ⟨file', hrecord⟩ := hfirst
  dsimp only
  rw [recordAndEmit, emitFrame, hrecord]
  cases Outlets.record (Files.outlets ⟨file, sink, printed⟩) frame with
  | error err => exact ⟨rfl, rfl, rfl⟩
  | ok recorded =>
    cases sink with
    | none =>
      dsimp only [Files.deliver, Files.send, Outlets.send, Files.outlets]
      cases parser.toString (frame.decode parser) with
      | error err => exact ⟨rfl, rfl, rfl⟩
      | ok text => exact ⟨rfl, rfl, rfl⟩
    | some sink =>
      dsimp only [Files.deliver, Files.send, Outlets.send, Files.outlets]
      cases hsent : (((WireSink.send codec frame).run sink).get
        (WireSink.send_isSome codec frame sink)).1 with
      | error err => exact ⟨rfl, rfl, rfl⟩
      | ok sent =>
        cases parser.toString (frame.decode parser) with
        | error err => exact ⟨rfl, rfl, rfl⟩
        | ok text => exact ⟨rfl, rfl, rfl⟩

end Record

section Emission

variable (codec : Codec) (line : CaptureFrame → Except String String)

def Encodable (frame : CaptureFrame) : Prop :=
  ∃ payload, encodeWireFrame codec frame = .ok payload ∧ payload.length < 2 ^ 32

/-- A frame on the wire, where it can be encoded. -/
def message (frame : CaptureFrame) : List UInt8 :=
  match encodeWireFrame codec frame with
  | .ok payload => WireSink.prefixed payload
  | .error _ => []

def messagesOf (frames : List CaptureFrame) : List UInt8 := (frames.map (message codec)).flatten

variable {codec}

theorem messagesOf_append (frames frames' : List CaptureFrame) :
    messagesOf codec (frames ++ frames') = messagesOf codec frames ++ messagesOf codec frames' := by
  rw [messagesOf, List.map_append, List.flatten_append]
  rfl

theorem messagesOf_mono {frames frames' : List CaptureFrame} (h : frames <+: frames') :
    messagesOf codec frames <+: messagesOf codec frames' := by
  obtain ⟨more, rfl⟩ := h
  rw [messagesOf_append]
  exact List.prefix_append ..

theorem message_eq {frame : CaptureFrame} {payload : List UInt8}
    (h : encodeWireFrame codec frame = .ok payload) :
    message codec frame = WireSink.prefixed payload := by
  rw [message, h]

theorem send_grows {frame : CaptureFrame} {sink sink' : WireSink} {result : Except SendFailure Unit}
    (h : (WireSink.send codec frame).run sink = some (result, sink')) :
    sink.written <+: sink'.written := by
  have hwrite {context : String} {bytes : List UInt8} {sink sink' : WireSink}
      {result : Except SendFailure Unit}
      (h : (WireSink.writeAll context bytes).run sink = some (result, sink')) :
      sink.written <+: sink'.written := by
    rcases WireSink.writeAll_cases h with ⟨-, hwritten⟩ | ⟨_, n, -, hwritten⟩
    · exact hwritten ▸ List.prefix_append ..
    · exact hwritten ▸ List.prefix_append ..
  rcases Session.run_bind_cases h with ⟨_, hencode, -⟩ | ⟨payload, s₁, hencode, hrest⟩
  · exact Session.run_lift_state hencode ▸ List.prefix_rfl
  · rw [← Session.run_lift_state hencode]
    rcases Session.run_bind_cases hrest with ⟨_, hlength, -⟩ | ⟨len, s₂, hlength, hwrites⟩
    · exact Session.run_lift_state hlength ▸ List.prefix_rfl
    · rw [← Session.run_lift_state hlength]
      rcases Session.run_bind_cases hwrites with ⟨_, hfirst, -⟩ | ⟨_, s₃, hfirst, hsecond⟩
      · exact hwrite hfirst
      · exact (hwrite hfirst).trans (hwrite hsecond)

variable [FrameJson] (codec)

/-- A frame in a frame capture. -/
def recordLine (frame : CaptureFrame) : List UInt8 := frame.toJson ++ [newline]

def recordLines (frames : List CaptureFrame) : List UInt8 := (frames.map (recordLine)).flatten

/-- Everything that the emission of a frame can come to, where there is a frame capture and a
connection: each outlet is tried only after the one before it has taken the frame. -/
inductive Emission (frame : CaptureFrame) (file : Writer) (sink : WireSink) (printed : List String) :
    Except EmitError Unit × Files → Prop where
  | unrecorded {file' : Writer} {part : List UInt8} (kind : ErrorKind) :
      file'.written = file.written ++ part → part <+: recordLine frame →
      Emission frame file sink printed (.error (.recording kind), ⟨some file', some sink, printed⟩)
  | unsent {file' : Writer} {sink' : WireSink} (err : SendFailure) :
      file'.written = file.written ++ recordLine frame →
      sink.written <+: sink'.written → sink'.written <+: sink.written ++ message codec frame →
      (Encodable codec frame ∨ sink' = sink) →
      Emission frame file sink printed (.error (.sending err), ⟨some file', some sink', printed⟩)
  | unprinted {file' : Writer} {sink' : WireSink} (err : String) :
      file'.written = file.written ++ recordLine frame →
      sink'.written = sink.written ++ message codec frame → Encodable codec frame →
      Emission frame file sink printed (.error (.printing err), ⟨some file', some sink', printed⟩)
  | done {file' : Writer} {sink' : WireSink} {text : String} :
      file'.written = file.written ++ recordLine frame →
      sink'.written = sink.written ++ message codec frame → Encodable codec frame →
      line frame = .ok text →
      Emission frame file sink printed (.ok (), ⟨some file', some sink', printed ++ [text]⟩)

theorem recordAndEmit_emission (frame : CaptureFrame) (file : Writer) (sink : WireSink)
    (printed : List String) :
    Emission codec line frame file sink printed
      (recordAndEmit codec line frame ⟨some file, some sink, printed⟩) := by
  rcases hrecord : recordFrame frame file with ⟨recorded, file'⟩
  obtain ⟨part, hpart, hprefix, hwhole⟩ := Writer.written_feedAll hrecord
  have hline : [frame.toJson, [newline]].flatten = recordLine frame := rfl
  rw [hline] at hprefix hwhole
  rw [recordAndEmit, Files.record]
  simp only [hrecord]
  cases recorded with
  | error kind => exact .unrecorded kind hpart hprefix
  | ok _ =>
    rw [hwhole rfl] at hpart
    obtain ⟨⟨sent, sink'⟩, hsend⟩ := Option.isSome_iff_exists.mp (WireSink.send_isSome codec frame sink)
    dsimp only [Except.mapError, Files.deliver, Files.send]
    simp only [hsend, Option.get_some]
    have hgrows := send_grows hsend
    rcases WireSink.send_cases hsend with ⟨rfl, err, rfl⟩ | ⟨payload, hpayload, hlt, hresult⟩
    · exact .unsent err hpart List.prefix_rfl (List.prefix_append ..) (.inr rfl)
    · have hmessage := message_eq hpayload
      rw [← hmessage] at hresult
      rcases hresult with ⟨rfl, hwritten⟩ | ⟨⟨err, rfl⟩, hwritten⟩
      · dsimp only
        cases htext : line frame with
        | error err => exact .unprinted err hpart hwritten ⟨payload, hpayload, hlt⟩
        | ok text => exact .done hpart hwritten ⟨payload, hpayload, hlt⟩ htext
      · exact .unsent err hpart hgrows hwritten (.inl ⟨payload, hpayload, hlt⟩)

/-- How far the outlets have come with some frames: they are done with the first of them, they may
have begun with one more, and what goes over the connection is in the frame capture before. -/
structure Progress (frames : List CaptureFrame) (file file' : Writer) (sink sink' : WireSink)
    (printed printed' : List String) (done logged : List CaptureFrame) : Prop where
  logged_first : logged <+: frames
  done_first : done <+: logged
  apart : logged.length ≤ done.length + 1
  recorded : file.written ++ recordLines logged <+: file'.written
  recorded_most : file'.written <+: file.written ++ recordLines (frames.take (done.length + 1))
  encodable : ∀ frame ∈ logged, Encodable codec frame
  sent : sink.written ++ messagesOf codec done <+: sink'.written
  sent_most : sink'.written <+: sink.written ++ messagesOf codec logged
  texts : ∃ texts, List.Forall₂ (fun frame text => line frame = .ok text) done texts ∧
    printed' = printed ++ texts

variable {codec line} {frame : CaptureFrame} {frames done logged : List CaptureFrame}
  {file file' file'' : Writer} {sink sink' sink'' : WireSink} {printed printed' : List String}

theorem Progress.start (frames : List CaptureFrame) (file : Writer) (sink : WireSink)
    (printed : List String) :
    Progress codec line frames file file sink sink printed printed [] [] where
  logged_first := List.nil_prefix
  done_first := List.nil_prefix
  apart := Nat.zero_le 1
  recorded := by simp [recordLines]
  recorded_most := List.prefix_append ..
  encodable := List.forall_mem_nil _
  sent := by simp [messagesOf]
  sent_most := List.prefix_append ..
  texts := ⟨[], .nil, (List.append_nil _).symm⟩

/-- The outlets go on behind a frame that all of them have taken. -/
theorem Progress.cons (hfile : file'.written = file.written ++ recordLine frame)
    (hsink : sink'.written = sink.written ++ message codec frame)
    (hencodable : Encodable codec frame) {text : String} (htext : line frame = .ok text)
    (rest : Progress codec line frames file' file'' sink' sink'' (printed ++ [text]) printed'
      done logged) :
    Progress codec line (frame :: frames) file file'' sink sink'' printed printed'
      (frame :: done) (frame :: logged) where
  logged_first := (List.prefix_cons_inj frame).mpr rest.logged_first
  done_first := (List.prefix_cons_inj frame).mpr rest.done_first
  apart := Nat.succ_le_succ rest.apart
  recorded := by
    have hrecorded := rest.recorded
    rw [hfile, List.append_assoc] at hrecorded
    exact hrecorded
  recorded_most := by
    have hmost := rest.recorded_most
    rw [hfile, List.append_assoc] at hmost
    exact hmost
  encodable := List.forall_mem_cons.mpr ⟨hencodable, rest.encodable⟩
  sent := by
    have hsent := rest.sent
    rw [hsink, List.append_assoc] at hsent
    exact hsent
  sent_most := by
    have hmost := rest.sent_most
    rw [hsink, List.append_assoc] at hmost
    exact hmost
  texts := by
    obtain ⟨texts, htexts, hprinted⟩ := rest.texts
    exact ⟨text :: texts, .cons htext htexts, by rw [hprinted, List.append_assoc]; rfl⟩

theorem recordLines_singleton (frame : CaptureFrame) :
    recordLines [frame] = recordLine frame := List.flatten_singleton ..

/-- Nothing but the frame capture has got anything of the first frame. -/
theorem Progress.recording {part : List UInt8} (hfile : file'.written = file.written ++ part)
    (first : part <+: recordLine frame) :
    Progress codec line (frame :: frames) file file' sink sink printed printed [] [] where
  logged_first := List.nil_prefix
  done_first := List.nil_prefix
  apart := Nat.zero_le 1
  recorded := by simp [recordLines, hfile]
  recorded_most := by
    rw [hfile, List.length_nil, List.take_succ_cons, List.take_zero, recordLines_singleton]
    exact (List.prefix_append_right_inj _).mpr first
  encodable := List.forall_mem_nil _
  sent := by simp [messagesOf]
  sent_most := List.prefix_append ..
  texts := ⟨[], .nil, (List.append_nil _).symm⟩

/-- The first frame is in the frame capture, and not done with. -/
theorem Progress.sending (hfile : file'.written = file.written ++ recordLine frame)
    (grows : sink.written <+: sink'.written)
    (most : sink'.written <+: sink.written ++ message codec frame) (hencodable : Encodable codec frame) :
    Progress codec line (frame :: frames) file file' sink sink' printed printed [] [frame] where
  logged_first := List.prefix_append [frame] frames
  done_first := List.nil_prefix
  apart := Nat.le_refl 1
  recorded := by
    have hwritten : file'.written = file.written ++ recordLines [frame] := by
      rw [hfile, recordLines_singleton]
    exact hwritten ▸ List.prefix_rfl
  recorded_most := by
    have hwritten : file'.written = file.written ++ recordLines ((frame :: frames).take 1) := by
      rw [hfile, List.take_succ_cons, List.take_zero, recordLines_singleton]
    exact hwritten ▸ List.prefix_rfl
  encodable := List.forall_mem_singleton.mpr hencodable
  sent := by simpa [messagesOf] using grows
  sent_most := by simpa [messagesOf] using most
  texts := ⟨[], .nil, (List.append_nil _).symm⟩

/-- Where the first frame is not done with. -/
theorem Emission.progress {err : EmitError} {files : Files} (frames : List CaptureFrame)
    (h : Emission codec line frame file sink printed (.error err, files)) :
    ∃ file' sink' logged, files = ⟨some file', some sink', printed⟩ ∧
      Progress codec line (frame :: frames) file file' sink sink' printed printed [] logged := by
  cases h with
  | unrecorded kind hfile hpart => exact ⟨_, _, [], rfl, .recording hfile hpart⟩
  | unsent err hfile hgrows hmost hencodable =>
    rcases hencodable with hencodable | rfl
    · exact ⟨_, _, [frame], rfl, .sending hfile hgrows hmost hencodable⟩
    · exact ⟨_, _, [], rfl, .recording hfile List.prefix_rfl⟩
  | unprinted err hfile hsink hencodable =>
    exact ⟨_, _, [frame], rfl, .sending hfile (hsink ▸ List.prefix_append ..)
      (hsink ▸ List.prefix_rfl) hencodable⟩

theorem recordLines_mono {frames frames' : List CaptureFrame} (h : frames <+: frames') :
    recordLines frames <+: recordLines frames' := by
  obtain ⟨more, rfl⟩ := h
  rw [recordLines, recordLines, List.map_append, List.flatten_append]
  exact List.prefix_append ..

theorem Progress.mono {frames' : List CaptureFrame} (more : frames <+: frames')
    (h : Progress codec line frames file file' sink sink' printed printed' done logged) :
    Progress codec line frames' file file' sink sink' printed printed' done logged :=
  { h with
    logged_first := h.logged_first.trans more
    recorded_most := h.recorded_most.trans ((List.prefix_append_right_inj _).mpr
      (recordLines_mono (List.prefix_take_iff.mpr
        ⟨(List.take_prefix _ frames).trans more, List.length_take_le ..⟩))) }

theorem recordAndEmit_progress (frames : List CaptureFrame) (file : Writer) (sink : WireSink)
    (printed : List String) {result : Except EmitError Unit} {files : Files}
    (h : (recordAndEmit codec line).feedAll frames ⟨some file, some sink, printed⟩ =
      (result, files)) :
    ∃ file' sink' printed' done logged, files = ⟨some file', some sink', printed'⟩ ∧
      Progress codec line frames file file' sink sink' printed printed' done logged ∧
      (result = .ok () → done = frames) := by
  induction frames generalizing file sink printed with
  | nil =>
    obtain ⟨rfl, rfl⟩ := Prod.mk.inj h
    exact ⟨file, sink, printed, [], [], rfl, .start [] file sink printed, fun _ => rfl⟩
  | cons frame frames ih =>
    have hemission := recordAndEmit_emission codec line frame file sink printed
    rw [Consumer.feedAll] at h
    rcases hfirst : recordAndEmit codec line frame ⟨some file, some sink, printed⟩ with
      ⟨err | ⟨⟩, files'⟩
    · rw [hfirst] at h hemission
      obtain ⟨rfl, rfl⟩ := Prod.mk.inj h
      obtain ⟨file', sink', logged, hfiles, hprogress⟩ := hemission.progress frames
      refine ⟨file', sink', printed, [], logged, hfiles, hprogress, ?_⟩
      intro hok
      cases hok
    · rw [hfirst] at h hemission
      generalize hok : (Except.ok (), files') = ended at hemission
      cases hemission with
      | done hfile hsink hencodable htext =>
        obtain ⟨-, rfl⟩ := Prod.mk.inj hok
        obtain ⟨file'', sink'', printed'', done, logged, hfiles, hprogress, hall⟩ := ih _ _ _ h
        refine ⟨file'', sink'', printed'', frame :: done, frame :: logged, hfiles,
          hprogress.cons hfile hsink hencodable htext, ?_⟩
        intro hresult
        rw [hall hresult]
      | unrecorded | unsent | unprinted => cases hok

end Emission

section Session

variable {δ : Type} [FrameJson] (codec : Codec) (line : CaptureFrame → Except String String)

end Session

end SixGrok.Agent
