import Mathlib.Data.List.Forall2
import SixGrok.Agent.Recording
import SixGrok.Core.WireFormat

namespace SixGrok.Agent

open SixGrok.Framework SixGrok.Core

section Lines

def carriageReturn : UInt8 := 0x0D

/-- What the reads of a file bring in, and the error that they break with. -/
def fileContent : List ReadOutcome → List UInt8 × Option ErrorKind
  | [] => ([], none)
  | .ok [] :: _ => ([], none)
  | .ok chunk :: reads => (chunk ++ (fileContent reads).1, (fileContent reads).2)
  | .error kind :: reads => if kind = .interrupted then fileContent reads else ([], some kind)

theorem fileContent_ok (bytes : List UInt8) : fileContent [.ok bytes] = (bytes, none) := by
  cases bytes with
  | nil => rfl
  | cons byte bytes => exact Prod.ext (List.append_nil _) rfl

/-- A line that ends in a newline loses one carriage return before it, too. -/
def chop (line : List UInt8) : List UInt8 :=
  if line.getLast? = some carriageReturn then line.dropLast else line

/-- `BufRead::lines`, but for the check of the text: the last line may lack its newline, and is lost
when the reads break. -/
def linesFrom (line : List UInt8) : List UInt8 → Option ErrorKind →
    List (Except ErrorKind (List UInt8))
  | [], none => if line = [] then [] else [.ok line]
  | [], some kind => [.error kind]
  | byte :: bytes, broken =>
    if byte = newline then .ok (chop line) :: linesFrom [] bytes broken
    else linesFrom (line ++ [byte]) bytes broken

/-- The ranges of the bytes that have to follow a first one, if it can be a first one. -/
def utf8Follow (byte : UInt8) : Option (List (UInt8 × UInt8)) :=
  if byte < 0x80 then some []
  else if byte < 0xC2 then none
  else if byte < 0xE0 then some [(0x80, 0xBF)]
  else if byte = 0xE0 then some [(0xA0, 0xBF), (0x80, 0xBF)]
  else if byte = 0xED then some [(0x80, 0x9F), (0x80, 0xBF)]
  else if byte < 0xF0 then some [(0x80, 0xBF), (0x80, 0xBF)]
  else if byte = 0xF0 then some [(0x90, 0xBF), (0x80, 0xBF), (0x80, 0xBF)]
  else if byte < 0xF4 then some [(0x80, 0xBF), (0x80, 0xBF), (0x80, 0xBF)]
  else if byte = 0xF4 then some [(0x80, 0x8F), (0x80, 0xBF), (0x80, 0xBF)]
  else none

def utf8Step : List (UInt8 × UInt8) → UInt8 → Option (List (UInt8 × UInt8))
  | [], byte => utf8Follow byte
  | (least, most) :: more, byte => if least ≤ byte ∧ byte ≤ most then some more else none

def isUtf8 (bytes : List UInt8) : Bool := bytes.foldlM utf8Step [] == some []

/-- `trim().is_empty()`, on the bytes of the white space that Unicode has. -/
def isBlank : List UInt8 → Bool
  | [] => true
  | 0xC2 :: second :: rest => (second == 0x85 || second == 0xA0) && isBlank rest
  | 0xE1 :: 0x9A :: 0x80 :: rest => isBlank rest
  | 0xE2 :: 0x80 :: third :: rest =>
    (0x80 ≤ third && third ≤ 0x8A || third == 0xA8 || third == 0xA9 || third == 0xAF) && isBlank rest
  | 0xE2 :: 0x81 :: 0x9F :: rest => isBlank rest
  | 0xE3 :: 0x80 :: 0x80 :: rest => isBlank rest
  | byte :: rest => (0x09 ≤ byte && byte ≤ 0x0D || byte == 0x20) && isBlank rest

end Lines

inductive ReplayError where
  | reading (line : Nat) (kind : ErrorKind)
  | decoding (line : Nat) (err : String)
  | sending (err : SendFailure)
  | printing (err : String)
  deriving DecidableEq, Repr

section Replay

variable (fromStr : List UInt8 → Except String CaptureFrame) (codec : Codec)
  (line : CaptureFrame → Except String String)

/-- What is done with a line, given its number: a blank one is passed over. -/
def replayLine : Consumer Files ReplayError (Except ErrorKind (List UInt8) × Nat) :=
  fun (text, lineNo) files =>
    match text with
    | .error kind => (.error (.reading lineNo kind), files)
    | .ok text =>
      if ¬ isUtf8 text then (.error (.reading lineNo .other), files)
      else if isBlank text then (.ok (), files)
      else
        match fromStr text with
        | .error err => (.error (.decoding lineNo err), files)
        | .ok frame => Files.deliver codec line .sending .printing frame files

/-- `replay_normalized_frames`, once the file is open. -/
def replayNormalizedFrames (reads : List ReadOutcome) (wireSink : Option WireSink) :
    Except ReplayError Unit × Files :=
  (replayLine fromStr codec line).feedAll
    ((linesFrom [] (fileContent reads).1 (fileContent reads).2).zipIdx 1) { wireSink }

end Replay

section Content

theorem isUtf8_printable {bytes : List UInt8} (h : Printable bytes) : isUtf8 bytes = true := by
  have hfold : bytes.foldlM utf8Step [] = some [] := by
    induction bytes with
    | nil => rfl
    | cons byte bytes ih =>
      rw [List.foldlM_cons, utf8Step, utf8Follow, if_pos (h byte (List.mem_cons_self ..)).2]
      exact ih fun byte hbyte => h byte (List.mem_cons_of_mem _ hbyte)
  rw [isUtf8, hfold]
  rfl

theorem isBlank_opens (rest : List UInt8) : isBlank (0x7B :: rest) = false := rfl

theorem newline_not_mem {bytes : List UInt8} (h : Printable bytes) : newline ∉ bytes :=
  fun hmem => absurd (h newline hmem).1 (by decide)

theorem chop_printable {bytes : List UInt8} (h : Printable bytes) : chop bytes = bytes := by
  rw [chop, if_neg]
  intro hlast
  exact absurd (h carriageReturn (List.mem_of_getLast? hlast)).1 (by decide)

theorem linesFrom_newline {bytes : List UInt8} (h : newline ∉ bytes) (line rest : List UInt8)
    (broken : Option ErrorKind) :
    linesFrom line (bytes ++ newline :: rest) broken =
      .ok (chop (line ++ bytes)) :: linesFrom [] rest broken := by
  induction bytes generalizing line with
  | nil => rw [List.nil_append, linesFrom, if_pos rfl, List.append_nil]
  | cons byte bytes ih =>
    obtain ⟨hbyte, hbytes⟩ := not_or.mp (List.mem_cons.not.mp h)
    rw [List.cons_append, linesFrom, if_neg (Ne.symm hbyte), ih hbytes, List.append_assoc]
    rfl

theorem linesFrom_last {bytes : List UInt8} (h : newline ∉ bytes) (line : List UInt8) :
    linesFrom line bytes none = if line ++ bytes = [] then [] else [.ok (line ++ bytes)] := by
  induction bytes generalizing line with
  | nil => rw [linesFrom, List.append_nil]
  | cons byte bytes ih =>
    obtain ⟨hbyte, hbytes⟩ := not_or.mp (List.mem_cons.not.mp h)
    rw [linesFrom, if_neg (Ne.symm hbyte), ih hbytes, List.append_assoc]
    rfl

variable [FrameJson]

/-- The lines of some frames. -/
def frameLines (frames : List CaptureFrame) : List (Except ErrorKind (List UInt8)) :=
  frames.map fun frame => .ok frame.toJson

theorem linesFrom_recordLines (frames : List CaptureFrame) (rest : List UInt8)
    (broken : Option ErrorKind) :
    linesFrom [] (recordLines frames ++ rest) broken =
      frameLines frames ++ linesFrom [] rest broken := by
  induction frames with
  | nil => rfl
  | cons frame frames ih =>
    have hprintable := printable_toJson frame
    have hcons : recordLines (frame :: frames) ++ rest =
        frame.toJson ++ newline :: (recordLines frames ++ rest) := by
      simp [recordLines, recordLine]
    rw [hcons, linesFrom_newline (newline_not_mem hprintable), List.nil_append,
      chop_printable hprintable, ih]
    rfl

/-- A file that breaks off within the line of a frame has a line with that frame, or a line with
a part of it, or nothing of it. -/
theorem linesFrom_part {frame : CaptureFrame} {part : List UInt8} (h : part <+: recordLine frame) :
    linesFrom [] part none = [] ∨ linesFrom [] part none = frameLines [frame] ∨
      (linesFrom [] part none = [.ok part] ∧ part ≠ [] ∧ part <+: frame.toJson ∧
        part ≠ frame.toJson) := by
  have hprintable := printable_toJson frame
  rcases List.prefix_concat_iff.mp h with rfl | hpart
  · right; left
    have hline := linesFrom_recordLines [frame] [] none
    rwa [List.append_nil, recordLines_singleton] at hline
  · have hnewline : newline ∉ part := fun hmem =>
      newline_not_mem hprintable (hpart.subset hmem)
    have hlast := linesFrom_last hnewline []
    rw [List.nil_append] at hlast
    by_cases hnil : part = []
    · left
      rw [hlast, if_pos hnil]
    · rw [if_neg hnil] at hlast
      by_cases hwhole : part = frame.toJson
      · right; left
        rw [hlast, hwhole]
        rfl
      · exact .inr (.inr ⟨hlast, hnil, hpart, hwhole⟩)

theorem recordLines_append (frames frames' : List CaptureFrame) :
    recordLines (frames ++ frames') = recordLines frames ++ recordLines frames' := by
  rw [recordLines, List.map_append, List.flatten_append]
  rfl

/-- The lines of a frame capture: the frames that are in it, and a part of at most one more. -/
theorem Progress.lines {codec : Codec} {line : CaptureFrame → Except String String}
    {frames done logged : List CaptureFrame} {file file' : Writer} {sink sink' : WireSink}
    {printed printed' : List String}
    (h : Progress codec line frames file file' sink sink' printed printed' done logged)
    (hempty : file.written = []) :
    ∃ replayed cut, logged <+: replayed ∧ replayed <+: frames ∧
      replayed.length ≤ done.length + 1 ∧
      linesFrom [] file'.written none = frameLines replayed ++ cut ∧
      (cut = [] ∨ ∃ frame part, replayed ++ [frame] <+: frames ∧ cut = [.ok part] ∧ part ≠ [] ∧
        part <+: frame.toJson ∧ part ≠ frame.toJson) := by
  have hrecorded := h.recorded
  have hmost := h.recorded_most
  rw [hempty, List.nil_append] at hrecorded hmost
  obtain ⟨part, hpart⟩ := hrecorded
  obtain ⟨more, hmore⟩ := List.prefix_take_iff.mpr ⟨h.logged_first, h.apart⟩
  have hfirst : logged ++ more <+: frames := hmore ▸ List.take_prefix _ frames
  have hlength : logged.length + more.length ≤ done.length + 1 := by
    rw [← List.length_append, hmore]
    exact List.length_take_le ..
  rw [← hpart, ← hmore, recordLines_append, List.prefix_append_right_inj] at hmost
  rw [← hpart, linesFrom_recordLines]
  have hdone := h.done_first.length_le
  rcases more with - | ⟨frame, - | ⟨second, more⟩⟩
  · obtain rfl := List.prefix_nil.mp hmost
    exact ⟨logged, [], List.prefix_rfl, h.logged_first, h.apart, rfl, .inl rfl⟩
  · rw [recordLines_singleton] at hmost
    rcases linesFrom_part hmost with hline | hline | ⟨hline, hnil, hfirst', hwhole⟩
    · exact ⟨logged, [], List.prefix_rfl, h.logged_first, h.apart, by rw [hline], .inl rfl⟩
    · refine ⟨logged ++ [frame], [], List.prefix_append .., hfirst, ?_, ?_, .inl rfl⟩
      · rw [List.length_append]
        exact hlength
      · rw [hline, frameLines, frameLines, frameLines, List.map_append, List.append_nil]
    · exact ⟨logged, [.ok part], List.prefix_rfl, h.logged_first, h.apart, by rw [hline],
        .inr ⟨frame, part, hfirst, rfl, hnil, hfirst', hwhole⟩⟩
  · simp only [List.length_cons] at hlength
    omega

end Content

section Deliver

variable {codec : Codec} {line : CaptureFrame → Except String String} {ε : Type}
  (sending : SendFailure → ε) (printing : String → ε) {sink : WireSink}

theorem send_encodable {frame : CaptureFrame} (encodable : Encodable codec frame)
    (hlink : ∀ w b, sink.link w b = .ok ()) (file : Option Writer) (printed : List String) :
    Files.send codec sending frame ⟨file, some sink, printed⟩ = (.ok (), ⟨file,
      some { sink with written := sink.written ++ message codec frame }, printed⟩) := by
  obtain ⟨payload, hpayload, hlt⟩ := encodable
  have hsend := WireSink.send_unbroken hpayload hlt hlink
  rw [← message_eq hpayload] at hsend
  rw [Files.send]
  simp only [hsend, Option.get_some]
  rfl

theorem deliver_encodable {frame : CaptureFrame} {text : String}
    (encodable : Encodable codec frame) (htext : line frame = .ok text)
    (hlink : ∀ w b, sink.link w b = .ok ()) (file : Option Writer) (printed : List String) :
    Files.deliver codec line sending printing frame ⟨file, some sink, printed⟩ = (.ok (), ⟨file,
      some { sink with written := sink.written ++ message codec frame }, printed ++ [text]⟩) := by
  rw [Files.deliver, send_encodable sending encodable hlink, htext]

theorem deliver_all {frames : List CaptureFrame} {texts : List String}
    (encodable : ∀ frame ∈ frames, Encodable codec frame)
    (htexts : List.Forall₂ (fun frame text => line frame = .ok text) frames texts)
    (hlink : ∀ w b, sink.link w b = .ok ()) (file : Option Writer) (printed : List String) :
    (Files.deliver codec line sending printing).feedAll frames ⟨file, some sink, printed⟩ =
      (.ok (), ⟨file, some { sink with written := sink.written ++ messagesOf codec frames },
        printed ++ texts⟩) := by
  induction htexts generalizing sink printed with
  | nil =>
    rw [messagesOf, List.map_nil, List.flatten_nil, List.append_nil, List.append_nil]
    rfl
  | @cons frame text frames texts htext _ ih =>
    obtain ⟨hfirst, hrest⟩ := List.forall_mem_cons.mp encodable
    have hnext := @ih { sink with written := sink.written ++ message codec frame } hrest hlink
      (printed ++ [text])
    rw [Consumer.feedAll, deliver_encodable sending printing hfirst htext hlink]
    rw [List.append_assoc, List.append_assoc] at hnext
    exact hnext

variable (codec line) in
/-- Whatever comes of a frame, no more than its message is sent, and no more than one line printed. -/
theorem deliver_step (frame : CaptureFrame) (hlink : ∀ w b, sink.link w b = .ok ())
    (file : Option Writer) (printed : List String) :
    ∃ result sent texts, Files.deliver codec line sending printing frame ⟨file, some sink, printed⟩ =
        (result, ⟨file, some { sink with written := sink.written ++ sent }, printed ++ texts⟩) ∧
      sent <+: message codec frame ∧ (Encodable codec frame → sent = message codec frame) ∧
      texts.length ≤ 1 := by
  by_cases encodable : Encodable codec frame
  · cases htext : line frame with
    | ok text =>
      exact ⟨_, _, [text], deliver_encodable sending printing encodable htext hlink file printed,
        List.prefix_rfl, fun _ => rfl, Nat.le_refl 1⟩
    | error err =>
      refine ⟨.error (printing err), message codec frame, [], ?_, List.prefix_rfl, fun _ => rfl,
        Nat.zero_le 1⟩
      rw [Files.deliver, send_encodable sending encodable hlink, htext, List.append_nil]
  · obtain ⟨⟨sent, sink'⟩, hsend⟩ := Option.isSome_iff_exists.mp (WireSink.send_isSome codec frame sink)
    rcases WireSink.send_cases hsend with ⟨rfl, err, rfl⟩ | ⟨payload, hpayload, hlt, -⟩
    · refine ⟨.error (sending err), [], [], ?_, List.nil_prefix, fun h => absurd h encodable,
        Nat.zero_le 1⟩
      rw [Files.deliver, Files.send]
      simp only [hsend, Option.get_some, Except.mapError, List.append_nil]
    · exact absurd ⟨payload, hpayload, hlt⟩ encodable

variable (codec line) in
theorem deliver_few {frames : List CaptureFrame} (few : frames.length ≤ 1)
    (hlink : ∀ w b, sink.link w b = .ok ()) (file : Option Writer) (printed : List String) :
    ∃ result sent texts,
      (Files.deliver codec line sending printing).feedAll frames ⟨file, some sink, printed⟩ =
        (result, ⟨file, some { sink with written := sink.written ++ sent }, printed ++ texts⟩) ∧
      sent <+: messagesOf codec frames ∧
      ((∀ frame ∈ frames, Encodable codec frame) → sent = messagesOf codec frames) ∧
      texts.length ≤ frames.length ∧ (frames = [] → result = .ok ()) := by
  rcases frames with - | ⟨frame, - | ⟨second, frames⟩⟩
  · refine ⟨.ok (), [], [], ?_, List.nil_prefix, fun _ => rfl, Nat.zero_le 0, fun _ => rfl⟩
    rw [List.append_nil, List.append_nil]
    rfl
  · obtain ⟨result, sent, texts, hstep, hsent, hall, htexts⟩ :=
      deliver_step codec line sending printing frame hlink file printed
    have hmessage : messagesOf codec [frame] = message codec frame := List.flatten_singleton ..
    rw [← hmessage] at hsent hall
    refine ⟨result, sent, texts, ?_, hsent, fun h => hall (h frame (List.mem_singleton_self _)), htexts,
      nofun⟩
    rw [Consumer.feedAll, hstep]
    rcases result with err | ⟨⟩
    · rfl
    · rfl
  · simp only [List.length_cons] at few
    omega

end Deliver

section Covers

variable [FrameJson] {fromStr : List UInt8 → Except String CaptureFrame} {codec : Codec}
  {line : CaptureFrame → Except String String}

/-- What is relied on of `serde_json` for a frame: it reads what was made of the frame, and takes
nothing that is cut off for one. -/
structure ReadsBack (fromStr : List UInt8 → Except String CaptureFrame) (frame : CaptureFrame) :
    Prop where
  reads : fromStr frame.toJson = .ok frame
  whole : ∀ part, part <+: frame.toJson → part ≠ frame.toJson → ∃ err, fromStr part = .error err

theorem replayLine_frame {frame : CaptureFrame} (readsBack : ReadsBack fromStr frame)
    (number : Nat) (files : Files) :
    replayLine fromStr codec line (.ok frame.toJson, number) files =
      Files.deliver codec line .sending .printing frame files := by
  obtain ⟨rest, hopens⟩ := toJson_opens frame
  have hblank : ¬ isBlank frame.toJson = true := by
    rw [hopens, isBlank_opens]
    exact Bool.false_ne_true
  rw [replayLine, if_neg (not_not_intro (isUtf8_printable (printable_toJson frame))), if_neg hblank,
    readsBack.reads]

variable (codec line) in
theorem replayLine_part {frame : CaptureFrame} (readsBack : ReadsBack fromStr frame)
    {part : List UInt8} (hnil : part ≠ []) (hpart : part <+: frame.toJson)
    (hwhole : part ≠ frame.toJson) (number : Nat) (files : Files) :
    ∃ err, replayLine fromStr codec line (.ok part, number) files =
      (.error (.decoding number err), files) := by
  have hprintable : Printable part := fun byte hbyte =>
    printable_toJson frame byte (hpart.subset hbyte)
  have hblank : ¬ isBlank part = true := by
    obtain ⟨rest, hopens⟩ := toJson_opens frame
    obtain ⟨byte, bytes, rfl⟩ := List.exists_cons_of_ne_nil hnil
    rw [hopens, List.cons_prefix_cons] at hpart
    rw [hpart.1, isBlank_opens]
    exact Bool.false_ne_true
  obtain ⟨err, herr⟩ := readsBack.whole part hpart hwhole
  refine ⟨err, ?_⟩
  rw [replayLine, if_neg (not_not_intro (isUtf8_printable hprintable)), if_neg hblank, herr]

variable (codec line) in
theorem replay_frameLines {frames : List CaptureFrame}
    (readsBack : ∀ frame ∈ frames, ReadsBack fromStr frame) (number : Nat) (files : Files) :
    (replayLine fromStr codec line).feedAll ((frameLines frames).zipIdx number) files =
      (Files.deliver codec line .sending .printing).feedAll frames files := by
  induction frames generalizing number files with
  | nil => rfl
  | cons frame frames ih =>
    have hrest (files : Files) := ih (fun f hf => readsBack f (List.mem_cons_of_mem frame hf))
      (number + 1) files
    rw [frameLines, List.map_cons, List.zipIdx_cons, Consumer.feedAll, Consumer.feedAll,
      replayLine_frame (readsBack frame (List.mem_cons_self ..))]
    rcases Files.deliver codec line ReplayError.sending .printing frame files with ⟨err | ⟨⟩, next⟩
    · rfl
    · exact hrest next

variable (codec line) in
/-- A replay delivers the frames that are in the file, and may then find a part of another one. -/
theorem replay_delivers {frames replayed : List CaptureFrame}
    {cut : List (Except ErrorKind (List UInt8))}
    (readsBack : ∀ frame ∈ frames, ReadsBack fromStr frame) (hfirst : replayed <+: frames)
    (hcut : cut = [] ∨ ∃ frame part, replayed ++ [frame] <+: frames ∧ cut = [.ok part] ∧
      part ≠ [] ∧ part <+: frame.toJson ∧ part ≠ frame.toJson)
    (files : Files) :
    let delivered := (Files.deliver codec line .sending .printing).feedAll replayed files
    let ended := (replayLine fromStr codec line).feedAll ((frameLines replayed ++ cut).zipIdx 1) files
    ended.2 = delivered.2 ∧ (cut = [] → ended = delivered) := by
  have hframes := replay_frameLines codec line
    (fun frame hframe => readsBack frame (hfirst.subset hframe)) 1 files
  rcases hcut with rfl | ⟨frame, part, hframe, rfl, hnil, hpart, hwhole⟩
  · dsimp only
    rw [List.append_nil, hframes]
    exact ⟨rfl, fun _ => rfl⟩
  · refine ⟨?_, nofun⟩
    rw [List.zipIdx_append]
    rcases hdelivered : (Files.deliver codec line ReplayError.sending .printing).feedAll replayed
      files with ⟨err | ⟨⟩, next⟩
    · rw [hdelivered] at hframes
      rw [Consumer.feedAll_append_error hframes]
    · rw [hdelivered] at hframes
      have hmem : frame ∈ frames := hframe.subset (List.mem_append_right _ (List.mem_singleton_self _))
      obtain ⟨err, herr⟩ := replayLine_part codec line (readsBack frame hmem) hnil
        hpart hwhole (1 + (frameLines replayed).length) next
      rw [Consumer.feedAll_append_of_ok hframes, List.zipIdx_singleton, Consumer.feedAll, herr]

/-- A replay over a connection that works delivers what the session was done with, and then at most
one frame more. -/
theorem Progress.replay {frames done logged : List CaptureFrame} {file file' : Writer}
    {sink sink' : WireSink} {printed' : List String}
    (h : Progress codec line frames file file' sink sink' [] printed' done logged)
    (readsBack : ∀ frame ∈ frames, ReadsBack fromStr frame) (hfile : file.written = [])
    {reads : List ReadOutcome} (hreads : fileContent reads = (file'.written, none)) :
    ∃ more result sent texts, logged <+: done ++ more ∧ done ++ more <+: frames ∧ more.length ≤ 1 ∧
      replayNormalizedFrames fromStr codec line reads (some WireSink.unbroken) =
        (result, ⟨none, some { WireSink.unbroken with written := messagesOf codec done ++ sent },
          printed' ++ texts⟩) ∧
      sent <+: messagesOf codec more ∧
      ((∀ frame ∈ more, Encodable codec frame) → sent = messagesOf codec more) ∧
      texts.length ≤ more.length ∧ (done = frames → result = .ok ()) := by
  obtain ⟨texts, htexts, hprinted⟩ := h.texts
  obtain rfl : printed' = texts := hprinted
  obtain ⟨replayed, cut, hlogged, hfirst, hlength, hlines, hcut⟩ := h.lines hfile
  obtain ⟨more, rfl⟩ := h.done_first.trans hlogged
  have hfew : more.length ≤ 1 := by
    rw [List.length_append] at hlength
    omega
  have hencodable : ∀ frame ∈ done, Encodable codec frame := fun frame hframe =>
    h.encodable frame (h.done_first.subset hframe)
  have hdone := deliver_all ReplayError.sending ReplayError.printing hencodable htexts
    (show ∀ w b, WireSink.unbroken.link w b = .ok () from fun _ _ => rfl) none []
  obtain ⟨result, sent, texts', hmore, hsent, hall, htexts', hnothing⟩ :=
    deliver_few codec line ReplayError.sending ReplayError.printing hfew
      (show ∀ w b, WireSink.link { WireSink.unbroken with
        written := WireSink.unbroken.written ++ messagesOf codec done } w b = .ok () from
        fun _ _ => rfl) none ([] ++ printed')
  have hdelivered := Consumer.feedAll_append_of_ok hdone more
  rw [hmore] at hdelivered
  obtain ⟨hfiles, hended⟩ := replay_delivers codec line readsBack hfirst hcut
    { wireSink := some WireSink.unbroken }
  have hreplay : replayNormalizedFrames fromStr codec line reads (some WireSink.unbroken) =
      (replayLine fromStr codec line).feedAll ((frameLines (done ++ more) ++ cut).zipIdx 1)
        { wireSink := some WireSink.unbroken } := by
    rw [replayNormalizedFrames, hreads, hlines]
  rw [hdelivered, ← hreplay] at hfiles hended
  refine ⟨more, _, sent, texts', hlogged, hfirst, hfew, Prod.ext rfl hfiles, hsent, hall, htexts', ?_⟩
  rintro rfl
  have hnone : more = [] := by
    have hle := hfirst.length_le
    rw [List.length_append] at hle
    exact List.eq_nil_of_length_eq_zero (by omega)
  have hwhole : cut = [] := by
    rcases hcut with hcut | ⟨frame, part, hlonger, -⟩
    · exact hcut
    · have hle := hlonger.length_le
      rw [hnone, List.append_nil, List.length_append, List.length_singleton] at hle
      omega
  rw [hended hwhole]
  exact hnothing hnone

/-- The frame capture stands in for the session that wrote it, wherever that has failed: replayed
over a connection that works, it sends and prints all that the session did, at most one frame more,
and no more at all when the session came to its end. -/
theorem frames_replay {frames : List CaptureFrame}
    (readsBack : ∀ frame ∈ frames, ReadsBack fromStr frame) {file file' : Writer}
    {sink sink' : WireSink} {printed' : List String} {result : Except EmitError Unit}
    (hfile : file.written = []) (hsink : sink.written = [])
    (h : (recordAndEmit codec line).feedAll frames ⟨some file, some sink, []⟩ =
      (result, ⟨some file', some sink', printed'⟩))
    {reads : List ReadOutcome} (hreads : fileContent reads = (file'.written, none)) :
    ∃ result' sink'' printed'',
      replayNormalizedFrames fromStr codec line reads (some WireSink.unbroken) =
        (result', ⟨none, some sink'', printed''⟩) ∧
      sink'.written <+: sink''.written ∧
      sink''.written <+: messagesOf codec (frames.take (printed'.length + 1)) ∧
      printed' <+: printed'' ∧ printed''.length ≤ printed'.length + 1 ∧
      (result = .ok () → result' = .ok () ∧ sink''.written = sink'.written ∧ printed'' = printed') := by
  obtain ⟨file₁, sink₁, printed₁, done, logged, hfiles, hprogress, hall⟩ :=
    recordAndEmit_progress frames file sink [] h
  obtain ⟨rfl, rfl, rfl⟩ : file' = file₁ ∧ sink' = sink₁ ∧ printed' = printed₁ := by
    simpa using hfiles
  obtain ⟨more, result', sent, texts, ⟨last, hlast⟩, hfirst, hfew, hreplay, hsent, hsame, htexts, hok⟩ :=
    hprogress.replay readsBack hfile hreads
  have hcount : done.length = printed'.length := by
    obtain ⟨texts, htexts, hprinted⟩ := hprogress.texts
    rw [hprinted, List.nil_append, htexts.length_eq]
  have hsending := hprogress.sent_most
  rw [hsink, List.nil_append] at hsending
  refine ⟨result', _, _, hreplay, ?_, ?_, List.prefix_append .., ?_, ?_⟩
  · obtain ⟨next, hnext⟩ := hprogress.done_first
    rw [← hnext, messagesOf_append] at hsending
    refine hsending.trans ((List.prefix_append_right_inj _).mpr ?_)
    obtain rfl : next ++ last = more := by
      rw [← hnext, List.append_assoc] at hlast
      exact List.append_cancel_left hlast
    -- either that frame is in the file to be sent, or none is
    rcases last with - | ⟨frame, last⟩
    · rw [List.append_nil] at hsame
      have hnext' := hsame fun frame hframe =>
        hprogress.encodable frame (hnext ▸ List.mem_append_right _ hframe)
      exact hnext' ▸ List.prefix_rfl
    · obtain rfl : next = [] := by
        rw [List.length_append, List.length_cons] at hfew
        exact List.eq_nil_of_length_eq_zero (by omega)
      exact List.nil_prefix
  · refine ((List.prefix_append_right_inj _).mpr hsent).trans ?_
    rw [← messagesOf_append, ← hcount]
    refine messagesOf_mono (List.prefix_take_iff.mpr ⟨hfirst, ?_⟩)
    rw [List.length_append]
    exact Nat.add_le_add_left hfew _
  · rw [List.length_append]
    omega
  · intro hended
    obtain rfl := hall hended
    obtain rfl : more = [] := by
      have hle := hfirst.length_le
      rw [List.length_append] at hle
      exact List.eq_nil_of_length_eq_zero (by omega)
    obtain rfl := List.prefix_nil.mp hsent
    obtain rfl := List.eq_nil_of_length_eq_zero (Nat.le_zero.mp htexts)
    refine ⟨hok rfl, ?_, List.append_nil _⟩
    have hleast := hprogress.sent
    rw [hsink, List.nil_append] at hleast
    rw [hprogress.logged_first.eq_of_length_le hprogress.done_first.length_le] at hsending
    rw [List.append_nil]
    exact hleast.eq_of_length_le hsending.length_le

end Covers

/-- Two frames, and a connection that breaks within the message of the second. -/
def twoFrames : List CaptureFrame :=
  [⟨1, -5, 0, .qualcomm, 0xB0C0, [0xC0, 0xB0, 0x10]⟩, ⟨2, 7, 1, .qualcomm, 0xB0C1, [0xC1, 0xB0]⟩]

def breaking : WireSink where
  link written _ := if written.length < 29 then .ok () else .error (.connectionReset, 3)

def readTwo : List UInt8 → Except String CaptureFrame := fun text =>
  match twoFrames.find? fun frame => frame.toJson = text with
  | some frame => .ok frame
  | none => .error "EOF while parsing an object"

def logCodeLine (frame : CaptureFrame) : Except String String := .ok frame.logCode.toNat.repr

theorem readTwo_readsBack : ∀ frame ∈ twoFrames, ReadsBack readTwo frame := by
  have hwhole (frame : CaptureFrame)
      (hdiffers : ∀ other ∈ twoFrames, other ≠ frame → ¬ other.toJson <+: frame.toJson) :
      ∀ part, part <+: frame.toJson → part ≠ frame.toJson → ∃ err, readTwo part = .error err := by
    intro part hpart hne
    refine ⟨"EOF while parsing an object", ?_⟩
    rw [readTwo, List.find?_eq_none.mpr]
    intro other hother hsame
    obtain rfl := of_decide_eq_true hsame
    by_cases h : other = frame
    · exact hne (h ▸ rfl)
    · exact hdiffers other hother h hpart
  rw [twoFrames, List.forall_mem_cons, List.forall_mem_singleton]
  exact ⟨⟨by rfl, hwhole _ (by decide)⟩, ⟨by rfl, hwhole _ (by decide)⟩⟩

set_option maxRecDepth 20000 in
theorem session_breaks :
    (recordAndEmit messagePack logCodeLine).feedAll twoFrames ⟨some {}, some breaking, []⟩ =
      (.error (.sending (.io "writing agent MessagePack frame" .connectionReset)),
        ⟨some { written := recordLines twoFrames },
          some { breaking with written := (messagesOf messagePack twoFrames).take 32 }, ["45248"]⟩) := by
  rfl

theorem frames_replay_broken :
    ∃ result sink printed,
      replayNormalizedFrames readTwo messagePack logCodeLine [.ok (recordLines twoFrames)]
        (some WireSink.unbroken) = (result, ⟨none, some sink, printed⟩) ∧
      (messagesOf messagePack twoFrames).take 32 <+: sink.written ∧ ["45248"] <+: printed := by
  obtain ⟨result, sink, printed, hreplay, hsent, -, hprinted, -⟩ :=
    frames_replay readTwo_readsBack rfl rfl session_breaks (fileContent_ok _)
  exact ⟨result, sink, printed, hreplay, hsent, hprinted⟩

end SixGrok.Agent
