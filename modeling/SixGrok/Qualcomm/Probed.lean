import SixGrok.Core.Arguments
import SixGrok.Qualcomm.Answers
import SixGrok.Qualcomm.Reject

namespace SixGrok.Qualcomm

open SixGrok.Framework SixGrok.Core

section Printed

theorem hexPadded_digits (width n : Nat) : Digits 16 (hexPadded width n).toList n := by
  rw [hexPadded, String.toList_ofList]
  exact (digits_toDigits (by decide) (by decide) n).leftpad (by decide) width

theorem hexPadded_ne_nil (width n : Nat) : (hexPadded width n).toList ≠ [] := by
  rw [hexPadded, String.toList_ofList, List.leftpad]
  exact List.append_ne_nil_of_right_ne_nil _ Nat.toDigits_ne_nil

/-- A printed number is read back, also with white space around it. -/
theorem denotes_hexPadded (lead trail : List Char) {text : String} {width n : Nat}
    (htext : text.toList = lead ++ ("0x" ++ hexPadded width n).toList ++ trail)
    (hlead : Blank lead) (htrail : Blank trail) : Denotes text n := by
  refine ⟨lead, 16, ['0', 'x'], (hexPadded width n).toList, trail, ?_, hlead, htrail, .lower,
    [], _, rfl, .inl rfl, hexPadded_ne_nil width n, hexPadded_digits width n⟩
  rw [htext, String.toList_append]
  rfl

theorem denotes_repr (n : Nat) : Denotes n.repr n := by
  have hdigits : Digits 10 n.repr.toList n := by
    rw [Nat.toList_repr]
    exact digits_toDigits (by decide) (by decide) n
  have hne : n.repr.toList ≠ [] := by
    rw [Nat.toList_repr]
    exact Nat.toDigits_ne_nil
  exact ⟨[], 10, [], n.repr.toList, [], by simp, nofun, nofun, .decimal, [], _, rfl, .inl rfl, hne,
    hdigits⟩

/-- A field of a line of the table that a probe prints. -/
def column (line : String) (i : Nat) : String :=
  String.ofList ((line.toList.splitOn ',')[i]?.getD [])

theorem columns_probeLine (equip : Nat) (lastItem : UInt32) :
    column (probeLine equip lastItem) 0 = equip.repr ∧
      column (probeLine equip lastItem) 1 = "0x" ++ hexPadded 3 lastItem.toNat ∧
      column (probeLine equip lastItem) 2 = "0x" ++ hexPadded 4 (maxCode equip lastItem).toNat := by
  have hcomma {base n : Nat} {text : List Char} (h : Digits base text n) : ',' ∉ text := by
    intro hmem
    cases h.isSome ',' hmem
  have hhex (width n : Nat) : ',' ∉ ("0x" ++ hexPadded width n).toList := by
    rw [String.toList_append, List.mem_append, not_or]
    exact ⟨by decide, hcomma (hexPadded_digits width n)⟩
  have hdecimal : ',' ∉ equip.repr.toList := by
    rw [Nat.toList_repr]
    exact hcomma (digits_toDigits (by decide) (by decide) equip)
  have hline : (probeLine equip lastItem).toList = List.intercalate [','] [equip.repr.toList,
      ("0x" ++ hexPadded 3 lastItem.toNat).toList,
      ("0x" ++ hexPadded 4 (maxCode equip lastItem).toNat).toList] := by
    simp only [probeLine, String.toList_append, List.append_assoc, List.intercalate,
      List.intersperse, List.flatten_cons, List.flatten_nil, List.append_nil]
    rfl
  have hsplit : (probeLine equip lastItem).toList.splitOn ',' = [equip.repr.toList,
      ("0x" ++ hexPadded 3 lastItem.toNat).toList,
      ("0x" ++ hexPadded 4 (maxCode equip lastItem).toNat).toList] := by
    rw [hline, List.splitOn_intercalate]
    · simp only [List.mem_cons, List.not_mem_nil, or_false, forall_eq_or_imp, forall_eq]
      exact ⟨hdecimal, hhex _ _, hhex _ _⟩
    · nofun
  simp only [column, hsplit]
  exact ⟨String.ofList_toList, String.ofList_toList, String.ofList_toList⟩

/-- The log code that is printed for an equipment ID. -/
def printedCode (equip : Nat) (lastItem : UInt32) : UInt16 := (maxCode equip lastItem).toUInt16

theorem printedCode_toNat {equip : Nat} (small : equip < 16) (lastItem : UInt32) :
    (printedCode equip lastItem).toNat = (maxCode equip lastItem).toNat := by
  rw [printedCode, UInt32.toNat_toUInt16, maxCode_toNat small]
  omega

theorem inRange_printedCode (ranges : Vector UInt32 16) {equip : Nat} (small : equip < 16) :
    InRange ranges (printedCode equip ranges[equip]) := by
  have hcode := printedCode_toNat small ranges[equip]
  rw [maxCode_toNat small] at hcode
  have hequip := splitLogCode_equip (printedCode equip ranges[equip])
  have hitem := splitLogCode_item (printedCode equip ranges[equip])
  rw [inRange_equip small (by omega)]
  omega

/-- A printed code, as it comes back from the command line. -/
theorem parse_column {equip : Nat} (small : equip < 16) (lastItem : UInt32)
    (lead trail : List Char) {text : String}
    (htext : text.toList = lead ++ (column (probeLine equip lastItem) 2).toList ++ trail)
    (hlead : Blank lead) (htrail : Blank trail) :
    parseU16Auto text = .ok (printedCode equip lastItem) := by
  apply parseU16Auto_denotes
  rw [(columns_probeLine equip lastItem).2.2] at htext
  rw [printedCode_toNat small]
  exact denotes_hexPadded lead trail htext hlead htrail

end Printed

section Accepted

variable {π : Type} {B : Backend π} {checksum : List UInt8 → UInt16} {ranges : Vector UInt32 16}
  {logs : List UInt16} {profiles : List π}

theorem runProbe_queried {port queried : Port}
    (hquery : (queryLogRanges B checksum).run port = some (.ok ranges, queried)) :
    (Command.probe.session B checksum).run port =
      some (.ok ("equipment_id,last_item,max_log_code" :: ranges.toList.mapIdx probeLine),
        queried) :=
  Session.run_mapError_eq_ok.mpr (Session.run_bind_ok hquery)

theorem configure_never_outOfRange (h : ∀ code ∈ logs, InRange ranges code)
    {port queried port' : Port} {failure : Failure}
    (hquery : (queryLogRanges B checksum).run port = some (.ok ranges, queried))
    (hrun : (configureQualcommLogs B checksum logs profiles).run port =
      some (.error failure, port')) : ¬ failure.IsOutOfRange := by
  have haccepted := (all_accepted_iff B ranges logs profiles).mpr h
  have hloop := Session.Meets.each
    (groupLogCodes (selectCodes B ranges logs profiles)).entries
    fun group hgroup => configureGroup_failure B checksum (haccepted group hgroup)
  rw [configureQualcommLogs, Session.run_bind_ok hquery] at hrun
  exact hloop queried trivial _ port' hrun

/-- Codes in range are not refused for their range, whatever else goes wrong. -/
theorem capture_never_outOfRange (h : ∀ code ∈ logs, InRange ranges code)
    {port queried port' : Port} {failure : Failure}
    (hquery : (queryLogRanges B checksum).run port = some (.ok ranges, queried))
    (hrun : ((Command.capture logs profiles).session B checksum).run port =
      some (.error (.control failure), port')) : ¬ failure.IsOutOfRange := by
  rw [Command.session] at hrun
  split_ifs at hrun
  · rcases Session.run_bind_cases hrun with ⟨err, hconfigure, herr⟩ | ⟨_, _, -, hok⟩
    · cases herr
      obtain ⟨failure', hfailed, heq⟩ := Session.run_mapError_eq_error.mp hconfigure
      cases heq
      exact configure_never_outOfRange h hquery hfailed
    · cases hok
  · cases hrun

/-- Codes in range are taken by a modem that does its part. -/
theorem capture_obliging (h : ∀ code ∈ logs, InRange ranges code) {port : Port}
    (obliging : Obliging B checksum ranges port) :
    ∃ port', ((Command.capture logs profiles).session B checksum).run port =
      some (.ok [], port') := by
  rw [Command.session]
  split_ifs
  · obtain ⟨result, port', hrun, -, ⟨rfl, -⟩ | ⟨-, hnot⟩⟩ := run_configure logs profiles obliging
    · exact ⟨port', Session.run_bind_ok (Session.run_mapError_eq_ok.mpr hrun)⟩
    · cases hnot h
  · exact ⟨port, rfl⟩

theorem exists_mapM {α β ε : Type} {f : α → Except ε β} {P : β → Prop} {as : List α}
    (h : ∀ a ∈ as, ∃ b, f a = .ok b ∧ P b) : ∃ bs, as.mapM f = .ok bs ∧ ∀ b ∈ bs, P b := by
  induction as with
  | nil => exact ⟨[], rfl, nofun⟩
  | cons a as ih =>
    obtain ⟨b, hb, hP⟩ := h a (List.mem_cons_self ..)
    obtain ⟨bs, hbs, hall⟩ := ih fun a' ha' => h a' (List.mem_cons_of_mem a ha')
    refine ⟨b :: bs, ?_, List.forall_mem_cons.mpr ⟨hP, hall⟩⟩
    rw [List.mapM_cons, hb, hbs]
    rfl

/-- The output of one command as the input of another: the table of a probe is read back number for
number, and its codes, with whatever white space around them, can be given to a capture: it is never
refused for a range of that modem, and goes through when the modem does its part. -/
theorem probed_codes_accepted {port probed : Port} {lines : List String}
    (hprobe : (Command.probe.session B checksum).run port = some (.ok lines, probed)) :
    ∃ ranges, (queryLogRanges B checksum).run port = some (.ok ranges, probed) ∧
      (∀ equip : Fin 16, ∃ line, lines[equip.val + 1]? = some line ∧
        parseU16Auto (column line 0) = .ok (UInt16.ofNat equip) ∧
        parseU32Auto (column line 1) = .ok (ranges.get equip) ∧
        ∃ code, parseU16Auto (column line 2) = .ok code ∧ code.toNat / 4096 = equip ∧
          code.toNat % 4096 = (ranges.get equip).toNat % 4096) ∧
      ∀ texts : List String,
        (∀ text ∈ texts, ∃ line ∈ lines.tail, ∃ lead trail,
          text.toList = lead ++ (column line 2).toList ++ trail ∧ Blank lead ∧ Blank trail) →
        ∃ logs, texts.mapM parseU16Auto = .ok logs ∧ (∀ code ∈ logs, InRange ranges code) ∧
          ∀ (profiles : List π) (later : Port),
            (Obliging B checksum ranges later → ∃ later',
              ((Command.capture logs profiles).session B checksum).run later =
                some (.ok [], later')) ∧
            ∀ queried failure later',
              (queryLogRanges B checksum).run later = some (.ok ranges, queried) →
              ((Command.capture logs profiles).session B checksum).run later =
                some (.error (.control failure), later') → ¬ failure.IsOutOfRange := by
  obtain ⟨ranges, queried, hquery, hlines⟩ :=
    Session.run_bind_eq_ok (Session.run_mapError_eq_ok.mp hprobe)
  obtain ⟨rfl, rfl⟩ := Session.run_pure_eq_ok hlines
  have hget (equip : Fin 16) : (ranges.toList.mapIdx probeLine)[equip.val]? =
      some (probeLine equip (ranges.get equip)) := by
    have hlt : equip.val < ranges.toList.length := by simp
    rw [List.getElem?_mapIdx, List.getElem?_eq_getElem hlt]
    rfl
  refine ⟨ranges, hquery, ?_, ?_⟩
  · intro equip
    obtain ⟨hfirst, hsecond, hthird⟩ := columns_probeLine equip (ranges.get equip)
    have hcode := printedCode_toNat equip.isLt (ranges.get equip)
    rw [maxCode_toNat equip.isLt] at hcode
    have hequip : (UInt16.ofNat equip).toNat = equip := by
      rw [UInt16.toNat_ofNat']
      omega
    have hbare (text : String) : text.toList = [] ++ text.toList ++ [] := by simp
    refine ⟨_, hget equip, parseU16Auto_denotes ?_, parseU32Auto_denotes ?_, _,
      parse_column equip.isLt _ [] [] (hbare _) nofun nofun, ?_, ?_⟩
    · rw [hfirst, hequip]
      exact denotes_repr equip
    · rw [hsecond]
      exact denotes_hexPadded [] [] (hbare _) nofun nofun
    · omega
    · omega
  · intro texts htexts
    have hparsed : ∀ text ∈ texts, ∃ code, parseU16Auto text = .ok code ∧ InRange ranges code := by
      intro text htext
      obtain ⟨line, hline, lead, trail, hsplit, hlead, htrail⟩ := htexts text htext
      obtain ⟨i, hi⟩ := List.mem_iff_getElem?.mp hline
      have hlt : i < 16 := by
        have hlength := (List.getElem?_eq_some_iff.mp hi).1
        simpa using hlength
      obtain rfl : probeLine i ranges[i] = line := Option.some.inj ((hget ⟨i, hlt⟩).symm.trans hi)
      exact ⟨_, parse_column hlt _ lead trail hsplit hlead htrail, inRange_printedCode ranges hlt⟩
    obtain ⟨logs, hlogs, hrange⟩ := exists_mapM hparsed
    refine ⟨logs, hlogs, hrange, ?_⟩
    intro profiles later
    exact ⟨capture_obliging hrange, fun queried failure later' hasked hrun =>
      capture_never_outOfRange hrange hasked hrun⟩

end Accepted

/-- Two codes of a probed modem, given to a capture of all its signaling. -/
theorem probed_codes_accepted_two :
    ["0x3a00", " 0xba00\n"].mapM parseU16Auto = .ok [0x3a00, 0xba00] ∧
      ∃ later', ((Command.capture [0x3a00, 0xba00] [.signaling]).session agentBackend
        crc16IbmSdlc).run (ackPort crc16IbmSdlc (Vector.replicate 16 0x1A00)) =
          some (.ok [], later') := by
  have hobliging := ackPort_obliging agentBackend crc16IbmSdlc (Vector.replicate 16 0x1A00)
  obtain ⟨-, queried, hquery, -⟩ := id hobliging
  obtain ⟨ranges, hranges, -, haccepted⟩ := probed_codes_accepted (runProbe_queried hquery)
  obtain rfl : Vector.replicate 16 0x1A00 = ranges := (Session.run_ok_unique hquery hranges).1
  have htexts : ∀ text ∈ ["0x3a00", " 0xba00\n"],
      ∃ line ∈ (Vector.replicate 16 0x1A00).toList.mapIdx probeLine, ∃ lead trail,
        text.toList = lead ++ (column line 2).toList ++ trail ∧ Blank lead ∧ Blank trail := by
    intro text htext
    rcases List.mem_pair.mp htext with rfl | rfl
    · exact ⟨probeLine 3 0x1A00, by decide, [], [], by decide, nofun, nofun⟩
    · have hspace : Blank [' '] := List.forall_mem_singleton.mpr (by decide)
      have hnewline : Blank ['\n'] := List.forall_mem_singleton.mpr (by decide)
      exact ⟨probeLine 11 0x1A00, by decide, [' '], ['\n'], by decide, hspace, hnewline⟩
  obtain ⟨logs, hlogs, -, hcapture⟩ := haccepted _ htexts
  have hparsed : ["0x3a00", " 0xba00\n"].mapM parseU16Auto = .ok [0x3a00, 0xba00] := by
    decide
  have hsame : logs = [0x3a00, 0xba00] := Except.ok.inj (hlogs.symm.trans hparsed)
  subst hsame
  exact ⟨hparsed, (hcapture [.signaling] _).1 hobliging⟩

end SixGrok.Qualcomm
