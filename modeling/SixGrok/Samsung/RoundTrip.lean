import SixGrok.Samsung.Resync

namespace SixGrok.Samsung

open SixGrok.Framework

/-- The arguments of one call of `generatePacket`. -/
structure PacketArgs where
  direction : UInt8
  group : UInt8
  command : UInt8
  payload : List UInt8
  timestamp : UInt32
  deriving DecidableEq, Repr

def PacketArgs.generate (args : PacketArgs) : Except SdmError (List UInt8) :=
  generatePacket args.direction args.group args.command args.payload args.timestamp

/-- The header that a generated packet carries. -/
def PacketArgs.header (args : PacketArgs) : SdmHeader where
  length1 := UInt16.ofNat (11 + args.payload.length + 3)
  zero := 0
  length2 := UInt16.ofNat (11 + args.payload.length)
  stamp := 0
  direction := args.direction
  radioId := args.group >>> 5
  group := args.group &&& 0x1f
  command := args.command
  timestamp := args.timestamp

/-- The bytes that `generatePacket` lays out. -/
def PacketArgs.bytes (args : PacketArgs) : List UInt8 :=
  [sdmStart] ++ u16ToLe args.header.length1 ++ [0] ++ u16ToLe args.header.length2 ++ u16ToLe 0 ++
    [args.direction, args.group, args.command] ++ u32ToLe args.timestamp ++ args.payload ++ [sdmEnd]

theorem generate_eq (args : PacketArgs) (fits : args.payload.length ≤ 65521) :
    args.generate = .ok args.bytes := by
  have hmax : maxSdmPacket = 8388608 := rfl
  rw [PacketArgs.generate, generatePacket, if_neg (by omega)]
  exact if_neg (by omega)

theorem generate_error (args : PacketArgs) (long : 65521 < args.payload.length) :
    ∃ err, args.generate = .error err := by
  rw [PacketArgs.generate, generatePacket]
  by_cases hadd : 11 + args.payload.length ≥ 2 ^ 64
  · exact ⟨_, if_pos hadd⟩
  · rw [if_neg hadd]
    exact ⟨_, if_pos (.inr (by omega))⟩

theorem generate_ok_iff (args : PacketArgs) :
    (∃ packet, args.generate = .ok packet) ↔ args.payload.length ≤ 65521 := by
  constructor
  · intro h
    obtain ⟨packet, hpacket⟩ := h
    by_contra hlong
    have hover : 65521 < args.payload.length := by omega
    obtain ⟨err, herr⟩ := generate_error args hover
    rw [herr] at hpacket
    cases hpacket
  · intro hfits
    exact ⟨_, generate_eq args hfits⟩

theorem bytes_length (args : PacketArgs) : args.bytes.length = 16 + args.payload.length := by
  simp only [PacketArgs.bytes, List.length_append, u16ToLe_length, u32ToLe_length,
    List.length_cons, List.length_nil]
  omega

theorem parseHeader_bytes (args : PacketArgs) :
    parseHeader ((args.bytes.drop 1).take sdmHeaderLen) = .ok args.header := by
  have hlayout : parseHeader ((args.bytes.drop 1).take sdmHeaderLen) = .ok {
      args.header with
      length1 := u16FromLe (u16ToLe args.header.length1)
      length2 := u16FromLe (u16ToLe args.header.length2)
      stamp := u16FromLe (u16ToLe 0)
      timestamp := u32FromLe (u32ToLe args.timestamp) } := rfl
  rw [hlayout]
  simp only [u16FromLe_toLe, u32FromLe_toLe]
  rfl

theorem generate_lengths (args : PacketArgs) (fits : args.payload.length ≤ 65521) :
    args.header.length1.toNat = 14 + args.payload.length ∧
      args.header.length2.toNat = 11 + args.payload.length := by
  constructor
  · rw [PacketArgs.header, UInt16.toNat_ofNat', Nat.mod_eq_of_lt (by omega)]
    omega
  · rw [PacketArgs.header, UInt16.toNat_ofNat', Nat.mod_eq_of_lt (by omega)]

theorem isPacket_bytes (args : PacketArgs) (fits : args.payload.length ≤ 65521) :
    IsPacket args.bytes args.header := by
  obtain ⟨hlength1, hlength2⟩ := generate_lengths args fits
  refine ⟨rfl, parseHeader_bytes args, ?_, ?_, ?_, ?_⟩
  · -- the largest payload still stays below the saturation of the inner length
    have hsum : args.header.length2.toNat + (3 : UInt16).toNat < 2 ^ 16 := by
      rw [hlength2]
      change 11 + args.payload.length + 3 < 2 ^ 16
      omega
    apply UInt16.toNat_inj.mp
    rw [saturatingAdd, if_pos hsum, UInt16.toNat_add, Nat.mod_eq_of_lt hsum, hlength1, hlength2]
    change 14 + args.payload.length = 11 + args.payload.length + 3
    omega
  · rw [bytes_length, hlength1]
    omega
  · rw [bytes_length]
    omega
  · exact List.getLast?_concat ..

theorem group_of_parts (group : UInt8) : ((group >>> 5) <<< 5) ||| (group &&& 0x1f) = group := by
  obtain ⟨bits⟩ := group
  revert bits
  decide

/-- Packets one behind the other, after a gap without a start byte: one frame each. -/
theorem scans_packets (gap : List UInt8) (clean : sdmStart ∉ gap) (frames : List SdmFrame)
    (packets : ∀ frame ∈ frames, IsPacket frame.packet frame.header) :
    Scans loopPass (gap ++ (frames.map SdmFrame.packet).flatten) (frames.map Except.ok) [] := by
  induction frames generalizing gap with
  | nil =>
    apply Scans.stop
    simpa using loopPass_no_start gap clean
  | cons frame frames ih =>
    have hframe := packets frame (List.mem_cons_self ..)
    have htail := ih [] (by simp) (fun f hf => packets f (List.mem_cons_of_mem frame hf))
    have hstart : (frame.packet ++ (frames.map SdmFrame.packet).flatten).head? = some sdmStart := by
      rw [List.head?_append, hframe.start]
      rfl
    rw [List.map_cons, List.flatten_cons, List.map_cons]
    have hpass : loopPass (gap ++ (frame.packet ++ (frames.map SdmFrame.packet).flatten)) =
        .next (.ok frame) (frames.map SdmFrame.packet).flatten := by
      rw [loopPass_skip gap _ clean hstart]
      exact examine_packet frame.packet _ frame.header hframe
    exact .next hpass htail

/-- What the decoder owes to the arguments of one generated packet. -/
structure Recovers (args : PacketArgs) (frame : SdmFrame) : Prop where
  packet : args.generate = .ok frame.packet
  direction : frame.header.direction = args.direction
  command : frame.header.command = args.command
  timestamp : frame.header.timestamp = args.timestamp
  group : (frame.header.radioId <<< 5) ||| frame.header.group = args.group
  stamp : frame.header.stamp = 0
  lengths : frame.header.length1.toNat = frame.header.length2.toNat + 3
  total : frame.header.length1.toNat = frame.packet.length - 2

def PacketArgs.frame (args : PacketArgs) : SdmFrame := ⟨args.header, args.bytes⟩

theorem recovers_frame (args : PacketArgs) (fits : args.payload.length ≤ 65521) :
    Recovers args args.frame := by
  obtain ⟨hlength1, hlength2⟩ := generate_lengths args fits
  refine ⟨generate_eq args fits, rfl, rfl, rfl, group_of_parts args.group, rfl, ?_, ?_⟩
  · change args.header.length1.toNat = args.header.length2.toNat + 3
    omega
  · change args.header.length1.toNat = args.bytes.length - 2
    rw [bytes_length]
    omega

theorem generated_frames {args : List PacketArgs} {packets : List (List UInt8)}
    (generated : args.Forall₂ (fun a packet => a.generate = .ok packet) packets) :
    (args.map PacketArgs.frame).map SdmFrame.packet = packets ∧
      args.Forall₂ Recovers (args.map PacketArgs.frame) ∧
      ∀ frame ∈ args.map PacketArgs.frame, IsPacket frame.packet frame.header := by
  induction generated with
  | nil => simp
  | @cons a packet args packets ha _ ih =>
    obtain ⟨hpackets, hrecovers, hvalid⟩ := ih
    have hfits := (generate_ok_iff a).mp ⟨packet, ha⟩
    have hbytes : a.bytes = packet := Except.ok.inj ((generate_eq a hfits).symm.trans ha)
    refine ⟨?_, .cons (recovers_frame a hfits) hrecovers, ?_⟩
    · rw [List.map_cons, List.map_cons, hpackets]
      exact congrArg (· :: packets) hbytes
    · intro frame hframe
      rcases List.mem_cons.mp hframe with rfl | hframe
      · exact isPacket_bytes a hfits
      · exact hvalid frame hframe

/-- Generation succeeds up to the 16-bit limit, and what it succeeds with is decoded
frame by frame, however the stream is read. -/
theorem sdm_generate_roundtrip :
    (∀ args : PacketArgs, (∃ packet, args.generate = .ok packet) ↔ args.payload.length ≤ 65521) ∧
    ∀ (gap : List UInt8) (args : List PacketArgs) (packets chunks : List (List UInt8)),
      sdmStart ∉ gap →
      args.Forall₂ (fun a packet => a.generate = .ok packet) packets →
      chunks.flatten = gap ++ packets.flatten →
      ∃ frames : List SdmFrame,
        pushAll SdmDecoder.push {} chunks = (frames.map Except.ok, {}) ∧
        frames.map SdmFrame.packet = packets ∧ args.Forall₂ Recovers frames := by
  refine ⟨generate_ok_iff, ?_⟩
  intro gap args packets chunks clean generated cut
  obtain ⟨hpackets, hrecovers, hvalid⟩ := generated_frames generated
  refine ⟨args.map PacketArgs.frame, ?_, hpackets, hrecovers⟩
  have hscan := scans_packets gap clean _ hvalid
  rw [hpackets, ← cut] at hscan
  rw [pushAll_eq_push push_incremental {} push_default_nil]
  exact push_eq_of_scans {} chunks.flatten [] _ hscan

/-- One generated packet whose payload holds both markers, after a stray byte and cut
inside its payload. -/
theorem sdm_generate_roundtrip_markers :
    ∃ frames : List SdmFrame,
      pushAll SdmDecoder.push {} [[0x00, 0x7f, 16, 0, 0, 13, 0, 0, 0, 0xa0, 1, 6, 5, 0, 0, 0, 0x7f],
        [0x7e, 0x7e]] = (frames.map Except.ok, {}) ∧
      frames.map SdmFrame.packet =
        [[0x7f, 16, 0, 0, 13, 0, 0, 0, 0xa0, 1, 6, 5, 0, 0, 0, 0x7f, 0x7e, 0x7e]] ∧
      List.Forall₂ Recovers [⟨0xa0, 1, 6, [0x7f, 0x7e], 5⟩] frames :=
  sdm_generate_roundtrip.2 [0x00] [⟨0xa0, 1, 6, [0x7f, 0x7e], 5⟩]
    [[0x7f, 16, 0, 0, 13, 0, 0, 0, 0xa0, 1, 6, 5, 0, 0, 0, 0x7f, 0x7e, 0x7e]]
    [[0x00, 0x7f, 16, 0, 0, 13, 0, 0, 0, 0xa0, 1, 6, 5, 0, 0, 0, 0x7f], [0x7e, 0x7e]]
    (by decide) (.cons rfl .nil) rfl

end SixGrok.Samsung
