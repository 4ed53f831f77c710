import SixGrok.Core.Frame

namespace SixGrok.Core

/-- The bytes of a text that is all ASCII. -/
def ascii (text : String) : List UInt8 := text.toList.map fun c => UInt8.ofNat c.toNat

def decimal (n : Nat) : List UInt8 := (Nat.toDigits 10 n).map fun c => UInt8.ofNat c.toNat

def decimalInt : Int → List UInt8
  | .ofNat n => decimal n
  | .negSucc n => ascii "-" ++ decimal (n + 1)

def elements : List UInt8 → List UInt8
  | [] => []
  | [byte] => decimal byte.toNat
  | byte :: next :: bytes => decimal byte.toNat ++ (ascii "," ++ elements (next :: bytes))

/-- A `Vec<u8>` in JSON. -/
def byteArray (bytes : List UInt8) : List UInt8 := ascii "[" ++ (elements bytes ++ ascii "]")

def Vendor.jsonName : Vendor → String
  | qualcomm => "qualcomm"
  | mediatek => "mediatek"
  | samsung => "samsung"

/-- The fields of a frame in order, without white space. -/
def CaptureFrame.compactJson (frame : CaptureFrame) : List UInt8 :=
  ascii "\x7b\"sequence\":" ++ (decimal frame.sequence.toNat ++
  (ascii ",\"timestamp_wall\":" ++ (decimalInt frame.timestampWall.toInt ++
  (ascii ",\"timestamp_mono\":" ++ (decimal frame.timestampMono.toNat ++
  (ascii ",\"vendor\":\"" ++ (ascii frame.vendor.jsonName ++
  (ascii "\",\"log_code\":" ++ (decimal frame.logCode.toNat ++
  (ascii ",\"payload\":" ++ (byteArray frame.payload ++ ascii "\x7d")))))))))))

/-- Neither a control character nor the beginning of a longer one. -/
def Printable (bytes : List UInt8) : Prop := ∀ byte ∈ bytes, 0x20 ≤ byte ∧ byte < 0x80

instance (bytes : List UInt8) : Decidable (Printable bytes) :=
  List.decidableBAll (fun byte => 0x20 ≤ byte ∧ byte < 0x80) bytes

variable {bytes more : List UInt8}

theorem Printable.append (h : Printable bytes) (h' : Printable more) : Printable (bytes ++ more) := by
  intro byte hbyte
  rcases List.mem_append.mp hbyte with hbyte | hbyte
  · exact h byte hbyte
  · exact h' byte hbyte

theorem printable_decimal (n : Nat) : Printable (decimal n) := by
  intro byte hbyte
  obtain ⟨c, hc, rfl⟩ := List.mem_map.mp hbyte
  have hdigit := Nat.isDigit_of_mem_toDigits (by decide) (Nat.le_refl 10) hc
  obtain ⟨hleast, hmost⟩ := Char.isDigit_iff_toNat.mp hdigit
  generalize c.toNat = n at hleast hmost ⊢
  change 48 ≤ n at hleast
  change n ≤ 57 at hmost
  rw [UInt8.le_iff_toNat_le, UInt8.lt_iff_toNat_lt,
    UInt8.toNat_ofNat_of_lt' (hmost.trans_lt (by decide))]
  exact ⟨Nat.le_trans (by decide) hleast, Nat.lt_of_le_of_lt hmost (by decide)⟩

theorem printable_decimalInt (i : Int) : Printable (decimalInt i) := by
  cases i with
  | ofNat n => exact printable_decimal n
  | negSucc n => exact Printable.append (by decide) (printable_decimal _)

theorem printable_elements (bytes : List UInt8) : Printable (elements bytes) := by
  induction bytes using elements.induct with
  | case1 => exact List.forall_mem_nil _
  | case2 byte => exact printable_decimal _
  | case3 byte next bytes ih => exact .append (printable_decimal _) (.append (by decide) ih)

theorem printable_byteArray (bytes : List UInt8) : Printable (byteArray bytes) :=
  .append (by decide) (.append (printable_elements bytes) (by decide))

theorem printable_compactJson (frame : CaptureFrame) : Printable frame.compactJson := by
  have hname : Printable (ascii frame.vendor.jsonName) := by
    cases frame.vendor <;> decide
  exact .append (by decide) (.append (printable_decimal _) (.append (by decide)
    (.append (printable_decimalInt _) (.append (by decide) (.append (printable_decimal _)
    (.append (by decide) (.append hname (.append (by decide) (.append (printable_decimal _)
    (.append (by decide) (.append (printable_byteArray _) (by decide))))))))))))

/-- `serde_json`, as far as it writes frames: each of them is an object on one line. -/
class FrameJson where
  write : CaptureFrame → List UInt8
  printable : ∀ frame, Printable (write frame)
  opens : ∀ frame, ∃ rest, write frame = 0x7B :: rest

instance (priority := low) compactJson : FrameJson where
  write := CaptureFrame.compactJson
  printable := printable_compactJson
  opens _ := ⟨_, rfl⟩

variable [FrameJson]

def CaptureFrame.toJson (frame : CaptureFrame) : List UInt8 := FrameJson.write frame

theorem printable_toJson (frame : CaptureFrame) : Printable frame.toJson := FrameJson.printable frame

theorem toJson_opens (frame : CaptureFrame) : ∃ rest, frame.toJson = 0x7B :: rest :=
  FrameJson.opens frame

end SixGrok.Core
