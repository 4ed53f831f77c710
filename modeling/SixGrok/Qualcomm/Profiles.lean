import SixGrok.Framework.Sorted

namespace SixGrok.Qualcomm

open SixGrok.Framework

inductive CaptureProfile where
  | signaling
  | radio
  | full
  deriving DecidableEq, Repr

namespace CaptureProfile

def signalingCodes : List UInt16 := [
  -- NR RRC
  0xB821, 0xB822, 0xB823, 0xB825, 0xB826,
  -- NR NAS / 5GMM / 5GSM
  0xB0C0, 0xB0C1, 0xB0C2, 0xB0C3, 0xB0C4, 0xB0C5, 0xB0C6, 0xB0CD, 0xB0CF,
  -- LTE NAS
  0xB0E0, 0xB0E2, 0xB0EA, 0xB0EB, 0xB0EC,
  -- Legacy LTE/NR RRC forms
  0x11EB, 0x184C, 0x1849, 0x1D0B, 0x1850]

def radioCodes : List UInt16 := [
  -- NR PHY
  0xB800, 0xB801, 0xB802, 0xB803, 0xB804, 0xB805,
  -- NR ML1 / measurements / beam management
  0xB880, 0xB884, 0xB886, 0xB887, 0xB88A, 0xB8DA,
  -- NR MAC / scheduler
  0xB890, 0xB891, 0xB893, 0xB894, 0xB895,
  -- NR PDCP/RLC statistics
  0xB840, 0xB841, 0xB850, 0xB851,
  -- LTE ML1
  0xB110, 0xB113, 0xB17F, 0xB193, 0xB197,
  -- LTE MAC
  0xB060, 0xB063, 0xB064,
  -- LTE PDCP/RLC
  0xB080, 0xB082, 0xB083, 0xB091, 0xB092,
  -- Legacy radio forms
  0x1874, 0x18F7, 0x14D8, 0x12E8, 0x1C6E, 0x1C6F, 0x1C70, 0x1C71, 0x1C72]

def codes : CaptureProfile → List UInt16
  | signaling => signalingCodes
  | radio => radioCodes
  | full => sortDedup (signalingCodes ++ radioCodes)

end CaptureProfile

inductive QcsuperProfile where
  | signaling
  | ip
  | full
  deriving DecidableEq, Repr

namespace QcsuperProfile

def signalingCodes : List UInt16 :=
  [0x5226, 0x512f, 0x412f, 0xb0c0, 0xb821, 0x713a, 0xb0e2, 0xb0e3, 0xb0ec, 0xb0ed]

def ipCodes : List UInt16 := [0x11eb, 0x1574, 0x1575]

def codes : QcsuperProfile → List UInt16
  | signaling => signalingCodes
  | ip => ipCodes
  | full => sortDedup (signalingCodes ++ ipCodes)

end QcsuperProfile

/-- Both tools have this function, each over its own type of profiles. -/
def mergeProfiles {π : Type} (codes : π → List UInt16) (explicit : List UInt16)
    (profiles : List π) : List UInt16 :=
  sortDedup (explicit ++ profiles.flatMap codes)

theorem mem_mergeProfiles {π : Type} {codes : π → List UInt16} {explicit : List UInt16}
    {profiles : List π} {code : UInt16} :
    code ∈ mergeProfiles codes explicit profiles ↔
      code ∈ explicit ∨ ∃ profile ∈ profiles, code ∈ codes profile := by
  rw [mergeProfiles, mem_sortDedup, List.mem_append, List.mem_flatMap]

end SixGrok.Qualcomm
