import SixGrok.Framework.Writer
import SixGrok.Samsung.RoundTrip

namespace SixGrok.Samsung

open SixGrok.Framework

def sdmDirectionDm : UInt8 := 0xa0
def groupControl : UInt8 := 0x00

def controlStart : UInt8 := 0x00
def controlStop : UInt8 := 0x02
def changeUpdatePeriodRequest : UInt8 := 0x06
def commonItemSelectRequest : UInt8 := 0x10
def lteItemSelectRequest : UInt8 := 0x20
def edgeItemSelectRequest : UInt8 := 0x30
def hspaItemSelectRequest : UInt8 := 0x40
def cdmaItemSelectRequest : UInt8 := 0x44

def commonBasicInfo : UInt8 := 0x00
def commonCellInfo : UInt8 := 0x01
def commonDataInfo : UInt8 := 0x02
def commonSignalingInfo : UInt8 := 0x03
def commonMultiSignalingInfo : UInt8 := 0x06
def commonNrRrcSignalingInfo : UInt8 := 0x08
def commonNrNasSignalingInfo : UInt8 := 0x09

def ltePhyStatus : UInt8 := 0x00
def ltePhyCellSearchMeas : UInt8 := 0x01
def ltePhyNcellInfo : UInt8 := 0x02
def lteL1Rf : UInt8 := 0x10
def lteRrcServingCell : UInt8 := 0x50
def lteRrcStatus : UInt8 := 0x51
def lteRrcOtaPacket : UInt8 := 0x52
def lteNasEmmMessage : UInt8 := 0x5a
def lteNasEsmMessage : UInt8 := 0x5f

inductive SdmProfile where
  | signaling
  | radio
  | full
  deriving DecidableEq, Repr

/-- `items.len().min(0xfe)`, then each of so many items with a flag. -/
def itemSelection (items : List UInt8) : List UInt8 :=
  UInt8.ofNat (min items.length 0xfe) :: (items.take 0xfe).flatMap fun item => [item, 1]

def selectAll : List UInt8 := [0xff]
def deselectAll : List UInt8 := [0x00]

def stopPacket : Except SdmError (List UInt8) :=
  generatePacket sdmDirectionDm groupControl controlStop [] 0

/-- The common items and the LTE items of a profile. -/
def profileItems (profile : SdmProfile) : List UInt8 × List UInt8 :=
  let commonContext := [commonBasicInfo, commonCellInfo, commonDataInfo]
  let commonSignaling := [commonSignalingInfo, commonMultiSignalingInfo, commonNrRrcSignalingInfo,
    commonNrNasSignalingInfo]
  let lteContext := [lteRrcServingCell, lteRrcStatus]
  let lteSignaling := [lteRrcOtaPacket, lteNasEmmMessage, lteNasEsmMessage]
  let lteRadio := [ltePhyStatus, ltePhyCellSearchMeas, ltePhyNcellInfo, lteL1Rf]
  match profile with
  | .signaling => (commonContext ++ commonSignaling, lteContext ++ lteSignaling)
  | .radio => (commonContext, lteContext ++ lteRadio)
  | .full => (commonContext ++ commonSignaling, lteContext ++ lteSignaling ++ lteRadio)

/-- The commands that both loops of `init_packets` go through. -/
def itemSelectRequests : List UInt8 :=
  [commonItemSelectRequest, lteItemSelectRequest, edgeItemSelectRequest, hspaItemSelectRequest,
    cdmaItemSelectRequest]

def controlPacket (command : UInt8) (payload : List UInt8) : Except SdmError (List UInt8) :=
  generatePacket sdmDirectionDm groupControl command payload 0

def initPackets (startMagic : UInt32) (profile : SdmProfile) (allItems : Bool) :
    Except SdmError (List (List UInt8)) := do
  let start ← controlPacket controlStart (u32ToBe startMagic)
  let period ← controlPacket changeUpdatePeriodRequest [0x05]
  let deselects ← itemSelectRequests.mapM fun command => controlPacket command deselectAll
  let packets := [start, period] ++ deselects
  if allItems then
    let selects ← itemSelectRequests.mapM fun command => controlPacket command selectAll
    return packets ++ selects
  let (common, lte) := profileItems profile
  let commonPacket ← controlPacket commonItemSelectRequest (itemSelection common)
  let ltePacket ← controlPacket lteItemSelectRequest (itemSelection lte)
  return packets ++ [commonPacket, ltePacket]

inductive ControlError where
  | packet (err : SdmError)
  | io (context : String) (kind : ErrorKind)
  deriving DecidableEq, Repr

def configureSdm (startMagic : UInt32) (profile : SdmProfile) (allItems : Bool) (io : Writer) :
    Except ControlError Unit × Writer :=
  match initPackets startMagic profile allItems with
  | .error err => (.error (.packet err), io)
  | .ok packets =>
    match Writer.writeAll.feedAll packets io with
    | (.error kind, io) => (.error (.io "writing Samsung SDM control packet" kind), io)
    | (.ok (), io) => (io.flush.mapError (.io "flushing Samsung SDM initialization"), io)

/-- The `stop` command, once its device is open. -/
def stop (device : String) (io : Writer) : Except ControlError Unit × Writer :=
  match stopPacket with
  | .error err => (.error (.packet err), io)
  | .ok packet =>
    match Writer.writeAll packet io with
    | (.error kind, io) => (.error (.io ("writing SDM CONTROL_STOP to " ++ device) kind), io)
    | (.ok (), io) => (io.flush.mapError (.io "flushing SDM CONTROL_STOP"), io)

section Transaction

/-- The arguments of `controlPacket`. -/
def controlArgs (command : UInt8) (payload : List UInt8) : PacketArgs :=
  ⟨sdmDirectionDm, groupControl, command, payload, 0⟩

def initArgs (startMagic : UInt32) (profile : SdmProfile) (allItems : Bool) : List PacketArgs :=
  [controlArgs controlStart (u32ToBe startMagic), controlArgs changeUpdatePeriodRequest [0x05]] ++
    itemSelectRequests.map (fun command => controlArgs command deselectAll) ++
    if allItems then itemSelectRequests.map (fun command => controlArgs command selectAll)
    else [controlArgs commonItemSelectRequest (itemSelection (profileItems profile).1),
      controlArgs lteItemSelectRequest (itemSelection (profileItems profile).2)]

theorem controlPacket_eq {command : UInt8} {payload : List UInt8} (fits : payload.length ≤ 65521) :
    controlPacket command payload = .ok (controlArgs command payload).bytes :=
  generate_eq (controlArgs command payload) fits

theorem itemSelection_length (items : List UInt8) :
    (itemSelection items).length = 1 + 2 * min items.length 0xfe := by
  rw [itemSelection, List.length_cons]
  generalize 0xfe = most
  induction items generalizing most with
  | nil => simp
  | cons item items ih =>
    cases most with
    | zero => simp
    | succ most =>
      have hrest := ih most
      rw [List.take_succ_cons, List.flatMap_cons, List.length_append, List.length_cons,
        List.length_cons, List.length_nil, List.length_cons]
      omega

/-- No selection of items is too long for a packet. -/
theorem itemSelection_fits (items : List UInt8) : (itemSelection items).length ≤ 65521 := by
  rw [itemSelection_length]
  omega

theorem mapM_ok {α β ε : Type} {f : α → Except ε β} {g : α → β} {as : List α}
    (h : ∀ a ∈ as, f a = .ok (g a)) : as.mapM f = .ok (as.map g) := by
  induction as with
  | nil => rfl
  | cons a as ih =>
    have hrest := ih fun b hb => h b (List.mem_cons_of_mem a hb)
    rw [List.mapM_cons, h a (List.mem_cons_self ..), hrest]
    rfl

/-- The transaction can always be built. -/
theorem initPackets_eq (startMagic : UInt32) (profile : SdmProfile) (allItems : Bool) :
    initPackets startMagic profile allItems =
      .ok ((initArgs startMagic profile allItems).map PacketArgs.bytes) := by
  have hstart : controlPacket controlStart (u32ToBe startMagic) =
      .ok (controlArgs controlStart (u32ToBe startMagic)).bytes := by
    apply controlPacket_eq
    rw [u32ToBe_length]
    decide
  have hperiod : controlPacket changeUpdatePeriodRequest [0x05] =
      .ok (controlArgs changeUpdatePeriodRequest [0x05]).bytes := controlPacket_eq (by decide)
  have hdeselects : (itemSelectRequests.mapM fun command => controlPacket command deselectAll) =
      .ok (itemSelectRequests.map fun command => (controlArgs command deselectAll).bytes) :=
    mapM_ok fun command _ => controlPacket_eq (by decide)
  have hselects : (itemSelectRequests.mapM fun command => controlPacket command selectAll) =
      .ok (itemSelectRequests.map fun command => (controlArgs command selectAll).bytes) :=
    mapM_ok fun command _ => controlPacket_eq (by decide)
  have hitems (command : UInt8) (items : List UInt8) : controlPacket command (itemSelection items) =
      .ok (controlArgs command (itemSelection items)).bytes :=
    controlPacket_eq (itemSelection_fits items)
  rw [initPackets, hstart, hperiod, hdeselects, hselects, initArgs]
  cases allItems with
  | false =>
    simp only [hitems]
    rfl
  | true => rfl

end Transaction

end SixGrok.Samsung
