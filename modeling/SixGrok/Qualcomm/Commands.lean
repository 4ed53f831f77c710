import SixGrok.Qualcomm.Install

namespace SixGrok.Qualcomm

open SixGrok.Framework

inductive CommandFailure where
  | control (err : Failure)
  | disableRejected (status : UInt32)
  deriving DecidableEq, Repr

/-- What a command does on the port before it streams, if it does. -/
inductive Command (π : Type) where
  | probe
  | disable
  | capture (explicit : List UInt16) (profiles : List π)

section Probe

/-- `{:03x}` and its like. -/
def hexPadded (width n : Nat) : String :=
  String.ofList (List.leftpad width '0' (Nat.toDigits 16 n))

def maxCode (equip : Nat) (lastItem : UInt32) : UInt32 :=
  (UInt32.ofNat equip <<< 12) ||| (lastItem &&& 0x0fff)

def probeLine (equip : Nat) (lastItem : UInt32) : String :=
  equip.repr ++ ",0x" ++ hexPadded 3 lastItem.toNat ++ ",0x" ++
    hexPadded 4 (maxCode equip lastItem).toNat

end Probe

section Commands

variable {π : Type} (B : Backend π) (checksum : List UInt8 → UInt16)

/-- With the lines that it prints. -/
def runProbe : Session Port Failure (List String) := do
  let ranges ← queryLogRanges B checksum
  return "equipment_id,last_item,max_log_code" :: ranges.toList.mapIdx probeLine

def runDisable : Session Port CommandFailure Unit := do
  let header ← Session.mapError .control do
    sendDiagPacket B checksum disableLoggingRequest
    let response ← waitForLogConfigResponse B checksum logConfigDisableOp
    let (header, _) ← Session.lift .control (parseLogConfigHeader response)
    return header
  if header.status ≠ 0 then Session.fail (.disableRejected header.status) else pure ()

/-- The part of a disable command that comes back with the header of the response. -/
def disableHeader : Session Port Failure LogConfigHeader := do
  sendDiagPacket B checksum disableLoggingRequest
  let response ← waitForLogConfigResponse B checksum logConfigDisableOp
  let (header, _) ← Session.lift .control (parseLogConfigHeader response)
  return header

def Command.session : Command π → Session Port CommandFailure (List String)
  | .probe => Session.mapError .control (runProbe B checksum)
  | .disable => do
    runDisable B checksum
    return []
  | .capture explicit profiles => do
    if explicit ≠ [] ∨ profiles ≠ [] then
      Session.mapError .control (configureQualcommLogs B checksum explicit profiles)
    return []

end Commands

section Sent

variable {π : Type} (B : Backend π) (checksum : List UInt8 → UInt16)

theorem runDisable_adds (before : List (List UInt8)) :
    let after := before ++ [encodeHdlc checksum disableLoggingRequest]
    Session.Meets (fun port => port.sent = before) (runDisable B checksum)
      (fun _ port => port.sent = after) (fun _ port => port.sent = before ∨ port.sent = after) := by
  intro after
  apply Session.Meets.bind (Q := fun _ port => port.sent = after)
  · apply Session.Meets.mapError
    refine exchange_adds B checksum disableLoggingRequest logConfigDisableOp before ?_
      (fun _ _ h => .inl h) (fun _ _ h => .inr h)
    intro response
    apply Session.Meets.bind
    · exact Session.Meets.lift (fun _ _ h => h) fun _ _ h => .inr h
    intro parsed
    exact Session.Meets.pure fun _ h => h
  intro header
  by_cases hstatus : header.status ≠ 0
  · simp only [hstatus, ne_eq, not_false_eq_true, if_true]
    exact Session.Meets.fail fun _ h => .inr h
  · simp only [hstatus, if_false]
    exact Session.Meets.pure fun _ h => h

end Sent

end SixGrok.Qualcomm
