import Mathlib.Data.String.Basic
import SixGrok.Core.Parser
import SixGrok.Framework.OrderedMap
import SixGrok.Framework.Ring

namespace SixGrok.Api

open SixGrok.Framework SixGrok.Core

variable {φ ν : Type}

/-- A frame with what `process_frame` has made of it: the decoded packet as a value for the
history and as a text for the live channel. -/
structure Packet (parser : Parser φ ν) where
  frame : CaptureFrame
  value : ν
  text : String
  value_eq : parser.toValue (frame.decode parser) = .ok value
  text_eq : parser.toString (frame.decode parser) = .ok text

def Packet.decoded {parser : Parser φ ν} (packet : Packet parser) : DecodedPacket φ :=
  packet.frame.decode parser

structure Store (ν : Type) where
  startedAtMs : Int64
  received : Nat := 0
  fullyDecoded : Nat := 0
  byVendor : OrderedMap String Nat := .empty
  byRat : OrderedMap String Nat := .empty
  byLayer : OrderedMap String Nat := .empty
  history : List ν := []

/-- The statements of `process_frame` that run while it holds the lock of the store. -/
inductive StoreOp (ν : Type) where
  | received
  | fullyDecoded
  | byVendor (vendor : String)
  | byRat (rat : String)
  | byLayer (layer : String)
  | pushBack (value : ν)
  | popFront

def StoreOp.apply (historyLimit : Nat) (store : Store ν) : StoreOp ν → Store ν
  | received => { store with received := store.received + 1 }
  | fullyDecoded => { store with fullyDecoded := store.fullyDecoded + 1 }
  | byVendor vendor => { store with byVendor := store.byVendor.bump vendor }
  | byRat rat => { store with byRat := store.byRat.bump rat }
  | byLayer layer => { store with byLayer := store.byLayer.bump layer }
  | pushBack value => { store with history := store.history ++ [value] }
  -- the whole `while`
  | popFront => { store with history := evict historyLimit store.history }

section Update

variable {parser : Parser φ ν}

def storeOps (packet : Packet parser) : List (StoreOp ν) :=
  let decoded := packet.decoded
  let vendor := if decoded.vendor.isEmpty then "Qualcomm" else decoded.vendor
  [.received] ++ (if decoded.fullyDecoded then [.fullyDecoded] else []) ++
    [.byVendor vendor, .byRat decoded.rat, .byLayer decoded.layer, .pushBack packet.value, .popFront]

variable (historyLimit : Nat)

def perform (ops : List (StoreOp ν)) (store : Store ν) : Store ν :=
  ops.foldl (StoreOp.apply historyLimit) store

def update (store : Store ν) (packet : Packet parser) : Store ν :=
  perform historyLimit (storeOps packet) store

theorem update_eq (store : Store ν) (packet : Packet parser) :
    update historyLimit store packet =
      { store with
        received := store.received + 1
        fullyDecoded := store.fullyDecoded + packet.decoded.fullyDecoded.toNat
        byVendor := store.byVendor.bump
          (if packet.decoded.vendor.isEmpty then "Qualcomm" else packet.decoded.vendor)
        byRat := store.byRat.bump packet.decoded.rat
        byLayer := store.byLayer.bump packet.decoded.layer
        history := evict historyLimit (store.history ++ [packet.value]) } := by
  cases hfully : packet.decoded.fullyDecoded <;>
    simp [update, perform, storeOps, StoreOp.apply, hfully]

/-- The store after these updates, in their order. -/
def stored (startedAtMs : Int64) (packets : List (Packet parser)) : Store ν :=
  packets.foldl (update historyLimit) { startedAtMs }

theorem stored_append_singleton (startedAtMs : Int64) (packets : List (Packet parser))
    (packet : Packet parser) :
    stored historyLimit startedAtMs (packets ++ [packet]) =
      update historyLimit (stored historyLimit startedAtMs packets) packet := by
  simp [stored]

end Update

/-- How the counters and the history of a store belong together. -/
structure Consistent (historyLimit : Nat) (store : Store ν) : Prop where
  byVendor : store.byVendor.total = store.received
  byRat : store.byRat.total = store.received
  byLayer : store.byLayer.total = store.received
  fullyDecoded : store.fullyDecoded ≤ store.received
  history : store.history.length = min store.received historyLimit

section Stored

variable {parser : Parser φ ν} (historyLimit : Nat) (startedAtMs : Int64)

theorem Consistent.empty : Consistent historyLimit ({ startedAtMs } : Store ν) where
  byVendor := rfl
  byRat := rfl
  byLayer := rfl
  fullyDecoded := Nat.le_refl 0
  history := (Nat.zero_min historyLimit).symm

theorem Consistent.update {store : Store ν} (h : Consistent historyLimit store)
    (packet : Packet parser) : Consistent historyLimit (update historyLimit store packet) := by
  rw [update_eq]
  constructor
  · show (store.byVendor.bump _).total = store.received + 1
    rw [OrderedMap.total_bump, h.byVendor]
  · show (store.byRat.bump _).total = store.received + 1
    rw [OrderedMap.total_bump, h.byRat]
  · show (store.byLayer.bump _).total = store.received + 1
    rw [OrderedMap.total_bump, h.byLayer]
  · have hle := h.fullyDecoded
    have hone : packet.decoded.fullyDecoded.toNat ≤ 1 := Bool.toNat_le _
    show store.fullyDecoded + packet.decoded.fullyDecoded.toNat ≤ store.received + 1
    omega
  · have hlength := h.history
    show (evict historyLimit (store.history ++ [packet.value])).length =
      min (store.received + 1) historyLimit
    rw [evict_eq_rtake, length_rtake, List.length_append, List.length_singleton, hlength]
    omega

theorem stored_consistent (packets : List (Packet parser)) :
    Consistent historyLimit (stored historyLimit startedAtMs packets) := by
  induction packets using List.reverseRecOn with
  | nil => exact .empty historyLimit startedAtMs
  | append_singleton packets packet ih =>
    rw [stored_append_singleton]
    exact ih.update historyLimit packet

theorem stored_received (packets : List (Packet parser)) :
    (stored historyLimit startedAtMs packets).received = packets.length := by
  induction packets using List.reverseRecOn with
  | nil => rfl
  | append_singleton packets packet ih =>
    rw [stored_append_singleton, update_eq, List.length_append, List.length_singleton, ← ih]

theorem stored_history (packets : List (Packet parser)) :
    (stored historyLimit startedAtMs packets).history =
      (packets.map Packet.value).rtake historyLimit := by
  let push (kept : List ν) (packet : Packet parser) := evict historyLimit (kept ++ [packet.value])
  have hstep (store : Store ν) (packet : Packet parser) :
      push store.history packet = (update historyLimit store packet).history := by
    rw [update_eq]
  have hfold : (stored historyLimit startedAtMs packets).history = packets.foldl push [] :=
    (List.foldl_hom Store.history hstep).symm
  rw [hfold, ← foldl_evict, List.foldl_map]

end Stored

/-- `Ord::clamp`. -/
def clamp (n least most : Nat) : Nat := if n < least then least else if n > most then most else n

/-- `GET /api/v1/packets`. -/
def packets (limit : Option Nat) (store : Store ν) : List ν :=
  let limit := clamp (limit.getD 100) 1 1000
  let start := store.history.length - limit
  store.history.drop start

/-- The endpoint returns the most recent of all updates, in their order. -/
theorem packets_stored {parser : Parser φ ν} (historyLimit : Nat) (startedAtMs : Int64)
    (updates : List (Packet parser)) (limit : Option Nat) :
    packets limit (stored historyLimit startedAtMs updates) =
      (updates.map Packet.value).rtake (min (clamp (limit.getD 100) 1 1000)
        (min historyLimit (stored historyLimit startedAtMs updates).received)) := by
  have hhistory := stored_history historyLimit startedAtMs updates
  have hreceived := stored_received historyLimit startedAtMs updates
  show (stored historyLimit startedAtMs updates).history.rtake (clamp (limit.getD 100) 1 1000) = _
  rw [hhistory, hreceived, rtake_rtake, List.rtake, List.rtake, List.length_map]
  congr 1
  omega

end SixGrok.Api
