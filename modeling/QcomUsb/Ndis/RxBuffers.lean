-- SUMMARY: The receive buffers of the miniport, the lists and counters that account for them, and the order of each receive stream.
import QcomUsb.Library.Places
import QcomUsb.Library.Transition

/-!
# Receive buffers

A buffer goes from `RxFreeList` to USB, through the chain of its stream to NDIS and back. One step is
what a thread does between two lock operations, so a buffer may also be in the hands of a thread.
-/

namespace Ndis.Rx

open Transition Places

/-- A packet that a read brought. An observer numbers the packets in the order in which their reads
began to complete, and keeps which other reads were completing at that time. -/
structure Packet where
  number : Nat
  overlaps : List Nat
deriving DecidableEq

/-- An `MPUSB_RX_NBL` with the packet in it. -/
structure Filled (n : Nat) where
  buffer : Fin n
  packet : Packet
deriving DecidableEq

/-- Where a thread in `MPWork_PostDataReads` is: at the head of the loop, before or after it counted
the buffer it took. -/
inductive Posting (n : Nat)
  | looping
  | linked (buffer : Fin n)
  | counted (buffer : Fin n)
deriving DecidableEq

/-- Where a thread in `MPRX_RxChainCleanup` is: it took a buffer off the chain, or put it back and
has yet to count it. -/
inductive Cleaning (n : Nat)
  | removed (buffer : Fin n)
  | inserted
deriving DecidableEq

/-- What the receive path reads of the rest of the adapter. -/
structure Adapter where
  mediaConnected : Bool
  anyFlags : Bool
  statePause : Bool
  packetFilter : Nat
  toPowerDown : Bool
  dropDataTest : Nat
deriving DecidableEq

/-- The receive fields of the adapter for `n` buffers and `k` streams, the IRPs in USB by their
buffers, and the threads. `held` and `indicated` are what NDIS has and has seen. -/
structure State (n k : Nat) where
  adapter : Adapter
  rxIndClusterSize : Nat
  rxFreeList : List (Fin n)
  rxPendingList : List (Fin n)
  rxNblChain : Fin k → List (Filled n)
  nRxFreeInMP : Int
  nRxPendingInUsb : Int
  nRxInNblChain : Int
  nRxHeldByNdis : Int
  nBusyRx : Int
  irp : Fin n → Bool
  miniportReserved : Fin n → Fin n
  inUsb : List (Fin n)
  posting : List (Posting n)
  completing : List (Filled n × Fin k)
  indicating : Fin k → List (Filled n)
  cleaning : List (Cleaning n)
  held : List (Fin n)
  completions : Nat
  indicated : Fin k → List Packet

inductive Op (n k : Nat)
  | setAdapter (adapter : Adapter)
  | post
  | postNext (j : Nat) (allocated : Bool)
  | readCompletes (buffer : Fin n) (success : Bool) (idx : Fin k)
  | insertChain (j : Nat)
  | processRxChain (idx : Fin k)
  | indicate (idx : Fin k)
  | returnNbls (nbls : List (Fin n))
  | cleanupNext (idx : Fin k)
  | cleanupStep (j : Nat)
  | cleanupQueues

namespace State

variable {n k : Nat}

/-- `MPINI_AllocateReceiveNBL`. -/
def initial (n k : Nat) (adapter : Adapter) (rxIndClusterSize : Nat) : State n k where
  adapter := adapter
  rxIndClusterSize := rxIndClusterSize
  rxFreeList := List.finRange n
  rxPendingList := []
  rxNblChain := fun _ => []
  nRxFreeInMP := n
  nRxPendingInUsb := 0
  nRxInNblChain := 0
  nRxHeldByNdis := 0
  nBusyRx := 0
  irp := fun _ => false
  miniportReserved := id
  inUsb := []
  posting := []
  completing := []
  indicating := fun _ => []
  cleaning := []
  held := []
  completions := 0
  indicated := fun _ => []

/-- `MPWork_PostDataReads` up to its loop. -/
def post (s : State n k) : State n k :=
  if s.adapter.mediaConnected then { s with posting := s.posting ++ [.looping] } else s

/-- `MPWork_PostDataReads` under `RxLock`: it takes a buffer, or its loop ends. -/
def postTake (s : State n k) (j : Nat) : State n k :=
  match s.rxFreeList with
  | b :: rest =>
    if s.adapter.anyFlags = false ∧ s.adapter.statePause = false then
      { s with
        rxFreeList := rest
        rxPendingList := s.rxPendingList ++ [b]
        nBusyRx := s.nBusyRx + 1
        nRxFreeInMP := s.nRxFreeInMP - 1
        posting := s.posting.set j (.linked b) }
    else { s with posting := s.posting.eraseIdx j }
  | [] => { s with posting := s.posting.eraseIdx j }

/-- `MP_USBPostPacketReadEx`. The IRP of a buffer is allocated once and then used again. -/
def postPacketRead (s : State n k) (j : Nat) (b : Fin n) (allocated : Bool) : State n k :=
  let s := { s with posting := s.posting.set j .looping }
  if s.irp b || allocated then
    { s with
      irp := Function.update s.irp b true
      inUsb := s.inUsb ++ [b] }
  else s

/-- The next lock region or call of a thread in `MPWork_PostDataReads`. -/
def postNext (s : State n k) (j : Nat) (allocated : Bool) : Option (State n k) :=
  match s.posting[j]? with
  | none => none
  | some .looping => some (s.postTake j)
  | some (.linked b) =>
    some { s with
      nRxPendingInUsb := s.nRxPendingInUsb + 1
      posting := s.posting.set j (.counted b) }
  | some (.counted b) => some (s.postPacketRead j b allocated)

/-- A buffer goes back to `RxFreeList`. -/
def relink (s : State n k) (b : Fin n) : State n k :=
  { s with
    rxFreeList := s.rxFreeList ++ [b]
    nBusyRx := s.nBusyRx - 1
    nRxFreeInMP := s.nRxFreeInMP + 1 }

/-- `MP_RxIRPCompletionEx` wants the packet. -/
def accepts (s : State n k) (success : Bool) : Bool :=
  success && s.adapter.packetFilter != 0 && !s.adapter.toPowerDown && !s.adapter.statePause &&
    s.adapter.dropDataTest != 1

/-- The packet of a read that begins to complete. -/
def newPacket (s : State n k) : Packet :=
  ⟨s.completions, s.completing.map (·.1.packet.number)⟩

/-- `MP_RxIRPCompletionEx` under `RxLock`, with `MPUSB_FindRxRequest`. -/
def rxIrpCompletion (s : State n k) (b : Fin n) (success : Bool) (idx : Fin k) : State n k :=
  if b ∈ s.rxPendingList ∧ s.irp b then
    let s := { s with
      rxPendingList := s.rxPendingList.erase b
      nRxPendingInUsb := s.nRxPendingInUsb - 1 }
    if s.accepts success then
      { s with
        completing := s.completing ++ [(⟨b, s.newPacket⟩, idx)]
        completions := s.completions + 1 }
    else s.relink b
  else s

/-- USB completes a read. `MPUSB_GetRxStreamIndex` may answer any stream. -/
def readCompletes (s : State n k) (b : Fin n) (success : Bool) (idx : Fin k) :
    Option (State n k) :=
  if b ∈ s.inUsb then
    some ({ s with inUsb := s.inUsb.erase b }.rxIrpCompletion b success idx)
  else none

/-- `MP_RxIRPCompletionEx` under the lock of the chain. -/
def insertChain (s : State n k) (j : Nat) : Option (State n k) :=
  match s.completing[j]? with
  | none => none
  | some (r, idx) =>
    some { s with
      miniportReserved := Function.update s.miniportReserved r.buffer r.buffer
      completing := s.completing.eraseIdx j
      rxNblChain := Function.update s.rxNblChain idx (s.rxNblChain idx ++ [r])
      nRxInNblChain := s.nRxInNblChain + 1 }

/-- `MPRX_ProcessRxChain` under the lock of the chain. Its loop takes `RxIndClusterSize` entries at
most, and one at least. The thread of a stream has indicated what it took before it takes more. -/
def processRxChain (s : State n k) (idx : Fin k) : Option (State n k) :=
  if s.indicating idx = [] then
    let taken := (s.rxNblChain idx).take (max 1 s.rxIndClusterSize)
    some { s with
      rxNblChain := Function.update s.rxNblChain idx
        ((s.rxNblChain idx).drop (max 1 s.rxIndClusterSize))
      indicating := Function.update s.indicating idx taken
      nRxInNblChain := s.nRxInNblChain - taken.length
      nRxHeldByNdis := s.nRxHeldByNdis + taken.length }
  else none

/-- `MPRX_ProcessRxChain` calls NDIS. -/
def indicate (s : State n k) (idx : Fin k) : State n k :=
  { s with
    indicating := Function.update s.indicating idx []
    held := s.held ++ (s.indicating idx).map Filled.buffer
    indicated := Function.update s.indicated idx
      (s.indicated idx ++ (s.indicating idx).map Filled.packet) }

/-- The loop of `MPRX_MiniportReturnNetBufferLists`, with whether it went through. -/
def returnLoop (s : State n k) : List (Fin n) → State n k × Bool
  | [] => (s, true)
  | nbl :: nbls =>
    let b := s.miniportReserved nbl
    if b = nbl then
      returnLoop { s.relink b with
        nRxHeldByNdis := s.nRxHeldByNdis - 1
        held := s.held.erase nbl } nbls
    else (s, false)

/-- `MPRX_MiniportReturnNetBufferLists`. NDIS returns what it has. -/
def returnNbls (s : State n k) (nbls : List (Fin n)) : Option (State n k) :=
  if nbls.Nodup ∧ ∀ nbl ∈ nbls, nbl ∈ s.held then
    match s.returnLoop nbls with
    | (s, true) => some s.post
    | (s, false) => some s
  else none

/-- `MPRX_RxChainCleanup` takes an entry. -/
def cleanupNext (s : State n k) (idx : Fin k) : Option (State n k) :=
  match s.rxNblChain idx with
  | [] => none
  | r :: rest =>
    some { s with
      rxNblChain := Function.update s.rxNblChain idx rest
      nRxInNblChain := s.nRxInNblChain - 1
      cleaning := s.cleaning ++ [.removed r.buffer] }

/-- `MPRX_RxChainCleanup` puts the entry back, and counts it. -/
def cleanupStep (s : State n k) (j : Nat) : Option (State n k) :=
  match s.cleaning[j]? with
  | none => none
  | some (.removed b) =>
    some { s with
      rxFreeList := s.rxFreeList ++ [b]
      cleaning := s.cleaning.set j .inserted }
  | some .inserted =>
    some { s with
      nBusyRx := s.nBusyRx - 1
      nRxFreeInMP := s.nRxFreeInMP + 1
      cleaning := s.cleaning.eraseIdx j }

/-- The receive part of `MPMAIN_CleanupQueues`, which goes on with `MPRX_RxChainCleanup` for each
stream. -/
def cleanupQueues (s : State n k) : State n k :=
  if 0 < s.nBusyRx then
    { s with
      rxFreeList := s.rxFreeList ++ s.rxPendingList
      rxPendingList := []
      nRxFreeInMP := s.nRxFreeInMP + s.rxPendingList.length
      nRxPendingInUsb := s.nRxPendingInUsb - s.rxPendingList.length
      nBusyRx := 0 }
  else s

end State

variable {n k : Nat}

/-- One step of the receive path. -/
def step (s : State n k) : Op n k → Option (State n k)
  | .setAdapter adapter => some { s with adapter := adapter }
  | .post => some s.post
  | .postNext j allocated => s.postNext j allocated
  | .readCompletes b success idx => s.readCompletes b success idx
  | .insertChain j => s.insertChain j
  | .processRxChain idx => s.processRxChain idx
  | .indicate idx => some (s.indicate idx)
  | .returnNbls nbls => s.returnNbls nbls
  | .cleanupNext idx => s.cleanupNext idx
  | .cleanupStep j => s.cleanupStep j
  | .cleanupQueues => some s.cleanupQueues

/-- The receive path as a machine. -/
def rxMachine (n k : Nat) : Machine (State n k) (Op n k) Unit :=
  fun s op => (step s op).map (·, ())

/-! ## What is to hold -/

/-- The owners of a buffer. -/
inductive Owner (k : Nat)
  | rxFreeList
  | rxPendingList
  | rxNblChain (idx : Fin k)
  | ndis
deriving DecidableEq

def State.owned (s : State n k) : Owner k → List (Fin n)
  | .rxFreeList => s.rxFreeList
  | .rxPendingList => s.rxPendingList
  | .rxNblChain idx => (s.rxNblChain idx).map Filled.buffer
  | .ndis => s.held

/-- No operation is under way. -/
def State.Idle (s : State n k) : Prop :=
  s.posting = [] ∧ s.completing = [] ∧ (∀ idx, s.indicating idx = []) ∧ s.cleaning = []

/-- Each buffer has one owner, what is pending is in USB, and the counters are right. -/
structure State.Conserved (s : State n k) : Prop where
  onePlace : ∀ b, OnePlace s.owned b
  posted : ∀ b, b ∈ s.rxPendingList ↔ b ∈ s.inUsb
  nRxFreeInMP : s.nRxFreeInMP = s.rxFreeList.length
  nRxPendingInUsb : s.nRxPendingInUsb = s.rxPendingList.length
  nRxInNblChain : s.nRxInNblChain = ∑ idx, ((s.rxNblChain idx).length : Int)
  nRxHeldByNdis : s.nRxHeldByNdis = s.held.length
  nBusyRx : s.nBusyRx = (Finset.univ.filter fun b => b ∉ s.rxFreeList).card

/-- The read of the second packet was not complete when the read of the first began to complete. -/
def InOrder (p q : Packet) : Prop := q.number < p.number → q.number ∈ p.overlaps

/-- `MP_USBPostPacketReadEx` gets the IRP it needs, and `MPMAIN_CleanupQueues` finds no buffer in
use. -/
def Intact (s : State n k) : Op n k → Prop
  | .postNext j allocated =>
    match s.posting[j]? with
    | some (.counted b) => (s.irp b || allocated) = true
    | _ => True
  | .cleanupQueues => s.nBusyRx ≤ 0
  | _ => True

instance (s : State n k) (op : Op n k) : Decidable (Intact s op) := by
  unfold Intact
  repeat' split
  all_goals infer_instance

end Ndis.Rx
