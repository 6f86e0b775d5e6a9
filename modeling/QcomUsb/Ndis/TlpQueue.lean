-- SUMMARY: The uplink transfer buffers between the transmit threads, USB and the transmit timer, as a machine.
import QcomUsb.Library.Transition
import QcomUsb.Ndis.TlpItem

/-!
# The queue of transfer buffers

A thread in `MPUSB_TLPTxPacketEx` takes the item at the head of `UplinkFreeBufferQueue`. It puts it
back at the head, with the packet in it or without, or sends it. One step is what a thread does
between two lock operations. Without QoS only the MP thread calls `MPUSB_TLPTxPacketEx`. With QoS the
dispatch thread sends the packets, and the MP thread still flushes when the timer expired.
-/

namespace Ndis.Tlp

open Transition

/-- The transmit timer, its DPC, the event the DPC sets and the remove lock. An observer counts how
often `SetTransmitTimer` acquired the lock, and all releases. -/
structure Timer where
  armed : Bool
  signaled : Bool
  launched : Bool
  dpcQueued : Bool
  dpcRunning : Nat
  txTimerEvent : Bool
  lockDeleted : Bool
  acquired : Nat
  released : Nat
deriving DecidableEq

/-- Where a thread in `MPUSB_TLPTxPacketEx` is, with the item it took and its packet. -/
inductive Phase
  | entered (packet : Option Packet)
  | took (item : Option Item) (packet : Option Packet)
  | staying (item : Item)
  | stayed
  | full (item : Item)
  | sending (item : Option Item)
  | restoring (item : Option Item)

/-- What was handed to USB, with the packets that had been put into the item. -/
structure Sent where
  bytes : List UInt8
  accepted : List (List UInt8)
deriving DecidableEq

structure State where
  uplinkFreeBufferQueue : List Item
  inside : List Phase
  inUsb : List Item
  ntbSequence : Nat
  timer : Timer
  sent : List Sent

inductive Op
  | send (packet : Packet)
  | flush
  | timerFlush
  | advance (j : Nat)
  | complete (k : Nat)
  | purge
  | timerExpires
  | dpcStarts
  | dpcEnds
  | haltCancels
  | deleteLock

namespace Timer

/-- `KeInitializeTimer` in `MPINI`. -/
def initial : Timer := ⟨false, false, false, false, 0, false, false, 0, 0⟩

/-- `SetTransmitTimer`. -/
def set (t : Timer) : Timer :=
  if t.lockDeleted then t
  else
    let t := { t with acquired := t.acquired + 1 }
    if t.signaled ∨ t.launched = false then
      { t with launched := true, armed := true, signaled := false }
    else { t with released := t.released + 1 }

/-- `CancelTransmitTimer`. -/
def cancel (t : Timer) : Timer :=
  if t.armed then
    { t with armed := false, signaled := false, launched := false, released := t.released + 1 }
  else t

/-- The timer expires. A DPC that is queued is not queued again. -/
def expires (t : Timer) : Option Timer :=
  if t.armed then some { t with armed := false, signaled := true, dpcQueued := true } else none

/-- `TransmitTimerDpc` sets the event. -/
def dpcStarts (t : Timer) : Option Timer :=
  if t.dpcQueued then
    some { t with dpcQueued := false, dpcRunning := t.dpcRunning + 1, txTimerEvent := true }
  else none

/-- `TransmitTimerDpc` releases the lock. -/
def dpcEnds (t : Timer) : Option Timer :=
  if 0 < t.dpcRunning then
    some { t with dpcRunning := t.dpcRunning - 1, released := t.released + 1 }
  else none

end Timer

/-- `InterlockedIncrement` of `ntbSequence`, which goes back to zero before it is `0xFFFF`. -/
def nextSequence (ntbSequence : Nat) : Nat := if 0xffff ≤ ntbSequence + 1 then 0 else ntbSequence + 1

namespace State

/-- `MPUSB_InitializeTLP`. -/
def initial (a : Adapter) (numItems : Nat) : State where
  uplinkFreeBufferQueue := List.replicate numItems (Item.initial a)
  inside := []
  inUsb := []
  ntbSequence := 0
  timer := Timer.initial
  sent := []

/-- A thread calls `MPUSB_TLPTxPacketEx`. Without QoS there is one such thread. -/
def enter (a : Adapter) (s : State) (packet : Option Packet) : Option State :=
  if a.qosEnabled ∨ s.inside = [] then
    some { s with inside := s.inside ++ [.entered packet] }
  else none

/-- A thread comes to its next phase, or leaves. -/
def goTo (s : State) (j : Nat) (phase : Option Phase) : State :=
  match phase with
  | some phase => { s with inside := s.inside.set j phase }
  | none => { s with inside := s.inside.eraseIdx j }

/-- The item goes back to the head of the queue. -/
def insertHead (s : State) (item : Item) : State :=
  { s with uplinkFreeBufferQueue := item :: s.uplinkFreeBufferQueue }

/-- The thread takes the item at the head, if there is one. -/
def take (s : State) (j : Nat) (packet : Option Packet) : State :=
  { s with uplinkFreeBufferQueue := s.uplinkFreeBufferQueue.tail }.goTo j
    (some (.took s.uplinkFreeBufferQueue.head? packet))

/-- The thread puts its packet into the item. -/
def process (a : Adapter) (s : State) (j : Nat) (item : Option Item) (packet : Packet) : State :=
  match item with
  | none => s.goTo j (some (.restoring none))
  | some item =>
    if packet.refused ∨ packet.data = [] then s.goTo j (some (.restoring (some item)))
    else
      match item.fill a (UInt16.ofNat s.ntbSequence) packet with
      | none => s.goTo j (some (.restoring (some item)))
      | some filled =>
        let s := if a.mode = .mbim ∧ item.currentPtr = 0 then
          { s with ntbSequence := nextSequence s.ntbSequence } else s
        if Item.Stays a filled then s.goTo j (some (.staying filled))
        else if a.mode = .plain then s.goTo j (some (.sending (some filled)))
        else s.goTo j (some (.full filled))

/-- `PrepareIrp`. -/
def prepareIrp (a : Adapter) (s : State) (j : Nat) (item : Item) : State :=
  if item.dataLength = 0 then s.goTo j (some (.restoring (some item)))
  else
    let item := item.seal a
    let s : State := { s with
      inUsb := s.inUsb ++ [item]
      sent := s.sent ++ [⟨item.sendBuffer, item.accepted⟩] }
    s.goTo j none

/-- The next step of a thread in `MPUSB_TLPTxPacketEx`. -/
def advance (a : Adapter) (s : State) (j : Nat) : Option State :=
  match s.inside[j]? with
  | none => none
  | some (.entered packet) => some (s.take j packet)
  | some (.took item (some packet)) => some (s.process a j item packet)
  | some (.took item none) => some (s.goTo j (some (.sending item)))
  | some (.staying item) => some ((s.insertHead item).goTo j (some .stayed))
  | some .stayed => some ({ s with timer := s.timer.set }.goTo j none)
  | some (.full item) =>
    some ({ s with timer := s.timer.cancel }.goTo j (some (.sending (some item))))
  | some (.sending (some item)) => some (s.prepareIrp a j item)
  | some (.sending none) => some (s.goTo j (some (.restoring none)))
  | some (.restoring (some item)) => some ((s.insertHead item).goTo j none)
  | some (.restoring none) => some (s.goTo j none)

/-- `MPUSB_TLPTxIRPCompleteEx`. -/
def complete (a : Adapter) (s : State) (k : Nat) : Option State :=
  match s.inUsb[k]? with
  | none => none
  | some item =>
    some { s with
      inUsb := s.inUsb.eraseIdx k
      uplinkFreeBufferQueue := s.uplinkFreeBufferQueue ++ [item.recycle a] }

/-- `MPUSB_PurgeTLPQueuesEx` with `FreeMemory` false waits until nothing is in USB. Its walk loses
the head of the queue when it finds a packet list that is not empty, and does not end. Without
`MPQuickTx` every packet in an item is on its packet list. -/
def purge (a : Adapter) (s : State) : Option State :=
  if s.inUsb = [] ∧
      (a.mpQuickTx ∨ ∀ item ∈ s.uplinkFreeBufferQueue, item.aggregationCount = 0) then
    some { s with uplinkFreeBufferQueue := s.uplinkFreeBufferQueue.map (·.purge a) }
  else none

/-- A step of the timer. -/
def withTimer (s : State) (t : Option Timer) : Option State :=
  t.map fun t => { s with timer := t }

/-- `MPMAIN_MPThread` clears the event and flushes. -/
def timerFlush (a : Adapter) (s : State) : Option State :=
  if s.timer.txTimerEvent then
    { s with timer := { s.timer with txTimerEvent := false } }.enter a none
  else none

end State

/-- One step. -/
def step (a : Adapter) (s : State) : Op → Option State
  | .send packet => s.enter a (some packet)
  | .flush => s.enter a none
  | .timerFlush => s.timerFlush a
  | .advance j => s.advance a j
  | .complete k => s.complete a k
  | .purge => s.purge a
  | .timerExpires => s.withTimer s.timer.expires
  | .dpcStarts => s.withTimer s.timer.dpcStarts
  | .dpcEnds => s.withTimer s.timer.dpcEnds
  | .haltCancels => some { s with timer := s.timer.cancel }
  | .deleteLock => some { s with timer := { s.timer with lockDeleted := true } }

/-- The transmit path as a machine. -/
def tlpMachine (a : Adapter) : Machine State Op Unit := fun s op => (step a s op).map (·, ())

end Ndis.Tlp
