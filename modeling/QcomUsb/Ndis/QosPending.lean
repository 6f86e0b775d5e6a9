-- SUMMARY: The count of pending QoS packets over both transmit paths, and exactly which steps it survives.
import QcomUsb.Ndis.TxUnsent

/-!
# Pending QoS packets

The dispatch thread sends while `QosPendingPackets` is below `MPPendingPackets`. A packet is counted
when it has been put into an item or given an IRP. `MP_TxIRPCompleteEx` takes the count back, for
packets that were never counted too, and `MPUSB_TLPTxIRPCompleteEx` does it once more.
-/

namespace Ndis.QosPending

open Transition TxUnsent

/-- A net buffer, by the name of its context. -/
structure Nb where
  entry : Nat
  nb : Option DataPacket.NetBuffer

/-- `TLP_BUF_ITEM`, with the packets on its `PacketList`. -/
structure TlpBufItem where
  item : Tlp.Item
  packetList : List Nat

/-- A call of `MP_USBTxPacketEx` in its loop over the net buffers of a list. -/
structure Call where
  rest : List Nb
  bAbort : Bool

/-- The count, the items, the calls in progress, and the packets whose IRPs are pending. -/
structure State where
  qosPendingPackets : Int
  uplinkFreeBufferQueue : List TlpBufItem
  inUsb : List TlpBufItem
  ntbSequence : Nat
  calls : List Call
  irps : List Nat

/-- The calls. `aborted` is the `AbortFlag` of the packet's list, `device` says whether
`FindStackDeviceObject` finds one, and `pool` and `irp` what an allocation finds. -/
inductive Op
  | tlpTxPacketEx (flowId : UInt32) (pList : Option Nb) (aborted device : Bool)
  | tlpTxIRPCompleteEx (k : Nat)
  | usbTxPacketEx (nbs : List Nb)
  | usbTxTurn (j : Nat) (aborted : Bool) (pool : Option Nat) (mem : Nat → UInt8) (irp device : Bool)
  | txIRPCompleteEx (k : Nat)

namespace TlpBufItem

/-- The item has taken a packet, which goes on its `PacketList` unless `MPQuickTx`. -/
def add (a : Tlp.Adapter) (tlpItem : TlpBufItem) (taken : Tlp.Item) (entry : Nat) : TlpBufItem :=
  ⟨taken, if a.mpQuickTx then tlpItem.packetList else tlpItem.packetList ++ [entry]⟩

/-- The packet leaves the `PacketList`. -/
def unlink (a : Tlp.Adapter) (tlpItem : TlpBufItem) (entry : Nat) : TlpBufItem :=
  if a.mpQuickTx then tlpItem else { tlpItem with packetList := tlpItem.packetList.erase entry }

end TlpBufItem

namespace State

/-- `MPUSB_InitializeTLP`. -/
def initial (a : Tlp.Adapter) (numItems : Nat) : State :=
  ⟨0, List.replicate numItems ⟨Tlp.Item.initial a, []⟩, [], 0, [], []⟩

/-- The count changes under QoS. -/
def count (a : Tlp.Adapter) (s : State) (n : Int) : State :=
  { s with qosPendingPackets := s.qosPendingPackets + if a.qosEnabled then n else 0 }

/-- `MP_TxIRPCompleteEx` for any packet. -/
def complete (a : Tlp.Adapter) (s : State) : State := s.count a (-1)

/-- What `MPUSB_TLPTxIRPCompleteEx` does for a packet of the item. -/
def completePacket (a : Tlp.Adapter) (s : State) (_ : Nat) : State := (s.complete a).count a (-1)

/-- `MPUSB_TLPTxIRPCompleteEx`. -/
def completeItem (a : Tlp.Adapter) (s : State) (item : TlpBufItem) : State :=
  let s := item.packetList.foldl (completePacket a) s
  { s with uplinkFreeBufferQueue := s.uplinkFreeBufferQueue ++ [⟨item.item.recycle a, []⟩] }

/-- The items go back to the head of the queue. -/
def insertHead (s : State) (tlpItem : Option TlpBufItem) : State :=
  { s with uplinkFreeBufferQueue := tlpItem.toList ++ s.uplinkFreeBufferQueue }

/-- `Tx_Exit` with `kicker` set, for a packet. -/
def txExit (a : Tlp.Adapter) (s : State) (tlpItem : Option TlpBufItem) : State :=
  (s.complete a).insertHead tlpItem

/-- The item is handed to USB, or completed at once without a device. -/
def sendItem (a : Tlp.Adapter) (s : State) (item : TlpBufItem) (device : Bool) : State :=
  let item := { item with item := item.item.seal a }
  if device then { s with inUsb := s.inUsb ++ [item] } else s.completeItem a item

/-- `PrepareIrp` without a packet. -/
def flush (a : Tlp.Adapter) (s : State) (tlpItem : Option TlpBufItem) (device : Bool) : State :=
  match tlpItem with
  | none => s
  | some item =>
    if item.item.dataLength = 0 then s.insertHead (some item) else s.sendItem a item device

/-- The item has taken the packet. It stays at the head of the queue or is sent, unless there is
nothing to send: then the packet leaves its `PacketList` again. -/
def keepOrSend (a : Tlp.Adapter) (s : State) (entry : Nat) (item : TlpBufItem) (device : Bool) :
    State :=
  let s := if a.mpQuickTx then s.complete a else s
  if Tlp.Item.Stays a item.item then s.insertHead (some item)
  else if item.item.dataLength = 0 then
    s.txExit a (some (item.unlink a entry))
  else s.sendItem a item device

/-- The decisions about a packet. -/
def verdict (a : Tlp.Adapter) (flowId : UInt32) (s : State) (nb : Nb) (aborted : Bool) : Verdict :=
  TxUnsent.verdict a flowId (UInt16.ofNat s.ntbSequence)
    (s.uplinkFreeBufferQueue.head?.map (·.item)) aborted nb.nb

/-- `MPUSB_TLPTxPacketEx` for a packet. One that is dropped is on no `PacketList`. -/
def sendPacket (a : Tlp.Adapter) (flowId : UInt32) (s : State) (nb : Nb) (aborted device : Bool) :
    State :=
  let t := { s with uplinkFreeBufferQueue := s.uplinkFreeBufferQueue.tail }
  match s.verdict a flowId nb aborted, s.uplinkFreeBufferQueue.head? with
  | .taken item _ _, some tlpItem =>
    let t := { t with ntbSequence := if a.mode = Tlp.Mode.mbim ∧ tlpItem.item.currentPtr = 0 then
        Tlp.nextSequence s.ntbSequence else s.ntbSequence }
    (t.count a 1).keepOrSend a nb.entry (tlpItem.add a item nb.entry) device
  | .unreadable _ mem, some tlpItem => t.txExit a (some { tlpItem with item.buffer := mem })
  | _, tlpItem => t.txExit a tlpItem

/-- `MPUSB_TLPTxPacketEx`. -/
def tlpTxPacketEx (a : Tlp.Adapter) (flowId : UInt32) (s : State) (pList : Option Nb)
    (aborted device : Bool) : State :=
  match pList with
  | none => { s with uplinkFreeBufferQueue := s.uplinkFreeBufferQueue.tail }.flush a
      s.uplinkFreeBufferQueue.head? device
  | some nb => s.sendPacket a flowId nb aborted device

/-- An item comes back from USB. -/
def tlpTxIRPCompleteEx (a : Tlp.Adapter) (s : State) (k : Nat) : Option State :=
  s.inUsb[k]?.map fun item => { s with inUsb := s.inUsb.eraseIdx k }.completeItem a item

/-- The packet of a turn of `MP_USBTxPacketEx` is ready for an IRP. -/
def Ready (a : Tlp.Adapter) (aborted : Bool) (pool : Option Nat) (mem : Nat → UInt8)
    (nb : DataPacket.NetBuffer) : Prop :=
  let r := DataPacket.retriveDataPacket a nb none pool mem
  aborted = false ∧ ∃ pktBuf ∈ r.pktBuf,
    a.stripEthernet = true → preparePacket a r.mem pktBuf (r.length + a.qosLen) ≠ none

instance (a : Tlp.Adapter) (aborted : Bool) (pool : Option Nat) (mem : Nat → UInt8)
    (nb : DataPacket.NetBuffer) : Decidable (Ready a aborted pool mem nb) := by
  unfold Ready
  infer_instance

/-- A turn of the loop of `MP_USBTxPacketEx`. After one that goes wrong the loop ends. -/
def usbTxTurn (a : Tlp.Adapter) (s : State) (j : Nat) (aborted : Bool) (pool : Option Nat)
    (mem : Nat → UInt8) (irp device : Bool) : Option State :=
  match s.calls[j]? with
  | none => none
  | some ⟨⟨entry, some nb⟩ :: rest, false⟩ =>
    if Ready a aborted pool mem nb ∧ irp then
      let s := { s with calls := s.calls.set j ⟨rest, false⟩ }.count a 1
      some (if device then { s with irps := s.irps ++ [entry] } else s.complete a)
    else some { s with calls := s.calls.set j ⟨rest, true⟩ }
  | some _ => some { s with calls := s.calls.eraseIdx j }

/-- `MP_TxIRPCompleteEx` for an IRP. -/
def txIRPCompleteEx (a : Tlp.Adapter) (s : State) (k : Nat) : Option State :=
  if k < s.irps.length then some ({ s with irps := s.irps.eraseIdx k }.complete a) else none

end State

def step (a : Tlp.Adapter) (s : State) : Op → Option State
  | .tlpTxPacketEx flowId pList aborted device => some (s.tlpTxPacketEx a flowId pList aborted device)
  | .tlpTxIRPCompleteEx k => s.tlpTxIRPCompleteEx a k
  | .usbTxPacketEx nbs => some { s with calls := s.calls ++ [⟨nbs, false⟩] }
  | .usbTxTurn j aborted pool mem irp device => s.usbTxTurn a j aborted pool mem irp device
  | .txIRPCompleteEx k => s.txIRPCompleteEx a k

/-- Both transmit paths. -/
def pendingMachine (a : Tlp.Adapter) : Machine State Op Unit :=
  fun s op => (step a s op).map (·, ())

/-! ## The count -/

/-- The packets on the items. -/
def packets (items : List TlpBufItem) : List Nat := items.flatMap (·.packetList)

/-- The packets that were handed to an item or an IRP and are not completed. -/
def State.inFlight (s : State) : List Nat :=
  packets s.uplinkFreeBufferQueue ++ packets s.inUsb ++ s.irps

/-- `QosPendingPackets` is the number of packets in flight. -/
def State.Balanced (s : State) : Prop := s.qosPendingPackets = s.inFlight.length

/-- The packets of an item that is handed to USB are not completed at once. -/
def State.Departs (item : TlpBufItem) (device : Bool) : Prop := device = true ∨ item.packetList = []

/-- What keeps the count: no packet is dropped by `MPUSB_TLPTxPacketEx`, an item is completed without
packets on its `PacketList`, and under `MPQuickTx` there is something to send. -/
def Op.Counts (a : Tlp.Adapter) (s : State) : Op → Prop
  | .tlpTxPacketEx flowId (some nb) aborted device =>
    match s.verdict a flowId nb aborted, s.uplinkFreeBufferQueue.head? with
    | .taken item _ _, some tlpItem =>
      Tlp.Item.Stays a item ∨
        if item.dataLength = 0 then a.mpQuickTx = false
        else State.Departs (tlpItem.add a item nb.entry) device
    | _, _ => False
  | .tlpTxPacketEx _ none _ device => ∀ tlpItem ∈ s.uplinkFreeBufferQueue.head?,
      tlpItem.item.dataLength = 0 ∨ State.Departs tlpItem device
  | .tlpTxIRPCompleteEx k => ∀ item ∈ s.inUsb[k]?, item.packetList = []
  | _ => True

/-- What the count is above the number of packets in flight. -/
def State.excess (s : State) : Int := s.qosPendingPackets - s.inFlight.length

theorem State.balanced_iff (s : State) : s.Balanced ↔ s.excess = 0 := by
  rw [State.Balanced, State.excess, sub_eq_zero]

/-- The count of a balanced state is not negative and goes back to zero, and it opens the gate while
fewer than `MPPendingPackets` packets are in flight. -/
theorem State.Balanced.gate {s : State} (h : s.Balanced) :
    0 ≤ s.qosPendingPackets ∧ (s.inFlight = [] → s.qosPendingPackets = 0) ∧
      ∀ mpPendingPackets : Nat, s.qosPendingPackets < mpPendingPackets ↔
        s.inFlight.length < mpPendingPackets := by
  rw [State.Balanced] at h
  refine ⟨by omega, fun hnone => ?_, fun mpPendingPackets => by omega⟩
  rw [h, hnone]
  rfl

variable {a : Tlp.Adapter} {s s' : State} {item tlpItem : TlpBufItem} {device : Bool}

theorem packets_append (xs ys : List TlpBufItem) : packets (xs ++ ys) = packets xs ++ packets ys :=
  List.flatMap_append

theorem packets_nil : packets [] = [] := rfl

theorem packets_cons (item : TlpBufItem) (items : List TlpBufItem) :
    packets (item :: items) = item.packetList ++ packets items := List.flatMap_cons

theorem packets_singleton (item : TlpBufItem) : packets [item] = item.packetList := by
  simp [packets]

theorem initial_balanced (a : Tlp.Adapter) (numItems : Nat) :
    (State.initial a numItems).Balanced := by
  simp [State.Balanced, State.inFlight, State.initial, packets]

/-! ## The operations -/

theorem insertHead_excess (s : State) (item : TlpBufItem) :
    (s.insertHead (some item)).excess = s.excess - item.packetList.length := by
  simp only [State.excess, State.insertHead, State.inFlight, Option.toList_some, List.singleton_append,
    packets_cons, List.length_append]
  omega

section

variable (hqos : a.qosEnabled = true)
include hqos

theorem count_excess (s : State) (n : Int) : (s.count a n).excess = s.excess + n := by
  simp only [State.excess, State.count, State.inFlight, hqos, ↓reduceIte]
  omega

theorem complete_excess (s : State) :
    (s.complete a).excess = s.excess - 1 := count_excess hqos s (-1)

theorem txExit_excess (s : State) (item : TlpBufItem) :
    (s.txExit a (some item)).excess = s.excess - item.packetList.length - 1 := by
  rw [State.txExit, insertHead_excess, complete_excess hqos]
  omega

theorem foldl_completePacket (entries : List Nat) (s : State) :
    entries.foldl (State.completePacket a) s =
      { s with qosPendingPackets := s.qosPendingPackets - 2 * entries.length } := by
  induction entries generalizing s with
  | nil => simp
  | cons entry entries ih =>
    rw [List.foldl_cons, ih]
    simp only [State.completePacket, State.complete, State.count, hqos, ↓reduceIte, List.length_cons]
    congr 1
    push_cast
    ring

/-- Each packet of the item is counted down twice. -/
theorem completeItem_excess (s : State) (item : TlpBufItem) :
    (s.completeItem a item).excess = s.excess - 2 * item.packetList.length := by
  simp only [State.completeItem, foldl_completePacket hqos, State.excess, State.inFlight,
    packets_append, packets_singleton, List.append_nil]
  omega

theorem sendItem_excess (s : State) (item : TlpBufItem) (device : Bool) :
    (s.sendItem a item device).excess =
      s.excess - item.packetList.length - if device then 0 else item.packetList.length := by
  unfold State.sendItem
  cases device with
  | true =>
    simp only [↓reduceIte, State.excess, State.inFlight, packets_append, packets_singleton,
      List.length_append]
    omega
  | false =>
    simp only [Bool.false_eq_true, ↓reduceIte, completeItem_excess hqos]
    omega

theorem sendItem_lossless_iff (s : State) (item : TlpBufItem) (device : Bool) :
    (s.sendItem a item device).excess = s.excess - item.packetList.length ↔
      State.Departs item device := by
  rw [sendItem_excess hqos, State.Departs, ← List.length_eq_zero_iff]
  cases device <;> simp

theorem sendItem_excess_eq_zero_iff (h : s.excess = item.packetList.length) :
    (s.sendItem a item device).excess = 0 ↔ State.Departs item device := by
  rw [← sendItem_lossless_iff hqos s, h, sub_self]

/-- The counted packet is on the `PacketList`, or under `MPQuickTx` completed first. -/
theorem keepOrSend_excess_eq_zero_iff {tlpItem : TlpBufItem} {taken : Tlp.Item} {entry : Nat}
    (h : s.excess = tlpItem.packetList.length) :
    ((s.count a 1).keepOrSend a entry (tlpItem.add a taken entry) device).excess = 0 ↔
      Tlp.Item.Stays a taken ∨ if taken.dataLength = 0 then a.mpQuickTx = false
        else State.Departs (tlpItem.add a taken entry) device := by
  have hcounted : (s.count a 1).excess = s.excess + 1 := count_excess hqos s 1
  unfold State.keepOrSend
  generalize hcompleted : (if a.mpQuickTx = true then (s.count a 1).complete a else s.count a 1) = t
  have hexcess : t.excess = (tlpItem.add a taken entry).packetList.length := by
    rw [← hcompleted]
    unfold TlpBufItem.add
    split
    · rename_i hquick
      rw [complete_excess hqos, hcounted, h, add_sub_cancel_right]
    · rw [hcounted, h, List.length_append, List.length_singleton, Nat.cast_add, Nat.cast_one]
  have hitem : (tlpItem.add a taken entry).item = taken := rfl
  dsimp only
  rw [hitem]
  by_cases hstays : Tlp.Item.Stays a taken
  · rw [if_pos hstays, insertHead_excess, hexcess, sub_self]
    exact iff_of_true rfl (.inl hstays)
  rw [if_neg hstays, or_iff_right hstays]
  by_cases hempty : taken.dataLength = 0
  · rw [if_pos hempty, if_pos hempty, txExit_excess hqos, hexcess]
    cases hquick : a.mpQuickTx with
    | true =>
      simp [TlpBufItem.add, TlpBufItem.unlink, hquick]
    | false =>
      have hlength : ((tlpItem.packetList ++ [entry]).erase entry).length =
          tlpItem.packetList.length := by
        rw [List.length_erase_of_mem (by simp)]
        simp
      simp [TlpBufItem.add, TlpBufItem.unlink, hquick, hlength]
  · rw [if_neg hempty, if_neg hempty]
    exact sendItem_excess_eq_zero_iff hqos hexcess

/-! ## One step -/

omit hqos in
/-- The state without the item at the head of the queue. -/
theorem tail_excess (s : State) :
    ({ s with uplinkFreeBufferQueue := s.uplinkFreeBufferQueue.tail } : State).excess =
      s.excess + (packets s.uplinkFreeBufferQueue.head?.toList).length := by
  simp only [State.excess, State.inFlight]
  cases s.uplinkFreeBufferQueue with
  | nil => simp [packets]
  | cons item queue =>
    simp only [List.tail_cons, List.head?_cons, Option.toList_some, packets_cons, packets_nil,
      List.append_nil, List.length_append]
    omega

/-- A packet that is dropped is counted down once too often. -/
theorem dropped_excess (s : State) (tlpItem : Option TlpBufItem)
    (h : s.excess = (packets tlpItem.toList).length) : (s.txExit a tlpItem).excess = -1 := by
  cases tlpItem with
  | none =>
    have hnone : (s.txExit a none).excess = s.excess - 1 := complete_excess hqos s
    rw [hnone, h]
    rfl
  | some item =>
    rw [txExit_excess hqos, h, Option.toList_some, packets_singleton, sub_self]
    rfl

theorem sendPacket_excess_eq_zero_iff {flowId : UInt32} {nb : Nb} {aborted : Bool}
    (h : s.excess = 0) :
    (s.sendPacket a flowId nb aborted device).excess = 0 ↔
      (Op.tlpTxPacketEx flowId (some nb) aborted device).Counts a s := by
  have htail := tail_excess s
  rw [h, zero_add] at htail
  have hdropped (tlpItem : Option TlpBufItem)
      (hitem : (packets tlpItem.toList).length =
        (packets s.uplinkFreeBufferQueue.head?.toList).length) :
      (({ s with uplinkFreeBufferQueue := s.uplinkFreeBufferQueue.tail } : State).txExit a
        tlpItem).excess ≠ 0 := by
    rw [dropped_excess hqos _ _ (hitem ▸ htail)]
    decide
  simp only [State.sendPacket, Op.Counts]
  cases hhead : s.uplinkFreeBufferQueue.head? with
  | none =>
    rw [hhead] at hdropped
    cases s.verdict a flowId nb aborted <;> exact iff_of_false (hdropped none rfl) id
  | some tlpItem =>
    rw [hhead] at hdropped htail
    cases s.verdict a flowId nb aborted with
    | taken taken length answered =>
      rw [Option.toList_some, packets_singleton] at htail
      exact keepOrSend_excess_eq_zero_iff hqos htail
    | unreadable length mem =>
      refine iff_of_false (hdropped _ ?_) id
      simp only [Option.toList_some, packets_singleton]
    | noBuffer => exact iff_of_false (hdropped (some tlpItem) rfl) id
    | refused => exact iff_of_false (hdropped (some tlpItem) rfl) id
    | noRoom length => exact iff_of_false (hdropped (some tlpItem) rfl) id

theorem flush_excess_eq_zero_iff (h : s.excess = 0) :
    (({ s with uplinkFreeBufferQueue := s.uplinkFreeBufferQueue.tail } : State).flush a
        s.uplinkFreeBufferQueue.head? device).excess = 0 ↔
      ∀ tlpItem ∈ s.uplinkFreeBufferQueue.head?,
        tlpItem.item.dataLength = 0 ∨ State.Departs tlpItem device := by
  have htail := tail_excess s
  rw [h, zero_add] at htail
  cases hhead : s.uplinkFreeBufferQueue.head? with
  | none =>
    rw [hhead] at htail
    exact iff_of_true htail (by simp)
  | some tlpItem =>
    rw [hhead, Option.toList_some, packets_singleton] at htail
    simp only [State.flush, Option.mem_some_iff, forall_eq']
    split
    · rename_i hempty
      exact iff_of_true (by rw [insertHead_excess, htail, sub_self]) (.inl hempty)
    · rename_i hdata
      rw [or_iff_right hdata]
      exact sendItem_excess_eq_zero_iff hqos htail

omit hqos in
theorem packets_eraseIdx {items : List TlpBufItem} {k : Nat} (hk : items[k]? = some item) :
    (packets items).length = item.packetList.length + (packets (items.eraseIdx k)).length := by
  obtain ⟨hlt, rfl⟩ := List.getElem?_eq_some_iff.mp hk
  have hperm := (List.getElem_cons_eraseIdx_perm hlt).flatMap_right (·.packetList)
  have hlength := hperm.length_eq
  rw [List.flatMap_cons, List.length_append] at hlength
  exact hlength.symm

theorem tlpTxIRPCompleteEx_excess_eq_zero_iff {k : Nat} (h : s.excess = 0)
    (hs : s.tlpTxIRPCompleteEx a k = some s') :
    s'.excess = 0 ↔ ∀ item ∈ s.inUsb[k]?, item.packetList = [] := by
  obtain ⟨item, hitem, rfl⟩ := Option.map_eq_some_iff.mp hs
  have htaken : ({ s with inUsb := s.inUsb.eraseIdx k } : State).excess =
      item.packetList.length := by
    have hcount := packets_eraseIdx hitem
    simp only [State.excess, State.inFlight, List.length_append] at h ⊢
    omega
  rw [completeItem_excess hqos, htaken, hitem]
  simp only [Option.mem_some_iff, forall_eq', ← List.length_eq_zero_iff]
  omega

theorem usbTxTurn_excess {j : Nat} {aborted : Bool} {pool : Option Nat} {mem : Nat → UInt8}
    {irp : Bool} (hs : s.usbTxTurn a j aborted pool mem irp device = some s') :
    s'.excess = s.excess := by
  unfold State.usbTxTurn at hs
  split at hs
  · cases hs
  · rename_i entry nb rest hcall
    split_ifs at hs with hready hdevice
    · cases hs
      have hcounted := count_excess hqos { s with calls := s.calls.set j ⟨rest, false⟩ } 1
      have hsame : ({ s with calls := s.calls.set j ⟨rest, false⟩ } : State).excess = s.excess := rfl
      rw [hsame] at hcounted
      have hpending (t : State) : ({ t with irps := t.irps ++ [entry] } : State).excess =
          t.excess - 1 := by
        simp only [State.excess, State.inFlight, List.length_append, List.length_singleton]
        omega
      rw [hpending, hcounted, add_sub_cancel_right]
    · cases hs
      rw [complete_excess hqos, count_excess hqos, add_sub_cancel_right]
      rfl
    · cases hs
      rfl
  · cases hs
    rfl

theorem txIRPCompleteEx_excess {k : Nat} (hs : s.txIRPCompleteEx a k = some s') :
    s'.excess = s.excess := by
  unfold State.txIRPCompleteEx at hs
  split at hs
  · rename_i hk
    cases hs
    rw [complete_excess hqos]
    have hlength := List.length_eraseIdx_of_lt hk
    simp only [State.excess, State.inFlight, List.length_append, hlength]
    omega
  · cases hs

/-- From a balanced state a step leads to one exactly if it keeps the count. -/
theorem step_balanced_iff {op : Op} (h : s.Balanced) (hs : step a s op = some s') :
    s'.Balanced ↔ op.Counts a s := by
  rw [State.balanced_iff] at h ⊢
  cases op with
  | tlpTxPacketEx flowId pList aborted device =>
    cases hs
    cases pList with
    | none => exact flush_excess_eq_zero_iff hqos h
    | some nb => exact sendPacket_excess_eq_zero_iff hqos h
  | tlpTxIRPCompleteEx k => exact tlpTxIRPCompleteEx_excess_eq_zero_iff hqos h hs
  | usbTxPacketEx nbs =>
    cases hs
    exact iff_of_true h trivial
  | usbTxTurn j aborted pool mem irp device =>
    exact iff_of_true ((usbTxTurn_excess hqos hs).trans h) trivial
  | txIRPCompleteEx k => exact iff_of_true ((txIRPCompleteEx_excess hqos hs).trans h) trivial

/-! ## Runs -/

/-- The count is right in every state of a run exactly if every step keeps it. -/
theorem visits_balanced_iff (numItems : Nat) (ops : List Op) :
    (∀ t ∈ (pendingMachine a).visits (.initial a numItems) ops, t.Balanced) ↔
      ∀ p ∈ (pendingMachine a).fires (.initial a numItems) ops, p.2.Counts a p.1 := by
  have hstep : ∀ s op s' o, s.Balanced → pendingMachine a s op = some (s', o) →
      (s'.Balanced ↔ op.Counts a s) := by
    intro s op s' o hbalanced hs
    obtain ⟨t, ht, heq⟩ := Option.map_eq_some_iff.mp hs
    cases heq
    exact step_balanced_iff hqos hbalanced ht
  exact Machine.visits_iff_fires hstep (initial_balanced a numItems)

end

instance (s : State) : Decidable s.Balanced :=
  inferInstanceAs (Decidable (s.qosPendingPackets = s.inFlight.length))

instance (item : TlpBufItem) (device : Bool) : Decidable (State.Departs item device) :=
  inferInstanceAs (Decidable (device = true ∨ item.packetList = []))

instance (a : Tlp.Adapter) (s : State) (op : Op) : Decidable (op.Counts a s) := by
  unfold Op.Counts
  split
  · split <;> infer_instance
  all_goals infer_instance

/-- A packet of one byte. -/
def bytePacket (entry : Nat) : Nb := ⟨entry, some ⟨[⟨[0x45], true⟩], 0, 1, by decide⟩⟩

def qosAdapter (mpQuickTx : Bool) : Tlp.Adapter :=
  ⟨.tlp, 0, 0, 100, mpQuickTx, true, 0, false, false, false⟩

/-- A packet goes out with an item while another is given an IRP. -/
def bothPaths : List Op :=
  [.tlpTxPacketEx 0 (some (bytePacket 1)) false true, .usbTxPacketEx [bytePacket 2],
    .usbTxTurn 0 false (some 0) (fun _ => 0) true true, .tlpTxPacketEx 0 none false true,
    .tlpTxIRPCompleteEx 0, .txIRPCompleteEx 0]

theorem visits_balanced_quick :
    (∀ p ∈ (pendingMachine (qosAdapter true)).fires (.initial (qosAdapter true) 1) bothPaths,
      p.2.Counts (qosAdapter true) p.1) ∧
    ∀ t ∈ (pendingMachine (qosAdapter true)).visits (.initial (qosAdapter true) 1) bothPaths,
      t.Balanced :=
  ⟨by decide +kernel, (visits_balanced_iff rfl 1 bothPaths).mpr (by decide +kernel)⟩

/-- Without `MPQuickTx` the packet of the item is counted down twice. -/
theorem not_visits_balanced_slow :
    ¬ ∀ t ∈ (pendingMachine (qosAdapter false)).visits (.initial (qosAdapter false) 1) bothPaths,
      t.Balanced := by
  intro hall
  have hlast := hall _ (List.getLast_mem (List.ne_nil_of_mem (Machine.start_mem_visits _ _)))
  revert hlast
  decide +kernel

end Ndis.QosPending
