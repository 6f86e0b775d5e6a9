-- SUMMARY: What the aggregator does with a packet, and exactly when one that is not sent leaves no trace.
import QcomUsb.Ndis.DataPacket
import QcomUsb.Ndis.TlpQueue
import QcomUsb.Ndis.TxLock

/-!
# Packets that are not sent

`MPUSB_TLPTxPacketEx` gives up a packet whose list is aborted, that it cannot read, or that finds no
room, and answers some packets of an Ethernet link itself. The entry it is called for has been taken
off its list, and still names the neighbours it had there. A packet is far shorter than 2 GB.
-/

namespace Ndis.TxUnsent

open IntrusiveList Memory

variable {ν ι κ : Type}

/-! ## The packet and the item -/

/-- `MPUSB_PreparePacket`: the memory and the length without the Ethernet header, or nothing for
`FALSE`. -/
def preparePacket (a : Tlp.Adapter) (mem : Nat → UInt8) (ethPkt length : Nat) :
    Option ((Nat → UInt8) × Nat) :=
  let dataPtr := ethPkt + a.qosLen
  let ethLen := length - a.qosLen
  let etherType := Transport.beWord (fun i => mem (dataPtr + i)) 12
  let strip := (copyIn mem dataPtr (slice mem (dataPtr + 14) (ethLen - 14)), length - 14)
  if etherType = 0x0800 then (if a.ipv4 then some strip else none)
  else if etherType = 0x86dd then (if a.ipv6 then some strip else none)
  -- an ARP request is answered, and what is unknown is dropped
  else none

/-- `MPUSB_RetriveDataPacket` copies the packet to where it goes in the item. -/
def retrive (a : Tlp.Adapter) (item : Tlp.Item) (nb : DataPacket.NetBuffer) :
    DataPacket.Retrieved :=
  DataPacket.retriveDataPacket a nb (some (item.usbBuffer a)) none item.buffer

/-- The packet in the buffer of the item, prepared on an Ethernet link. -/
def prepare (a : Tlp.Adapter) (item : Tlp.Item) (nb : DataPacket.NetBuffer) :
    Option ((Nat → UInt8) × Nat) :=
  let r := retrive a item nb
  let sendBytes := r.length + a.qosLen
  if a.stripEthernet then preparePacket a r.mem (item.usbBuffer a) sendBytes
  else some (r.mem, sendBytes)

/-- The packet becomes part of the item. -/
def putIn (a : Tlp.Adapter) (flowId : UInt32) (ntbSequence : UInt16) (item : Tlp.Item)
    (nb : DataPacket.NetBuffer) : Tlp.Item :=
  let usb := item.usbBuffer a
  let r := retrive a item nb
  -- what is processed locally goes the same way, as it is
  let (mem, sendBytes) := (prepare a item nb).getD (r.mem, r.length + a.qosLen)
  let framed := Tlp.Item.frame a ntbSequence { item with buffer := mem } usb sendBytes
  { framed.write usb (Tlp.qosHeader a flowId) with
    aggregationCount := item.aggregationCount + 1
    accepted := item.accepted ++ [Tlp.acceptedPacket a nb.data] }

/-- What becomes of a packet. -/
inductive Verdict
  | noBuffer
  /-- Its list is aborted, or `MPUSB_QueryDataPacket` cannot read it. -/
  | refused
  | noRoom (length : Nat)
  | unreadable (length : Nat) (mem : Nat → UInt8)
  | taken (item : Tlp.Item) (length : Nat) (answered : Bool)

/-- The decisions of `MPUSB_TLPTxPacketEx` about a packet, with the item it took off the queue. -/
def verdict (a : Tlp.Adapter) (flowId : UInt32) (ntbSequence : UInt16) (tlpItem : Option Tlp.Item)
    (aborted : Bool) (nb : Option DataPacket.NetBuffer) : Verdict :=
  match nb with
  | none => .noBuffer
  | some nb =>
    let length := DataPacket.queryDataPacket a nb
    if aborted ∨ length = 0 then .refused
    else
      match tlpItem.filter fun item => Tlp.Item.Fits a item (length + a.qosLen) with
      | none => .noRoom length
      | some item =>
        let r := retrive a item nb
        if r.pktBuf = none then .unreadable length r.mem
        else .taken (putIn a flowId ntbSequence item nb) r.length (prepare a item nb).isNone

/-- The packet goes out with the item. -/
def Verdict.Sent : Verdict → Prop
  | .taken _ _ answered => answered = false
  | _ => False

/-- `MPUSB_PreparePacket` returned `FALSE`. -/
def Verdict.AnsweredLocally : Verdict → Prop
  | .taken _ _ answered => answered = true
  | _ => False

/-! ## The call -/

/-- `MPUSB_TX_CONTEXT_NB`: its `List` entry, its net buffer, the context of its list and its index
there. -/
structure NbContext (ν : Type) where
  entry : ν
  nb : Option DataPacket.NetBuffer
  nbl : ν
  index : Nat

/-- The adapter, whose links join the net buffers, and the items. The queue of free items is a list
of its own. An observer keeps the packets that were put into an item. -/
structure State (ν ι : Type) where
  adapter : TxLock.Adapter ν
  txBusyList : ν
  uplinkFreeBufferQueue : List ι
  item : ι → Tlp.Item
  packetList : ι → ν
  ntbSequence : Nat
  inUsb : List ι
  dataLength : ν → Nat
  txFramesDropped : ν → Nat
  taken : List ν

namespace State

variable [DecidableEq ν] [DecidableEq ι]

/-- The context of a list changes. -/
def setContext (s : State ν ι) (nbl : ν) (f : TxLock.TxContextNbl → TxLock.TxContextNbl) :
    State ν ι :=
  { s with adapter := { s.adapter with
      context := Function.update s.adapter.context nbl (f (s.adapter.context nbl)) } }

/-- The item at the head of the queue is taken. -/
def popItem (s : State ν ι) : State ν ι :=
  { s with uplinkFreeBufferQueue := s.uplinkFreeBufferQueue.tail }

/-- `NumProcessed` of the packet's list is increased. -/
def countProcessed (s : State ν ι) (c : NbContext ν) : State ν ι :=
  s.setContext c.nbl fun nbl => { nbl with numProcessed := nbl.numProcessed + 1 }

/-- `DataLength` of the packet's context is set. -/
def setLength (s : State ν ι) (c : NbContext ν) (length : Nat) : State ν ι :=
  { s with dataLength := Function.update s.dataLength c.entry length }

/-- The buffer of an item is written to. -/
def setBuffer (s : State ν ι) (i : ι) (mem : Nat → UInt8) : State ν ι :=
  { s with item := Function.update s.item i { s.item i with buffer := mem } }

/-- The net buffer's list gets the status `NDIS_STATUS_SUCCESS`, and `MP_TxIRPCompleteEx` completes
the net buffer without an IRP. -/
def complete (s : State ν ι) (c : NbContext ν) : Option (State ν ι) :=
  let s := s.setContext c.nbl fun nbl => { nbl with ndisStatus := TxLock.ndisStatusSuccess }
  (s.adapter.txIRPCompleteEx s.txBusyList 0 false c.nbl c.index true).map fun adapter =>
    { s with adapter := adapter }

/-- The entry is taken out of the `PacketList` it may be on. -/
def unlink (a : Tlp.Adapter) (s : State ν ι) (entry : ν) : State ν ι :=
  if a.mpQuickTx then s
  else { s with adapter := { s.adapter with links := s.adapter.links.removeEntryList entry } }

/-- `Tx_Exit` with `kicker` set. -/
def txExit (a : Tlp.Adapter) (s : State ν ι) (pList : Option (NbContext ν)) (tlpItem : Option ι) :
    Option (State ν ι) :=
  let completed :=
    match pList with
    | none => some s
    | some c => (s.unlink a c.entry).complete c
  completed.map fun s =>
    { s with uplinkFreeBufferQueue := tlpItem.toList ++ s.uplinkFreeBufferQueue }

/-- From `PrepareIrp` on. -/
def prepareIrp (a : Tlp.Adapter) (s : State ν ι) (pList : Option (NbContext ν))
    (tlpItem : Option ι) : Option (State ν ι) :=
  match tlpItem with
  | none => s.txExit a pList none
  | some i =>
    if (s.item i).dataLength = 0 then s.txExit a pList (some i)
    else some { s with
      item := Function.update s.item i ((s.item i).seal a)
      inUsb := s.inUsb ++ [i] }

/-- `Completed` and `TxFramesDropped` of a packet that is dropped. -/
def dropFrame (s : State ν ι) (c : NbContext ν) : State ν ι :=
  let s := s.setContext c.nbl fun nbl => { nbl with completed := nbl.completed.set c.index true }
  { s with txFramesDropped := Function.update s.txFramesDropped c.nbl (s.txFramesDropped c.nbl + 1) }

/-- The item has taken the packet, which goes on the item's `PacketList` unless `MPQuickTx`. -/
def takeIn (a : Tlp.Adapter) (s : State ν ι) (c : NbContext ν) (i : ι) (taken : Tlp.Item) :
    State ν ι :=
  let links := s.adapter.links
  { s with
    adapter := { s.adapter with
      links := if a.mpQuickTx then links else links.insertTailList (s.packetList i) c.entry }
    item := Function.update s.item i taken
    ntbSequence := if a.mode = .mbim ∧ (s.item i).currentPtr = 0 then
      Tlp.nextSequence s.ntbSequence else s.ntbSequence
    taken := s.taken ++ [c.entry] }

/-- The item stays at the head of the queue or is sent. Under `MPQuickTx` the packet is completed
before. -/
def keepOrSend (a : Tlp.Adapter) (s : State ν ι) (c : NbContext ν) (i : ι) :
    Option (State ν ι) :=
  let stays := decide (Tlp.Item.Stays a (s.item i))
  let s := if stays then { s with uplinkFreeBufferQueue := i :: s.uplinkFreeBufferQueue } else s
  (if a.mpQuickTx then s.complete c else some s).bind fun s =>
    if stays then some s else s.prepareIrp a (some c) (some i)

/-- The decisions about the packet, in a state. -/
def verdict (a : Tlp.Adapter) (flowId : UInt32) (s : State ν ι) (c : NbContext ν) : Verdict :=
  TxUnsent.verdict a flowId (UInt16.ofNat s.ntbSequence) (s.uplinkFreeBufferQueue.head?.map s.item)
    (s.adapter.context c.nbl).abortFlag c.nb

/-- `MPUSB_TLPTxPacketEx` for a packet. -/
def process (a : Tlp.Adapter) (flowId : UInt32) (s : State ν ι) (c : NbContext ν) :
    Option (State ν ι) :=
  let t := s.popItem.countProcessed c
  match s.verdict a flowId c, s.uplinkFreeBufferQueue.head? with
  | .noBuffer, tlpItem => s.popItem.txExit a (some c) tlpItem
  | .refused, tlpItem => (t.dropFrame c).txExit a (some c) tlpItem
  | .noRoom length, tlpItem => (t.setLength c length).txExit a (some c) tlpItem
  | .unreadable length mem, some i =>
    (((t.setLength c length).setBuffer i mem).dropFrame c).txExit a (some c) (some i)
  | .taken item length answered, some i =>
    let t := t.setLength c length
    let t := if answered then t.dropFrame c else t
    (t.takeIn a c i item).keepOrSend a c i
  -- a packet finds no room without an item
  | _, none => none

/-- `MPUSB_TLPTxPacketEx`. -/
def tlpTxPacketEx (a : Tlp.Adapter) (flowId : UInt32) (s : State ν ι)
    (pList : Option (NbContext ν)) : Option (State ν ι) :=
  match pList with
  | none => s.popItem.prepareIrp a none s.uplinkFreeBufferQueue.head?
  | some c => s.process a flowId c

def Aborted (s : State ν ι) (c : NbContext ν) : Prop := (s.adapter.context c.nbl).abortFlag = true

end State

/-! ## What is not sent -/

/-- The status a list is completed with, once all of its net buffers are back. -/
def reported (nbl : TxLock.TxContextNbl) : TxLock.NdisStatus :=
  if nbl.abortFlag then TxLock.ndisStatusRequestAborted else nbl.ndisStatus

/-- No packet was put into the item. -/
structure Untouched (item item' : Tlp.Item) : Prop where
  dataLength : item'.dataLength = item.dataLength
  currentPtr : item'.currentPtr = item.currentPtr
  remainingCapacity : item'.remainingCapacity = item.remainingCapacity
  aggregationCount : item'.aggregationCount = item.aggregationCount

/-- A call for a packet that is not sent: nothing of it enters an item, its list gets a status other
than success unless it is answered locally, and the lists hold what they held. -/
structure NoTrace [DecidableEq ν] [DecidableEq ι] (heads : κ → ν) (live : κ → Prop)
    (contents : κ → List ν) (a : Tlp.Adapter) (flowId : UInt32) (c : NbContext ν)
    (s s' : State ν ι) : Prop where
  taken : s'.taken = s.taken
  untouched : ∀ i, Untouched (s.item i) (s'.item i)
  failure : ¬ (s.verdict a flowId c).AnsweredLocally →
    reported (s'.adapter.context c.nbl) ≠ TxLock.ndisStatusSuccess ∧
    ∃ new, s'.adapter.completions = s.adapter.completions ++ new ∧
      ∀ x ∈ new, x.status ≠ TxLock.ndisStatusSuccess
  lists : s'.adapter.links.HoldsAll heads live contents
  queue : s'.uplinkFreeBufferQueue = s.uplinkFreeBufferQueue

/-! ## A completion -/

variable [DecidableEq ν] [DecidableEq ι] {a : Tlp.Adapter} {s s' t : State ν ι} {c : NbContext ν}
  {flowId : UInt32} {heads : κ → ν} {live : κ → Prop} {contents : κ → List ν}

/-- The status that a net buffer's list gets at an exit. -/
def State.exitStatus (s : State ν ι) (c : NbContext ν) : TxLock.NdisStatus :=
  if (s.adapter.context c.nbl).abortFlag then TxLock.ndisStatusRequestAborted
  else TxLock.ndisStatusSuccess

/-- The net buffer was completed. -/
structure Completed (c : NbContext ν) (s s' : State ν ι) : Prop where
  links : s'.adapter.links = s.adapter.links
  item : s'.item = s.item
  queue : s'.uplinkFreeBufferQueue = s.uplinkFreeBufferQueue
  taken : s'.taken = s.taken
  status : reported (s'.adapter.context c.nbl) = s.exitStatus c
  completions : ∃ new, s'.adapter.completions = s.adapter.completions ++ new ∧
    ∀ x ∈ new, x.status = s.exitStatus c

omit [DecidableEq ι] in
theorem complete_spec (s : State ν ι) (c : NbContext ν) :
    ∃ s', s.complete c = some s' ∧ Completed c s s' := by
  simp only [State.complete]
  generalize hsuccess : s.setContext c.nbl _ = t
  obtain ⟨adapter, hadapter, hreturned⟩ :=
    TxLock.txIRPCompleteEx_noIrp t.adapter t.txBusyList c.nbl c.index true
  rw [hadapter]
  have hstatus : (if (t.adapter.context c.nbl).abortFlag then TxLock.ndisStatusRequestAborted
      else (t.adapter.context c.nbl).ndisStatus) = s.exitStatus c := by
    simp [← hsuccess, State.setContext, State.exitStatus]
  refine ⟨_, rfl, ?_, ?_, ?_, ?_, ?_, ?_⟩
  · rw [hreturned.links, ← hsuccess]
    rfl
  · rw [← hsuccess]
    rfl
  · rw [← hsuccess]
    rfl
  · rw [← hsuccess]
    rfl
  · rw [← hstatus, reported, hreturned.abortFlag, hreturned.ndisStatus]
  · obtain ⟨new, hnew, hall⟩ := hreturned.completions
    refine ⟨new, ?_, fun x hx => (hall x hx).trans hstatus⟩
    rw [hnew, ← hsuccess]
    rfl

/-! ## The exits -/

/-- On the way to an exit nothing of this changes. -/
structure Kept (c : NbContext ν) (s t : State ν ι) : Prop where
  links : t.adapter.links = s.adapter.links
  completions : t.adapter.completions = s.adapter.completions
  exitStatus : t.exitStatus c = s.exitStatus c
  untouched : ∀ i, Untouched (s.item i) (t.item i)
  taken : t.taken = s.taken

theorem Untouched.refl (item : Tlp.Item) : Untouched item item := ⟨rfl, rfl, rfl, rfl⟩

omit [DecidableEq ν] [DecidableEq ι] in
theorem popItem_kept (c : NbContext ν) (s : State ν ι) : Kept c s s.popItem :=
  ⟨rfl, rfl, rfl, fun i => .refl (s.item i), rfl⟩

omit [DecidableEq ι] in
theorem Kept.setContext (h : Kept c s t) {f : TxLock.TxContextNbl → TxLock.TxContextNbl}
    (habort : ∀ nbl, (f nbl).abortFlag = nbl.abortFlag) : Kept c s (t.setContext c.nbl f) := by
  refine ⟨h.links, h.completions, ?_, h.untouched, h.taken⟩
  rw [← h.exitStatus]
  simp [State.exitStatus, State.setContext, habort]

omit [DecidableEq ι] in
theorem Kept.countProcessed (h : Kept c s t) : Kept c s (t.countProcessed c) :=
  h.setContext fun _ => rfl

omit [DecidableEq ι] in
theorem Kept.setLength (h : Kept c s t) (length : Nat) : Kept c s (t.setLength c length) :=
  ⟨h.links, h.completions, h.exitStatus, h.untouched, h.taken⟩

omit [DecidableEq ν] in
theorem Kept.setBuffer (h : Kept c s t) (i : ι) (mem : Nat → UInt8) :
    Kept c s (t.setBuffer i mem) := by
  refine ⟨h.links, h.completions, h.exitStatus, fun j => ?_, h.taken⟩
  by_cases hj : j = i
  · subst hj
    simp only [State.setBuffer, Function.update_self]
    exact ⟨(h.untouched j).dataLength, (h.untouched j).currentPtr, (h.untouched j).remainingCapacity,
      (h.untouched j).aggregationCount⟩
  · simp only [State.setBuffer, Function.update_of_ne hj]
    exact h.untouched j

omit [DecidableEq ι] in
theorem Kept.dropFrame (h : Kept c s t) : Kept c s (t.dropFrame c) := by
  have hcounted : Kept c s (t.setContext c.nbl fun nbl =>
      { nbl with completed := nbl.completed.set c.index true }) := h.setContext fun _ => rfl
  exact ⟨hcounted.links, hcounted.completions, hcounted.exitStatus, hcounted.untouched,
    hcounted.taken⟩

/-- The unlinking of an exit keeps the lists under this condition. -/
def State.Unlinks (heads : κ → ν) (live : κ → Prop) (contents : κ → List ν) (a : Tlp.Adapter)
    (s : State ν ι) (c : NbContext ν) : Prop :=
  a.mpQuickTx = true ∨ ∀ k, live k → s.adapter.links.Rejoins (heads k) (contents k) c.entry

omit [DecidableEq ι] in
theorem unlink_holdsAll_iff (h : s.adapter.links.HoldsAll heads live contents)
    (hlinks : t.adapter.links = s.adapter.links) :
    (t.unlink a c.entry).adapter.links.HoldsAll heads live contents ↔
      s.Unlinks heads live contents a c := by
  unfold State.unlink State.Unlinks
  split
  · rename_i hquick
    rw [hlinks]
    exact iff_of_true h (.inl hquick)
  · rename_i hslow
    rw [or_iff_right hslow, ← h.removeEntryList_iff_rejoins, ← hlinks]

/-- A call that comes to the exit leaves no trace exactly if the list is aborted and the unlinking
keeps the lists. -/
theorem txExit_noTrace_iff {tlpItem : Option ι} (h : s.adapter.links.HoldsAll heads live contents)
    (hkept : Kept c s t)
    (hqueue : tlpItem.toList ++ t.uplinkFreeBufferQueue = s.uplinkFreeBufferQueue)
    (hanswered : ¬ (s.verdict a flowId c).AnsweredLocally) :
    ∃ s', t.txExit a (some c) tlpItem = some s' ∧
      (NoTrace heads live contents a flowId c s s' ↔
        s.Aborted c ∧ s.Unlinks heads live contents a c) := by
  obtain ⟨u, hu, hdone⟩ := complete_spec (t.unlink a c.entry) c
  have hunlink : (t.unlink a c.entry).item = t.item ∧ (t.unlink a c.entry).taken = t.taken ∧
      (t.unlink a c.entry).uplinkFreeBufferQueue = t.uplinkFreeBufferQueue ∧
      (t.unlink a c.entry).adapter.completions = t.adapter.completions ∧
      (t.unlink a c.entry).exitStatus c = t.exitStatus c := by
    unfold State.unlink
    split <;> exact ⟨rfl, rfl, rfl, rfl, rfl⟩
  obtain ⟨hitem, htaken, hfree, hcompletions, hstatus⟩ := hunlink
  have hstatus : (t.unlink a c.entry).exitStatus c = s.exitStatus c :=
    hstatus.trans hkept.exitStatus
  have hlists : u.adapter.links.HoldsAll heads live contents ↔
      s.Unlinks heads live contents a c := by
    rw [hdone.links]
    exact unlink_holdsAll_iff h hkept.links
  refine ⟨{ u with uplinkFreeBufferQueue := tlpItem.toList ++ u.uplinkFreeBufferQueue }, ?_, ?_⟩
  · simp only [State.txExit, hu, Option.map_some]
  constructor
  · intro hno
    refine ⟨?_, hlists.mp hno.lists⟩
    have hfailed := (hno.failure hanswered).1
    rw [hdone.status, hstatus, State.exitStatus] at hfailed
    by_contra habort
    rw [State.Aborted] at habort
    simp [habort] at hfailed
  · rintro ⟨habort, hunlinks⟩
    have hfailed : s.exitStatus c ≠ TxLock.ndisStatusSuccess := by
      rw [State.Aborted] at habort
      rw [State.exitStatus, habort]
      decide
    refine ⟨?_, ?_, fun _ => ⟨?_, ?_⟩, hlists.mpr hunlinks, ?_⟩
    · exact hdone.taken.trans (htaken.trans hkept.taken)
    · intro i
      simp only [hdone.item, hitem]
      exact hkept.untouched i
    · rw [hdone.status, hstatus]
      exact hfailed
    · obtain ⟨new, hnew, hall⟩ := hdone.completions
      refine ⟨new, ?_, fun x hx => ?_⟩
      · rw [hnew, hcompletions, hkept.completions]
      · rw [hall x hx, hstatus]
        exact hfailed
    · rw [← hqueue, hdone.queue, hfree]

/-! ## The packet in an item -/

omit [DecidableEq ι] in
theorem txExit_taken (a : Tlp.Adapter) (s : State ν ι) (c : NbContext ν) (tlpItem : Option ι) :
    ∃ s', s.txExit a (some c) tlpItem = some s' ∧ s'.taken = s.taken := by
  obtain ⟨u, hu, hdone⟩ := complete_spec (s.unlink a c.entry) c
  have htaken : (s.unlink a c.entry).taken = s.taken := by
    unfold State.unlink
    split <;> rfl
  refine ⟨{ u with uplinkFreeBufferQueue := tlpItem.toList ++ u.uplinkFreeBufferQueue }, ?_, ?_⟩
  · simp only [State.txExit, hu, Option.map_some]
  · exact hdone.taken.trans htaken

theorem prepareIrp_taken (a : Tlp.Adapter) (s : State ν ι) (c : NbContext ν) (i : ι) :
    ∃ s', s.prepareIrp a (some c) (some i) = some s' ∧ s'.taken = s.taken := by
  unfold State.prepareIrp
  dsimp only
  split
  · exact txExit_taken a s c (some i)
  · exact ⟨_, rfl, rfl⟩

theorem keepOrSend_taken (a : Tlp.Adapter) (s : State ν ι) (c : NbContext ν) (i : ι) :
    ∃ s', s.keepOrSend a c i = some s' ∧ s'.taken = s.taken := by
  simp only [State.keepOrSend]
  generalize hqueue : (if decide (Tlp.Item.Stays a (s.item i)) = true then _ else s) = t
  have htaken : t.taken = s.taken := by
    rw [← hqueue]
    split <;> rfl
  have hcompleted : ∃ u, (if a.mpQuickTx = true then t.complete c else some t) = some u ∧
      u.taken = t.taken := by
    split
    · obtain ⟨u, hu, hdone⟩ := complete_spec t c
      exact ⟨u, hu, hdone.taken⟩
    · exact ⟨t, rfl, rfl⟩
  obtain ⟨u, hu, hsame⟩ := hcompleted
  rw [hu, Option.bind_some]
  split
  · exact ⟨u, rfl, hsame.trans htaken⟩
  · obtain ⟨s', hs', hlast⟩ := prepareIrp_taken a u c i
    exact ⟨s', hs', hlast.trans (hsame.trans htaken)⟩

/-- The packet was copied to an item. -/
def Verdict.FoundItem : Verdict → Prop
  | .unreadable _ _ | .taken _ _ _ => True
  | _ => False

omit [DecidableEq ν] [DecidableEq ι] in
theorem exists_head_of_foundItem (h : (s.verdict a flowId c).FoundItem) :
    ∃ i, s.uplinkFreeBufferQueue.head? = some i := by
  cases hhead : s.uplinkFreeBufferQueue.head? with
  | some i => exact ⟨i, rfl⟩
  | none =>
    rw [State.verdict, hhead, Option.map_none, verdict.eq_def] at h
    split at h
    · exact False.elim h
    · simp only [Option.filter_none] at h
      split at h <;> exact False.elim h

/-- A packet of a list that is aborted is not put into an item. -/
theorem aborted_of_verdict_taken {ntbSequence : UInt16} {tlpItem : Option Tlp.Item} {aborted : Bool}
    {nb : Option DataPacket.NetBuffer} {item : Tlp.Item} {length : Nat} {answered : Bool}
    (h : verdict a flowId ntbSequence tlpItem aborted nb = .taken item length answered) :
    aborted = false := by
  unfold verdict at h
  split at h
  · cases h
  · simp only at h
    split at h
    · cases h
    · rename_i hread
      exact Bool.eq_false_of_not_eq_true fun habort => hread (.inl habort)

omit [DecidableEq ν] [DecidableEq ι] in
theorem head_append_tail (queue : List ι) : queue.head?.toList ++ queue.tail = queue := by
  cases queue <;> rfl

omit [DecidableEq ν] [DecidableEq ι] in
/-- What `MPUSB_PreparePacket` does on an Ethernet link, as the model of the item has it. -/
theorem preparePacket_eq (hlink : a.stripEthernet = true) (mem : Nat → UInt8)
    (ethPkt length : Nat) :
    preparePacket a mem ethPkt length =
      if Tlp.strips a fun i => mem (ethPkt + a.qosLen + i) then
        some (copyIn mem (ethPkt + a.qosLen)
          (slice mem (ethPkt + a.qosLen + 14) (length - a.qosLen - 14)), length - 14)
      else none := by
  simp only [preparePacket, Tlp.strips, hlink, Bool.true_and]
  generalize Transport.beWord (fun i => mem (ethPkt + a.qosLen + i)) 12 = etherType
  by_cases hv4 : etherType = 0x0800
  · subst hv4
    cases a.ipv4 <;> simp
  · by_cases hv6 : etherType = 0x86dd
    · subst hv6
      cases a.ipv6 <;> simp
    · simp [hv4, hv6]

omit [DecidableEq ν] [DecidableEq ι] in
/-- A packet that can be read, and is not answered here, is put in as the model of the item does. -/
theorem putIn_eq_fill {nb : DataPacket.NetBuffer} (flowId : UInt32) (ntbSequence : UInt16)
    (item : Tlp.Item) (h : nb.InChain) (hlength : nb.dataLength ≠ 0)
    (hmapped : ∀ mdl ∈ nb.mdls, mdl.mapped) (hsize : nb.dataLength + a.qosLen < 2 ^ 32)
    (hsent : prepare a item nb ≠ none)
    (hfits : Tlp.Item.Fits a item (nb.data.length + a.qosLen + a.qosLen)) :
    item.fill a ntbSequence ⟨nb.data, false, flowId⟩ =
      some (putIn a flowId ntbSequence item nb) := by
  obtain ⟨hmem, hlen⟩ : (retrive a item nb).mem = _ ∧ (retrive a item nb).length = _ :=
    DataPacket.retrive_into_item item (item.usbBuffer a) h hlength hmapped hsize
  -- the packet lies in the buffer as the model of the item puts it there
  have hplaced : prepare a item nb = some ((item.placePacket a (item.usbBuffer a) nb.data).1.buffer,
      (item.placePacket a (item.usbBuffer a) nb.data).2) := by
    cases hlink : a.stripEthernet with
    | false =>
      simp [prepare, Tlp.Item.placePacket, Tlp.strips, hlink, hmem, hlen]
    | true =>
      unfold prepare at hsent ⊢
      simp only [hlink, ↓reduceIte, hmem, hlen, preparePacket_eq hlink] at hsent ⊢
      simp only [Tlp.Item.placePacket]
      split
      · rfl
      · rename_i hstrips
        rw [if_neg hstrips] at hsent
        exact absurd rfl hsent
  have hbuffer : (item.placePacket a (item.usbBuffer a) nb.data).1 =
      { item with buffer := (item.placePacket a (item.usbBuffer a) nb.data).1.buffer } := by
    simp only [Tlp.Item.placePacket]
    split <;> rfl
  simp only [Tlp.Item.fill, if_pos hfits, putIn, hplaced, Option.getD_some]
  rw [← hbuffer]

/-! ## One call -/

/-- Only a packet whose list is aborted leaves no trace, and without `MPQuickTx` only if the
neighbours its entry still names are neighbours on their list. -/
theorem process_noTrace_iff (a : Tlp.Adapter) (flowId : UInt32) (c : NbContext ν)
    (h : s.adapter.links.HoldsAll heads live contents) :
    ∃ s', s.process a flowId c = some s' ∧
      (NoTrace heads live contents a flowId c s s' ↔
        s.Aborted c ∧ s.Unlinks heads live contents a c) := by
  have hqueue := head_append_tail s.uplinkFreeBufferQueue
  have hcounted : Kept c s (s.popItem.countProcessed c) := (popItem_kept c s).countProcessed
  have hanswered : ∀ v, s.verdict a flowId c = v → ¬ v.AnsweredLocally →
      ¬ (s.verdict a flowId c).AnsweredLocally := by
    intro v hv hnot
    rwa [hv]
  unfold State.process
  cases hverdict : s.verdict a flowId c with
  | noBuffer =>
    exact txExit_noTrace_iff h (popItem_kept c s) hqueue (hanswered _ hverdict id)
  | refused =>
    exact txExit_noTrace_iff h hcounted.dropFrame hqueue (hanswered _ hverdict id)
  | noRoom length =>
    exact txExit_noTrace_iff h (hcounted.setLength length) hqueue (hanswered _ hverdict id)
  | unreadable length mem =>
    have hfound : (s.verdict a flowId c).FoundItem := by
      rw [hverdict]
      trivial
    obtain ⟨i, hi⟩ := exists_head_of_foundItem hfound
    rw [hi] at hqueue ⊢
    exact txExit_noTrace_iff h ((hcounted.setLength length).setBuffer i mem).dropFrame hqueue
      (hanswered _ hverdict id)
  | taken item length answered =>
    have hfree := aborted_of_verdict_taken hverdict
    have hfound : (s.verdict a flowId c).FoundItem := by
      rw [hverdict]
      trivial
    obtain ⟨i, hi⟩ := exists_head_of_foundItem hfound
    rw [hi]
    simp only
    generalize ht : (if answered = true then _ else _) = t
    have hkept : t.taken = s.taken := by
      rw [← ht]
      split
      · exact ((hcounted.setLength length).dropFrame).taken
      · exact (hcounted.setLength length).taken
    obtain ⟨s', hs', htaken⟩ := keepOrSend_taken a (t.takeIn a c i item) c i
    refine ⟨s', hs', iff_of_false (fun hno => ?_) fun hgood => ?_⟩
    -- the entry is among those that were put into an item
    · have hnew : s'.taken = t.taken ++ [c.entry] := htaken
      rw [hno.taken, hkept] at hnew
      exact absurd hnew (by simp)
    · rw [State.Aborted, hfree] at hgood
      exact Bool.noConfusion hgood.1

/-- A packet that is not sent leaves no trace exactly if its list is aborted and the exit keeps the
lists. -/
theorem unsent_noTrace_iff (a : Tlp.Adapter) (flowId : UInt32) (c : NbContext ν)
    (h : s.adapter.links.HoldsAll heads live contents) :
    ∃ s', s.tlpTxPacketEx a flowId (some c) = some s' ∧
      ((¬ (s.verdict a flowId c).Sent → NoTrace heads live contents a flowId c s s') ↔
        (s.verdict a flowId c).Sent ∨ (s.Aborted c ∧ s.Unlinks heads live contents a c)) := by
  obtain ⟨s', hs', hiff⟩ := process_noTrace_iff a flowId c h
  exact ⟨s', hs', by rw [hiff, or_iff_not_imp_left]⟩

/-! ## The neighbours of the entry -/

/-! ## An ARP request -/

/-- An ARP request. -/
def arpPacket : NbContext Nat :=
  ⟨1, some ⟨[⟨List.replicate 12 0 ++ [0x08, 0x06] ++ List.replicate 28 0, true⟩], 0, 42, by decide⟩,
    9, 0⟩

/-- An Ethernet link that has an IPv4 address, without `MPQuickTx`. -/
def linkAdapter : Tlp.Adapter := ⟨.tlp, 0, 0, 4096, false, false, 0, true, true, false⟩

/-- Entry 1 has been taken off `TxPendingList`, where entry 2 is left. There is one item. -/
def oneItem (abortFlag : Bool) : State Nat Unit where
  adapter :=
    { links := ((((Links.initializeListHead ⟨id, id⟩ 0).insertTailList 0 1).insertTailList 0
        2).removeHeadList 0)
      context := fun _ => ⟨0, 0, abortFlag, TxLock.ndisStatusSuccess, [false]⟩
      nBusyTx := 1
      lock := .initial
      completions := [] }
  txBusyList := 3
  uplinkFreeBufferQueue := [()]
  item := fun _ => Tlp.Item.initial linkAdapter
  packetList := fun _ => 4
  ntbSequence := 0
  inUsb := []
  dataLength := fun _ => 0
  txFramesDropped := fun _ => 0
  taken := []

/-- The only list that is looked at. -/
theorem oneItem_holdsAll (abortFlag : Bool) :
    (oneItem abortFlag).adapter.links.HoldsAll (fun _ : Unit => 0) (fun _ => True) fun _ => [2] := by
  have hfirst := (Links.holds_initializeListHead (⟨id, id⟩ : Links Nat) 0).insertTailList
    (e := 1) (by decide)
  have hboth := hfirst.insertTailList (e := 2) (by decide)
  refine ⟨fun _ _ => (hboth.removeHeadList).2, fun j k _ _ hne => absurd rfl hne⟩

instance : (v : Verdict) → Decidable v.Sent
  | .taken _ _ answered => inferInstanceAs (Decidable (answered = false))
  | .noBuffer | .refused | .noRoom _ | .unreadable _ _ => inferInstanceAs (Decidable False)

theorem unsent_noTrace_aborted :
    ∃ s', (oneItem true).tlpTxPacketEx linkAdapter 0 (some arpPacket) = some s' ∧
      (¬ ((oneItem true).verdict linkAdapter 0 arpPacket).Sent →
        NoTrace (fun _ : Unit => 0) (fun _ => True) (fun _ => [2]) linkAdapter 0 arpPacket
          (oneItem true) s') := by
  obtain ⟨s', hs', hiff⟩ := unsent_noTrace_iff linkAdapter 0 arpPacket (oneItem_holdsAll true)
  exact ⟨s', hs', hiff.mpr (.inr ⟨rfl, .inr fun () _ => ⟨by decide, by decide⟩⟩)⟩

/-- The bytes of an ARP request that is answered go to USB. -/
theorem not_unsent_noTrace_arp :
    ¬ ∃ s', (oneItem false).tlpTxPacketEx linkAdapter 0 (some arpPacket) = some s' ∧
      (¬ ((oneItem false).verdict linkAdapter 0 arpPacket).Sent →
        NoTrace (fun _ : Unit => 0) (fun _ => True) (fun _ => [2]) linkAdapter 0 arpPacket
          (oneItem false) s') := by
  rintro ⟨s', hs', hno⟩
  have hunsent : ¬ ((oneItem false).verdict linkAdapter 0 arpPacket).Sent := by decide +kernel
  have htaken : ((oneItem false).tlpTxPacketEx linkAdapter 0 (some arpPacket)).map (·.taken) =
      some [1] := by decide +kernel
  rw [hs', Option.map_some, (hno hunsent).taken] at htaken
  exact absurd htaken (by decide)

end Ndis.TxUnsent
