-- SUMMARY: The transmit lists of the miniport in the aggregating modes: pending, flow-controlled, aggregated and in USB.
import QcomUsb.Library.Transition

/-!
# Transmit lists

`MPTX_MiniportSendNetBufferListsEx` puts the net buffers of a list on `TxPendingList`, each for
itself, or on `QMAPFlowControlList` while the flow is off. The MP thread takes them off and copies
them into TLP items, and the completion of an item's IRP finishes them. Cancellations, purges and
clean-ups finish them too. The steps are the regions under `TxLock`, and what a thread does between
two of them. A loop that may let go of the lock takes one step for each entry.
-/

namespace Ndis.Tx

open Transition

/-- A net buffer: the number of its list and its index in the list. -/
structure Nb where
  nbl : Nat
  index : Nat
deriving DecidableEq

/-- The IP versions whose flows `MPMAIN_FlowControlCall` switches off and on. -/
inductive IPVer
  | v4
  | v6
deriving DecidableEq

/-- The fields of an `MPUSB_TX_CONTEXT_NB`. An observer notes that `MP_TxIRPCompleteEx` has run on
it, or that its list was given back as a whole. -/
structure TxContextNb where
  pktIpVer : Option IPVer
  completed : Bool
  finished : Bool
deriving DecidableEq

/-- The fields of an `MPUSB_TX_CONTEXT_NBL`. Nothing sets its `AbortFlag` in these modes. An
observer counts how often `MPUSB_CompleteNetBufferList` was called for it. A context that was freed
keeps its fields. -/
structure TxContextNbl where
  cancelId : Nat
  canceld : Bool
  nbContext : List TxContextNb
  completions : Nat
deriving DecidableEq

/-- The fields of a `TLP_BUF_ITEM` that say whether it has data and whose. -/
structure TlpItem where
  hasData : Bool
  packetList : List Nb
deriving DecidableEq

/-- Where the MP thread is: not sending, about to enter `MPUSB_TLPTxPacketEx` with a net buffer, in
it, about to complete a net buffer, or about to let go of an item, which goes to USB or back. A net
buffer that was taken off `TxPendingList` keeps its link to the entry that followed it. -/
inductive TxThread
  | idle
  | popped (nb : Nb) (flink : Option Nb)
  | processing (nb : Nb) (flink : Option Nb) (item : Option TlpItem)
  | finishing (nb : Nb) (item : Option TlpItem) (send : Bool)
  | letGo (item : TlpItem) (send : Bool)
deriving DecidableEq

/-- The fields of the adapter, the MP thread, and the threads in a cancellation, a completion, a
clean-up or a purge. Once a list operation has followed the link of an entry that is not where the
link says, the lists are not intact and the run ends. An observer keeps the net buffers copied for
USB in order, and the number of unfinished ones each time `MPMAIN_MiniportPause` returned. -/
structure State where
  contexts : List TxContextNbl
  txPendingList : List Nb
  qmapFlowControlList : List Nb
  flowControlList : IPVer → List Nb
  qmapFlowControl : Bool
  flowControl : IPVer → Bool
  numberOfConnections : Nat
  nBusyTx : Int
  uplinkFreeBufferQueue : List TlpItem
  inUsb : List TlpItem
  tx : TxThread
  cancelQueues : List (List Nb)
  completing : List TlpItem
  cleanups : Nat
  purges : Nat
  intact : Bool
  copied : List Nb
  pauses : List Nat

/-- What can happen. A send has its cancel id, the value its fresh context has in `Canceld`, the IP
versions of its net buffers, and whether the context could be allocated. -/
inductive Op
  | send (cancelId : Nat) (canceld : Bool) (versions : List (Option IPVer)) (allocated : Bool)
  | take (ready : Bool)
  | flush
  | takeItem
  | mark
  | accept (stays : Bool)
  | fail
  | finish
  | letGo
  | usbCompletes (k : Nat)
  | completeNext (k : Nat)
  | cancelSend (cancelId : Nat)
  | cancelNext (k : Nat)
  | processPendingTlpEx (ready : Bool)
  | purgeQmap
  | purgeFlow (version : IPVer)
  | cleanup
  | cleanupNext
  | purgeTLP
  | purgeTLPNext
  | qmapFlowControlCall (flowControlled : Bool)
  | flowControlCall (version : IPVer) (flowControlled : Bool)
  | mediaConnect
  | mediaDisconnect (disconnectAll : Bool)
  | pauseReturns

namespace TxContextNbl

/-- A net buffer is marked completed. -/
def setCompleted (c : TxContextNbl) (index : Nat) : TxContextNbl :=
  { c with nbContext := c.nbContext.modify index fun b => { b with completed := true } }

/-- `MPUSB_CompleteNetBufferList`. -/
def complete (c : TxContextNbl) : TxContextNbl := { c with completions := c.completions + 1 }

/-- The list is completed as a whole. -/
def giveBack (c : TxContextNbl) : TxContextNbl :=
  { c.complete with nbContext := c.nbContext.map fun b => { b with finished := true } }

/-- `MP_TxIRPCompleteEx` has run on a net buffer. -/
def setFinished (c : TxContextNbl) (index : Nat) : TxContextNbl :=
  { c with
    nbContext := c.nbContext.modify index fun b => { b with completed := true, finished := true } }

/-- `allReturned`: all net buffers of the list are marked completed. -/
def allReturned (c : TxContextNbl) : Bool := c.nbContext.all (·.completed)

/-- What `MP_TxIRPCompleteEx` does to the context of a net buffer's list. -/
def irpComplete (c : TxContextNbl) (index : Nat) : TxContextNbl :=
  if (c.setFinished index).allReturned then (c.setFinished index).complete
  else c.setFinished index

end TxContextNbl

namespace State

/-- The context of a net buffer. -/
def nbContext? (s : State) (nb : Nb) : Option TxContextNb :=
  s.contexts[nb.nbl]?.bind fun c => c.nbContext[nb.index]?

/-- `MP_TxIRPCompleteEx` without an IRP. -/
def irpComplete (s : State) (nb : Nb) : State :=
  { s with
    contexts := s.contexts.modify nb.nbl (·.irpComplete nb.index)
    nBusyTx := s.nBusyTx - 1 }

/-- The number of net buffers that were accepted and are not finished. -/
def unfinished (s : State) : Nat :=
  (s.contexts.map fun c => c.nbContext.countP (! ·.finished)).sum

/-- The data that is read of a packet to find its IP version: in an NDIS 6 build nothing is. -/
def dataLen : Nat := 0

/-- A packet is of the IP version, as far as the miniport reads it. -/
def isOfVersion (s : State) (version : IPVer) (nb : Nb) : Bool :=
  decide (dataLen > 14) && (s.nbContext? nb).bind (·.pktIpVer) == some version

/-- A net buffer is queued: `MPMAIN_IsFlowControlledData` and `MPMAIN_QMAPIsFlowControlledData` are
asked first. -/
def enqueue (s : State) (nb : Nb) : State :=
  let s := { s with nBusyTx := s.nBusyTx + 1 }
  if s.isOfVersion .v4 nb && s.flowControl .v4 then
    { s with flowControlList :=
        Function.update s.flowControlList .v4 (s.flowControlList .v4 ++ [nb]) }
  else if s.isOfVersion .v6 nb && s.flowControl .v6 then
    { s with flowControlList :=
        Function.update s.flowControlList .v6 (s.flowControlList .v6 ++ [nb]) }
  else if s.qmapFlowControl then
    { s with qmapFlowControlList := s.qmapFlowControlList ++ [nb] }
  else { s with txPendingList := s.txPendingList ++ [nb] }

/-- `MPTX_MiniportSendNetBufferListsEx` for one list. A list without net buffers, or without a
context, is completed at once. -/
def send (s : State) (cancelId : Nat) (canceld : Bool) (versions : List (Option IPVer))
    (allocated : Bool) : State :=
  if versions ≠ [] ∧ allocated then
    let c := ⟨cancelId, canceld, versions.map fun v => ⟨v, false, false⟩, 0⟩
    ((List.range versions.length).map fun index => ⟨s.contexts.length, index⟩).foldl enqueue
      { s with contexts := s.contexts ++ [c] }
  else { s with contexts := s.contexts ++ [⟨cancelId, canceld, [], 1⟩] }

/-- The pass of `MPUSB_TLPProcessPendingTxQueue` over one entry, while there is a TLP item.
`TxBusyList` is empty. -/
def take (s : State) (ready : Bool) : Option State :=
  match s.tx, s.uplinkFreeBufferQueue, s.txPendingList with
  | .idle, _ :: _, nb :: rest =>
    let s := { s with txPendingList := rest }
    if ready then some { s with tx := .popped nb rest.head? }
    else some { s with tx := .finishing nb none false }
  | _, _, _ => none

/-- `MPUSB_TLPTxPacketEx` without a packet: for `TLP_AGG_SEND` and for the timer. -/
def flush (s : State) : Option State :=
  match s.tx, s.uplinkFreeBufferQueue with
  | .idle, item :: rest =>
    some { s with uplinkFreeBufferQueue := rest, tx := .letGo item item.hasData }
  | _, _ => none

/-- `MPUSB_TLPTxPacketEx` obtains a TLP item. -/
def takeItem (s : State) : Option State :=
  match s.tx with
  | .popped nb flink =>
    some { s with
      uplinkFreeBufferQueue := s.uplinkFreeBufferQueue.tail
      tx := .processing nb flink s.uplinkFreeBufferQueue.head? }
  | _ => none

/-- `MPUSB_TLPTxPacketEx` sets `Completed`: the list was aborted, the packet cannot be read, or
`MPUSB_PreparePacket` has processed it. -/
def mark (s : State) : Option State :=
  match s.tx with
  | .processing nb _ _ =>
    some { s with contexts := s.contexts.modify nb.nbl (·.setCompleted nb.index) }
  | _ => none

/-- The packet has been copied into the item, which stays for aggregation or goes to USB. Under
`MPQuickTx` the net buffer is completed now. -/
def accept (quickTx : Bool) (s : State) (stays : Bool) : Option State :=
  match s.tx with
  | .processing nb _ (some item) =>
    let item := ⟨true, if quickTx then item.packetList else item.packetList ++ [nb]⟩
    let s := { s with copied := s.copied ++ [nb] }
    match quickTx, stays with
    | false, true =>
      some { s with uplinkFreeBufferQueue := item :: s.uplinkFreeBufferQueue, tx := .idle }
    | true, true =>
      some { s with
        uplinkFreeBufferQueue := item :: s.uplinkFreeBufferQueue
        tx := .finishing nb none false }
    | false, false => some { s with tx := .letGo item true }
    | true, false => some { s with tx := .finishing nb (some item) true }
  | _ => none

/-- `RemoveEntryList` for an entry that was taken off the head of `TxPendingList` before: the head
is linked with the entry that followed it then. -/
def removeEntryList (s : State) : Option Nb → State
  | none => { s with txPendingList := [] }
  | some next =>
    if next ∈ s.txPendingList then
      { s with txPendingList := s.txPendingList.dropWhile fun nb => nb ≠ next }
    else { s with intact := false }

/-- `MPUSB_TLPTxPacketEx` gives up. -/
def fail (quickTx : Bool) (s : State) : Option State :=
  match s.tx with
  | .processing nb flink item =>
    let s := if quickTx then s else s.removeEntryList flink
    some { s with tx := .finishing nb item false }
  | _ => none

/-- The MP thread calls `MP_TxIRPCompleteEx`. -/
def finish (s : State) : Option State :=
  match s.tx with
  | .finishing nb none _ => some { s.irpComplete nb with tx := .idle }
  | .finishing nb (some item) send => some { s.irpComplete nb with tx := .letGo item send }
  | _ => none

/-- The IRP of an item is sent, or the item goes back to the head of `UplinkFreeBufferQueue`. -/
def letGo (s : State) : Option State :=
  match s.tx with
  | .letGo item true => some { s with inUsb := s.inUsb ++ [item], tx := .idle }
  | .letGo item false =>
    some { s with uplinkFreeBufferQueue := item :: s.uplinkFreeBufferQueue, tx := .idle }
  | _ => none

/-- The IRP of an item completes. -/
def usbCompletes (s : State) (k : Nat) : Option State :=
  s.inUsb[k]?.map fun item =>
    { s with inUsb := s.inUsb.eraseIdx k, completing := s.completing ++ [item] }

/-- The loop of `MPUSB_TLPTxIRPCompleteEx`. -/
def completeNext (s : State) (k : Nat) : Option State :=
  match s.completing[k]? with
  | none => none
  | some ⟨_, []⟩ =>
    some { s with
      completing := s.completing.eraseIdx k
      uplinkFreeBufferQueue := s.uplinkFreeBufferQueue ++ [⟨false, []⟩] }
  | some ⟨hasData, nb :: rest⟩ =>
    some { s.irpComplete nb with completing := s.completing.set k ⟨hasData, rest⟩ }

/-- The walk of `MPTX_MiniportCancelSend` over `TxPendingList`: what stays, what goes to the queue of
the cancellation, and the contexts. An entry of a list that is marked already goes to neither. -/
def cancelWalk (cancelId : Nat) : List Nb → List TxContextNbl →
    List Nb × List Nb × List TxContextNbl
  | [], contexts => ([], [], contexts)
  | nb :: rest, contexts =>
    match contexts[nb.nbl]? with
    | none => cancelWalk cancelId rest contexts
    | some c =>
      if c.canceld then cancelWalk cancelId rest contexts
      else if c.cancelId = cancelId then
        let r := cancelWalk cancelId rest (contexts.set nb.nbl { c with canceld := true })
        (r.1, nb :: r.2.1, r.2.2)
      else
        let r := cancelWalk cancelId rest contexts
        (nb :: r.1, r.2.1, r.2.2)

/-- `MPTX_MiniportCancelSend` under `TxLock`. -/
def cancelSend (s : State) (cancelId : Nat) : State :=
  let r := cancelWalk cancelId s.txPendingList s.contexts
  { s with
    txPendingList := r.1
    cancelQueues := s.cancelQueues ++ [r.2.1]
    contexts := r.2.2 }

/-- The loop of `MPTX_MiniportCancelSend` over its queue. -/
def cancelNext (s : State) (k : Nat) : Option State :=
  match s.cancelQueues[k]? with
  | none => none
  | some [] => some { s with cancelQueues := s.cancelQueues.eraseIdx k }
  | some (nb :: rest) => some { s.irpComplete nb with cancelQueues := s.cancelQueues.set k rest }

/-- The pass of `MPTX_ProcessPendingTxQueueTlpEx` over one entry. A ready one goes to `TxBusyList`,
where it is taken for a list. Otherwise its whole list is completed. -/
def processPendingTlpEx (s : State) (ready : Bool) : Option State :=
  match s.tx, s.txPendingList with
  | .idle, nb :: rest =>
    if ready then some { s with txPendingList := rest, intact := false }
    else
      some { s with txPendingList := rest, contexts := s.contexts.modify nb.nbl (·.giveBack) }
  | _, _ => none

/-- The loop of `MPMAIN_QMAPPurgeFlowControlledPackets`. -/
def purgeQmap (s : State) : Option State :=
  match s.qmapFlowControlList with
  | [] => none
  | nb :: rest =>
    let s := { s with qmapFlowControlList := rest }.irpComplete nb
    some { s with nBusyTx := s.nBusyTx - 1 }

/-- The loops of `MPMAIN_PurgeFlowControlledPackets`. -/
def purgeFlow (s : State) (version : IPVer) : Option State :=
  match s.flowControlList version with
  | [] => none
  | nb :: rest =>
    let s := { s with
      flowControlList := Function.update s.flowControlList version rest }.irpComplete nb
    some { s with nBusyTx := s.nBusyTx - 1 }

/-- The test in `MPMAIN_CleanupTxQueues`. -/
def cleanup (s : State) : Option State :=
  if s.nBusyTx > 0 then some { s with cleanups := s.cleanups + 1 } else none

/-- The loop of `MPMAIN_CleanupTxQueues` over `TxPendingList`. The other two lists are empty. -/
def cleanupNext (s : State) : Option State :=
  match s.cleanups, s.txPendingList with
  | 0, _ => none
  | _ + 1, nb :: rest => some ({ s with txPendingList := rest }.irpComplete nb)
  | n + 1, [] => some { s with nBusyTx := 0, cleanups := n }

/-- `MPUSB_PurgeTLPQueuesEx` once nothing is in USB. The walk over the items ends at the head of the
queue only if no item has packets. -/
def purgeTLP (s : State) : Option State :=
  if s.inUsb = [] ∧ s.completing = [] then
    if s.uplinkFreeBufferQueue.all fun item => item.packetList.isEmpty then
      some { s with uplinkFreeBufferQueue := [], purges := s.purges + 1 }
    else some { s with intact := false }
  else none

/-- The loop of `MPUSB_PurgeTLPQueuesEx` over `TxPendingList`. -/
def purgeTLPNext (s : State) : Option State :=
  match s.purges, s.txPendingList with
  | 0, _ => none
  | _ + 1, nb :: rest => some ({ s with txPendingList := rest }.irpComplete nb)
  | n + 1, [] => some { s with purges := n }

/-- `MPMAIN_QMAPFlowControlCall`. Each entry is taken off the tail of one list and put at the head of
the other, or the other way round. -/
def qmapFlowControlCall (s : State) (flowControlled : Bool) : State :=
  if flowControlled then
    { s with
      qmapFlowControlList := s.qmapFlowControlList ++ s.txPendingList
      txPendingList := []
      qmapFlowControl := true }
  else
    { s with
      txPendingList := s.qmapFlowControlList ++ s.txPendingList
      qmapFlowControlList := []
      qmapFlowControl := false }

/-- `MPMAIN_FlowControlCall`. -/
def flowControlCall (s : State) (version : IPVer) (flowControlled : Bool) : State :=
  let s := { s with flowControl := Function.update s.flowControl version flowControlled }
  if flowControlled then
    { s with
      flowControlList := Function.update s.flowControlList version
        (s.flowControlList version ++ s.txPendingList.filter (s.isOfVersion version))
      txPendingList := s.txPendingList.filter fun nb => ! s.isOfVersion version nb }
  else
    { s with
      txPendingList := s.flowControlList version ++ s.txPendingList
      flowControlList := Function.update s.flowControlList version [] }

/-- `MPMAIN_MediaDisconnect`, under `QMICTLLock`. -/
def mediaDisconnect (s : State) (disconnectAll : Bool) : State :=
  let n := if disconnectAll then 0 else s.numberOfConnections - 1
  { s with
    numberOfConnections := n
    qmapFlowControl := if n = 0 then false else s.qmapFlowControl }

/-- `MPMAIN_MiniportPause` returns. -/
def pauseReturns (s : State) : Option State :=
  if s.nBusyTx > 0 then none else some { s with pauses := s.unfinished :: s.pauses }

def step (quickTx : Bool) (s : State) : Op → Option State
  | .send cancelId canceld versions allocated => some (s.send cancelId canceld versions allocated)
  | .take ready => s.take ready
  | .flush => s.flush
  | .takeItem => s.takeItem
  | .mark => s.mark
  | .accept stays => s.accept quickTx stays
  | .fail => s.fail quickTx
  | .finish => s.finish
  | .letGo => s.letGo
  | .usbCompletes k => s.usbCompletes k
  | .completeNext k => s.completeNext k
  | .cancelSend cancelId => some (s.cancelSend cancelId)
  | .cancelNext k => s.cancelNext k
  | .processPendingTlpEx ready => s.processPendingTlpEx ready
  | .purgeQmap => s.purgeQmap
  | .purgeFlow version => s.purgeFlow version
  | .cleanup => s.cleanup
  | .cleanupNext => s.cleanupNext
  | .purgeTLP => s.purgeTLP
  | .purgeTLPNext => s.purgeTLPNext
  | .qmapFlowControlCall flowControlled => some (s.qmapFlowControlCall flowControlled)
  | .flowControlCall version flowControlled => some (s.flowControlCall version flowControlled)
  | .mediaConnect => some { s with numberOfConnections := s.numberOfConnections + 1 }
  | .mediaDisconnect disconnectAll => some (s.mediaDisconnect disconnectAll)
  | .pauseReturns => s.pauseReturns

end State

/-- The transmit side of an adapter. `quickTx` says that `MPQuickTx` is set. -/
def txQueues (quickTx : Bool) : Machine State Op Unit := fun s op =>
  if s.intact then (s.step quickTx op).map fun s' => (s', ()) else none

/-- After the TLP items were put on `UplinkFreeBufferQueue`. -/
def start (items : Nat) : State where
  contexts := []
  txPendingList := []
  qmapFlowControlList := []
  flowControlList _ := []
  qmapFlowControl := false
  flowControl _ := false
  numberOfConnections := 0
  nBusyTx := 0
  uplinkFreeBufferQueue := List.replicate items ⟨false, []⟩
  inUsb := []
  tx := .idle
  cancelQueues := []
  completing := []
  cleanups := 0
  purges := 0
  intact := true
  copied := []
  pauses := []

theorem txQueues_step {quickTx : Bool} {s s' : State} {op : Op} {o : Unit}
    (h : txQueues quickTx s op = some (s', o)) : s.step quickTx op = some s' := by
  unfold txQueues at h
  split at h
  next =>
    obtain ⟨t, ht, heq⟩ := Option.map_eq_some_iff.mp h
    exact ht.trans (congrArg some (congrArg Prod.fst heq))
  next => cases h

/-! ## Sends -/

theorem map_modify_of_eq {α β : Type} {f : α → α} {g : α → β} (hfg : ∀ x, g (f x) = g x)
    (l : List α) (k : Nat) : (l.modify k f).map g = l.map g := by
  refine List.ext_getElem? fun i => ?_
  rw [List.getElem?_map, List.getElem?_map, List.getElem?_modify]
  cases l[i]? with
  | none => rfl
  | some x => by_cases hk : k = i <;> simp [hk, hfg]

namespace State

variable (s : State)

@[simp] theorem isOfVersion_eq (version : IPVer) (nb : Nb) : s.isOfVersion version nb = false := rfl

@[simp] theorem filter_isOfVersion (version : IPVer) (nbs : List Nb) :
    nbs.filter (s.isOfVersion version) = [] :=
  List.filter_eq_nil_iff.mpr fun _ _ => Bool.false_ne_true

theorem enqueue_eq (nb : Nb) :
    s.enqueue nb =
      if s.qmapFlowControl then
        { s with
          qmapFlowControlList := s.qmapFlowControlList ++ [nb], nBusyTx := s.nBusyTx + 1 }
      else { s with txPendingList := s.txPendingList ++ [nb], nBusyTx := s.nBusyTx + 1 } := by
  simp [enqueue]

/-- The net buffers of a list are all queued on the same list. -/
theorem foldl_enqueue (nbs : List Nb) :
    nbs.foldl enqueue s =
      if s.qmapFlowControl then
        { s with
          qmapFlowControlList := s.qmapFlowControlList ++ nbs
          nBusyTx := s.nBusyTx + nbs.length }
      else
        { s with txPendingList := s.txPendingList ++ nbs, nBusyTx := s.nBusyTx + nbs.length } := by
  induction nbs generalizing s with
  | nil => simp
  | cons nb nbs ih =>
    have hcount : s.nBusyTx + 1 + nbs.length = s.nBusyTx + (nbs.length + 1) := by ring
    rw [List.foldl_cons, enqueue_eq]
    by_cases hflow : s.qmapFlowControl = true
    · rw [if_pos hflow, if_pos hflow, ih, if_pos hflow]
      simp [hcount]
    · rw [if_neg hflow, if_neg hflow, ih, if_neg hflow]
      simp [hcount]

/-- The net buffers of the list that is sent next. -/
def sentNbs (s : State) (n : Nat) : List Nb :=
  (List.range n).map fun index => ⟨s.contexts.length, index⟩

/-- The context of a list that was just sent. -/
def newContext (cancelId : Nat) (canceld : Bool) (versions : List (Option IPVer)) :
    TxContextNbl :=
  ⟨cancelId, canceld, versions.map fun v => ⟨v, false, false⟩, 0⟩

/-- A list that is accepted is queued as a whole. -/
theorem send_eq (cancelId : Nat) (canceld : Bool) {versions : List (Option IPVer)}
    (hne : versions ≠ []) :
    s.send cancelId canceld versions true =
      { s with
        contexts := s.contexts ++ [newContext cancelId canceld versions]
        qmapFlowControlList :=
          if s.qmapFlowControl then s.qmapFlowControlList ++ s.sentNbs versions.length
          else s.qmapFlowControlList
        txPendingList :=
          if s.qmapFlowControl then s.txPendingList
          else s.txPendingList ++ s.sentNbs versions.length
        nBusyTx := s.nBusyTx + versions.length } := by
  rw [send, if_pos ⟨hne, rfl⟩]
  simp only [foldl_enqueue]
  by_cases hflow : s.qmapFlowControl = true
  · simp [hflow, sentNbs, newContext]
  · simp [hflow, sentNbs, newContext]

/-- A list that cannot be accepted is given back at once. -/
theorem send_refused (cancelId : Nat) (canceld : Bool) {versions : List (Option IPVer)}
    {allocated : Bool} (h : ¬ (versions ≠ [] ∧ allocated)) :
    s.send cancelId canceld versions allocated =
      { s with contexts := s.contexts ++ [⟨cancelId, canceld, [], 1⟩] } := if_neg h

end State

end Ndis.Tx
