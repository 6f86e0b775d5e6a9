-- SUMMARY: The pending write list of the serial driver, its two counters, and when they agree with the writes in flight.
import QcomUsb.Library.IntrusiveList
import QcomUsb.Library.Transition

/-!
# The pending write list

The write thread puts a request on `WriteRequestPendingList` before it sends it. The completion
routine takes it off again, unless `QCWT_CleanupWriteQueue` was there before.
-/

namespace WdfSerial

namespace PendingWrites

open IntrusiveList Transition

/-- The entries of the list: its head, and the field `Link` of each request. -/
inductive Entry where
  | writeRequestPendingList
  | link (request : Nat)
deriving DecidableEq

/-- What the driver knows of a request: whether its context has a device, whether it came from
a queue, and the length of the write. -/
structure RequestContext where
  pDevContext : Bool
  ioQueue : Bool
  writeLength : UInt64

/-- How far `QCWT_EvtIoWrite` gets before it sends. -/
inductive Setup where
  | noPipe | noMemory | formatFailed | formatted
deriving DecidableEq

/-- Where the write thread is: in `WdfRequestSend`, or in `QCWT_CleanupWriteQueue`. -/
inductive Thread where
  | idle
  | sendingWrite (request : Nat)
  | sendingShort (request : Nat)
  | cleaning
  | cancelling (request : Nat)
deriving DecidableEq

/-- The fields of the device context, and the requests: all that there were, those sent and
not completed, those taken by a cleanup, and how often each was completed. -/
structure State where
  links : Links Entry
  listLength : UInt64
  dataSize : UInt64
  context : Nat → RequestContext
  thread : Thread
  requests : List Nat
  sent : List Nat
  taken : List Nat
  completed : Nat → Nat

inductive Action where
  | evtIoWrite (request : Nat) (length : UInt64) (setup : Setup)
  | writeSend (ok : Bool)
  | sendUsbShortPacket (request : Nat) (formatted : Bool)
  | shortSend (ok : Bool)
  | evtIoWriteCompletion (request : Nat)
  | cleanupWriteQueue
  | cleanupTurn
  | cancelSentRequest
deriving DecidableEq

namespace State

/-- `WdfRequestComplete` and `WdfRequestCompleteWithInformation`. -/
def complete (s : State) (r : Nat) : State :=
  { s with completed := Function.update s.completed r (s.completed r + 1) }

def receive (s : State) (r : Nat) (context : RequestContext) : State :=
  { s with requests := s.requests ++ [r], context := Function.update s.context r context }

/-- The insertion under the lock. A short packet adds nothing to the data size. -/
def insert (s : State) (r : Nat) (length : UInt64) : State :=
  { s with
    links := s.links.insertTailList .writeRequestPendingList (.link r)
    listLength := s.listLength + 1
    dataSize := s.dataSize + length }

/-- The removal of an entry under the lock. -/
def remove (s : State) (e : Entry) (length : UInt64) : State :=
  { s with
    links := s.links.removeEntryList e
    listLength := s.listLength - 1
    dataSize := s.dataSize - length }

/-- `QCWT_EvtIoWrite`, up to `WdfRequestSend`. -/
def evtIoWrite (s : State) (r : Nat) (length : UInt64) (setup : Setup) : State :=
  let s := s.receive r ⟨false, true, length⟩
  if length = 0 then s.complete r
  else if setup = .formatted then { s.insert r length with thread := .sendingWrite r }
  else s.complete r

/-- `QCWT_EvtIoWrite`, from `WdfRequestSend` on. The entry taken off after a failure is the
head of the list. -/
def writeSend (s : State) (r : Nat) (ok : Bool) : State :=
  if ok then { s with sent := s.sent ++ [r], thread := .idle }
  else
    { (s.remove .writeRequestPendingList (s.context r).writeLength).complete r with
      thread := .idle }

/-- `QCWT_SendUsbShortPacket`, up to `WdfRequestSend`. -/
def sendUsbShortPacket (s : State) (r : Nat) (formatted : Bool) : State :=
  if formatted then
    { (s.receive r ⟨true, false, 0⟩).insert r 0 with thread := .sendingShort r }
  else s

/-- `QCWT_SendUsbShortPacket`, from `WdfRequestSend` on. -/
def shortSend (s : State) (r : Nat) (ok : Bool) : State :=
  if ok then { s with sent := s.sent ++ [r], thread := .idle }
  else { s.remove (.link r) 0 with thread := .idle }

/-- `bufferLength` of the completion routine. -/
def bufferLength (s : State) (r : Nat) : UInt64 :=
  if (s.context r).pDevContext then 0 else (s.context r).writeLength

/-- `QCWT_EvtIoWriteCompletion`, after the search. -/
def finishWrite (s : State) (r : Nat) (found : Bool) : State :=
  let t := if found then s.remove (.link r) (s.bufferLength r)
    else { s with dataSize := s.dataSize - s.bufferLength r }
  let t := { t with sent := t.sent.erase r }
  if (s.context r).ioQueue then t.complete r else t

/-- `QCWT_EvtIoWriteCompletion`. The search has a turn for each request there was; if that is
not enough it does not end. -/
def evtIoWriteCompletion (s : State) (r : Nat) : Option State :=
  (s.links.findEntry .writeRequestPendingList (.link r) (s.requests.length + 1)).map
    (s.finishWrite r)

/-- One turn of the loop of `QCWT_CleanupWriteQueue`, up to `WdfRequestCancelSentRequest`. -/
def cleanupTurn (s : State) : State :=
  match s.links.flink .writeRequestPendingList with
  | .writeRequestPendingList => { s with thread := .idle }
  | .link r =>
    { s with
      links := s.links.removeHeadList .writeRequestPendingList
      listLength := s.listLength - 1
      taken := r :: s.taken
      thread := .cancelling r }

end State

/-- One step of the write thread, or a completion. A request is new when it arrives, and only
a request that was sent is completed. -/
def step : Machine State Action Unit
  | s, .evtIoWrite r length setup =>
    if s.thread = .idle ∧ r ∉ s.requests then some (s.evtIoWrite r length setup, ()) else none
  | s, .writeSend ok =>
    match s.thread with
    | .sendingWrite r => some (s.writeSend r ok, ())
    | _ => none
  | s, .sendUsbShortPacket r formatted =>
    if s.thread = .idle ∧ r ∉ s.requests then some (s.sendUsbShortPacket r formatted, ())
    else none
  | s, .shortSend ok =>
    match s.thread with
    | .sendingShort r => some (s.shortSend r ok, ())
    | _ => none
  | s, .evtIoWriteCompletion r =>
    if r ∈ s.sent then (s.evtIoWriteCompletion r).map fun t => (t, ()) else none
  | s, .cleanupWriteQueue =>
    if s.thread = .idle then some ({ s with thread := .cleaning }, ()) else none
  | s, .cleanupTurn => if s.thread = .cleaning then some (s.cleanupTurn, ()) else none
  | s, .cancelSentRequest =>
    match s.thread with
    | .cancelling _ => some ({ s with thread := .cleaning }, ())
    | _ => none

/-- The state after the device has started. -/
def start (links : Links Entry) (context : Nat → RequestContext) : State where
  links := links.initializeListHead .writeRequestPendingList
  listLength := 0
  dataSize := 0
  context := context
  thread := .idle
  requests := []
  sent := []
  taken := []
  completed := fun _ => 0

/-! ## What the list should hold -/

/-- The request in `WdfRequestSend`. -/
def Thread.sending : Thread → List Nat
  | .sendingWrite r | .sendingShort r => [r]
  | _ => []

/-- The requests sent or being sent that are not completed. -/
def State.outstanding (s : State) : List Nat := s.sent ++ s.thread.sending

/-- Those no cleanup has taken. -/
def queued (outstanding taken : List Nat) : List Nat := outstanding.filter (· ∉ taken)

def State.queued (s : State) : List Nat := PendingWrites.queued s.outstanding s.taken

/-- The length of an application write. Short packets do not count. -/
def State.applicationLength (s : State) (r : Nat) : Nat :=
  if (s.context r).ioQueue then (s.context r).writeLength.toNat else 0

def State.applicationSize (s : State) : Nat := (s.outstanding.map s.applicationLength).sum

/-- The list holds the requests in flight, the counters count them, and each application write
was completed unless it is still outstanding, in which case it can be. -/
structure PendingListRight (s : State) : Prop where
  list : s.links.Holds .writeRequestPendingList (s.queued.map .link)
  listLength : s.listLength = UInt64.ofNat s.queued.length
  dataSize : s.dataSize = UInt64.ofNat s.applicationSize
  completed : ∀ r ∈ s.requests, (s.context r).ioQueue →
    s.completed r = if r ∈ s.outstanding then 0 else 1
  completes : ∀ r ∈ s.sent, (step s (.evtIoWriteCompletion r)).isSome

/-- The same for given outstanding requests, with what is known of all requests. -/
structure Inv (s : State) (outstanding : List Nat) : Prop where
  list : s.links.Holds .writeRequestPendingList ((queued outstanding s.taken).map .link)
  listLength : s.listLength = UInt64.ofNat (queued outstanding s.taken).length
  dataSize : s.dataSize = UInt64.ofNat (outstanding.map s.applicationLength).sum
  completed : ∀ r ∈ s.requests, (s.context r).ioQueue →
    s.completed r = if r ∈ outstanding then 0 else 1
  fresh : ∀ r, r ∉ s.requests → s.completed r = 0
  contexts : ∀ r ∈ s.requests, (s.context r).pDevContext = !(s.context r).ioQueue
  known : outstanding ⊆ s.requests
  nodup : outstanding.Nodup
  taken_known : s.taken ⊆ s.requests

/-! ## Requests that leave the list -/

theorem link_injective : Function.Injective Entry.link := fun _ _ h => Entry.link.inj h

theorem mem_queued {outstanding taken : List Nat} {r : Nat} :
    r ∈ queued outstanding taken ↔ r ∈ outstanding ∧ r ∉ taken := by
  simp [queued]

/-- A completed request leaves the list, if it was on it. -/
theorem queued_erase {outstanding taken : List Nat} (hnodup : outstanding.Nodup) (r : Nat) :
    queued (outstanding.erase r) taken = (queued outstanding taken).erase r := by
  have hqueued : (queued outstanding taken).Nodup := hnodup.filter _
  rw [hqueued.erase_eq_filter, hnodup.erase_eq_filter]
  exact List.filter_comm _ _ _

/-- So does a request that a cleanup takes. -/
theorem queued_taken {outstanding taken : List Nat} (hnodup : outstanding.Nodup) (r : Nat) :
    queued outstanding (r :: taken) = (queued outstanding taken).erase r := by
  have hqueued : (queued outstanding taken).Nodup := hnodup.filter _
  rw [hqueued.erase_eq_filter, queued, queued, List.filter_filter]
  refine List.filter_congr fun x _ => ?_
  rw [Bool.eq_iff_iff]
  simp [not_or]

theorem queued_concat {outstanding taken : List Nat} {r : Nat} (hr : r ∉ taken) :
    queued (outstanding ++ [r]) taken = queued outstanding taken ++ [r] := by
  simp [queued, hr]

/-- The length counter follows a request that leaves. -/
theorem ofNat_length_erase {xs : List Nat} {r : Nat} (hr : r ∈ xs) :
    UInt64.ofNat xs.length - 1 = UInt64.ofNat (xs.erase r).length := by
  rw [List.length_erase_of_mem hr]
  obtain ⟨n, hn⟩ := Nat.exists_eq_add_of_lt (List.length_pos_of_mem hr)
  rw [hn, Nat.zero_add, Nat.add_sub_cancel, UInt64.ofNat_add]
  exact UInt64.add_sub_cancel _ _

/-! ## The fields after a completion -/

section FinishWrite

variable (s : State) (r : Nat) (found : Bool)

@[simp] theorem finishWrite_links :
    (s.finishWrite r found).links =
      if found then s.links.removeEntryList (.link r) else s.links := by
  unfold State.finishWrite
  cases found <;> cases (s.context r).ioQueue <;> rfl

@[simp] theorem finishWrite_listLength :
    (s.finishWrite r found).listLength = if found then s.listLength - 1 else s.listLength := by
  unfold State.finishWrite
  cases found <;> cases (s.context r).ioQueue <;> rfl

@[simp] theorem finishWrite_dataSize :
    (s.finishWrite r found).dataSize = s.dataSize - s.bufferLength r := by
  unfold State.finishWrite
  cases found <;> cases (s.context r).ioQueue <;> rfl

@[simp] theorem finishWrite_completed :
    (s.finishWrite r found).completed =
      if (s.context r).ioQueue then Function.update s.completed r (s.completed r + 1)
      else s.completed := by
  unfold State.finishWrite
  cases found <;> cases (s.context r).ioQueue <;> rfl

@[simp] theorem finishWrite_context : (s.finishWrite r found).context = s.context := by
  unfold State.finishWrite
  cases found <;> cases (s.context r).ioQueue <;> rfl

@[simp] theorem finishWrite_requests : (s.finishWrite r found).requests = s.requests := by
  unfold State.finishWrite
  cases found <;> cases (s.context r).ioQueue <;> rfl

@[simp] theorem finishWrite_taken : (s.finishWrite r found).taken = s.taken := by
  unfold State.finishWrite
  cases found <;> cases (s.context r).ioQueue <;> rfl

@[simp] theorem finishWrite_sent : (s.finishWrite r found).sent = s.sent.erase r := by
  unfold State.finishWrite
  cases found <;> cases (s.context r).ioQueue <;> rfl

@[simp] theorem finishWrite_thread : (s.finishWrite r found).thread = s.thread := by
  unfold State.finishWrite
  cases found <;> cases (s.context r).ioQueue <;> rfl

@[simp] theorem finishWrite_applicationLength :
    (s.finishWrite r found).applicationLength = s.applicationLength := by
  funext x
  rw [State.applicationLength, finishWrite_context, State.applicationLength]

end FinishWrite

/-! ## What the driver does keeps the invariant -/

namespace Inv

variable {s : State} {outstanding : List Nat} {r : Nat}

/-- Where the write thread is does not matter by itself. -/
theorem relabel (h : Inv s outstanding) (sent : List Nat) (thread : Thread) :
    Inv { s with sent := sent, thread := thread } outstanding :=
  ⟨h.list, h.listLength, h.dataSize, h.completed, h.fresh, h.contexts, h.known, h.nodup,
    h.taken_known⟩

/-- Receiving a new request changes nothing about the outstanding ones. -/
theorem map_receive (h : Inv s outstanding) (hr : r ∉ s.requests) (c : RequestContext) :
    outstanding.map (s.receive r c).applicationLength = outstanding.map s.applicationLength := by
  refine List.map_congr_left fun x hx => ?_
  have hne : x ≠ r := fun heq => hr (heq ▸ h.known hx)
  simp [State.applicationLength, State.receive, hne]

theorem contexts_receive (h : Inv s outstanding) {c : RequestContext}
    (hc : c.pDevContext = !c.ioQueue) : ∀ x ∈ s.requests ++ [r],
      ((s.receive r c).context x).pDevContext = !((s.receive r c).context x).ioQueue := by
  intro x hx
  by_cases heq : x = r
  · simpa [State.receive, heq] using hc
  · have hx' : x ∈ s.requests := by simpa [heq] using hx
    simpa [State.receive, heq] using h.contexts x hx'

/-- A request that is completed at once is not outstanding. -/
theorem refuse (h : Inv s outstanding) (hr : r ∉ s.requests) (length : UInt64) :
    Inv ((s.receive r ⟨false, true, length⟩).complete r) outstanding where
  list := h.list
  listLength := h.listLength
  dataSize := by
    have hmap := h.map_receive hr ⟨false, true, length⟩
    exact h.dataSize.trans (congrArg (fun xs => UInt64.ofNat xs.sum) hmap.symm)
  completed := by
    intro x hx happ
    by_cases heq : x = r
    · have hnot : r ∉ outstanding := fun hmem => hr (h.known hmem)
      simp [State.complete, State.receive, heq, hnot, h.fresh r hr]
    · have hx' : x ∈ s.requests := by simpa [State.complete, State.receive, heq] using hx
      have happ' : (s.context x).ioQueue := by
        simpa [State.complete, State.receive, heq] using happ
      simpa [State.complete, State.receive, heq] using h.completed x hx' happ'
  fresh := by
    intro x hx
    have hx' : x ∉ s.requests ∧ x ≠ r := by
      simpa [State.complete, State.receive] using hx
    simpa [State.complete, State.receive, hx'.2] using h.fresh x hx'.1
  contexts := h.contexts_receive rfl
  known := fun x hx => List.mem_append_left _ (h.known hx)
  nodup := h.nodup
  taken_known := fun x hx => List.mem_append_left _ (h.taken_known hx)

/-- A request put on the list is outstanding. -/
theorem enter (h : Inv s outstanding) (hr : r ∉ s.requests) {c : RequestContext}
    (hc : c.pDevContext = !c.ioQueue) (length : UInt64)
    (hlength : length = if c.ioQueue then c.writeLength else 0) :
    Inv ((s.receive r c).insert r length) (outstanding ++ [r]) where
  list := by
    have hnot : r ∉ outstanding := fun hmem => hr (h.known hmem)
    have htaken : r ∉ s.taken := fun hmem => hr (h.taken_known hmem)
    change (s.links.insertTailList _ (.link r)).Holds _
      ((queued (outstanding ++ [r]) s.taken).map _)
    rw [queued_concat htaken, List.map_append]
    refine h.list.insertTailList ?_
    simp [mem_queued, hnot]
  listLength := by
    have htaken : r ∉ s.taken := fun hmem => hr (h.taken_known hmem)
    change s.listLength + 1 = UInt64.ofNat (queued (outstanding ++ [r]) s.taken).length
    rw [queued_concat htaken, List.length_append, UInt64.ofNat_add, h.listLength]
    rfl
  dataSize := by
    have hmap := h.map_receive hr c
    have hnew : UInt64.ofNat ((s.receive r c).applicationLength r) = length := by
      rw [hlength]
      cases hq : c.ioQueue <;> simp [State.applicationLength, State.receive, hq]
    change s.dataSize + length = UInt64.ofNat
      ((outstanding ++ [r]).map (s.receive r c).applicationLength).sum
    rw [List.map_append, List.sum_append, hmap, UInt64.ofNat_add, h.dataSize]
    simp [hnew]
  completed := by
    intro x hx happ
    by_cases heq : x = r
    · simp [State.insert, State.receive, heq, h.fresh r hr]
    · have hx' : x ∈ s.requests := by simpa [State.insert, State.receive, heq] using hx
      have happ' : (s.context x).ioQueue := by
        simpa [State.insert, State.receive, heq] using happ
      simpa [State.insert, State.receive, heq] using h.completed x hx' happ'
  fresh := by
    intro x hx
    have hx' : x ∉ s.requests ∧ x ≠ r := by simpa [State.insert, State.receive] using hx
    exact h.fresh x hx'.1
  contexts := h.contexts_receive hc
  known := by
    intro x hx
    rcases List.mem_append.mp hx with hmem | hmem
    · exact List.mem_append_left _ (h.known hmem)
    · exact List.mem_append_right _ hmem
  nodup := by
    have hnot : r ∉ outstanding := fun hmem => hr (h.known hmem)
    exact h.nodup.append (List.nodup_singleton r) (List.disjoint_singleton.mpr hnot)
  taken_known := fun x hx => List.mem_append_left _ (h.taken_known hx)

theorem bufferLength_eq (h : Inv s outstanding) (hr : r ∈ s.requests) :
    s.bufferLength r = UInt64.ofNat (s.applicationLength r) := by
  rw [State.bufferLength, State.applicationLength, h.contexts r hr]
  cases (s.context r).ioQueue <;> simp

/-- The data size follows an outstanding request that leaves. -/
theorem dataSize_erase (h : Inv s outstanding) (hr : r ∈ outstanding) :
    s.dataSize - s.bufferLength r =
      UInt64.ofNat ((outstanding.erase r).map s.applicationLength).sum := by
  have hsum := List.sum_map_erase s.applicationLength hr
  rw [h.bufferLength_eq (h.known hr), h.dataSize, ← hsum, Nat.add_comm, UInt64.ofNat_add]
  exact UInt64.add_sub_cancel _ _

/-- The search ends, and finds the requests on the list. -/
theorem findEntry_eq (h : Inv s outstanding) (r : Nat) :
    s.links.findEntry .writeRequestPendingList (.link r) (s.requests.length + 1) =
      some (decide (r ∈ queued outstanding s.taken)) := by
  have hsub : queued outstanding s.taken ⊆ s.requests :=
    fun x hx => h.known (mem_queued.mp hx).1
  have hle := ((h.nodup.filter _).subperm hsub).length_le
  have hturns : ((queued outstanding s.taken).map Entry.link).length < s.requests.length + 1 := by
    rw [List.length_map]
    exact Nat.lt_succ_of_le hle
  rw [h.list.findEntry hturns]
  simp only [List.mem_map_of_injective link_injective]

/-- The counts of completions when one of the outstanding requests leaves. A driver created
request is not counted. -/
theorem completed_erase (h : Inv s outstanding) (hr : r ∈ outstanding) {x : Nat}
    (hx : x ∈ s.requests) (happ : (s.context x).ioQueue) :
    (if (s.context r).ioQueue then Function.update s.completed r (s.completed r + 1)
      else s.completed) x = if x ∈ outstanding.erase r then 0 else 1 := by
  have hcount := h.completed x hx happ
  by_cases heq : x = r
  · subst heq
    have hgone : x ∉ outstanding.erase x := h.nodup.not_mem_erase
    rw [if_pos hr] at hcount
    simp [happ, hcount, hgone]
  · simp only [List.mem_erase_of_ne heq, ← hcount]
    split <;> simp [heq]

theorem fresh_erase (h : Inv s outstanding) (hr : r ∈ outstanding) {x : Nat}
    (hx : x ∉ s.requests) :
    (if (s.context r).ioQueue then Function.update s.completed r (s.completed r + 1)
      else s.completed) x = 0 := by
  have hne : x ≠ r := fun heq => hx (heq ▸ h.known hr)
  split <;> simp [hne, h.fresh x hx]

/-- A request leaves the list: what is left of it, and its length. -/
theorem list_erase (h : Inv s outstanding) (hqueued : r ∈ queued outstanding s.taken) :
    (s.links.removeEntryList (.link r)).Holds .writeRequestPendingList
        ((queued (outstanding.erase r) s.taken).map .link) ∧
      s.listLength - 1 = UInt64.ofNat (queued (outstanding.erase r) s.taken).length := by
  rw [queued_erase h.nodup]
  constructor
  · rw [List.map_erase link_injective]
    exact h.list.removeEntryList (List.mem_map_of_mem hqueued)
  · rw [h.listLength]
    exact ofNat_length_erase hqueued

/-- An outstanding request is completed. -/
theorem finishWrite (h : Inv s outstanding) (hr : r ∈ outstanding) :
    Inv (s.finishWrite r (r ∈ queued outstanding s.taken)) (outstanding.erase r) where
  list := by
    simp only [finishWrite_links, finishWrite_taken]
    by_cases hqueued : r ∈ queued outstanding s.taken
    · simpa [hqueued] using (h.list_erase hqueued).1
    · rw [queued_erase h.nodup, List.erase_of_not_mem hqueued]
      simpa [hqueued] using h.list
  listLength := by
    simp only [finishWrite_listLength, finishWrite_taken]
    by_cases hqueued : r ∈ queued outstanding s.taken
    · simpa [hqueued] using (h.list_erase hqueued).2
    · rw [queued_erase h.nodup, List.erase_of_not_mem hqueued]
      simpa [hqueued] using h.listLength
  dataSize := by
    rw [finishWrite_dataSize, h.dataSize_erase hr, finishWrite_applicationLength]
  completed := by
    intro x hx happ
    rw [finishWrite_requests] at hx
    rw [finishWrite_context] at happ
    rw [finishWrite_completed]
    exact h.completed_erase hr hx happ
  fresh := by
    intro x hx
    rw [finishWrite_requests] at hx
    rw [finishWrite_completed]
    exact h.fresh_erase hr hx
  contexts := by simpa using h.contexts
  known := by
    rw [finishWrite_requests]
    exact fun x hx => h.known (List.mem_of_mem_erase hx)
  nodup := h.nodup.erase r
  taken_known := by simpa using h.taken_known

/-- A short packet that could not be sent leaves the list again. -/
theorem remove_short (h : Inv s outstanding) (hr : r ∈ outstanding) (htaken : r ∉ s.taken)
    (hshort : (s.context r).ioQueue = false) :
    Inv (s.remove (.link r) 0) (outstanding.erase r) where
  list := (h.list_erase (mem_queued.mpr ⟨hr, htaken⟩)).1
  listLength := (h.list_erase (mem_queued.mpr ⟨hr, htaken⟩)).2
  dataSize := by
    have hzero : s.bufferLength r = 0 := by
      rw [State.bufferLength, h.contexts r (h.known hr), hshort]
      rfl
    have hsize := h.dataSize_erase hr
    rw [hzero] at hsize
    exact hsize
  completed := by
    intro x hx happ
    have hcount := h.completed_erase hr hx happ
    rw [hshort] at hcount
    exact hcount
  fresh := h.fresh
  contexts := h.contexts
  known := fun x hx => h.known (List.mem_of_mem_erase hx)
  nodup := h.nodup.erase r
  taken_known := h.taken_known

/-- A turn of the cleanup takes the first request of the list, or ends the loop. -/
theorem cleanupTurn (h : Inv s outstanding) :
    Inv s.cleanupTurn outstanding ∧ s.cleanupTurn.sent = s.sent ∧
      s.cleanupTurn.thread.sending = [] := by
  cases hlist : queued outstanding s.taken with
  | nil =>
    have hempty : s.links.flink .writeRequestPendingList = .writeRequestPendingList := by
      have hholds := h.list
      rw [hlist] at hholds
      exact hholds.path.1
    have heq : s.cleanupTurn = { s with thread := .idle } := by
      rw [State.cleanupTurn, hempty]
    rw [heq]
    exact ⟨h.relabel s.sent .idle, rfl, rfl⟩
  | cons r rest =>
    have hholds := h.list
    rw [hlist, List.map_cons] at hholds
    obtain ⟨hfirst, hrest⟩ := hholds.removeHeadList
    have hmem : r ∈ queued outstanding s.taken := by simp [hlist]
    have hqueued : queued outstanding (r :: s.taken) = rest := by
      rw [queued_taken h.nodup, hlist, List.erase_cons_head]
    have hlength := ofNat_length_erase hmem
    rw [hlist, List.erase_cons_head] at hlength
    rw [State.cleanupTurn, hfirst]
    refine ⟨⟨?_, ?_, h.dataSize, h.completed, h.fresh, h.contexts, h.known, h.nodup, ?_⟩, rfl,
      rfl⟩
    · rw [hqueued]
      exact hrest
    · rw [hqueued, ← hlength, h.listLength, hlist]
    · exact List.cons_subset.mpr ⟨h.known (mem_queued.mp hmem).1, h.taken_known⟩

end Inv

/-- A state that keeps everything, with the write thread where it may be. -/
structure Sound (s : State) : Prop where
  inv : Inv s s.outstanding
  sending_not_taken : ∀ r ∈ s.thread.sending, r ∉ s.taken
  short : ∀ r, s.thread = .sendingShort r → (s.context r).ioQueue = false

namespace Sound

variable {s t : State} {r : Nat}

theorem start (links : Links Entry) (context : Nat → RequestContext) :
    Sound (start links context) where
  inv :=
    { list := Links.holds_initializeListHead _ _
      listLength := rfl
      dataSize := rfl
      completed := fun _ hr => absurd hr List.not_mem_nil
      fresh := fun _ _ => rfl
      contexts := fun _ hr => absurd hr List.not_mem_nil
      known := List.nil_subset _
      nodup := List.nodup_nil
      taken_known := List.nil_subset _ }
  sending_not_taken := fun _ hr => absurd hr List.not_mem_nil
  short := by
    rintro r ⟨⟩

/-- A thread that sends nothing. -/
theorem of_not_sending {outstanding : List Nat} (h : Inv t outstanding)
    (houtstanding : t.outstanding = outstanding) (hsending : t.thread.sending = []) : Sound t where
  inv := houtstanding ▸ h
  sending_not_taken := by simp [hsending]
  short := by
    intro r hr
    rw [hr] at hsending
    cases hsending

/-- Under a sound state the property holds. -/
theorem right (h : Sound s) : PendingListRight s where
  list := h.inv.list
  listLength := h.inv.listLength
  dataSize := h.inv.dataSize
  completed := h.inv.completed
  completes := by
    intro r hr
    simp [step, hr, State.evtIoWriteCompletion, h.inv.findEntry_eq r]

theorem outstanding_of_not_sending (hsending : s.thread.sending = []) :
    s.outstanding = s.sent := by
  rw [State.outstanding, hsending, List.append_nil]

theorem evtIoWrite (h : Sound s) (hidle : s.thread = .idle) (hr : r ∉ s.requests)
    (length : UInt64) (setup : Setup) : Sound (s.evtIoWrite r length setup) := by
  have hsending : s.thread.sending = [] := by rw [hidle]; rfl
  have hrefuse : Sound ((s.receive r ⟨false, true, length⟩).complete r) :=
    of_not_sending (h.inv.refuse hr length) rfl hsending
  unfold State.evtIoWrite
  by_cases hzero : length = 0
  · simpa [hzero] using hrefuse
  by_cases hformatted : setup = .formatted
  · have hinv := h.inv.enter hr (c := ⟨false, true, length⟩) rfl length rfl
    rw [outstanding_of_not_sending hsending] at hinv
    simp only [hzero, if_false, hformatted, if_true]
    refine ⟨hinv.relabel s.sent (.sendingWrite r), ?_, by rintro x ⟨⟩⟩
    intro x hx
    rw [List.mem_singleton.mp hx]
    exact fun hmem => hr (h.inv.taken_known hmem)
  · simpa [hzero, hformatted] using hrefuse

theorem sendUsbShortPacket (h : Sound s) (hidle : s.thread = .idle) (hr : r ∉ s.requests)
    (formatted : Bool) : Sound (s.sendUsbShortPacket r formatted) := by
  have hsending : s.thread.sending = [] := by rw [hidle]; rfl
  unfold State.sendUsbShortPacket
  cases formatted with
  | false => exact h
  | true =>
    have hinv := h.inv.enter hr (c := ⟨true, false, 0⟩) rfl 0 rfl
    rw [outstanding_of_not_sending hsending] at hinv
    refine ⟨hinv.relabel s.sent (.sendingShort r), ?_, ?_⟩
    · intro x hx
      rw [List.mem_singleton.mp hx]
      exact fun hmem => hr (h.inv.taken_known hmem)
    · rintro x ⟨⟩
      simp [State.insert, State.receive]

/-- A request that is sent stays outstanding. -/
theorem sendOk (h : Sound s) (hsending : s.thread.sending = [r]) :
    Sound { s with sent := s.sent ++ [r], thread := .idle } := by
  have houtstanding : s.outstanding = s.sent ++ [r] := by rw [State.outstanding, hsending]
  have hinv := h.inv
  rw [houtstanding] at hinv
  exact of_not_sending (hinv.relabel (s.sent ++ [r]) .idle) (List.append_nil _) rfl

theorem shortSend (h : Sound s) (hthread : s.thread = .sendingShort r) (ok : Bool) :
    Sound (s.shortSend r ok) := by
  have hsending : s.thread.sending = [r] := by rw [hthread]; rfl
  cases ok with
  | true => exact h.sendOk hsending
  | false =>
    have houtstanding : s.outstanding = s.sent ++ [r] := by rw [State.outstanding, hsending]
    have hmem : r ∈ s.outstanding := by simp [houtstanding]
    have hnot : r ∉ s.sent := by
      have hnodup := h.inv.nodup
      rw [houtstanding] at hnodup
      exact fun hsent => (List.nodup_append.mp hnodup).2.2 r hsent r (by simp) rfl
    have htaken := h.sending_not_taken r (by simp [hsending])
    have hinv := h.inv.remove_short hmem htaken (h.short r hthread)
    refine of_not_sending (hinv.relabel s.sent .idle) ?_ rfl
    rw [houtstanding, List.erase_append_right _ hnot, List.erase_cons_head]
    rfl

theorem finishWrite (h : Sound s) (hr : r ∈ s.sent) :
    Sound (s.finishWrite r (r ∈ s.queued)) := by
  have hmem : r ∈ s.outstanding := List.mem_append_left _ hr
  have houtstanding : (s.finishWrite r (r ∈ s.queued)).outstanding = s.outstanding.erase r := by
    rw [State.outstanding, finishWrite_sent, finishWrite_thread, State.outstanding,
      List.erase_append_left _ hr]
  refine ⟨?_, ?_, ?_⟩
  · rw [houtstanding]
    exact h.inv.finishWrite hmem
  · simpa using h.sending_not_taken
  · simpa using h.short

theorem cleanupTurn (h : Sound s) (hthread : s.thread = .cleaning) : Sound s.cleanupTurn := by
  have hsending : s.thread.sending = [] := by rw [hthread]; rfl
  obtain ⟨hinv, hsent, hidle⟩ := h.inv.cleanupTurn
  refine of_not_sending hinv ?_ hidle
  rw [outstanding_of_not_sending hidle, hsent, outstanding_of_not_sending hsending]

/-- Moving between two phases that send nothing. -/
theorem relabel (h : Sound s) {thread : Thread} (hsending : s.thread.sending = [])
    (hthread : thread.sending = []) : Sound { s with thread := thread } := by
  refine of_not_sending (h.inv.relabel s.sent thread) ?_ hthread
  rw [outstanding_of_not_sending (s := { s with thread := thread }) hthread,
    outstanding_of_not_sending hsending]

/-- Every step but the failed send of a write keeps the state sound. -/
theorem step (h : Sound s) {a : Action} (ha : a ≠ .writeSend false)
    (hstep : PendingWrites.step s a = some (t, ())) : Sound t := by
  cases a with
  | evtIoWrite r length setup =>
    simp only [PendingWrites.step] at hstep
    split at hstep
    · rename_i hguard
      cases hstep
      exact h.evtIoWrite hguard.1 hguard.2 length setup
    · cases hstep
  | writeSend ok =>
    cases ok with
    | false => exact absurd rfl ha
    | true =>
      simp only [PendingWrites.step] at hstep
      split at hstep
      · rename_i r hthread
        cases hstep
        exact h.sendOk (by rw [hthread]; rfl)
      · cases hstep
  | sendUsbShortPacket r formatted =>
    simp only [PendingWrites.step] at hstep
    split at hstep
    · rename_i hguard
      cases hstep
      exact h.sendUsbShortPacket hguard.1 hguard.2 formatted
    · cases hstep
  | shortSend ok =>
    simp only [PendingWrites.step] at hstep
    split at hstep
    · rename_i r hthread
      cases hstep
      exact h.shortSend hthread ok
    · cases hstep
  | evtIoWriteCompletion r =>
    simp only [PendingWrites.step] at hstep
    split at hstep
    · rename_i hr
      rw [State.evtIoWriteCompletion, h.inv.findEntry_eq r] at hstep
      cases hstep
      exact h.finishWrite hr
    · cases hstep
  | cleanupWriteQueue =>
    simp only [PendingWrites.step] at hstep
    split at hstep
    · rename_i hidle
      cases hstep
      exact h.relabel (by rw [hidle]; rfl) rfl
    · cases hstep
  | cleanupTurn =>
    simp only [PendingWrites.step] at hstep
    split at hstep
    · rename_i hthread
      cases hstep
      exact h.cleanupTurn hthread
    · cases hstep
  | cancelSentRequest =>
    simp only [PendingWrites.step] at hstep
    split at hstep
    · rename_i r hthread
      cases hstep
      exact h.relabel (by rw [hthread]; rfl) rfl
    · cases hstep

/-- After the failed send of a write there is no list behind the head. -/
theorem not_right_of_failed (h : Sound s)
    (hstep : PendingWrites.step s (.writeSend false) = some (t, ())) : ¬PendingListRight t := by
  simp only [PendingWrites.step] at hstep
  split at hstep
  · rename_i r hthread
    cases hstep
    have hsending : r ∈ s.thread.sending := by rw [hthread]; exact List.mem_cons_self
    have hqueued : r ∈ s.queued :=
      mem_queued.mpr ⟨List.mem_append_right _ hsending, h.sending_not_taken r hsending⟩
    have hne : s.queued.map Entry.link ≠ [] := by
      rw [Ne, List.map_eq_nil_iff]
      exact List.ne_nil_of_mem hqueued
    exact fun hright => h.inv.list.not_holds_removeEntryList_head hne hright.list
  · cases hstep

end Sound

/-- The step is not the failed send of a write. -/
def NoFailedSend (_ : State) (a : Action) : Prop := a ≠ .writeSend false

/-- In every run the list and its counters are right throughout exactly if no write fails to be
sent. -/
theorem pendingListRight_iff (links : Links Entry) (context : Nat → RequestContext)
    (actions : List Action) :
    (∀ s ∈ step.visits (start links context) actions, PendingListRight s) ↔
      ∀ p ∈ step.fires (start links context) actions, NoFailedSend p.1 p.2 := by
  have hsound := Sound.start links context
  refine Machine.visits_all_iff_fires_of_ok ?_ ?_ hsound hsound.right
  · intro s a t _ hs _ hok hstep
    exact hs.step hok hstep
  · intro s a t _ hs _ hstep
    constructor
    · rintro hright rfl
      exact hs.not_right_of_failed hstep hright
    · intro hok
      exact (hs.step hok hstep).right

/-- A second write that cannot be sent takes the head off the list, and leaves the list with
the first write and itself on it. -/
theorem failed_send_removes_head :
    ¬∀ (links : Links Entry) (context : Nat → RequestContext) (actions : List Action),
      ∀ s ∈ step.visits (start links context) actions, PendingListRight s := by
  intro hall
  let s₀ := start ⟨id, id⟩ fun _ => ⟨false, false, 0⟩
  let s₁ := (s₀.evtIoWrite 1 10 .formatted).writeSend 1 true
  let s₂ := (s₁.evtIoWrite 2 20 .formatted).writeSend 2 false
  have hmem : s₂ ∈ step.visits s₀ [.evtIoWrite 1 10 .formatted, .writeSend true,
      .evtIoWrite 2 20 .formatted, .writeSend false] :=
    .tail _ (.tail _ (.tail _ (.tail _ (.head _))))
  have hlist := (hall _ _ _ s₂ hmem).list
  have hqueued : s₂.queued = [1] := by decide
  rw [hqueued] at hlist
  have hback : s₂.links.blink (.link 1) = .writeRequestPendingList := hlist.path.1.2
  exact absurd hback (by decide)

end PendingWrites

end WdfSerial
