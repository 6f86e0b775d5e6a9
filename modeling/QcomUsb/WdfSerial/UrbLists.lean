-- SUMMARY: The three lists of read URBs of the serial driver, with their length counters.
import QcomUsb.Library.Memory

/-!
# Read URBs and their lists

A read URB is on the free, the pending or the completion list, or in the hands of
the read thread. The driver counts the entries of each list and the bytes on the
completion list by hand.
-/

namespace WdfSerial

/-- What `WdfRequestGetStatus` answers, as far as the driver looks. -/
inductive UrbStatus
  | success | cancelled | noSuchDevice | failed
deriving DecidableEq

/-- `REQUEST_CONTEXT` with `READ_BUFFER_PARAM`. The buffer holds its `AvailableBytes` bytes. -/
structure Urb where
  id : Nat
  status : UrbStatus
  readBuffer : List UInt8
deriving DecidableEq

namespace Urb

/-- `AvailableBytes`. -/
def availableBytes (u : Urb) : Nat := u.readBuffer.length

/-- `QCRD_ResetReadUrb`, as far as the buffer goes: reused or not, it is empty. -/
def reset (u : Urb) : Urb := { u with status := .success, readBuffer := [] }

end Urb

/-- A list of URBs with its length counter. -/
structure UrbList where
  entries : List Urb
  listLength : Nat

namespace UrbList

/-- `QCUTIL_InsertTailList`. -/
def insertTail (l : UrbList) (u : Urb) : UrbList := ⟨l.entries ++ [u], l.listLength + 1⟩

/-- `QCUTIL_RemoveEntryList`. -/
def removeEntry (l : UrbList) (u : Urb) : UrbList := ⟨l.entries.erase u, l.listLength - 1⟩

/-- `QCUTIL_FindEntryInList`. -/
def findEntry (l : UrbList) (u : Urb) : Bool := u ∈ l.entries

end UrbList

/-- The fields `UrbRead*` of the device context. -/
structure UrbLists where
  freeList : UrbList
  pendingList : UrbList
  completionList : UrbList
  completionListDataSize : Nat

namespace UrbLists

/-- `QCPNP_SetupIoThreadsAndQueues`: `n` new URBs on the free list. -/
def setup (n : Nat) : UrbLists where
  freeList := ⟨(List.range n).map fun id => ⟨id, .success, []⟩, n⟩
  pendingList := ⟨[], 0⟩
  completionList := ⟨[], 0⟩
  completionListDataSize := 0

/-- Take a URB off the free list. -/
def removeFree (l : UrbLists) (u : Urb) : UrbLists :=
  { l with freeList := l.freeList.removeEntry u }

/-- Put a URB on the free list. -/
def insertFree (l : UrbLists) (u : Urb) : UrbLists :=
  { l with freeList := l.freeList.insertTail u }

/-- Put a URB on the pending list. -/
def insertPending (l : UrbLists) (u : Urb) : UrbLists :=
  { l with pendingList := l.pendingList.insertTail u }

/-- Take a URB off the pending list. -/
def removePending (l : UrbLists) (u : Urb) : UrbLists :=
  { l with pendingList := l.pendingList.removeEntry u }

/-- The locked part of `QCRD_EvtIoReadCompletionAsync`: `u` comes back as `v`. -/
def complete (l : UrbLists) (u v : Urb) : UrbLists :=
  { l with
    pendingList := if l.pendingList.findEntry u then l.pendingList.removeEntry u else l.pendingList
    completionList := l.completionList.insertTail v
    completionListDataSize := l.completionListDataSize + v.availableBytes }

/-- Take a URB with its data off the completion list. -/
def takeCompleted (l : UrbLists) (u : Urb) : UrbLists :=
  { l with
    completionList := l.completionList.removeEntry u
    completionListDataSize := l.completionListDataSize - u.availableBytes }

/-- A URB without data goes from the completion list to the free list. The data size is left. -/
def recycle (l : UrbLists) (u : Urb) : UrbLists :=
  { l with
    completionList := l.completionList.removeEntry u
    freeList := l.freeList.insertTail u }

/-- The locked loop of `QCRD_ClearBuffer`. -/
def clearCompleted (l : UrbLists) : UrbLists :=
  l.completionList.entries.foldl (fun l u => (l.takeCompleted u).insertFree u) l

/-! ## Clearing the completion list -/

/-- One round of the loop, for the head of the completion list. -/
theorem takeCompleted_head {l : UrbLists} {u : Urb} {rest : List Urb}
    (h : l.completionList.entries = u :: rest) :
    (l.takeCompleted u).completionList.entries = rest := by
  simp [takeCompleted, UrbList.removeEntry, h]

theorem foldl_clear_entries (us : List Urb) (l : UrbLists) (h : l.completionList.entries = us) :
    (us.foldl (fun l u => (l.takeCompleted u).insertFree u) l).completionList.entries = [] := by
  induction us generalizing l with
  | nil => exact h
  | cons u us ih => exact ih _ (takeCompleted_head h)

@[simp] theorem clearCompleted_entries (l : UrbLists) :
    l.clearCompleted.completionList.entries = [] :=
  foldl_clear_entries _ l rfl

/-- All URBs on the lists. -/
def all (l : UrbLists) : List Urb :=
  l.freeList.entries ++ (l.pendingList.entries ++ l.completionList.entries)

end UrbLists

/-! ## The counters -/

/-- The counter of a list is right. -/
def UrbList.Counted (l : UrbList) : Prop := l.listLength = l.entries.length

theorem UrbList.Counted.insertTail {l : UrbList} (h : l.Counted) (u : Urb) :
    (l.insertTail u).Counted := by
  simpa [Counted, UrbList.insertTail] using h

theorem UrbList.Counted.removeEntry {l : UrbList} (h : l.Counted) {u : Urb} (hu : u ∈ l.entries) :
    (l.removeEntry u).Counted := by
  have hlength : (l.entries.erase u).length = l.entries.length - 1 := List.length_erase_of_mem hu
  simpa [Counted, UrbList.removeEntry, hlength] using congrArg (· - 1) h

/-- The counters of the three lists and the data size are right. -/
structure UrbLists.Counted (l : UrbLists) : Prop where
  free : l.freeList.Counted
  pending : l.pendingList.Counted
  completion : l.completionList.Counted
  dataSize : l.completionListDataSize = (l.completionList.entries.map Urb.availableBytes).sum

namespace UrbLists

variable {l : UrbLists} {u : Urb}

theorem setup_counted (n : Nat) : (setup n).Counted where
  free := by simp [setup, UrbList.Counted]
  pending := rfl
  completion := rfl
  dataSize := rfl

theorem Counted.removeFree (h : l.Counted) (hu : u ∈ l.freeList.entries) :
    (l.removeFree u).Counted :=
  { h with free := h.free.removeEntry hu }

theorem Counted.insertFree (h : l.Counted) (u : Urb) : (l.insertFree u).Counted :=
  { h with free := h.free.insertTail u }

theorem Counted.insertPending (h : l.Counted) (u : Urb) : (l.insertPending u).Counted :=
  { h with pending := h.pending.insertTail u }

theorem Counted.removePending (h : l.Counted) (hu : u ∈ l.pendingList.entries) :
    (l.removePending u).Counted :=
  { h with pending := h.pending.removeEntry hu }

theorem Counted.complete (h : l.Counted) (hu : u ∈ l.pendingList.entries) (v : Urb) :
    (l.complete u v).Counted where
  free := h.free
  pending := by
    simp only [UrbLists.complete, UrbList.findEntry, hu, decide_true, if_true]
    exact h.pending.removeEntry hu
  completion := h.completion.insertTail v
  dataSize := by simp [UrbLists.complete, UrbList.insertTail, h.dataSize]

/-- The data of a URB on the completion list is part of the data size. -/
theorem sum_erase (hu : u ∈ l.completionList.entries) :
    (l.completionList.entries.map Urb.availableBytes).sum =
      u.availableBytes + ((l.completionList.entries.erase u).map Urb.availableBytes).sum := by
  simpa using ((List.perm_cons_erase hu).map Urb.availableBytes).sum_eq

theorem Counted.takeCompleted (h : l.Counted) (hu : u ∈ l.completionList.entries) :
    (l.takeCompleted u).Counted where
  free := h.free
  pending := h.pending
  completion := h.completion.removeEntry hu
  dataSize := by
    simp only [UrbLists.takeCompleted, UrbList.removeEntry, h.dataSize, sum_erase hu]
    exact Nat.add_sub_cancel_left ..

theorem Counted.recycle (h : l.Counted) (hu : u ∈ l.completionList.entries)
    (hempty : u.availableBytes = 0) : (l.recycle u).Counted where
  free := h.free.insertTail u
  pending := h.pending
  completion := h.completion.removeEntry hu
  dataSize := by
    simp only [UrbLists.recycle, UrbList.removeEntry, h.dataSize, sum_erase hu, hempty]
    exact Nat.zero_add _

/-! ## Where the URBs are -/

theorem removeFree_all (hu : u ∈ l.freeList.entries) : (u :: (l.removeFree u).all).Perm l.all :=
  (List.perm_cons_erase hu).symm.append_right _

theorem insertFree_all (l : UrbLists) (u : Urb) : (l.insertFree u).all.Perm (u :: l.all) :=
  (List.perm_append_singleton u l.freeList.entries).append_right _

theorem insertPending_all (l : UrbLists) (u : Urb) : (l.insertPending u).all.Perm (u :: l.all) :=
  (((List.perm_append_singleton u _).append_right _).append_left _).trans List.perm_middle

theorem removePending_all (hu : u ∈ l.pendingList.entries) :
    (u :: (l.removePending u).all).Perm l.all :=
  List.perm_middle.symm.trans
    (((List.perm_cons_erase hu).symm.append_right _).append_left _)

theorem complete_all (hu : u ∈ l.pendingList.entries) (v : Urb) :
    (u :: (l.complete u v).all).Perm (v :: l.all) := by
  have htail : (l.complete u v).all.Perm (v :: (l.removePending u).all) := by
    simp only [all, UrbLists.complete, UrbLists.removePending, UrbList.findEntry, hu, decide_true,
      if_true, UrbList.insertTail]
    rw [← List.append_assoc, ← List.append_assoc, ← List.append_assoc]
    exact List.perm_append_singleton v _
  exact (htail.cons u).trans ((List.Perm.swap v u _).trans ((removePending_all hu).cons v))

theorem takeCompleted_all (hu : u ∈ l.completionList.entries) :
    (u :: (l.takeCompleted u).all).Perm l.all := by
  have hmiddle : ((l.freeList.entries ++ l.pendingList.entries) ++
      u :: l.completionList.entries.erase u).Perm (u :: ((l.freeList.entries ++
        l.pendingList.entries) ++ l.completionList.entries.erase u)) := List.perm_middle
  simp only [List.append_assoc] at hmiddle
  exact hmiddle.symm.trans (((List.perm_cons_erase hu).symm.append_left _).append_left _)

theorem recycle_all (hu : u ∈ l.completionList.entries) : (l.recycle u).all.Perm l.all :=
  (insertFree_all (l.takeCompleted u) u).trans (takeCompleted_all hu)

/-- Clearing the completion list moves its URBs to the free list. -/
theorem foldl_clear_spec (us : List Urb) (l : UrbLists) (h : l.completionList.entries = us)
    (hcounted : l.Counted) :
    (us.foldl (fun l u => (l.takeCompleted u).insertFree u) l).Counted ∧
      (us.foldl (fun l u => (l.takeCompleted u).insertFree u) l).all.Perm l.all := by
  induction us generalizing l with
  | nil => exact ⟨hcounted, .refl _⟩
  | cons u us ih =>
    have hu : u ∈ l.completionList.entries := by simp [h]
    obtain ⟨hcounted', hall⟩ := ih ((l.takeCompleted u).insertFree u) (takeCompleted_head h)
      ((hcounted.takeCompleted hu).insertFree u)
    exact ⟨hcounted', hall.trans ((insertFree_all _ u).trans (takeCompleted_all hu))⟩

theorem Counted.clearCompleted (h : l.Counted) : l.clearCompleted.Counted :=
  (foldl_clear_spec _ l rfl h).1

theorem clearCompleted_all (h : l.Counted) : l.clearCompleted.all.Perm l.all :=
  (foldl_clear_spec _ l rfl h).2

end UrbLists

end WdfSerial
