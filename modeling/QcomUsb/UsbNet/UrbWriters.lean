-- SUMMARY: Concurrent writes of one QMI client: which URB each of them takes back and frees.
import QcomUsb.Library.Transition
import QcomUsb.UsbNet.UserspaceWrite

/-!
# Concurrent writers

`WriteSync` and `WriteAsync` put their URB at the end of the URB list of their client, and
take one from its front when the transfer is over. The device stays valid here. A step is a
critical section of `mClientMemLock`, or something the USB core does.
-/

namespace UsbNet

open Transition

/-- How a transfer ended: `status` and `actual_length` of its URB. -/
structure Transfer where
  status : Int
  actualLength : UInt32
  deriving DecidableEq

/-- Where a call is. -/
inductive WritePhase where
  | idle
  /-- Its URB is in the list. -/
  | added
  /-- Its URB is submitted. `WriteSync` waits, and `WriteAsync` has returned `-EIOCBQUEUED`. -/
  | waiting
  /-- The wait of `WriteSync` is over with `result`, or `WriteAsyncCallback` runs. -/
  | waited (result : Int)
  /-- It has popped a URB that is not its own. -/
  | mismatched
  /-- It has its URB back, and is in `usb_kill_urb`. -/
  | killing (result : Int)
  /-- The result is the return value, or what `ki_complete` was told. -/
  | returned (result : Int)
  deriving DecidableEq

/-- The URB is in the list, unless another call has taken it. -/
def WritePhase.inList : WritePhase → Bool
  | .added => true
  | .waiting => true
  | .waited _ => true
  | _ => false

def WritePhase.hasReturned : WritePhase → Bool
  | .returned _ => true
  | _ => false

/-- Between its start and its end. -/
def WritePhase.isRunning : WritePhase → Bool
  | .idle => false
  | .returned _ => false
  | _ => true

/-- A call of `WriteSync`, or of `WriteAsync` with its callback. -/
structure WriteCall where
  async : Bool
  writeBufferSize : Nat
  phase : WritePhase
  pWriteURB : Option Nat
  submitted : Bool
  transfer : Option Transfer

/-- What the kernel answers before the URB is in the list: the allocations, the result of
`usb_autopm_get_interface`, and the allocation in `AddToURBList`. -/
structure WriteSetup where
  pWriteURB : Bool
  writeSetup : Bool
  resume : Int
  urbListEntry : Bool

/-- The memory of the client, the calls, and how often each URB was freed. `nextPtr` is the
next URB that `usb_alloc_urb` returns. -/
structure UrbWriters where
  mem : SClientMemList
  nextPtr : Nat
  call : Nat → WriteCall
  freed : Nat → Nat

inductive UrbWriterEvent where
  /-- The call up to `AddToURBList`. -/
  | start (i : Nat) (async : Bool) (writeBufferSize : Nat) (w : WriteSetup)
  /-- `usb_submit_urb` returns `result`. -/
  | submit (i : Nat) (result : Int)
  /-- The USB core gives the URB back. -/
  | complete (i : Nat) (t : Transfer)
  /-- The wait ends because the URB is back. For `WriteAsync`, its callback is called. -/
  | wake (i : Nat)
  /-- The wait of `WriteSync` times out or is interrupted. -/
  | giveUp (i : Nat) (result : Int)
  /-- `PopFromURBList` and what follows it. -/
  | pop (i : Nat)
  /-- `AddToURBList` after a pop of another URB. -/
  | putBack (i : Nat) (urbListEntry : Bool)
  /-- `usb_kill_urb` returns. -/
  | killed (i : Nat)

namespace UrbWriters

/-- No call runs. -/
def init (mem : SClientMemList) (nextPtr : Nat) : UrbWriters where
  mem := mem
  nextPtr := nextPtr
  call := fun _ => ⟨false, 0, .idle, none, false, none⟩
  freed := fun _ => 0

def setCall (s : UrbWriters) (i : Nat) (c : WriteCall) : UrbWriters :=
  { s with call := Function.update s.call i c }

def setMem (s : UrbWriters) (mem : SClientMemList) : UrbWriters := { s with mem := mem }

/-- `usb_alloc_urb`. -/
def usbAllocUrb (s : UrbWriters) : UrbWriters := { s with nextPtr := s.nextPtr + 1 }

/-- `usb_free_urb`. -/
def usbFreeUrb (s : UrbWriters) (urb : Nat) : UrbWriters :=
  { s with freed := Function.update s.freed urb (s.freed urb + 1) }

/-- The call up to `AddToURBList`. -/
def start (s : UrbWriters) (i : Nat) (async : Bool) (writeBufferSize : Nat) (w : WriteSetup) :
    UrbWriters :=
  let c : WriteCall := ⟨async, writeBufferSize, .idle, none, false, none⟩
  if w.pWriteURB = false then s.setCall i { c with phase := .returned (-Errno.ENOMEM) }
  else
    let urb := s.nextPtr
    let c := { c with pWriteURB := some urb }
    match fillQMUXHeader s.mem.mClientID (UInt16.ofNat writeBufferSize) with
    | none =>
      (s.usbAllocUrb.usbFreeUrb urb).setCall i { c with phase := .returned (-Errno.ENOMEM) }
    | some _ =>
      -- here the URB is not freed
      if w.writeSetup = false then
        s.usbAllocUrb.setCall i { c with phase := .returned (-Errno.ENOMEM) }
      else if w.resume < 0 then
        (s.usbAllocUrb.usbFreeUrb urb).setCall i { c with phase := .returned w.resume }
      else if w.urbListEntry = false then
        (s.usbAllocUrb.usbFreeUrb urb).setCall i { c with phase := .returned (-Errno.EINVAL) }
      else (s.usbAllocUrb.setMem (s.mem.addToURBList urb)).setCall i { c with phase := .added }

/-- `usb_submit_urb` fails, and the call takes its URB back. -/
def submitFailed (s : UrbWriters) (i : Nat) (result : Int) : UrbWriters :=
  let c := { s.call i with phase := .returned result }
  let s' := s.setMem s.mem.popFromURBList.2
  match c.pWriteURB with
  | some urb =>
    if s.mem.popFromURBList.1 = some urb then (s'.usbFreeUrb urb).setCall i c
    else s'.setCall i c
  | none => s'.setCall i c

/-- The end of `WriteSync` or of `WriteAsyncCallback`, once the call has its URB back. The
transfer is over, unless the wait was given up. -/
def finish (s : UrbWriters) (i urb : Nat) (result : Int) : UrbWriters :=
  let c := s.call i
  match c.transfer with
  | some t =>
    if c.async then
      -- actual_length - QMUXHeaderSize()
      (s.usbFreeUrb urb).setCall i { c with phase := .returned (t.actualLength - 6).toNat }
    else if result = 0 then
      (s.usbFreeUrb urb).setCall i { c with
        phase := .returned (if t.status = 0 then c.writeBufferSize else t.status) }
    else s.setCall i { c with phase := .killing result }
  | none => s.setCall i { c with phase := .killing result }

end UrbWriters

open UrbWriters

/-- One step. -/
def urbWritersStep : Machine UrbWriters UrbWriterEvent Unit
  | s, .start i async writeBufferSize w =>
    match (s.call i).phase with
    | .idle => some (s.start i async writeBufferSize w, ())
    | _ => none
  | s, .submit i result =>
    match (s.call i).phase with
    | .added =>
      if result < 0 then some (s.submitFailed i result, ())
      else some (s.setCall i { s.call i with phase := .waiting, submitted := true }, ())
    | _ => none
  | s, .complete i t =>
    if (s.call i).submitted = true ∧ (s.call i).transfer = none then
      some (s.setCall i { s.call i with transfer := some t }, ())
    else none
  | s, .wake i =>
    match (s.call i).phase, (s.call i).transfer with
    | .waiting, some _ => some (s.setCall i { s.call i with phase := .waited 0 }, ())
    | _, _ => none
  | s, .giveUp i result =>
    match (s.call i).phase, (s.call i).transfer with
    | .waiting, none =>
      if (s.call i).async = false ∧ result < 0 then
        some (s.setCall i { s.call i with phase := .waited result }, ())
      else none
    | _, _ => none
  | s, .pop i =>
    match (s.call i).phase, (s.call i).pWriteURB with
    | .waited result, some urb =>
      if s.mem.popFromURBList.1 = some urb then
        some ((s.setMem s.mem.popFromURBList.2).finish i urb result, ())
      else
        some ((s.setMem s.mem.popFromURBList.2).setCall i { s.call i with phase := .mismatched }, ())
    | _, _ => none
  | s, .putBack i urbListEntry =>
    match (s.call i).phase, (s.call i).pWriteURB with
    | .mismatched, some urb =>
      let s' := if urbListEntry then s.setMem (s.mem.addToURBList urb) else s
      some (s'.setCall i { s.call i with
        phase := .returned (if (s.call i).async then 0 else -Errno.EINVAL) }, ())
    | _, _ => none
  | s, .killed i =>
    match (s.call i).phase, (s.call i).pWriteURB, (s.call i).transfer with
    | .killing result, some urb, some _ =>
      some ((s.usbFreeUrb urb).setCall i { s.call i with phase := .returned result }, ())
    | _, _, _ => none

/-- What a call whose transfer succeeded returns: the size of the buffer, or the number of
bytes that were sent behind the QMUX header. -/
def WriteCall.success (c : WriteCall) (t : Transfer) : Int :=
  if c.async then (t.actualLength - 6).toNat else c.writeBufferSize

/-- The calls keep their own URBs: a transfer that succeeds is reported as such, each URB is
freed once when its call returns, and once no call runs the list is what it was. -/
structure KeepsOwnUrbs (before : List Nat) (s : UrbWriters) : Prop where
  success : ∀ i result t, (s.call i).phase = .returned result → (s.call i).transfer = some t →
    t.status = 0 → result = (s.call i).success t
  freed : ∀ i urb, (s.call i).pWriteURB = some urb →
    s.freed urb = if (s.call i).phase.hasReturned then 1 else 0
  list : (∀ i, (s.call i).phase.isRunning = false) → s.mem.mURBList = before

/-- The URB of the call is the oldest one in the list. -/
def OwnAtHead (s : UrbWriters) (i : Nat) : Prop := s.mem.mURBList.head? = (s.call i).pWriteURB

instance (s : UrbWriters) (i : Nat) : Decidable (OwnAtHead s i) :=
  inferInstanceAs (Decidable (_ = _))

/-- The condition on a step. Calls take their URBs back in the order in which they added
them, no setup packet lacks memory, and no transfer succeeds once its wait was given up. -/
def TakesOwnUrb (s : UrbWriters) : UrbWriterEvent → Prop
  | .start _ _ writeBufferSize w =>
    w.pWriteURB = true →
      (fillQMUXHeader s.mem.mClientID (UInt16.ofNat writeBufferSize)).isSome = true →
        w.writeSetup = true
  | .submit i result => result < 0 → OwnAtHead s i
  | .complete i t => t.status = 0 → (s.call i).phase = .waiting
  | .pop i => OwnAtHead s i
  | _ => True

/-! ## The list -/

/-- Behind the URBs that were there `before`, the list has those of the calls in `queue`,
which are the calls whose phase says so. -/
structure Listed (before queue : List Nat) (s : UrbWriters) : Prop where
  list : s.mem.mURBList.map some =
    before.map some ++ queue.map fun i => (s.call i).pWriteURB
  nodup : queue.Nodup
  mem_iff : ∀ i, i ∈ queue ↔ (s.call i).phase.inList = true

variable {before queue : List Nat} {s s' : UrbWriters} {i : Nat} {c : WriteCall}

/-- A property of every call, when only one of them has changed. -/
theorem forall_call {P : Nat → WriteCall → Prop} (hcall : s'.call = Function.update s.call i c)
    (hc : P i c) (h : ∀ j, j ≠ i → P j (s.call j)) : ∀ j, P j (s'.call j) := by
  intro j
  rw [hcall]
  rcases eq_or_ne j i with rfl | hne
  · simpa using hc
  · simpa [hne] using h j hne

/-- The URBs of the calls in the queue, when none of them gets another one. -/
theorem map_pWriteURB (hcall : s'.call = Function.update s.call i c)
    (h : i ∈ queue → c.pWriteURB = (s.call i).pWriteURB) :
    queue.map (fun j => (s'.call j).pWriteURB) = queue.map fun j => (s.call j).pWriteURB := by
  refine List.map_congr_left ?_
  exact forall_call (P := fun j c => j ∈ queue → c.pWriteURB = (s.call j).pWriteURB) hcall h
    fun _ _ _ => rfl

theorem init_listed (mem : SClientMemList) (nextPtr : Nat) :
    Listed mem.mURBList [] (.init mem nextPtr) where
  list := by simp [UrbWriters.init]
  nodup := List.nodup_nil
  mem_iff := by simp [UrbWriters.init, WritePhase.inList]

namespace Listed

/-- The list stays, and the call is in it or not as before. -/
theorem keep (h : Listed before queue s) (hmem : s'.mem = s.mem)
    (hcall : s'.call = Function.update s.call i c)
    (hurb : c.pWriteURB = (s.call i).pWriteURB ∨ (s.call i).phase.inList = false)
    (hlist : c.phase.inList = (s.call i).phase.inList) : Listed before queue s' where
  list := by
    rw [hmem, h.list, map_pWriteURB hcall]
    intro hi
    rcases hurb with hurb | hout
    · exact hurb
    · simp [h.mem_iff, hout] at hi
  nodup := h.nodup
  mem_iff := by
    refine forall_call (P := fun j c => j ∈ queue ↔ c.phase.inList = true) hcall ?_
      fun j _ => h.mem_iff j
    rw [hlist]
    exact h.mem_iff i

/-- `AddToURBList` of the URB of a call. -/
theorem add (h : Listed before queue s) {urb : Nat} (hmem : s'.mem = s.mem.addToURBList urb)
    (hcall : s'.call = Function.update s.call i c) (hurb : c.pWriteURB = some urb)
    (hout : (s.call i).phase.inList = false) (hin : c.phase.inList = true) :
    Listed before (queue ++ [i]) s' := by
  have hi : i ∉ queue := by simp [h.mem_iff, hout]
  refine ⟨?_, ?_, ?_⟩
  · have hlast : (s'.call i).pWriteURB = some urb := by simpa [hcall] using hurb
    rw [List.map_append, map_pWriteURB hcall fun hi' => absurd hi' hi, ← List.append_assoc, ← h.list]
    simp [hmem, SClientMemList.addToURBList, hlast]
  · have hne : ∀ j ∈ queue, j ≠ i := fun j hj heq => hi (heq ▸ hj)
    simpa [List.nodup_append, h.nodup] using hne
  · refine forall_call (P := fun j c => j ∈ queue ++ [i] ↔ c.phase.inList = true) hcall ?_
      fun j hne => ?_
    · simp [hin]
    · simpa [hne] using h.mem_iff j

/-- `PopFromURBList` by a call that finds its own URB at the head. -/
theorem take (h : Listed before queue s) {urb : Nat} (hmem : s'.mem = s.mem.popFromURBList.2)
    (hcall : s'.call = Function.update s.call i c) (hown : (s.call i).pWriteURB = some urb)
    (hhead : s.mem.mURBList.head? = some urb) (hbefore : urb ∉ before)
    (hinj : ∀ j, (s.call j).pWriteURB = some urb → j = i) (hout : c.phase.inList = false) :
    ∃ rest, Listed before rest s' := by
  have hlist := h.list
  obtain ⟨tail, htail⟩ : ∃ tail, s.mem.mURBList = urb :: tail := List.head?_eq_some_iff.mp hhead
  rw [htail, List.map_cons] at hlist
  -- the URBs from before come first, and this is none of them
  cases before with
  | cons u us =>
    simp only [List.map_cons, List.cons_append, List.cons.injEq, Option.some_inj] at hlist
    exact absurd (hlist.1 ▸ List.mem_cons_self) hbefore
  | nil =>
    cases queue with
    | nil => simp at hlist
    | cons j rest =>
      simp only [List.map_nil, List.nil_append, List.map_cons, List.cons.injEq] at hlist
      obtain rfl : j = i := hinj j hlist.1.symm
      have hnodup := List.nodup_cons.mp h.nodup
      refine ⟨rest, ?_, hnodup.2, ?_⟩
      · rw [map_pWriteURB hcall fun hj => absurd hj hnodup.1]
        simp [hmem, SClientMemList.popFromURBList, htail, hlist.2]
      · refine forall_call (P := fun j c => j ∈ rest ↔ c.phase.inList = true) hcall ?_ fun k hne => ?_
        · simp [hnodup.1, hout]
        · simpa [hne] using h.mem_iff k

end Listed

/-! ## The URBs -/

/-- Each call has a URB of its own, which is freed when the call returns. -/
structure Owned (before : List Nat) (s : UrbWriters) : Prop where
  fresh : ∀ u ∈ before, u < s.nextPtr
  alloc : ∀ i u, (s.call i).pWriteURB = some u → u < s.nextPtr ∧ u ∉ before
  inj : ∀ i j u, (s.call i).pWriteURB = some u → (s.call j).pWriteURB = some u → i = j
  freed : ∀ i u, (s.call i).pWriteURB = some u →
    s.freed u = if (s.call i).phase.hasReturned then 1 else 0
  unused : ∀ u, s.nextPtr ≤ u → s.freed u = 0

theorem init_owned (mem : SClientMemList) (nextPtr : Nat)
    (hfresh : ∀ u ∈ mem.mURBList, u < nextPtr) : Owned mem.mURBList (.init mem nextPtr) where
  fresh := hfresh
  alloc := nofun
  inj := nofun
  freed := nofun
  unused := fun _ _ => rfl

namespace Owned

/-- No call gets another URB. -/
theorem inj_keep (h : Owned before s) (hcall : s'.call = Function.update s.call i c)
    (hurb : c.pWriteURB = (s.call i).pWriteURB) (j k u : Nat)
    (hj : (s'.call j).pWriteURB = some u) (hk : (s'.call k).pWriteURB = some u) : j = k := by
  have hsame : ∀ j, (s'.call j).pWriteURB = (s.call j).pWriteURB :=
    forall_call (P := fun j c => c.pWriteURB = (s.call j).pWriteURB) hcall hurb fun _ _ => rfl
  exact h.inj j k u (hsame j ▸ hj) (hsame k ▸ hk)

theorem alloc_keep (h : Owned before s) (hcall : s'.call = Function.update s.call i c)
    (hurb : c.pWriteURB = (s.call i).pWriteURB) :
    ∀ j u, (s'.call j).pWriteURB = some u → u < s.nextPtr ∧ u ∉ before := by
  refine forall_call (P := fun _ c => ∀ u, c.pWriteURB = some u → u < s.nextPtr ∧ u ∉ before) hcall
    ?_ fun j _ => h.alloc j
  rw [hurb]
  exact h.alloc i

/-- A call goes on, and no URB is allocated or freed. -/
theorem keep (h : Owned before s) (hptr : s'.nextPtr = s.nextPtr) (hfreed : s'.freed = s.freed)
    (hcall : s'.call = Function.update s.call i c) (hurb : c.pWriteURB = (s.call i).pWriteURB)
    (hret : c.pWriteURB = none ∨ c.phase.hasReturned = (s.call i).phase.hasReturned) :
    Owned before s' where
  fresh := hptr ▸ h.fresh
  alloc := hptr ▸ h.alloc_keep hcall hurb
  inj := h.inj_keep hcall hurb
  freed := by
    rw [hfreed]
    refine forall_call (P := fun _ c => ∀ u, c.pWriteURB = some u →
      s.freed u = if c.phase.hasReturned then 1 else 0) hcall ?_ fun j _ => h.freed j
    intro u hu
    rcases hret with hnone | hret
    · cases hnone.symm.trans hu
    · rw [hret]
      exact h.freed i u (hurb ▸ hu)
  unused := by
    rw [hptr, hfreed]
    exact h.unused

/-- `usb_alloc_urb` for a call that has no URB. -/
theorem allocate (h : Owned before s) (hptr : s'.nextPtr = s.nextPtr + 1)
    (hfreed : s'.freed = s.freed) (hcall : s'.call = Function.update s.call i c)
    (hurb : c.pWriteURB = some s.nextPtr) (hret : c.phase.hasReturned = false) :
    Owned before s' := by
  have hold : ∀ j u, (s.call j).pWriteURB = some u → u ≠ s.nextPtr :=
    fun j u hu => Nat.ne_of_lt (h.alloc j u hu).1
  -- the URB of a call is the new one exactly if it is this call
  have hnew : ∀ j u, (s'.call j).pWriteURB = some u →
      j = i ∧ u = s.nextPtr ∨ j ≠ i ∧ (s.call j).pWriteURB = some u := by
    refine forall_call (P := fun j c => ∀ u, c.pWriteURB = some u →
      j = i ∧ u = s.nextPtr ∨ j ≠ i ∧ (s.call j).pWriteURB = some u) hcall ?_ fun j hne u hu => ?_
    · intro u hu
      cases hurb.symm.trans hu
      exact .inl ⟨rfl, rfl⟩
    · exact .inr ⟨hne, hu⟩
  refine ⟨fun u hu => ?_, fun j u hu => ?_, fun j k u hj hk => ?_, ?_, fun u hu => ?_⟩
  · rw [hptr]
    exact Nat.lt_succ_of_lt (h.fresh u hu)
  · rw [hptr]
    obtain ⟨-, rfl⟩ | ⟨-, hu⟩ := hnew j u hu
    · exact ⟨Nat.lt_succ_self _, fun hmem => Nat.lt_irrefl _ (h.fresh _ hmem)⟩
    · exact ⟨Nat.lt_succ_of_lt (h.alloc j u hu).1, (h.alloc j u hu).2⟩
  · obtain ⟨rfl, hu⟩ | ⟨-, hj⟩ := hnew j u hj
    · obtain ⟨rfl, -⟩ | ⟨-, hk⟩ := hnew k u hk
      · rfl
      · exact absurd hu (hold k u hk)
    · obtain ⟨-, hu⟩ | ⟨-, hk⟩ := hnew k u hk
      · exact absurd hu (hold j u hj)
      · exact h.inj j k u hj hk
  · rw [hfreed]
    refine forall_call (P := fun _ c => ∀ u, c.pWriteURB = some u →
      s.freed u = if c.phase.hasReturned then 1 else 0) hcall ?_ fun j _ => h.freed j
    intro u hu
    cases hurb.symm.trans hu
    rw [hret]
    exact h.unused _ (Nat.le_refl _)
  · rw [hfreed]
    rw [hptr] at hu
    exact h.unused u (Nat.le_of_succ_le hu)

/-- `usb_free_urb` by a call that returns. -/
theorem free (h : Owned before s) {urb : Nat} (hptr : s'.nextPtr = s.nextPtr)
    (hfreed : s'.freed = Function.update s.freed urb (s.freed urb + 1))
    (hcall : s'.call = Function.update s.call i c) (hown : (s.call i).pWriteURB = some urb)
    (hurb : c.pWriteURB = some urb) (hret : (s.call i).phase.hasReturned = false)
    (hret' : c.phase.hasReturned = true) : Owned before s' := by
  have hkeep := hurb.trans hown.symm
  have hzero : s.freed urb = 0 := by simpa [hret] using h.freed i urb hown
  refine ⟨hptr ▸ h.fresh, hptr ▸ h.alloc_keep hcall hkeep, h.inj_keep hcall hkeep, ?_, ?_⟩
  · rw [hfreed]
    refine forall_call (P := fun _ c => ∀ u, c.pWriteURB = some u →
      Function.update s.freed urb (s.freed urb + 1) u = if c.phase.hasReturned then 1 else 0)
      hcall ?_ fun j hne u hu => ?_
    · intro u hu
      cases hurb.symm.trans hu
      simp [hzero, hret']
    · have hother : u ≠ urb := fun heq => hne (h.inj j i u hu (heq ▸ hown))
      rw [Function.update_of_ne hother]
      exact h.freed j u hu
  · intro u hu
    rw [hptr] at hu
    have hother : u ≠ urb := fun heq => Nat.not_lt.mpr hu (heq ▸ (h.alloc i urb hown).1)
    rw [hfreed, Function.update_of_ne hother]
    exact h.unused u hu

end Owned

/-! ## The results -/

/-- What the phase of a call says about its transfer. A call that gave up its wait has no
transfer that succeeded. -/
def WriteCall.Reports (c : WriteCall) : Prop :=
  match c.phase with
  | .idle => c.pWriteURB = none ∧ c.submitted = false ∧ c.transfer = none
  | .added => c.pWriteURB.isSome = true ∧ c.submitted = false ∧ c.transfer = none
  | .waiting => c.pWriteURB.isSome = true
  | .waited result =>
    if result = 0 then c.transfer.isSome = true
    else c.async = false ∧ ∀ t, c.transfer = some t → t.status ≠ 0
  | .mismatched => False
  | .killing _ => ∀ t, c.transfer = some t → t.status ≠ 0
  | .returned result => ∀ t, c.transfer = some t → t.status = 0 → result = c.success t

/-- The invariant. -/
structure Kept (before : List Nat) (s : UrbWriters) : Prop where
  listed : ∃ queue, Listed before queue s
  owned : Owned before s
  reports : ∀ i, (s.call i).Reports

/-- The end of the transfer. -/
theorem WriteCall.Reports.complete (h : c.Reports) (hsubmitted : c.submitted = true)
    {t : Transfer} (hok : t.status = 0 → c.phase = .waiting) :
    WriteCall.Reports { c with transfer := some t } := by
  have hfailed : c.phase ≠ .waiting → ∀ t', some t = some t' → t'.status ≠ 0 := by
    rintro hne t' ⟨⟩ hzero
    exact hne (hok hzero)
  unfold WriteCall.Reports at h ⊢
  cases hphase : c.phase with
  | idle =>
    simp only [hphase] at h
    cases h.2.1.symm.trans hsubmitted
  | added =>
    simp only [hphase] at h
    cases h.2.1.symm.trans hsubmitted
  | waiting =>
    simp only [hphase] at h ⊢
    exact h
  | waited result =>
    simp only [hphase] at h ⊢
    split_ifs at h ⊢
    · rfl
    · exact ⟨h.1, hfailed (by simp [hphase])⟩
  | mismatched =>
    simp only [hphase] at h
  | killing result =>
    simp only
    exact hfailed (by simp [hphase])
  | returned result =>
    simp only
    exact fun t' ht' hzero => absurd hzero (hfailed (by simp [hphase]) t' ht')

theorem init_kept (mem : SClientMemList) (nextPtr : Nat)
    (hfresh : ∀ u ∈ mem.mURBList, u < nextPtr) : Kept mem.mURBList (.init mem nextPtr) where
  listed := ⟨[], init_listed mem nextPtr⟩
  owned := init_owned mem nextPtr hfresh
  reports := fun _ => ⟨rfl, rfl, rfl⟩

/-- The calls that do not run have no URB in the list. -/
theorem Listed.mURBList_of_idle (h : Listed before queue s)
    (hidle : ∀ i, (s.call i).phase.isRunning = false) : s.mem.mURBList = before := by
  have hqueue : queue = [] := by
    refine List.eq_nil_iff_forall_not_mem.mpr fun i hi => ?_
    have hin := (h.mem_iff i).mp hi
    have hout := hidle i
    cases hphase : (s.call i).phase <;> simp [hphase, WritePhase.inList, WritePhase.isRunning] at hin hout
  have hlist := h.list
  rw [hqueue, List.map_nil, List.append_nil] at hlist
  exact List.map_injective_iff.mpr (Option.some_injective _) hlist

theorem Kept.keepsOwnUrbs (h : Kept before s) : KeepsOwnUrbs before s where
  success := by
    intro i result t hphase htransfer hstatus
    have hreports := h.reports i
    simp only [WriteCall.Reports, hphase] at hreports
    exact hreports t htransfer hstatus
  freed := h.owned.freed
  list := by
    obtain ⟨queue, hlisted⟩ := h.listed
    exact hlisted.mURBList_of_idle

/-- A call goes on with the URB it has, and neither the list nor a URB is touched. -/
theorem Kept.goOn (h : Kept before s) (hurb : c.pWriteURB = (s.call i).pWriteURB)
    (hlist : c.phase.inList = (s.call i).phase.inList)
    (hret : c.pWriteURB = none ∨ c.phase.hasReturned = (s.call i).phase.hasReturned)
    (hreports : c.Reports) : Kept before (s.setCall i c) := by
  obtain ⟨queue, hlisted⟩ := h.listed
  exact ⟨⟨queue, hlisted.keep rfl rfl (.inl hurb) hlist⟩, h.owned.keep rfl rfl rfl hurb hret,
    forall_call rfl hreports fun j _ => h.reports j⟩

/-- A call that got a URB goes on with it, or frees it again and returns. -/
theorem Kept.startUrb (h : Kept before s) (hphase : (s.call i).phase = .idle)
    (hurb : c.pWriteURB = some s.nextPtr) (hreports : c.Reports) :
    (c.phase.inList = true → c.phase.hasReturned = false →
      Kept before ((s.usbAllocUrb.setMem (s.mem.addToURBList s.nextPtr)).setCall i c)) ∧
    (c.phase.inList = false → c.phase.hasReturned = true →
      Kept before ((s.usbAllocUrb.usbFreeUrb s.nextPtr).setCall i c)) := by
  obtain ⟨queue, hlisted⟩ := h.listed
  have hout : (s.call i).phase.inList = false := by rw [hphase]; rfl
  have hcalls {s' : UrbWriters} (hcall : s'.call = Function.update s.call i c) :
      ∀ j, (s'.call j).Reports :=
    forall_call (P := fun _ c => c.Reports) hcall hreports fun j _ => h.reports j
  refine ⟨fun hin hret => ?_, fun hout' hret => ?_⟩
  · exact ⟨⟨queue ++ [i], hlisted.add rfl rfl hurb hout hin⟩, h.owned.allocate rfl rfl rfl hurb hret,
      hcalls rfl⟩
  · -- the call first has the URB, and then frees it
    have hhas : Owned before (s.usbAllocUrb.setCall i { c with phase := .mismatched }) :=
      h.owned.allocate rfl rfl rfl hurb rfl
    refine ⟨⟨queue, hlisted.keep rfl rfl (.inr hout) (hout'.trans hout.symm)⟩, ?_, hcalls rfl⟩
    refine hhas.free (i := i) (c := c) rfl rfl ?_ ?_ hurb ?_ hret
    · simp [UrbWriters.setCall, UrbWriters.usbFreeUrb, UrbWriters.usbAllocUrb]
    · simpa [UrbWriters.setCall] using hurb
    · simp [UrbWriters.setCall, WritePhase.hasReturned]

/-- A call takes its URB from the head of the list, and frees it or not. -/
theorem Kept.takeOwn (h : Kept before s) {urb : Nat} (hown : (s.call i).pWriteURB = some urb)
    (hhead : s.mem.mURBList.head? = some urb) (hurb : c.pWriteURB = some urb)
    (hout : c.phase.inList = false) (hrun : (s.call i).phase.hasReturned = false)
    (hreports : c.Reports) :
    (c.phase.hasReturned = false → Kept before ((s.setMem s.mem.popFromURBList.2).setCall i c)) ∧
    (c.phase.hasReturned = true →
      Kept before (((s.setMem s.mem.popFromURBList.2).usbFreeUrb urb).setCall i c)) := by
  obtain ⟨queue, hlisted⟩ := h.listed
  have hcalls {s' : UrbWriters} (hcall : s'.call = Function.update s.call i c) :
      ∀ j, (s'.call j).Reports :=
    forall_call (P := fun _ c => c.Reports) hcall hreports fun j _ => h.reports j
  have htake {s' : UrbWriters} (hmem : s'.mem = s.mem.popFromURBList.2)
      (hcall : s'.call = Function.update s.call i c) : ∃ rest, Listed before rest s' :=
    hlisted.take hmem hcall hown hhead (h.owned.alloc i urb hown).2
      (fun j hj => h.owned.inj j i urb hj hown) hout
  refine ⟨fun hret => ?_, fun hret => ?_⟩
  · exact ⟨htake rfl rfl, h.owned.keep rfl rfl rfl (hurb.trans hown.symm) (.inr (hret.trans hrun.symm)),
      hcalls rfl⟩
  · exact ⟨htake rfl rfl, h.owned.free rfl rfl rfl hown hurb hrun hret, hcalls rfl⟩

/-! ## Runs -/

theorem start_kept (h : Kept before s) (hphase : (s.call i).phase = .idle) {async : Bool}
    {writeBufferSize : Nat} {w : WriteSetup}
    (hok : TakesOwnUrb s (.start i async writeBufferSize w)) :
    Kept before (s.start i async writeBufferSize w) := by
  have hidle := h.reports i
  simp only [WriteCall.Reports, hphase] at hidle
  -- nothing was submitted yet, so there is no transfer to report
  have hreports : ∀ c : WriteCall, c.transfer = none → ∀ result, c.phase = .returned result →
      c.Reports := by
    intro c htransfer result hc
    simp [WriteCall.Reports, hc, htransfer]
  unfold UrbWriters.start
  dsimp only
  split
  · exact h.goOn hidle.1.symm (by rw [hphase]; rfl) (.inl rfl) (hreports _ rfl _ rfl)
  · rename_i hurb
    split
    · exact (h.startUrb hphase rfl (hreports _ rfl _ rfl)).2 rfl rfl
    · rename_i qmux hqmux
      split_ifs with hsetup hresume hentry
      · have hgot : w.pWriteURB = true := by simpa using hurb
        have hhas := hok hgot (by rw [hqmux]; rfl)
        simp [hhas] at hsetup
      · exact (h.startUrb hphase rfl (hreports _ rfl _ rfl)).2 rfl rfl
      · exact (h.startUrb hphase rfl (hreports _ rfl _ rfl)).2 rfl rfl
      · refine (h.startUrb hphase rfl ?_).1 rfl rfl
        exact ⟨rfl, rfl, rfl⟩

theorem submitFailed_kept (h : Kept before s) (hphase : (s.call i).phase = .added) {result : Int}
    (hhead : OwnAtHead s i) : Kept before (s.submitFailed i result) := by
  have hadded := h.reports i
  simp only [WriteCall.Reports, hphase] at hadded
  obtain ⟨hurb, -, htransfer⟩ := hadded
  obtain ⟨urb, hurb⟩ := Option.isSome_iff_exists.mp hurb
  have hown : s.mem.popFromURBList.1 = some urb := hhead.trans hurb
  have htake := h.takeOwn (c := { s.call i with phase := .returned result }) hurb
    (hhead.trans hurb) hurb rfl (by rw [hphase]; rfl) (by simp [WriteCall.Reports, htransfer])
  unfold UrbWriters.submitFailed
  dsimp only
  split
  · rename_i urb' hurb'
    cases hurb.symm.trans hurb'
    rw [if_pos hown]
    exact htake.2 rfl
  · rename_i hnone
    cases hurb.symm.trans hnone

theorem pop_kept (h : Kept before s) {result : Int} (hphase : (s.call i).phase = .waited result)
    {urb : Nat} (hurb : (s.call i).pWriteURB = some urb) (hhead : OwnAtHead s i) :
    Kept before ((s.setMem s.mem.popFromURBList.2).finish i urb result) := by
  have hwaited := h.reports i
  simp only [WriteCall.Reports, hphase] at hwaited
  have hrun : (s.call i).phase.hasReturned = false := by rw [hphase]; rfl
  have hreturn (result' : Int) (hreports : ∀ t, (s.call i).transfer = some t → t.status = 0 →
      result' = (s.call i).success t) :
      Kept before (((s.setMem s.mem.popFromURBList.2).usbFreeUrb urb).setCall i
        { s.call i with phase := .returned result' }) :=
    (h.takeOwn (c := { s.call i with phase := .returned result' }) hurb (hhead.trans hurb) hurb rfl
      hrun hreports).2 rfl
  have hkill (hreports : ∀ t, (s.call i).transfer = some t → t.status ≠ 0) :
      Kept before ((s.setMem s.mem.popFromURBList.2).setCall i
        { s.call i with phase := .killing result }) :=
    (h.takeOwn (c := { s.call i with phase := .killing result }) hurb (hhead.trans hurb) hurb rfl
      hrun hreports).1 rfl
  unfold UrbWriters.finish
  dsimp only
  split
  · rename_i t ht
    have hown : ∀ t', (s.call i).transfer = some t' → t' = t := fun t' ht' => by
      simpa using ht'.symm.trans ht
    split_ifs with hasync hresult hstatus
    · refine hreturn _ fun t' ht' _ => ?_
      rw [hown t' ht', WriteCall.success, if_pos (by exact hasync)]
    · refine hreturn _ fun t' ht' _ => ?_
      rw [WriteCall.success, if_neg (by exact hasync)]
      rfl
    · refine hreturn _ fun t' ht' hzero => ?_
      exact absurd (hown t' ht' ▸ hzero) hstatus
    · rw [if_neg hresult] at hwaited
      exact hkill hwaited.2
  · rename_i hnone
    exact hkill fun t ht => by cases hnone.symm.trans ht

theorem urbWritersStep_kept {s s' : UrbWriters} {ev : UrbWriterEvent} {o : Unit}
    (h : Kept before s) (hok : TakesOwnUrb s ev) (hstep : urbWritersStep s ev = some (s', o)) :
    Kept before s' := by
  cases ev with
  | start i async writeBufferSize w =>
    simp only [urbWritersStep] at hstep
    split at hstep
    · rename_i hphase
      cases hstep
      exact start_kept h hphase hok
    · cases hstep
  | submit i result =>
    simp only [urbWritersStep] at hstep
    split at hstep
    · rename_i hphase
      split_ifs at hstep with hresult
      · cases hstep
        exact submitFailed_kept h hphase (hok hresult)
      · cases hstep
        have hadded := h.reports i
        simp only [WriteCall.Reports, hphase] at hadded
        exact h.goOn rfl (by rw [hphase]; rfl) (.inr (by rw [hphase]; rfl)) hadded.1
    · cases hstep
  | complete i t =>
    simp only [urbWritersStep] at hstep
    split_ifs at hstep with hflight
    cases hstep
    refine h.goOn rfl rfl (.inr rfl) ?_
    exact (h.reports i).complete hflight.1 hok
  | wake i =>
    simp only [urbWritersStep] at hstep
    split at hstep
    · rename_i t hphase ht
      cases hstep
      refine h.goOn rfl (by rw [hphase]; rfl) (.inr (by rw [hphase]; rfl)) ?_
      simp [WriteCall.Reports, ht]
    · cases hstep
  | giveUp i result =>
    simp only [urbWritersStep] at hstep
    split at hstep
    · rename_i hphase hnone
      split_ifs at hstep with hsync
      cases hstep
      refine h.goOn rfl (by rw [hphase]; rfl) (.inr (by rw [hphase]; rfl)) ?_
      have hne : result ≠ 0 := hsync.2.ne
      simp [WriteCall.Reports, hne, hsync.1, hnone]
    · cases hstep
  | pop i =>
    simp only [urbWritersStep] at hstep
    split at hstep
    · rename_i result urb hphase hurb
      split_ifs at hstep with hown
      · cases hstep
        exact pop_kept h hphase hurb hok
      · exact absurd (hok.trans hurb) hown
    · cases hstep
  | putBack i urbListEntry =>
    simp only [urbWritersStep] at hstep
    split at hstep
    · rename_i urb hphase hurb
      have hreports := h.reports i
      simp [WriteCall.Reports, hphase] at hreports
    · cases hstep
  | killed i =>
    simp only [urbWritersStep] at hstep
    split at hstep
    · rename_i result urb t hphase hurb ht
      cases hstep
      have hkilling := h.reports i
      simp only [WriteCall.Reports, hphase] at hkilling
      obtain ⟨queue, hlisted⟩ := h.listed
      refine ⟨⟨queue, hlisted.keep rfl rfl (.inl rfl) (by rw [hphase]; rfl)⟩,
        h.owned.free rfl rfl rfl hurb hurb (by rw [hphase]; rfl) rfl, ?_⟩
      refine forall_call (P := fun _ c => c.Reports) rfl ?_ fun j _ => h.reports j
      exact fun t' ht' hstatus => absurd hstatus (hkilling t' ht')
    · cases hstep

/-- In every run in which the calls take their URBs back in the order in which they added
them, no setup packet lacks memory, and no transfer succeeds after its wait was given up,
the calls keep their own URBs. -/
theorem keepsOwnUrbs_of_takesOwnUrb (mem : SClientMemList) (nextPtr : Nat)
    (hfresh : ∀ u ∈ mem.mURBList, u < nextPtr) (evs : List UrbWriterEvent)
    (hok : ∀ p ∈ urbWritersStep.fires (.init mem nextPtr) evs, TakesOwnUrb p.1 p.2) :
    ∀ s ∈ urbWritersStep.visits (.init mem nextPtr) evs, KeepsOwnUrbs mem.mURBList s := by
  intro s hs
  refine Kept.keepsOwnUrbs ?_
  refine Machine.visits_all_of_fires ?_ (init_kept mem nextPtr hfresh) hok s hs
  exact fun s ev s' o h hok hstep => urbWritersStep_kept h hok hstep

instance (s : UrbWriters) : (ev : UrbWriterEvent) → Decidable (TakesOwnUrb s ev)
  | .start _ _ _ _ => inferInstanceAs (Decidable (_ → _ → _))
  | .submit _ _ => inferInstanceAs (Decidable (_ → _))
  | .complete _ _ => inferInstanceAs (Decidable (_ → _))
  | .wake _ => inferInstanceAs (Decidable True)
  | .giveUp _ _ => inferInstanceAs (Decidable True)
  | .pop _ => inferInstanceAs (Decidable (_ = _))
  | .putBack _ _ => inferInstanceAs (Decidable True)
  | .killed _ => inferInstanceAs (Decidable True)

/-- The kernel grants all that a write asks for. -/
def granted : WriteSetup := ⟨true, true, 0, true⟩

/-- A synchronous and an asynchronous write that end in the order of their starts. -/
theorem keepsOwnUrbs_of_takesOwnUrb_inOrder :
    let evs := [.start 0 false 20 granted, .start 1 true 20 granted, .submit 0 0, .submit 1 0,
      .complete 1 ⟨0, 20⟩, .complete 0 ⟨0, 20⟩, .wake 0, .pop 0, .wake 1, .pop 1]
    (∀ p ∈ urbWritersStep.fires (.init (.new 0x0102) 0) evs, TakesOwnUrb p.1 p.2) ∧
      ∀ s ∈ urbWritersStep.visits (.init (.new 0x0102) 0) evs, KeepsOwnUrbs [] s := by
  intro evs
  have hok : ∀ p ∈ urbWritersStep.fires (.init (.new 0x0102) 0) evs, TakesOwnUrb p.1 p.2 := by
    decide +kernel
  have hfresh : ∀ u ∈ (SClientMemList.new 0x0102).mURBList, u < 0 := by
    simp [SClientMemList.new]
  exact ⟨hok, keepsOwnUrbs_of_takesOwnUrb (.new 0x0102) 0 hfresh evs hok⟩

/-- A call whose transfer succeeded has failed. -/
def LostWrite (s : UrbWriters) (i : Nat) : Prop :=
  (s.call i).phase = .returned (-Errno.EINVAL) ∧ (s.call i).transfer = some ⟨0, 20⟩ ∧
    (s.call i).async = false ∧ (s.call i).writeBufferSize = 20

instance (s : UrbWriters) (i : Nat) : Decidable (LostWrite s i) :=
  inferInstanceAs (Decidable (_ ∧ _ ∧ _ ∧ _))

/-- The second writer is done first. It takes the URB of the first one, and fails. -/
theorem second_writer_fails :
    ∃ s ∈ urbWritersStep.visits (.init (.new 0x0102) 0)
      [.start 0 false 20 granted, .start 1 false 20 granted, .submit 0 0, .submit 1 0,
        .complete 1 ⟨0, 20⟩, .wake 1, .pop 1, .putBack 1 true], ¬ KeepsOwnUrbs [] s := by
  have hrun : ∃ s ∈ urbWritersStep.visits (.init (.new 0x0102) 0)
      [.start 0 false 20 granted, .start 1 false 20 granted, .submit 0 0, .submit 1 0,
        .complete 1 ⟨0, 20⟩, .wake 1, .pop 1, .putBack 1 true], LostWrite s 1 := by
    decide +kernel
  obtain ⟨s, hs, hphase, htransfer, hsync, hsize⟩ := hrun
  refine ⟨s, hs, fun h => ?_⟩
  have hresult := h.success 1 _ _ hphase htransfer rfl
  simp [WriteCall.success, hsync, hsize, Errno.EINVAL] at hresult

end UsbNet
