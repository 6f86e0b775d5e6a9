-- SUMMARY: The purge of the uplink items and the transmit lists, and exactly when it empties everything.
import QcomUsb.Ndis.TlpItem
import QcomUsb.Ndis.TxLock

/-!
# The purge of the uplink

`MPUSB_PurgeTLPQueuesEx` walks the queue of free items, completes the net buffers on each item's
`PacketList`, and then those on `TxBusyList` and `TxPendingList`. The loop over a `PacketList` uses
the variable that says where the walk ends.
-/

namespace Ndis.TlpPurge

open IntrusiveList

variable {ν : Type}

/-- `TLP_BUF_ITEM`, without its two list entries. -/
structure TlpBufItem where
  irp : Option Nat
  buffer : Option Nat
  currentPtr : Option Nat
  dataLength : Int
  remainingCapacity : Int
  aggregationCount : Int
  ndpHeader : Tlp.NdpHeader
  dataGrams : Nat → Tlp.Datagram

namespace TlpBufItem

/-- An item as `MPUSB_InitializeTLP` leaves it. -/
def initial (uplinkTLPSize : Int) (irp buffer : Option Nat) : TlpBufItem :=
  ⟨irp, buffer, buffer, 0, uplinkTLPSize, 0, ⟨0, 0, 0⟩, fun _ => ⟨0, 0⟩⟩

/-- The purge with `FreeMemory`. -/
def released (item : TlpBufItem) : TlpBufItem :=
  { item with
    irp := none, buffer := none, currentPtr := none, dataLength := 0, remainingCapacity := 0
    aggregationCount := 0 }

/-- The purge without it. -/
def reset (uplinkTLPSize : Int) (item : TlpBufItem) : TlpBufItem :=
  { item with
    currentPtr := item.buffer, dataLength := 0, remainingCapacity := uplinkTLPSize
    aggregationCount := 0 }

/-- The headers that go behind the packets of a block are blank. -/
def Blank (item : TlpBufItem) : Prop :=
  item.ndpHeader = ⟨0, 0, 0⟩ ∧ item.dataGrams = fun _ => ⟨0, 0⟩

theorem reset_eq_initial_iff (uplinkTLPSize : Int) (item : TlpBufItem) :
    item.reset uplinkTLPSize = initial uplinkTLPSize item.irp item.buffer ↔ item.Blank := by
  simp [reset, initial, Blank]

end TlpBufItem

/-- The heads of the lists. An item goes by its `List` entry. -/
structure Lists (ν : Type) where
  uplinkFreeBufferQueue : ν
  txBusyList : ν
  txPendingList : ν
  packetList : ν → ν

/-- The adapter and the items. A net buffer goes by its `List` entry; `nb` is its list's context and
its index. Observers keep the items that the walk came to, the net buffers that were completed, and
what was freed. -/
structure State (ν : Type) where
  adapter : TxLock.Adapter ν
  item : ν → TlpBufItem
  nb : ν → ν × Nat
  visited : List ν
  completed : List ν
  freedBuffers : List Nat
  freedIrps : List Nat

/-- The locals of the walk. -/
structure Walk (ν : Type) where
  state : State ν
  headOfList : ν
  peekEntry : ν

/-- The wait for USB over what its turns read of `TxTLPPendinginUSB`. -/
def waitForUsb : List Nat → Bool
  | [] => false
  | pending :: rest => if pending ≠ 0 then waitForUsb rest else true

namespace State

variable [DecidableEq ν]

/-- The net buffer's list gets the status `NDIS_STATUS_SUCCESS`, and `MP_TxIRPCompleteEx` completes
the net buffer without an IRP and under the lock. -/
def complete (lists : Lists ν) (s : State ν) (entry : ν) : Option (State ν) :=
  let (nbl, index) := s.nb entry
  let a := s.adapter
  let context := Function.update a.context nbl
    { a.context nbl with ndisStatus := TxLock.ndisStatusSuccess }
  ({ a with context := context }.txIRPCompleteEx lists.txBusyList 0 false nbl index false).map
    fun a => { s with adapter := a, completed := s.completed ++ [entry] }

/-- `RemoveHeadList`. -/
def removeHeadList (s : State ν) (list : ν) : State ν :=
  { s with adapter := { s.adapter with links := s.adapter.links.removeHeadList list } }

/-- A turn of the loop that completes what is on `list`. It keeps the last entry it took off. -/
def drainTurn (lists : Lists ν) (list : ν) (d : State ν × ν) :
    Option (State ν × ν) ⊕ (State ν × ν) :=
  if d.1.adapter.links.isListEmpty list then .inl (some d)
  else
    let entry := d.1.adapter.links.flink list
    match (d.1.removeHeadList list).complete lists entry with
    | none => .inl none
    | some s => .inr (s, entry)

/-- The loop over `list`, given up after some turns. -/
def drain (lists : Lists ν) (turns : Nat) (list : ν) (s : State ν) (last : ν) :
    Option (State ν × ν) :=
  (Loop.run (drainTurn lists list) turns (s, last)).join

/-- The item is freed and leaves the queue. -/
def freeItem (s : State ν) (peekEntry : ν) : State ν :=
  let item := s.item peekEntry
  { s with
    adapter := { s.adapter with links := s.adapter.links.removeEntryList peekEntry }
    item := Function.update s.item peekEntry item.released
    freedBuffers := s.freedBuffers ++ item.buffer.toList
    freedIrps := s.freedIrps ++ item.irp.toList }

/-- The item stays on the queue. -/
def resetItem (uplinkTLPSize : Int) (s : State ν) (peekEntry : ν) : State ν :=
  { s with item := Function.update s.item peekEntry ((s.item peekEntry).reset uplinkTLPSize) }

/-- A turn of the walk over the queue. -/
def purgeTurn (lists : Lists ν) (uplinkTLPSize : Int) (freeMemory : Bool) (turns : Nat)
    (w : Walk ν) : Option (State ν) ⊕ Walk ν :=
  if w.peekEntry = w.headOfList then .inl (some w.state)
  -- the head of the queue is part of no item
  else if w.peekEntry = lists.uplinkFreeBufferQueue then .inl none
  else
    let s := { w.state with visited := w.state.visited ++ [w.peekEntry] }
    let nextEntry := s.adapter.links.flink w.peekEntry
    let s := if freeMemory then s.freeItem w.peekEntry else s.resetItem uplinkTLPSize w.peekEntry
    match s.drain lists turns (lists.packetList w.peekEntry) w.headOfList with
    | none => .inl none
    | some (s, headOfList) => .inr ⟨s, headOfList, nextEntry⟩

/-- The walk over the queue. -/
def purgeItems (lists : Lists ν) (uplinkTLPSize : Int) (freeMemory : Bool) (turns : Nat)
    (s : State ν) : Option (State ν) :=
  if s.adapter.links.isListEmpty lists.uplinkFreeBufferQueue then some s
  else
    let headOfList := lists.uplinkFreeBufferQueue
    (Loop.run (purgeTurn lists uplinkTLPSize freeMemory turns) turns
      ⟨s, headOfList, s.adapter.links.flink headOfList⟩).join

/-- `MPUSB_PurgeTLPQueuesEx`. -/
def purgeTLPQueuesEx (lists : Lists ν) (uplinkTLPSize : Int) (freeMemory : Bool)
    (txTLPPendinginUSB : List Nat) (turns : Nat) (s : State ν) : Option (State ν) :=
  if waitForUsb txTLPPendinginUSB then do
    let s := { s with adapter := s.adapter.acquireSpinLock }
    let s ← s.purgeItems lists uplinkTLPSize freeMemory turns
    let (s, _) ← s.drain lists turns lists.txBusyList lists.txBusyList
    let (s, _) ← s.drain lists turns lists.txPendingList lists.txPendingList
    some { s with adapter := s.adapter.releaseSpinLock }
  else none

end State

/-! ## What is on the lists -/

/-- The lists by their names. -/
inductive ListName (ν : Type)
  | queue
  | busy
  | pending
  | packets (item : ν)
deriving DecidableEq

def Lists.head (lists : Lists ν) : ListName ν → ν
  | .queue => lists.uplinkFreeBufferQueue
  | .busy => lists.txBusyList
  | .pending => lists.txPendingList
  | .packets item => lists.packetList item

/-- The lists there are: those of the adapter, and one for each item. -/
def ListName.Live (items : List ν) : ListName ν → Prop
  | .packets item => item ∈ items
  | _ => True

/-- The net buffers on all the lists. -/
def netBuffers (items : List ν) (contents : ListName ν → List ν) : List ν :=
  (items.flatMap fun item => contents (.packets item)) ++ contents .busy ++ contents .pending

/-- The purge came to every item once and emptied every list, each net buffer was completed once, and
the items are freed or as they were in the beginning. -/
structure Purged [DecidableEq ν] (lists : Lists ν) (uplinkTLPSize : Int) (freeMemory : Bool)
    (items : List ν) (contents : ListName ν → List ν) (s s' : State ν) : Prop where
  visited : s'.visited = s.visited ++ items
  packets : ∀ item ∈ items, s'.adapter.links.Holds (lists.packetList item) []
  busy : s'.adapter.links.Holds lists.txBusyList []
  pending : s'.adapter.links.Holds lists.txPendingList []
  completed : ∀ nb, s'.completed.count nb = s.completed.count nb +
    if nb ∈ netBuffers items contents then 1 else 0
  freed : freeMemory = true → s'.adapter.links.Holds lists.uplinkFreeBufferQueue [] ∧
    s'.freedBuffers = s.freedBuffers ++ items.flatMap (fun item => (s.item item).buffer.toList) ∧
    s'.freedIrps = s.freedIrps ++ items.flatMap (fun item => (s.item item).irp.toList) ∧
    ∀ item ∈ items, (s'.item item).buffer = none ∧ (s'.item item).irp = none
  kept : freeMemory = false → s'.adapter.links.Holds lists.uplinkFreeBufferQueue items ∧
    s'.freedBuffers = s.freedBuffers ∧ s'.freedIrps = s.freedIrps ∧
    ∀ item ∈ items, s'.item item =
      .initial uplinkTLPSize (s.item item).irp (s.item item).buffer

variable [DecidableEq ν] {lists : Lists ν} {uplinkTLPSize : Int} {freeMemory : Bool} {turns : Nat}
  {items front rest xs : List ν} {contents : ListName ν → List ν} {s s' : State ν} {w : Walk ν}
  {item last : ν}

/-- The lists hold these entries and share none. -/
abbrev State.Holds (s : State ν) (lists : Lists ν) (items : List ν)
    (contents : ListName ν → List ν) : Prop :=
  s.adapter.links.HoldsAll lists.head (ListName.Live items) contents

/-- Net buffers were completed, and nothing was done to the items. -/
structure Completed (xs : List ν) (s s' : State ν) : Prop where
  completed : s'.completed = s.completed ++ xs
  item : s'.item = s.item
  visited : s'.visited = s.visited
  freedBuffers : s'.freedBuffers = s.freedBuffers
  freedIrps : s'.freedIrps = s.freedIrps

omit [DecidableEq ν] in
theorem Completed.refl (s : State ν) : Completed [] s s :=
  ⟨(List.append_nil _).symm, rfl, rfl, rfl, rfl⟩

omit [DecidableEq ν] in
theorem Completed.trans {ys : List ν} {t : State ν} (h : Completed xs s s')
    (h' : Completed ys s' t) : Completed (xs ++ ys) s t :=
  ⟨by rw [h'.completed, h.completed, List.append_assoc], h'.item.trans h.item,
    h'.visited.trans h.visited, h'.freedBuffers.trans h.freedBuffers,
    h'.freedIrps.trans h.freedIrps⟩

/-! ## The loop over one list -/

theorem complete_spec (lists : Lists ν) (s : State ν) (entry : ν) :
    ∃ s', s.complete lists entry = some s' ∧ s'.adapter.links = s.adapter.links ∧
      Completed [entry] s s' := by
  simp only [State.complete]
  generalize Function.update s.adapter.context _ _ = context
  obtain ⟨a', ha, hreturned⟩ := TxLock.txIRPCompleteEx_noIrp { s.adapter with context := context }
    lists.txBusyList (s.nb entry).1 (s.nb entry).2 false
  rw [ha]
  exact ⟨_, rfl, hreturned.links, ⟨rfl, rfl, rfl, rfl, rfl⟩⟩

/-- The loop completes what is on the list in its order and leaves it empty. -/
theorem drain_spec {k : ListName ν} (hk : k.Live items) (h : s.Holds lists items contents)
    (hturns : (contents k).length < turns) (last : ν) :
    ∃ s', s.drain lists turns (lists.head k) last =
        some (s', (contents k).getLast?.getD last) ∧
      Completed (contents k) s s' ∧
      s'.Holds lists items (Function.update contents k []) := by
  obtain ⟨n, rfl⟩ : ∃ n, turns = n + 1 := ⟨turns - 1, by omega⟩
  have hholds := h.holds k hk
  induction hxs : contents k generalizing s contents n last with
  | nil =>
    rw [hxs] at hholds
    have hempty := hholds.isListEmpty.mpr rfl
    refine ⟨s, ?_, Completed.refl s, ?_⟩
    · simp [State.drain, Loop.run, State.drainTurn, hempty]
    · rwa [← hxs, Function.update_eq_self]
  | cons x xs ih =>
    rw [hxs] at hholds hturns
    have hempty : ¬ s.adapter.links.isListEmpty (lists.head k) := fun hnil =>
      List.cons_ne_nil x xs (hholds.isListEmpty.mp hnil)
    obtain ⟨hfirst, hrest⟩ := h.removeHeadList hk hxs
    obtain ⟨t, ht, hlinks, hdone⟩ := complete_spec lists (s.removeHeadList (lists.head k)) x
    have hholds' : t.Holds lists items (Function.update contents k xs) := by
      rw [State.Holds, hlinks]
      exact hrest
    have hlen : (Function.update contents k xs k).length < n := by
      simpa using hturns
    obtain ⟨m, rfl⟩ : ∃ m, n = m + 1 := ⟨n - 1, by omega⟩
    obtain ⟨s', hs', hdone', hempty'⟩ := ih hholds' x m hlen (hholds'.holds k hk)
      (Function.update_self ..)
    refine ⟨s', ?_, ?_, ?_⟩
    · have hturn : State.drainTurn lists (lists.head k) (s, last) = .inr (t, x) := by
        simp only [State.drainTurn, if_neg hempty, hfirst, ht]
      rw [State.drain, Loop.run, hturn, List.getLast?_cons, Option.getD_some]
      exact hs'
    · have hfront : Completed [x] s t := ⟨hdone.completed, hdone.item, hdone.visited,
        hdone.freedBuffers, hdone.freedIrps⟩
      exact hfront.trans hdone'
    · rwa [Function.update_idem] at hempty'

/-! ## A turn of the walk -/

/-- What the walk does to an item. -/
def TlpBufItem.purged (uplinkTLPSize : Int) (freeMemory : Bool) (item : TlpBufItem) : TlpBufItem :=
  if freeMemory then item.released else item.reset uplinkTLPSize

/-- What an item has to free. -/
def owned (freeMemory : Bool) (p : TlpBufItem → Option Nat) (item : TlpBufItem) : List Nat :=
  if freeMemory then (p item).toList else []

/-- The walk came to the items `done`, and completed the net buffers `xs`. -/
structure Walked (uplinkTLPSize : Int) (freeMemory : Bool) (done xs : List ν) (s s' : State ν) :
    Prop where
  visited : s'.visited = s.visited ++ done
  completed : s'.completed = s.completed ++ xs
  purged : ∀ item ∈ done, s'.item item = (s.item item).purged uplinkTLPSize freeMemory
  other : ∀ item, item ∉ done → s'.item item = s.item item
  freedBuffers : s'.freedBuffers =
    s.freedBuffers ++ done.flatMap fun item => owned freeMemory (·.buffer) (s.item item)
  freedIrps : s'.freedIrps =
    s.freedIrps ++ done.flatMap fun item => owned freeMemory (·.irp) (s.item item)

omit [DecidableEq ν] in
theorem Walked.refl (uplinkTLPSize : Int) (freeMemory : Bool) (s : State ν) :
    Walked uplinkTLPSize freeMemory [] [] s s := by
  constructor <;> simp

omit [DecidableEq ν] in
theorem Walked.cons {ys : List ν} {t : State ν} (hnew : item ∉ rest)
    (h : Walked uplinkTLPSize freeMemory [item] xs s s')
    (h' : Walked uplinkTLPSize freeMemory rest ys s' t) :
    Walked uplinkTLPSize freeMemory (item :: rest) (xs ++ ys) s t := by
  have hsame (i : ν) (hi : i ∈ rest) : s'.item i = s.item i :=
    h.other i fun hmem => hnew (List.mem_singleton.mp hmem ▸ hi)
  have howned (p : TlpBufItem → Option Nat) :
      (rest.flatMap fun i => owned freeMemory p (s'.item i)) =
        rest.flatMap fun i => owned freeMemory p (s.item i) :=
    List.flatMap_congr fun i hi => by rw [hsame i hi]
  constructor
  · rw [h'.visited, h.visited, List.append_assoc]
    rfl
  · rw [h'.completed, h.completed, List.append_assoc]
  · intro i hi
    rcases List.mem_cons.mp hi with rfl | hmem
    · rw [h'.other i hnew]
      exact h.purged i (List.mem_singleton_self i)
    · rw [h'.purged i hmem, hsame i hmem]
  · intro i hi
    obtain ⟨hne, hmem⟩ := not_or.mp (fun hor => hi (List.mem_cons.mpr hor))
    rw [h'.other i hmem]
    exact h.other i fun hsingle => hne (List.mem_singleton.mp hsingle)
  · rw [h'.freedBuffers, h.freedBuffers, howned, List.append_assoc, List.flatMap_singleton]
    rfl
  · rw [h'.freedIrps, h.freedIrps, howned, List.append_assoc, List.flatMap_singleton]
    rfl

/-- What is left on the queue after a turn for `item`. -/
def queueAfter (freeMemory : Bool) (contents : ListName ν → List ν) (item : ν) :
    ListName ν → List ν :=
  Function.update contents .queue
    (if freeMemory then (contents .queue).erase item else contents .queue)

theorem purgeTurn_spec (uplinkTLPSize : Int) (freeMemory : Bool) (hitem : item ∈ items)
    (h : s.Holds lists items contents)
    (hqueue : contents .queue = front ++ item :: rest) (hne : item ≠ last)
    (hturns : (contents (.packets item)).length < turns) :
    ∃ s', State.purgeTurn lists uplinkTLPSize freeMemory turns ⟨s, last, item⟩ =
        .inr ⟨s', (contents (.packets item)).getLast?.getD last,
          rest.headD lists.uplinkFreeBufferQueue⟩ ∧
      Walked uplinkTLPSize freeMemory [item] (contents (.packets item)) s s' ∧
      s'.Holds lists items
        (Function.update (queueAfter freeMemory contents item) (.packets item) []) := by
  have hholds : s.adapter.links.Holds lists.uplinkFreeBufferQueue (contents .queue) :=
    h.holds .queue trivial
  have hlive : ListName.Live items .queue := trivial
  have hmem : item ∈ contents .queue := by simp [hqueue]
  have hhead : item ≠ lists.uplinkFreeBufferQueue := by
    rintro rfl
    exact (List.nodup_cons.mp hholds.nodup).1 hmem
  have hnext : s.adapter.links.flink item = rest.headD lists.uplinkFreeBufferQueue := by
    rw [hqueue] at hholds
    exact hholds.flink
  -- the item is purged before its net buffers are completed
  obtain ⟨t, ht, hpurged, hlinks⟩ : ∃ t,
      t = (if freeMemory then
          { s with visited := s.visited ++ [item] }.freeItem item
        else { s with visited := s.visited ++ [item] }.resetItem uplinkTLPSize item) ∧
      Walked uplinkTLPSize freeMemory [item] [] s t ∧
      t.Holds lists items (queueAfter freeMemory contents item) := by
    refine ⟨_, rfl, ?_, ?_⟩
    · cases freeMemory <;>
        constructor <;>
        simp +contextual [State.freeItem, State.resetItem, TlpBufItem.purged, owned]
    · cases freeMemory with
      | true => exact h.removeEntryList hlive hmem
      | false =>
        have hsame : queueAfter false contents item = contents := Function.update_eq_self ..
        rw [hsame]
        exact h
  have hpackets : queueAfter freeMemory contents item (.packets item) = contents (.packets item) :=
    Function.update_of_ne (by simp) _ _
  obtain ⟨s', hdrain, hdone, hafter⟩ :=
    drain_spec (k := .packets item) hitem hlinks (hpackets ▸ hturns) last
  rw [hpackets] at hdrain hdone
  refine ⟨s', ?_, ?_, hafter⟩
  · have hdrain' : t.drain lists turns (lists.packetList item) last =
        some (s', (contents (.packets item)).getLast?.getD last) := hdrain
    simp only [State.purgeTurn, if_neg hne, if_neg hhead, ← ht, hdrain', hnext]
  · constructor
    · rw [hdone.visited, hpurged.visited]
    · rw [hdone.completed, hpurged.completed, List.append_nil]
    · rw [hdone.item]
      exact hpurged.purged
    · rw [hdone.item]
      exact hpurged.other
    · rw [hdone.freedBuffers, hpurged.freedBuffers]
    · rw [hdone.freedIrps, hpurged.freedIrps]

/-! ## The walk -/

theorem queueAfter_queue (hqueue : contents .queue = front ++ item :: rest) (hnew : item ∉ front) :
    queueAfter freeMemory contents item .queue =
      (if freeMemory then front else front ++ [item]) ++ rest := by
  rw [queueAfter, Function.update_self, hqueue]
  cases freeMemory with
  | true => simp [List.erase_append_right _ hnew]
  | false => simp

/-- The items `rest` are still to come, and `turns` are enough for each of their packet lists. -/
structure Ahead (lists : Lists ν) (items : List ν) (turns : Nat) (front rest : List ν)
    (contents : ListName ν → List ν) (s : State ν) : Prop where
  sub : rest ⊆ items
  holds : s.Holds lists items contents
  queue : contents .queue = front ++ rest
  turns : ∀ item ∈ rest, (contents (.packets item)).length < turns

omit [DecidableEq ν] in
theorem Ahead.nodup (h : Ahead lists items turns front rest contents s) :
    (lists.uplinkFreeBufferQueue :: (front ++ rest)).Nodup := by
  have hlive : ListName.Live items .queue := trivial
  rw [← h.queue]
  exact (h.holds.holds .queue hlive).nodup

/-- A turn for the next item, and what is still to come. -/
theorem Ahead.turn (uplinkTLPSize : Int) (freeMemory : Bool)
    (h : Ahead lists items turns front (item :: rest) contents s) (hne : item ≠ last) :
    ∃ s', State.purgeTurn lists uplinkTLPSize freeMemory turns ⟨s, last, item⟩ =
        .inr ⟨s', (contents (.packets item)).getLast?.getD last,
          rest.headD lists.uplinkFreeBufferQueue⟩ ∧
      Walked uplinkTLPSize freeMemory [item] (contents (.packets item)) s s' ∧
      Ahead lists items turns (if freeMemory then front else front ++ [item]) rest
        (Function.update (queueAfter freeMemory contents item) (.packets item) []) s' ∧
      item ∉ rest := by
  have hnodup := (List.nodup_append.mp (List.nodup_cons.mp h.nodup).2)
  have hnew : item ∉ front := fun hmem => hnodup.2.2 item hmem item List.mem_cons_self rfl
  have hrest : item ∉ rest := (List.nodup_cons.mp hnodup.2.1).1
  obtain ⟨s', hturn, hwalked, hafter⟩ := purgeTurn_spec uplinkTLPSize freeMemory
    (h.sub List.mem_cons_self) h.holds h.queue hne (h.turns item List.mem_cons_self)
  refine ⟨s', hturn, hwalked, ⟨List.subset_of_cons_subset h.sub, hafter, ?_, ?_⟩, hrest⟩
  · rw [Function.update_of_ne (by simp)]
    exact queueAfter_queue h.queue hnew
  · intro i hi
    have hother : i ≠ item := fun heq => hrest (heq ▸ hi)
    rw [Function.update_of_ne (by simpa using hother), queueAfter,
      Function.update_of_ne (by simp)]
    exact h.turns i (List.mem_cons_of_mem _ hi)

omit [DecidableEq ν] in
/-- The lists share no entry, so the last one taken off a packet list ends no walk of the queue. -/
theorem Ahead.last_lost (h : Ahead lists items turns front (item :: rest) contents s)
    (hlost : contents (.packets item) ≠ [] ∨ last ∉ lists.uplinkFreeBufferQueue :: rest) :
    (contents (.packets item)).getLast?.getD last ∉ lists.uplinkFreeBufferQueue :: rest := by
  by_cases hempty : contents (.packets item) = []
  · rw [hempty]
    exact hlost.resolve_left (not_not_intro hempty)
  · have hlive : ListName.Live items .queue := trivial
    have hdisjoint := h.holds.disjoint (.packets item) .queue (h.sub List.mem_cons_self) hlive
      (by simp)
    rw [List.getLast?_eq_getLast_of_ne_nil hempty, Option.getD_some]
    intro hmem
    refine hdisjoint (List.mem_cons_of_mem _ (List.getLast_mem hempty)) ?_
    rw [h.queue]
    refine List.cons_subset_cons _ (fun i hi => ?_) hmem
    exact List.mem_append_right _ (List.mem_cons_of_mem _ hi)

/-- A walk that has lost its end takes the head of the queue for an item. -/
theorem Ahead.walk_lost (h : Ahead lists items turns front rest contents s)
    (hlast : last ∉ lists.uplinkFreeBufferQueue :: rest) (n : Nat) :
    (Loop.run (State.purgeTurn lists uplinkTLPSize freeMemory turns) n
      ⟨s, last, rest.headD lists.uplinkFreeBufferQueue⟩).join = none := by
  induction rest generalizing s contents front last n with
  | nil =>
    cases n with
    | zero => rfl
    | succ n =>
      have hne : lists.uplinkFreeBufferQueue ≠ last := fun heq => hlast (by simp [heq])
      simp [Loop.run, State.purgeTurn, hne]
  | cons item rest ih =>
    cases n with
    | zero => rfl
    | succ n =>
      have hne : item ≠ last := fun heq => hlast (by simp [heq])
      obtain ⟨s', hturn, -, hahead, -⟩ := h.turn uplinkTLPSize freeMemory hne
      rw [Loop.run, List.headD_cons, hturn]
      refine ih hahead (h.last_lost (.inr fun hmem => hlast ?_)) n
      exact List.cons_subset_cons _ (List.subset_cons_self ..) hmem

/-- The walk loses its end at the first item that holds packets. -/
theorem Ahead.walk_faults (uplinkTLPSize : Int) (freeMemory : Bool)
    (h : Ahead lists items turns front rest contents s)
    (hsome : ∃ item ∈ rest, contents (.packets item) ≠ []) (n : Nat) :
    (Loop.run (State.purgeTurn lists uplinkTLPSize freeMemory turns) n
      ⟨s, lists.uplinkFreeBufferQueue, rest.headD lists.uplinkFreeBufferQueue⟩).join = none := by
  induction rest generalizing s contents front n with
  | nil =>
    obtain ⟨item, hmem, -⟩ := hsome
    cases hmem
  | cons item rest ih =>
    cases n with
    | zero => rfl
    | succ n =>
      have hne : item ≠ lists.uplinkFreeBufferQueue := by
        rintro rfl
        exact (List.nodup_cons.mp h.nodup).1 (List.mem_append_right _ List.mem_cons_self)
      obtain ⟨s', hturn, -, hahead, hrest⟩ := h.turn uplinkTLPSize freeMemory hne
      rw [Loop.run, List.headD_cons, hturn]
      by_cases hempty : contents (.packets item) = []
      · obtain ⟨i, hi, hpackets⟩ := hsome
        have hi' : i ∈ rest := (List.mem_cons.mp hi).resolve_left fun heq => hpackets (heq ▸ hempty)
        have hother : i ≠ item := fun heq => hrest (heq ▸ hi')
        rw [hempty]
        refine ih hahead ⟨i, hi', ?_⟩ n
        rw [Function.update_of_ne (by simpa using hother), queueAfter,
          Function.update_of_ne (by simp)]
        exact hpackets
      · exact hahead.walk_lost (h.last_lost (.inl hempty)) n

/-- Without packets in the items the walk comes to each of them and ends. -/
theorem Ahead.walk_returns (uplinkTLPSize : Int) (freeMemory : Bool)
    (h : Ahead lists items turns front rest contents s)
    (hempty : ∀ item ∈ rest, contents (.packets item) = []) {n : Nat} (hn : rest.length < n) :
    ∃ s', (Loop.run (State.purgeTurn lists uplinkTLPSize freeMemory turns) n
        ⟨s, lists.uplinkFreeBufferQueue, rest.headD lists.uplinkFreeBufferQueue⟩).join = some s' ∧
      Walked uplinkTLPSize freeMemory rest [] s s' ∧
      s'.Holds lists items
        (Function.update contents .queue (if freeMemory then front else contents .queue)) := by
  induction rest generalizing s contents front n with
  | nil =>
    obtain ⟨m, rfl⟩ : ∃ m, n = m + 1 := ⟨n - 1, by omega⟩
    refine ⟨s, by simp [Loop.run, State.purgeTurn], .refl .., ?_⟩
    have hsame : (if freeMemory then front else contents .queue) = contents .queue := by
      rw [h.queue, List.append_nil, ite_self]
    rw [hsame, Function.update_eq_self]
    exact h.holds
  | cons item rest ih =>
    obtain ⟨m, rfl⟩ : ∃ m, n = m + 1 := ⟨n - 1, by omega⟩
    have hne : item ≠ lists.uplinkFreeBufferQueue := by
      rintro rfl
      exact (List.nodup_cons.mp h.nodup).1 (List.mem_append_right _ List.mem_cons_self)
    obtain ⟨t, hturn, hwalked, hahead, hrest⟩ := h.turn uplinkTLPSize freeMemory hne
    have hitem : contents (.packets item) = [] := hempty item List.mem_cons_self
    -- the packet list was empty before
    have hcontents : Function.update (queueAfter freeMemory contents item) (.packets item) [] =
        queueAfter freeMemory contents item := by
      rw [Function.update_eq_self_iff, queueAfter, Function.update_of_ne (by simp), hitem]
    rw [hcontents] at hahead
    rw [hitem] at hturn hwalked
    have hempty' : ∀ i ∈ rest, queueAfter freeMemory contents item (.packets i) = [] := by
      intro i hi
      rw [queueAfter, Function.update_of_ne (by simp)]
      exact hempty i (List.mem_cons_of_mem _ hi)
    obtain ⟨s', hs', hwalked', hholds⟩ := ih hahead hempty' (n := m) (by simpa using hn)
    refine ⟨s', ?_, Walked.cons hrest hwalked hwalked', ?_⟩
    · rw [Loop.run, List.headD_cons, hturn]
      exact hs'
    · cases freeMemory with
      | true => simpa [queueAfter] using hholds
      | false => simpa [queueAfter] using hholds

/-! ## The purge -/

/-- Before a purge the lists hold `contents`, and the queue the items. -/
structure Ready (lists : Lists ν) (items : List ν) (turns : Nat) (contents : ListName ν → List ν)
    (s : State ν) : Prop where
  holds : s.Holds lists items contents
  queue : contents .queue = items
  turns : ∀ k : ListName ν, k.Live items → (contents k).length < turns

/-- No item holds packets, and what the purge does not reset is blank already. -/
structure Purgeable (freeMemory : Bool) (items : List ν) (contents : ListName ν → List ν)
    (s : State ν) : Prop where
  packets : ∀ item ∈ items, contents (.packets item) = []
  blank : freeMemory = false → ∀ item ∈ items, (s.item item).Blank

omit [DecidableEq ν] in
theorem Ready.ahead (h : Ready lists items turns contents s) :
    Ahead lists items turns [] items contents s :=
  ⟨List.Subset.refl _, h.holds, h.queue, fun item hitem => h.turns (.packets item) hitem⟩

omit [DecidableEq ν] in
theorem Ready.items_lt (h : Ready lists items turns contents s) : items.length < turns := by
  have hlive : ListName.Live items .queue := trivial
  exact h.queue ▸ h.turns .queue hlive

/-- On an empty queue the walk ends at once. -/
theorem Ready.purgeItems_eq (h : Ready lists items turns contents s) :
    s.purgeItems lists uplinkTLPSize freeMemory turns =
      (Loop.run (State.purgeTurn lists uplinkTLPSize freeMemory turns) turns
        ⟨s, lists.uplinkFreeBufferQueue, items.headD lists.uplinkFreeBufferQueue⟩).join := by
  have hlive : ListName.Live items .queue := trivial
  have hholds : s.adapter.links.Holds lists.uplinkFreeBufferQueue items :=
    h.queue ▸ h.holds.holds .queue hlive
  unfold State.purgeItems
  split
  · rename_i hempty
    have hnil : items = [] := hholds.isListEmpty.mp hempty
    obtain ⟨n, rfl⟩ : ∃ n, turns = n + 1 := ⟨turns - 1, by have := h.items_lt; omega⟩
    simp [hnil, Loop.run, State.purgeTurn]
  · cases items with
    | nil => exact absurd (hholds.isListEmpty.mpr rfl) ‹_›
    | cons item rest =>
      rw [List.headD_cons, ← hholds.path.1.1]

omit [DecidableEq ν] in
theorem Walked.completed_by {ys : List ν} {t : State ν}
    (h : Walked uplinkTLPSize freeMemory rest xs s s') (h' : Completed ys s' t) :
    Walked uplinkTLPSize freeMemory rest (xs ++ ys) s t where
  visited := h'.visited.trans h.visited
  completed := by rw [h'.completed, h.completed, List.append_assoc]
  purged := by rw [h'.item]; exact h.purged
  other := by rw [h'.item]; exact h.other
  freedBuffers := h'.freedBuffers.trans h.freedBuffers
  freedIrps := h'.freedIrps.trans h.freedIrps

/-- Without packets in the items the purge returns, and every list is empty then. -/
theorem Ready.purge_returns (uplinkTLPSize : Int) (freeMemory : Bool)
    (h : Ready lists items turns contents s)
    (hempty : ∀ item ∈ items, contents (.packets item) = []) {txTLPPendinginUSB : List Nat}
    (husb : waitForUsb txTLPPendinginUSB = true) :
    ∃ s', s.purgeTLPQueuesEx lists uplinkTLPSize freeMemory txTLPPendinginUSB turns = some s' ∧
      Walked uplinkTLPSize freeMemory items (contents .busy ++ contents .pending) s s' ∧
      ∃ after, s'.Holds lists items after ∧
        (∀ item ∈ items, after (.packets item) = []) ∧ after .busy = [] ∧ after .pending = [] ∧
        after .queue = if freeMemory then [] else items := by
  have hbusy : ListName.Live items .busy := trivial
  have hpending : ListName.Live items .pending := trivial
  have hready : Ready lists items turns contents { s with adapter := s.adapter.acquireSpinLock } :=
    ⟨h.holds, h.queue, h.turns⟩
  obtain ⟨s₁, hs₁, hwalked, hholds₁⟩ := hready.ahead.walk_returns uplinkTLPSize
    freeMemory hempty h.items_lt
  rw [← hready.purgeItems_eq] at hs₁
  obtain ⟨s₂, hs₂, hdone₂, hholds₂⟩ := drain_spec hbusy hholds₁
    (by rw [Function.update_of_ne (by simp)]; exact h.turns .busy hbusy) lists.txBusyList
  obtain ⟨s₃, hs₃, hdone₃, hholds₃⟩ := drain_spec hpending hholds₂
    (by simpa using h.turns .pending hpending) lists.txPendingList
  have hbusy₂ : s₁.drain lists turns lists.txBusyList lists.txBusyList = some (s₂, _) := hs₂
  have hpending₃ : s₂.drain lists turns lists.txPendingList lists.txPendingList = some (s₃, _) := hs₃
  refine ⟨{ s₃ with adapter := s₃.adapter.releaseSpinLock }, ?_, ?_, _, hholds₃, ?_, ?_, ?_, ?_⟩
  · simp only [State.purgeTLPQueuesEx, husb, ↓reduceIte, hs₁, Option.bind_eq_bind,
      Option.bind_some, hbusy₂, hpending₃]
  · simp only [ne_eq, reduceCtorEq, not_false_eq_true, Function.update_of_ne] at hdone₂ hdone₃
    have hall := (hwalked.completed_by hdone₂).completed_by hdone₃
    rw [List.nil_append] at hall
    exact ⟨hall.visited, hall.completed, hall.purged, hall.other, hall.freedBuffers, hall.freedIrps⟩
  · intro item hitem
    simpa using hempty item hitem
  · simp
  · simp
  · simp [h.queue]

/-- An item that holds packets sends the walk past its end. -/
theorem Ready.purge_faults (h : Ready lists items turns contents s)
    (hsome : ∃ item ∈ items, contents (.packets item) ≠ []) (txTLPPendinginUSB : List Nat) :
    s.purgeTLPQueuesEx lists uplinkTLPSize freeMemory txTLPPendinginUSB turns = none := by
  have hready : Ready lists items turns contents { s with adapter := s.adapter.acquireSpinLock } :=
    ⟨h.holds, h.queue, h.turns⟩
  have hfault := hready.ahead.walk_faults uplinkTLPSize freeMemory hsome turns
  rw [← hready.purgeItems_eq] at hfault
  unfold State.purgeTLPQueuesEx
  split
  · simp [hfault]
  · rfl

omit [DecidableEq ν] in
theorem netBuffers_nodup (hitems : items.Nodup) (h : s.Holds lists items contents) :
    (netBuffers items contents).Nodup := by
  have hbusy : ListName.Live items .busy := trivial
  have hpending : ListName.Live items .pending := trivial
  have hnodup (k : ListName ν) (hk : k.Live items) : (contents k).Nodup :=
    (List.nodup_cons.mp (h.holds k hk).nodup).2
  have hdisjoint (j k : ListName ν) (hj : j.Live items) (hk : k.Live items) (hjk : j ≠ k) :
      List.Disjoint (contents j) (contents k) :=
    List.disjoint_of_subset_left (List.subset_cons_self ..)
      (List.disjoint_of_subset_right (List.subset_cons_self ..) (h.disjoint j k hj hk hjk))
  have hpackets : (items.flatMap fun item => contents (.packets item)).Nodup := by
    rw [List.nodup_flatMap]
    refine ⟨fun item hitem => hnodup _ hitem, ?_⟩
    exact hitems.imp_of_mem fun hi hj hij => hdisjoint _ _ hi hj (by simpa using hij)
  have hother (k : ListName ν) (hk : k.Live items) (hne : ∀ item, .packets item ≠ k) :
      List.Disjoint (items.flatMap fun item => contents (.packets item)) (contents k) := by
    intro nb hnb
    obtain ⟨item, hitem, hmem⟩ := List.mem_flatMap.mp hnb
    have hlive : ListName.Live items (.packets item) := hitem
    exact hdisjoint _ _ hlive hk (hne item) hmem
  refine List.Nodup.append (List.Nodup.append hpackets (hnodup _ hbusy) ?_) (hnodup _ hpending) ?_
  · exact hother .busy hbusy (by simp)
  · rw [List.disjoint_append_left]
    exact ⟨hother .pending hpending (by simp), hdisjoint _ _ hbusy hpending (by simp)⟩

theorem Walked.purged_of_holds {after : ListName ν → List ν}
    (h : Ready lists items turns contents s)
    (hcan : Purgeable freeMemory items contents s)
    (hwalked : Walked uplinkTLPSize freeMemory items (contents .busy ++ contents .pending) s s')
    (hholds : s'.Holds lists items after) (hpackets : ∀ item ∈ items, after (.packets item) = [])
    (hbusy : after .busy = []) (hpending : after .pending = [])
    (hqueue : after .queue = if freeMemory then [] else items) :
    Purged lists uplinkTLPSize freeMemory items contents s s' := by
  have hlist (k : ListName ν) (hk : k.Live items) :
      s'.adapter.links.Holds (lists.head k) (after k) := hholds.holds k hk
  have hlive : ListName.Live items .queue := trivial
  constructor
  · exact hwalked.visited
  · exact fun item hitem => hpackets item hitem ▸ hlist (.packets item) hitem
  · exact hbusy ▸ hlist .busy trivial
  · exact hpending ▸ hlist .pending trivial
  · intro nb
    have hitems : items.Nodup := (List.nodup_cons.mp h.ahead.nodup).2
    have hnone : (items.flatMap fun item => contents (.packets item)) = [] :=
      List.flatMap_eq_nil_iff.mpr hcan.packets
    have hall : contents .busy ++ contents .pending = netBuffers items contents := by
      rw [netBuffers, hnone, List.nil_append]
    rw [hwalked.completed, hall, List.count_append, (netBuffers_nodup hitems h.holds).count]
  · rintro rfl
    have hnone : after .queue = [] := hqueue
    refine ⟨hnone ▸ hlist .queue hlive, hwalked.freedBuffers, hwalked.freedIrps, ?_⟩
    intro item hitem
    rw [hwalked.purged item hitem]
    exact ⟨rfl, rfl⟩
  · rintro rfl
    have hall : after .queue = items := hqueue
    have hnothing (p : TlpBufItem → Option Nat) :
        (items.flatMap fun item => owned false p (s.item item)) = [] :=
      List.flatMap_eq_nil_iff.mpr fun _ _ => rfl
    refine ⟨?_, ?_, ?_, ?_⟩
    · have hholds := hlist .queue hlive
      rwa [hall] at hholds
    · rw [hwalked.freedBuffers, hnothing, List.append_nil]
    · rw [hwalked.freedIrps, hnothing, List.append_nil]
    · intro item hitem
      rw [hwalked.purged item hitem]
      exact (TlpBufItem.reset_eq_initial_iff _ _).mpr (hcan.blank rfl item hitem)

/-- A purge empties everything exactly if no item holds packets and, unless the items are freed, their
headers are blank. -/
theorem purged_iff (h : Ready lists items turns contents s) {txTLPPendinginUSB : List Nat}
    (husb : waitForUsb txTLPPendinginUSB = true) :
    (∃ s', s.purgeTLPQueuesEx lists uplinkTLPSize freeMemory txTLPPendinginUSB turns = some s' ∧
        Purged lists uplinkTLPSize freeMemory items contents s s') ↔
      Purgeable freeMemory items contents s := by
  by_cases hempty : ∀ item ∈ items, contents (.packets item) = []
  · obtain ⟨t, ht, hwalked, after, hholds, hpackets, hbusy, hpending, hqueue⟩ :=
      h.purge_returns uplinkTLPSize freeMemory hempty husb
    constructor
    · rintro ⟨s', hs', hpurged⟩
      obtain rfl := Option.some.inj (ht.symm.trans hs')
      refine ⟨hempty, ?_⟩
      rintro rfl item hitem
      have hinitial := (hpurged.kept rfl).2.2.2 item hitem
      rw [hwalked.purged item hitem] at hinitial
      exact (TlpBufItem.reset_eq_initial_iff _ _).mp hinitial
    · intro hcan
      exact ⟨t, ht, hwalked.purged_of_holds h hcan hholds hpackets hbusy hpending hqueue⟩
  · have hsome : ∃ item ∈ items, contents (.packets item) ≠ [] := by
      simpa using hempty
    refine iff_of_false ?_ fun hcan => hempty hcan.packets
    rintro ⟨s', hs', -⟩
    rw [h.purge_faults hsome] at hs'
    cases hs'

/-- One item with entry 10 and list 11, and net buffer 21 pending. Net buffer 20 is in the item, if
that is not empty. -/
def oneItem (isEmpty : Bool) : State Nat where
  adapter :=
    { TxLock.freeAdapter true with
      links :=
        let heads := [1, 2, 11].foldl Links.initializeListHead
          (Links.initializeListHead ⟨id, id⟩ 0)
        let links := (heads.insertTailList 0 10).insertTailList 2 21
        if isEmpty then links else links.insertTailList 11 20 }
  item := fun _ => .initial 4096 (some 5) (some 6)
  nb := fun _ => (30, 0)
  visited := []
  completed := []
  freedBuffers := []
  freedIrps := []

def oneItemLists : Lists Nat := ⟨0, 1, 2, fun item => item + 1⟩

def oneItemContents (isEmpty : Bool) : ListName Nat → List Nat
  | .queue => [10]
  | .busy => []
  | .pending => [21]
  | .packets _ => if isEmpty then [] else [20]

theorem oneItem_ready (isEmpty : Bool) :
    Ready oneItemLists [10] 3 (oneItemContents isEmpty) (oneItem isEmpty) := by
  refine ⟨⟨?_, ?_⟩, rfl, ?_⟩
  · intro k hk
    cases k with
    | queue => cases isEmpty <;> exact ⟨⟨⟨rfl, rfl⟩, rfl, rfl⟩, by decide⟩
    | busy => cases isEmpty <;> exact ⟨⟨rfl, rfl⟩, by decide⟩
    | pending => cases isEmpty <;> exact ⟨⟨⟨rfl, rfl⟩, rfl, rfl⟩, by decide⟩
    | packets item =>
      obtain rfl : item = 10 := List.mem_singleton.mp hk
      cases isEmpty with
      | true => exact ⟨⟨rfl, rfl⟩, by decide⟩
      | false => exact ⟨⟨⟨rfl, rfl⟩, rfl, rfl⟩, by decide⟩
  · intro j k hj hk hjk
    cases isEmpty <;> cases j <;> cases k <;>
      simp_all [ListName.Live, oneItemLists, oneItemContents, Lists.head]
  · intro k hk
    cases isEmpty <;> cases k <;> simp [oneItemContents]

/-- The purge of an empty item. -/
theorem purged_empty :
    ∃ s', (oneItem true).purgeTLPQueuesEx oneItemLists 4096 true [1, 0] 3 = some s' ∧
      Purged oneItemLists 4096 true [10] (oneItemContents true) (oneItem true) s' :=
  (purged_iff (oneItem_ready true) rfl).mpr ⟨fun _ _ => rfl, by simp⟩

/-- The purge of an item that holds a packet. -/
theorem not_purged_filled :
    ¬ ∃ turns s', (oneItem false).purgeTLPQueuesEx oneItemLists 4096 true [0] turns = some s' ∧
      Purged oneItemLists 4096 true [10] (oneItemContents false) (oneItem false) s' := by
  rintro ⟨turns, s', hs', -⟩
  rcases Nat.lt_or_ge turns 3 with hfew | hmany
  · interval_cases turns <;> cases hs'
  · have hready : Ready oneItemLists [10] turns (oneItemContents false) (oneItem false) :=
      ⟨(oneItem_ready false).holds, rfl, fun k hk =>
        Nat.lt_of_lt_of_le ((oneItem_ready false).turns k hk) hmany⟩
    rw [hready.purge_faults ⟨10, List.mem_singleton_self 10, by decide⟩] at hs'
    cases hs'

end Ndis.TlpPurge
