-- SUMMARY: The loop over the pending transmit list, and exactly when each of its iterations brings it nearer to its end.
import QcomUsb.Ndis.TlpAgree

/-!
# The loop over the pending list

`MPUSB_TLPProcessPendingTxQueue` asks for each packet whether it can be aggregated. An iteration puts
it into the item at the head, sends that item, or leaves the loop. USB and the transmit timer go on
beside the loop, and no packets arrive.
-/

namespace Ndis.Tlp

open Transition Machine

/-! ## The loop -/

/-- A packet that was completed in the loop, and whether with success. -/
structure TxCompletion where
  packet : Packet
  success : Bool

/-- What the loop works on, and its locals. -/
structure TxLoop where
  txPendingList : List Packet
  uplink : State
  completed : List TxCompletion
  processed : Nat
  kicker : Bool
  bCapacityReached : Bool
  running : Bool

/-- An iteration, with what it reads of the adapter, or a step beside the loop. The adapter is ready
if no flag is set, it is not to power down and not paused. -/
inductive LoopOp
  | iterate (ready txBusy : Bool)
  | beside (op : Op)

/-- An iteration of `MPUSB_TLPProcessPendingTxQueue`. -/
def TxLoop.iterate (a : Adapter) (maxTLPPackets : Nat) (l : TxLoop) (ready txBusy : Bool) : TxLoop :=
  match l.txPendingList with
  | [] => { l with running := false }
  | packet :: rest =>
    match aggregationAvailable a maxTLPPackets l.uplink.uplinkFreeBufferQueue
        (a.getNextTxPacketSize packet) with
    | .more =>
      if ready then
        let call := l.uplink.txPacketEx a (some packet)
        { l with
          txPendingList := rest
          uplink := call.state
          completed := if call.completed then l.completed ++ [⟨packet, true⟩] else l.completed
          processed := l.processed + 1 }
      else if txBusy then
        -- the packet goes back to the head, and the loop waits for 10 ms
        { l with kicker := true }
      else
        { l with
          txPendingList := rest
          completed := l.completed ++ [⟨packet, false⟩]
          kicker := true }
    | .send => { l with uplink := (l.uplink.txPacketEx a none).state }
    | .smallBuf | .noBuf => { l with bCapacityReached := true, running := false }

/-- The steps of USB and of the transmit timer. -/
def Op.isBeside : Op → Bool
  | .complete _ | .timerExpires | .dpcStarts | .dpcEnds => true
  | _ => false

/-- The loop with what goes on beside it. -/
def pendingLoop (a : Adapter) (maxTLPPackets : Nat) : Machine TxLoop LoopOp Unit := fun l op =>
  match op with
  | .iterate ready txBusy =>
    if l.running then some (l.iterate a maxTLPPackets ready txBusy, ()) else none
  | .beside op =>
    if op.isBeside then (step a l.uplink op).map fun uplink => ({ l with uplink := uplink }, ())
    else none

/-! ## Progress -/

/-- The iteration waits for `TxBusyList`: the packet could be aggregated, but the adapter is not
ready. -/
def TxLoop.Waits (a : Adapter) (maxTLPPackets : Nat) (l : TxLoop) (ready txBusy : Bool) : Prop :=
  (∃ packet ∈ l.txPendingList.head?, aggregationAvailable a maxTLPPackets
    l.uplink.uplinkFreeBufferQueue (a.getNextTxPacketSize packet) = .more) ∧
    ready = false ∧ txBusy = true

instance (a : Adapter) (maxTLPPackets : Nat) (l : TxLoop) (ready txBusy : Bool) :
    Decidable (l.Waits a maxTLPPackets ready txBusy) :=
  inferInstanceAs (Decidable ((∃ packet ∈ l.txPendingList.head?, aggregationAvailable a maxTLPPackets
    l.uplink.uplinkFreeBufferQueue (a.getNextTxPacketSize packet) = .more) ∧
      ready = false ∧ txBusy = true))

/-- The iteration removes a packet from the list, hands an item with data to USB, leaves the loop, or
waits. -/
inductive TxLoop.Progresses (a : Adapter) (maxTLPPackets : Nat) (l : TxLoop) (ready txBusy : Bool) :
    Prop
  | removes (packet : Packet)
      (h : l.txPendingList = packet :: (l.iterate a maxTLPPackets ready txBusy).txPendingList)
  | sends (item : Item) (hitem : item ∈ l.uplink.uplinkFreeBufferQueue.head?)
      (hdata : item.dataLength ≠ 0)
      (h : (l.iterate a maxTLPPackets ready txBusy).uplink.inUsb = l.uplink.inUsb ++ [item.seal a])
  | leaves (h : (l.iterate a maxTLPPackets ready txBusy).running = false)
  | waits (h : l.Waits a maxTLPPackets ready txBusy)

/-- The item at the head is empty and still is to be sent before it takes the packet at the head. -/
def TxLoop.Stuck (a : Adapter) (maxTLPPackets : Nat) (l : TxLoop) : Prop :=
  ∃ packet ∈ l.txPendingList.head?, ∃ item ∈ l.uplink.uplinkFreeBufferQueue.head?,
    item.dataLength = 0 ∧ item.TurnsAway a maxTLPPackets (a.getNextTxPacketSize packet)

/-- The number of items with data. -/
def filledItems (queue : List Item) : Nat := queue.countP fun item => item.dataLength ≠ 0

/-- The iterations left at most: two for each packet, one for each item with data, and the last. -/
def TxLoop.iterationsLeft (l : TxLoop) : Nat :=
  if l.running then
    2 * l.txPendingList.length + filledItems l.uplink.uplinkFreeBufferQueue + 1
  else 0

/-- The step is an iteration that does not wait. -/
def LoopOp.counted (a : Adapter) (maxTLPPackets : Nat) (p : TxLoop × LoopOp) : Bool :=
  match p.2 with
  | .iterate ready txBusy => !decide (p.1.Waits a maxTLPPackets ready txBusy)
  | .beside _ => false

/-- Whatever goes on beside it, each iteration of the loop makes progress, and the loop ends: the
number of iterations that do not wait is bounded. -/
def TxLoop.MakesProgress (a : Adapter) (maxTLPPackets : Nat) (l : TxLoop) : Prop :=
  ∀ ops, (∀ p ∈ (pendingLoop a maxTLPPackets).fires l ops, ∀ ready txBusy,
      p.2 = .iterate ready txBusy → p.1.Progresses a maxTLPPackets ready txBusy) ∧
    ((pendingLoop a maxTLPPackets).fires l ops).countP (LoopOp.counted a maxTLPPackets) ≤
      l.iterationsLeft

/-! ## An iteration -/

variable {a : Adapter} {maxTLPPackets : Nat} {l : TxLoop} {ready txBusy : Bool}

/-- What an iteration can do. -/
inductive IterateStep (a : Adapter) (maxTLPPackets : Nat) (l : TxLoop) (ready txBusy : Bool) :
    TxLoop → Prop
  | finished : IterateStep a maxTLPPackets l ready txBusy { l with running := false }
  | calls {packet : Packet} {rest : List Packet} (completed : List TxCompletion)
      (hpending : l.txPendingList = packet :: rest) :
      IterateStep a maxTLPPackets l ready txBusy { l with
        txPendingList := rest
        uplink := (l.uplink.txPacketEx a (some packet)).state
        completed := completed
        processed := l.processed + 1 }
  | waits (h : l.Waits a maxTLPPackets ready txBusy) :
      IterateStep a maxTLPPackets l ready txBusy { l with kicker := true }
  | fails {packet : Packet} {rest : List Packet} (completed : List TxCompletion)
      (hpending : l.txPendingList = packet :: rest) :
      IterateStep a maxTLPPackets l ready txBusy { l with
        txPendingList := rest, completed := completed, kicker := true }
  | sends {item : Item} {rest : List Item} (hqueue : l.uplink.uplinkFreeBufferQueue = item :: rest)
      (hdata : item.dataLength ≠ 0) :
      IterateStep a maxTLPPackets l ready txBusy
        { l with uplink := State.sendItem a { l.uplink with uplinkFreeBufferQueue := rest } item }
  | stuck (h : l.Stuck a maxTLPPackets) : IterateStep a maxTLPPackets l ready txBusy l
  | noBuffer :
      IterateStep a maxTLPPackets l ready txBusy
        { l with bCapacityReached := true, running := false }

theorem aggregationAvailable_eq_send {queue : List Item} {size : Nat}
    (h : aggregationAvailable a maxTLPPackets queue size = .send) :
    ∃ item rest, queue = item :: rest ∧ item.TurnsAway a maxTLPPackets size := by
  cases queue with
  | nil => cases h
  | cons item rest =>
    refine ⟨item, rest, rfl, ?_⟩
    by_contra hmore
    rw [aggregationAvailable, if_neg hmore] at h
    cases h

/-- To send an item without data changes nothing. -/
theorem txPacketEx_none {s : State} {item : Item} {rest : List Item}
    (hqueue : s.uplinkFreeBufferQueue = item :: rest) (hempty : item.dataLength = 0) :
    (s.txPacketEx a none).state = s := by
  simp only [State.txPacketEx, hqueue]
  rw [State.sendItem, if_pos hempty, State.insertHead, ← hqueue]

theorem iterate_cases (a : Adapter) (maxTLPPackets : Nat) (l : TxLoop) (ready txBusy : Bool) :
    IterateStep a maxTLPPackets l ready txBusy (l.iterate a maxTLPPackets ready txBusy) := by
  unfold TxLoop.iterate
  split
  · exact .finished
  · rename_i packet rest hpending
    split
    · rename_i hmore
      split
      · exact .calls _ hpending
      · rename_i hready
        split
        · rename_i hbusy
          have hhead : packet ∈ l.txPendingList.head? := by rw [hpending]; rfl
          exact .waits ⟨⟨packet, hhead, hmore⟩, Bool.eq_false_of_not_eq_true hready, hbusy⟩
        · exact .fails _ hpending
    · rename_i hsend
      obtain ⟨item, items, hqueue, haway⟩ := aggregationAvailable_eq_send hsend
      by_cases hempty : item.dataLength = 0
      · rw [txPacketEx_none hqueue hempty]
        refine .stuck ⟨packet, ?_, item, ?_, hempty, haway⟩
        · rw [hpending]; rfl
        · rw [hqueue]; rfl
      · simp only [State.txPacketEx, hqueue]
        exact .sends hqueue hempty
    · exact .noBuffer
    · exact .noBuffer

/-- A stuck iteration changes nothing. -/
theorem iterate_of_stuck (h : l.Stuck a maxTLPPackets) :
    l.iterate a maxTLPPackets ready txBusy = l := by
  obtain ⟨packet, hpacket, item, hitem, hempty, haway⟩ := h
  obtain ⟨rest, hpending⟩ := List.head?_eq_some_iff.mp hpacket
  obtain ⟨items, hqueue⟩ := List.head?_eq_some_iff.mp hitem
  have hsend : aggregationAvailable a maxTLPPackets l.uplink.uplinkFreeBufferQueue
      (a.getNextTxPacketSize packet) = .send := by
    rw [hqueue, aggregationAvailable, if_pos haway]
  simp only [TxLoop.iterate, hpending, hsend]
  rw [txPacketEx_none hqueue hempty, ← hpending]

theorem not_progresses_of_stuck (hrunning : l.running = true) (h : l.Stuck a maxTLPPackets) :
    ¬ l.Progresses a maxTLPPackets ready txBusy := by
  have hsame : l.iterate a maxTLPPackets ready txBusy = l := iterate_of_stuck h
  obtain ⟨packet, hpacket, item, hitem, hempty, haway⟩ := h
  intro hprogress
  cases hprogress with
  | removes p hp =>
    rw [hsame] at hp
    exact absurd (congrArg List.length hp) (by simp)
  | sends i hi hdata =>
    rw [Option.mem_unique hi hitem] at hdata
    exact hdata hempty
  | leaves hleaves =>
    rw [hsame, hrunning] at hleaves
    cases hleaves
  | waits hwaits =>
    obtain ⟨⟨p, hp, hmore⟩, -⟩ := hwaits
    obtain ⟨items, hqueue⟩ := List.head?_eq_some_iff.mp hitem
    rw [Option.mem_unique hp hpacket, hqueue] at hmore
    exact aggregationAvailable_cons.mp hmore haway

/-- An iteration that is not stuck makes progress. -/
theorem progresses_of_not_stuck (h : ¬ l.Stuck a maxTLPPackets) :
    l.Progresses a maxTLPPackets ready txBusy := by
  have hstep := iterate_cases a maxTLPPackets l ready txBusy
  generalize heq : l.iterate a maxTLPPackets ready txBusy = l' at hstep
  cases hstep with
  | finished | noBuffer => exact .leaves (by rw [heq])
  | @calls packet _ _ hpending => exact .removes packet (by rw [heq, hpending])
  | waits hwaits => exact .waits hwaits
  | @fails packet _ _ hpending => exact .removes packet (by rw [heq, hpending])
  | @sends item _ hqueue hdata =>
    refine .sends item (by rw [hqueue]; rfl) hdata ?_
    rw [heq]
    simp only [State.sendItem, if_neg hdata]
  | stuck hstuck => exact absurd hstuck h

/-! ## The end of the loop -/

theorem filledItems_cons_le (item : Item) (queue : List Item) :
    filledItems (item :: queue) ≤ filledItems queue + 1 := by
  rw [filledItems, filledItems, List.countP_cons]
  split <;> omega

theorem filledItems_cons_of_data {item : Item} {queue : List Item} (h : item.dataLength ≠ 0) :
    filledItems (item :: queue) = filledItems queue + 1 := by
  simp [filledItems, h]

theorem filledItems_sendItem (s : State) (item : Item) :
    filledItems (s.sendItem a item).uplinkFreeBufferQueue = filledItems s.uplinkFreeBufferQueue := by
  unfold State.sendItem
  split
  · rename_i hempty
    simp [filledItems, State.insertHead, hempty]
  · rfl

theorem filledItems_keepOrSend (s : State) (filled : Item) :
    filledItems (s.keepOrSend a filled).uplinkFreeBufferQueue ≤
      filledItems s.uplinkFreeBufferQueue + 1 := by
  unfold State.keepOrSend
  split
  · exact filledItems_cons_le filled _
  · split
    · exact (filledItems_sendItem s filled).le.trans (Nat.le_succ _)
    · exact (filledItems_sendItem { s with timer := s.timer.cancel } filled).le.trans (Nat.le_succ _)

/-- A call puts data into one item at most. -/
theorem filledItems_txPacketEx (s : State) (packet : Packet) :
    filledItems (s.txPacketEx a (some packet)).state.uplinkFreeBufferQueue ≤
      filledItems s.uplinkFreeBufferQueue + 1 := by
  cases hqueue : s.uplinkFreeBufferQueue with
  | nil => simp [State.txPacketEx, hqueue, filledItems]
  | cons item rest =>
    simp only [State.txPacketEx, hqueue]
    split
    · split
      · rw [hqueue]
        exact Nat.le_succ _
      · rename_i filled hfill
        have hrest : filledItems rest ≤ filledItems (item :: rest) := 
          (List.sublist_cons_self item rest).countP_le
        exact (filledItems_keepOrSend _ filled).trans (Nat.add_le_add_right hrest 1)
    · rw [hqueue]
      exact Nat.le_succ _

/-- An iteration that makes progress and does not wait leaves fewer iterations. -/
theorem iterationsLeft_iterate (hrunning : l.running = true) (h : ¬ l.Stuck a maxTLPPackets) :
    (l.iterate a maxTLPPackets ready txBusy).iterationsLeft +
      (if LoopOp.counted a maxTLPPackets (l, .iterate ready txBusy) then 1 else 0) ≤
      l.iterationsLeft := by
  have hone : (if LoopOp.counted a maxTLPPackets (l, .iterate ready txBusy) then 1 else 0) ≤ 1 := by
    split <;> decide
  have hstep := iterate_cases a maxTLPPackets l ready txBusy
  generalize l.iterate a maxTLPPackets ready txBusy = l' at hstep
  cases hstep with
  | finished | noBuffer =>
    simp only [TxLoop.iterationsLeft, hrunning, if_true, Bool.false_eq_true, if_false]
    omega
  | @calls packet rest completed hpending =>
    have hfilled := filledItems_txPacketEx (a := a) l.uplink packet
    simp only [TxLoop.iterationsLeft, hrunning, if_true, hpending, List.length_cons]
    omega
  | waits hwaits =>
    have hnot : LoopOp.counted a maxTLPPackets (l, .iterate ready txBusy) = false := by
      simp [LoopOp.counted, hwaits]
    rw [hnot]
    exact Nat.le_refl _
  | @fails packet rest completed hpending =>
    simp only [TxLoop.iterationsLeft, hrunning, if_true, hpending, List.length_cons]
    omega
  | @sends item rest hqueue hdata =>
    have hfilled := filledItems_sendItem (a := a) { l.uplink with uplinkFreeBufferQueue := rest } item
    have hitems : filledItems (item :: rest) = filledItems rest + 1 := filledItems_cons_of_data hdata
    simp only [TxLoop.iterationsLeft, hrunning, if_true, hfilled, hqueue, hitems]
    omega
  | stuck hstuck => exact absurd hstuck h

/-- Beside the loop, an item that comes back from USB goes to the end of the queue. -/
theorem beside_queue {s s' : State} {op : Op} (hop : op.isBeside = true)
    (hs : step a s op = some s') :
    s'.uplinkFreeBufferQueue = s.uplinkFreeBufferQueue ∨
      ∃ item : Item, s'.uplinkFreeBufferQueue = s.uplinkFreeBufferQueue ++ [item.recycle a] := by
  have htimer : ∀ t, s.withTimer t = some s' →
      s'.uplinkFreeBufferQueue = s.uplinkFreeBufferQueue := by
    intro t ht
    obtain ⟨t, -, rfl⟩ := Option.map_eq_some_iff.mp ht
    rfl
  cases op with
  | complete k =>
    simp only [step, State.complete] at hs
    split at hs
    · cases hs
    · rename_i item _
      cases hs
      exact .inr ⟨item, rfl⟩
  | timerExpires | dpcStarts | dpcEnds => exact .inl (htimer _ hs)
  | _ => exact absurd hop Bool.false_ne_true

theorem filledItems_beside {s s' : State} {op : Op} (hop : op.isBeside = true)
    (hs : step a s op = some s') :
    filledItems s'.uplinkFreeBufferQueue = filledItems s.uplinkFreeBufferQueue := by
  rcases beside_queue hop hs with hsame | ⟨item, hrecycled⟩
  · rw [hsame]
  · rw [hrecycled, filledItems, List.countP_append]
    rfl

theorem iterationsLeft_step {l l' : TxLoop} {op : LoopOp} {o : Unit}
    (h : ∀ ready txBusy, op = .iterate ready txBusy → ¬ l.Stuck a maxTLPPackets)
    (hs : pendingLoop a maxTLPPackets l op = some (l', o)) :
    l'.iterationsLeft + (if LoopOp.counted a maxTLPPackets (l, op) then 1 else 0) ≤
      l.iterationsLeft := by
  cases op with
  | iterate ready txBusy =>
    obtain ⟨hrunning, heq⟩ := Option.ite_none_right_eq_some.mp hs
    cases heq
    exact iterationsLeft_iterate hrunning (h ready txBusy rfl)
  | beside op =>
    obtain ⟨hbeside, hs⟩ := Option.ite_none_right_eq_some.mp hs
    obtain ⟨uplink, hstep, heq⟩ := Option.map_eq_some_iff.mp hs
    cases heq
    have hfilled := filledItems_beside hbeside hstep
    simp only [TxLoop.iterationsLeft, hfilled]
    exact Nat.le_refl _

theorem makesProgress_of_not_stuck
    (h : ∀ ops, ∀ p ∈ (pendingLoop a maxTLPPackets).fires l ops, ∀ ready txBusy,
      p.2 = .iterate ready txBusy → ¬ p.1.Stuck a maxTLPPackets) : l.MakesProgress a maxTLPPackets := by
  intro ops
  refine ⟨fun p hp ready txBusy hiterate => ?_, ?_⟩
  · exact progresses_of_not_stuck (h ops p hp ready txBusy hiterate)
  · exact countP_fires_le fun p hp l' o hs => iterationsLeft_step (h ops p hp) hs

/-- The loop makes progress to its end exactly when no iteration finds an empty item that turns the
next packet away. -/
theorem makesProgress_iff (a : Adapter) (maxTLPPackets : Nat) (l : TxLoop) :
    l.MakesProgress a maxTLPPackets ↔
      ∀ ops, ∀ p ∈ (pendingLoop a maxTLPPackets).fires l ops, ∀ ready txBusy,
        p.2 = .iterate ready txBusy → ¬ p.1.Stuck a maxTLPPackets := by
  constructor
  · intro h ops p hp ready txBusy hiterate hstuck
    obtain ⟨l', o, hfire⟩ := exists_of_mem_fires hp
    rw [hiterate] at hfire
    obtain ⟨hrunning, -⟩ := Option.ite_none_right_eq_some.mp hfire
    exact not_progresses_of_stuck hrunning hstuck ((h ops).1 p hp ready txBusy hiterate)
  · exact makesProgress_of_not_stuck

/-- A packet as long as an empty item is never put into one, and the loop does not end. -/
theorem not_makesProgress :
    ¬ TxLoop.MakesProgress (quiet .qmapV1) 0
      ⟨[⟨List.replicate 100 0x45, false, 0⟩], .initial (quiet .qmapV1) 1, [], 0, false, false, true⟩ := by
  intro h
  have hprogress := (h [.iterate true false]).1 _ List.mem_cons_self true false rfl
  exact not_progresses_of_stuck rfl ⟨_, rfl, _, rfl, rfl, by decide +kernel⟩ hprogress

/-! ## Packets that fit into an empty item -/

/-- An item without data is as it came back from USB. -/
def Item.FreshIfEmpty (a : Adapter) (item : Item) : Prop :=
  item.dataLength = 0 → item.currentPtr = 0 ∧ item.remainingCapacity = a.uplinkTLPSize ∧
    item.aggregationCount = 0

/-- The items without data are fresh, and the check lets each packet through to a fresh item. -/
structure TxLoop.Roomy (a : Adapter) (l : TxLoop) : Prop where
  items : ∀ item ∈ l.uplink.uplinkFreeBufferQueue, item.FreshIfEmpty a
  packets : ∀ packet ∈ l.txPendingList,
    a.getNextTxPacketSize packet + (Item.initial a).checkRoom a < a.uplinkTLPSize

theorem TxLoop.Roomy.not_stuck (h : l.Roomy a) : ¬ l.Stuck a maxTLPPackets := by
  rintro ⟨packet, hpacket, item, hitem, hempty, -, haway⟩
  obtain ⟨-, hroom, hcount⟩ := h.items item (List.mem_of_mem_head? hitem) hempty
  have hsmall := h.packets packet (List.mem_of_mem_head? hpacket)
  rcases haway with ⟨hpos, hmax⟩ | hfull
  · omega
  · have hcheck : item.checkRoom a = (Item.initial a).checkRoom a := by
      simp only [Item.checkRoom, hcount]
      rfl
    rw [hroom, hcheck] at hfull
    omega

theorem Item.placePacket_cursors (item : Item) (usb : Nat) (data : List UInt8) :
    (item.placePacket a usb data).1.currentPtr = item.currentPtr ∧
      (item.placePacket a usb data).1.dataLength = item.dataLength := by
  unfold Item.placePacket
  dsimp only
  split <;> exact ⟨rfl, rfl⟩

/-- Where there is a header, an item that has taken a packet has data. -/
theorem Item.fill_hasData {item filled : Item} {ntbSequence : UInt16} {packet : Packet}
    (hmode : a.mode ≠ .plain) (hitem : item.FreshIfEmpty a)
    (hfill : item.fill a ntbSequence packet = some filled) : filled.dataLength ≠ 0 := by
  obtain ⟨-, heq⟩ := Option.ite_none_right_eq_some.mp hfill
  obtain ⟨hptr, hlen⟩ := item.placePacket_cursors (a := a) (item.usbBuffer a) packet.data
  have hframe : filled.dataLength =
      ((item.placePacket a (item.usbBuffer a) packet.data).1.frame a ntbSequence (item.usbBuffer a)
        (item.placePacket a (item.usbBuffer a) packet.data).2).dataLength := by
    rw [← Option.some.inj heq]
    rfl
  rw [hframe]
  generalize item.placePacket a (item.usbBuffer a) packet.data = placed at hptr hlen
  unfold Item.frame
  cases hcase : a.mode with
  | plain => exact absurd hcase hmode
  | tlp => exact Nat.succ_ne_zero _
  | qmapV1 | qmapV2 | qmapV3 | qmapV4 =>
    simp [Item.writeQmap, Item.advance, hcase, Mode.headerLen]
  | mbim =>
    by_cases hfirst : placed.1.currentPtr = 0
    · simp [Item.startBlock, hfirst, Item.addDatagram, Item.advance, Item.addWord, Item.write]
    · have hdata : item.dataLength ≠ 0 := fun hempty => hfirst (hptr.trans (hitem hempty).1)
      simp [Item.startBlock, hfirst, Item.addDatagram, Item.advance, Item.addWord, Item.write, hlen,
        hdata]

theorem sendItem_fresh {s : State} {item : Item} (hdata : item.dataLength ≠ 0)
    (h : ∀ i ∈ s.uplinkFreeBufferQueue, i.FreshIfEmpty a) :
    ∀ i ∈ (s.sendItem a item).uplinkFreeBufferQueue, i.FreshIfEmpty a := by
  rw [State.sendItem, if_neg hdata]
  exact h

theorem txPacketEx_fresh {s : State} (hmode : a.mode ≠ .plain) (packet : Packet)
    (h : ∀ i ∈ s.uplinkFreeBufferQueue, i.FreshIfEmpty a) :
    ∀ i ∈ (s.txPacketEx a (some packet)).state.uplinkFreeBufferQueue, i.FreshIfEmpty a := by
  cases hqueue : s.uplinkFreeBufferQueue with
  | nil => simp [State.txPacketEx, hqueue]
  | cons item rest =>
    have hitem := List.forall_mem_cons.mp (hqueue ▸ h)
    simp only [State.txPacketEx, hqueue]
    split
    · split
      · exact h
      · rename_i filled hfill
        have hdata : filled.dataLength ≠ 0 := Item.fill_hasData hmode hitem.1 hfill
        unfold State.keepOrSend
        split
        · exact List.forall_mem_cons.mpr ⟨fun hempty => absurd hempty hdata, hitem.2⟩
        · exact sendItem_fresh hdata hitem.2
    · exact h

theorem beside_fresh {s s' : State} {op : Op} (hop : op.isBeside = true)
    (hs : step a s op = some s') (h : ∀ i ∈ s.uplinkFreeBufferQueue, i.FreshIfEmpty a) :
    ∀ i ∈ s'.uplinkFreeBufferQueue, i.FreshIfEmpty a := by
  rcases beside_queue hop hs with hsame | ⟨item, hrecycled⟩
  · rw [hsame]
    exact h
  · rw [hrecycled]
    exact List.forall_mem_append.mpr ⟨h, List.forall_mem_singleton.mpr fun _ => ⟨rfl, rfl, rfl⟩⟩

theorem TxLoop.Roomy.step {l l' : TxLoop} {op : LoopOp} {o : Unit} (hmode : a.mode ≠ .plain)
    (h : l.Roomy a) (hs : pendingLoop a maxTLPPackets l op = some (l', o)) : l'.Roomy a := by
  cases op with
  | iterate ready txBusy =>
    obtain ⟨-, heq⟩ := Option.ite_none_right_eq_some.mp hs
    cases heq
    have hstep := iterate_cases a maxTLPPackets l ready txBusy
    generalize l.iterate a maxTLPPackets ready txBusy = l' at hstep
    cases hstep with
    | finished | noBuffer | waits | stuck => exact ⟨h.items, h.packets⟩
    | @calls packet _ _ hpending =>
      exact ⟨txPacketEx_fresh hmode packet h.items,
        (List.forall_mem_cons.mp (hpending ▸ h.packets)).2⟩
    | fails _ hpending => exact ⟨h.items, (List.forall_mem_cons.mp (hpending ▸ h.packets)).2⟩
    | sends hqueue hdata =>
      exact ⟨sendItem_fresh hdata (List.forall_mem_cons.mp (hqueue ▸ h.items)).2, h.packets⟩
  | beside op =>
    obtain ⟨hbeside, hs⟩ := Option.ite_none_right_eq_some.mp hs
    obtain ⟨uplink, hstep, heq⟩ := Option.map_eq_some_iff.mp hs
    cases heq
    exact ⟨beside_fresh hbeside hstep h.items, h.packets⟩

/-- In the modes the loop is run in, it ends when every packet is small enough for an empty item. -/
theorem makesProgress_of_roomy (hmode : a.mode = .plain → a.mpQuickTx = true) (h : l.Roomy a) :
    l.MakesProgress a maxTLPPackets := by
  by_cases hplain : a.mode = .plain
  · -- under `MPQuickTx` no packet is turned away
    refine makesProgress_of_not_stuck fun ops p _ ready txBusy _ => ?_
    rintro ⟨packet, -, item, -, -, hchecked, -⟩
    simp [Adapter.unchecked, hplain, hmode hplain] at hchecked
  · have hstep : ∀ (l : TxLoop) op l' o, l.Roomy a → True →
        pendingLoop a maxTLPPackets l op = some (l', o) → l'.Roomy a :=
      fun l op l' o hl _ hs => hl.step hplain hs
    refine makesProgress_of_not_stuck fun ops p hp ready txBusy _ => ?_
    have hroomy := visits_all hstep h (fun _ _ => trivial) _ (fst_mem_visits_of_mem_fires hp)
    exact hroomy.not_stuck

end Ndis.Tlp
