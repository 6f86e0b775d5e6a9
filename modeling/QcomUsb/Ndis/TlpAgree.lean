-- SUMMARY: In every mode, exactly when the aggregator finds the room that the check for a packet has found.
import QcomUsb.Ndis.TlpCall
import QcomUsb.Ndis.TlpUplink

/-!
# The check and the aggregator

The check and the aggregator ask for different room. Where less is left than the aggregator asks for
and more than the check does, the packet is taken off its list and completed, and is in no item.
-/

namespace Ndis.Tlp

/-! ## Room -/

/-- The room the aggregator asks for beside `sendBytes`. -/
def Item.fillRoom (a : Adapter) (item : Item) : Nat :=
  match a.mode with
  | .qmapV1 => 8 + 4
  | .qmapV2 | .qmapV3 | .qmapV4 => 8 + 4 + 4
  | .mbim => (if item.currentPtr = 0 then 12 else 0) + 8 + 4 * (item.aggregationCount + 2) + 8
  | .tlp | .plain => 8

/-- The aggregator has room in the item for a packet of the size the check was asked about. It counts
the QoS header once more. A block takes no more datagrams than its table has entries for. -/
def Item.Takes (a : Adapter) (item : Item) (sizeOfPacket : Nat) : Prop :=
  (sizeOfPacket + a.qosLen + item.fillRoom a : Nat) < item.remainingCapacity ∧
    (a.mode = .mbim → item.aggregationCount < numDatagrams - 2)

variable {a : Adapter} {item : Item}

theorem Item.fits_iff (n : Nat) : Item.Fits a item (n + a.qosLen) ↔ item.Takes a n := by
  unfold Item.Fits Item.Takes Item.fillRoom
  cases a.mode with
  | mbim =>
    simp only [forall_const]
    refine and_congr_left fun _ => ?_
    split <;> push_cast <;> constructor <;> intro h <;> omega
  | qmapV1 | qmapV2 | qmapV3 | qmapV4 | tlp | plain =>
    simp only [reduceCtorEq, false_imp_iff, and_true]
    push_cast
    constructor <;> intro h <;> omega

/-! ## The call after the check -/

/-- If the check answers that the packet can be aggregated, the call that follows puts it behind the
packets of the item at the head, and does not complete it without having copied it. -/
def AggregationHonoured (a : Adapter) (maxTLPPackets : Nat) (s : State) (packet : Packet) : Prop :=
  aggregationAvailable a maxTLPPackets s.uplinkFreeBufferQueue (a.getNextTxPacketSize packet)
      = .more →
    (∃ item ∈ s.uplinkFreeBufferQueue.head?,
      ∃ after ∈ (s.txPacketEx a (some packet)).state.uplinkFreeBufferQueue ++
          (s.txPacketEx a (some packet)).state.inUsb,
        after.accepted = item.accepted ++ [acceptedPacket a packet.data]) ∧
    ((s.txPacketEx a (some packet)).completed = true →
      (s.txPacketEx a (some packet)).copied = true)

variable {s : State} {maxTLPPackets : Nat} {packet : Packet}

theorem aggregationAvailable_cons {rest : List Item} {size : Nat} :
    aggregationAvailable a maxTLPPackets (item :: rest) size = .more ↔
      ¬ item.TurnsAway a maxTLPPackets size := by
  rw [aggregationAvailable]
  split
  · rename_i haway
    simp [haway]
  · rename_i hmore
    simp [hmore]

theorem Item.seal_accepted (item : Item) : (item.seal a).accepted = item.accepted := by
  unfold Item.seal
  split <;> rfl

theorem sendItem_mem (s : State) (item : Item) :
    ∃ after ∈ (s.sendItem a item).uplinkFreeBufferQueue ++ (s.sendItem a item).inUsb,
      after.accepted = item.accepted := by
  unfold State.sendItem
  split
  · exact ⟨item, by simp [State.insertHead], rfl⟩
  · exact ⟨item.seal a, by simp, item.seal_accepted⟩

/-- The item that has taken the packet is in the queue or in USB. -/
theorem keepOrSend_mem (s : State) (filled : Item) :
    ∃ after ∈ (s.keepOrSend a filled).uplinkFreeBufferQueue ++ (s.keepOrSend a filled).inUsb,
      after.accepted = filled.accepted := by
  unfold State.keepOrSend
  split
  · exact ⟨filled, by simp [State.insertHead], rfl⟩
  · split <;> exact sendItem_mem _ _

theorem Item.fill_accepted {ntbSequence : UInt16} {filled : Item}
    (h : item.fill a ntbSequence packet = some filled) :
    filled.accepted = item.accepted ++ [acceptedPacket a packet.data] := by
  obtain ⟨-, heq⟩ := Option.ite_none_right_eq_some.mp h
  rw [← Option.some.inj heq]

/-- The aggregator fills the item exactly when it has room. -/
theorem Item.fill_isSome (ntbSequence : UInt16) (hreadable : packet.Readable) :
    (item.fill a ntbSequence packet).isSome = true ↔ item.Takes a (a.getNextTxPacketSize packet) := by
  rw [← Item.fits_iff, Adapter.getNextTxPacketSize, if_pos hreadable]
  unfold Item.fill
  split <;> simp_all

/-- The call copies a packet that can be read into an item with room, and no other. -/
theorem txPacketEx_copies {rest : List Item} (hqueue : s.uplinkFreeBufferQueue = item :: rest) :
    ((∃ after ∈ (s.txPacketEx a (some packet)).state.uplinkFreeBufferQueue ++
          (s.txPacketEx a (some packet)).state.inUsb,
        after.accepted = item.accepted ++ [acceptedPacket a packet.data]) ∧
      ((s.txPacketEx a (some packet)).completed = true →
        (s.txPacketEx a (some packet)).copied = true)) ↔
      packet.Readable ∧ item.Takes a (a.getNextTxPacketSize packet) := by
  simp only [State.txPacketEx, hqueue]
  split
  · rename_i hreadable
    rw [← Item.fill_isSome (UInt16.ofNat s.ntbSequence) hreadable]
    split
    · rename_i hfill
      simp [hfill]
    · rename_i filled hfill
      obtain ⟨after, hmem, haccepted⟩ := keepOrSend_mem (a := a) { s with
        uplinkFreeBufferQueue := rest
        ntbSequence := if a.mode = Mode.mbim ∧ item.currentPtr = 0 then nextSequence s.ntbSequence
          else s.ntbSequence } filled
      rw [Item.fill_accepted hfill] at haccepted
      exact ⟨fun _ => ⟨hreadable, by rw [hfill]; rfl⟩, fun _ => ⟨⟨after, hmem, haccepted⟩, fun _ => rfl⟩⟩
  · rename_i hrefused
    simp [hrefused]

/-- The aggregator finds the room that the check has found exactly when the check turns the packet
away, or the packet can be read and the item has the room that the aggregator asks for. -/
theorem aggregationHonoured_iff (a : Adapter) (maxTLPPackets : Nat) (s : State) (packet : Packet) :
    AggregationHonoured a maxTLPPackets s packet ↔ ∀ item ∈ s.uplinkFreeBufferQueue.head?,
      item.TurnsAway a maxTLPPackets (a.getNextTxPacketSize packet) ∨
        packet.Readable ∧ item.Takes a (a.getNextTxPacketSize packet) := by
  unfold AggregationHonoured
  cases hqueue : s.uplinkFreeBufferQueue with
  | nil => simp [aggregationAvailable]
  | cons item rest =>
    rw [aggregationAvailable_cons, List.head?_cons]
    simp only [Option.mem_some_iff, forall_eq', exists_eq_left']
    rw [txPacketEx_copies hqueue, or_iff_not_imp_left]

theorem not_honoured
    (hmore : aggregationAvailable a maxTLPPackets s.uplinkFreeBufferQueue
      (a.getNextTxPacketSize packet) = .more)
    (hcompleted : (s.txPacketEx a (some packet)).completed = true)
    (hcopied : (s.txPacketEx a (some packet)).copied = false) :
    ¬ AggregationHonoured a maxTLPPackets s packet := fun hhonoured =>
  absurd ((hhonoured hmore).2 hcompleted) (by simp [hcopied])

/-- Packets that the check lets through to an empty item of 100 bytes are completed and are in no
item: 90 bytes with a checksum header, and 64 bytes in a block. -/
theorem aggregation_not_honoured :
    ¬ AggregationHonoured (quiet .qmapV2) 0 (.initial (quiet .qmapV2) 1)
        ⟨List.replicate 90 0x45, false, 0⟩ ∧
      ¬ AggregationHonoured (quiet .mbim) 0 (.initial (quiet .mbim) 1)
        ⟨List.replicate 64 0x45, false, 0⟩ :=
  ⟨not_honoured (by decide +kernel) (by decide +kernel) (by decide +kernel),
    not_honoured (by decide +kernel) (by decide +kernel) (by decide +kernel)⟩

end Ndis.Tlp
