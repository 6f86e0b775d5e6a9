-- SUMMARY: The check whether a packet can be aggregated, and a whole call of the aggregator on the queue of transfer buffers.
import QcomUsb.Ndis.TlpQueue

/-!
# The check and the call

`MPUSB_AggregationAvailable` says what is to be done with the packet at the head of a transmit list,
and `MPUSB_TLPTxPacketEx` is called for it. Both compute the room a packet needs. `TxPendingList` has
one reader, so that the item at the head of the queue stays there between the two. Lengths are
integers: a packet is far shorter than 2 GB, and the capacity of an item does not become negative.
-/

namespace Ndis.Tlp

open Transition Memory

/-! ## The check -/

/-- The answers of `MPUSB_AggregationAvailable`, the constants `TLP_AGG_*`. -/
inductive TlpAgg
  | send
  | more
  | smallBuf
  | noBuf
deriving DecidableEq

/-- `MPUSB_QueryDataPacket` can read the packet. Nothing sets `AbortFlag` of a list that is
aggregated, so that a packet is refused only because it cannot be read. -/
def Packet.Readable (packet : Packet) : Prop := packet.refused = false ∧ packet.data ≠ []

instance (packet : Packet) : Decidable packet.Readable :=
  inferInstanceAs (Decidable (packet.refused = false ∧ packet.data ≠ []))

/-- `GetNextTxPacketSize`: the length `MPUSB_QueryDataPacket` gives, with the QoS header. -/
def Adapter.getNextTxPacketSize (a : Adapter) (packet : Packet) : Nat :=
  if packet.Readable then packet.data.length + a.qosLen else 0

/-- The room the check asks for beside the packet. What it has found for V2 to V4 is replaced by what
the last branch finds. -/
def Item.checkRoom (a : Adapter) (item : Item) : Nat :=
  match a.mode with
  | .qmapV1 => 8 + 4
  | .mbim => 8 + 4 * (item.aggregationCount + 4) + 8
  | .qmapV2 | .qmapV3 | .qmapV4 | .tlp | .plain => 8

/-- Without aggregation, packets are taken off the list whatever their size under `MPQuickTx`. -/
def Adapter.unchecked (a : Adapter) : Bool := a.mode = .plain ∧ a.mpQuickTx = true

/-- The check wants the item to be sent first: it has `MaxTLPPackets`, or too little room. -/
def Item.TurnsAway (a : Adapter) (maxTLPPackets : Nat) (item : Item) (sizeOfPacket : Nat) : Prop :=
  a.unchecked = false ∧
    ((0 < maxTLPPackets ∧ maxTLPPackets ≤ item.aggregationCount) ∨
      item.remainingCapacity ≤ (sizeOfPacket + item.checkRoom a : Nat))

instance (a : Adapter) (maxTLPPackets : Nat) (item : Item) (sizeOfPacket : Nat) :
    Decidable (item.TurnsAway a maxTLPPackets sizeOfPacket) :=
  inferInstanceAs (Decidable (a.unchecked = false ∧
    ((0 < maxTLPPackets ∧ maxTLPPackets ≤ item.aggregationCount) ∨
      item.remainingCapacity ≤ (sizeOfPacket + item.checkRoom a : Nat))))

/-- `MPUSB_AggregationAvailable`. -/
def aggregationAvailable (a : Adapter) (maxTLPPackets : Nat) (queue : List Item)
    (sizeOfPacket : Nat) : TlpAgg :=
  match queue with
  | [] => .noBuf
  | item :: _ => if item.TurnsAway a maxTLPPackets sizeOfPacket then .send else .more

/-! ## The call -/

/-- What a call of `MPUSB_TLPTxPacketEx` leaves. An observer notes whether it copied its packet into
an item, and whether it completed it, which it does with success. -/
structure Call where
  state : State
  copied : Bool
  completed : Bool

/-- From `PrepareIrp` on: an item without data goes back to the head of the queue. -/
def State.sendItem (a : Adapter) (s : State) (item : Item) : State :=
  if item.dataLength = 0 then s.insertHead item
  else
    let item := item.seal a
    { s with
      inUsb := s.inUsb ++ [item]
      sent := s.sent ++ [⟨item.sendBuffer, item.accepted⟩] }

/-- The item has taken the packet, and stays for more or is sent. -/
def State.keepOrSend (a : Adapter) (s : State) (filled : Item) : State :=
  if Item.Stays a filled then
    let s := s.insertHead filled
    { s with timer := s.timer.set }
  else if a.mode = .plain then s.sendItem a filled
  else ({ s with timer := s.timer.cancel } : State).sendItem a filled

/-- `MPUSB_TLPTxPacketEx`. A packet that finds no room is completed all the same. -/
def State.txPacketEx (a : Adapter) (s : State) (pList : Option Packet) : Call :=
  match s.uplinkFreeBufferQueue, pList with
  | [], none => ⟨s, false, false⟩
  | [], some _ => ⟨s, false, true⟩
  | item :: rest, none =>
    ⟨({ s with uplinkFreeBufferQueue := rest } : State).sendItem a item, false, false⟩
  | item :: rest, some packet =>
    if packet.Readable then
      match item.fill a (UInt16.ofNat s.ntbSequence) packet with
      | none => ⟨s, false, true⟩
      | some filled =>
        let s := { s with
          uplinkFreeBufferQueue := rest
          ntbSequence := if a.mode = Mode.mbim ∧ item.currentPtr = 0 then nextSequence s.ntbSequence
            else s.ntbSequence }
        ⟨s.keepOrSend a filled, true,
          a.mpQuickTx || (filled.dataLength == 0 && !decide (Item.Stays a filled))⟩
    else ⟨s, false, true⟩

/-! ## Calls and the machine -/

variable {a : Adapter} {s t : State}

/-- How a thread begins a call. -/
def enterOp : Option Packet → Op
  | none => .flush
  | some packet => .send packet

/-- The only thread inside takes its next steps. -/
def Runs (a : Adapter) (s t : State) : Prop :=
  ∃ n os, (tlpMachine a).run s (List.replicate n (.advance 0)) = some (t, os)

theorem Runs.refl (s : State) : Runs a s s := ⟨0, [], rfl⟩

theorem Runs.step {t u : State} (h : s.advance a 0 = some t) (hrun : Runs a t u) : Runs a s u := by
  obtain ⟨n, os, hrun⟩ := hrun
  refine ⟨n + 1, () :: os, ?_⟩
  have hstep : tlpMachine a s (.advance 0) = some (t, ()) := by simp [tlpMachine, Tlp.step, h]
  exact Machine.run_cons_eq_some.mpr ⟨t, (), os, hstep, hrun, rfl⟩

/-- Only one thread is inside. -/
def State.alone (s : State) (phase : Phase) : State := { s with inside := [phase] }

theorem advance_alone_none {phase : Phase} (h : (s.alone phase).advance a 0 =
    some ((t.alone phase).goTo 0 none)) (hnone : t.inside = []) : Runs a (s.alone phase) t := by
  have hgone : (t.alone phase).goTo 0 none = t := by
    simp only [State.alone, State.goTo, List.eraseIdx_zero, List.tail_cons, ← hnone]
  rw [hgone] at h
  exact Runs.step h (.refl t)

theorem runs_restoring (hnone : s.inside = []) (item : Item) :
    Runs a (s.alone (.restoring (some item))) (s.insertHead item) :=
  advance_alone_none rfl hnone

theorem runs_restoring_none (hnone : s.inside = []) : Runs a (s.alone (.restoring none)) s :=
  advance_alone_none rfl hnone

theorem runs_sending (hnone : s.inside = []) (item : Item) :
    Runs a (s.alone (.sending (some item))) (s.sendItem a item) := by
  have hadvance : (s.alone (.sending (some item))).advance a 0 =
      some ((s.alone (.sending (some item))).prepareIrp a 0 item) := rfl
  unfold State.sendItem
  unfold State.prepareIrp at hadvance
  split
  · rename_i hempty
    rw [if_pos hempty] at hadvance
    exact Runs.step hadvance (runs_restoring hnone item)
  · rename_i hdata
    rw [if_neg hdata] at hadvance
    exact advance_alone_none hadvance hnone

/-- The item stays or is sent once it has taken the packet. -/
theorem runs_keepOrSend (hnone : s.inside = []) (filled : Item) :
    Runs a (s.alone (if Item.Stays a filled then .staying filled
      else if a.mode = .plain then .sending (some filled) else .full filled))
      (s.keepOrSend a filled) := by
  unfold State.keepOrSend
  split
  · have hstayed : Runs a ((s.insertHead filled).alone .stayed)
        { s.insertHead filled with timer := s.timer.set } := advance_alone_none rfl hnone
    exact Runs.step (t := (s.insertHead filled).alone .stayed) rfl hstayed
  · split
    · exact runs_sending hnone filled
    · have hnone' : ({ s with timer := s.timer.cancel } : State).inside = [] := hnone
      exact Runs.step (t := State.alone { s with timer := s.timer.cancel } (.sending (some filled)))
        rfl (runs_sending hnone' filled)

theorem runs_took_none (hnone : s.inside = []) (item : Item) :
    Runs a (s.alone (.took (some item) none)) (s.sendItem a item) :=
  Runs.step (t := s.alone (.sending (some item))) rfl (runs_sending hnone item)

theorem Packet.not_readable {packet : Packet} :
    ¬ packet.Readable ↔ packet.refused = true ∨ packet.data = [] := by
  rw [Packet.Readable, not_and_or, Bool.not_eq_false, not_not]

/-- A packet that is refused or finds no room leaves the item as it was. -/
theorem process_restoring (phase : Phase) {item : Item} {packet : Packet}
    (h : packet.Readable → item.fill a (UInt16.ofNat s.ntbSequence) packet = none) :
    (s.alone phase).process a 0 (some item) packet = s.alone (.restoring (some item)) := by
  dsimp only [State.process]
  split
  · rfl
  · rename_i hreadable
    have hfill := h (not_not.mp fun hnot => hreadable (Packet.not_readable.mp hnot))
    have hfill : item.fill a (UInt16.ofNat (s.alone phase).ntbSequence) packet = none := hfill
    rw [hfill]
    rfl

theorem process_filled (phase : Phase) {item filled : Item} {packet : Packet}
    (hreadable : packet.Readable)
    (hfill : item.fill a (UInt16.ofNat s.ntbSequence) packet = some filled) :
    (s.alone phase).process a 0 (some item) packet = State.alone
      { s with ntbSequence := if a.mode = Mode.mbim ∧ item.currentPtr = 0 then
          nextSequence s.ntbSequence else s.ntbSequence }
      (if Item.Stays a filled then .staying filled
        else if a.mode = .plain then .sending (some filled) else .full filled) := by
  have hfill : item.fill a (UInt16.ofNat (s.alone phase).ntbSequence) packet = some filled := hfill
  dsimp only [State.process]
  rw [if_neg (fun hnot => Packet.not_readable.mpr hnot hreadable), hfill]
  dsimp only
  split_ifs <;> rfl

/-- The thread with its packet and an item: the packet is refused, finds no room, or is copied. -/
theorem runs_took (hnone : s.inside = []) {item : Item} {rest : List Item} (packet : Packet)
    (hqueue : s.uplinkFreeBufferQueue = item :: rest) :
    Runs a (State.alone { s with uplinkFreeBufferQueue := rest } (.took (some item) (some packet)))
      (s.txPacketEx a (some packet)).state := by
  have hback : Runs a (State.alone { s with uplinkFreeBufferQueue := rest }
      (.restoring (some item))) s := by
    have hhead : State.insertHead { s with uplinkFreeBufferQueue := rest } item = s := by
      rw [State.insertHead, ← hqueue]
    have hrestore := runs_restoring (a := a) (s := { s with uplinkFreeBufferQueue := rest }) hnone item
    rwa [hhead] at hrestore
  simp only [State.txPacketEx, hqueue]
  split
  · rename_i hreadable
    split
    · rename_i hfill
      exact Runs.step (congrArg some (process_restoring _ fun _ => hfill)) hback
    · rename_i filled hfill
      refine Runs.step (congrArg some (process_filled _ hreadable hfill)) ?_
      exact runs_keepOrSend (s := { s with
        uplinkFreeBufferQueue := rest
        ntbSequence := if a.mode = Mode.mbim ∧ item.currentPtr = 0 then nextSequence s.ntbSequence
          else s.ntbSequence }) hnone filled
  · rename_i hrefused
    exact Runs.step (congrArg some (process_restoring _ fun hreadable => absurd hreadable hrefused))
      hback

/-- A call that no other thread comes in between runs in the machine. -/
theorem txPacketEx_runs (hnone : s.inside = []) (pList : Option Packet) :
    ∃ t, Tlp.step a s (enterOp pList) = some t ∧ Runs a t (s.txPacketEx a pList).state := by
  have henter : Tlp.step a s (enterOp pList) = some (s.alone (.entered pList)) := by
    cases pList <;> simp [enterOp, Tlp.step, State.enter, State.alone, hnone]
  refine ⟨_, henter, Runs.step (t := State.alone
    { s with uplinkFreeBufferQueue := s.uplinkFreeBufferQueue.tail }
    (.took s.uplinkFreeBufferQueue.head? pList)) rfl ?_⟩
  cases hqueue : s.uplinkFreeBufferQueue with
  | nil =>
    have hsame : ({ s with uplinkFreeBufferQueue := [] } : State) = s := by rw [← hqueue]
    have hrestore := runs_restoring_none (a := a) hnone
    rw [List.tail_nil, List.head?_nil, hsame]
    cases pList with
    | none =>
      simp only [State.txPacketEx, hqueue]
      exact Runs.step (t := s.alone (.sending none)) rfl (Runs.step (t := s.alone (.restoring none))
        rfl hrestore)
    | some packet =>
      simp only [State.txPacketEx, hqueue]
      exact Runs.step (t := s.alone (.restoring none)) rfl hrestore
  | cons item rest =>
    rw [List.tail_cons, List.head?_cons]
    cases pList with
    | none =>
      simp only [State.txPacketEx, hqueue]
      exact runs_took_none (s := { s with uplinkFreeBufferQueue := rest }) hnone item
    | some packet => exact runs_took hnone packet hqueue

end Ndis.Tlp
