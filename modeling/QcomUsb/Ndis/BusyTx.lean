-- SUMMARY: The counter of unfinished sends over both kinds of transmit lists.
import QcomUsb.Ndis.TxCount
import QcomUsb.Ndis.TxNbl

/-!
# The counter of unfinished sends

`MPMAIN_MiniportPause` waits for `nBusyTx`, which counts net buffers in the aggregating modes and net
buffer lists otherwise.
-/

namespace Ndis

open Transition

/-- In both kinds of modes the counter is right over a run, and no pause returns early, exactly if
every step meets its condition. -/
theorem nBusyTx_counted (quickTx : Bool) (items : Nat) (ops : List Tx.Op)
    (nblOps : List TxNbl.Op) :
    ((∀ s ∈ (Tx.txQueues quickTx).visits (Tx.start items) ops, s.Counted) ↔
      ∀ p ∈ (Tx.txQueues quickTx).fires (Tx.start items) ops, p.2.Counts quickTx p.1) ∧
    ((∀ s ∈ TxNbl.txNbl.visits TxNbl.start nblOps, s.Counted) ↔
      ∀ p ∈ TxNbl.txNbl.fires TxNbl.start nblOps, p.2.Counts p.1) :=
  ⟨Tx.txQueues_visits_counted quickTx items ops, TxNbl.txNbl_visits_counted nblOps⟩

/-- A clean-up counts the packet down twice that is held back while the flow is off. -/
theorem nBusyTx_counted_purge :
    ¬ ∀ s ∈ (Tx.txQueues false).visits (Tx.start 1)
        [.qmapFlowControlCall true, .send 0 false [some .v4] true, .purgeQmap],
      s.Counted := by
  intro hall
  have hlast := List.getLast_mem (List.ne_nil_of_mem (Machine.start_mem_visits
    (M := Tx.txQueues false) (Tx.start 1)
    [.qmapFlowControlCall true, .send 0 false [some .v4] true, .purgeQmap]))
  have hcount := (hall _ hlast).count
  revert hcount
  decide

end Ndis
