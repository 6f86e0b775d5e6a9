-- SUMMARY: The owners of a write, the invariant over them, and what enqueueing, cancelling and purging do to it.
import QcomUsb.Transport.WriteBuffers

/-!
# The owners of a write

A write is on the data queue, in hand, with a buffer, or with a record that has returned. The
cancel routine looks at the data queue and at the pending buffers only, and completes a write that
it finds on neither. The account below has one counter for each owner.
-/

namespace Transport.Mwt

open CancelRoutine Transition

namespace State

/-! ## The owners of a write -/

/-- How often a write was put on `WtCompletionQueue`. -/
def finished (s : State) (irp : Irp) : Nat := s.wtCompletionQueue.count irp + s.completed.count irp

def queued (s : State) (irp : Irp) : Nat := s.writeDataQueue.count irp

def inHand (s : State) (irp : Irp) : Nat := [s.hand].count (some irp)

def callingIrps (s : State) (buffers : List Nat) : List (Option Irp) :=
  buffers.map fun b => (s.pMwtBuffer b).callingIrp

/-- The URBs with USB that point into the write's buffer. -/
def withUsb (s : State) (irp : Irp) : Nat := (s.callingIrps s.mWritePendingQueue).count (some irp)

def back (s : State) (irp : Irp) : Nat := (s.callingIrps s.mWriteCompletionQueue).count (some irp)

/-- The writes of the records that have returned. -/
def returned (s : State) : List (Option Irp) :=
  (s.mwtSentIrpQueue.filter SentIrp.irpReturned).map SentIrp.sentIrp

def waiting (s : State) (irp : Irp) : Nat := s.returned.count (some irp)

def held (s : State) (irp : Irp) : Nat :=
  s.queued irp + s.inHand irp + s.withUsb irp + s.back irp + s.waiting irp

/-- The write has no owner that would send it. -/
structure Free (s : State) (irp : Irp) : Prop where
  queued : s.queued irp = 0
  inHand : s.inHand irp = 0
  withUsb : s.withUsb irp = 0
  waiting : s.waiting irp = 0

/-- A record that has returned goes back to the data queue with the last transfer that is out. -/
def GoesBack (s : State) : Prop :=
  ∀ irp, 0 < s.waiting irp →
    s.mwtState = .flowOff ∧ ∃ r ∈ s.mwtSentIrpQueue, r.irpReturned = false

/-- Every accepted write is completed at most once. One that is not is with one owner with its
cancel routine in place, or its cancel routine is under way. One that is completed is on no other
queue, and no URB with USB points into its buffer. -/
structure Kept (s : State) : Prop where
  once : ∀ irp ∈ s.accepted, s.finished irp ≤ 1
  onWay : ∀ irp ∈ s.accepted, s.finished irp = 0 →
    irp ∈ s.io.running ∨ s.io.installed irp = true ∧ s.held irp = 1
  free : ∀ irp ∈ s.accepted, 0 < s.finished irp →
    irp ∉ s.writeDataQueue ∧ ∀ b ∈ s.mWritePendingQueue, (s.pMwtBuffer b).callingIrp ≠ some irp
  goesBack : s.GoesBack
  sound : s.wild = false

/-- The event begins a drain when transfers are pending. -/
def Event.drains : Event → Bool
  | .cancel | .purge | .stop => true
  | _ => false

end State

/-- The cancel routine does not meet a write in hand or in a record that has returned. A drain does
not begin while a record with a write has returned. A transfer that failed under FLOW_OFF is not the
one of a write that was cancelled in between. And no list entry is linked twice or taken from an
empty list. -/
def Op.Orderly (s : State) : Op → Prop
  | .cancelWriteRoutine irp =>
    s.hand ≠ some irp ∧ some irp ∉ s.returned ∧
      ∀ b ∈ s.isIrpPending irp, b ∉ s.mWriteCancellingQueue
  | .thread _ event =>
    match s.phase with
    | .send _ _ => s.mwtSentIrpRecordPool ≠ 0
    | .wait =>
      event.drains = true → s.mWritePendingQueue ≠ [] → ∀ irp ∈ s.returned, irp = none
    | .process b =>
      s.mwtState = .flowOff → s.statusOf b ≠ .success →
        ∀ irp ∈ (s.pMwtBuffer b).callingIrp, s.finished irp = 0
    | _ => True
  | _ => True

instance (s : State) : (op : Op) → Decidable (op.Orderly s)
  | .cancelWriteRoutine _ => inferInstanceAs (Decidable (_ ∧ _ ∧ _))
  | .thread _ event =>
    show Decidable (match s.phase with
      | .send _ _ => _
      | .wait => _
      | .process _ => _
      | _ => _) from
    match s.phase with
    | .send _ _ => inferInstanceAs (Decidable (_ ≠ 0))
    | .wait => inferInstanceAs (Decidable (_ = true → _ ≠ [] → _))
    | .process _ => inferInstanceAs (Decidable (_ = MwtState.flowOff → _ ≠ _ → _))
    | .loopHead | .dequeue | .exited => .isTrue trivial
  | .enqueue _ | .ioCancelIrp _ | .purgeQueue | .qcEmptyCompletionQueue | .usbCompletes .. |
      .devState _ => .isTrue trivial

namespace State

variable {cfg : Cfg} {s t : State} {irp : Irp} {b : Nat}

/-! ## The invariant -/

/-- No write is with two owners, and a completed one is with none that would send it. -/
structure Inv (s : State) : Prop where
  tracked : s.Tracked
  io : s.io.Inv
  once : ∀ irp, s.finished irp ≤ 1
  held_le : ∀ irp, s.held irp ≤ 1
  free : ∀ irp, 0 < s.finished irp → s.Free irp
  quiet : ∀ irp, 0 < s.finished irp → s.io.installed irp = false ∧ irp ∉ s.io.running
  onWay : ∀ irp ∈ s.accepted, s.finished irp = 0 →
    irp ∈ s.io.running ∨ s.io.installed irp = true ∧ 0 < s.held irp
  fresh : ∀ irp, irp ∉ s.accepted →
    s.held irp = 0 ∧ s.finished irp = 0 ∧ s.io.installed irp = false ∧ irp ∉ s.io.running
  submitted : ∀ irp ∈ s.accepted, irp ∈ s.submitted
  goesBack : s.GoesBack
  sound : s.wild = false

theorem Inv.kept (hs : s.Inv) : s.Kept where
  once := fun irp _ => hs.once irp
  onWay := fun irp hirp hzero => by
    refine (hs.onWay irp hirp hzero).imp_right fun ⟨hinst, hpos⟩ => ⟨hinst, ?_⟩
    have hle := hs.held_le irp
    omega
  free := fun irp _ hpos => by
    have hfree := hs.free irp hpos
    refine ⟨List.count_eq_zero.mp hfree.queued, fun b hb hcalling => ?_⟩
    exact List.count_eq_zero.mp hfree.withUsb (List.mem_map.mpr ⟨b, hb, hcalling⟩)
  goesBack := hs.goesBack
  sound := hs.sound

theorem initial_inv (cfg : Cfg) : (initial cfg).Inv where
  tracked := initial_tracked cfg
  io := .initial
  once := by simp [initial, finished]
  held_le := by
    simp [initial, held, queued, inHand, hand, withUsb, back, callingIrps, waiting, returned]
  free := by simp [initial, finished]
  quiet := by simp [initial, finished]
  onWay := by simp [initial]
  fresh := by
    simp [initial, held, queued, inHand, hand, withUsb, back, callingIrps, waiting, returned,
      finished, CancelState.initial]
  submitted := by simp [initial]
  goesBack := by simp [initial, GoesBack, waiting, returned]
  sound := rfl

/-- A write that a step finds anywhere is accepted. -/
theorem Inv.mem_accepted (hs : s.Inv)
    (h : 0 < s.held irp ∨ 0 < s.finished irp ∨ s.io.installed irp = true ∨ irp ∈ s.io.running) :
    irp ∈ s.accepted := by
  by_contra hnot
  obtain ⟨hheld, hfin, hinst, hrun⟩ := hs.fresh irp hnot
  rcases h with h | h | h | h
  · omega
  · omega
  · simp [hinst] at h
  · exact hrun h

/-- Nobody has the write. -/
theorem free_of_held (h : s.held irp = 0) : s.Free irp := by
  unfold held at h
  exact ⟨by omega, by omega, by omega, by omega⟩

/-- The books are the same. -/
structure SameBooks (s t : State) : Prop where
  submitted : t.submitted = s.submitted
  accepted : t.accepted = s.accepted
  wild : t.wild = s.wild

/-- Writes go from owner to owner, or are left to the cancel routine that is under way. -/
theorem Inv.move (hs : s.Inv) (htracked : t.Tracked) (hbooks : s.SameBooks t)
    (hfin : ∀ irp, t.finished irp = s.finished irp) (hheld : ∀ irp, t.held irp ≤ s.held irp)
    (hleft : ∀ irp, t.held irp < s.held irp → irp ∈ s.io.running ∨ 0 < s.finished irp)
    (hfree : ∀ irp, 0 < s.finished irp → t.Free irp) (hio : t.io = s.io)
    (hgoes : t.GoesBack) : t.Inv where
  tracked := htracked
  io := hio ▸ hs.io
  once := fun irp => hfin irp ▸ hs.once irp
  held_le := fun irp => (hheld irp).trans (hs.held_le irp)
  free := fun irp hpos => hfree irp (hfin irp ▸ hpos)
  quiet := fun irp hpos => by
    rw [hio]
    exact hs.quiet irp (hfin irp ▸ hpos)
  onWay := fun irp hirp hzero => by
    rw [hio]
    rw [hbooks.accepted] at hirp
    rw [hfin] at hzero
    rcases hs.onWay irp hirp hzero with hrun | ⟨hinst, hpos⟩
    · exact .inl hrun
    · rcases Nat.lt_or_ge (t.held irp) (s.held irp) with hlt | hge
      · exact .inl ((hleft irp hlt).resolve_right (by omega))
      · exact .inr ⟨hinst, by omega⟩
  fresh := fun irp hirp => by
    obtain ⟨hzero, hfinished, hquiet⟩ := hs.fresh irp (hbooks.accepted ▸ hirp)
    have hle := hheld irp
    rw [hio, hfin]
    exact ⟨by omega, hfinished, hquiet⟩
  submitted := by
    rw [hbooks.accepted, hbooks.submitted]
    exact hs.submitted
  goesBack := hgoes
  sound := hbooks.wild.trans hs.sound

/-- A write goes to `WtCompletionQueue`, with its routine taken out or the call at its end. -/
theorem Inv.finish (hs : s.Inv) (htracked : t.Tracked) (hbooks : s.SameBooks t)
    (hirp : irp ∈ s.accepted) (hzero : s.finished irp = 0)
    (hfin : ∀ j, t.finished j = s.finished j + if j = irp then 1 else 0)
    (hheld : ∀ j, j ≠ irp → t.held j = s.held j) (hheld' : t.held irp ≤ s.held irp)
    (hfree : ∀ j, 0 < s.finished j ∨ j = irp → t.Free j)
    (hio : CancelState.Cleared s.io t.io irp) (hgoes : t.GoesBack) : t.Inv where
  tracked := htracked
  io := hio.inv hs.io
  once := fun j => by
    rcases eq_or_ne j irp with rfl | hne
    · have hj := hfin j
      rw [if_pos rfl] at hj
      omega
    · have hj := hfin j
      have hle := hs.once j
      rw [if_neg hne] at hj
      omega
  held_le := fun j => by
    rcases eq_or_ne j irp with rfl | hne
    · exact hheld'.trans (hs.held_le j)
    · exact hheld j hne ▸ hs.held_le j
  free := fun j hpos => by
    rcases eq_or_ne j irp with rfl | hne
    · exact hfree j (.inr rfl)
    · have hj := hfin j
      rw [if_neg hne] at hj
      exact hfree j (.inl (by omega))
  quiet := fun j hpos => by
    rcases eq_or_ne j irp with rfl | hne
    · exact hio.gone hs.io
    · have hj := hfin j
      rw [if_neg hne] at hj
      obtain ⟨hinst, hrun⟩ := hs.quiet j (by omega)
      obtain ⟨hsame, hold⟩ := hio.other j hne
      exact ⟨hsame.trans hinst, fun hmem => hrun (hold.mp hmem)⟩
  onWay := fun j hj hzero' => by
    have hjfin := hfin j
    rcases eq_or_ne j irp with rfl | hne
    · rw [if_pos rfl] at hjfin
      omega
    · rw [if_neg hne] at hjfin
      obtain ⟨hsame, hold⟩ := hio.other j hne
      rw [hold, hsame, hheld j hne]
      exact hs.onWay j (hbooks.accepted ▸ hj) (by omega)
  fresh := fun j hj => by
    rw [hbooks.accepted] at hj
    have hne : j ≠ irp := fun heq => hj (heq ▸ hirp)
    obtain ⟨hheldj, hfinj, hinst, hrun⟩ := hs.fresh j hj
    obtain ⟨hsame, hold⟩ := hio.other j hne
    have hjfin := hfin j
    rw [if_neg hne] at hjfin
    exact ⟨(hheld j hne).trans hheldj, by omega, hsame.trans hinst, fun hmem => hrun (hold.mp hmem)⟩
  submitted := by
    rw [hbooks.accepted, hbooks.submitted]
    exact hs.submitted
  goesBack := hgoes
  sound := hbooks.wild.trans hs.sound

/-! ## The counters -/

theorem hand_congr (h : t.phase = s.phase) : t.hand = s.hand := by simp only [hand, h]

theorem SameBuffers.withUsb (h : s.SameBuffers t) (irp : Irp) : t.withUsb irp = s.withUsb irp := by
  simp only [State.withUsb, callingIrps, h.pending, h.pMwtBuffer]

theorem SameBuffers.back (h : s.SameBuffers t) (irp : Irp) : t.back irp = s.back irp := by
  simp only [State.back, callingIrps, h.completion, h.pMwtBuffer]

theorem SameBuffers.waiting (h : s.SameBuffers t) (irp : Irp) : t.waiting irp = s.waiting irp := by
  simp only [State.waiting, returned, h.records]

/-- Off the data queue the owners are the same. -/
theorem SameBuffers.held (h : s.SameBuffers t) (hhand : t.hand = s.hand) (irp : Irp) :
    t.held irp + s.queued irp = s.held irp + t.queued irp := by
  simp only [State.held, h.withUsb, h.back, h.waiting, inHand, hhand]
  omega

theorem SameBuffers.free (h : s.SameBuffers t) (hhand : t.hand = s.hand)
    (hqueued : t.queued irp ≤ s.queued irp) (hs : s.Free irp) : t.Free irp where
  queued := by
    have hzero := hs.queued
    omega
  inHand := by simpa only [inHand, hhand] using hs.inHand
  withUsb := (h.withUsb irp).trans hs.withUsb
  waiting := (h.waiting irp).trans hs.waiting

theorem GoesBack.of_same (hs : s.GoesBack) (h : s.SameBuffers t)
    (hstate : t.mwtState = s.mwtState) :
    t.GoesBack := by
  intro irp hpos
  rw [h.waiting] at hpos
  rw [hstate, h.records]
  exact hs irp hpos

theorem count_singleton_irp (irp j : Irp) : [irp].count j = if j = irp then 1 else 0 := by
  rw [List.count_singleton]
  simp only [beq_iff_eq, @eq_comm _ irp j]

theorem finished_insertWtCompletionQueue (s : State) (irp : Irp) (status : NtStatus)
    (information : Nat) (j : Irp) :
    (s.insertWtCompletionQueue irp status information).finished j =
      s.finished j + if j = irp then 1 else 0 := by
  simp only [finished, insertWtCompletionQueue, List.count_append, count_singleton_irp]
  omega

/-! ## Other parties -/

/-- A cancelled write is refused, and belongs to nobody. -/
theorem Inv.refuse (hs : s.Inv) (hnot : irp ∉ s.accepted) (htracked : t.Tracked)
    (hsubmitted : t.submitted = s.submitted ++ [irp]) (haccepted : t.accepted = s.accepted)
    (hheld : ∀ j, t.held j = s.held j) (hfin : ∀ j, t.finished j = s.finished j)
    (hfree : ∀ j, s.Free j → t.Free j) (hio : t.io = s.io.ioSetCancelRoutine irp false)
    (hgoes : t.GoesBack) (hwild : t.wild = s.wild) : t.Inv := by
  obtain ⟨-, -, hinst, -⟩ := hs.fresh irp hnot
  have hsame : t.io.installed = s.io.installed := by
    rw [hio, CancelState.ioSetCancelRoutine_installed, ← hinst, Function.update_eq_self]
  have hrunning : t.io.running = s.io.running := by rw [hio, CancelState.ioSetCancelRoutine_running]
  exact {
    tracked := htracked
    io := hio ▸ hs.io.clear irp
    once := fun j => hfin j ▸ hs.once j
    held_le := fun j => hheld j ▸ hs.held_le j
    free := fun j hpos => hfree j (hs.free j (hfin j ▸ hpos))
    quiet := fun j hpos => by
      rw [hsame, hrunning]
      exact hs.quiet j (hfin j ▸ hpos)
    onWay := fun j hj hzero => by
      rw [hsame, hrunning, hheld]
      exact hs.onWay j (haccepted ▸ hj) (hfin j ▸ hzero)
    fresh := fun j hj => by
      rw [hsame, hrunning, hheld, hfin]
      exact hs.fresh j (haccepted ▸ hj)
    submitted := fun j hj => by
      rw [hsubmitted]
      exact List.mem_append_left _ (hs.submitted j (haccepted ▸ hj))
    goesBack := hgoes
    sound := hwild.trans hs.sound }

/-- A write that is accepted is on the data queue with its routine installed. -/
theorem Inv.accept (hs : s.Inv) (hnot : irp ∉ s.accepted) (htracked : t.Tracked)
    (hsubmitted : t.submitted = s.submitted ++ [irp]) (haccepted : t.accepted = s.accepted ++ [irp])
    (hheld : ∀ j, t.held j = s.held j + if j = irp then 1 else 0)
    (hfin : ∀ j, t.finished j = s.finished j) (hfree : ∀ j, j ≠ irp → s.Free j → t.Free j)
    (hio : t.io = s.io.ioSetCancelRoutine irp true)
    (hgoes : t.GoesBack) (hwild : t.wild = s.wild) : t.Inv := by
  obtain ⟨hnone, hnofin, -, hrun⟩ := hs.fresh irp hnot
  have hself : t.io.installed irp = true := by simp [hio]
  have hother : ∀ j, j ≠ irp → t.io.installed j = s.io.installed j := by
    intro j hne
    simp [hio, hne]
  have hrunning : t.io.running = s.io.running := by rw [hio, CancelState.ioSetCancelRoutine_running]
  have hheldself : t.held irp = 1 := by
    rw [hheld, if_pos rfl, hnone]
  have hheldother : ∀ j, j ≠ irp → t.held j = s.held j := by
    intro j hne
    rw [hheld, if_neg hne, Nat.add_zero]
  have hne_of_fin : ∀ j, 0 < t.finished j → j ≠ irp := by
    rintro j hpos rfl
    rw [hfin] at hpos
    omega
  exact {
    tracked := htracked
    io := hio ▸ hs.io.install hrun
    once := fun j => hfin j ▸ hs.once j
    held_le := fun j => by
      rcases eq_or_ne j irp with rfl | hne
      · omega
      · exact hheldother j hne ▸ hs.held_le j
    free := fun j hpos => hfree j (hne_of_fin j hpos) (hs.free j (hfin j ▸ hpos))
    quiet := fun j hpos => by
      rw [hother j (hne_of_fin j hpos), hrunning]
      exact hs.quiet j (hfin j ▸ hpos)
    onWay := fun j hj hzero => by
      rcases eq_or_ne j irp with rfl | hne
      · exact .inr ⟨hself, by omega⟩
      · have hold : j ∈ s.accepted := by simpa [haccepted, hne] using hj
        rw [hother j hne, hrunning, hheldother j hne]
        exact hs.onWay j hold (hfin j ▸ hzero)
    fresh := fun j hj => by
      have hne : j ≠ irp := fun heq => hj (by simp [haccepted, heq])
      have hold : j ∉ s.accepted := fun hmem => hj (by simp [haccepted, hmem])
      rw [hother j hne, hrunning, hheldother j hne, hfin]
      exact hs.fresh j hold
    submitted := fun j hj => by
      rw [hsubmitted]
      rw [haccepted] at hj
      rcases List.mem_append.mp hj with hj | hj
      · exact List.mem_append_left _ (hs.submitted j hj)
      · exact List.mem_append_right _ hj
    goesBack := hgoes
    sound := hwild.trans hs.sound }

theorem Inv.enqueue (hs : s.Inv) (hnew : irp ∉ s.submitted) : (s.enqueue irp).Inv := by
  have hnot : irp ∉ s.accepted := fun hmem => hnew (hs.submitted irp hmem)
  have hsame := s.sameThread_enqueue irp
  have hbuffers := hsame.sameBuffers
  have hhand : (s.enqueue irp).hand = s.hand := hand_congr hsame.phase
  have htracked := hs.tracked.of_sameThread hsame
  have hgoes := hs.goesBack.of_same hbuffers hsame.mwtState
  cases hcancel : s.io.cancel irp with
  | true =>
    have heq : s.enqueue irp =
        { { s with submitted := s.submitted ++ [irp] }.ioSetCancelRoutine irp false with
          status := Function.update s.status irp .cancelled
          information := Function.update s.information irp 0 } := if_pos hcancel
    rw [heq] at hbuffers hhand htracked hgoes ⊢
    exact hs.refuse hnot htracked rfl rfl (fun j => rfl) (fun j => rfl)
      (fun j hfree => hbuffers.free hhand (Nat.le_refl _) hfree) rfl hgoes rfl
  | false =>
    have heq : s.enqueue irp =
        { { s with submitted := s.submitted ++ [irp] }.ioSetCancelRoutine irp true with
          information := Function.update s.information irp 0
          writeDataQueue := s.writeDataQueue ++ [irp]
          accepted := s.accepted ++ [irp] } := if_neg (by simp [hcancel])
    rw [heq] at hbuffers hhand htracked hgoes ⊢
    have hqueued : ∀ j, (s.writeDataQueue ++ [irp]).count j =
        s.writeDataQueue.count j + if j = irp then 1 else 0 := by
      intro j
      rw [List.count_append, count_singleton_irp]
    refine hs.accept hnot htracked rfl rfl (fun j => ?_) (fun j => rfl) (fun j hne hfree => ?_) rfl
      hgoes rfl
    · have hheld := hbuffers.held hhand j
      have hj := hqueued j
      unfold queued at hheld
      dsimp only at hheld ⊢
      omega
    · have hj := hqueued j
      rw [if_neg hne, Nat.add_zero] at hj
      exact hbuffers.free hhand (Nat.le_of_eq hj) hfree

/-- Cancelling a write calls its routine if it is installed. -/
theorem Inv.ioCancelIrp (hs : s.Inv) (irp : Irp) :
    Inv { s with io := s.io.ioCancelIrp irp } where
  tracked := hs.tracked.of_sameThread (s.sameThread_ioCancelIrp irp)
  io := hs.io.ioCancelIrp irp
  once := hs.once
  held_le := hs.held_le
  free := fun j hpos =>
    ⟨(hs.free j hpos).queued, (hs.free j hpos).inHand, (hs.free j hpos).withUsb,
      (hs.free j hpos).waiting⟩
  quiet := fun j hpos => by
    obtain ⟨hinst, hrun⟩ := hs.quiet j hpos
    refine ⟨?_, fun hmem => ?_⟩
    · rcases eq_or_ne j irp with rfl | hne <;> simp [*]
    · rcases CancelState.mem_ioCancelIrp_running.mp hmem with hold | ⟨hinst', rfl⟩
      · exact hrun hold
      · simp [hinst] at hinst'
  onWay := fun j hj hzero => by
    rcases hs.onWay j hj hzero with hrun | ⟨hinst, hpos⟩
    · exact .inl (CancelState.mem_ioCancelIrp_running.mpr (.inl hrun))
    · rcases eq_or_ne j irp with rfl | hne
      · exact .inl (CancelState.mem_ioCancelIrp_running.mpr (.inr ⟨hinst, rfl⟩))
      · exact .inr ⟨by simpa [hne] using hinst, hpos⟩
  fresh := fun j hj => by
    obtain ⟨hheld, hfin, hinst, hrun⟩ := hs.fresh j hj
    refine ⟨hheld, hfin, ?_, fun hmem => ?_⟩
    · rcases eq_or_ne j irp with rfl | hne <;> simp [*]
    · rcases CancelState.mem_ioCancelIrp_running.mp hmem with hold | ⟨hinst', rfl⟩
      · exact hrun hold
      · simp [hinst] at hinst'
  submitted := hs.submitted
  goesBack := hs.goesBack
  sound := hs.sound

/-- A write whose routine is under way is not completed yet. -/
theorem Inv.finished_of_running (hs : s.Inv) (hrun : irp ∈ s.io.running) : s.finished irp = 0 := by
  by_contra hne
  exact (hs.quiet irp (by omega)).2 hrun

/-- The routine finds the write on the data queue. -/
theorem Inv.cancelQueued (hs : s.Inv) (hrun : irp ∈ s.io.running) (hirp : irp ∈ s.writeDataQueue) :
    (s.cancelWriteRoutine irp).Inv := by
  have hsame := s.sameThread_cancelWriteRoutine irp
  have hbuffers := hsame.sameBuffers
  have hhand : (s.cancelWriteRoutine irp).hand = s.hand := hand_congr hsame.phase
  have htracked := hs.tracked.of_sameThread hsame
  have hgoes := hs.goesBack.of_same hbuffers hsame.mwtState
  simp only [State.cancelWriteRoutine, if_pos hirp] at hbuffers hhand htracked hgoes ⊢
  have hpos : 0 < s.queued irp := List.count_pos_iff.mpr hirp
  have herase : (s.writeDataQueue.erase irp).count irp + 1 = s.queued irp := by
    rw [List.count_erase_self]
    unfold queued at hpos ⊢
    omega
  have herase' : ∀ j, j ≠ irp → (s.writeDataQueue.erase irp).count j = s.queued j :=
    fun j hne => List.count_erase_of_ne hne
  have hzero := hs.finished_of_running hrun
  refine hs.finish htracked ⟨rfl, rfl, rfl⟩ (hs.mem_accepted (.inr (.inr (.inr hrun)))) hzero
    (fun j => finished_insertWtCompletionQueue { s with writeDataQueue := _ } irp .cancelled 0 j)
    (fun j hne => ?_) ?_ (fun j hj => ?_) (.routineReturns hrun) hgoes
  · have hheld := hbuffers.held hhand j
    have hj := herase' j hne
    change _ = s.held j + (s.writeDataQueue.erase irp).count j at hheld
    omega
  · have hheld := hbuffers.held hhand irp
    change _ = s.held irp + (s.writeDataQueue.erase irp).count irp at hheld
    omega
  · rcases eq_or_ne j irp with rfl | hne
    · -- it was on the data queue only
      have hle := hs.held_le j
      unfold held at hle
      have hqueued : (s.writeDataQueue.erase j).count j = 0 := by omega
      have hnone : s.inHand j = 0 := by omega
      exact ⟨hqueued, by simpa only [inHand, hhand] using hnone,
        (hbuffers.withUsb j).trans (by omega), (hbuffers.waiting j).trans (by omega)⟩
    · exact hbuffers.free hhand (Nat.le_of_eq (herase' j hne)) (hs.free j (hj.resolve_right hne))

/-- No pending buffer has a write that the search does not find. -/
theorem Tracked.withUsb_of_isIrpPending (hs : s.Tracked) (h : s.isIrpPending irp = none) :
    s.withUsb irp = 0 := by
  refine List.count_eq_zero.mpr fun hmem => ?_
  obtain ⟨b, hb, hcalling⟩ := List.mem_map.mp hmem
  have hnone := List.find?_eq_none.mp h b hb
  simp [hcalling, hs.pending b hb] at hnone

/-- The routine finds the write nowhere, and nobody else has it but a buffer that is back. -/
theorem Inv.cancelBack (hs : s.Inv) (hrun : irp ∈ s.io.running) (hirp : irp ∉ s.writeDataQueue)
    (hpending : s.isIrpPending irp = none) (hnothand : s.hand ≠ some irp)
    (hnotret : some irp ∉ s.returned) : (s.cancelWriteRoutine irp).Inv := by
  have hsame := s.sameThread_cancelWriteRoutine irp
  have hbuffers := hsame.sameBuffers
  have hhand : (s.cancelWriteRoutine irp).hand = s.hand := hand_congr hsame.phase
  have htracked := hs.tracked.of_sameThread hsame
  have hgoes := hs.goesBack.of_same hbuffers hsame.mwtState
  simp only [State.cancelWriteRoutine, if_neg hirp, hpending] at hbuffers hhand htracked hgoes ⊢
  have hfree : s.Free irp :=
    ⟨List.count_eq_zero.mpr hirp, List.count_eq_zero.mpr (by simpa [eq_comm] using hnothand),
      hs.tracked.withUsb_of_isIrpPending hpending, List.count_eq_zero.mpr hnotret⟩
  have hheld : ∀ j, State.held _ j = s.held j := fun j =>
    Nat.add_right_cancel (hbuffers.held hhand j)
  refine hs.finish htracked ⟨rfl, rfl, rfl⟩ (hs.mem_accepted (.inr (.inr (.inr hrun))))
    (hs.finished_of_running hrun) (fun j => finished_insertWtCompletionQueue s irp .cancelled 0 j)
    (fun j _ => hheld j) (Nat.le_of_eq (hheld irp)) (fun j hj => ?_) (.routineReturns hrun) hgoes
  rcases eq_or_ne j irp with rfl | hne
  · exact hbuffers.free hhand (Nat.le_refl _) hfree
  · exact hbuffers.free hhand (Nat.le_refl _) (hs.free j (hj.resolve_right hne))

/-- The routine finds the write with a pending buffer, and is installed again. -/
theorem Inv.cancelPending (hs : s.Inv) (hrun : irp ∈ s.io.running) (hirp : irp ∉ s.writeDataQueue)
    (hpending : s.isIrpPending irp = some b) (hcxl : b ∉ s.mWriteCancellingQueue) :
    (s.cancelWriteRoutine irp).Inv := by
  have hsame := s.sameThread_cancelWriteRoutine irp
  have hbuffers := hsame.sameBuffers
  have hhand : (s.cancelWriteRoutine irp).hand = s.hand := hand_congr hsame.phase
  have htracked := hs.tracked.of_sameThread hsame
  have hgoes := hs.goesBack.of_same hbuffers hsame.mwtState
  simp only [State.cancelWriteRoutine, if_neg hirp, hpending, if_neg hcxl] at hbuffers hhand
  simp only [State.cancelWriteRoutine, if_neg hirp, hpending, if_neg hcxl] at htracked hgoes ⊢
  have hheld : ∀ j, State.held _ j = s.held j := fun j =>
    Nat.add_right_cancel (hbuffers.held hhand j)
  have haccepted : irp ∈ s.accepted := hs.mem_accepted (.inr (.inr (.inr hrun)))
  have hzero := hs.finished_of_running hrun
  have hwith : 0 < s.held irp := by
    have hmem := List.mem_of_find?_eq_some hpending
    have hcalling := List.find?_some hpending
    simp only [Bool.and_eq_true, beq_iff_eq] at hcalling
    have hpos : 0 < s.withUsb irp :=
      List.count_pos_iff.mpr (List.mem_map.mpr ⟨b, hmem, hcalling.1⟩)
    unfold held
    omega
  have hother : ∀ j, j ≠ irp →
      ((s.io.routineReturns irp).ioSetCancelRoutine irp true).installed j = s.io.installed j ∧
        (j ∈ ((s.io.routineReturns irp).ioSetCancelRoutine irp true).running ↔
          j ∈ s.io.running) := by
    intro j hne
    exact ⟨by simp [hne], by simp [List.mem_erase_of_ne hne]⟩
  exact {
    tracked := htracked
    io := (hs.io.routineReturns irp).install (hs.io.not_mem_routineReturns irp)
    once := hs.once
    held_le := fun j => hheld j ▸ hs.held_le j
    free := fun j hpos => hbuffers.free hhand (Nat.le_refl _) (hs.free j hpos)
    quiet := fun j hpos => by
      have hne : j ≠ irp := by
        rintro rfl
        exact absurd hzero (Nat.pos_iff_ne_zero.mp hpos)
      obtain ⟨hinst, hrunj⟩ := hother j hne
      exact ⟨hinst.trans (hs.quiet j hpos).1, fun hmem => (hs.quiet j hpos).2 (hrunj.mp hmem)⟩
    onWay := fun j hj hzeroj => by
      rcases eq_or_ne j irp with rfl | hne
      · exact .inr ⟨Function.update_self .., by rw [hheld]; exact hwith⟩
      · obtain ⟨hinst, hrunj⟩ := hother j hne
        rw [hheld]
        exact (hs.onWay j hj hzeroj).imp hrunj.mpr fun h => ⟨hinst.trans h.1, h.2⟩
    fresh := fun j hj => by
      have hne : j ≠ irp := fun heq => hj (heq ▸ haccepted)
      obtain ⟨hinst, hrunj⟩ := hother j hne
      obtain ⟨hheldj, hfinj, hinstj, hnotrun⟩ := hs.fresh j hj
      exact ⟨(hheld j).trans hheldj, hfinj, hinst.trans hinstj, fun hmem => hnotrun (hrunj.mp hmem)⟩
    submitted := hs.submitted
    goesBack := hgoes
    sound := hs.sound }

theorem Inv.cancelWriteRoutine (hs : s.Inv) (hrun : irp ∈ s.io.running)
    (hok : (Op.cancelWriteRoutine irp).Orderly s) : (s.cancelWriteRoutine irp).Inv := by
  obtain ⟨hnothand, hnotret, hcxl⟩ := hok
  rcases Decidable.em (irp ∈ s.writeDataQueue) with hirp | hirp
  · exact hs.cancelQueued hrun hirp
  · cases hpending : s.isIrpPending irp with
    | none => exact hs.cancelBack hrun hirp hpending hnothand hnotret
    | some b => exact hs.cancelPending hrun hirp hpending (hcxl b hpending)

/-- A turn of the purge's loop completes the write, or leaves it to its routine. -/
theorem Inv.purgeIrp {rest : List Irp} (hs : Inv { s with writeDataQueue := irp :: rest }) :
    Inv { s.purgeIrp irp with writeDataQueue := rest } := by
  have hsame : SameThread { s with writeDataQueue := irp :: rest }
      { s.purgeIrp irp with writeDataQueue := rest } := by
    have hturn := s.sameThread_purgeIrp irp
    exact ⟨⟨hturn.pending, hturn.completion, hturn.phase, hturn.mwtState, hturn.bCancelled,
      hturn.bPurged, hturn.stopOwed, hturn.purgeOwed, hturn.cancelOwed⟩, hturn.idle,
      hturn.pMwtBuffer, hturn.records, hturn.pool, hturn.bSendZeroLength, hturn.taken⟩
  have hbuffers := hsame.sameBuffers
  have hhand : hand { s.purgeIrp irp with writeDataQueue := rest } = s.hand :=
    hand_congr hsame.phase
  have htracked := hs.tracked.of_sameThread hsame
  have hgoes := hs.goesBack.of_same hbuffers hsame.mwtState
  have hheld := fun j => hbuffers.held hhand j
  have hcount : ∀ j, (irp :: rest).count j = rest.count j + if j = irp then 1 else 0 := by
    intro j
    rw [List.count_cons]
    simp only [beq_iff_eq, @eq_comm _ irp j]
  have hle := hs.held_le irp
  have hself := hcount irp
  rw [if_pos rfl] at hself
  have hzero : finished { s with writeDataQueue := irp :: rest } irp = 0 := by
    by_contra hne
    have hqueued := (hs.free irp (by omega)).queued
    change (irp :: rest).count irp = 0 at hqueued
    omega
  have hpos : 0 < held { s with writeDataQueue := irp :: rest } irp := by
    have hqueued : 0 < (irp :: rest).count irp := by omega
    unfold held queued
    dsimp only
    omega
  have haccepted := hs.mem_accepted (.inl hpos)
  have hless : ∀ j, held { s.purgeIrp irp with writeDataQueue := rest } j +
      (if j = irp then 1 else 0) = held { s with writeDataQueue := irp :: rest } j := by
    intro j
    have hj := hheld j
    have hcountj := hcount j
    change _ + (irp :: rest).count j = _ + rest.count j at hj
    omega
  have hfree : ∀ j, 0 < finished { s with writeDataQueue := irp :: rest } j ∨ j = irp →
      Free { s.purgeIrp irp with writeDataQueue := rest } j := by
    intro j hj
    rcases eq_or_ne j irp with rfl | hne
    · have hjless := hless j
      rw [if_pos rfl] at hjless
      exact free_of_held (by omega)
    · refine hbuffers.free hhand ?_ (hs.free j (hj.resolve_right hne))
      change rest.count j ≤ (irp :: rest).count j
      have hcountj := hcount j
      omega
  cases hinst : s.io.installed irp with
  | true =>
    have heq : s.purgeIrp irp = (s.ioSetCancelRoutine irp false).insertWtCompletionQueue irp
        .cancelled 0 := if_pos hinst
    rw [heq] at htracked hgoes hless hfree ⊢
    refine hs.finish htracked ⟨rfl, rfl, rfl⟩ haccepted hzero
      (fun j => finished_insertWtCompletionQueue s irp .cancelled 0 j) (fun j hne => ?_) ?_ hfree
      (.take hinst) hgoes
    · simpa [hne] using hless j
    · have hirp := hless irp
      rw [if_pos rfl] at hirp
      omega
  | false =>
    have heq : s.purgeIrp irp = s := if_neg (by simp [hinst])
    rw [heq] at htracked hgoes hless hfree ⊢
    refine hs.move htracked ⟨rfl, rfl, rfl⟩ (fun j => rfl) (fun j => ?_) (fun j hlt => ?_)
      (fun j hj => hfree j (.inl hj)) rfl hgoes
    · have hj := hless j
      omega
    · -- its routine is gone, so it is under way
      have hj := hless j
      rcases eq_or_ne j irp with rfl | hne
      · have honWay := hs.onWay j haccepted hzero
        exact .inl (honWay.resolve_right fun h => by simp [hinst] at h)
      · rw [if_neg hne] at hj
        omega

theorem Inv.purgeQueue (hs : s.Inv) : s.purgeQueue.Inv := by
  have hfold : ∀ (irps : List Irp) (u : State), u.writeDataQueue = [] →
      Inv { u with writeDataQueue := irps } → (irps.foldl State.purgeIrp u).Inv := by
    intro irps
    induction irps with
    | nil =>
      intro u hnil hu
      rw [← hnil] at hu
      exact hu
    | cons irp irps ih =>
      intro u hnil hu
      have hnil' : (u.purgeIrp irp).writeDataQueue = [] := by
        unfold State.purgeIrp
        split
        · exact hnil
        · exact hnil
      exact ih _ hnil' hu.purgeIrp
  exact hfold s.writeDataQueue { s with writeDataQueue := [] } rfl hs

/-- A completed write is handed back. -/
theorem Inv.qcEmptyCompletionQueue (hs : s.Inv) : s.qcEmptyCompletionQueue.Inv := by
  have hsame := s.sameThread_qcEmptyCompletionQueue
  have hbuffers := hsame.sameBuffers
  have hhand : s.qcEmptyCompletionQueue.hand = s.hand := hand_congr hsame.phase
  have htracked := hs.tracked.of_sameThread hsame
  have hgoes := hs.goesBack.of_same hbuffers hsame.mwtState
  cases hqueue : s.wtCompletionQueue with
  | nil =>
    have heq : s.qcEmptyCompletionQueue = s := by simp [State.qcEmptyCompletionQueue, hqueue]
    exact heq.symm ▸ hs
  | cons irp rest =>
    have heq : s.qcEmptyCompletionQueue =
        { s with wtCompletionQueue := rest, completed := s.completed ++ [irp] } := by
      simp only [State.qcEmptyCompletionQueue, hqueue]
    rw [heq] at hbuffers hhand htracked hgoes ⊢
    have hheld : ∀ j, State.held _ j = s.held j := fun j =>
      Nat.add_right_cancel (hbuffers.held hhand j)
    refine hs.move htracked ⟨rfl, rfl, rfl⟩ (fun j => ?_) (fun j => Nat.le_of_eq (hheld j))
      (fun j hlt => ?_) (fun j hpos => hbuffers.free hhand (Nat.le_refl _) (hs.free j hpos)) rfl hgoes
    · simp only [finished, hqueue, List.count_cons, List.count_append, List.count_nil]
      omega
    · exact absurd (hheld j) (Nat.ne_of_lt hlt)

end State

end Transport.Mwt
