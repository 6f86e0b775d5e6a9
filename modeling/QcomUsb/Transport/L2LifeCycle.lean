-- SUMMARY: The life cycle of a level-2 read buffer: each submission is completed once, with its own transfer, and consumed in order, while IoCallDriver returns STATUS_PENDING.
import QcomUsb.Library.Places
import QcomUsb.Transport.L2Buffers

/-!
# The life cycle of a level-2 read buffer

The submissions are numbered, and submission `k` uses buffer `k % NumberOfL2Buffers`. Those that are
not consumed yet form a window on the ring. The buffer of each of them is with USB, on the completion
queue, in the hands of the level-2 thread, or completed.
-/

namespace Transport.L2

open Transition Places

/-- What the level-1 thread may expect of a buffer that carried a transfer. -/
def Settings.result (cfg : Settings) (t : Transfer) : NtStatus × Nat :=
  ((cfg.received t).status, (cfg.received t).transferBufferLength)

/-- The life cycle of the buffers. -/
structure LifeCycle (cfg : Settings) (s : State) : Prop where
  /-- An IRP is with USB only while its buffer is pending. -/
  inFlight : ∀ i ∈ s.inFlight, (s.pL2ReadBuffer i).state = .pending
  /-- A buffer is on the completion queue once, and not while its IRP is with USB. -/
  queued : ∀ i ∈ s.l2CompletionQueue, s.l2CompletionQueue.count i = 1 ∧ i ∉ s.inFlight
  /-- A submission is completed once, with what its transfer carries. -/
  once : ∀ r ∈ s.submissions, r.completions.length ≤ 1
  result : ∀ r ∈ s.submissions, ∀ c ∈ r.completions, ∃ t, r.transfer = some t ∧ c = cfg.result t
  completed : ∀ i, (s.pL2ReadBuffer i).state = .completed →
    ∃ r, s.submissions[(s.pL2ReadBuffer i).submission]? = some r ∧ r.buffer = i ∧
      r.completions = [((s.pL2ReadBuffer i).status, (s.pL2ReadBuffer i).length)]
  consumed : ∀ k ∈ s.consumed, ∃ r, s.submissions[k]? = some r ∧ r.completions.length = 1
  /-- One that USB is done with and that is not completed is going to be, unless the thread ended. -/
  due : ∀ k r, s.submissions[k]? = some r → r.transfer.isSome → r.completions = [] →
    (s.pL2ReadBuffer r.buffer).submission = k ∧
      (r.buffer ∈ s.l2CompletionQueue ∨ s.l2Phase.hand = some r.buffer ∨ s.l2Phase = .exited)
  /-- The submissions are consumed in their order. -/
  order : s.consumed = List.range s.consumed.length

/-! ## The invariant -/

inductive Place
  | usb
  | queue
  | thread
deriving DecidableEq

def State.lists (s : State) : Place → List Nat
  | .usb => s.inFlight
  | .queue => s.l2CompletionQueue
  | .thread => s.l2Phase.hand.toList

/-- Each pending buffer has one place. -/
structure Held (s : State) (place : Nat → Option Place) : Prop where
  tracks : Tracks s.lists place
  pending : ∀ i p, place i = some p → (s.pL2ReadBuffer i).state = .pending
  placed : ∀ i, (s.pL2ReadBuffer i).state = .pending → place i ≠ none ∨ s.l2Phase = .exited

/-- The submissions that are not consumed are a window on the ring. -/
structure Ring (cfg : Settings) (s : State) : Prop where
  order : s.consumed = List.range s.consumed.length
  le : s.consumed.length ≤ s.submissions.length
  room : s.submissions.length ≤ s.consumed.length + cfg.numberOfL2Buffers
  ready : ∀ i, (s.pL2ReadBuffer i).state = .ready ↔
    ∀ k, s.consumed.length ≤ k → k < s.submissions.length → k % cfg.numberOfL2Buffers ≠ i
  submission : ∀ k, s.consumed.length ≤ k → k < s.submissions.length →
    (s.pL2ReadBuffer (k % cfg.numberOfL2Buffers)).submission = k
  buffer : ∀ k r, s.submissions[k]? = some r → r.buffer = k % cfg.numberOfL2Buffers

/-- The indices of the two threads. Each is one behind while its thread is about to advance it. -/
structure Indices (cfg : Settings) (s : State) : Prop where
  endIdx : s.l2Phase ≠ .calling → s.l2IrpEndIdx = s.submissions.length % cfg.numberOfL2Buffers
  calling : s.l2Phase = .calling →
    ∃ k, s.submissions.length = k + 1 ∧ s.l2IrpEndIdx = k % cfg.numberOfL2Buffers
  fillIdx : s.l1Phase ≠ .advance → s.l2FillIdx = s.consumed.length % cfg.numberOfL2Buffers
  advance : s.l1Phase = .advance →
    ∃ k, s.consumed.length = k + 1 ∧ s.l2FillIdx = k % cfg.numberOfL2Buffers

/-- A submission that was completed once, with what its transfer carries. -/
def Finished (cfg : Settings) (r : Submission) : Prop :=
  ∃ t, r.transfer = some t ∧ r.completions = [cfg.result t]

/-- The record of a submission agrees with its buffer and the place of the buffer. -/
structure Agrees (cfg : Settings) (b : L2Buffer) (place : Option Place) (r : Submission) : Prop where
  completed : b.state = .completed → Finished cfg r ∧ r.completions = [(b.status, b.length)]
  pending : b.state = .pending → r.completions = []
  usb : place = some .usb → r.transfer = none
  back : place = some .queue ∨ place = some .thread → r.transfer = some b.irp

structure Recorded (cfg : Settings) (s : State) (place : Nat → Option Place) : Prop where
  past : ∀ k r, s.submissions[k]? = some r → k < s.consumed.length → Finished cfg r
  current : ∀ k r, s.submissions[k]? = some r → s.consumed.length ≤ k →
    Agrees cfg (s.pL2ReadBuffer (k % cfg.numberOfL2Buffers)) (place (k % cfg.numberOfL2Buffers)) r

structure Sound (cfg : Settings) (s : State) (place : Nat → Option Place) : Prop where
  held : Held s place
  ring : Ring cfg s
  indices : Indices cfg s
  recorded : Recorded cfg s place

def Inv (cfg : Settings) (s : State) : Prop := ∃ place, Sound cfg s place

variable {cfg : Settings} {s s' : State} {place place' : Nat → Option Place} {i k : Nat}
  {r : Submission}

/-! ## What the invariant says -/

theorem lt_length_of_getElem? {α : Type} {l : List α} {a : α} (h : l[k]? = some a) :
    k < l.length := by
  obtain ⟨hk, -⟩ := List.getElem?_eq_some_iff.mp h
  exact hk

/-- The submission of a buffer in use. -/
theorem Ring.item (h : Ring cfg s) (hi : (s.pL2ReadBuffer i).state ≠ .ready) :
    ∃ k r, s.consumed.length ≤ k ∧ k % cfg.numberOfL2Buffers = i ∧ s.submissions[k]? = some r ∧
      (s.pL2ReadBuffer i).submission = k := by
  rw [ne_eq, h.ready] at hi
  push Not at hi
  obtain ⟨k, hlo, hhi, rfl⟩ := hi
  exact ⟨k, s.submissions[k], hlo, rfl, List.getElem?_eq_getElem hhi, h.submission k hlo hhi⟩

/-- A buffer that a submission of the window uses is not ready. -/
theorem Ring.in_use (h : Ring cfg s) (hlo : s.consumed.length ≤ k)
    (hhi : k < s.submissions.length) :
    (s.pL2ReadBuffer (k % cfg.numberOfL2Buffers)).state ≠ .ready := by
  intro hready
  exact (h.ready _).mp hready k hlo hhi rfl

theorem Ring.eq_of_slot (h : Ring cfg s) {j : Nat} (hk : s.consumed.length ≤ k)
    (hk' : k < s.submissions.length) (hj : s.consumed.length ≤ j) (hj' : j < s.submissions.length)
    (hslot : j % cfg.numberOfL2Buffers = k % cfg.numberOfL2Buffers) : j = k :=
  RingWindow.eq_of_mem hslot h.room ⟨hj, hj'⟩ ⟨hk, hk'⟩

theorem Finished.length (h : Finished cfg r) : r.completions.length = 1 := by
  obtain ⟨t, -, hc⟩ := h
  simp [hc]

/-- A submission is finished, or its buffer is still pending. -/
theorem Sound.finished_or_pending (h : Sound cfg s place) (hr : s.submissions[k]? = some r) :
    Finished cfg r ∨ s.consumed.length ≤ k ∧ r.completions = [] ∧
      (s.pL2ReadBuffer (k % cfg.numberOfL2Buffers)).state = .pending := by
  rcases Nat.lt_or_ge k s.consumed.length with hpast | hcur
  · exact .inl (h.recorded.past k r hr hpast)
  · have hag := h.recorded.current k r hr hcur
    have huse := h.ring.in_use hcur (lt_length_of_getElem? hr)
    cases hstate : (s.pL2ReadBuffer (k % cfg.numberOfL2Buffers)).state with
    | ready => exact absurd hstate huse
    | pending => exact .inr ⟨hcur, hag.pending hstate, rfl⟩
    | completed => exact .inl (hag.completed hstate).1

/-- The invariant gives the life cycle. -/
theorem Sound.lifeCycle (h : Sound cfg s place) : LifeCycle cfg s where
  inFlight := fun i hi => h.held.pending i .usb (h.held.tracks.place_eq (p := Place.usb) hi)
  queued := by
    intro i hi
    have hnodup : s.l2CompletionQueue.Nodup := h.held.tracks.nodup .queue
    refine ⟨List.count_eq_one_of_mem hnodup hi, fun hflight => ?_⟩
    have hplace := h.held.tracks.eq_of_mem (p := Place.queue) (q := Place.usb) hi hflight
    cases hplace
  once := by
    intro r hr
    obtain ⟨k, hk⟩ := List.mem_iff_getElem?.mp hr
    rcases h.finished_or_pending hk with hfin | ⟨-, hnil, -⟩
    · exact hfin.length.le
    · simp [hnil]
  result := by
    intro r hr c hc
    obtain ⟨k, hk⟩ := List.mem_iff_getElem?.mp hr
    rcases h.finished_or_pending hk with ⟨t, ht, hcompletions⟩ | ⟨-, hnil, -⟩
    · rw [hcompletions, List.mem_singleton] at hc
      exact ⟨t, ht, hc⟩
    · simp [hnil] at hc
  completed := by
    intro i hi
    obtain ⟨k, r, hlo, rfl, hr, hsub⟩ := h.ring.item (i := i) (by rw [hi]; decide)
    refine ⟨r, by rw [hsub]; exact hr, h.ring.buffer k r hr, ?_⟩
    exact ((h.recorded.current k r hr hlo).completed hi).2
  consumed := by
    intro k hk
    rw [h.ring.order, List.mem_range] at hk
    have hlt : k < s.submissions.length := hk.trans_le h.ring.le
    refine ⟨s.submissions[k], List.getElem?_eq_getElem hlt, ?_⟩
    exact (h.recorded.past k _ (List.getElem?_eq_getElem hlt) hk).length
  due := by
    intro k r hr htransfer hnil
    rcases h.finished_or_pending hr with hfin | ⟨hlo, -, hpending⟩
    · have hone := hfin.length
      simp [hnil] at hone
    · rw [h.ring.buffer k r hr]
      refine ⟨h.ring.submission k hlo (lt_length_of_getElem? hr), ?_⟩
      rcases h.held.placed _ hpending with hplace | hexited
      · obtain ⟨p, hp⟩ := Option.ne_none_iff_exists'.mp hplace
        have hmem := (h.held.tracks.mem_iff p _).mpr hp
        cases p with
        | usb =>
          have hnone := (h.recorded.current k r hr hlo).usb hp
          simp [hnone] at htransfer
        | queue => exact .inl hmem
        | thread => exact .inr (.inl (by simpa [State.lists] using hmem))
      · exact .inr (.inr hexited)
  order := h.ring.order

/-! ## Steps that touch no buffer -/

/-- The buffers, the queues and the indices are as they were. -/
structure Same (s s' : State) : Prop where
  buffers : s'.pL2ReadBuffer = s.pL2ReadBuffer
  inFlight : s'.inFlight = s.inFlight
  queue : s'.l2CompletionQueue = s.l2CompletionQueue
  submissions : s'.submissions = s.submissions
  consumed : s'.consumed = s.consumed
  endIdx : s'.l2IrpEndIdx = s.l2IrpEndIdx
  fillIdx : s'.l2FillIdx = s.l2FillIdx

theorem Same.refl (s : State) : Same s s := ⟨rfl, rfl, rfl, rfl, rfl, rfl, rfl⟩

theorem Ring.congr (h : Ring cfg s) (hbuffers : s'.pL2ReadBuffer = s.pL2ReadBuffer)
    (hsubmissions : s'.submissions = s.submissions) (hconsumed : s'.consumed = s.consumed) :
    Ring cfg s' := by
  constructor
  · rw [hconsumed]
    exact h.order
  · rw [hconsumed, hsubmissions]
    exact h.le
  · rw [hconsumed, hsubmissions]
    exact h.room
  · rw [hbuffers, hconsumed, hsubmissions]
    exact h.ready
  · rw [hbuffers, hconsumed, hsubmissions]
    exact h.submission
  · rw [hsubmissions]
    exact h.buffer

/-- The phases may change, as long as the thread keeps what it has in its hands, does not enter or
leave `IoCallDriver`, and the other one does not stand between a buffer and its index. -/
theorem Sound.same (h : Sound cfg s place) (hs : Same s s')
    (hhand : s'.l2Phase.hand = s.l2Phase.hand) (hcalling : s'.l2Phase = .calling ↔ s.l2Phase = .calling)
    (hexited : s.l2Phase = .exited → s'.l2Phase = .exited)
    (hadvance : s'.l1Phase = .advance ↔ s.l1Phase = .advance) : Sound cfg s' place where
  held := by
    refine ⟨h.held.tracks.of_perm fun p => ?_, ?_, fun i hi => ?_⟩
    · cases p with
      | usb => exact .of_eq hs.inFlight
      | queue => exact .of_eq hs.queue
      | thread => exact .of_eq (congrArg Option.toList hhand)
    · rw [hs.buffers]
      exact h.held.pending
    · rw [hs.buffers] at hi
      exact (h.held.placed i hi).imp_right hexited
  ring := h.ring.congr hs.buffers hs.submissions hs.consumed
  indices := by
    constructor
    · rw [hs.endIdx, hs.submissions, ne_eq, hcalling]
      exact h.indices.endIdx
    · rw [hs.endIdx, hs.submissions, hcalling]
      exact h.indices.calling
    · rw [hs.fillIdx, hs.consumed, ne_eq, hadvance]
      exact h.indices.fillIdx
    · rw [hs.fillIdx, hs.consumed, hadvance]
      exact h.indices.advance
  recorded := by
    constructor
    · rw [hs.submissions, hs.consumed]
      exact h.recorded.past
    · rw [hs.submissions, hs.consumed, hs.buffers]
      exact h.recorded.current

/-- A phase in which the level-2 thread holds no buffer and is neither in a call nor gone. -/
def L2Phase.Idle (p : L2Phase) : Prop := p.hand = none ∧ p ≠ .calling ∧ p ≠ .exited

/-- The level-2 thread goes from one idle phase to another. -/
theorem Sound.idle (h : Sound cfg s place) (hs : Same s s') (hidle : s.l2Phase.Idle)
    (hidle' : s'.l2Phase.Idle) (hl1 : s'.l1Phase = s.l1Phase) : Sound cfg s' place := by
  refine h.same hs (hidle'.1.trans hidle.1.symm) ?_ (fun hex => absurd hex hidle.2.2) (by rw [hl1])
  exact iff_of_false hidle'.2.1 hidle.2.1

/-- The level-1 thread goes on without touching a buffer. -/
theorem Sound.quiet (h : Sound cfg s place) (hs : Same s s') (hl2 : s'.l2Phase = s.l2Phase)
    (hadvance : s.l1Phase ≠ .advance) (hadvance' : s'.l1Phase ≠ .advance) : Sound cfg s' place :=
  h.same hs (by rw [hl2]) (by rw [hl2]) (by rw [hl2]; exact id) (iff_of_false hadvance' hadvance)

theorem same_keSetEvent (s : State) (e : L2Event) : Same s (s.keSetEvent e) :=
  ⟨rfl, rfl, rfl, rfl, rfl, rfl, rfl⟩

/-! ## Steps that touch one buffer in use -/

/-- A buffer in use and the record of its submission change. -/
structure Touched (s s' : State) (i : Nat) (b : L2Buffer) (f : Submission → Submission) : Prop where
  buffers : s'.pL2ReadBuffer = Function.update s.pL2ReadBuffer i b
  submission : b.submission = (s.pL2ReadBuffer i).submission
  inUse : (s.pL2ReadBuffer i).state ≠ .ready ∧ b.state ≠ .ready
  submissions : s'.submissions = s.submissions.modify (s.pL2ReadBuffer i).submission f
  keeps : ∀ r, (f r).buffer = r.buffer
  consumed : s'.consumed = s.consumed

namespace Touched

variable {b : L2Buffer} {f : Submission → Submission}

theorem length (ht : Touched s s' i b f) : s'.submissions.length = s.submissions.length := by
  rw [ht.submissions, List.length_modify]

theorem ring (ht : Touched s s' i b f) (h : Ring cfg s) : Ring cfg s' := by
  constructor
  · rw [ht.consumed]
    exact h.order
  · rw [ht.consumed, ht.length]
    exact h.le
  · rw [ht.consumed, ht.length]
    exact h.room
  · intro j
    rw [ht.consumed, ht.length, ← h.ready j, ht.buffers]
    rcases eq_or_ne j i with rfl | hne
    · rw [Function.update_self]
      exact iff_of_false ht.inUse.2 ht.inUse.1
    · rw [Function.update_of_ne hne]
  · intro k hlo hhi
    rw [ht.consumed] at hlo
    rw [ht.length] at hhi
    rw [ht.buffers, ← h.submission k hlo hhi]
    rcases eq_or_ne (k % cfg.numberOfL2Buffers) i with heq | hne
    · rw [h.submission k hlo hhi, heq, Function.update_self, ht.submission, ← heq,
        h.submission k hlo hhi]
    · rw [h.submission k hlo hhi, Function.update_of_ne hne, h.submission k hlo hhi]
  · intro k r hr
    rw [ht.submissions, List.getElem?_modify] at hr
    obtain ⟨r₀, hr₀, rfl⟩ := Option.map_eq_some_iff.mp hr
    rw [← h.buffer k r₀ hr₀]
    split_ifs
    · exact ht.keeps r₀
    · rfl

/-- The record that changes agrees with the buffer again. The others have other buffers. -/
theorem recorded (ht : Touched s s' i b f) (hring : Ring cfg s) (h : Recorded cfg s place)
    (hplace : ∀ j, j ≠ i → place' j = place j)
    (hagrees : ∀ r, Agrees cfg (s.pL2ReadBuffer i) (place i) r → Agrees cfg b (place' i) (f r)) :
    Recorded cfg s' place' := by
  obtain ⟨k, r, hlo, hslot, hr, hsub⟩ := hring.item ht.inUse.1
  constructor
  · intro j q hq hj
    rw [ht.consumed] at hj
    rw [ht.submissions, hsub, List.getElem?_modify_ne _ _ (show k ≠ j by omega)] at hq
    exact h.past j q hq hj
  · intro j q hq hj
    rw [ht.consumed] at hj
    rw [ht.submissions, hsub] at hq
    rw [ht.buffers]
    rcases eq_or_ne k j with rfl | hne
    · rw [List.getElem?_modify_eq, hr] at hq
      obtain rfl : f r = q := by simpa using hq
      rw [hslot, Function.update_self]
      exact hagrees r (hslot ▸ h.current k r hr hlo)
    · rw [List.getElem?_modify_ne _ _ hne] at hq
      have hother : j % cfg.numberOfL2Buffers ≠ i := by
        intro heq
        refine hne (hring.eq_of_slot hj (lt_length_of_getElem? hq) hlo (lt_length_of_getElem? hr) ?_)
        rw [hslot, heq]
      rw [Function.update_of_ne hother, hplace _ hother]
      exact h.current j q hq hj

end Touched

/-! ## Submission -/

@[simp] theorem submit_submissions (cfg : Settings) (s : State) :
    (s.submit cfg).submissions = s.submissions ++ [⟨s.l2IrpEndIdx, none, []⟩] := rfl

@[simp] theorem submit_consumed (cfg : Settings) (s : State) :
    (s.submit cfg).consumed = s.consumed := rfl

theorem submit_buffer_self (cfg : Settings) (s : State) :
    ((s.submit cfg).pL2ReadBuffer s.l2IrpEndIdx).state = .pending ∧
      ((s.submit cfg).pL2ReadBuffer s.l2IrpEndIdx).submission = s.submissions.length := by
  simp [State.submit, State.setBuffer]

theorem submit_buffer_of_ne (cfg : Settings) {j : Nat} (hj : j ≠ s.l2IrpEndIdx) :
    (s.submit cfg).pL2ReadBuffer j = s.pL2ReadBuffer j := by
  simp [State.submit, State.setBuffer, hj]

/-- The window does not fill the ring while the next buffer is ready. -/
theorem Ring.room_of_ready (h : Ring cfg s)
    (hready : (s.pL2ReadBuffer (s.submissions.length % cfg.numberOfL2Buffers)).state = .ready) :
    s.submissions.length < s.consumed.length + cfg.numberOfL2Buffers :=
  (RingWindow.free_iff cfg.pos h.le h.room).mp ((h.ready _).mp hready)

theorem Ring.submit (h : Ring cfg s)
    (hidx : s.l2IrpEndIdx = s.submissions.length % cfg.numberOfL2Buffers)
    (hready : (s.pL2ReadBuffer s.l2IrpEndIdx).state = .ready) : Ring cfg (s.submit cfg) := by
  have hroom := h.room_of_ready (hidx ▸ hready)
  have hfree := (h.ready _).mp hready
  constructor
  · exact h.order
  · simpa using h.le.trans (Nat.le_succ _)
  · simpa using hroom
  · intro j
    simp only [submit_consumed, submit_submissions, List.length_append, List.length_singleton]
    rcases eq_or_ne j s.l2IrpEndIdx with rfl | hne
    · rw [(submit_buffer_self cfg s).1]
      refine iff_of_false (by decide) fun hnone => ?_
      exact hnone s.submissions.length h.le (Nat.lt_succ_self _) hidx.symm
    · rw [submit_buffer_of_ne cfg hne, h.ready]
      constructor
      · intro hnone k hlo hhi
        rcases Nat.lt_succ_iff_lt_or_eq.mp hhi with hlt | rfl
        · exact hnone k hlo hlt
        · exact fun heq => hne (heq.symm.trans hidx.symm)
      · exact fun hnone k hlo hhi => hnone k hlo (Nat.lt_succ_of_lt hhi)
  · intro k hlo hhi
    simp only [submit_consumed, submit_submissions, List.length_append, List.length_singleton]
      at hlo hhi
    rcases Nat.lt_succ_iff_lt_or_eq.mp hhi with hlt | rfl
    · rw [submit_buffer_of_ne cfg (hfree k hlo hlt)]
      exact h.submission k hlo hlt
    · rw [← hidx]
      exact (submit_buffer_self cfg s).2
  · intro k r hr
    rw [submit_submissions] at hr
    rcases Nat.lt_or_ge k s.submissions.length with hlt | hge
    · rw [List.getElem?_append_left hlt] at hr
      exact h.buffer k r hr
    · rw [List.getElem?_append_right hge, List.getElem?_singleton] at hr
      split_ifs at hr with hk
      obtain rfl : ⟨s.l2IrpEndIdx, none, []⟩ = r := Option.some.inj hr
      obtain rfl : k = s.submissions.length := by omega
      exact hidx

theorem Held.submit (h : Held s place) (htop : s.l2Phase = .top)
    (hready : (s.pL2ReadBuffer s.l2IrpEndIdx).state = .ready) :
    Held (s.submit cfg) (Function.update place s.l2IrpEndIdx (some .usb)) := by
  have hnone : place s.l2IrpEndIdx = none := by
    cases hp : place s.l2IrpEndIdx with
    | none => rfl
    | some p =>
      rw [h.pending _ p hp] at hready
      cases hready
  constructor
  · refine h.tracks.insert hnone (List.perm_append_singleton _ _) fun p hp => ?_
    cases p with
    | usb => exact absurd rfl hp
    | queue => exact .refl _
    | thread => exact .of_eq (by simp [State.lists, State.submit, htop, L2Phase.hand])
  · intro j p hp
    rcases eq_or_ne j s.l2IrpEndIdx with rfl | hne
    · exact (submit_buffer_self cfg s).1
    · rw [Function.update_of_ne hne] at hp
      rw [submit_buffer_of_ne cfg hne]
      exact h.pending j p hp
  · intro j hj
    rcases eq_or_ne j s.l2IrpEndIdx with rfl | hne
    · simp
    · rw [submit_buffer_of_ne cfg hne] at hj
      rw [Function.update_of_ne hne]
      refine (h.placed j hj).imp_right fun hexited => ?_
      rw [htop] at hexited
      cases hexited

theorem Recorded.submit (h : Recorded cfg s place) (hring : Ring cfg s)
    (hidx : s.l2IrpEndIdx = s.submissions.length % cfg.numberOfL2Buffers)
    (hready : (s.pL2ReadBuffer s.l2IrpEndIdx).state = .ready) :
    Recorded cfg (s.submit cfg) (Function.update place s.l2IrpEndIdx (some .usb)) := by
  constructor
  · intro k r hr hk
    rw [submit_submissions, List.getElem?_append_left (hk.trans_le hring.le)] at hr
    exact h.past k r hr hk
  · intro k r hr hk
    rw [submit_submissions] at hr
    rcases Nat.lt_or_ge k s.submissions.length with hlt | hge
    · rw [List.getElem?_append_left hlt] at hr
      have hne := (hring.ready _).mp hready k hk hlt
      rw [submit_buffer_of_ne cfg hne, Function.update_of_ne hne]
      exact h.current k r hr hk
    · rw [List.getElem?_append_right hge, List.getElem?_singleton] at hr
      split_ifs at hr with hlast
      obtain rfl : ⟨s.l2IrpEndIdx, none, []⟩ = r := Option.some.inj hr
      obtain rfl : k = s.submissions.length := by omega
      rw [← hidx, Function.update_self]
      have hpending := (submit_buffer_self cfg s).1
      constructor
      · simp [hpending]
      · simp
      · simp
      · simp

theorem Sound.submit (h : Sound cfg s place) (htop : s.l2Phase = .top)
    (hready : (s.pL2ReadBuffer s.l2IrpEndIdx).state = .ready) : Inv cfg (s.submit cfg) := by
  have hidx := h.indices.endIdx (by simp [htop])
  refine ⟨_, h.held.submit htop hready, h.ring.submit hidx hready, ?_,
    h.recorded.submit h.ring hidx hready⟩
  refine ⟨fun hne => absurd rfl hne, fun _ => ⟨s.submissions.length, by simp, hidx⟩, ?_, ?_⟩
  · exact h.indices.fillIdx
  · exact h.indices.advance

/-- `IoCallDriver` returned, and the end index moves on. -/
theorem Sound.advanceEndIdx (h : Sound cfg s place) (hcalling : s.l2Phase = .calling) :
    Sound cfg (s.advanceEndIdx cfg) place := by
  obtain ⟨k, hk, hidx⟩ := h.indices.calling hcalling
  refine ⟨⟨h.held.tracks.of_perm fun p => ?_, h.held.pending, fun i hi => ?_⟩,
    h.ring.congr rfl rfl rfl, ⟨fun _ => ?_, fun hne => ?_, h.indices.fillIdx, h.indices.advance⟩,
    h.recorded.past, h.recorded.current⟩
  · cases p with
    | usb => exact .refl _
    | queue => exact .refl _
    | thread => exact .of_eq (by simp [State.lists, State.advanceEndIdx, hcalling, L2Phase.hand])
  · refine (h.held.placed i hi).imp_right fun hexited => ?_
    rw [hcalling] at hexited
    cases hexited
  · calc RingWindow.next cfg.numberOfL2Buffers s.l2IrpEndIdx
        = (k + 1) % cfg.numberOfL2Buffers := by rw [hidx, RingWindow.next_mod cfg.pos]
      _ = s.submissions.length % cfg.numberOfL2Buffers := by rw [hk]
  · cases hne

/-! ## Completion -/

/-- The completion routine puts the buffer on the queue. -/
theorem Sound.multiReadCompletionRoutine (h : Sound cfg s place) (hi : i ∈ s.inFlight)
    (t : Transfer) : Inv cfg (s.multiReadCompletionRoutine i t) := by
  have hplace : place i = some .usb := h.held.tracks.place_eq (p := Place.usb) hi
  have hpending := h.held.pending i .usb hplace
  have ht : Touched s (s.multiReadCompletionRoutine i t) i { s.pL2ReadBuffer i with irp := t }
      fun r => { r with transfer := some t } := by
    refine ⟨rfl, rfl, ?_, rfl, fun _ => rfl, rfl⟩
    simp [hpending]
  refine ⟨Function.update place i (some .queue), ⟨?_, fun j p hp => ?_, fun j hj => ?_⟩,
    ht.ring h.ring, ?_, ht.recorded h.ring h.recorded (fun j hj => Function.update_of_ne hj _ _) ?_⟩
  · refine h.held.tracks.move (p := Place.usb) (q := Place.queue) (by decide)
      (List.perm_cons_erase hi) (.refl _) (List.perm_append_singleton _ _) fun p husb hqueue => ?_
    cases p with
    | usb => exact absurd rfl husb
    | queue => exact absurd rfl hqueue
    | thread => exact .refl _
  · rw [ht.buffers]
    rcases eq_or_ne j i with rfl | hne
    · rw [Function.update_self]
      exact hpending
    · rw [Function.update_of_ne hne] at hp ⊢
      exact h.held.pending j p hp
  · rcases eq_or_ne j i with rfl | hne
    · simp
    · rw [ht.buffers, Function.update_of_ne hne] at hj
      rw [Function.update_of_ne hne]
      exact h.held.placed j hj
  · refine ⟨?_, ?_, h.indices.fillIdx, h.indices.advance⟩
    · rw [ht.length]
      exact h.indices.endIdx
    · rw [ht.length]
      exact h.indices.calling
  · intro r hr
    rw [Function.update_self]
    constructor
    · simp [hpending]
    · exact fun _ => hr.pending hpending
    · simp
    · simp

theorem Sound.l2Dequeue (h : Sound cfg s place) (hphase : s.l2Phase = .dequeue) :
    Inv cfg s.l2Dequeue := by
  cases hqueue : s.l2CompletionQueue with
  | nil =>
    have heq : s.l2Dequeue = { s with l2Phase := .top } := by simp only [State.l2Dequeue, hqueue]
    rw [heq]
    refine ⟨place, h.idle ⟨rfl, rfl, rfl, rfl, rfl, rfl, rfl⟩ ?_ ?_ rfl⟩
    · simp [hphase, L2Phase.Idle, L2Phase.hand]
    · simp [L2Phase.Idle, L2Phase.hand]
  | cons i rest =>
    have heq : s.l2Dequeue = { s with l2CompletionQueue := rest, l2Phase := .dequeued i } := by
      simp only [State.l2Dequeue, hqueue]
    rw [heq]
    have hplace : place i = some .queue :=
      h.held.tracks.place_eq (p := Place.queue) (by simp [State.lists, hqueue])
    refine ⟨Function.update place i (some .thread), ⟨?_, fun j p hp => ?_, fun j hj => ?_⟩,
      h.ring.congr rfl rfl rfl, ⟨fun _ => ?_, fun hne => ?_, h.indices.fillIdx, h.indices.advance⟩,
      h.recorded.past, fun k r hr hk => ?_⟩
    · refine h.held.tracks.move (p := Place.queue) (q := Place.thread) (by decide)
        (.of_eq hqueue) (.refl _) ?_ fun p hq ht => ?_
      · exact .of_eq (by simp [State.lists, hphase, L2Phase.hand])
      · cases p with
        | usb => exact .refl _
        | queue => exact absurd rfl hq
        | thread => exact absurd rfl ht
    · rcases eq_or_ne j i with rfl | hne
      · exact h.held.pending j .queue hplace
      · rw [Function.update_of_ne hne] at hp
        exact h.held.pending j p hp
    · rcases eq_or_ne j i with rfl | hne
      · simp
      · rw [Function.update_of_ne hne]
        refine (h.held.placed j hj).imp_right fun hexited => ?_
        rw [hphase] at hexited
        cases hexited
    · exact h.indices.endIdx (by simp [hphase])
    · cases hne
    · have hag := h.recorded.current k r hr hk
      rcases eq_or_ne (k % cfg.numberOfL2Buffers) i with heq | hne
      · rw [heq, hplace] at hag
        rw [heq, Function.update_self]
        exact ⟨hag.completed, hag.pending, by simp, fun _ => hag.back (.inl rfl)⟩
      · rw [Function.update_of_ne hne]
        exact hag

theorem same_countBusy (cfg : Settings) (s : State) (ntStatus : NtStatus) :
    Same s (s.countBusy cfg ntStatus) := by
  unfold State.countBusy
  split_ifs <;> exact ⟨rfl, rfl, rfl, rfl, rfl, rfl, rfl⟩

theorem countBusy_phases (cfg : Settings) (s : State) (ntStatus : NtStatus) :
    (s.countBusy cfg ntStatus).l2Phase.Idle ∧
      (s.countBusy cfg ntStatus).l1Phase = s.l1Phase := by
  unfold State.countBusy
  split_ifs <;> simp [L2Phase.Idle, L2Phase.hand, State.keSetEvent]

/-- `State` becomes `L2BUF_STATE_COMPLETED` in the buffer and in the record of its submission. -/
theorem touched_l2Process (cfg : Settings) (hpending : (s.pL2ReadBuffer i).state = .pending) :
    Touched s (s.l2Process cfg i) i { cfg.filled (s.pL2ReadBuffer i) with state := .completed }
      fun r => { r with completions := r.completions ++ [cfg.result (s.pL2ReadBuffer i).irp] } := by
  have hsame := same_countBusy cfg
    { (s.setBuffer i (cfg.filled (s.pL2ReadBuffer i))).setCompleted i with
      l2IrpStartIdx := RingWindow.next cfg.numberOfL2Buffers i }
    (cfg.filled (s.pL2ReadBuffer i)).status
  refine ⟨hsame.buffers.trans ?_, rfl, ?_, hsame.submissions.trans ?_, fun _ => rfl, hsame.consumed⟩
  · simp [State.setCompleted, State.setBuffer, State.setSubmission]
  · simp [hpending]
  · simp [State.setCompleted, State.setBuffer, State.setSubmission, Settings.filled, Settings.result]

/-- The level-2 thread completes the buffer in its hands with what its transfer carries. -/
theorem Sound.l2Process (h : Sound cfg s place) (hphase : s.l2Phase = .process i) :
    Inv cfg (s.l2Process cfg i) := by
  have hhand : s.l2Phase.hand = some i := by rw [hphase]; rfl
  have hplace : place i = some .thread :=
    h.held.tracks.place_eq (p := Place.thread) (by simp [State.lists, hhand])
  have hpending := h.held.pending i .thread hplace
  have ht := touched_l2Process cfg hpending
  obtain ⟨hidle, hl1⟩ : (s.l2Process cfg i).l2Phase.Idle ∧ (s.l2Process cfg i).l1Phase = s.l1Phase :=
    countBusy_phases cfg _ _
  have hsame := same_countBusy cfg
    { (s.setBuffer i (cfg.filled (s.pL2ReadBuffer i))).setCompleted i with
      l2IrpStartIdx := RingWindow.next cfg.numberOfL2Buffers i }
    (cfg.filled (s.pL2ReadBuffer i)).status
  refine ⟨Function.update place i none, ⟨?_, fun j p hp => ?_, fun j hj => ?_⟩, ht.ring h.ring,
    ⟨fun _ => ?_, fun hc => absurd hc hidle.2.1, ?_, ?_⟩,
    ht.recorded h.ring h.recorded (fun j hj => Function.update_of_ne hj _ _) ?_⟩
  · have hheld : (s.lists .thread).Perm [i] := .of_eq (by simp [State.lists, hhand])
    refine h.held.tracks.remove hheld ?_ fun p hp => ?_
    · exact .of_eq (by simp [State.lists, hidle.1])
    · cases p with
      | usb => exact .of_eq hsame.inFlight
      | queue => exact .of_eq hsame.queue
      | thread => exact absurd rfl hp
  · rcases eq_or_ne j i with rfl | hne
    · simp at hp
    · rw [Function.update_of_ne hne] at hp
      rw [ht.buffers, Function.update_of_ne hne]
      exact h.held.pending j p hp
  · rw [ht.buffers] at hj
    rcases eq_or_ne j i with rfl | hne
    · simp at hj
    · rw [Function.update_of_ne hne] at hj ⊢
      refine (h.held.placed j hj).imp_right fun hexited => ?_
      rw [hphase] at hexited
      cases hexited
  · rw [ht.length]
    exact hsame.endIdx.trans (h.indices.endIdx (by simp [hphase]))
  · rw [hl1, ht.consumed]
    exact fun hadvance => hsame.fillIdx.trans (h.indices.fillIdx hadvance)
  · intro hadvance
    rw [hl1] at hadvance
    obtain ⟨k, hk, hidx⟩ := h.indices.advance hadvance
    exact ⟨k, by rw [ht.consumed, hk], hsame.fillIdx.trans hidx⟩
  · intro r hr
    have htransfer := hr.back (.inr hplace)
    have hnil := hr.pending hpending
    constructor
    · exact fun _ => ⟨⟨_, htransfer, by simp [hnil]⟩,
        by simp [hnil, Settings.result, Settings.filled]⟩
    · simp
    · simp
    · simp

/-- The thread ends, and what is on the queue stays pending. -/
theorem Sound.exit (h : Sound cfg s place) (hidle : s.l2Phase.Idle) : Inv cfg s.exit := by
  refine ⟨fun j => if place j = some .queue then none else place j, ⟨⟨?_, ?_⟩, fun j p hp => ?_,
    fun _ _ => .inr rfl⟩, h.ring.congr rfl rfl rfl,
    ⟨fun _ => h.indices.endIdx hidle.2.1, fun hc => ?_, h.indices.fillIdx, h.indices.advance⟩,
    h.recorded.past, fun k r hr hk => ?_⟩
  · intro p
    cases p with
    | usb => exact h.held.tracks.nodup .usb
    | queue => exact List.nodup_nil
    | thread => exact List.nodup_nil
  · intro p j
    have hthread : place j ≠ some .thread := by
      intro hp
      have hmem := (h.held.tracks.mem_iff .thread j).mpr hp
      simp [State.lists, hidle.1] at hmem
    cases p with
    | usb =>
      have hiff := h.held.tracks.mem_iff .usb j
      simp only [State.lists, State.exit] at hiff ⊢
      rw [hiff]
      split_ifs with hq
      · simp [hq]
      · rfl
    | queue =>
      simp only [State.lists, State.exit]
      split_ifs with hq <;> simp [hq]
    | thread =>
      simp only [State.lists, State.exit, L2Phase.hand]
      split_ifs <;> simp [hthread]
  · split_ifs at hp
    exact h.held.pending j p hp
  · cases hc
  · have hag := h.recorded.current k r hr hk
    refine ⟨hag.completed, hag.pending, fun hp => ?_, fun hp => ?_⟩
    · split_ifs at hp
      exact hag.usb hp
    · split_ifs at hp
      · simp at hp
      · exact hag.back hp

/-! ## Consumption -/

/-- A completed buffer at the fill index is that of the next submission to consume. -/
theorem Sound.next_submission (h : Sound cfg s place)
    (hidx : s.l2FillIdx = s.consumed.length % cfg.numberOfL2Buffers)
    (hstate : (s.pL2ReadBuffer s.l2FillIdx).state = .completed) :
    s.consumed.length < s.submissions.length ∧
      (s.pL2ReadBuffer s.l2FillIdx).submission = s.consumed.length := by
  obtain ⟨k, r, hlo, hslot, hr, hsub⟩ := h.ring.item (i := s.l2FillIdx) (by rw [hstate]; decide)
  have hlt := lt_length_of_getElem? hr
  have heq : s.consumed.length = k :=
    RingWindow.eq_of_mod_eq (hidx.symm.trans hslot.symm) hlo (hlt.trans_le h.ring.room)
  subst heq
  exact ⟨hlt, hsub⟩

@[simp] theorem recycle_consumed (s : State) :
    s.recycle.consumed = s.consumed ++ [(s.pL2ReadBuffer s.l2FillIdx).submission] := rfl

@[simp] theorem recycle_submissions (s : State) : s.recycle.submissions = s.submissions := rfl

theorem recycle_buffer_self (s : State) :
    (s.recycle.pL2ReadBuffer s.l2FillIdx).state = .ready := by
  simp [State.recycle, State.setBuffer]

theorem recycle_buffer_of_ne {j : Nat} (hj : j ≠ s.l2FillIdx) :
    s.recycle.pL2ReadBuffer j = s.pL2ReadBuffer j := by
  simp [State.recycle, State.setBuffer, hj]

theorem Ring.recycle (h : Ring cfg s)
    (hidx : s.l2FillIdx = s.consumed.length % cfg.numberOfL2Buffers)
    (hlt : s.consumed.length < s.submissions.length)
    (hsub : (s.pL2ReadBuffer s.l2FillIdx).submission = s.consumed.length) : Ring cfg s.recycle := by
  have hother : ∀ k, s.consumed.length + 1 ≤ k → k < s.submissions.length →
      k % cfg.numberOfL2Buffers ≠ s.l2FillIdx := by
    intro k hlo hhi heq
    have hsame := h.eq_of_slot le_rfl hlt (Nat.le_of_succ_le hlo) hhi (heq.trans hidx)
    omega
  constructor
  · rw [recycle_consumed, List.length_append, List.length_singleton, List.range_succ, hsub, ← h.order]
  · simpa using hlt
  · simpa using h.room.trans (by omega)
  · intro j
    simp only [recycle_consumed, recycle_submissions, List.length_append, List.length_singleton]
    rcases eq_or_ne j s.l2FillIdx with rfl | hne
    · exact iff_of_true (recycle_buffer_self s) hother
    · rw [recycle_buffer_of_ne hne, h.ready]
      constructor
      · exact fun hnone k hlo hhi => hnone k (Nat.le_of_succ_le hlo) hhi
      · intro hnone k hlo hhi
        rcases Nat.eq_or_lt_of_le hlo with rfl | hlt'
        · exact fun heq => hne (heq.symm.trans hidx.symm)
        · exact hnone k hlt' hhi
  · intro k hlo hhi
    simp only [recycle_consumed, recycle_submissions, List.length_append, List.length_singleton]
      at hlo hhi
    rw [recycle_buffer_of_ne (hother k hlo hhi)]
    exact h.submission k (Nat.le_of_succ_le hlo) hhi
  · exact h.buffer

/-- A buffer is consumed and ready again. -/
theorem Sound.recycle (h : Sound cfg s place) (hl1 : s.l1Phase ≠ .advance)
    (hstate : (s.pL2ReadBuffer s.l2FillIdx).state = .completed) : Inv cfg s.recycle := by
  have hidx := h.indices.fillIdx hl1
  obtain ⟨hlt, hsub⟩ := h.next_submission hidx hstate
  have hring := h.ring.recycle hidx hlt hsub
  refine ⟨place, ⟨h.held.tracks.of_perm fun p => ?_, fun j p hp => ?_, fun j hj => ?_⟩, hring,
    ⟨h.indices.endIdx, h.indices.calling, fun hne => absurd rfl hne,
      fun _ => ⟨s.consumed.length, by simp, hidx⟩⟩, ?_, fun k r hr hk => ?_⟩
  · cases p <;> exact .refl _
  · have hpending := h.held.pending j p hp
    have hne : j ≠ s.l2FillIdx := by
      rintro rfl
      rw [hstate] at hpending
      cases hpending
    rw [recycle_buffer_of_ne hne]
    exact hpending
  · rcases eq_or_ne j s.l2FillIdx with rfl | hne
    · rw [recycle_buffer_self] at hj
      cases hj
    · rw [recycle_buffer_of_ne hne] at hj
      exact h.held.placed j hj
  · intro k r hr hk
    rw [recycle_consumed, List.length_append, List.length_singleton] at hk
    rcases Nat.lt_succ_iff_lt_or_eq.mp hk with hpast | rfl
    · exact h.recorded.past k r hr hpast
    · have hag := h.recorded.current _ r hr le_rfl
      rw [← hidx] at hag
      exact (hag.completed hstate).1
  · have huse := hring.in_use hk (lt_length_of_getElem? hr)
    have hne : k % cfg.numberOfL2Buffers ≠ s.l2FillIdx := by
      intro heq
      rw [heq] at huse
      exact huse (recycle_buffer_self s)
    rw [recycle_consumed, List.length_append, List.length_singleton] at hk
    rw [recycle_buffer_of_ne hne]
    exact h.recorded.current k r hr (Nat.le_of_succ_le hk)

theorem Sound.fillReadRequest {ntStatus readIrpCompletion : NtStatus} {recycled present : Bool}
    (h : Sound cfg s place) (hl1 : s.l1Phase = .fill ntStatus) :
    Inv cfg (s.fillReadRequest cfg ntStatus readIrpCompletion recycled present) := by
  have hadvance : s.l1Phase ≠ .advance := by simp [hl1]
  unfold State.fillReadRequest
  dsimp only
  by_cases hstate : (s.pL2ReadBuffer s.l2FillIdx).state = .completed
  · rw [if_neg (not_not.mpr hstate)]
    have hstopped : Sound cfg { s with bL1Stopped := s.bL1Stopped || !present } place :=
      h.quiet ⟨rfl, rfl, rfl, rfl, rfl, rfl, rfl⟩ rfl hadvance hadvance
    split_ifs
    · exact h.recycle hadvance hstate
    · exact hstopped.recycle hadvance hstate
    · exact ⟨place, hstopped.quiet ⟨rfl, rfl, rfl, rfl, rfl, rfl, rfl⟩ rfl hadvance (by simp)⟩
    · exact hstopped.recycle hadvance hstate
    · exact ⟨place, hstopped.quiet ⟨rfl, rfl, rfl, rfl, rfl, rfl, rfl⟩ rfl hadvance (by simp)⟩
  · rw [if_pos hstate]
    exact ⟨place, h.quiet ⟨rfl, rfl, rfl, rfl, rfl, rfl, rfl⟩ rfl hadvance (by simp)⟩

/-- The fill index catches up. -/
theorem Sound.moveFillIdx (h : Sound cfg s place) (hl1 : s.l1Phase = .advance) :
    Sound cfg
      { s with
        l2FillIdx := RingWindow.next cfg.numberOfL2Buffers s.l2FillIdx
        l1Phase := .waiting } place := by
  obtain ⟨k, hk, hidx⟩ := h.indices.advance hl1
  refine ⟨⟨h.held.tracks.of_perm fun p => ?_, h.held.pending, h.held.placed⟩,
    h.ring.congr rfl rfl rfl,
    ⟨h.indices.endIdx, h.indices.calling, fun _ => ?_, fun hne => ?_⟩,
    h.recorded.past, h.recorded.current⟩
  · cases p <;> exact .refl _
  · calc RingWindow.next cfg.numberOfL2Buffers s.l2FillIdx
        = (k + 1) % cfg.numberOfL2Buffers := by rw [hidx, RingWindow.next_mod cfg.pos]
      _ = s.consumed.length % cfg.numberOfL2Buffers := by rw [hk]
  · cases hne

theorem Sound.advanceFillIdx (h : Sound cfg s place) (hl1 : s.l1Phase = .advance) :
    Sound cfg (s.advanceFillIdx cfg) place := by
  unfold State.advanceFillIdx
  split_ifs
  · have hkicked : Sound cfg (s.keSetEvent .kick) place :=
      h.same (same_keSetEvent s .kick) rfl Iff.rfl id Iff.rfl
    exact hkicked.moveFillIdx hl1
  · exact h.moveFillIdx hl1

/-! ## Steps and runs -/

theorem Sound.start (cfg : Settings) : Sound cfg .start fun _ => none := by
  refine ⟨⟨⟨fun p => ?_, fun p i => ?_⟩, fun i p hp => ?_, fun i hi => ?_⟩,
    ⟨rfl, le_rfl, Nat.zero_le _, fun i => ?_, ?_, ?_⟩, ⟨fun _ => ?_, ?_, fun _ => ?_, ?_⟩, ?_, ?_⟩
  · cases p <;> exact List.nodup_nil
  · cases p <;> simp [State.lists, State.start, L2Phase.hand]
  · cases hp
  · cases hi
  · simp [State.start]
  · simp [State.start]
  · simp [State.start]
  · simp [State.start]
  · simp [State.start]
  · simp [State.start]
  · simp [State.start]
  · simp [State.start]
  · simp [State.start]

/-- The condition on a step: `IoCallDriver` returns `STATUS_PENDING`. -/
def Op.Pends : Op → Prop
  | .l2Called ntStatus => ntStatus = statusPending
  | _ => True

instance : (op : Op) → Decidable op.Pends
  | .l2Called ntStatus => inferInstanceAs (Decidable (ntStatus = statusPending))
  | .keSetEvent _ | .l2Top .. | .l2Wait .. | .l2Dequeue | .l2CheckEmpty | .l2ClearEvent | .l2Process
  | .l2Finish _ | .usbCompletes .. | .l1Fill | .l1FillReadRequest .. | .l1Advance | .l1Stop
  | .l1StopAcked | .l1Resume _ | .l1ResumeAcked | .l1Cancel => inferInstanceAs (Decidable True)

theorem Sound.l2Top {started polling : Bool} (h : Sound cfg s place) (hphase : s.l2Phase = .top) :
    Inv cfg (s.l2Top cfg started polling) := by
  have hidle : s.l2Phase.Idle := by simp [hphase, L2Phase.Idle, L2Phase.hand]
  have hwaiting : L2Phase.waiting.Idle := by simp [L2Phase.Idle, L2Phase.hand]
  unfold State.l2Top
  dsimp only
  split_ifs with hready
  · exact ⟨place, h.idle ⟨rfl, rfl, rfl, rfl, rfl, rfl, rfl⟩ hidle hwaiting rfl⟩
  · exact h.submit hphase hready.1
  · exact ⟨place, h.idle ⟨rfl, rfl, rfl, rfl, rfl, rfl, rfl⟩ hidle hwaiting rfl⟩

theorem Sound.l2Wait {present suspended : Bool} (h : Sound cfg s place)
    (hphase : s.l2Phase = .waiting) (e : L2Event) : Inv cfg (s.l2Wait present suspended e) := by
  have hidle : s.l2Phase.Idle := by simp [hphase, L2Phase.Idle, L2Phase.hand]
  have htop : L2Phase.top.Idle := by simp [L2Phase.Idle, L2Phase.hand]
  have hdequeue : L2Phase.dequeue.Idle := by simp [L2Phase.Idle, L2Phase.hand]
  cases e with
  | cancel =>
    have hstopped : Sound cfg { s.keClearEvent .cancel with bL2Stopped := true } place :=
      h.idle ⟨rfl, rfl, rfl, rfl, rfl, rfl, rfl⟩ hidle hidle rfl
    simp only [State.l2Wait]
    split_ifs
    · exact hstopped.exit hidle
    · exact ⟨place, hstopped.idle ⟨rfl, rfl, rfl, rfl, rfl, rfl, rfl⟩ hidle hidle rfl⟩
  | kick => exact ⟨place, h.idle ⟨rfl, rfl, rfl, rfl, rfl, rfl, rfl⟩ hidle htop rfl⟩
  | stop =>
    simp only [State.l2Wait]
    split_ifs
    · exact ⟨place, h.idle ⟨rfl, rfl, rfl, rfl, rfl, rfl, rfl⟩ hidle hidle rfl⟩
    · exact ⟨place, h.idle ⟨rfl, rfl, rfl, rfl, rfl, rfl, rfl⟩ hidle htop rfl⟩
    · exact ⟨place, h.idle ⟨rfl, rfl, rfl, rfl, rfl, rfl, rfl⟩ hidle hidle rfl⟩
  | resume => exact ⟨place, h.idle ⟨rfl, rfl, rfl, rfl, rfl, rfl, rfl⟩ hidle htop rfl⟩
  | usbRead => exact ⟨place, h.idle ⟨rfl, rfl, rfl, rfl, rfl, rfl, rfl⟩ hidle hdequeue rfl⟩

theorem Sound.checkPresent (h : Sound cfg s place) (present : Bool) :
    Sound cfg (s.checkPresent present) place := by
  unfold State.checkPresent
  split_ifs
  · exact h
  · exact h.same ⟨rfl, rfl, rfl, rfl, rfl, rfl, rfl⟩ rfl Iff.rfl id Iff.rfl

theorem checkPresent_l2Phase (s : State) (present : Bool) :
    (s.checkPresent present).l2Phase = s.l2Phase := by
  unfold State.checkPresent
  split_ifs <;> rfl

theorem Sound.l2Finish (h : Sound cfg s place) (hphase : s.l2Phase = .finish) (present : Bool) :
    Inv cfg (s.l2Finish present) := by
  have hidle : s.l2Phase.Idle := by simp [hphase, L2Phase.Idle, L2Phase.hand]
  have hwaiting : L2Phase.waiting.Idle := by simp [L2Phase.Idle, L2Phase.hand]
  have htop : L2Phase.top.Idle := by simp [L2Phase.Idle, L2Phase.hand]
  unfold State.l2Finish
  dsimp only
  split_ifs
  · exact ⟨place, h.idle ⟨rfl, rfl, rfl, rfl, rfl, rfl, rfl⟩ hidle hwaiting rfl⟩
  · refine (Sound.checkPresent (?_ : Sound cfg _ place) present).exit ?_
    · exact h.idle ⟨rfl, rfl, rfl, rfl, rfl, rfl, rfl⟩ hidle hidle rfl
    · rw [checkPresent_l2Phase]
      exact hidle
  · refine ⟨place, (Sound.checkPresent (?_ : Sound cfg _ place) present).idle
      ⟨rfl, rfl, rfl, rfl, rfl, rfl, rfl⟩ ?_ htop rfl⟩
    · exact h.idle ⟨rfl, rfl, rfl, rfl, rfl, rfl, rfl⟩ hidle hidle rfl
    · rw [checkPresent_l2Phase]
      exact hidle

/-- One step in which `IoCallDriver` does not return with another status keeps the invariant. -/
theorem Sound.step (h : Sound cfg s place) {op : Op} (hop : op.Pends)
    (hs : step cfg s op = some s') : Inv cfg s' := by
  cases op with
  | keSetEvent e =>
    simp only [L2.step] at hs
    split_ifs at hs
    obtain rfl := Option.some.inj hs
    exact ⟨place, h.same (same_keSetEvent s e) rfl Iff.rfl id Iff.rfl⟩
  | l2Top started polling =>
    simp only [L2.step] at hs
    split_ifs at hs with hphase
    obtain rfl := Option.some.inj hs
    exact h.l2Top hphase
  | l2Called ntStatus =>
    simp only [L2.step] at hs
    split_ifs at hs with hphase
    obtain rfl := Option.some.inj hs
    obtain rfl : ntStatus = statusPending := hop
    have hcounted : Sound cfg { s with devErrCnt := 0 } place :=
      h.same ⟨rfl, rfl, rfl, rfl, rfl, rfl, rfl⟩ rfl Iff.rfl id Iff.rfl
    rw [State.l2Called, if_pos rfl]
    exact ⟨place, hcounted.advanceEndIdx hphase⟩
  | l2Wait e present suspended =>
    simp only [L2.step] at hs
    split_ifs at hs with hphase
    obtain rfl := Option.some.inj hs
    exact h.l2Wait hphase.1 e
  | l2Dequeue =>
    simp only [L2.step] at hs
    split_ifs at hs with hphase
    obtain rfl := Option.some.inj hs
    exact h.l2Dequeue hphase
  | l2CheckEmpty =>
    simp only [L2.step] at hs
    split at hs
    · rename_i i hphase
      obtain rfl := Option.some.inj hs
      refine ⟨place, h.same ⟨rfl, rfl, rfl, rfl, rfl, rfl, rfl⟩ ?_ ?_ ?_ Iff.rfl⟩
      · dsimp only
        split_ifs <;> simp [hphase, L2Phase.hand]
      · dsimp only
        split_ifs <;> simp [hphase]
      · simp [hphase]
    · cases hs
  | l2ClearEvent =>
    simp only [L2.step] at hs
    split at hs
    · rename_i i hphase
      obtain rfl := Option.some.inj hs
      refine ⟨place, h.same ⟨rfl, rfl, rfl, rfl, rfl, rfl, rfl⟩ ?_ ?_ ?_ Iff.rfl⟩
      · simp [hphase, L2Phase.hand]
      · simp [hphase]
      · simp [hphase]
    · cases hs
  | l2Process =>
    simp only [L2.step] at hs
    split at hs
    · rename_i i hphase
      obtain rfl := Option.some.inj hs
      exact h.l2Process hphase
    · cases hs
  | l2Finish present =>
    simp only [L2.step] at hs
    split_ifs at hs with hphase
    obtain rfl := Option.some.inj hs
    exact h.l2Finish hphase present
  | usbCompletes i t =>
    simp only [L2.step] at hs
    split_ifs at hs with hi
    obtain rfl := Option.some.inj hs
    exact h.multiReadCompletionRoutine hi t
  | l1Fill =>
    simp only [L2.step] at hs
    split_ifs at hs with hphase
    obtain rfl := Option.some.inj hs
    exact ⟨place, h.quiet ⟨rfl, rfl, rfl, rfl, rfl, rfl, rfl⟩ rfl (by simp [hphase.1]) (by simp)⟩
  | l1FillReadRequest readIrpCompletion recycled present =>
    simp only [L2.step] at hs
    split at hs
    · rename_i ntStatus hphase
      obtain rfl := Option.some.inj hs
      exact h.fillReadRequest hphase
    · cases hs
  | l1Advance =>
    simp only [L2.step] at hs
    split_ifs at hs with hphase
    obtain rfl := Option.some.inj hs
    exact ⟨place, h.advanceFillIdx hphase⟩
  | l1Stop =>
    simp only [L2.step] at hs
    split_ifs at hs with hphase
    obtain rfl := Option.some.inj hs
    exact ⟨place, h.quiet ⟨rfl, rfl, rfl, rfl, rfl, rfl, rfl⟩ rfl (by simp [hphase]) (by simp)⟩
  | l1StopAcked =>
    simp only [L2.step] at hs
    split_ifs at hs with hphase
    obtain rfl := Option.some.inj hs
    exact ⟨place, h.quiet ⟨rfl, rfl, rfl, rfl, rfl, rfl, rfl⟩ rfl (by simp [hphase.1]) (by simp)⟩
  | l1Resume bDeviceRemoved =>
    simp only [L2.step] at hs
    split_ifs at hs with hphase
    obtain rfl := Option.some.inj hs
    exact ⟨place, h.quiet ⟨rfl, rfl, rfl, rfl, rfl, rfl, rfl⟩ rfl (by simp [hphase]) (by simp)⟩
  | l1ResumeAcked =>
    simp only [L2.step] at hs
    split_ifs at hs with hphase
    obtain rfl := Option.some.inj hs
    exact ⟨place, h.quiet ⟨rfl, rfl, rfl, rfl, rfl, rfl, rfl⟩ rfl (by simp [hphase.1]) (by simp)⟩
  | l1Cancel =>
    simp only [L2.step] at hs
    split_ifs at hs with hphase
    obtain rfl := Option.some.inj hs
    exact ⟨place, h.quiet ⟨rfl, rfl, rfl, rfl, rfl, rfl, rfl⟩ rfl (by simp [hphase]) (by simp)⟩

/-- The buffers keep their life cycle in every run in which `IoCallDriver` returns `STATUS_PENDING`. -/
theorem lifeCycle_of_pends (cfg : Settings) (ops : List Op)
    (hops : ∀ p ∈ (reads cfg).fires .start ops, p.2.Pends) :
    ∀ s ∈ (reads cfg).visits .start ops, LifeCycle cfg s := by
  have hstep : ∀ s op s' o, Inv cfg s → op.Pends → reads cfg s op = some (s', o) → Inv cfg s' := by
    rintro s op s' o ⟨place, h⟩ hop hs
    exact h.step hop (step_of_reads hs)
  intro s hs
  obtain ⟨place, h⟩ := Machine.visits_all_of_fires hstep ⟨_, .start cfg⟩ hops s hs
  exact h.lifeCycle

/-- Two buffers, without multiplexing. -/
def twoBuffers : Settings where
  numberOfL2Buffers := 2
  pos := Nat.zero_lt_two
  maxPipeXferSize := 1024
  muxEnabled := false
  muxDataDLCI := 0
  muxInterfaceEnabled := false
  interfaceNumber := 0
  physicalInterfaceNumber := 0
  numOfRetriesOnError := 3
  bundled := false
  ipOnlyMode := true
  mtu := 1500

def transferOf (status : NtStatus) (length : Nat) : Transfer := ⟨status, length, fun _ => 0⟩

/-- The threads start, and the level-2 thread has resumed. -/
def resumed : List Op :=
  [.l2Top true true, .keSetEvent .resume, .l2Wait .resume true false]

/-- Both buffers are submitted, and the second comes back first. The first is consumed first, and it
is submitted again before the fill index has moved on. -/
def outOfOrderRun : List Op :=
  resumed ++
    [.l2Top true true, .l2Called statusPending, .l2Top true true, .l2Called statusPending,
      .l2Top true true, .usbCompletes 1 (transferOf statusCancelled 0), .l2Wait .usbRead true false,
      .l2Dequeue, .l2CheckEmpty, .l2ClearEvent, .l2Process, .l2Finish true, .l1Fill,
      .l1FillReadRequest statusSuccess false true, .usbCompletes 0 (transferOf statusSuccess 64),
      .l2Top true true, .l2Wait .usbRead true false, .l2Dequeue, .l2CheckEmpty, .l2ClearEvent,
      .l2Process, .l2Finish true, .l1Fill, .l1FillReadRequest statusSuccess false true,
      .l2Top true true, .l1Advance, .l2Called statusPending, .l1Fill,
      .l1FillReadRequest statusCancelled false true, .l1Advance]

theorem lifeCycle_of_pends_outOfOrder :
    ((reads twoBuffers).fires .start outOfOrderRun).length = 33 ∧
      ∀ s ∈ (reads twoBuffers).visits .start outOfOrderRun, LifeCycle twoBuffers s := by
  have hops : ∀ p ∈ (reads twoBuffers).fires .start outOfOrderRun, p.2.Pends := by
    decide +kernel
  exact ⟨by decide +kernel, lifeCycle_of_pends twoBuffers outOfOrderRun hops⟩

/-- `IoCallDriver` returns an error, and the buffer is completed while its IRP is with USB. -/
theorem returned_error_completed :
    ∃ s ∈ (reads twoBuffers).visits .start
      (resumed ++ [.l2Top true true, .l2Called 0xC00000A3]), ¬ LifeCycle twoBuffers s := by
  obtain ⟨s, hs, hflight, hstate⟩ : ∃ s ∈ (reads twoBuffers).visits .start
      (resumed ++ [.l2Top true true, .l2Called 0xC00000A3]),
        s.inFlight = [0] ∧ (s.pL2ReadBuffer 0).state = .completed := by
    decide +kernel
  refine ⟨s, hs, fun h => ?_⟩
  have hpending := h.inFlight 0 (by simp [hflight])
  rw [hstate] at hpending
  cases hpending

end Transport.L2
