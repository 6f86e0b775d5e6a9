-- SUMMARY: The reads of external QMI clients over a run: where each of them is, and what its cancel routine can still do.
import QcomUsb.Ndis.ExternalClients

/-!
# Reads of external clients

A read waits for `IoLock`, is looked at under it, waits on `ReadIrpQueue`, and is completed directly
or by way of `IrpCompletionQueue`. Its cancel routine is installed only while it is on
`ReadIrpQueue`.
-/

namespace Ndis.Ioc

open CancelRoutine Places

/-! ## Places -/

/-- The reads are where `place` says, on the lists of their own devices. -/
structure Located (s : State) (place : Irp → Option Place) : Prop where
  tracks : Tracks s.readsAt place
  submitted : ∀ irp, irp ∈ s.submitted ↔ (place irp).isSome = true
  reading : ∀ c irp, s.reading c = some irp → irp.dev = c
  queued : ∀ c, ∀ irp ∈ s.readIrpQueue c, irp.dev = c

/-- A read went from one place to another, and the others stayed. -/
structure Moved (s s' : State) (irp : Irp) (p q : Place) : Prop where
  taken : (s.readsAt p).Perm (irp :: s'.readsAt p)
  put : (s'.readsAt q).Perm (irp :: s.readsAt q)
  other : ∀ r, r ≠ p → r ≠ q → s'.readsAt r = s.readsAt r

variable {s s' : State} {place : Irp → Option Place} {irp : Irp} {c : Nat} {p q : Place}

theorem Located.initial : Located .initial fun _ => none where
  tracks := by
    refine ⟨fun p => ?_, fun p irp => ?_⟩
    · cases p <;> exact List.nodup_nil
    · cases p <;> simp [State.readsAt, State.initial]
  submitted := by simp [State.initial]
  reading := by simp [State.initial]
  queued := by simp [State.initial]

namespace Located

theorem place_eq (h : Located s place) (hirp : irp ∈ s.readsAt p) : place irp = some p :=
  h.tracks.place_eq hirp

/-- A read is at one place only. -/
theorem not_mem (h : Located s place) (hirp : irp ∈ s.readsAt p) (hne : p ≠ q) :
    irp ∉ s.readsAt q :=
  fun hq => hne (h.tracks.eq_of_mem hirp hq)

theorem move (h : Located s place) (hmoved : Moved s s' irp p q) (hne : p ≠ q)
    (hsubmitted : s'.submitted = s.submitted)
    (hreading : ∀ c irp, s'.reading c = some irp → irp.dev = c)
    (hqueued : ∀ c, ∀ irp ∈ s'.readIrpQueue c, irp.dev = c) :
    Located s' (Function.update place irp (some q)) where
  tracks := h.tracks.move hne hmoved.taken (.refl _) hmoved.put
    fun r hp hq => .of_eq (hmoved.other r hp hq)
  submitted := by
    intro j
    rw [hsubmitted, h.submitted]
    rcases eq_or_ne j irp with rfl | hj
    · have hplace := h.place_eq (hmoved.taken.mem_iff.mpr List.mem_cons_self)
      simp [hplace]
    · rw [Function.update_of_ne hj]
  reading := hreading
  queued := hqueued

/-- A new read. -/
theorem insert (h : Located s place) (hnew : irp ∉ s.submitted)
    (hput : (s'.readsAt q).Perm (irp :: s.readsAt q))
    (hother : ∀ r, r ≠ q → s'.readsAt r = s.readsAt r)
    (hsubmitted : s'.submitted = s.submitted ++ [irp]) (hreading : s'.reading = s.reading)
    (hqueue : s'.readIrpQueue = s.readIrpQueue) :
    Located s' (Function.update place irp (some q)) where
  tracks := by
    refine h.tracks.insert ?_ hput fun r hr => .of_eq (hother r hr)
    simpa [h.submitted] using hnew
  submitted := by
    intro j
    rw [hsubmitted, List.mem_append, h.submitted]
    rcases eq_or_ne j irp with rfl | hj
    · simp
    · simp [hj]
  reading := hreading ▸ h.reading
  queued := hqueue ▸ h.queued

/-- The reads stay where they are. -/
theorem congr (h : Located s place) (hplaces : s'.readsAt = s.readsAt)
    (hsubmitted : s'.submitted = s.submitted) : Located s' place where
  tracks := hplaces ▸ h.tracks
  submitted := hsubmitted ▸ h.submitted
  reading := by
    have hreading : s'.reading = s.reading := by
      funext c
      have hc := congrFun hplaces (.reading c)
      cases hr : s.reading c <;> cases hr' : s'.reading c <;> simp_all [State.readsAt]
    exact hreading ▸ h.reading
  queued := by
    have hqueue : s'.readIrpQueue = s.readIrpQueue :=
      funext fun c => congrFun hplaces (.readIrpQueue c)
    exact hqueue ▸ h.queued

end Located

/-! ## Cancel routines and filled reads -/

/-- A routine is installed on the reads of `ReadIrpQueue` that are not cancelled, and for those that
are it is under way. A read that will go there is not cancelled. -/
structure CancelOk (s : State) : Prop where
  io : s.io.Inv
  installed : ∀ irp, s.io.installed irp = true → irp ∈ s.readIrpQueue irp.dev
  running : ∀ irp ∈ s.io.running, s.io.cancel irp = true
  waits : ∀ c, ∀ irp ∈ s.readIrpQueue c, s.io.cancel irp = false → s.io.installed irp = true
  cancelled : ∀ c, ∀ irp ∈ s.readIrpQueue c, s.io.cancel irp = true → irp ∈ s.io.running
  reading : ∀ c irp, s.reading c = some irp → s.readDataQueue c = [] → s.io.cancel irp = false

/-- The reads that were filled are on their way back, with their messages. -/
structure FilledOk (s : State) : Prop where
  filled : ∀ c, ∀ f ∈ s.filled c,
    f.1.dev = c ∧ s.status f.1 = .success ∧ s.systemBuffer f.1 = f.2.msg.qmux ∧
      f.2.msg.qmux.length ≤ f.1.length
  back : ∀ c, ∀ f ∈ s.filled c, f.1 ∈ s.irpCompletionQueue c ∨ f.1 ∈ s.completed
  once : ∀ c, ((s.filled c).map (·.1)).Nodup
  success : ∀ irp, s.status irp = .success → irp.length = 0 ∨ ∃ f ∈ s.filled irp.dev, f.1 = irp

/-- The invariant of the reads. -/
structure ReadInv (s : State) : Prop where
  located : ∃ place, Located s place
  cancelOk : CancelOk s
  filledOk : FilledOk s
  notBoth : ∀ c, s.readDataQueue c = [] ∨ s.readIrpQueue c = []

theorem ReadInv.initial : ReadInv .initial where
  located := ⟨_, .initial⟩
  cancelOk := ⟨.initial, by simp [State.initial, CancelState.initial],
    by simp [State.initial, CancelState.initial], by simp [State.initial], by simp [State.initial],
    by simp [State.initial]⟩
  filledOk := ⟨by simp [State.initial], by simp [State.initial], by simp [State.initial],
    by simp [State.initial]⟩
  notBoth := fun _ => .inl rfl

/-- A read that is not on its way back was not filled. -/
theorem FilledOk.not_filled (h : FilledOk s) (hback : irp ∉ s.irpCompletionQueue irp.dev)
    (hcompleted : irp ∉ s.completed) : ∀ c, ∀ f ∈ s.filled c, f.1 ≠ irp := by
  rintro c f hf rfl
  obtain rfl := (h.filled c f hf).1
  exact (h.back _ f hf).elim hback hcompleted

/-- What the reads were filled with stays, and reads stay on their way back. -/
theorem FilledOk.congr (h : FilledOk s) (hfilled : s'.filled = s.filled)
    (hbuffer : s'.systemBuffer = s.systemBuffer) (hstatus : s'.status = s.status)
    (hback : ∀ c j, j ∈ s.irpCompletionQueue c ∨ j ∈ s.completed →
      j ∈ s'.irpCompletionQueue c ∨ j ∈ s'.completed) : FilledOk s' where
  filled := by
    rw [hfilled, hbuffer, hstatus]
    exact h.filled
  back := by
    rw [hfilled]
    exact fun c f hf => hback c _ (h.back c f hf)
  once := hfilled ▸ h.once
  success := by
    rw [hfilled, hstatus]
    exact h.success

/-- A read that was not filled gets a status, and reads go on their way back. -/
theorem FilledOk.setStatus (h : FilledOk s) (hnot : ∀ c, ∀ f ∈ s.filled c, f.1 ≠ irp)
    (hfilled : s'.filled = s.filled) (hbuffer : s'.systemBuffer = s.systemBuffer)
    {status : NtStatus}
    (hstatus : s'.status = Function.update s.status irp status)
    (hne : status = .success → irp.length = 0)
    (hback : ∀ c j, j ∈ s.irpCompletionQueue c ∨ j ∈ s.completed →
      j ∈ s'.irpCompletionQueue c ∨ j ∈ s'.completed) : FilledOk s' where
  filled := by
    intro c f hf
    rw [hfilled] at hf
    rw [hbuffer, hstatus, Function.update_of_ne (hnot c f hf)]
    exact h.filled c f hf
  back := by
    intro c f hf
    rw [hfilled] at hf
    exact hback c _ (h.back c f hf)
  once := hfilled ▸ h.once
  success := by
    intro j hj
    rw [hfilled]
    rw [hstatus] at hj
    rcases eq_or_ne j irp with rfl | hji
    · rw [Function.update_self] at hj
      exact .inl (hne hj)
    · rw [Function.update_of_ne hji] at hj
      exact h.success j hj

/-- A read that was not filled gets a message. -/
theorem FilledOk.fillRead (h : FilledOk s) {item : Item} (hdev : irp.dev = c)
    (hnot : ∀ c, ∀ f ∈ s.filled c, f.1 ≠ irp) (hlength : item.msg.qmux.length ≤ irp.length)
    (hfilled : s'.filled = Function.update s.filled c (s.filled c ++ [(irp, item)]))
    (hstatus : s'.status = Function.update s.status irp .success)
    (hbuffer : s'.systemBuffer = Function.update s.systemBuffer irp item.msg.qmux)
    (hback : ∀ c j, j ∈ s.irpCompletionQueue c ∨ j ∈ s.completed →
      j ∈ s'.irpCompletionQueue c ∨ j ∈ s'.completed)
    (hirp : irp ∈ s'.irpCompletionQueue c ∨ irp ∈ s'.completed) : FilledOk s' := by
  -- a filled read is an old one, or this one
  have hcases : ∀ c', ∀ f ∈ s'.filled c', f ∈ s.filled c' ∨ c' = c ∧ f = (irp, item) := by
    intro c' f hf
    rw [hfilled] at hf
    rcases eq_or_ne c' c with rfl | hc
    · rw [Function.update_self, List.mem_append, List.mem_singleton] at hf
      exact hf.imp_right fun heq => ⟨rfl, heq⟩
    · rw [Function.update_of_ne hc] at hf
      exact .inl hf
  have hold : ∀ c', s.filled c' ⊆ s'.filled c' := by
    intro c' f hf
    rw [hfilled]
    rcases eq_or_ne c' c with rfl | hc
    · rw [Function.update_self]
      exact List.mem_append_left _ hf
    · rw [Function.update_of_ne hc]
      exact hf
  refine ⟨fun c' f hf => ?_, fun c' f hf => ?_, fun c' => ?_, fun j hj => ?_⟩
  · obtain hf | ⟨rfl, rfl⟩ := hcases c' f hf
    · have hne := hnot c' f hf
      rw [hstatus, hbuffer, Function.update_of_ne hne, Function.update_of_ne hne]
      exact h.filled c' f hf
    · rw [hstatus, hbuffer, Function.update_self, Function.update_self]
      exact ⟨hdev, rfl, rfl, hlength⟩
  · obtain hf | ⟨rfl, rfl⟩ := hcases c' f hf
    · exact hback c' _ (h.back c' f hf)
    · exact hirp
  · rw [hfilled]
    rcases eq_or_ne c' c with rfl | hc
    · rw [Function.update_self, List.map_append, List.nodup_append]
      refine ⟨h.once c', List.nodup_singleton _, ?_⟩
      rintro j hj k hk
      obtain ⟨f, hf, rfl⟩ := List.mem_map.mp hj
      rw [List.map_singleton, List.mem_singleton] at hk
      exact hk ▸ hnot c' f hf
    · rw [Function.update_of_ne hc]
      exact h.once c'
  · rw [hstatus] at hj
    rcases eq_or_ne j irp with rfl | hji
    · refine .inr ⟨(j, item), ?_, rfl⟩
      rw [hfilled, hdev, Function.update_self]
      exact List.mem_append_right _ List.mem_cons_self
    · rw [Function.update_of_ne hji] at hj
      refine (h.success j hj).imp_right ?_
      rintro ⟨f, hf, rfl⟩
      exact ⟨f, hold _ hf, rfl⟩

/-! ## Reads that leave `ReadIrpQueue` -/

/-- A read has gone from `ReadIrpQueue` to `IrpCompletionQueue`, without its routine. What is under
way for other reads stays so. -/
structure Dequeued (s s' : State) (irp : Irp) : Prop where
  mem : irp ∈ s.readIrpQueue irp.dev
  readIrpQueue : s'.readIrpQueue =
    Function.update s.readIrpQueue irp.dev ((s.readIrpQueue irp.dev).erase irp)
  irpCompletionQueue : s'.irpCompletionQueue =
    Function.update s.irpCompletionQueue irp.dev (s.irpCompletionQueue irp.dev ++ [irp])
  io : s.io.Inv → s'.io.Inv
  cancel : s'.io.cancel = s.io.cancel
  gone : s.io.Inv → s'.io.installed irp = false
  installed : ∀ j, j ≠ irp → s'.io.installed j = s.io.installed j
  running : ∀ j ∈ s'.io.running, j ∈ s.io.running
  running' : ∀ j, j ≠ irp → j ∈ s.io.running → j ∈ s'.io.running
  waiting : s'.waiting = s.waiting
  reading : s'.reading = s.reading
  completed : s'.completed = s.completed
  submitted : s'.submitted = s.submitted
  readDataQueue : s'.readDataQueue = s.readDataQueue

namespace Dequeued

/-- The reads that are left are other ones, and were there before. -/
theorem left (hd : Dequeued s s' irp) (hplace : Located s place) {j : Irp}
    (hj : j ∈ s'.readIrpQueue c) : j ≠ irp ∧ j ∈ s.readIrpQueue c := by
  rw [hd.readIrpQueue] at hj
  rcases eq_or_ne c irp.dev with rfl | hc
  · rw [Function.update_self] at hj
    exact (hplace.tracks.nodup (.readIrpQueue irp.dev)).mem_erase_iff.mp hj
  · rw [Function.update_of_ne hc] at hj
    refine ⟨?_, hj⟩
    rintro rfl
    exact hc (hplace.queued c j hj).symm

theorem moved (hd : Dequeued s s' irp) :
    Moved s s' irp (.readIrpQueue irp.dev) (.irpCompletionQueue irp.dev) where
  taken := by
    simpa [State.readsAt, hd.readIrpQueue] using List.perm_cons_erase hd.mem
  put := by
    simp [State.readsAt, hd.irpCompletionQueue]
  other := by
    intro r hp hq
    cases r with
    | waiting => exact hd.waiting
    | reading c' => simp [State.readsAt, hd.reading]
    | readIrpQueue c' =>
      have hne : c' ≠ irp.dev := fun heq => hp (heq ▸ rfl)
      simp [State.readsAt, hd.readIrpQueue, hne]
    | irpCompletionQueue c' =>
      have hne : c' ≠ irp.dev := fun heq => hq (heq ▸ rfl)
      simp [State.readsAt, hd.irpCompletionQueue, hne]
    | completed => exact hd.completed

theorem cancelOk (hd : Dequeued s s' irp) (hplace : Located s place) (h : CancelOk s) :
    CancelOk s' := by
  refine ⟨hd.io h.io, fun j hj => ?_, fun j hj => ?_, fun c j hj => ?_, fun c j hj => ?_, ?_⟩
  · have hne : j ≠ irp := by
      rintro rfl
      exact Bool.false_ne_true ((hd.gone h.io).symm.trans hj)
    have hold := h.installed j ((hd.installed j hne).symm.trans hj)
    rw [hd.readIrpQueue]
    rcases eq_or_ne j.dev irp.dev with hdev | hdev
    · rw [hdev, Function.update_self]
      exact (List.mem_erase_of_ne hne).mpr (hdev ▸ hold)
    · rw [Function.update_of_ne hdev]
      exact hold
  · rw [hd.cancel]
    exact h.running j (hd.running j hj)
  · obtain ⟨hne, hold⟩ := hd.left hplace hj
    rw [hd.cancel, hd.installed j hne]
    exact h.waits c j hold
  · obtain ⟨hne, hold⟩ := hd.left hplace hj
    rw [hd.cancel]
    exact fun hc => hd.running' j hne (h.cancelled c j hold hc)
  · rw [hd.cancel, hd.readDataQueue, hd.reading]
    exact h.reading

theorem notBoth (hd : Dequeued s s' irp) (h : ∀ c, s.readDataQueue c = [] ∨ s.readIrpQueue c = []) :
    ∀ c, s'.readDataQueue c = [] ∨ s'.readIrpQueue c = [] := by
  intro c
  rw [hd.readDataQueue, hd.readIrpQueue]
  rcases eq_or_ne c irp.dev with rfl | hc
  · exact .inl ((h irp.dev).resolve_right (List.ne_nil_of_mem hd.mem))
  · rw [Function.update_of_ne hc]
    exact h c

/-- What is on its way back stays so. -/
theorem back (hd : Dequeued s s' irp) (c : Nat) (j : Irp)
    (hj : j ∈ s.irpCompletionQueue c ∨ j ∈ s.completed) :
    j ∈ s'.irpCompletionQueue c ∨ j ∈ s'.completed := by
  rw [hd.completed, hd.irpCompletionQueue]
  refine hj.imp_left fun hj => ?_
  rcases eq_or_ne c irp.dev with rfl | hc
  · rw [Function.update_self]
    exact List.mem_append_left _ hj
  · rw [Function.update_of_ne hc]
    exact hj

theorem not_filled (hd : Dequeued s s' irp) (h : ReadInv s) :
    ∀ c, ∀ f ∈ s.filled c, f.1 ≠ irp := by
  obtain ⟨place, hplace⟩ := h.located
  have hmem : irp ∈ s.readsAt (.readIrpQueue irp.dev) := hd.mem
  exact h.filledOk.not_filled (hplace.not_mem (q := .irpCompletionQueue irp.dev) hmem (by simp))
    (hplace.not_mem (q := .completed) hmem (by simp))

theorem readInv (hd : Dequeued s s' irp) (h : ReadInv s) (hfilled : FilledOk s') : ReadInv s' := by
  obtain ⟨place, hplace⟩ := h.located
  have hlocated := hplace.move hd.moved (by simp) hd.submitted (hd.reading ▸ hplace.reading)
    fun c j hj => hplace.queued c j (hd.left hplace hj).2
  exact ⟨⟨_, hlocated⟩, hd.cancelOk hplace h.cancelOk, hfilled, hd.notBoth h.notBoth⟩

/-- The read goes back without a message. -/
theorem setStatus (hd : Dequeued s s' irp) (h : ReadInv s) {status : NtStatus}
    (hne : status ≠ .success) (hfilled : s'.filled = s.filled)
    (hbuffer : s'.systemBuffer = s.systemBuffer)
    (hstatus : s'.status = Function.update s.status irp status) : ReadInv s' :=
  hd.readInv h (h.filledOk.setStatus (hd.not_filled h) hfilled hbuffer hstatus
    (fun heq => absurd heq hne) hd.back)

end Dequeued

variable (s') in
theorem dequeued_head {rest : List Irp} (hq : s.readIrpQueue irp.dev = irp :: rest)
    (hqueue : s'.readIrpQueue = Function.update s.readIrpQueue irp.dev rest)
    (hback : s'.irpCompletionQueue =
      Function.update s.irpCompletionQueue irp.dev (s.irpCompletionQueue irp.dev ++ [irp]))
    (hio : s'.io = s.io.ioSetCancelRoutine irp false)
    (hwaiting : s'.waiting = s.waiting) (hreading : s'.reading = s.reading)
    (hcompleted : s'.completed = s.completed) (hsubmitted : s'.submitted = s.submitted)
    (hdata : s'.readDataQueue = s.readDataQueue) : Dequeued s s' irp := by
  refine ⟨hq ▸ List.mem_cons_self, ?_, hback, ?_, ?_, ?_, ?_, ?_, ?_, hwaiting, hreading,
    hcompleted, hsubmitted, hdata⟩
  · rw [hqueue, hq, List.erase_cons_head]
  · rw [hio]
    exact fun h => h.clear irp
  · rw [hio]
    rfl
  · rw [hio]
    exact fun _ => Function.update_self ..
  · rw [hio]
    exact fun j hj => Function.update_of_ne hj ..
  · rw [hio]
    exact fun j hj => hj
  · rw [hio]
    exact fun j _ hj => hj

/-- A message is put into `ReadDataQueue` when no read waits. -/
theorem ReadInv.insertReadDataQueue (h : ReadInv s) (hq : s.readIrpQueue c = []) (item : Item) :
    ReadInv (s.insertReadDataQueue c item) := by
  obtain ⟨place, hplace⟩ := h.located
  have hother : ∀ c', c' ≠ c →
      (s.insertReadDataQueue c item).readDataQueue c' = s.readDataQueue c' :=
    fun c' hc => Function.update_of_ne hc ..
  refine ⟨⟨place, hplace.congr rfl rfl⟩, ?_, ?_, fun c' => ?_⟩
  · refine ⟨h.cancelOk.io, h.cancelOk.installed, h.cancelOk.running, h.cancelOk.waits,
      h.cancelOk.cancelled, fun c' irp hirp hdata => h.cancelOk.reading c' irp hirp ?_⟩
    rcases eq_or_ne c' c with rfl | hc
    · simp [State.insertReadDataQueue] at hdata
    · exact (hother c' hc).symm.trans hdata
  · exact h.filledOk.congr rfl rfl rfl fun _ _ hj => hj
  · rcases eq_or_ne c' c with rfl | hc
    · exact .inr hq
    · exact (h.notBoth c').imp_left (hother c' hc).trans

/-- A message is put into the first read that is not in cancellation and long enough, or into
`ReadDataQueue`. -/
theorem fillReadIrp_readInv (item : Item) (irps : List Irp) (h : ReadInv s)
    (hq : s.readIrpQueue c = irps) : ReadInv (State.fillReadIrp c item irps s) := by
  induction irps generalizing s with
  | nil => exact h.insertReadDataQueue hq item
  | cons irp rest ih =>
    obtain ⟨place, hplace⟩ := h.located
    obtain rfl : irp.dev = c := hplace.queued c irp (hq ▸ List.mem_cons_self)
    have hd (s' : State) := dequeued_head s' hq
    unfold State.fillReadIrp
    dsimp only
    split_ifs with hinstalled hlength
    · have hdequeued : Dequeued s ((s.dequeueIrp irp.dev irp rest).fillRead irp.dev irp item) irp :=
        hd _ rfl rfl rfl rfl rfl rfl rfl rfl
      refine hdequeued.readInv h ?_
      refine h.filledOk.fillRead rfl (hdequeued.not_filled h) hlength rfl rfl rfl hdequeued.back ?_
      exact .inl (by simp [hdequeued.irpCompletionQueue])
    · have hdequeued :
          Dequeued s ((s.dequeueIrp irp.dev irp rest).setStatus irp .bufferTooSmall) irp :=
        hd _ rfl rfl rfl rfl rfl rfl rfl rfl
      refine ih (hdequeued.setStatus h (by simp) rfl rfl rfl) ?_
      exact Function.update_self ..
    · have hdequeued : Dequeued s ((s.dequeueIrp irp.dev irp rest).setStatus irp .cancelled) irp :=
        hd _ rfl rfl rfl rfl rfl rfl rfl rfl
      refine ih (hdequeued.setStatus h (by simp) rfl rfl rfl) ?_
      exact Function.update_self ..

/-! ## The other steps -/

theorem CancelOk.congr (h : CancelOk s) (hio : s'.io = s.io)
    (hqueue : s'.readIrpQueue = s.readIrpQueue)
    (hreading : ∀ c irp, s'.reading c = some irp → s'.readDataQueue c = [] →
      s.io.cancel irp = false) : CancelOk s' := by
  refine ⟨hio ▸ h.io, ?_, hio ▸ h.running, ?_, ?_, hio ▸ hreading⟩
  · rw [hio, hqueue]
    exact h.installed
  · rw [hio, hqueue]
    exact h.waits
  · rw [hio, hqueue]
    exact h.cancelled

/-- Taking out the routine of a read that is not on `ReadIrpQueue` changes nothing. -/
theorem CancelOk.ioSetCancelRoutine_eq (h : CancelOk s) (hout : irp ∉ s.readIrpQueue irp.dev) :
    s.io.ioSetCancelRoutine irp false = s.io := by
  have hnone : s.io.installed irp = false := by
    rw [← Bool.not_eq_true]
    exact fun hinstalled => hout (h.installed irp hinstalled)
  unfold CancelState.ioSetCancelRoutine
  rw [Function.update_eq_self_iff.mpr hnone.symm]

/-- Only the places differ between which a read moves. -/
theorem moved_of_eq (hp : s.readsAt p = irp :: s'.readsAt p ∨
      s'.readsAt p = (s.readsAt p).erase irp ∧ irp ∈ s.readsAt p)
    (hq : s'.readsAt q = s.readsAt q ++ [irp])
    (hother : ∀ r, r ≠ p → r ≠ q → s'.readsAt r = s.readsAt r) : Moved s s' irp p q where
  taken := by
    obtain heq | ⟨heq, hmem⟩ := hp
    · rw [heq]
    · rw [heq]
      exact List.perm_cons_erase hmem
  put := hq ▸ List.perm_append_singleton irp _
  other := hother

theorem readsAt_reading_of_ne {c' : Nat} {reading : Option Irp} (hc : c' ≠ c)
    (h : s'.reading = Function.update s.reading c reading) :
    s'.readsAt (.reading c') = s.readsAt (.reading c') := by
  simp [State.readsAt, h, hc]

theorem readLock_readInv (h : ReadInv s) (hstep : s.readLock irp = some s') : ReadInv s' := by
  obtain ⟨⟨hirp, hfree⟩, hstep⟩ := Option.ite_none_right_eq_some.mp hstep
  obtain ⟨place, hplace⟩ := h.located
  have hwaiting : irp ∈ s.readsAt .waiting := hirp
  have hout : irp ∉ s.readIrpQueue irp.dev :=
    hplace.not_mem (q := .readIrpQueue irp.dev) hwaiting (by simp)
  have hnot := h.filledOk.not_filled (hplace.not_mem (q := .irpCompletionQueue irp.dev) hwaiting
    (by simp)) (hplace.not_mem (q := .completed) hwaiting (by simp))
  dsimp only at hstep
  split_ifs at hstep with hcancel
  · cases hstep
    have hio := h.cancelOk.ioSetCancelRoutine_eq hout
    refine ⟨⟨_, hplace.move (q := .completed) (moved_of_eq (.inr ⟨rfl, hwaiting⟩) rfl ?_) (by simp)
      rfl hplace.reading hplace.queued⟩, h.cancelOk.congr hio rfl h.cancelOk.reading, ?_, h.notBoth⟩
    · intro r hp hq
      cases r with
      | waiting => exact absurd rfl hp
      | completed => exact absurd rfl hq
      | _ => rfl
    · refine h.filledOk.setStatus hnot rfl rfl rfl (by simp) fun c j hj => ?_
      exact hj.imp_right (List.mem_append_left _)
  · cases hstep
    have hread : ∀ c j, Function.update s.reading irp.dev (some irp) c = some j →
        c = irp.dev ∧ j = irp ∨ s.reading c = some j := by
      intro c j hj
      rcases eq_or_ne c irp.dev with rfl | hc
      · rw [Function.update_self] at hj
        exact .inl ⟨rfl, (Option.some.inj hj).symm⟩
      · rw [Function.update_of_ne hc] at hj
        exact .inr hj
    refine ⟨⟨_, hplace.move (q := .reading irp.dev) (moved_of_eq (.inr ⟨rfl, hwaiting⟩) ?_ ?_)
      (by simp) rfl ?_ hplace.queued⟩, h.cancelOk.congr rfl rfl ?_,
      h.filledOk.congr rfl rfl rfl fun _ _ hj => hj, h.notBoth⟩
    · simp [State.readsAt, hfree]
    · intro r hp hq
      cases r with
      | waiting => exact absurd rfl hp
      | reading c =>
        exact readsAt_reading_of_ne (fun heq => hq (heq ▸ rfl)) rfl
      | _ => rfl
    · intro c j hj
      obtain ⟨rfl, rfl⟩ | hold := hread c j hj
      · rfl
      · exact hplace.reading c j hold
    · intro c j hj hdata
      obtain ⟨rfl, rfl⟩ | hold := hread c j hj
      · simpa using hcancel
      · exact h.cancelOk.reading c j hold hdata

/-- A read under `IoLock` is completed. -/
theorem moved_reading_completed (hread : s.reading c = some irp)
    (hreading : s'.reading = Function.update s.reading c none)
    (hcompleted : s'.completed = s.completed ++ [irp]) (hwaiting : s'.waiting = s.waiting)
    (hqueue : s'.readIrpQueue = s.readIrpQueue)
    (hback : s'.irpCompletionQueue = s.irpCompletionQueue) :
    Moved s s' irp (.reading c) .completed := by
  refine moved_of_eq (.inl ?_) hcompleted fun r hp hq => ?_
  · simp [State.readsAt, hread, hreading]
  · cases r with
    | waiting => exact hwaiting
    | reading c' => exact readsAt_reading_of_ne (fun heq => hp (heq ▸ rfl)) hreading
    | readIrpQueue c' => exact congrFun hqueue c'
    | irpCompletionQueue c' => exact congrFun hback c'
    | completed => exact absurd rfl hq

/-- No read is under `IoLock` any more. -/
theorem reading_release {P : Nat → Irp → Prop} (h : ∀ c irp, s.reading c = some irp → P c irp) :
    ∀ c' irp, Function.update s.reading c none c' = some irp → c' ≠ c ∧ P c' irp := by
  intro c' irp hirp
  rcases eq_or_ne c' c with rfl | hc
  · simp at hirp
  · rw [Function.update_of_ne hc] at hirp
    exact ⟨hc, h c' irp hirp⟩

/-- A read that was not cancelled under `IoLock` waits on `ReadIrpQueue`. -/
theorem enqueue_readInv (h : ReadInv s) (hread : s.reading irp.dev = some irp)
    (hdata : s.readDataQueue irp.dev = []) :
    ReadInv ({ s with
      reading := Function.update s.reading irp.dev none
      readIrpQueue := Function.update s.readIrpQueue irp.dev
        (s.readIrpQueue irp.dev ++ [irp]) }.ioSetCancelRoutine irp true) := by
  obtain ⟨place, hplace⟩ := h.located
  have hcancel : s.io.cancel irp = false := h.cancelOk.reading _ irp hread hdata
  have hrunning : irp ∉ s.io.running := fun hmem => by
    cases hcancel.symm.trans (h.cancelOk.running irp hmem)
  have hnew : ∀ c, ∀ j ∈ Function.update s.readIrpQueue irp.dev (s.readIrpQueue irp.dev ++ [irp]) c,
      j = irp ∧ c = irp.dev ∨ j ∈ s.readIrpQueue c := by
    intro c j hj
    rcases eq_or_ne c irp.dev with rfl | hc
    · rw [Function.update_self, List.mem_append, List.mem_singleton] at hj
      exact hj.symm.imp_left fun heq => ⟨heq, rfl⟩
    · rw [Function.update_of_ne hc] at hj
      exact .inr hj
  have hold : ∀ c, ∀ j ∈ s.readIrpQueue c,
      j ∈ Function.update s.readIrpQueue irp.dev (s.readIrpQueue irp.dev ++ [irp]) c := by
    intro c j hj
    rcases eq_or_ne c irp.dev with rfl | hc
    · rw [Function.update_self]
      exact List.mem_append_left _ hj
    · rwa [Function.update_of_ne hc]
  refine ⟨⟨Function.update place irp (some (.readIrpQueue irp.dev)), hplace.move
    (p := .reading irp.dev) (moved_of_eq (.inl ?_) ?_ ?_) (by simp) rfl
    (fun c j hj => (reading_release hplace.reading c j hj).2) ?_⟩, ?_,
    h.filledOk.congr rfl rfl rfl fun _ _ hj => hj, fun c => ?_⟩
  · simp [State.readsAt, State.ioSetCancelRoutine, hread]
  · simp [State.readsAt, State.ioSetCancelRoutine]
  · intro r hp hq
    cases r with
    | reading c => exact readsAt_reading_of_ne (fun heq => hp (heq ▸ rfl)) rfl
    | readIrpQueue c =>
      have hne : c ≠ irp.dev := fun heq => hq (heq ▸ rfl)
      exact Function.update_of_ne hne ..
    | _ => rfl
  · intro c j hj
    obtain ⟨rfl, rfl⟩ | hj := hnew c j hj
    · rfl
    · exact hplace.queued c j hj
  · refine ⟨h.cancelOk.io.install hrunning, fun j hj => ?_, h.cancelOk.running, fun c j hj hc => ?_,
      fun c j hj hc => ?_, fun c j hj => (reading_release h.cancelOk.reading c j hj).2⟩
    · rcases eq_or_ne j irp with rfl | hne
      · change j ∈ Function.update s.readIrpQueue j.dev _ j.dev
        simp
      · exact hold _ _ (h.cancelOk.installed j ((Function.update_of_ne hne ..).symm.trans hj))
    · rcases eq_or_ne j irp with rfl | hne
      · exact Function.update_self ..
      · obtain ⟨heq, -⟩ | hj := hnew c j hj
        · exact absurd heq hne
        · exact (Function.update_of_ne hne ..).trans (h.cancelOk.waits c j hj hc)
    · obtain ⟨rfl, -⟩ | hj := hnew c j hj
      · cases hcancel.symm.trans hc
      · exact h.cancelOk.cancelled c j hj hc
  · rcases eq_or_ne c irp.dev with rfl | hc
    · exact .inl hdata
    · exact (h.notBoth c).imp_right (Function.update_of_ne hc ..).trans

theorem readFinish_readInv (h : ReadInv s) (hstep : s.readFinish c = some s') : ReadInv s' := by
  unfold State.readFinish at hstep
  cases hread : s.reading c with
  | none => simp [hread] at hstep
  | some irp =>
    obtain ⟨place, hplace⟩ := h.located
    obtain rfl : irp.dev = c := hplace.reading c irp hread
    have hmem : irp ∈ s.readsAt (.reading irp.dev) := by simp [State.readsAt, hread]
    have hout : irp ∉ s.readIrpQueue irp.dev :=
      hplace.not_mem (q := .readIrpQueue irp.dev) hmem (by simp)
    have hnot := h.filledOk.not_filled (hplace.not_mem (q := .irpCompletionQueue irp.dev) hmem
      (by simp)) (hplace.not_mem (q := .completed) hmem (by simp))
    have hback : ∀ c j, j ∈ s.irpCompletionQueue c ∨ j ∈ s.completed →
        j ∈ s.irpCompletionQueue c ∨ j ∈ s.completed ++ [irp] :=
      fun _ _ hj => hj.imp_right (List.mem_append_left _)
    simp only [hread] at hstep
    cases hdata : s.readDataQueue irp.dev with
    | cons item rest =>
      have hempty : s.readIrpQueue irp.dev = [] :=
        (h.notBoth irp.dev).resolve_left (by simp [hdata])
      simp only [hdata] at hstep
      split_ifs at hstep with hlength
      · cases hstep
        refine ⟨⟨_, hplace.move (moved_reading_completed hread rfl rfl rfl rfl rfl) (by simp) rfl
          (fun c j hj => (reading_release hplace.reading c j hj).2) hplace.queued⟩,
          h.cancelOk.congr rfl rfl fun c j hj hnil => ?_, ?_, fun c => ?_⟩
        · obtain ⟨hc, hread⟩ := reading_release h.cancelOk.reading c j hj
          refine hread ?_
          exact (Function.update_of_ne hc ..).symm.trans hnil
        · refine h.filledOk.fillRead rfl hnot hlength rfl rfl rfl hback (.inr ?_)
          exact List.mem_append_right _ List.mem_cons_self
        · rcases eq_or_ne c irp.dev with rfl | hc
          · exact .inr hempty
          · exact (h.notBoth c).imp_left (Function.update_of_ne hc ..).trans
      · cases hstep
        refine ⟨⟨_, hplace.move (moved_reading_completed hread rfl rfl rfl rfl rfl) (by simp) rfl
          (fun c j hj => (reading_release hplace.reading c j hj).2) hplace.queued⟩,
          h.cancelOk.congr rfl rfl fun c j hj => (reading_release h.cancelOk.reading c j hj).2, ?_,
          h.notBoth⟩
        exact h.filledOk.setStatus hnot rfl rfl rfl (by simp) hback
    | nil =>
      simp only [hdata] at hstep
      cases hstep
      exact enqueue_readInv h hread hdata

theorem cancelReadRoutine_readInv (h : ReadInv s) (hstep : s.cancelReadRoutine irp = some s') :
    ReadInv s' := by
  obtain ⟨⟨hrun, -⟩, hstep⟩ := Option.ite_none_right_eq_some.mp hstep
  dsimp only at hstep
  split_ifs at hstep with hmem
  · cases hstep
    have hdequeued : Dequeued s { s with
        io := s.io.routineReturns irp
        readIrpQueue := Function.update s.readIrpQueue irp.dev ((s.readIrpQueue irp.dev).erase irp)
        irpCompletionQueue := Function.update s.irpCompletionQueue irp.dev
          (s.irpCompletionQueue irp.dev ++ [irp])
        status := Function.update s.status irp .cancelled } irp := by
      refine ⟨hmem, rfl, rfl, fun hio => hio.routineReturns irp, rfl,
        fun hio => hio.running_gone irp hrun, fun _ _ => rfl, fun j hj => List.mem_of_mem_erase hj,
        fun j hj hold => (List.mem_erase_of_ne hj).mpr hold, rfl, rfl, rfl, rfl, rfl⟩
    exact hdequeued.setStatus h (by simp) rfl rfl rfl
  · cases hstep
    obtain ⟨place, hplace⟩ := h.located
    have hother : ∀ c, ∀ j ∈ s.readIrpQueue c, j ≠ irp := by
      rintro c j hj rfl
      exact hmem (hplace.queued c j hj ▸ hj)
    refine ⟨⟨place, hplace.congr rfl rfl⟩, ?_,
      h.filledOk.congr rfl rfl rfl fun _ _ hj => hj, h.notBoth⟩
    refine ⟨h.cancelOk.io.routineReturns irp, h.cancelOk.installed,
      fun j hj => h.cancelOk.running j (List.mem_of_mem_erase hj), h.cancelOk.waits,
      fun c j hj hc => ?_, h.cancelOk.reading⟩
    exact (List.mem_erase_of_ne (hother c j hj)).mpr (h.cancelOk.cancelled c j hj hc)

theorem emptyIrpCompletionQueue_readInv (h : ReadInv s)
    (hstep : s.emptyIrpCompletionQueue c = some s') : ReadInv s' := by
  unfold State.emptyIrpCompletionQueue at hstep
  cases hq : s.irpCompletionQueue c with
  | nil => simp [hq] at hstep
  | cons irp rest =>
    simp only [hq] at hstep
    obtain ⟨-, hstep⟩ := Option.ite_none_right_eq_some.mp hstep
    cases hstep
    obtain ⟨place, hplace⟩ := h.located
    have hmem : irp ∈ s.readsAt (.irpCompletionQueue c) := by simp [State.readsAt, hq]
    have hout : irp ∉ s.readIrpQueue irp.dev :=
      hplace.not_mem (q := .readIrpQueue irp.dev) hmem (by simp)
    refine ⟨⟨_, hplace.move (p := .irpCompletionQueue c) (q := .completed)
      (moved_of_eq (.inl ?_) rfl ?_) (by simp) rfl hplace.reading hplace.queued⟩,
      h.cancelOk.congr (h.cancelOk.ioSetCancelRoutine_eq hout) rfl h.cancelOk.reading, ?_,
      h.notBoth⟩
    · simp [State.readsAt, State.ioCompleteRequest, State.ioSetCancelRoutine, hq]
    · intro r hp hq
      cases r with
      | irpCompletionQueue c' =>
        have hne : c' ≠ c := fun heq => hp (heq ▸ rfl)
        exact Function.update_of_ne hne ..
      | completed => exact absurd rfl hq
      | _ => rfl
    · refine h.filledOk.congr rfl rfl rfl fun c' j hj => ?_
      rcases hj with hback | hcompleted
      · rcases eq_or_ne c' c with rfl | hc
        · rw [hq, List.mem_cons] at hback
          rcases hback with heq | hrest
          · exact .inr (List.mem_append_right _ (List.mem_singleton.mpr heq))
          · refine .inl ?_
            change j ∈ Function.update s.irpCompletionQueue c' rest c'
            rwa [Function.update_self]
        · refine .inl ?_
          change j ∈ Function.update s.irpCompletionQueue c rest c'
          rwa [Function.update_of_ne hc]
      · exact .inr (List.mem_append_left _ hcompleted)

/-- A read that is rejected, or of no bytes, is completed at once. -/
theorem reject_readInv (h : ReadInv s) (hnew : irp ∉ s.submitted) {status : NtStatus}
    (hstatus : status = .success → irp.length = 0) :
    ReadInv (({ s with submitted := s.submitted ++ [irp] }.setStatus irp status).ioCompleteRequest
      irp) := by
  obtain ⟨place, hplace⟩ := h.located
  have hnone : ∀ p, irp ∉ s.readsAt p := fun p hp =>
    hnew ((hplace.submitted irp).mpr (by rw [hplace.place_eq hp]; rfl))
  have hnot := h.filledOk.not_filled (hnone (.irpCompletionQueue irp.dev)) (hnone .completed)
  refine ⟨⟨_, hplace.insert (q := .completed) hnew (List.perm_append_singleton irp _) ?_ rfl rfl
      rfl⟩,
    h.cancelOk.congr rfl rfl h.cancelOk.reading, ?_, h.notBoth⟩
  · intro r hr
    cases r with
    | completed => exact absurd rfl hr
    | _ => rfl
  · exact h.filledOk.setStatus hnot rfl rfl rfl hstatus fun c j hj =>
      hj.imp_right (List.mem_append_left _)

theorem read_readInv {d : Devices} {stopped : Bool} (h : ReadInv s)
    (hstep : s.read d irp stopped = some s') : ReadInv s' := by
  obtain ⟨hnew, hstep⟩ := Option.ite_none_left_eq_some.mp hstep
  dsimp only at hstep
  split_ifs at hstep with hclient hlength hstopped
  · cases hstep
    exact reject_readInv h hnew (by simp)
  · cases hstep
    exact reject_readInv h hnew fun _ => hlength
  · cases hstep
    exact reject_readInv h hnew (by simp)
  · cases hstep
    obtain ⟨place, hplace⟩ := h.located
    refine ⟨⟨_, hplace.insert (q := .waiting) hnew (List.perm_append_singleton irp _) ?_ rfl rfl
        rfl⟩,
      h.cancelOk.congr rfl rfl h.cancelOk.reading,
      h.filledOk.congr rfl rfl rfl fun _ _ hj => hj, h.notBoth⟩
    intro r hr
    cases r with
    | waiting => exact absurd rfl hr
    | _ => rfl

/-- A cancellation that does not fall between the test of `Cancel` and the installation of the
routine. -/
theorem ioCancelIrp_readInv (h : ReadInv s)
    (hok : s.reading irp.dev = some irp → s.readDataQueue irp.dev ≠ []) :
    ReadInv { s with io := s.io.ioCancelIrp irp } := by
  obtain ⟨place, hplace⟩ := h.located
  refine ⟨⟨place, hplace.congr rfl rfl⟩, ?_,
    h.filledOk.congr rfl rfl rfl fun _ _ hj => hj, h.notBoth⟩
  have hcancel : ∀ j, j ≠ irp → (s.io.ioCancelIrp irp).cancel j = s.io.cancel j :=
    fun j hj => Function.update_of_ne hj ..
  have hself : (s.io.ioCancelIrp irp).cancel irp = true := Function.update_self ..
  refine ⟨h.cancelOk.io.ioCancelIrp irp, fun j hj => ?_, fun j hj => ?_, fun c j hj hc => ?_,
    fun c j hj hc => ?_, fun c j hj hdata => ?_⟩
  · rcases eq_or_ne j irp with rfl | hne
    · simp at hj
    · exact h.cancelOk.installed j (by simpa [hne] using hj)
  · rcases eq_or_ne j irp with rfl | hne
    · exact hself
    · refine (hcancel j hne).trans (h.cancelOk.running j ?_)
      exact (CancelState.mem_ioCancelIrp_running.mp hj).resolve_right fun hnew => hne hnew.2
  · rcases eq_or_ne j irp with rfl | hne
    · cases hself.symm.trans hc
    · simpa [hne] using h.cancelOk.waits c j hj ((hcancel j hne).symm.trans hc)
  · refine CancelState.mem_ioCancelIrp_running.mpr ?_
    rcases eq_or_ne j irp with rfl | hne
    · -- it is under way already, or is called now
      cases hold : s.io.cancel j with
      | true => exact .inl (h.cancelOk.cancelled c j hj hold)
      | false => exact .inr ⟨h.cancelOk.waits c j hj hold, rfl⟩
    · exact .inl (h.cancelOk.cancelled c j hj ((hcancel j hne).symm.trans hc))
  · rcases eq_or_ne j irp with rfl | hne
    · obtain rfl : j.dev = c := hplace.reading c j hj
      exact absurd hdata (hok hj)
    · exact (hcancel j hne).trans (h.cancelOk.reading c j hj hdata)

end Ndis.Ioc
