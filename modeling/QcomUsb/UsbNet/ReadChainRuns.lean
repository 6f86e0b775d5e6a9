-- SUMMARY: Runs of the read chain: that it goes on as long as nothing fails, and that KillRead can free the buffers of an URB that is submitted.
import QcomUsb.UsbNet.ReadChain

/-!
# Runs of the read chain

The chain has no other driver than its own callbacks, so it goes on only if each of them hands its URB
on. `KillRead` ends it from outside.
-/

namespace UsbNet

open Transition Routines

variable {s t : ReadChain} {c : Callback} {op : ReadOp} {env : DispatchEnv} {pReadURB : ReadURB}
  {g : Nat}

/-! ## The chain goes on -/

/-- The chain when `StartRead` has submitted the interrupt URB for the first time. -/
def ReadChain.started (tables : NetDev → List SClientMemList) : ReadChain :=
  { ReadChain.initial tables with
    mbQMIValid := true
    mpIntURB := some 0
    mpReadURB := some 0
    submitted := [⟨.int, 0⟩]
    starts := 1 }

/-- The clients of a device have different ids. -/
def UniqueIDs (tables : NetDev → List SClientMemList) : Prop :=
  ∀ q, ((tables q).map (·.mClientID)).Nodup

/-- Nobody kills the chain, the USB core takes the URBs and gives the interrupt URB back without an
error other than `-EOVERFLOW`, and there is memory for the messages. -/
def ReadOp.Succeeds : ReadOp → Prop
  | .setQMIValid valid => valid = true
  | .clients tables => UniqueIDs tables
  | .startRead _ | .killRead => False
  | .power _ => True
  | .usbCompletes _ result => result ≠ .failed
  | .turn _ env _ ok => ok = true ∧ ∀ q clientID, env.readMemEntry q clientID = true

structure ReadChain.Alive (s : ReadChain) : Prop where
  one : s.submitted.length + total Callback.token s.callbacks = 1
  valid : s.mbQMIValid = true
  unique : UniqueIDs s.tables
  power : s.power = .idle
  rejected : s.rejected = none
  urbs : s.mpIntURB ≠ none ∧ s.mpReadURB ≠ none
  succeeded : ∀ c ∈ s.callbacks, ∀ start, c ≠ .int start (.entered .failed)

/-- Whatever the message is, the interrupt URB is submitted again if there is memory for it. -/
theorem readCallback_resubmits {tables : NetDev → List SClientMemList} (hunique : UniqueIDs tables)
    (hmem : ∀ q clientID, env.readMemEntry q clientID = true) (pReadURB : ReadURB) :
    (readCallback env true pReadURB ⟨tables, []⟩).resubmissions = 1 ∧
      UniqueIDs (readCallback env true pReadURB ⟨tables, []⟩).mClientMemList := by
  have hemit : (ReadDispatch.emit ⟨tables, []⟩ .resubmitted).resubmissions = 1 := rfl
  unfold readCallback
  rw [if_neg (by simp)]
  split_ifs with hstatus
  · exact ⟨hemit, hunique⟩
  dsimp only
  cases parseQMUX pReadURB.message with
  | error e => exact ⟨hemit, hunique⟩
  | ok clientID =>
    dsimp only
    split_ifs with hshort
    · exact ⟨hemit, hunique⟩
    obtain ⟨hdelivered, hcount⟩ := dispatch_spec env
      ⟨clientID, readTransactionID clientID pReadURB.message, pReadURB.message⟩ hunique
    constructor
    · apply hcount.trans
      apply if_neg
      rintro ⟨-, hlost⟩
      rw [List.all_eq_true.mpr fun r _ => hmem r.1 r.2] at hlost
      exact absurd hlost (by simp)
    · intro q
      have hids := hdelivered.clientIDs q
      rw [ReadDispatch.clientIDs] at hids
      rw [hids]
      exact hunique q

namespace ReadChain.Alive

theorem started {tables : NetDev → List SClientMemList} (hunique : UniqueIDs tables) :
    (ReadChain.started tables).Alive :=
  ⟨rfl, rfl, hunique, rfl, rfl, ⟨Option.some_ne_none _, Option.some_ne_none _⟩,
    List.forall_mem_nil _⟩

/-- An URB that a callback is going to submit is taken. -/
theorem submit (h : s.Alive) (hc : c ∈ s.callbacks) (htoken : c.token = 1) (u : ChainUrb) :
    s.submit u true = (true, { s with submitted := u :: s.submitted }) := by
  have hle : c.token ≤ total Callback.token s.callbacks := le_total hc
  have hone := h.one
  have hnil : s.submitted = [] := List.eq_nil_of_length_eq_zero (by omega)
  rw [ReadChain.submit, if_neg]
  simp [hnil, h.rejected]

/-- A callback at work hands its URB on. -/
theorem turn (h : s.Alive) (hc : c ∈ s.callbacks)
    (hmem : ∀ q clientID, env.readMemEntry q clientID = true) :
    ∃ tables submitted, (s.turn c env pReadURB true).1 = { s with tables, submitted } ∧
      UniqueIDs tables ∧ submitted.length + held Callback.token (s.turn c env pReadURB true).2 =
        s.submitted.length + c.token ∧
      ∀ n, (s.turn c env pReadURB true).2 = some n → ∀ start, n ≠ .int start (.entered .failed) := by
  have hint : ∃ g, s.mpIntURB = some g := Option.ne_none_iff_exists'.mp h.urbs.1
  have hread : ∃ g, s.mpReadURB = some g := Option.ne_none_iff_exists'.mp h.urbs.2
  obtain ⟨gi, hint⟩ := hint
  obtain ⟨gr, hread⟩ := hread
  cases c with
  | int start pc =>
    cases pc with
    | entered result =>
      have hne := h.succeeded _ hc start
      refine ⟨s.tables, s.submitted, rfl, h.unique, ?_, ?_⟩
      · unfold ReadChain.turn ReadChain.intCallback
        rw [h.valid]
        cases result <;> first | rfl | exact absurd rfl hne
      · unfold ReadChain.turn ReadChain.intCallback
        rw [h.valid]
        cases result <;> simp
    | submitRead =>
      have hok := h.submit hc rfl ⟨.read, gr⟩
      have hturn : s.turn (.int start .submitRead) env pReadURB true =
          ({ s with submitted := ⟨.read, gr⟩ :: s.submitted }, some (.int start .returns)) := by
        simp [ReadChain.turn, ReadChain.intCallback, hread, hok]
      rw [hturn]
      exact ⟨s.tables, _, rfl, h.unique, rfl, by simp⟩
    | resubmit =>
      have hok := h.submit hc rfl ⟨.int, start⟩
      have hturn : s.turn (.int start .resubmit) env pReadURB true =
          ({ s with submitted := ⟨.int, start⟩ :: s.submitted }, some (.int start .returns)) := by
        simp [ReadChain.turn, ReadChain.intCallback, hok]
      rw [hturn]
      exact ⟨s.tables, _, rfl, h.unique, rfl, by simp⟩
    | returns =>
      exact ⟨s.tables, s.submitted, rfl, h.unique, rfl,
        by simp [ReadChain.turn, ReadChain.intCallback]⟩
  | read start pc =>
    cases pc with
    | entered =>
      obtain ⟨hone, hunique⟩ := readCallback_resubmits h.unique hmem pReadURB
      have hturn : s.turn (.read start .entered) env pReadURB true =
          ({ s with tables := (UsbNet.readCallback env true pReadURB ⟨s.tables, []⟩).mClientMemList },
            some (.read start .resubmit)) := by
        simp [ReadChain.turn, ReadChain.readCallback, h.valid, hone]
      rw [hturn]
      exact ⟨_, s.submitted, rfl, hunique, rfl, by simp⟩
    | resubmit =>
      have hok := h.submit hc rfl ⟨.int, gi⟩
      have hturn : s.turn (.read start .resubmit) env pReadURB true =
          ({ s with submitted := ⟨.int, gi⟩ :: s.submitted }, some (.read start .returns)) := by
        simp [ReadChain.turn, ReadChain.readCallback, hint, hok]
      rw [hturn]
      exact ⟨s.tables, _, rfl, h.unique, rfl, by simp⟩
    | returns =>
      exact ⟨s.tables, s.submitted, rfl, h.unique, rfl,
        by simp [ReadChain.turn, ReadChain.readCallback]⟩

theorem step (h : s.Alive) (hop : op.Succeeds) (hs : s.step op = some t) : t.Alive := by
  cases op with
  | setQMIValid valid =>
    obtain rfl := Option.some.inj hs
    exact ⟨h.one, hop, h.unique, h.power, h.rejected, h.urbs, h.succeeded⟩
  | clients tables =>
    obtain rfl := Option.some.inj hs
    exact ⟨h.one, h.valid, hop, h.power, h.rejected, h.urbs, h.succeeded⟩
  | startRead allocated => exact hop.elim
  | killRead => exact hop.elim
  | power ok => simp [ReadChain.step, ReadChain.powerTurn, h.power] at hs
  | usbCompletes u result =>
    rw [ReadChain.step] at hs
    split_ifs at hs with hu
    obtain rfl := Option.some.inj hs
    have hlength := List.length_erase_of_mem hu
    have hpos := List.length_pos_of_mem hu
    have hone := h.one
    obtain ⟨kind, g⟩ := u
    refine ⟨?_, h.valid, h.unique, h.power, h.rejected, h.urbs, ?_⟩
    · cases kind <;> simp only [total_cons, Callback.token, hlength] <;> omega
    · intro c hc start
      rcases List.mem_cons.mp hc with rfl | hold
      · cases kind
        · rintro ⟨⟩
          exact hop rfl
        · rintro ⟨⟩
      · exact h.succeeded c hold start
  | turn c env pReadURB ok =>
    obtain ⟨rfl, hmem⟩ := hop
    rw [ReadChain.step] at hs
    split_ifs at hs with hc
    obtain rfl := Option.some.inj hs
    obtain ⟨tables, submitted, hturn, hunique, htoken, hnext⟩ := h.turn hc hmem
    have htotal := total_advance Callback.token (s.turn c env pReadURB true).2 hc
    have hone := h.one
    rw [hturn]
    refine ⟨?_, h.valid, hunique, h.power, h.rejected, h.urbs, fun d hd => ?_⟩
    · dsimp only
      omega
    · rcases mem_of_mem_advance hd with hn | hold
      · exact hnext d hn
      · exact h.succeeded d hold

end ReadChain.Alive

/-- As long as nothing fails the chain goes on: exactly one of the URBs is submitted, or in a callback
that is going to submit one. -/
theorem visits_alive {tables : NetDev → List SClientMemList} {ops : List ReadOp}
    (hunique : UniqueIDs tables) (hsucceeds : ∀ op ∈ ops, op.Succeeds) :
    ∀ t ∈ readMachine.visits (.started tables) ops,
      t.submitted.length + total Callback.token t.callbacks = 1 := by
  intro t ht
  have halive : t.Alive := Machine.visits_all
    (fun _ _ _ _ h hop hs => h.step hop (readMachine_eq_some.mp hs)) (ReadChain.Alive.started hunique)
    hsucceeds t ht
  exact halive.one

theorem visits_alive_sample : ∃ t ∈ readMachine.visits (.started fun _ => []) (sampleRead.drop 3),
    t.submitted = [⟨.read, 0⟩] ∧ t.submitted.length + total Callback.token t.callbacks = 1 := by
  have hsucceeds : ∀ op ∈ sampleRead.drop 3, op.Succeeds := by
    simp [sampleRead, ReadOp.Succeeds, shortOnMux]
  have hunique : UniqueIDs fun _ => [] := fun _ => List.nodup_nil
  have hne : readMachine.visits (.started fun _ => []) (sampleRead.drop 3) ≠ [] :=
    List.ne_nil_of_mem (Machine.start_mem_visits _ _)
  exact ⟨_, List.getLast_mem hne, rfl, visits_alive hunique hsucceeds _ (List.getLast_mem hne)⟩

/-! ## The gap of KillRead -/

/-- `IntCallback` submits the read URB while `KillRead` waits for it, and then the buffers are
freed. -/
def gapOps (g : Nat) (env : DispatchEnv) (pReadURB : ReadURB) : List ReadOp :=
  [.turn (.int g .submitRead) env pReadURB true, .turn (.int g .returns) env pReadURB true,
    .power true, .power true]

theorem gap_of_waitInt (hread : s.mpReadURB = some g)
    (hcallbacks : s.callbacks = [.int g .submitRead]) (hsubmitted : s.submitted = [])
    (hrejected : s.rejected = some ⟨.int, g⟩) (hpower : s.power = .waitInt g) (env : DispatchEnv)
    (pReadURB : ReadURB) :
    ∃ t ∈ readMachine.visits s (gapOps g env pReadURB), ⟨.read, g⟩ ∈ t.submitted ∧ g ∈ t.freed := by
  obtain ⟨s₁, hs₁⟩ : ∃ s₁ : ReadChain, s₁ = { s with submitted := [⟨.read, g⟩], callbacks := [] } :=
    ⟨_, rfl⟩
  have hsubmits : s.step (.turn (.int g .submitRead) env pReadURB true) =
      some { s₁ with callbacks := [.int g .returns] } := by
    simp [ReadChain.step, ReadChain.turn, ReadChain.intCallback, ReadChain.submit, hread, hcallbacks,
      hsubmitted, hrejected, hs₁, advance]
  have hreturns : ReadChain.step { s₁ with callbacks := [.int g .returns] }
      (.turn (.int g .returns) env pReadURB true) = some s₁ := by
    simp [ReadChain.step, ReadChain.turn, ReadChain.intCallback, advance, hs₁]
  have hunused : ¬ s₁.InUse ⟨.int, g⟩ := by simp [ReadChain.InUse, hs₁]
  have hpower₁ : s₁.power = .waitInt g := by rw [hs₁]; exact hpower
  have hwaits : s₁.step (.power true) = some { s₁ with rejected := none, power := .freeBuffers } := by
    simp [ReadChain.step, ReadChain.powerTurn, hpower₁, hunused]
  have hfrees : ReadChain.step { s₁ with rejected := none, power := .freeBuffers } (.power true) =
      some { s₁ with rejected := none, power := .freeUrbs, freed := g :: s.freed } := by
    simp [ReadChain.step, ReadChain.powerTurn, hs₁, hread]
  refine ⟨{ s₁ with rejected := none, power := .freeUrbs, freed := g :: s.freed }, ?_, ?_, ?_⟩
  · rw [gapOps, visits_step hsubmits, visits_step hreturns, visits_step hwaits, visits_step hfrees]
    iterate 4 apply List.mem_cons_of_mem
    exact Machine.start_mem_visits _ []
  · simp [hs₁]
  · simp

/-- `KillRead` kills the read URB first. From every state in which it has done so and `IntCallback` is
about to submit that URB, it can come to an end with the URB submitted and its buffer freed. -/
theorem killRead_gap {tables : NetDev → List SClientMemList} {ops : List ReadOp}
    (horderly : ∀ p ∈ readMachine.fires (.initial tables) ops, p.2.Orderly p.1)
    (ht : t ∈ readMachine.visits (.initial tables) ops)
    (hcallbacks : t.callbacks = [.int g .submitRead]) (hkilled : t.power.ReadKilled)
    (env : DispatchEnv) (pReadURB : ReadURB) :
    ∃ ops', ∃ u ∈ readMachine.visits t ops', ⟨.read, g⟩ ∈ u.submitted ∧ g ∈ u.freed := by
  have hinv := (ReadChain.Inv.initial tables).visits horderly t ht
  have huse : t.InUse ⟨.int, g⟩ := .inr ⟨.int g .submitRead, by simp [hcallbacks], rfl⟩
  have hread : t.mpReadURB = some g := hinv.current _ huse
  have hint : t.mpIntURB = some g := hinv.same.trans hread
  have hone := hinv.one
  have htoken : Callback.token (.int g .submitRead) = 1 := rfl
  rw [ReadChain.tokens, hcallbacks, total_cons, htoken] at hone
  have hsubmitted : t.submitted = [] := List.eq_nil_of_length_eq_zero (by omega)
  have hrejects := hinv.rejects
  cases hpower : t.power with
  | killInt =>
    rw [hpower] at hrejects
    have hkills : t.step (.power true) =
        some { t with rejected := some ⟨.int, g⟩, power := .waitInt g } := by
      simp [ReadChain.step, ReadChain.powerTurn, hpower, hint]
    obtain ⟨u, hu, hgap⟩ := gap_of_waitInt
      (s := { t with rejected := some ⟨.int, g⟩, power := .waitInt g })
      hread hcallbacks hsubmitted rfl rfl env pReadURB
    refine ⟨.power true :: gapOps g env pReadURB, u, ?_, hgap⟩
    rw [visits_step hkills]
    exact List.mem_cons_of_mem _ hu
  | waitInt g' =>
    rw [hpower] at hrejects
    have hg' := hinv.working g' (by rw [hpower]; rfl)
    obtain rfl := Option.some.inj (hread.symm.trans hg')
    exact ⟨_, gap_of_waitInt hread hcallbacks hsubmitted hrejects hpower env pReadURB⟩
  | freeBuffers => exact absurd huse (hinv.intKilled (by rw [hpower]; trivial) g)
  | freeUrbs => exact absurd huse (hinv.intKilled (by rw [hpower]; trivial) g)
  | idle | submitInt _ | killRead | waitRead _ =>
    rw [hpower] at hkilled
    exact hkilled.elim

/-- `KillRead` has killed the read URB when a message comes. -/
def sampleKill : List ReadOp :=
  [.setQMIValid true, .startRead true, .power true, .killRead, .power true, .power true,
    .usbCompletes ⟨.int, 0⟩ .responseAvailable,
    .turn (.int 0 (.entered .responseAvailable)) (shortOnMux false) wdsBroadcast true]

theorem killRead_gap_sample : ∃ t ∈ readMachine.visits (.initial fun _ => []) sampleKill,
    ∃ ops', ∃ u ∈ readMachine.visits t ops', ⟨.read, 0⟩ ∈ u.submitted ∧ 0 ∈ u.freed := by
  have horderly : ∀ p ∈ readMachine.fires (.initial fun _ => []) sampleKill, p.2.Orderly p.1 := by
    decide
  have hne : readMachine.visits (.initial fun _ => []) sampleKill ≠ [] :=
    List.ne_nil_of_mem (Machine.start_mem_visits _ _)
  exact ⟨_, List.getLast_mem hne,
    killRead_gap horderly (List.getLast_mem hne) rfl trivial (shortOnMux false) wdsBroadcast⟩

end UsbNet
