-- SUMMARY: Request and response exchanges on one QMI device, and when a response goes to the wrong exchange.
import QcomUsb.Library.Transition
import QcomUsb.UsbNet.ClientStore
import QcomUsb.UsbNet.TransactionId

/-!
# Exchanges

An exchange puts a fresh transaction id into its request, writes it, and waits for the
response. It does not keep the id: once the request is written it waits for whatever
`mQMITransactionID` then holds, so a `GetTransactionID` in between makes it wait for a
response that is not its own.
-/

namespace UsbNet

open Transition

/-- The callers of `GetTransactionID` that wait for a response. -/
inductive ExchangeKind where
  | wdsConnect
  | wdsDisConnect
  | qmiWDASetQMAP
  | qmiWDASetQMAPSettings
  | qmiDMSGetMEID
  | qmiBindMuxId
  deriving DecidableEq, Repr

/-- The transaction id an exchange passes to `ReadSync` or `ReadSyncTimeout`, given the
counter at that time. -/
def ExchangeKind.waitID : ExchangeKind → UInt16 → UInt16
  | .qmiBindMuxId, _ => 0
  | _, mQMITransactionID => mQMITransactionID

/-- Where an exchange is. `reqID` is the id in its request, `drawn` the number of
`GetTransactionID` calls on the device once it had its id. -/
inductive ExchangePhase where
  | idle
  | built (kind : ExchangeKind) (clientID reqID : UInt16) (drawn : Nat)
  | written (kind : ExchangeKind) (clientID reqID : UInt16) (drawn : Nat)
  | reading (clientID reqID waitID : UInt16)
  | done (reqID waitID : UInt16) (response : SReadMemList)
  deriving DecidableEq, Repr

/-- One `sQMIDev` with its clients and the exchanges on it. `calls` counts the calls of
`GetTransactionID`. It is not part of the driver and decides nothing. -/
structure ExchangeState where
  dev : SQMIDev
  clients : UInt16 → SClientMemList
  phase : Nat → ExchangePhase
  calls : Nat

namespace ExchangeState

def setPhase (s : ExchangeState) (x : Nat) (p : ExchangePhase) : ExchangeState :=
  { s with phase := fun i => if i = x then p else s.phase i }

/-- `GetTransactionID` on the device. -/
def draw (s : ExchangeState) : ExchangeState :=
  { s with dev := (getTransactionID s.dev).2, calls := s.calls + 1 }

def setClient (s : ExchangeState) (clientID : UInt16) (c : SClientMemList) : ExchangeState :=
  { s with clients := fun i => if i = clientID then c else s.clients i }

/-- A device as `RegisterQMIDevice` leaves it, without exchanges. -/
def init (dev : NetDev) : ExchangeState where
  dev := registerQMIDevice dev
  clients := .new
  phase := fun _ => .idle
  calls := 0

end ExchangeState

inductive ExchangeEvent where
  /-- An exchange gets its id and builds its request. -/
  | build (x : Nat) (kind : ExchangeKind) (clientID : UInt16)
  /-- `WriteSync` returns. -/
  | write (x : Nat) (success : Bool)
  /-- The exchange enters `ReadSync` or `ReadSyncTimeout`. -/
  | read (x : Nat)
  /-- It finds a message and returns. -/
  | take (x : Nat)
  /-- It gives up. -/
  | abort (x : Nat)
  /-- `ReadCallback` stores a message for a client. -/
  | store (clientID : UInt16) (m : SReadMemList)
  /-- Another path calls `GetTransactionID`. -/
  | bump
  deriving DecidableEq, Repr

/-- One step of the device. -/
def exchangeStep : Machine ExchangeState ExchangeEvent Unit
  | s, .build x kind clientID =>
    match s.phase x with
    | .idle =>
      let reqID := (getTransactionID s.dev).1
      some (s.draw.setPhase x (.built kind clientID reqID (s.calls + 1)), ())
    | _ => none
  | s, .write x success =>
    match s.phase x with
    | .built kind clientID reqID drawn =>
      if success then some (s.setPhase x (.written kind clientID reqID drawn), ())
      else some (s.setPhase x .idle, ())
    | _ => none
  | s, .read x =>
    match s.phase x with
    | .written kind clientID reqID _ =>
      some (s.setPhase x (.reading clientID reqID (kind.waitID s.dev.mQMITransactionID)), ())
    | _ => none
  | s, .take x =>
    match s.phase x with
    | .reading clientID reqID waitID =>
      match (s.clients clientID).popFromReadMemList waitID with
      | (some m, c) => some ((s.setClient clientID c).setPhase x (.done reqID waitID m), ())
      | (none, _) => none
    | _ => none
  | s, .abort x =>
    match s.phase x with
    | .reading _ _ _ => some (s.setPhase x .idle, ())
    | _ => none
  | s, .store clientID m =>
    some (s.setClient clientID ((s.clients clientID).addToReadMemList m), ())
  | s, .bump => some (s.draw, ())

/-- An exchange waits for the id of its own request, and has consumed no response to
another one. -/
def ExchangePhase.Paired : ExchangePhase → Prop
  | .reading _ reqID waitID => waitID = reqID
  | .done reqID waitID response => waitID = reqID ∧ response.mTransactionID = reqID
  | _ => True

instance : (p : ExchangePhase) → Decidable p.Paired
  | .reading _ reqID waitID => inferInstanceAs (Decidable (waitID = reqID))
  | .done _ _ _ => inferInstanceAs (Decidable (_ ∧ _))
  | .idle | .built _ _ _ _ | .written _ _ _ _ => isTrue trivial

/-- Every exchange is paired with its own request. -/
def Paired (s : ExchangeState) : Prop := ∀ x, (s.phase x).Paired

/-- The condition on a step. An exchange that starts to wait is not the one that waits for
any id, and since it built its request the counter has come round to its id again. -/
def KeepsItsID (s : ExchangeState) : ExchangeEvent → Prop
  | .read x => ∀ kind clientID reqID drawn, s.phase x = .written kind clientID reqID drawn →
    kind ≠ .qmiBindMuxId ∧ 65535 ∣ s.calls - drawn
  | _ => True

/-! ## The counter -/

/-- From 0 on the counter runs through 1 to 65535 over and over. -/
theorem afterCalls_toNat (dev : NetDev) (k : Nat) :
    (afterCalls (registerQMIDevice dev) (k + 1)).mQMITransactionID.toNat = k % 65535 + 1 := by
  induction k with
  | zero =>
    rw [afterCalls, getTransactionID_eq]
    rfl
  | succ k ih =>
    rw [afterCalls, getTransactionID_eq]
    simp only [nextTransactionID, ih]
    split
    · rw [UInt16.toNat_one]
      omega
    · rw [UInt16.toNat_add, ih, UInt16.toNat_one]
      omega

/-- Two calls return the same id exactly if a multiple of 65535 calls lies between them. -/
theorem afterCalls_eq_iff (dev : NetDev) {j k : Nat} (hj : 1 ≤ j) (hjk : j ≤ k) :
    (afterCalls (registerQMIDevice dev) k).mQMITransactionID =
      (afterCalls (registerQMIDevice dev) j).mQMITransactionID ↔ 65535 ∣ k - j := by
  obtain ⟨a, rfl⟩ := Nat.exists_eq_add_of_le' hj
  obtain ⟨b, rfl⟩ := Nat.exists_eq_add_of_le' (Nat.le_trans hj hjk)
  rw [← UInt16.toNat_inj, afterCalls_toNat, afterCalls_toNat]
  omega

theorem afterCalls_ne_zero (d : SQMIDev) {k : Nat} (hk : 1 ≤ k) :
    (afterCalls d k).mQMITransactionID ≠ 0 := by
  obtain ⟨j, rfl⟩ := Nat.exists_eq_add_of_le' hk
  rw [afterCalls, getTransactionID_eq]
  exact nextTransactionID_ne_zero _

/-! ## What holds in every run -/

/-- What an exchange knows of the counter. -/
def ExchangePhase.Counted (d : SQMIDev) (calls : Nat) : ExchangePhase → Prop
  | .built _ _ reqID drawn | .written _ _ reqID drawn =>
    reqID = (afterCalls d drawn).mQMITransactionID ∧ 1 ≤ drawn ∧ drawn ≤ calls
  | .reading _ reqID _ => reqID ≠ 0
  | _ => True

/-- The invariant of every run: the counter is where `calls` calls bring it. -/
structure Counted (d : SQMIDev) (s : ExchangeState) : Prop where
  dev : s.dev = afterCalls d s.calls
  phase : ∀ x, (s.phase x).Counted d s.calls

theorem ExchangePhase.Counted.mono {d : SQMIDev} {j k : Nat} {p : ExchangePhase}
    (h : p.Counted d j) (hjk : j ≤ k) : p.Counted d k := by
  cases p with
  | built kind clientID reqID drawn => exact ⟨h.1, h.2.1, Nat.le_trans h.2.2 hjk⟩
  | written kind clientID reqID drawn => exact ⟨h.1, h.2.1, Nat.le_trans h.2.2 hjk⟩
  | reading clientID reqID waitID => exact h
  | idle => trivial
  | done reqID waitID response => trivial

section

variable {d : SQMIDev} {s : ExchangeState}

theorem Counted.draw (h : Counted d s) : Counted d s.draw where
  dev := by rw [ExchangeState.draw, h.dev, afterCalls]
  phase := fun x => (h.phase x).mono (Nat.le_succ _)

theorem Counted.setPhase {x : Nat} {p : ExchangePhase} (h : Counted d s)
    (hp : p.Counted d s.calls) : Counted d (s.setPhase x p) where
  dev := h.dev
  phase := fun i => by
    change (if i = x then p else s.phase i).Counted d s.calls
    split
    · exact hp
    · exact h.phase i

/-- Given that the others are paired, it is up to the exchange that moves. -/
theorem paired_setPhase {x : Nat} {p : ExchangePhase} (h : Paired s) :
    Paired (s.setPhase x p) ↔ p.Paired := by
  constructor
  · intro hall
    simpa [ExchangeState.setPhase] using hall x
  · intro hp i
    change (if i = x then p else s.phase i).Paired
    split
    · exact hp
    · exact h i

end

/-! ## One step -/

/-- An exchange that starts to wait is paired exactly if the counter stands at its id. -/
theorem read_paired (dev : NetDev) {s : ExchangeState} {kind : ExchangeKind}
    {clientID reqID : UInt16} {drawn : Nat} (hdev : s.dev = afterCalls (registerQMIDevice dev) s.calls)
    (hc : (ExchangePhase.written kind clientID reqID drawn).Counted (registerQMIDevice dev) s.calls) :
    kind.waitID s.dev.mQMITransactionID = reqID ↔
      kind ≠ .qmiBindMuxId ∧ 65535 ∣ s.calls - drawn := by
  obtain ⟨hreq, hpos, hle⟩ := hc
  have hcounter := afterCalls_eq_iff dev hpos hle
  rw [← hreq, ← hdev] at hcounter
  cases kind with
  | qmiBindMuxId =>
    -- the wildcard is no transaction id
    refine iff_of_false (fun h0 => ?_) fun h => h.1 rfl
    exact afterCalls_ne_zero (registerQMIDevice dev) hpos (hreq ▸ h0.symm)
  | wdsConnect => exact hcounter.trans ⟨fun h => ⟨by decide, h⟩, And.right⟩
  | wdsDisConnect => exact hcounter.trans ⟨fun h => ⟨by decide, h⟩, And.right⟩
  | qmiWDASetQMAP => exact hcounter.trans ⟨fun h => ⟨by decide, h⟩, And.right⟩
  | qmiWDASetQMAPSettings => exact hcounter.trans ⟨fun h => ⟨by decide, h⟩, And.right⟩
  | qmiDMSGetMEID => exact hcounter.trans ⟨fun h => ⟨by decide, h⟩, And.right⟩

/-- A paired exchange takes a response to its own request. -/
theorem take_paired {c : SClientMemList} {reqID waitID : UInt16} {m : SReadMemList}
    (hne : reqID ≠ 0) (hwait : waitID = reqID) (hpop : (c.popFromReadMemList waitID).1 = some m) :
    m.mTransactionID = reqID := by
  rcases c.popFromReadMemList_spec waitID with ⟨m', hm', -, hans⟩ | ⟨hnone, -⟩
  · obtain rfl : m' = m := Option.some.inj (hm'.symm.trans hpop)
    rcases hans with h0 | heq
    · exact absurd (hwait ▸ h0) hne
    · exact heq.symm.trans hwait
  · rw [hnone] at hpop
    cases hpop

section

variable {dev : NetDev} {s : ExchangeState}

/-- A phase that is paired by itself leaves the pairing of the others as it is. -/
theorem Paired.setPhase_of_paired {x : Nat} {p : ExchangePhase} (hp : p.Paired) (h : Paired s) :
    Paired (s.setPhase x p) ↔ True :=
  iff_of_true ((paired_setPhase h).mpr hp) trivial

/-- The id of a new request is the one the counter then holds. -/
theorem Counted.build (h : Counted (registerQMIDevice dev) s) (x : Nat) (kind : ExchangeKind)
    (clientID : UInt16) : Counted (registerQMIDevice dev)
      (s.draw.setPhase x (.built kind clientID (getTransactionID s.dev).1 (s.calls + 1))) := by
  have hreq : (getTransactionID s.dev).1 =
      (afterCalls (registerQMIDevice dev) (s.calls + 1)).mQMITransactionID := by
    rw [h.dev, afterCalls, getTransactionID_eq]
  exact h.draw.setPhase ⟨hreq, Nat.le_add_left _ _, Nat.le_refl _⟩

theorem Counted.read {x : Nat} {kind : ExchangeKind} {clientID reqID : UInt16} {drawn : Nat}
    (h : Counted (registerQMIDevice dev) s) (hphase : s.phase x = .written kind clientID reqID drawn) :
    Counted (registerQMIDevice dev)
      (s.setPhase x (.reading clientID reqID (kind.waitID s.dev.mQMITransactionID))) := by
  have hc := h.phase x
  rw [hphase] at hc
  have hne : reqID ≠ 0 := by
    rw [hc.1]
    exact afterCalls_ne_zero _ hc.2.1
  exact h.setPhase hne

theorem Paired.read {x : Nat} {kind : ExchangeKind} {clientID reqID : UInt16} {drawn : Nat}
    (h : Counted (registerQMIDevice dev) s) (hphase : s.phase x = .written kind clientID reqID drawn)
    (hp : Paired s) :
    Paired (s.setPhase x (.reading clientID reqID (kind.waitID s.dev.mQMITransactionID))) ↔
      KeepsItsID s (.read x) := by
  have hc := h.phase x
  rw [hphase] at hc
  rw [paired_setPhase hp, ExchangePhase.Paired, read_paired dev h.dev hc]
  simp only [KeepsItsID, hphase]
  constructor
  · intro hok kind' clientID' reqID' drawn' heq
    cases heq
    exact hok
  · intro hok
    exact hok kind clientID reqID drawn rfl

theorem Paired.take {x : Nat} {clientID reqID waitID : UInt16} {m : SReadMemList}
    {c : SClientMemList} (h : Counted (registerQMIDevice dev) s)
    (hphase : s.phase x = .reading clientID reqID waitID)
    (hpop : (s.clients clientID).popFromReadMemList waitID = (some m, c)) (hp : Paired s) :
    Paired ((s.setClient clientID c).setPhase x (.done reqID waitID m)) := by
  have hc := h.phase x
  have hwait := hp x
  rw [hphase] at hc hwait
  have hpset : Paired (s.setClient clientID c) := hp
  exact (paired_setPhase hpset).mpr ⟨hwait, take_paired hc hwait (congrArg Prod.fst hpop)⟩

end

/-- What one step does to the invariant and to the pairing. -/
theorem exchangeStep_spec (dev : NetDev) {s s' : ExchangeState} {ev : ExchangeEvent} {o : Unit}
    (h : Counted (registerQMIDevice dev) s) (hstep : exchangeStep s ev = some (s', o)) :
    Counted (registerQMIDevice dev) s' ∧ (Paired s → (Paired s' ↔ KeepsItsID s ev)) := by
  cases ev with
  | build x kind clientID =>
    simp only [exchangeStep] at hstep
    split at hstep
    · cases hstep
      refine ⟨h.build x kind clientID, fun hp => ?_⟩
      have hdraw : Paired s.draw := hp
      exact hdraw.setPhase_of_paired trivial
    · cases hstep
  | write x success =>
    simp only [exchangeStep] at hstep
    cases hphase : s.phase x with
    | built kind clientID reqID drawn =>
      have hc := h.phase x
      rw [hphase] at hc hstep
      cases success with
      | true =>
        cases hstep
        exact ⟨h.setPhase hc, Paired.setPhase_of_paired trivial⟩
      | false =>
        cases hstep
        exact ⟨h.setPhase trivial, Paired.setPhase_of_paired trivial⟩
    | _ => simp [hphase] at hstep
  | read x =>
    simp only [exchangeStep] at hstep
    cases hphase : s.phase x with
    | written kind clientID reqID drawn =>
      rw [hphase] at hstep
      cases hstep
      exact ⟨h.read hphase, Paired.read h hphase⟩
    | _ => simp [hphase] at hstep
  | take x =>
    simp only [exchangeStep] at hstep
    cases hphase : s.phase x with
    | reading clientID reqID waitID =>
      rw [hphase] at hstep
      simp only at hstep
      split at hstep
      · rename_i m c hpop
        cases hstep
        have hset : Counted (registerQMIDevice dev) (s.setClient clientID c) := ⟨h.dev, h.phase⟩
        exact ⟨hset.setPhase trivial, fun hp => iff_of_true (Paired.take h hphase hpop hp) trivial⟩
      · cases hstep
    | _ => simp [hphase] at hstep
  | abort x =>
    simp only [exchangeStep] at hstep
    split at hstep
    · cases hstep
      exact ⟨h.setPhase trivial, Paired.setPhase_of_paired trivial⟩
    · cases hstep
  | store clientID m =>
    cases hstep
    exact ⟨⟨h.dev, h.phase⟩, fun hp => iff_of_true hp trivial⟩
  | bump =>
    cases hstep
    exact ⟨h.draw, fun hp => iff_of_true hp trivial⟩

/-! ## Runs -/

/-- A run keeps every exchange paired with its own request exactly if every exchange that
starts to wait waits for an id, and a multiple of 65535 calls of `GetTransactionID` lies
between its request and its wait. -/
theorem paired_iff_keepsItsID (dev : NetDev) (evs : List ExchangeEvent) :
    (∀ s ∈ exchangeStep.visits (.init dev) evs, Paired s) ↔
      ∀ p ∈ exchangeStep.fires (.init dev) evs, KeepsItsID p.1 p.2 := by
  have hstart : Counted (registerQMIDevice dev) (.init dev) := ⟨rfl, fun _ => trivial⟩
  have hpaired : Paired (.init dev) := fun _ => trivial
  have haux : ∀ s ev s' o, Counted (registerQMIDevice dev) s → True →
      exchangeStep s ev = some (s', o) → Counted (registerQMIDevice dev) s' := by
    intro s ev s' o h _ hstep
    exact (exchangeStep_spec dev h hstep).1
  have hok : ∀ s ev s' o, Counted (registerQMIDevice dev) s → Paired s → True →
      exchangeStep s ev = some (s', o) → (Paired s' ↔ KeepsItsID s ev) := by
    intro s ev s' o h hp _ hstep
    exact (exchangeStep_spec dev h hstep).2 hp
  exact Machine.visits_all_iff_fires haux hok hstart hpaired fun _ _ => trivial

/-- While one exchange writes its request another one on the device gets its id. The first
one then waits for the response to the second one. -/
theorem overlapping_exchanges_mispair :
    ¬ ∀ s ∈ exchangeStep.visits (.init .mpNetDev)
        [.build 0 .wdsConnect 0x0101, .build 1 .qmiDMSGetMEID 0x0102, .write 0 true, .read 0],
      Paired s := by
  intro hall
  have hbad : ∃ s ∈ exchangeStep.visits (.init .mpNetDev)
      [.build 0 .wdsConnect 0x0101, .build 1 .qmiDMSGetMEID 0x0102, .write 0 true, .read 0],
      ¬ (s.phase 0).Paired := by
    decide
  obtain ⟨s, hs, hunpaired⟩ := hbad
  exact hunpaired (hall s hs 0)

end UsbNet
