-- SUMMARY: The pending QMICTL requests of all adapters, and which messages, timeouts and failed IRPs take them off their lists.
import QcomUsb.Library.Places
import QcomUsb.Ndis.QmictlTid

/-!
# QMICTL transactions

`MPQCTL_Request` puts an item on the `QMICTLTransactionList` of its adapter. An inbound
message, a timeout and a failed IRP all search for it with
`MPQCTL_FindQMICTLTransactionItem`, which goes through the lists of all adapters and
dequeues the first item that matches. It means to leave out the adapters of other
devices, but it compares the device of the receiving adapter with itself.
-/

namespace Ndis.Qmictl

open Transition Places

/-! ## State -/

/-- `QMICTL_CTL_FLAG_RSP` and `QMICTL_CTL_FLAG_IND`. -/
def ctlFlagRsp : UInt8 := 0x01
def ctlFlagInd : UInt8 := 0x02

/-- The adapters, with the fields that the handling of QMICTL messages reads. -/
structure Adapters (α : Type) where
  adapterList : List α
  muxInterface : α → MuxInterfaceInfo
  externalQCTLEnabled : α → Bool
  externalQMICtrlCid : α → UInt32

/-- The adapters belong to one physical device. -/
def Adapters.SameDevice {α : Type} (c : Adapters α) (a b : α) : Prop :=
  (c.muxInterface a).physicalInterfaceNumber = (c.muxInterface b).physicalInterfaceNumber ∧
    (c.muxInterface a).filterDeviceObj = (c.muxInterface b).filterDeviceObj

instance {α : Type} (c : Adapters α) (a b : α) : Decidable (c.SameDevice a b) :=
  inferInstanceAs (Decidable (_ ∧ _))

/-- `QMICTL_TRANSACTION_ITEM`. The number says which of the items put on a list it is. -/
structure Item where
  serial : Nat
  transactionId : UInt8
  irp : Nat
deriving DecidableEq

/-- What `MPQCTL_ProcessInboundQMICTL` reads of a message to find its item. -/
structure Message where
  clientId : UInt8
  ctlFlags : UInt8
  transactionId : UInt8
deriving DecidableEq

def Message.controlFlag (m : Message) : UInt8 := m.ctlFlags &&& 0x03

/-- The message goes to the external client and to nobody else. -/
def Adapters.routesAway {α : Type} (c : Adapters α) (a : α) (m : Message) : Bool :=
  c.externalQCTLEnabled a &&
    ((c.externalQMICtrlCid a == 0 && decide (QmictlTid.internalMaxTid < m.transactionId.toNat)) ||
      m.clientId != 0 || m.controlFlag == ctlFlagInd) &&
    m.controlFlag != ctlFlagInd

/-- Why a search is made: by its transaction id for a message or a timeout, or by its IRP. -/
inductive Cause
  | message (m : Message)
  | timeout (tid : UInt8)
  | irp (pIrp : Nat)
deriving DecidableEq

def Cause.finds : Cause → Item → Bool
  | .message m, item => item.transactionId == m.transactionId
  | .timeout tid, item => item.transactionId == tid
  | .irp pIrp, item => item.irp == pIrp

/-- A run of `MPQCTL_FindQMICTLTransactionItem`: the adapters it has not come to, or the item it has
dequeued and its caller has not freed. -/
structure Search (α : Type) where
  pAdapter : α
  cause : Cause
  rest : List α
  item : Option Item
deriving DecidableEq

/-- A search that has dequeued an item, and from whose list. -/
structure Dequeue (α : Type) where
  pAdapter : α
  cause : Cause
  owner : α
  item : Item
deriving DecidableEq

/-- The lists of the adapters and the IRPs that have not completed. An observer counts the items put
on a list, and keeps the ones that were freed and the searches that dequeued one. -/
structure State (α : Type) where
  transactionList : α → List Item
  irps : List (Nat × α)
  searches : List (Search α)
  puts : Nat
  freed : List Nat
  dequeued : List (Dequeue α)

/-- What can happen: a request is sent with an IRP, an IRP completes, a message comes in, a request
times out, or a search goes on. -/
inductive Op (α : Type)
  | request (a : α) (tid : UInt8) (irp : Nat)
  | irpCompletes (irp : Nat) (succeeded : Bool)
  | message (a : α) (m : Message)
  | timeout (a : α) (tid : UInt8)
  | search (k : Nat)

section

variable {α : Type} [DecidableEq α]

/-- An IRP has been allocated and not been freed. -/
def State.live (s : State α) (irp : Nat) : Bool :=
  s.irps.any (·.1 == irp) || s.searches.any (·.cause == .irp irp)

/-- `MPQCTL_SendQMICTLRequest` up to its call of the driver below. -/
def State.request (s : State α) (a : α) (tid : UInt8) (irp : Nat) : Option (State α) :=
  if s.live irp then none
  else some { s with
    transactionList :=
      Function.update s.transactionList a (s.transactionList a ++ [⟨s.puts, tid, irp⟩])
    irps := s.irps ++ [(irp, a)]
    puts := s.puts + 1 }

/-- A caller enters `MPQCTL_FindQMICTLTransactionItem`. -/
def State.find (c : Adapters α) (s : State α) (a : α) (cause : Cause) : State α :=
  { s with searches := s.searches ++ [⟨a, cause, c.adapterList, none⟩] }

/-- `MPQCTL_SendIRPCompletion`. -/
def State.irpCompletes (c : Adapters α) (s : State α) (irp : Nat) (succeeded : Bool) :
    Option (State α) :=
  match s.irps.find? (·.1 == irp) with
  | none => none
  | some (_, a) =>
    let s' := { s with irps := s.irps.erase (irp, a) }
    if succeeded then some s' else some (s'.find c a (.irp irp))

/-- `MPQCTL_ProcessInboundQMICTL` up to its search. -/
def State.message (c : Adapters α) (s : State α) (a : α) (m : Message) : State α :=
  if c.routesAway a m then s else s.find c a (.message m)

/-- One turn of the loop over the adapters. `pTempDevExt` is taken from `pAdapter`. -/
def State.look (c : Adapters α) (s : State α) (k : Nat) (f : Search α) (b : α) (rest : List α) :
    State α :=
  if c.SameDevice f.pAdapter f.pAdapter then
    match (s.transactionList b).find? f.cause.finds with
    | some item =>
      { s with
        transactionList :=
          Function.update s.transactionList b ((s.transactionList b).eraseP f.cause.finds)
        searches := s.searches.set k { f with item := some item }
        dequeued := ⟨f.pAdapter, f.cause, b, item⟩ :: s.dequeued }
    | none => { s with searches := s.searches.set k { f with rest := rest } }
  else { s with searches := s.searches.set k { f with rest := rest } }

/-- A search looks at the next list or ends. Its caller frees the item it has dequeued. -/
def State.search (c : Adapters α) (s : State α) (k : Nat) : Option (State α) :=
  match s.searches[k]? with
  | none => none
  | some f =>
    match f.item with
    | some item =>
      some { s with searches := s.searches.eraseIdx k, freed := item.serial :: s.freed }
    | none =>
      match f.rest with
      | [] => some { s with searches := s.searches.eraseIdx k }
      | b :: rest => some (s.look c k f b rest)

def State.step (c : Adapters α) (s : State α) : Op α → Option (State α)
  | .request a tid irp => s.request a tid irp
  | .irpCompletes irp succeeded => s.irpCompletes c irp succeeded
  | .message a m => some (s.message c a m)
  | .timeout a tid => some (s.find c a (.timeout tid))
  | .search k => s.search c k

def transactions (c : Adapters α) : Machine (State α) (Op α) Unit :=
  fun s op => (s.step c op).map fun s' => (s', ())

/-- Before the first request. -/
def start : State α := ⟨fun _ => [], [], [], 0, [], []⟩

/-! ## What the lists are for -/

/-- Where an item is. -/
inductive Place (α : Type)
  | list (a : α)
  | dequeued
  | freed
deriving DecidableEq

/-- The items in each place. -/
def State.itemsAt (s : State α) : Place α → List Nat
  | .list a => (s.transactionList a).map Item.serial
  | .dequeued => s.searches.filterMap fun f => f.item.map Item.serial
  | .freed => s.freed

/-- Every item that was put on a list is still there, or has been dequeued once and is freed once. -/
def State.ExactlyOnce (s : State α) : Prop := ∀ n < s.puts, OnePlace s.itemsAt n

/-- A message has only dequeued the item of a request it is the response to. -/
def State.OwnResponses (c : Adapters α) (s : State α) : Prop :=
  ∀ r ∈ s.dequeued, ∀ m, r.cause = .message m →
    m.controlFlag = ctlFlagRsp ∧ r.item.transactionId = m.transactionId ∧
      c.SameDevice r.pAdapter r.owner

/-- The list that a message's search looks at has no item with the message's transaction id, unless
the message is a response and the list belongs to the receiving device. -/
def NoStranger (c : Adapters α) (s : State α) : Op α → Prop
  | .search k =>
    ∀ f ∈ s.searches[k]?, f.item = none → ∀ m, f.cause = .message m → ∀ b ∈ f.rest.head?,
      (∃ item ∈ s.transactionList b, item.transactionId = m.transactionId) →
        m.controlFlag = ctlFlagRsp ∧ c.SameDevice f.pAdapter b
  | _ => True

/-! ## One step -/

variable {c : Adapters α} {s s' : State α} {k : Nat} {f : Search α} {b : α} {rest : List α}

/-- A search whose list has a matching item dequeues it, and one whose list has none goes on. -/
theorem look_cases (c : Adapters α) (s : State α) (k : Nat) (f : Search α) (b : α)
    (rest : List α) :
    (∃ item pre post, s.transactionList b = pre ++ item :: post ∧ f.cause.finds item = true ∧
      s.look c k f b rest =
        { s with
          transactionList := Function.update s.transactionList b (pre ++ post)
          searches := s.searches.set k { f with item := some item }
          dequeued := ⟨f.pAdapter, f.cause, b, item⟩ :: s.dequeued }) ∨
    (∀ item ∈ s.transactionList b, f.cause.finds item = false) ∧
      s.look c k f b rest = { s with searches := s.searches.set k { f with rest := rest } } := by
  have hself : c.SameDevice f.pAdapter f.pAdapter := ⟨rfl, rfl⟩
  simp only [State.look, if_pos hself]
  cases hfind : (s.transactionList b).find? f.cause.finds with
  | none =>
    right
    exact ⟨by simpa using hfind, rfl⟩
  | some item =>
    left
    obtain ⟨hitem, pre, post, hsplit, hpre⟩ := List.find?_eq_some_iff_append.mp hfind
    refine ⟨item, pre, post, hsplit, hitem, ?_⟩
    have hno : ∀ i ∈ pre, ¬ f.cause.finds i = true := by simpa using hpre
    rw [hsplit, List.eraseP_append_right _ hno, List.eraseP_cons_of_pos hitem]

theorem transactions_eq_some {op : Op α} {o : Unit} :
    transactions c s op = some (s', o) ↔ s.step c op = some s' := by
  simp [transactions]

/-! ## Each item in one place -/

/-- The items put so far are the ones that have a place. -/
def State.Tracked (s : State α) : Prop :=
  ∃ place, Tracks s.itemsAt place ∧ ∀ n, (place n).isSome ↔ n < s.puts

omit [DecidableEq α] in
theorem State.Tracked.exactlyOnce (h : s.Tracked) : s.ExactlyOnce := by
  obtain ⟨place, htracks, hplaced⟩ := h
  exact fun n hn => htracks.onePlace ((hplaced n).mpr hn)

omit [DecidableEq α] in
theorem start_tracked : (start : State α).Tracked := by
  refine ⟨fun _ => none, ⟨fun p => ?_, fun p t => ?_⟩, by simp [start]⟩
  · cases p <;> exact List.nodup_nil
  · cases p <;> simp [start, State.itemsAt]

omit [DecidableEq α] in
/-- A step that moves no item. -/
theorem State.Tracked.of_perm (h : s.Tracked) (hputs : s'.puts = s.puts)
    (hperm : ∀ p, (s'.itemsAt p).Perm (s.itemsAt p)) : s'.Tracked := by
  obtain ⟨place, htracks, hplaced⟩ := h
  exact ⟨place, htracks.of_perm hperm, fun n => hputs ▸ hplaced n⟩

omit [DecidableEq α] in
theorem State.Tracked.move (h : s.Tracked) {p q : Place α} {n : Nat} {rest : List Nat} (hne : p ≠ q)
    (hputs : s'.puts = s.puts) (hp : (s.itemsAt p).Perm (n :: rest))
    (hp' : (s'.itemsAt p).Perm rest) (hq : (s'.itemsAt q).Perm (n :: s.itemsAt q))
    (hother : ∀ r, r ≠ p → r ≠ q → (s'.itemsAt r).Perm (s.itemsAt r)) : s'.Tracked := by
  obtain ⟨place, htracks, hplaced⟩ := h
  refine ⟨_, htracks.move hne hp hp' hq hother, fun i => ?_⟩
  rw [hputs, ← hplaced i]
  rcases eq_or_ne i n with rfl | hi
  · simp [htracks.place_eq (hp.mem_iff.mpr List.mem_cons_self)]
  · rw [Function.update_of_ne hi]

theorem State.Tracked.request {a : α} {tid : UInt8} {irp : Nat} (h : s.Tracked)
    (hstep : s.request a tid irp = some s') : s'.Tracked := by
  obtain ⟨place, htracks, hplaced⟩ := h
  unfold State.request at hstep
  split at hstep
  · cases hstep
  obtain rfl := Option.some.inj hstep
  have hnew : place s.puts = none := by
    rw [← Option.not_isSome_iff_eq_none, hplaced]
    exact Nat.lt_irrefl _
  refine ⟨_, htracks.insert (q := .list a) hnew ?_ fun r hr => ?_, fun n => ?_⟩
  · simp [State.itemsAt]
  · cases r with
    | list b =>
      have hb : b ≠ a := fun heq => hr (heq ▸ rfl)
      simp [State.itemsAt, Function.update_of_ne hb]
    | dequeued => exact .refl _
    | freed => exact .refl _
  · rcases eq_or_ne n s.puts with rfl | hn
    · simp
    · rw [Function.update_of_ne hn, hplaced]
      simp only
      omega

omit [DecidableEq α] in
theorem itemsAt_find (s : State α) (a : α) (cause : Cause) (p : Place α) :
    (s.find c a cause).itemsAt p = s.itemsAt p := by
  cases p <;> simp [State.itemsAt, State.find]

theorem State.Tracked.irpCompletes {irp : Nat} {succeeded : Bool} (h : s.Tracked)
    (hstep : s.irpCompletes c irp succeeded = some s') : s'.Tracked := by
  unfold State.irpCompletes at hstep
  split at hstep
  · cases hstep
  · rename_i a _
    split at hstep
    · obtain rfl := Option.some.inj hstep
      exact h.of_perm rfl fun p => .refl _
    · obtain rfl := Option.some.inj hstep
      refine h.of_perm rfl fun p => ?_
      rw [itemsAt_find]
      exact .refl _

omit [DecidableEq α] in
theorem State.Tracked.message {a : α} {m : Message} (h : s.Tracked) :
    (s.message c a m).Tracked := by
  unfold State.message
  split
  · exact h
  · exact h.of_perm rfl fun p => itemsAt_find s a _ p ▸ .refl _

omit [DecidableEq α] in
/-- A search that has not dequeued an item does not count. -/
theorem State.Tracked.of_idle {searches : List (Search α)} (h : s.Tracked)
    (hidle : (searches.filterMap fun g => g.item.map Item.serial).Perm
      (s.searches.filterMap fun g => g.item.map Item.serial)) :
    { s with searches }.Tracked := by
  refine h.of_perm rfl fun p => ?_
  cases p with
  | list b => exact .refl _
  | dequeued => exact hidle
  | freed => exact .refl _

theorem State.Tracked.look (h : s.Tracked) (hf : s.searches[k]? = some f) (hitem : f.item = none) :
    (s.look c k f b rest).Tracked := by
  have hbefore := filterMap_perm_eraseIdx (g := fun g => g.item.map Item.serial) hf
  have hafter (y : Search α) := filterMap_set_perm (g := fun g => g.item.map Item.serial) hf y
  simp only [hitem, Option.map_none, Option.toList_none, List.nil_append] at hbefore
  rcases look_cases c s k f b rest with ⟨item, pre, post, hlist, -, heq⟩ | ⟨-, heq⟩
  · rw [heq]
    have htaken : (s.itemsAt (.list b)).Perm (item.serial :: (pre ++ post).map Item.serial) := by
      simp [State.itemsAt, hlist]
    refine h.move (q := .dequeued) (by simp) rfl htaken ?_ ?_ fun r hp hq => ?_
    · simp [State.itemsAt]
    · exact (hafter { f with item := some item }).trans (hbefore.symm.cons _)
    · cases r with
      | list d =>
        have hd : d ≠ b := fun heq => hp (heq ▸ rfl)
        simp [State.itemsAt, Function.update_of_ne hd]
      | dequeued => exact absurd rfl hq
      | freed => exact .refl _
  · rw [heq]
    refine h.of_idle ((hafter { f with rest := rest }).trans ?_)
    simpa [hitem] using hbefore.symm

theorem State.Tracked.search (h : s.Tracked) (hstep : s.search c k = some s') : s'.Tracked := by
  unfold State.search at hstep
  cases hf : s.searches[k]? with
  | none => simp [hf] at hstep
  | some f =>
    have hbefore := filterMap_perm_eraseIdx (g := fun g => g.item.map Item.serial) hf
    simp only [hf] at hstep
    cases hitem : f.item with
    | some item =>
      simp only [hitem, Option.some.injEq] at hstep
      subst hstep
      refine h.move (p := .dequeued) (q := .freed) (n := item.serial) (by simp) rfl
        (by simpa [State.itemsAt, hitem] using hbefore) (.refl _) (.refl _) fun r hp hq => ?_
      cases r with
      | list d => exact .refl _
      | dequeued => exact absurd rfl hp
      | freed => exact absurd rfl hq
    | none =>
      cases hrest : f.rest with
      | nil =>
        simp only [hitem, hrest, Option.some.injEq] at hstep
        subst hstep
        exact h.of_idle (by simpa [hitem] using hbefore.symm)
      | cons b rest =>
        simp only [hitem, hrest, Option.some.injEq] at hstep
        exact hstep ▸ h.look hf hitem

theorem State.Tracked.step {op : Op α} (h : s.Tracked) (hstep : s.step c op = some s') :
    s'.Tracked := by
  cases op with
  | request a tid irp => exact h.request hstep
  | irpCompletes irp succeeded => exact h.irpCompletes hstep
  | message a m =>
    obtain rfl := Option.some.inj hstep
    exact h.message
  | timeout a tid =>
    obtain rfl := Option.some.inj hstep
    exact h.of_perm rfl fun p => itemsAt_find s a _ p ▸ .refl _
  | search k => exact h.search hstep

/-! ## Own responses -/

omit [DecidableEq α] in
theorem State.OwnResponses.of_eq (hown : s.OwnResponses c) (h : s'.dequeued = s.dequeued) :
    s'.OwnResponses c := by
  intro r hr
  exact hown r (h ▸ hr)

/-- A turn of the loop goes wrong exactly if it dequeues a stranger's item for a message. -/
theorem look_ownResponses (hown : s.OwnResponses c) (hf : s.searches[k]? = some f)
    (hitem : f.item = none) (hrest : f.rest = b :: rest) :
    (s.look c k f b rest).OwnResponses c ↔ NoStranger c s (.search k) := by
  have hcond : NoStranger c s (.search k) ↔ ∀ m, f.cause = .message m →
      (∃ item ∈ s.transactionList b, item.transactionId = m.transactionId) →
        m.controlFlag = ctlFlagRsp ∧ c.SameDevice f.pAdapter b := by
    simp [NoStranger, hf, hitem, hrest]
  rw [hcond]
  rcases look_cases c s k f b rest with ⟨item, pre, post, hlist, hfinds, heq⟩ | ⟨hnone, heq⟩
  · rw [heq]
    constructor
    · intro hafter m hm _
      obtain ⟨hrsp, -, hdevice⟩ := hafter _ List.mem_cons_self m hm
      exact ⟨hrsp, hdevice⟩
    · intro hok r hr m hm
      rcases List.mem_cons.mp hr with rfl | hold
      · have hcause : f.cause = .message m := hm
        have htid : item.transactionId = m.transactionId := by
          simpa [hcause, Cause.finds] using hfinds
        obtain ⟨hrsp, hdevice⟩ := hok m hcause ⟨item, by simp [hlist], htid⟩
        exact ⟨hrsp, htid, hdevice⟩
      · exact hown r hold m hm
  · refine iff_of_true (hown.of_eq (by rw [heq])) fun m hm ⟨item, hmem, htid⟩ => ?_
    have hno := hnone item hmem
    simp [hm, Cause.finds, htid] at hno

theorem search_ownResponses (hown : s.OwnResponses c) (hstep : s.search c k = some s') :
    s'.OwnResponses c ↔ NoStranger c s (.search k) := by
  unfold State.search at hstep
  cases hf : s.searches[k]? with
  | none => simp [hf] at hstep
  | some f =>
    simp only [hf] at hstep
    cases hitem : f.item with
    | some item =>
      simp only [hitem, Option.some.injEq] at hstep
      exact iff_of_true (hown.of_eq (by rw [← hstep])) (by simp [NoStranger, hf, hitem])
    | none =>
      cases hrest : f.rest with
      | nil =>
        simp only [hitem, hrest, Option.some.injEq] at hstep
        exact iff_of_true (hown.of_eq (by rw [← hstep])) (by simp [NoStranger, hf, hrest])
      | cons b rest =>
        simp only [hitem, hrest, Option.some.injEq] at hstep
        rw [← hstep]
        exact look_ownResponses hown hf hitem hrest

theorem step_ownResponses {op : Op α} (hown : s.OwnResponses c) (hstep : s.step c op = some s') :
    s'.OwnResponses c ↔ NoStranger c s op := by
  have hsame : s'.dequeued = s.dequeued → (s'.OwnResponses c ↔ True) := fun h =>
    iff_of_true (hown.of_eq h) trivial
  cases op with
  | request a tid irp =>
    simp only [State.step, State.request] at hstep
    split at hstep
    · cases hstep
    · exact hsame (by rw [← Option.some.inj hstep])
  | irpCompletes irp succeeded =>
    simp only [State.step, State.irpCompletes] at hstep
    split at hstep
    · cases hstep
    · split at hstep
      · exact hsame (by rw [← Option.some.inj hstep])
      · exact hsame (by rw [← Option.some.inj hstep]; rfl)
  | message a m =>
    refine hsame ?_
    rw [← Option.some.inj hstep, State.message]
    split <;> rfl
  | timeout a tid => exact hsame (by rw [← Option.some.inj hstep]; rfl)
  | search k => exact search_ownResponses hown hstep

/-- Every item is dequeued and freed once. Messages only dequeue the items they answer exactly if no
search for a message looks at a list with a stranger's item under the same id. -/
theorem transactions_resolve (c : Adapters α) (ops : List (Op α)) :
    (∀ s ∈ (transactions c).visits start ops, s.OwnResponses c ∧ s.ExactlyOnce) ↔
      ∀ p ∈ (transactions c).fires start ops, NoStranger c p.1 p.2 := by
  have hkept : ∀ s op s' (o : Unit), s.Tracked → True →
      transactions c s op = some (s', o) → s'.Tracked := fun s op s' o h _ hstep =>
    h.step (transactions_eq_some.mp hstep)
  have hgood : ∀ s op s' (o : Unit), s.Tracked → s.OwnResponses c ∧ s.ExactlyOnce → True →
      transactions c s op = some (s', o) →
      (s'.OwnResponses c ∧ s'.ExactlyOnce ↔ NoStranger c s op) := by
    rintro s op s' o h ⟨hown, -⟩ - hstep
    have hstep : s.step c op = some s' := transactions_eq_some.mp hstep
    rw [step_ownResponses hown hstep]
    exact and_iff_left ((h.step hstep).exactlyOnce)
  exact Machine.visits_all_iff_fires hkept hgood start_tracked
    ⟨by simp [State.OwnResponses, start], start_tracked.exactlyOnce⟩ fun _ _ => trivial

end

/-- Two devices, each with one adapter. -/
def twoDevices : Adapters Bool where
  adapterList := [false, true]
  muxInterface a := ⟨0, 0, 0, if a then 2 else 1⟩
  externalQCTLEnabled _ := false
  externalQMICtrlCid _ := 0

/-- The response to the second device frees the item of the first one. -/
theorem transactions_resolve_stranger :
    ¬ ∀ s ∈ (transactions twoDevices).visits start
        [.request false 1 10, .request true 1 20, .message true ⟨0, 1, 1⟩, .search 0],
      s.OwnResponses twoDevices ∧ s.ExactlyOnce := by
  intro hall
  have hlast := List.getLast_mem (List.ne_nil_of_mem (Machine.start_mem_visits
    (M := transactions twoDevices) start
    [.request false 1 10, .request true 1 20, .message true ⟨0, 1, 1⟩, .search 0]))
  have hown := (hall _ hlast).1
  have hdevice := (hown ⟨true, .message ⟨0, 1, 1⟩, false, ⟨0, 1, 10⟩⟩ (by decide) _ rfl).2.2
  revert hdevice
  decide

end Ndis.Qmictl
