-- SUMMARY: The memory of one QMI client: its read list, its notify list and its URB list.
import QcomUsb.UsbNet.Device

/-!
# The client store

Each QMI client owns a list of messages read for it, a list of readers waiting for
one, and a list of URBs in flight. The functions below work on one client, and each of
them is one critical section of `mClientMemLock`.
-/

namespace UsbNet

/-- An entry of the read list. The pointer to the data identifies the message. -/
structure SReadMemList where
  mpData : Nat
  mTransactionID : UInt16
  deriving DecidableEq, Repr

/-- The functions that readers register: `UpSem` for a reader that blocks, a callback of
its own for one that does not. -/
inductive NotifyFunct where
  | upSem
  | callback
  deriving DecidableEq, Repr

/-- An entry of the notify list. `mpData` identifies the reader. -/
structure SNotifyList where
  mpNotifyFunct : NotifyFunct
  mTransactionID : UInt16
  mpData : Nat
  deriving DecidableEq, Repr

/-- The memory of a client. URBs are known by a number. -/
structure SClientMemList where
  mClientID : UInt16
  mList : List SReadMemList
  mReadNotifyList : List SNotifyList
  mURBList : List Nat
  deriving DecidableEq, Repr

/-- A message answers a read for this transaction ID, or for 0, which stands for any. -/
def SReadMemList.Answers (m : SReadMemList) (transactionID : UInt16) : Prop :=
  transactionID = 0 ∨ transactionID = m.mTransactionID

instance (m : SReadMemList) (transactionID : UInt16) : Decidable (m.Answers transactionID) :=
  inferInstanceAs (Decidable (_ ∨ _))

/-- A waiter is notified of a message with this transaction ID. Here 0 stands for any on
both sides. -/
def SNotifyList.Notified (e : SNotifyList) (transactionID : UInt16) : Prop :=
  transactionID = 0 ∨ e.mTransactionID = 0 ∨ transactionID = e.mTransactionID

instance (e : SNotifyList) (transactionID : UInt16) : Decidable (e.Notified transactionID) :=
  inferInstanceAs (Decidable (_ ∨ _ ∨ _))

namespace SClientMemList

/-- The memory `GetClientID` sets up. -/
def new (clientID : UInt16) : SClientMemList := ⟨clientID, [], [], []⟩

/-- `AddToReadMemList`. -/
def addToReadMemList (c : SClientMemList) (m : SReadMemList) : SClientMemList :=
  { c with mList := c.mList ++ [m] }

/-- `PopFromReadMemList`: the first message that answers. -/
def popFromReadMemList (c : SClientMemList) (transactionID : UInt16) :
    Option SReadMemList × SClientMemList :=
  match c.mList.find? fun m => decide (m.Answers transactionID) with
  | some m => (some m, { c with mList := c.mList.eraseP fun m => decide (m.Answers transactionID) })
  | none => (none, c)

/-- `AddToNotifyList`. -/
def addToNotifyList (c : SClientMemList) (e : SNotifyList) : SClientMemList :=
  { c with mReadNotifyList := c.mReadNotifyList ++ [e] }

/-- `NotifyAndPopNotifyList`: the first waiter to be notified. Its function runs once the
lock is released. -/
def notifyAndPopNotifyList (c : SClientMemList) (transactionID : UInt16) :
    Option SNotifyList × SClientMemList :=
  match c.mReadNotifyList.find? fun e => decide (e.Notified transactionID) with
  | some e =>
    (some e, { c with
      mReadNotifyList := c.mReadNotifyList.eraseP fun e => decide (e.Notified transactionID) })
  | none => (none, c)

/-- The end of an interrupted or timed out read: remove the reader's own entry. -/
def removeFromNotifyList (c : SClientMemList) (mpData : Nat) : SClientMemList :=
  { c with mReadNotifyList := c.mReadNotifyList.eraseP fun e => e.mpData == mpData }

/-- `AddToURBList`. -/
def addToURBList (c : SClientMemList) (mpURB : Nat) : SClientMemList :=
  { c with mURBList := c.mURBList ++ [mpURB] }

/-- `PopFromURBList`. -/
def popFromURBList (c : SClientMemList) : Option Nat × SClientMemList :=
  (c.mURBList.head?, { c with mURBList := c.mURBList.tail })

/-! ## What the operations keep -/

variable (c : SClientMemList)

/-- A pop answers the read, and takes nothing but from the read list. -/
theorem popFromReadMemList_spec (transactionID : UInt16) :
    (∃ m, (c.popFromReadMemList transactionID).1 = some m ∧ m ∈ c.mList ∧ m.Answers transactionID) ∨
      (c.popFromReadMemList transactionID = (none, c) ∧ ∀ m ∈ c.mList, ¬ m.Answers transactionID) := by
  unfold popFromReadMemList
  cases h : c.mList.find? fun m => decide (m.Answers transactionID) with
  | some m =>
    have hmem := List.mem_of_find?_eq_some h
    have hans := List.find?_some h
    exact .inl ⟨m, rfl, hmem, of_decide_eq_true hans⟩
  | none =>
    refine .inr ⟨rfl, fun m hm => ?_⟩
    simpa using List.find?_eq_none.mp h m hm

theorem popFromReadMemList_mReadNotifyList (transactionID : UInt16) :
    (c.popFromReadMemList transactionID).2.mReadNotifyList = c.mReadNotifyList := by
  unfold popFromReadMemList
  split <;> rfl

theorem popFromReadMemList_sublist (transactionID : UInt16) :
    List.Sublist (c.popFromReadMemList transactionID).2.mList c.mList := by
  unfold popFromReadMemList
  split
  · exact List.eraseP_sublist
  · exact List.Sublist.refl _

theorem notifyAndPopNotifyList_mList (transactionID : UInt16) :
    (c.notifyAndPopNotifyList transactionID).2.mList = c.mList := by
  unfold notifyAndPopNotifyList
  split <;> rfl

/-- A notification takes the first waiter it finds off the list. -/
theorem notifyAndPopNotifyList_mReadNotifyList (transactionID : UInt16) :
    (c.notifyAndPopNotifyList transactionID).2.mReadNotifyList =
      c.mReadNotifyList.eraseP fun e => decide (e.Notified transactionID) := by
  unfold notifyAndPopNotifyList
  cases h : c.mReadNotifyList.find? fun e => decide (e.Notified transactionID) with
  | some e => rfl
  | none =>
    have hall := List.find?_eq_none.mp h
    exact (List.eraseP_of_forall_not hall).symm

theorem notifyAndPopNotifyList_none {transactionID : UInt16}
    (h : (c.notifyAndPopNotifyList transactionID).1 = none) :
    (c.notifyAndPopNotifyList transactionID).2 = c := by
  unfold notifyAndPopNotifyList at h ⊢
  split at h
  · cases h
  · rfl

/-- The waiter that is notified is the one that leaves the list. -/
theorem notifyAndPopNotifyList_perm {transactionID : UInt16} {e : SNotifyList}
    (h : (c.notifyAndPopNotifyList transactionID).1 = some e) :
    c.mReadNotifyList.Perm (e :: (c.notifyAndPopNotifyList transactionID).2.mReadNotifyList) := by
  have hfind : c.mReadNotifyList.find? (fun e => decide (e.Notified transactionID)) = some e := by
    unfold notifyAndPopNotifyList at h
    split at h
    · rename_i e' he
      rw [he]
      exact h
    · cases h
  obtain ⟨hnotified, before, after, hsplit, hbefore⟩ := List.find?_eq_some_iff_append.mp hfind
  have hcons : (e :: after).eraseP (fun e => decide (e.Notified transactionID)) = after :=
    List.eraseP_cons_of_pos hnotified
  rw [c.notifyAndPopNotifyList_mReadNotifyList transactionID, hsplit,
    List.eraseP_append_right _ (by simpa using hbefore), hcons]
  exact List.perm_middle

theorem removeFromNotifyList_sublist (mpData : Nat) :
    List.Sublist (c.removeFromNotifyList mpData).mReadNotifyList c.mReadNotifyList :=
  List.eraseP_sublist

theorem popFromReadMemList_mClientID (transactionID : UInt16) :
    (c.popFromReadMemList transactionID).2.mClientID = c.mClientID := by
  unfold popFromReadMemList
  split <;> rfl

theorem notifyAndPopNotifyList_mClientID (transactionID : UInt16) :
    (c.notifyAndPopNotifyList transactionID).2.mClientID = c.mClientID := by
  unfold notifyAndPopNotifyList
  split <;> rfl

/-- A pop that finds a message shortens the read list. -/
theorem popFromReadMemList_length (transactionID : UInt16)
    (h : (c.popFromReadMemList transactionID).1.isSome = true) :
    (c.popFromReadMemList transactionID).2.mList.length < c.mList.length := by
  unfold popFromReadMemList at h ⊢
  split at h
  · rename_i m hm
    rw [List.length_eraseP_of_mem (List.mem_of_find?_eq_some hm) (List.find?_some hm)]
    have hpos := List.length_pos_of_mem (List.mem_of_find?_eq_some hm)
    simpa using hpos
  · cases h

/-- A notification shortens the notify list. -/
theorem notifyAndPopNotifyList_length (transactionID : UInt16)
    (h : (c.notifyAndPopNotifyList transactionID).1.isSome = true) :
    (c.notifyAndPopNotifyList transactionID).2.mReadNotifyList.length <
      c.mReadNotifyList.length := by
  unfold notifyAndPopNotifyList at h ⊢
  split at h
  · rename_i e he
    rw [List.length_eraseP_of_mem (List.mem_of_find?_eq_some he) (List.find?_some he)]
    have hpos := List.length_pos_of_mem (List.mem_of_find?_eq_some he)
    simpa using hpos
  · cases h

theorem popFromURBList_length (h : c.popFromURBList.1.isSome = true) :
    c.popFromURBList.2.mURBList.length < c.mURBList.length := by
  unfold popFromURBList at h ⊢
  cases hu : c.mURBList with
  | nil => simp [hu] at h
  | cons u us => simp

end SClientMemList

end UsbNet
