-- SUMMARY: The teardown of a device, and the release requests that are never sent.
import QcomUsb.UsbNet.Registration

/-!
# Teardown

`DeregisterQMIDevice` releases the clients in the order of the tables. The QMICTL client of
the primary device was created first, so the client that every release request needs is
released before all others.
-/

namespace UsbNet

open LockTrace

/-- The private data of an open file. -/
structure SQMIFilpStorage where
  mClientID : UInt16
  qmiDev : NetDev
  deriving DecidableEq, Repr

/-- An open file of a QMI device. `used` counts the other tasks that have it open. -/
structure File where
  privateData : Option SQMIFilpStorage
  fileCount : Nat
  used : Nat
  deriving DecidableEq, Repr

/-- Taking a client off a table takes its id off the ids. -/
theorem map_eraseP_clientID (clientID : UInt16) (cs : List SClientMemList) :
    (cs.eraseP fun c => c.mClientID = clientID).map (·.mClientID) =
      (cs.map (·.mClientID)).erase clientID := by
  induction cs with
  | nil => rfl
  | cons c cs ih =>
    by_cases hc : c.mClientID = clientID
    · simp [hc]
    · simp [hc, ih]

namespace SGobiUSBNet

/-- `UserspaceClose`. The id 0xFFFF stands for a file without a client. -/
def userspaceClose (o : ReleaseOutcome) (pFilp : File) (s : SGobiUSBNet) : Int × SGobiUSBNet :=
  match pFilp.privateData with
  | none => (-Errno.EBADF, s)
  | some pFilpData =>
    if pFilp.fileCount ≠ 1 ∧ 0 < pFilp.used then (0, s)
    else if s.mbQMIValid = false then (-Errno.ENXIO, s)
    else if pFilpData.mClientID ≠ 0xFFFF then
      (0, s.releaseClientID o pFilpData.qmiDev pFilpData.mClientID)
    else (0, s)

/-- The release of all clients of one device. The walk over its table takes no lock. -/
def releaseTable (os : NetDev → UInt16 → ReleaseOutcome) (q : NetDev) :
    List UInt16 → SGobiUSBNet → SGobiUSBNet
  | [], s => s
  | id :: ids, s => releaseTable os q ids ((s.onLock q .touch).releaseClientID (os q id) q id)

/-- The primary device comes first, then the mux devices. -/
def releaseAll (os : NetDev → UInt16 → ReleaseOutcome) (s : SGobiUSBNet) : SGobiUSBNet :=
  (NetDev.mpNetDev :: (List.finRange maxMuxDevices).map .mpNetMUXDev).foldl
    (fun s q => s.releaseTable os q (s.clientIDs q)) s

/-- `DeregisterQMIDevice`, up to the point where the device is invalid. `files` are the open
files it finds and closes by force. -/
def deregisterQMIDevice (os : NetDev → UInt16 → ReleaseOutcome)
    (files : List (ReleaseOutcome × File)) (s : SGobiUSBNet) : SGobiUSBNet :=
  if s.mbQMIValid = false then s
  else
    let s := s.releaseAll os
    if s.mbCdevIsInitialized = false then s
    else
      let s := files.foldl (fun s f => (s.userspaceClose f.1 f.2).2) s
      { s with mbQMIValid := false }

/-! ## What a release does to the tables -/

variable (s : SGobiUSBNet) (q : NetDev) (clientID : UInt16)

theorem removeClient_clientIDs (p : NetDev) :
    (s.removeClient q clientID).clientIDs p =
      if p = q then (s.clientIDs q).erase clientID else s.clientIDs p := by
  unfold removeClient
  simp only
  have hloops (p : NetDev) : ((((s.onLock q .unlock).notifyAll q clientID).killAllURBs q
      clientID).freeUnreadData q clientID).clientIDs p = s.clientIDs p :=
    (((notifyAll_frame _ q clientID).trans (killAllURBs_frame _ q clientID)).trans
      (freeUnreadData_frame _ q clientID)).clientIDs p
  generalize (((s.onLock q .unlock).notifyAll q clientID).killAllURBs q clientID).freeUnreadData q
    clientID = s₁ at hloops ⊢
  rw [clientIDs_onLock, clientIDs_setTable]
  split
  · rw [← hloops q]
    exact map_eraseP_clientID clientID (s₁.mClientMemList q)
  · exact hloops p

theorem onLock_quiet (e : LockTrace.Event) : Quiet s (s.onLock q e) :=
  ⟨s.submissions_onLock q e, rfl⟩

theorem removeClient_quiet : Quiet s (s.removeClient q clientID) := by
  have hloops := (((s.onLock_quiet q .unlock).trans (notifyAll_quiet _ q clientID)).trans
    (killAllURBs_quiet _ q clientID)).trans (freeUnreadData_quiet _ q clientID)
  unfold removeClient
  exact ((hloops.trans (onLock_quiet _ q .lock)).trans (onLock_quiet _ q .touch)).trans
    ⟨by rw [submissions_onLock, submissions_setTable], rfl⟩

theorem walkClients_quiet (ids : List UInt16) : Quiet s (s.walkClients q clientID ids) := by
  induction ids generalizing s with
  | nil => exact Quiet.rfl
  | cons id ids ih =>
    have htouch := s.onLock_quiet q .touch
    unfold walkClients
    simp only
    refine Quiet.trans ?_ (ih _)
    split
    · exact (htouch.trans (removeClient_quiet _ q clientID)).trans (onLock_quiet _ q .touch)
    · exact htouch.trans (onLock_quiet _ q .touch)

theorem walkClients_clientIDs_of_not_mem {ids : List UInt16} (hid : clientID ∉ ids) (p : NetDev) :
    (s.walkClients q clientID ids).clientIDs p = s.clientIDs p := by
  induction ids generalizing s with
  | nil => rfl
  | cons id ids ih =>
    rw [List.mem_cons, not_or] at hid
    unfold walkClients
    simp only
    rw [if_neg (Ne.symm hid.1), ih _ hid.2]
    rfl

/-- A walk over distinct ids takes at most one client off its table. -/
theorem walkClients_clientIDs {ids : List UInt16} (hids : ids.Nodup) (hid : clientID ∈ ids)
    (p : NetDev) : (s.walkClients q clientID ids).clientIDs p =
      if p = q then (s.clientIDs q).erase clientID else s.clientIDs p := by
  induction ids generalizing s with
  | nil => cases hid
  | cons id ids ih =>
    obtain ⟨hnew, hids⟩ := List.nodup_cons.mp hids
    unfold walkClients
    simp only
    by_cases hne : id = clientID
    · subst hne
      rw [if_pos rfl, walkClients_clientIDs_of_not_mem _ q id hnew, clientIDs_onLock,
        removeClient_clientIDs]
      rfl
    · rw [if_neg hne]
      rcases List.mem_cons.mp hid with h | h
      · exact absurd h.symm hne
      · rw [ih _ hids h]
        rfl

theorem removeClients_clientIDs (hids : (s.clientIDs q).Nodup) (p : NetDev) :
    (s.removeClients q clientID).clientIDs p =
      if p = q then (s.clientIDs q).erase clientID else s.clientIDs p := by
  unfold removeClients
  by_cases hid : clientID ∈ s.clientIDs q
  · rw [walkClients_clientIDs _ q clientID hids hid]
    rfl
  · rw [walkClients_clientIDs_of_not_mem _ q clientID hid, List.erase_of_not_mem hid]
    split
    · rename_i hp
      rw [hp]
      rfl
    · rfl

theorem removeClients_quiet : Quiet s (s.removeClients q clientID) :=
  ((s.onLock_quiet q .lock).trans (onLock_quiet _ q .touch)).trans (walkClients_quiet _ q clientID _)

/-- What `ReleaseClientID` does to the tables of a valid device. -/
theorem releaseClientID_clientIDs (o : ReleaseOutcome) (hv : s.mbQMIValid = true)
    (hids : (s.clientIDs q).Nodup) (p : NetDev) :
    (s.releaseClientID o q clientID).clientIDs p =
      if p = q then (s.clientIDs q).erase clientID else s.clientIDs p := by
  obtain ⟨s₁, hs₁, hsame, -⟩ := s.releaseClientID_of_valid q clientID o hv
  rw [← hsame q] at hids
  rw [hs₁, removeClients_clientIDs s₁ q clientID hids p, hsame q, hsame p]

/-! ## A release without QMICTL sends nothing -/

theorem usePtr_quiet : Quiet s s.usePtr := ⟨rfl, rfl⟩

theorem nextQMICTLTransactionID_quiet : Quiet s s.nextQMICTLTransactionID.2 := ⟨rfl, rfl⟩

/-- A write for a client that is not there fails before anything is submitted. -/
theorem writeSync_of_no_client (w : WriteOutcome) (pWriteBuffer : List UInt8)
    (h : s.findClientMem q clientID = none) :
    Quiet s (writeSync w q clientID pWriteBuffer s).2 ∧
      (writeSync w q clientID pWriteBuffer s).1 < 0 := by
  have hEINVAL : -Errno.EINVAL < 0 := by decide
  have hnotAdded : (s.usePtr.addToURBList q clientID s.nextPtr w.urbListEntry).1 = false :=
    withClientMem_of_none s.usePtr q clientID false h
  have hquiet : Quiet s (s.usePtr.addToURBList q clientID s.nextPtr w.urbListEntry).2 :=
    s.usePtr_quiet.trans (withClientMem_quiet s.usePtr q clientID false)
  obtain ⟨e, hneg, hout⟩ | ⟨pBuffer, hadded⟩ := s.writeSync_cases q clientID w pWriteBuffer
  · rw [hout]
    exact ⟨Quiet.rfl, hneg⟩
  · rw [hadded, if_pos hnotAdded]
    exact ⟨hquiet, hEINVAL⟩

theorem requestRelease_of_no_qmictl (o : ReleaseOutcome) (h : qmictl ∉ s.clientIDs .mpNetDev) :
    Quiet s (s.requestRelease o clientID) := by
  have hnone : s.nextQMICTLTransactionID.2.findClientMem .mpNetDev qmictl = none :=
    (findClientMem_eq_none_iff _ .mpNetDev qmictl).mpr (.inr h)
  obtain ⟨hquiet, hneg⟩ := writeSync_of_no_client _ .mpNetDev qmictl o.write
    (qmictlReleaseClientIDReq s.nextQMICTLTransactionID.1 clientID) hnone
  unfold requestRelease
  split
  · exact Quiet.rfl
  · simp only
    rw [if_pos hneg]
    exact s.nextQMICTLTransactionID_quiet.trans hquiet

/-- A release submits nothing once QMICTL is gone, nor when it is QMICTL's own. -/
theorem releaseClientID_quiet (o : ReleaseOutcome)
    (h : clientID = qmictl ∨ qmictl ∉ s.clientIDs .mpNetDev) :
    Quiet s (s.releaseClientID o q clientID) := by
  unfold releaseClientID
  split
  · exact Quiet.rfl
  · simp only
    split
    · rename_i hne
      have hgone := h.resolve_left hne
      exact (s.requestRelease_of_no_qmictl clientID o hgone).trans (removeClients_quiet _ q clientID)
    · exact removeClients_quiet s q clientID

end SGobiUSBNet

/-- A valid device with distinct ids, whose QMICTL client is gone. -/
structure Headless (s : SGobiUSBNet) : Prop where
  mbQMIValid : s.mbQMIValid = true
  nodup : ∀ q, (s.clientIDs q).Nodup
  gone : qmictl ∉ s.clientIDs .mpNetDev

/-- From the first device to the second, the clients in `R` were released, in silence and
with the locks given back, and QMICTL is gone. -/
structure Releases (R : NetDev → UInt16 → Prop) (s s' : SGobiUSBNet) : Prop where
  headless : Headless s'
  quiet : Quiet s s'
  mem_iff : ∀ p id, id ∈ s'.clientIDs p ↔ id ∈ s.clientIDs p ∧ ¬ R p id
  locksFree : LocksFree s → LocksFree s'

namespace Releases

variable {R R' : NetDev → UInt16 → Prop} {s t u : SGobiUSBNet}

theorem trans (h : Releases R s t) (h' : Releases R' t u) :
    Releases (fun p id => R p id ∨ R' p id) s u := by
  refine ⟨h'.headless, h.quiet.trans h'.quiet, fun p id => ?_, fun hs => h'.locksFree (h.locksFree hs)⟩
  rw [h'.mem_iff p id, h.mem_iff p id, and_assoc, not_or]

theorem congr (h : Releases R s t) (hR : ∀ p, ∀ id ∈ s.clientIDs p, (R p id ↔ R' p id)) :
    Releases R' s t := by
  refine ⟨h.headless, h.quiet, fun p id => ?_, h.locksFree⟩
  rw [h.mem_iff p id]
  exact and_congr_right fun hid => not_congr (hR p id hid)

/-- Nothing was released from a device without QMICTL. -/
theorem refl (h : Headless s) : Releases (fun _ _ => False) s s :=
  ⟨h, Quiet.rfl, fun _ _ => by simp, id⟩

end Releases

namespace SGobiUSBNet

variable (s : SGobiUSBNet) (q : NetDev)

/-- One round of the walk: QMICTL itself, or any client after it. -/
theorem releaseClientID_releases (o : ReleaseOutcome) {id : UInt16} (hv : s.mbQMIValid = true)
    (hnodup : ∀ p, (s.clientIDs p).Nodup) (hid : id ∈ s.clientIDs q)
    (hctl : (q = .mpNetDev ∧ id = qmictl) ∨ qmictl ∉ s.clientIDs .mpNetDev) :
    Releases (fun p i => p = q ∧ i = id) s ((s.onLock q .touch).releaseClientID o q id) := by
  have hids := (s.onLock q .touch).releaseClientID_clientIDs q id o hv (hnodup q)
  have hquiet : Quiet s ((s.onLock q .touch).releaseClientID o q id) :=
    (s.onLock_quiet q .touch).trans (releaseClientID_quiet _ q id o (hctl.imp And.right fun h => h))
  have hmem (p : NetDev) (i : UInt16) :
      i ∈ ((s.onLock q .touch).releaseClientID o q id).clientIDs p ↔
        i ∈ s.clientIDs p ∧ ¬ (p = q ∧ i = id) := by
    rw [hids p]
    by_cases hp : p = q
    · subst hp
      rw [if_pos rfl, clientIDs_onLock, (hnodup p).mem_erase_iff]
      simp [and_comm]
    · rw [if_neg hp]
      simp [hp]
  refine ⟨⟨hquiet.mbQMIValid.trans hv, fun p => ?_, ?_⟩, hquiet, hmem, fun hs => ?_⟩
  · rw [hids p]
    split
    · exact (hnodup q).erase id
    · exact hnodup p
  · rw [hmem]
    rintro ⟨hin, hne⟩
    rcases hctl with ⟨hq, hid⟩ | hgone
    · exact hne ⟨hq.symm, hid.symm⟩
    · exact hgone hin
  · exact (releaseClientID_locksFree_iff _ q id o (s.touch_locksFree q hs)).mpr (.inr hid)

theorem releaseTable_releases (os : NetDev → UInt16 → ReleaseOutcome) {ids : List UInt16}
    (hs : Headless s) (hnodup : ids.Nodup) (hids : ∀ id ∈ ids, id ∈ s.clientIDs q) :
    Releases (fun p i => p = q ∧ i ∈ ids) s (s.releaseTable os q ids) := by
  induction ids generalizing s with
  | nil => exact (Releases.refl hs).congr fun p i _ => by simp
  | cons id ids ih =>
    obtain ⟨hnew, hnodup⟩ := List.nodup_cons.mp hnodup
    have hone := s.releaseClientID_releases q (os q id) hs.mbQMIValid hs.nodup
      (hids id List.mem_cons_self) (.inr hs.gone)
    have hrest := ih _ hone.headless hnodup fun i hi => by
      rw [hone.mem_iff]
      refine ⟨hids i (List.mem_cons_of_mem _ hi), ?_⟩
      rintro ⟨-, rfl⟩
      exact hnew hi
    refine (hone.trans hrest).congr fun p i _ => ?_
    rw [List.mem_cons, and_or_left]

/-- The walk over the primary table starts with QMICTL. -/
theorem releaseTable_primary (os : NetDev → UInt16 → ReleaseOutcome) (h : TablesOk s)
    (hv : s.mbQMIValid = true) :
    Releases (fun p i => p = .mpNetDev ∧ i ∈ s.clientIDs .mpNetDev) s
      (s.releaseTable os .mpNetDev (s.clientIDs .mpNetDev)) := by
  obtain ⟨ids, hids⟩ := List.head?_eq_some_iff.mp h.head
  have hnodup := h.nodup .mpNetDev
  rw [hids] at hnodup ⊢
  obtain ⟨hnew, hnodup⟩ := List.nodup_cons.mp hnodup
  have hone := s.releaseClientID_releases .mpNetDev (os .mpNetDev qmictl) hv h.nodup
    (by rw [hids]; exact List.mem_cons_self) (.inl ⟨rfl, rfl⟩)
  have hrest := releaseTable_releases _ .mpNetDev os hone.headless hnodup fun i hi => by
    rw [hone.mem_iff, hids]
    refine ⟨List.mem_cons_of_mem _ hi, ?_⟩
    rintro ⟨-, rfl⟩
    exact hnew hi
  refine (hone.trans hrest).congr fun p i _ => ?_
  rw [List.mem_cons, and_or_left]

theorem foldl_releaseTable_releases (os : NetDev → UInt16 → ReleaseOutcome) (qs : List NetDev)
    (hs : Headless s) :
    Releases (fun p _ => p ∈ qs) s (qs.foldl (fun s q => s.releaseTable os q (s.clientIDs q)) s) := by
  induction qs generalizing s with
  | nil => exact (Releases.refl hs).congr fun p i _ => by simp
  | cons q qs ih =>
    have hone := s.releaseTable_releases q os hs (hs.nodup q) fun _ hid => hid
    refine (hone.trans (ih _ hone.headless)).congr fun p i hi => ?_
    rw [List.mem_cons]
    constructor
    · rintro (⟨hp, -⟩ | hp)
      · exact .inl hp
      · exact .inr hp
    · rintro (rfl | hp)
      · exact .inl ⟨rfl, hi⟩
      · exact .inr hp

theorem releaseAll_releases (os : NetDev → UInt16 → ReleaseOutcome) (h : TablesOk s)
    (hv : s.mbQMIValid = true) : Releases (fun _ _ => True) s (s.releaseAll os) := by
  have hfirst := s.releaseTable_primary os h hv
  refine (hfirst.trans (foldl_releaseTable_releases _ os _ hfirst.headless)).congr
    fun p i hi => iff_true_intro ?_
  cases p with
  | mpNetDev => exact .inl ⟨rfl, hi⟩
  | mpNetMUXDev j => exact .inr (List.mem_map_of_mem (List.mem_finRange j))

end SGobiUSBNet

/-! ## The end of the clients -/

section

variable {s : SGobiUSBNet}

/-- The release of all clients empties every table, submits nothing, and gives back every
lock. -/
theorem releaseAll_spec (h : Created s) (hv : s.mbQMIValid = true)
    (os : NetDev → UInt16 → ReleaseOutcome) :
    (∀ q, (s.releaseAll os).clientIDs q = []) ∧ Quiet s (s.releaseAll os) ∧
      (LocksFree s → LocksFree (s.releaseAll os)) := by
  have hall := s.releaseAll_releases os h.tablesOk hv
  refine ⟨fun q => List.eq_nil_iff_forall_not_mem.mpr fun id hid => ?_, hall.quiet, hall.locksFree⟩
  exact ((hall.mem_iff q id).mp hid).2 trivial

/-- A close that comes to `ReleaseClientID`: of a file with a client, which no other task
has open. -/
def File.ReleasesClient (f : File) : Prop :=
  (f.fileCount = 1 ∨ f.used = 0) ∧ ∃ d, f.privateData = some d ∧ d.mClientID ≠ 0xFFFF

/-- What `UserspaceClose` does to a valid device. -/
theorem userspaceClose_cases (hv : s.mbQMIValid = true) (o : ReleaseOutcome) (f : File) :
    (¬ f.ReleasesClient ∧ (s.userspaceClose o f).2 = s) ∨
      (f.ReleasesClient ∧ ∃ q clientID,
        (s.userspaceClose o f).2 = s.releaseClientID o q clientID) := by
  unfold SGobiUSBNet.userspaceClose File.ReleasesClient
  cases hd : f.privateData with
  | none => exact .inl ⟨by simp, rfl⟩
  | some d =>
    simp only
    by_cases hused : f.fileCount ≠ 1 ∧ 0 < f.used
    · rw [if_pos hused]
      refine .inl ⟨?_, rfl⟩
      rintro ⟨hone | hzero, -⟩
      · exact hused.1 hone
      · exact absurd hzero (Nat.pos_iff_ne_zero.mp hused.2)
    · rw [if_neg hused, if_neg (by rw [hv]; exact Bool.noConfusion)]
      by_cases hid : d.mClientID ≠ 0xFFFF
      · rw [if_pos hid]
        exact .inr ⟨⟨by omega, d, rfl, hid⟩, d.qmiDev, d.mClientID, rfl⟩
      · rw [if_neg hid]
        refine .inl ⟨?_, rfl⟩
        rintro ⟨-, d', hd', hid'⟩
        rw [Option.some.injEq] at hd'
        exact hid (hd' ▸ hid')

/-- **A file with a client that is closed by force after the release of all clients leaves
the lock of its table held.** -/
theorem userspaceClose_after_releaseAll (h : Created s) (hv : s.mbQMIValid = true)
    (hfree : LocksFree s) (os : NetDev → UInt16 → ReleaseOutcome) (o : ReleaseOutcome) (f : File) :
    LocksFree ((s.releaseAll os).userspaceClose o f).2 ↔ ¬ f.ReleasesClient := by
  obtain ⟨hempty, hquiet, hlocks⟩ := releaseAll_spec h hv os
  have hfree := hlocks hfree
  have hv := hquiet.mbQMIValid.trans hv
  rcases userspaceClose_cases hv o f with ⟨hno, hsame⟩ | ⟨hyes, q, clientID, hrel⟩
  · rw [hsame]
    exact iff_of_true hfree hno
  · rw [hrel, SGobiUSBNet.releaseClientID_locksFree_iff _ q clientID o hfree, hv, hempty q]
    simp [hyes]

/-- The request to the modem succeeds. -/
def ReleaseOutcome.success : ReleaseOutcome := ⟨true, .success, .woken [⟨0, 2⟩] true .noMemory⟩

/-- The device node of the client is still open when the device goes away. -/
theorem forced_close_leaves_lock_held :
    let s := { SGobiUSBNet.withClient with mbCdevIsInitialized := true, trace := [] }
    let pFilp : File := ⟨some ⟨0x0101, .mpNetDev⟩, 1, 0⟩
    ((s.deregisterQMIDevice (fun _ _ => .success) [(.success, pFilp)]).lockStatus
        .mpNetDev).held = true ∧
      ¬ ∀ p, Disciplined (((s.releaseAll fun _ _ => .success).newTrace.releaseClientID .success
        .mpNetDev 0x0101).lockEvents p) := by
  refine ⟨by decide +kernel, fun hdisc => ?_⟩
  exact absurd (hdisc .mpNetDev) (by decide +kernel)

/-! ## The requests that are never sent -/

/-- The request to release an id was submitted. -/
def Requested (clientID : UInt16) (s : SGobiUSBNet) : Prop :=
  ∃ transactionID pBuffer,
    fillQMUX qmictl (qmictlReleaseClientIDReq transactionID clientID) = some pBuffer ∧
      pBuffer ∈ s.submissions

/-- A close after the release of all clients submits nothing. -/
theorem Headless.userspaceClose (h : Headless s) (o : ReleaseOutcome) (f : File) :
    Headless (s.userspaceClose o f).2 ∧ Quiet s (s.userspaceClose o f).2 := by
  rcases userspaceClose_cases h.mbQMIValid o f with ⟨-, hsame⟩ | ⟨-, q, clientID, hrel⟩
  · rw [hsame]
    exact ⟨h, Quiet.rfl⟩
  · have hquiet := s.releaseClientID_quiet q clientID o (.inr h.gone)
    have hids := s.releaseClientID_clientIDs q clientID o h.mbQMIValid (h.nodup q)
    rw [hrel]
    refine ⟨⟨hquiet.mbQMIValid.trans h.mbQMIValid, fun p => ?_, ?_⟩, hquiet⟩
    · rw [hids p]
      split
      · exact (h.nodup q).erase clientID
      · exact h.nodup p
    · rw [hids]
      split
      · rename_i hq
        intro hin
        exact h.gone (hq ▸ List.mem_of_mem_erase hin)
      · exact h.gone

theorem Headless.closeAll (h : Headless s) (files : List (ReleaseOutcome × File)) :
    Quiet s (files.foldl (fun s f => (s.userspaceClose f.1 f.2).2) s) := by
  induction files generalizing s with
  | nil => exact Quiet.rfl
  | cons f files ih =>
    obtain ⟨hnext, hquiet⟩ := h.userspaceClose f.1 f.2
    exact hquiet.trans (ih hnext)

/-- The teardown of a registered device submits no URB at all. -/
theorem deregisterQMIDevice_submissions (h : Created s) (hv : s.mbQMIValid = true)
    (os : NetDev → UInt16 → ReleaseOutcome) (files : List (ReleaseOutcome × File)) :
    (s.deregisterQMIDevice os files).submissions = s.submissions := by
  have hall := s.releaseAll_releases os h.tablesOk hv
  have hclose := hall.headless.closeAll files
  unfold SGobiUSBNet.deregisterQMIDevice
  split
  · rfl
  · simp only
    split
    · exact hall.quiet.submissions
    · exact (hall.quiet.trans hclose).submissions

/-- **Teardown asks the modem to release every client id exactly if there is no client but
QMICTL.** -/
theorem deregisterQMIDevice_requests_iff (h : Created s) (hv : s.mbQMIValid = true)
    (os : NetDev → UInt16 → ReleaseOutcome) (files : List (ReleaseOutcome × File)) :
    (∀ q, ∀ id ∈ s.clientIDs q, id ≠ qmictl →
        Requested id (s.newTrace.deregisterQMIDevice os files)) ↔
      ∀ q, ∀ id ∈ s.clientIDs q, id = qmictl := by
  have hnew : Created s.newTrace := h.work fun _ => rfl
  have hnone := deregisterQMIDevice_submissions hnew hv os files
  constructor
  · intro hall q id hid
    by_contra hne
    obtain ⟨transactionID, pBuffer, -, hsub⟩ := hall q id hid hne
    rw [hnone] at hsub
    exact absurd hsub (List.not_mem_nil)
  · intro hall q id hid hne
    exact absurd (hall q id hid) hne

theorem deregisterQMIDevice_requests_iff_withClient :
    (∀ q, ∀ id ∈ SGobiUSBNet.withClient.clientIDs q, id ≠ qmictl → Requested id
        (SGobiUSBNet.withClient.newTrace.deregisterQMIDevice (fun _ _ => .success) [])) ↔
      ∀ q, ∀ id ∈ SGobiUSBNet.withClient.clientIDs q, id = qmictl :=
  deregisterQMIDevice_requests_iff SGobiUSBNet.withClient_created (by decide +kernel) _ []

/-- The WDS client is there, and nothing is sent for it. -/
theorem deregisterQMIDevice_forgets_client :
    ¬ ∀ q, ∀ id ∈ SGobiUSBNet.withClient.clientIDs q, id ≠ qmictl → Requested id
      (SGobiUSBNet.withClient.newTrace.deregisterQMIDevice (fun _ _ => .success) []) := by
  intro hall
  obtain ⟨transactionID, pBuffer, -, hsub⟩ := hall .mpNetDev 0x0101 (by decide +kernel)
    (by decide)
  have hnone : (SGobiUSBNet.withClient.newTrace.deregisterQMIDevice (fun _ _ => .success)
      []).submissions = [] := by decide +kernel
  rw [hnone] at hsub
  exact absurd hsub List.not_mem_nil

end

end UsbNet
