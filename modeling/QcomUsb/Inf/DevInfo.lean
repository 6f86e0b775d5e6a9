-- SUMMARY: The device table filled from an INF file, and which of its bytes a line of the string section writes.
import QcomUsb.Library.Memory
import QcomUsb.Library.CString
import QcomUsb.Library.LinearSearch

/-!
# The device table

`fileInfo_t` ends in an array of `devInfo_t`. The array is a memory of bytes here, for the
functions write at addresses they compute. A log keeps the bytes written.
-/

namespace Inf

open Memory CString LinearSearch

/-- `QTIDEV_INF_MAX_KEY_SIZE`. -/
def maxKeySize : Nat := 64

/-- `deviceClass`. -/
inductive DeviceClass where
  | net | modem | ports | usb | unknown
deriving DecidableEq

/-- `fileInfo_t`, with the bytes of `mDevInfo` and the log of the writes to them. -/
structure FileInfo where
  mClass : DeviceClass
  mLength : Nat
  mNumResp : Nat
  mDevInfo : Nat → UInt8
  writes : List (Nat × UInt8)

/-! ## The layout of `devInfo_t` -/

/-- `mDevType` of the entry `j`. -/
def devTypeAt (j : Nat) : Nat := 80 * j

/-- `mpKey` of the entry `j`. -/
def keyAt (j : Nat) : Nat := 80 * j + 4

/-- `mVid_pid_iface[i]` of the entry `j`. -/
def vidPidIfaceAt (j i : Nat) : Nat := 80 * j + 68 + 4 * i

namespace FileInfo

def store (f : FileInfo) (a : Nat) (v : UInt8) : FileInfo :=
  { f with mDevInfo := Function.update f.mDevInfo a v, writes := f.writes ++ [(a, v)] }

def storeBytes (f : FileInfo) (a : Nat) : List UInt8 → FileInfo
  | [] => f
  | v :: vs => (f.store a v).storeBytes (a + 1) vs

/-- An `int`, least significant byte first. -/
def storeInt (f : FileInfo) (a : Nat) (v : UInt32) : FileInfo :=
  f.storeBytes a [v.toUInt8, (v >>> 8).toUInt8, (v >>> 16).toUInt8, (v >>> 24).toUInt8]

end FileInfo

/-- `strncpy0`: the string cut or filled up to `size` bytes, the last of them zero. -/
def strncpy0 (src : List UInt8) (size : Nat) : List UInt8 :=
  src.take (size - 1) ++ List.replicate (size - min src.length (size - 1)) 0

/-- `strncmp` of the bytes at `a` with a string: whether it answers zero. -/
def strncmpEq (mem : Nat → UInt8) : Nat → Nat → List UInt8 → Bool
  | 0, _, _ => true
  | n + 1, a, s =>
    let c := s.headD 0
    if mem a ≠ c then false else if c = 0 then true else strncmpEq mem n (a + 1) s.tail

/-! ## `updateDevStringInfo` -/

/-- A byte copied by `extractDevName`. -/
def devNameByte (c : UInt8) : UInt8 := if c = 32 ∨ c = 40 ∨ c = 41 then 95 else c

/-- The bytes `extractDevName` writes: at most `len` of the string, and a zero. -/
def extractDevName (src : List UInt8) (len : Nat) : List UInt8 :=
  (src.take len).map devNameByte ++ [0]

/-- The search loop: the entry it stops at, from the entry `i` on. -/
def findEntry (f : FileInfo) (key : List UInt8) : Nat → Nat → Nat
  | 0, i => i
  | n + 1, i =>
    if strncmpEq f.mDevInfo maxKeySize (keyAt i) key then i else findEntry f key n (i + 1)

/-- `updateDevStringInfo`. The loop goes one entry past `mNumResp`. -/
def updateDevStringInfo (f : FileInfo) (key value : List UInt8) : FileInfo :=
  let i := findEntry f key (f.mNumResp + 1) 0
  let f := f.storeBytes (keyAt i) (extractDevName value maxKeySize)
  -- an empty name becomes `QTIDEV_INF_DEFAULT_VENDOR`, cut by its own length
  if f.mDevInfo (keyAt i) = 0 then (f.storeBytes (keyAt i) [81, 84, 73]).store (keyAt i + 2) 0
  else f

/-! ## What a write does -/

/-- The writes `w` lead from `f` to `f'`. -/
structure Logged (f f' : FileInfo) (w : List (Nat × UInt8)) : Prop where
  mClass : f'.mClass = f.mClass
  mLength : f'.mLength = f.mLength
  mNumResp : f'.mNumResp = f.mNumResp
  writes : f'.writes = f.writes ++ w
  frame : ∀ a, (∀ p ∈ w, p.1 ≠ a) → f'.mDevInfo a = f.mDevInfo a

namespace Logged

variable {f f' f'' : FileInfo} {w w' : List (Nat × UInt8)}

theorem refl (f : FileInfo) : Logged f f [] := ⟨rfl, rfl, rfl, by simp, fun _ _ => rfl⟩

theorem trans (h : Logged f f' w) (h' : Logged f' f'' w') : Logged f f'' (w ++ w') where
  mClass := h'.mClass.trans h.mClass
  mLength := h'.mLength.trans h.mLength
  mNumResp := h'.mNumResp.trans h.mNumResp
  writes := by rw [h'.writes, h.writes, List.append_assoc]
  frame := by
    intro a ha
    rw [h'.frame a fun p hp => ha p (List.mem_append_right _ hp)]
    exact h.frame a fun p hp => ha p (List.mem_append_left _ hp)

theorem store (f : FileInfo) (a : Nat) (v : UInt8) : Logged f (f.store a v) [(a, v)] where
  mClass := rfl
  mLength := rfl
  mNumResp := rfl
  writes := rfl
  frame := by
    intro b hb
    have hne : b ≠ a := fun heq => hb (a, v) List.mem_cons_self heq.symm
    simp [FileInfo.store, hne]

theorem storeBytes (f : FileInfo) (a : Nat) (vs : List UInt8) :
    Logged f (f.storeBytes a vs) ((vs.zipIdx a).map Prod.swap) := by
  induction vs generalizing f a with
  | nil => exact refl f
  | cons v vs ih => exact (store f a v).trans (ih (f.store a v) (a + 1))

end Logged

/-- The addresses written for some bytes. -/
theorem mem_zipIdx_swap {a : Nat} {vs : List UInt8} {p : Nat × UInt8}
    (hp : p ∈ (vs.zipIdx a).map Prod.swap) : a ≤ p.1 ∧ p.1 < a + vs.length := by
  obtain ⟨⟨v, i⟩, hmem, rfl⟩ := List.mem_map.mp hp
  have hmem' := List.mem_zipIdx hmem
  exact ⟨hmem'.1, hmem'.2.1⟩

/-! ## Which entry a line of the string section names -/

/-- The key of the entry `j`, as far as its field holds it. -/
def FileInfo.key (f : FileInfo) (j : Nat) : List UInt8 :=
  (slice f.mDevInfo (keyAt j) maxKeySize).takeWhile (· ≠ 0)

/-- The entry `j` has the key of the line. -/
def FileInfo.HasKey (f : FileInfo) (key : List UInt8) (j : Nat) : Prop :=
  f.key j = key.take maxKeySize

instance (f : FileInfo) (key : List UInt8) (j : Nat) : Decidable (f.HasKey key j) :=
  inferInstanceAs (Decidable (_ = _))

theorem strncmpEq_iff {mem : Nat → UInt8} {n a : Nat} {s : List UInt8} (hs : 0 ∉ s) :
    strncmpEq mem n a s ↔ (slice mem a n).takeWhile (· ≠ 0) = s.take n := by
  induction n generalizing a s with
  | zero => simp [strncmpEq, slice]
  | succ n ih =>
    have hsplit : slice mem a (n + 1) = mem a :: slice mem (a + 1) n := by
      rw [Nat.add_comm, slice_add]
      simp [slice]
    rw [hsplit]
    cases s with
    | nil =>
      by_cases hzero : mem a = 0 <;> simp [strncmpEq, hzero]
    | cons c s =>
      have hc : c ≠ 0 := fun heq => hs (by simp [heq])
      have ih' := ih (a := a + 1) (fun hmem => hs (List.mem_cons_of_mem c hmem))
      by_cases heq : mem a = c
      · simp [strncmpEq, heq, hc, ih']
      · by_cases hzero : mem a = 0 <;> simp [strncmpEq, heq, hzero, hc.symm]

theorem hasKey_iff {f : FileInfo} {key : List UInt8} (hkey : 0 ∉ key) {j : Nat} :
    strncmpEq f.mDevInfo maxKeySize (keyAt j) key ↔ f.HasKey key j :=
  strncmpEq_iff hkey

theorem findEntry_eq (f : FileInfo) (key : List UInt8) (n i : Nat) :
    findEntry f key n i = search (fun j => strncmpEq f.mDevInfo maxKeySize (keyAt j) key) n i := by
  induction n generalizing i with
  | zero => rfl
  | succ n ih => rw [findEntry, search, ih]

/-- The search stops at the first entry with the key, or at its end. -/
theorem findEntry_spec {f : FileInfo} {key : List UInt8} (hkey : 0 ∉ key) (n i : Nat) :
    i ≤ findEntry f key n i ∧ findEntry f key n i ≤ i + n ∧
      (∀ k, i ≤ k → k < findEntry f key n i → ¬f.HasKey key k) ∧
      (findEntry f key n i < i + n → f.HasKey key (findEntry f key n i)) := by
  rw [findEntry_eq]
  refine ⟨le_search _ n i, search_le _ n i, fun k hle hlt => ?_, fun hlt => ?_⟩
  · exact fun hhas => not_of_lt_search hle hlt ((hasKey_iff hkey).mpr hhas)
  · exact (hasKey_iff hkey).mp (search_prop hlt)

/-! ## Where a line of the string section writes -/

variable {f : FileInfo} {key value : List UInt8}

/-- The entry a line of the string section writes to. -/
def FileInfo.renamed (f : FileInfo) (key : List UInt8) : Nat := findEntry f key (f.mNumResp + 1) 0

theorem extractDevName_length (src : List UInt8) (len : Nat) :
    (extractDevName src len).length = min len src.length + 1 := by
  simp [extractDevName]

/-- The terminator is stored behind the name, and nothing further off than it or the default
name reach. -/
theorem updateDevStringInfo_logged (f : FileInfo) (key value : List UInt8) :
    ∃ w, Logged f (updateDevStringInfo f key value) w ∧
      (keyAt (f.renamed key) + min maxKeySize value.length, 0) ∈ w ∧
      ∀ p ∈ w, keyAt (f.renamed key) ≤ p.1 ∧
        p.1 ≤ keyAt (f.renamed key) + max 2 (min maxKeySize value.length) := by
  set a := keyAt (f.renamed key) with ha
  set m := min maxKeySize value.length with hm
  have hname := Logged.storeBytes f a (extractDevName value maxKeySize)
  have hnul : (a + m, 0) ∈ ((extractDevName value maxKeySize).zipIdx a).map Prod.swap := by
    refine List.mem_map.mpr ⟨(0, a + m), List.mem_zipIdx_iff_le_and_getElem?_sub.mpr ?_, rfl⟩
    simp [extractDevName, hm]
  have hin : ∀ p ∈ ((extractDevName value maxKeySize).zipIdx a).map Prod.swap,
      a ≤ p.1 ∧ p.1 ≤ a + max 2 m := by
    intro p hp
    have hbound := mem_zipIdx_swap hp
    rw [extractDevName_length, ← hm] at hbound
    omega
  rw [updateDevStringInfo, ← FileInfo.renamed, ← ha]
  split
  · refine ⟨_, (hname.trans (.storeBytes _ a [81, 84, 73])).trans (.store _ (a + 2) 0),
      List.mem_append_left _ (List.mem_append_left _ hnul), fun p hp => ?_⟩
    rcases List.mem_append.mp hp with hp | hp
    · rcases List.mem_append.mp hp with hp | hp
      · exact hin p hp
      · have hbound := mem_zipIdx_swap hp
        rw [List.length_cons, List.length_cons, List.length_singleton] at hbound
        omega
    · rw [List.mem_singleton.mp hp]
      exact ⟨Nat.le_add_right _ _, Nat.add_le_add_left (Nat.le_max_left 2 m) a⟩
  · exact ⟨_, hname, hnul, hin⟩

/-- A line whose key an entry has writes to such an entry. -/
theorem renamed_spec (hkey : 0 ∉ key) {j : Nat} (hj : j < f.mNumResp) (hhas : f.HasKey key j) :
    f.renamed key < f.mNumResp ∧ f.HasKey key (f.renamed key) := by
  obtain ⟨-, -, hbefore, hfound⟩ := findEntry_spec (f := f) hkey (f.mNumResp + 1) 0
  have hle : f.renamed key ≤ j := by
    by_contra hlt
    exact hbefore j (Nat.zero_le j) (Nat.not_le.mp hlt) hhas
  have hlt : f.renamed key < f.mNumResp := Nat.lt_of_le_of_lt hle hj
  refine ⟨hlt, hfound ?_⟩
  rw [Nat.zero_add]
  exact Nat.lt_succ_of_lt hlt

/-! ## Only the entries named are renamed -/

/-- The line `key = value` of the string section changes the name of an entry with that key at
most. -/
structure OnlyRenames (f : FileInfo) (key value : List UInt8) : Prop where
  /-- What is written lies in the name of one entry of the table that has the key. -/
  written : ∃ w, (updateDevStringInfo f key value).writes = f.writes ++ w ∧
    (w = [] ∨ ∃ j < f.mNumResp, f.HasKey key j ∧
      ∀ p ∈ w, keyAt j ≤ p.1 ∧ p.1 < keyAt j + maxKeySize)
  /-- Nothing is written where no entry has the key. -/
  unnamed : (¬∃ j < f.mNumResp, f.HasKey key j) →
    (updateDevStringInfo f key value).writes = f.writes
  devType : ∀ j, ∀ k < 4, (updateDevStringInfo f key value).mDevInfo (devTypeAt j + k) =
    f.mDevInfo (devTypeAt j + k)
  vidPidIface : ∀ j, ∀ i < 3, ∀ k < 4,
    (updateDevStringInfo f key value).mDevInfo (vidPidIfaceAt j i + k) =
      f.mDevInfo (vidPidIfaceAt j i + k)

/-- A line of the string section changes the name of an entry it names at most, exactly when
it names one and its value leaves room for the terminator. -/
theorem onlyRenames_iff (hkey : 0 ∉ key) :
    OnlyRenames f key value ↔
      (∃ j < f.mNumResp, f.HasKey key j) ∧ value.length < maxKeySize := by
  obtain ⟨w, hlog, hnul, hin⟩ := updateDevStringInfo_logged f key value
  constructor
  · intro honly
    obtain ⟨w', hw', hinside⟩ := honly.written
    have hw : w' = w := List.append_cancel_left (hw'.symm.trans hlog.writes)
    subst hw
    rcases hinside with rfl | ⟨j, hj, hhas, hname⟩
    · exact absurd hnul List.not_mem_nil
    · have hbound := hname _ hnul
      simp only [keyAt, maxKeySize] at hbound ⊢
      exact ⟨⟨j, hj, hhas⟩, by omega⟩
  · rintro ⟨⟨j, hj, hhas⟩, hlen⟩
    obtain ⟨hlt, hhas'⟩ := renamed_spec hkey hj hhas
    have hname : ∀ p ∈ w, keyAt (f.renamed key) ≤ p.1 ∧
        p.1 < keyAt (f.renamed key) + maxKeySize := by
      intro p hp
      have hbound := hin p hp
      rw [maxKeySize] at hlen hbound ⊢
      omega
    refine ⟨⟨w, hlog.writes, .inr ⟨_, hlt, hhas', hname⟩⟩,
      fun hnone => absurd ⟨j, hj, hhas⟩ hnone,
      fun k b hb => hlog.frame _ fun p hp heq => ?_,
      fun k i hi b hb => hlog.frame _ fun p hp heq => ?_⟩
    · have hbound := hname p hp
      simp only [keyAt, maxKeySize, devTypeAt] at hbound heq
      omega
    · have hbound := hname p hp
      simp only [keyAt, maxKeySize, vidPidIfaceAt] at hbound heq
      omega

/-- A table of one entry with the key `a`, a vendor id that is not zero, and room for no more. -/
def oneDevice : FileInfo where
  mClass := .ports
  mLength := 1
  mNumResp := 1
  mDevInfo a := if a = keyAt 0 then 97 else if a = vidPidIfaceAt 0 0 then 5 else 0
  writes := []

theorem onlyRenames_named : OnlyRenames oneDevice [97] [88] :=
  (onlyRenames_iff (by decide)).mpr ⟨⟨0, by decide, by decide⟩, by decide⟩

/-- A line that names no device writes behind the table, and the terminator of a long value
goes over the vendor id. -/
theorem rename_escapes :
    ¬OnlyRenames oneDevice [98] [88] ∧ ¬OnlyRenames oneDevice [97] (List.replicate 64 88) := by
  constructor
  · intro honly
    have hnone : ¬∃ j < oneDevice.mNumResp, oneDevice.HasKey [98] j := by decide
    have hwrites : (updateDevStringInfo oneDevice [98] [88]).writes ≠ oneDevice.writes := by
      decide
    exact hwrites (honly.unnamed hnone)
  · intro honly
    have hzero : (updateDevStringInfo oneDevice [97] (List.replicate 64 88)).mDevInfo
        (vidPidIfaceAt 0 0 + 0) ≠ oneDevice.mDevInfo (vidPidIfaceAt 0 0 + 0) := by
      decide +kernel
    exact hzero (honly.vidPidIface 0 0 (by decide) 0 (by decide))

end Inf
