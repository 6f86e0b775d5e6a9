-- SUMMARY: The pass that counts the devices of an INF file and the pass that stores them, side by side, and when they agree.
import QcomUsb.Inf.Parser

/-!
# The two passes over an INF file

`QTIDevInfEntrySize` counts the lines of the model section, and `QTIDevInfParse` stores them in
an array of that size. Both run `processData`, which treats a header, a full table and an error
differently in the two.
-/

namespace Inf

open CString

/-! ## The two entry points -/

/-- `QTIDevInfEntrySize`, on a file that can be opened: `getInfEntryCount` as an `int`. -/
def qtiDevInfEntrySize (file : List UInt8) : Option Int :=
  (processData none file false).map fun r => r.ret.toInt32.toInt

/-- `QTIDevInfParse`, on a file that can be opened. An error of `processData` is only logged. -/
def qtiDevInfParse (file : List UInt8) (info : FileInfo) : Option (Int × Option FileInfo) :=
  (processData (some info) file true).map fun r => (0, r.info)

/-- The table that the caller allocates for `n` entries. -/
def freshTable (mClass : DeviceClass) (mem : Nat → UInt8) (n : Nat) : FileInfo :=
  ⟨mClass, n, 0, mem, []⟩

/-! ## What a line is -/

/-- What the text of a line is to the loop. -/
inductive Line where
  | blank
  | header (rest : List UInt8)
  | pair (name value : List UInt8)

def lineOf (text : List UInt8) : Line :=
  match strip text with
  | [] => .blank
  | c :: t =>
    if !notComment c then .blank
    else if c = 91 then .header t
    else .pair (nameOf (c :: t)) (valueOf (c :: t))

theorem processText_eq (flag : Bool) (s : State) (text : List UInt8) :
    processText flag s text =
      match lineOf text with
      | .blank => .inr s
      | .header t =>
        if flag = false ∧ s.sectionInfo = .deviceInfo then .inl s.result
        else if 93 ∈ t then .inr (openSection s (t.takeWhile notEnd))
        else .inl s.error
      | .pair name value =>
        if s.sectionInfo ≠ .unknown ∧ s.filevalid then .inr (keyValue flag s name value)
        else .inr s := by
  rw [processText, lineOf]
  cases strip text with
  | nil => rfl
  | cons c t =>
    simp only
    by_cases hcomment : (!notComment c) = true
    · rw [if_pos hcomment, if_pos hcomment]
    · rw [if_neg hcomment, if_neg hcomment]
      by_cases hsection : c = 91
      · rw [if_pos hsection, if_pos hsection]
      · rw [if_neg hsection, if_neg hsection]

/-- The pair that a line hands to the `switch`. -/
def pairOf (s : State) (text : List UInt8) : Option (List UInt8 × List UInt8) :=
  match lineOf text with
  | .pair name value => if s.sectionInfo ≠ .unknown ∧ s.filevalid then some (name, value) else none
  | _ => none

/-- The pairs that a pass hands to the `switch`, each with the state it meets. -/
def pairs (flag : Bool) : State → List (List UInt8) → List (State × List UInt8 × List UInt8)
  | _, [] => []
  | s, text :: texts =>
    ((pairOf s text).map fun p => (s, p)).toList ++
      match processText flag s text with
      | .inl _ => []
      | .inr s => pairs flag s texts

/-- A pass stops at a header that does not end. -/
def Malformed (flag : Bool) : State → List (List UInt8) → Prop
  | _, [] => False
  | s, text :: texts =>
    match processText flag s text with
    | .inl _ => ¬(flag = false ∧ s.sectionInfo = .deviceInfo)
    | .inr s => Malformed flag s texts

/-- The lines of the model section, as the pass that counts meets them. -/
def countedFrom (s : State) (texts : List (List UInt8)) : List (List UInt8 × List UInt8) :=
  (pairs false s texts).filterMap fun p =>
    if p.1.sectionInfo = .deviceInfo then some p.2 else none

/-- The index that a pair of the parse pass is stored at. -/
def storeIndex (s : State) : Option Nat :=
  if s.sectionInfo = .deviceInfo then
    s.info.bind fun f => if f.mLength ≤ f.mNumResp then none else some f.mNumResp
  else none

/-- The pairs that the parse pass stores, with the entries they are stored in. -/
def storedFrom (s : State) (texts : List (List UInt8)) : List (Nat × List UInt8 × List UInt8) :=
  (pairs true s texts).filterMap fun p => (storeIndex p.1).map fun j => (j, p.2)

/-! ## The count -/

theorem countedFrom_cons (s : State) (text : List UInt8) (texts : List (List UInt8)) :
    countedFrom s (text :: texts) =
      (if s.sectionInfo = .deviceInfo then (pairOf s text).toList else []) ++
        match processText false s text with
        | .inl _ => []
        | .inr s => countedFrom s texts := by
  rw [countedFrom, pairs, List.filterMap_append]
  congr 1
  · cases pairOf s text with
    | none => simp
    | some p => by_cases h : s.sectionInfo = .deviceInfo <;> simp [h]
  · cases processText false s text <;> rfl

theorem storedFrom_cons (s : State) (text : List UInt8) (texts : List (List UInt8)) :
    storedFrom s (text :: texts) =
      ((pairOf s text).bind fun p => (storeIndex s).map fun j => (j, p)).toList ++
        match processText true s text with
        | .inl _ => []
        | .inr s => storedFrom s texts := by
  rw [storedFrom, pairs, List.filterMap_append]
  congr 1
  · cases pairOf s text with
    | none => rfl
    | some p => cases h : storeIndex s <;> simp [h]
  · cases processText true s text <;> rfl

/-- What a line of the count pass adds to the count. -/
theorem count_processText {s s' : State} {text : List UInt8}
    (h : processText false s text = .inr s') :
    s'.count = s.count + UInt32.ofNat
      (if s.sectionInfo = .deviceInfo then (pairOf s text).toList else []).length := by
  rw [processText_eq] at h
  rw [pairOf]
  cases hline : lineOf text with
  | blank =>
    rw [hline] at h
    cases h
    simp
  | header t =>
    rw [hline] at h
    simp only at h
    split at h
    · cases h
    · split at h
      · cases h
        rw [openSection]
        simp only [Option.toList_none, ite_self, List.length_nil]
        split_ifs <;> exact (UInt32.add_zero _).symm
      · cases h
  | pair name value =>
    rw [hline] at h
    simp only at h ⊢
    by_cases hknown : s.sectionInfo ≠ .unknown ∧ s.filevalid = true
    · rw [if_pos hknown] at h ⊢
      cases h
      rw [keyValue]
      cases hsection : s.sectionInfo <;> simp
    · rw [if_neg hknown] at h ⊢
      cases h
      simp

/-- The count pass is left at a header, with the count or with an error. -/
theorem inl_processText {flag : Bool} {s : State} {text : List UInt8} {r : Result}
    (h : processText flag s text = .inl r) :
    pairOf s text = none ∧
      r = if flag = false ∧ s.sectionInfo = .deviceInfo then s.result else s.error := by
  rw [processText_eq] at h
  rw [pairOf]
  cases hline : lineOf text with
  | blank =>
    rw [hline] at h
    cases h
  | header t =>
    rw [hline] at h
    simp only at h
    split at h
    case isTrue hbreak =>
      cases h
      exact ⟨rfl, (if_pos hbreak).symm⟩
    case isFalse hbreak =>
      split at h
      · cases h
      · cases h
        exact ⟨rfl, (if_neg hbreak).symm⟩
  | pair name value =>
    rw [hline] at h
    simp only at h
    split at h <;> cases h

theorem ret_of_malformed {s : State} {texts : List (List UInt8)} (h : Malformed false s texts) :
    (processTexts false s texts).ret = -1 := by
  induction texts generalizing s with
  | nil => exact absurd h id
  | cons text texts ih =>
    rw [Malformed] at h
    rw [processTexts]
    cases hstep : processText false s text with
    | inl r =>
      rw [hstep] at h
      have hgo : ¬(false = false ∧ s.sectionInfo = .deviceInfo) := h
      simp only
      rw [(inl_processText hstep).2, if_neg hgo]
      rfl
    | inr s' =>
      rw [hstep] at h
      exact ih h

/-- The count pass returns the number of lines it has met in the model section. -/
theorem ret_of_not_malformed {s : State} {texts : List (List UInt8)}
    (h : ¬Malformed false s texts) :
    (processTexts false s texts).ret = s.count + UInt32.ofNat (countedFrom s texts).length := by
  induction texts generalizing s with
  | nil => exact (UInt32.add_zero _).symm
  | cons text texts ih =>
    rw [Malformed] at h
    rw [processTexts, countedFrom_cons, List.length_append]
    cases hstep : processText false s text with
    | inl r =>
      rw [hstep] at h
      have hbreak : false = false ∧ s.sectionInfo = .deviceInfo := not_not.mp h
      obtain ⟨hnone, hr⟩ := inl_processText hstep
      simp only
      rw [hr, if_pos hbreak, hnone]
      simp [State.result]
    | inr s' =>
      rw [hstep] at h
      simp only at h ⊢
      rw [ih h, count_processText hstep, UInt32.ofNat_add, UInt32.add_assoc]

/-! ## What the parse pass does to the table -/

theorem storeIds_logged (m : Nat) {n idx : Nat} (hle : idx + n ≤ 3) (data : List UInt8)
    (f : FileInfo) :
    ∃ w, Logged f (storeIds m n idx data f) w ∧
      ∀ p ∈ w, vidPidIfaceAt m 0 ≤ p.1 ∧ p.1 < vidPidIfaceAt m 3 := by
  induction n generalizing idx data f with
  | zero => exact ⟨[], .refl f, fun p hp => absurd hp List.not_mem_nil⟩
  | succ n ih =>
    rw [storeIds]
    cases (strsep data 95).2 with
    | none => exact ⟨[], .refl f, fun p hp => absurd hp List.not_mem_nil⟩
    | some rest =>
      obtain ⟨w, hlog, hin⟩ := ih (show idx + 1 + n ≤ 3 by omega) rest
        (f.storeInt (vidPidIfaceAt m idx) (strtoul16 rest))
      refine ⟨_, (Logged.storeBytes f _ _).trans hlog, fun p hp => ?_⟩
      rcases List.mem_append.mp hp with hp | hp
      · have hbound := mem_zipIdx_swap hp
        simp only [List.length_cons, List.length_nil, vidPidIfaceAt] at hbound ⊢
        omega
      · exact hin p hp

theorem strncpy0_length (src : List UInt8) {size : Nat} (hsize : 0 < size) :
    (strncpy0 src size).length = size := by
  rw [strncpy0, List.length_append, List.length_take, List.length_replicate]
  omega

/-- A device line is stored in the entry behind those there are. -/
theorem updateDeviceInfo_logged {f : FileInfo} (hroom : ¬f.mNumResp > f.mLength)
    (key value : List UInt8) :
    ∃ g w, Logged f g w ∧ updateDeviceInfo f key value = { g with mNumResp := f.mNumResp + 1 } ∧
      ∀ p ∈ w, devTypeAt f.mNumResp ≤ p.1 ∧ p.1 < devTypeAt (f.mNumResp + 1) := by
  rw [updateDeviceInfo, if_neg hroom]
  set m := f.mNumResp
  have hint (f : FileInfo) (v : UInt32) : ∃ w, Logged f (f.storeInt (devTypeAt m) v) w ∧
      ∀ p ∈ w, devTypeAt m ≤ p.1 ∧ p.1 < devTypeAt (m + 1) := by
    refine ⟨_, Logged.storeBytes f _ _, fun p hp => ?_⟩
    have hbound := mem_zipIdx_swap hp
    simp only [List.length_cons, List.length_nil, devTypeAt] at hbound ⊢
    omega
  have hend (f : FileInfo) (data : List UInt8) : ∃ w,
      Logged f ((storeIds m 3 0 data f).storeBytes (keyAt m) (strncpy0 key maxKeySize)) w ∧
      ∀ p ∈ w, devTypeAt m ≤ p.1 ∧ p.1 < devTypeAt (m + 1) := by
    obtain ⟨w, hlog, hin⟩ := storeIds_logged m (Nat.le_refl (0 + 3)) data f
    refine ⟨_, hlog.trans (.storeBytes _ _ _), fun p hp => ?_⟩
    rcases List.mem_append.mp hp with hp | hp
    · have hbound := hin p hp
      simp only [vidPidIfaceAt, devTypeAt] at hbound ⊢
      omega
    · have hbound := mem_zipIdx_swap hp
      rw [strncpy0_length key (by decide)] at hbound
      simp only [keyAt, maxKeySize, devTypeAt] at hbound ⊢
      omega
  have happ {w w' : List (Nat × UInt8)}
      (hw : ∀ p ∈ w, devTypeAt m ≤ p.1 ∧ p.1 < devTypeAt (m + 1))
      (hw' : ∀ p ∈ w', devTypeAt m ≤ p.1 ∧ p.1 < devTypeAt (m + 1)) :
      ∀ p ∈ w ++ w', devTypeAt m ≤ p.1 ∧ p.1 < devTypeAt (m + 1) := fun p hp =>
    (List.mem_append.mp hp).elim (hw p) (hw' p)
  obtain ⟨w₁, hlog₁, hin₁⟩ := hint f 5
  generalize strsep value 44 = tokens
  obtain ⟨tmp, rest⟩ := tokens
  cases rest with
  | none =>
    obtain ⟨w₂, hlog₂, hin₂⟩ := hend (f.storeInt (devTypeAt m) 5) value
    exact ⟨_, _, hlog₁.trans hlog₂, rfl, happ hin₁ hin₂⟩
  | some data =>
    set tmp' := tmp.dropWhile fun c => !isDigit c
    set v : UInt32 := if (if tmp' ≠ [] then strtoul16 tmp' else 0) ≠ 0 then 1 else 2
    obtain ⟨w₂, hlog₂, hin₂⟩ := hint (f.storeInt (devTypeAt m) 5) v
    obtain ⟨w₃, hlog₃, hin₃⟩ :=
      hend ((f.storeInt (devTypeAt m) 5).storeInt (devTypeAt m) v) data
    exact ⟨_, _, (hlog₁.trans hlog₂).trans hlog₃, rfl, happ (happ hin₁ hin₂) hin₃⟩

/-- A pair of the string section names an entry of the array. -/
def InArray (p : State × List UInt8 × List UInt8) : Prop :=
  p.1.sectionInfo = .string → ∀ f ∈ p.1.info, f.renamed p.2.1 < f.mLength

/-- What a line of the parse pass does to the table: `stored` entries more, and the bytes `w`. -/
structure Grows (f f' : FileInfo) (stored : Nat) (w : List (Nat × UInt8)) : Prop where
  mLength : f'.mLength = f.mLength
  mNumResp : f'.mNumResp = f.mNumResp + stored
  writes : f'.writes = f.writes ++ w

theorem Grows.refl (f : FileInfo) : Grows f f 0 [] := ⟨rfl, rfl, by simp⟩

theorem Grows.trans {f f' f'' : FileInfo} {a b : Nat} {w w' : List (Nat × UInt8)}
    (h : Grows f f' a w) (h' : Grows f' f'' b w') : Grows f f'' (a + b) (w ++ w') where
  mLength := h'.mLength.trans h.mLength
  mNumResp := by rw [h'.mNumResp, h.mNumResp, Nat.add_assoc]
  writes := by rw [h'.writes, h.writes, List.append_assoc]

/-- The string section writes inside the array when the entry it renames is one of the array. -/
theorem updateDevStringInfo_grows (f : FileInfo) (name value : List UInt8) :
    ∃ w, Grows f (updateDevStringInfo f name value) 0 w ∧
      ((∀ p ∈ w, p.1 < devTypeAt f.mLength) ↔ f.renamed name < f.mLength) := by
  obtain ⟨w, hlog, hnul, hin⟩ := updateDevStringInfo_logged f name value
  refine ⟨w, ⟨hlog.mLength, hlog.mNumResp, hlog.writes⟩, fun h => ?_, fun h p hp => ?_⟩
  · have hbound := h _ hnul
    simp only [keyAt, devTypeAt] at hbound
    omega
  · have hbound := hin p hp
    simp only [keyAt, devTypeAt, maxKeySize] at hbound ⊢
    omega

theorem updateVersion_grows (f : FileInfo) (name value : List UInt8) :
    Grows f (updateVersion f name value) 0 [] := by
  rw [updateVersion]
  split_ifs <;> exact ⟨rfl, rfl, by simp⟩

/-- What a pair does to the table in the parse pass. -/
theorem keyValue_grows {s : State} {f : FileInfo} (hinfo : s.info = some f)
    (name value : List UInt8) :
    ∃ f' w, (keyValue true s name value).info = some f' ∧
      Grows f f' (storeIndex s).toList.length w ∧
      ((∀ p ∈ w, p.1 < devTypeAt f.mLength) ↔ InArray (s, name, value)) := by
  obtain ⟨sectionInfo, filevalid, count, mfgInfo, info⟩ := s
  obtain rfl : info = some f := hinfo
  rw [keyValue, storeIndex, InArray]
  have hnone {Q : Prop} (hsection : sectionInfo ≠ .string) :
      (∀ p ∈ ([] : List (Nat × UInt8)), p.1 < devTypeAt f.mLength) ↔
        (sectionInfo = .string → Q) :=
    ⟨fun _ heq => absurd heq hsection, fun _ => List.forall_mem_nil _⟩
  cases sectionInfo with
  | version => exact ⟨_, [], rfl, updateVersion_grows f name value, hnone (by decide)⟩
  | manufacturer => exact ⟨f, [], rfl, .refl f, hnone (by decide)⟩
  | string =>
    obtain ⟨w, hgrows, hin⟩ := updateDevStringInfo_grows f name value
    exact ⟨_, w, rfl, hgrows, by simpa using hin⟩
  | unknown => exact ⟨f, [], rfl, .refl f, hnone (by decide)⟩
  | deviceInfo =>
    by_cases hfull : f.mLength ≤ f.mNumResp
    · exact ⟨f, [], by simp [hfull], by simpa [hfull] using Grows.refl f, hnone (by decide)⟩
    · obtain ⟨g, w, hlog, heq, hin⟩ :=
        updateDeviceInfo_logged (fun hlt => hfull (Nat.le_of_lt hlt)) name value
      refine ⟨updateDeviceInfo f name value, w, by simp [hfull], ?_,
        fun _ h => absurd h SectionInfo.noConfusion, fun _ p hp => ?_⟩
      · rw [heq]
        exact ⟨hlog.mLength, by simp [hfull], hlog.writes⟩
      · have hbound := hin p hp
        simp only [devTypeAt] at hbound ⊢
        omega

/-- What a line stores in the parse pass. -/
def storedAt (s : State) (text : List UInt8) : List (Nat × List UInt8 × List UInt8) :=
  ((pairOf s text).bind fun p => (storeIndex s).map fun j => (j, p)).toList

theorem storedAt_fst {s : State} {f : FileInfo} (hinfo : s.info = some f) (text : List UInt8) :
    (storedAt s text).map Prod.fst = List.range' f.mNumResp (storedAt s text).length := by
  rw [storedAt, storeIndex, hinfo]
  cases pairOf s text with
  | none => rfl
  | some p =>
    by_cases hsection : s.sectionInfo = .deviceInfo
    · by_cases hfull : f.mLength ≤ f.mNumResp <;> simp [hsection, hfull]
    · simp [hsection]

/-- What a line of the parse pass does to the table. -/
theorem processText_grows {s s' : State} {f : FileInfo} (hinfo : s.info = some f)
    {text : List UInt8} (h : processText true s text = .inr s') :
    ∃ f' w, s'.info = some f' ∧ Grows f f' (storedAt s text).length w ∧
      ((∀ p ∈ w, p.1 < devTypeAt f.mLength) ↔
        ∀ p ∈ ((pairOf s text).map fun p => (s, p)).toList, InArray p) := by
  rw [processText_eq] at h
  rw [storedAt, pairOf]
  cases hline : lineOf text with
  | blank =>
    rw [hline] at h
    cases h
    exact ⟨f, [], hinfo, .refl f, by simp⟩
  | header t =>
    rw [hline] at h
    simp only [Bool.true_eq_false, false_and, if_false] at h
    split at h
    · cases h
      refine ⟨f, [], ?_, .refl f, by simp⟩
      rw [← hinfo, openSection]
      split_ifs <;> rfl
    · cases h
  | pair name value =>
    rw [hline] at h
    simp only at h ⊢
    by_cases hknown : s.sectionInfo ≠ .unknown ∧ s.filevalid = true
    · rw [if_pos hknown] at h ⊢
      cases h
      obtain ⟨f', w, hinfo', hgrows, hin⟩ := keyValue_grows hinfo name value
      refine ⟨f', w, hinfo', ?_, by simpa using hin⟩
      cases hindex : storeIndex s <;> simpa [hindex] using hgrows
    · rw [if_neg hknown] at h ⊢
      cases h
      exact ⟨f, [], hinfo, .refl f, by simp⟩

/-- What the parse pass does to the table: the entries stored follow those there are, and the
bytes written lie in the array when every pair of the string section names an entry of it. -/
theorem parse_grows {s : State} {f : FileInfo} (hinfo : s.info = some f)
    (texts : List (List UInt8)) :
    ∃ f' w, (processTexts true s texts).info = some f' ∧
      Grows f f' (storedFrom s texts).length w ∧
      (storedFrom s texts).map Prod.fst = List.range' f.mNumResp (storedFrom s texts).length ∧
      ((∀ p ∈ w, p.1 < devTypeAt f.mLength) ↔ ∀ p ∈ pairs true s texts, InArray p) := by
  induction texts generalizing s f with
  | nil => exact ⟨f, [], hinfo, .refl f, rfl, by simp [pairs]⟩
  | cons text texts ih =>
    rw [storedFrom_cons, ← storedAt, pairs, processTexts]
    cases hstep : processText true s text with
    | inl r =>
      obtain ⟨hnone, hr⟩ := inl_processText hstep
      simp only
      rw [storedAt, hnone, hr]
      exact ⟨f, [], hinfo, .refl f, rfl, by simp⟩
    | inr s' =>
      obtain ⟨f₁, w₁, hinfo₁, hgrows₁, hin₁⟩ := processText_grows hinfo hstep
      obtain ⟨f₂, w₂, hinfo₂, hgrows₂, hfst₂, hin₂⟩ := ih hinfo₁
      simp only
      refine ⟨f₂, w₁ ++ w₂, hinfo₂, ?_, ?_, ?_⟩
      · rw [List.length_append]
        exact hgrows₁.trans hgrows₂
      · rw [List.map_append, storedAt_fst hinfo, hfst₂, hgrows₁.mNumResp, List.length_append,
          List.range'_append_1]
      · rw [List.forall_mem_append, List.forall_mem_append, hin₁, ← hgrows₁.mLength, hin₂]

/-! ## The two passes side by side -/

/-- The two passes are in the same section. -/
structure Track (s s' : State) : Prop where
  sectionInfo : s'.sectionInfo = s.sectionInfo
  filevalid : s'.filevalid = s.filevalid
  mfgInfo : s'.mfgInfo = s.mfgInfo

theorem Track.pairOf {s s' : State} (h : Track s s') (text : List UInt8) :
    pairOf s' text = pairOf s text := by
  rw [Inf.pairOf, Inf.pairOf, h.sectionInfo, h.filevalid]

theorem Track.openSection {s s' : State} (h : Track s s') (name : List UInt8) :
    Track (openSection s name) (openSection s' name) := by
  obtain ⟨_, _, count, _, info⟩ := s
  obtain ⟨current, filevalid, count', mfgInfo, info'⟩ := s'
  obtain ⟨rfl, rfl, rfl⟩ := h
  rw [Inf.openSection, Inf.openSection]
  split_ifs <;> exact ⟨rfl, rfl, rfl⟩

theorem Track.keyValue {s s' : State} (h : Track s s') (name value : List UInt8) :
    Track (keyValue false s name value) (keyValue true s' name value) := by
  obtain ⟨_, _, count, _, info⟩ := s
  obtain ⟨current, filevalid, count', mfgInfo, info'⟩ := s'
  obtain ⟨rfl, rfl, rfl⟩ := h
  rw [Inf.keyValue, Inf.keyValue]
  cases current <;> exact ⟨rfl, rfl, rfl⟩

/-- As long as the count pass goes on, the parse pass stays in the same section. -/
theorem Track.step {s s' s₁ : State} (h : Track s s') {text : List UInt8}
    (hstep : processText false s text = .inr s₁) :
    ∃ s₁', processText true s' text = .inr s₁' ∧ Track s₁ s₁' := by
  rw [processText_eq] at hstep ⊢
  cases hline : lineOf text with
  | blank =>
    rw [hline] at hstep
    cases hstep
    exact ⟨s', rfl, h⟩
  | header t =>
    rw [hline] at hstep
    simp only [true_and] at hstep
    split at hstep
    · cases hstep
    · split at hstep
      case isTrue hend =>
        cases hstep
        exact ⟨_, by simp [hend], h.openSection _⟩
      case isFalse => cases hstep
  | pair name value =>
    rw [hline] at hstep
    simp only at hstep ⊢
    rw [h.sectionInfo, h.filevalid]
    by_cases hknown : s.sectionInfo ≠ .unknown ∧ s.filevalid = true
    · rw [if_pos hknown] at hstep ⊢
      cases hstep
      exact ⟨_, rfl, h.keyValue name value⟩
    · rw [if_neg hknown] at hstep ⊢
      cases hstep
      exact ⟨s', rfl, h⟩

/-- A full table stays as long as it is. -/
theorem storedFrom_of_full {s : State} {f : FileInfo} (hinfo : s.info = some f)
    (hfull : f.mLength ≤ f.mNumResp) (texts : List (List UInt8)) : storedFrom s texts = [] := by
  induction texts generalizing s f with
  | nil => rfl
  | cons text texts ih =>
    have hnone : storedAt s text = [] := by
      rw [storedAt, storeIndex, hinfo]
      simp [hfull]
    rw [storedFrom_cons, ← storedAt, hnone]
    cases hstep : processText true s text with
    | inl r => rfl
    | inr s' =>
      obtain ⟨f', w, hinfo', hgrows, -⟩ := processText_grows hinfo hstep
      refine ih hinfo' ?_
      rw [hgrows.mLength, hgrows.mNumResp]
      exact Nat.le_add_right_of_le hfull

/-- A table with room for the lines still to be counted stores just these. -/
theorem stored_eq_counted {s s' : State} {f : FileInfo} (htrack : Track s s')
    (hinfo : s'.info = some f) {texts : List (List UInt8)} (hno : ¬Malformed false s texts)
    (hroom : f.mLength = f.mNumResp + (countedFrom s texts).length) :
    (storedFrom s' texts).map Prod.snd = countedFrom s texts := by
  induction texts generalizing s s' f with
  | nil => rfl
  | cons text texts ih =>
    rw [Malformed] at hno
    rw [countedFrom_cons] at hroom ⊢
    cases hstep : processText false s text with
    | inl r =>
      -- the count pass stops behind the model section, where the table is full
      rw [hstep, (inl_processText hstep).1] at hroom
      have hfull : f.mLength ≤ f.mNumResp := by
        rw [hroom]
        simp
      rw [storedFrom_of_full hinfo hfull, (inl_processText hstep).1]
      simp
    | inr s₁ =>
      rw [hstep] at hno hroom
      simp only [List.length_append] at hno hroom ⊢
      obtain ⟨s₁', hstep', htrack₁⟩ := htrack.step hstep
      obtain ⟨f₁, w, hinfo₁, hgrows, -⟩ := processText_grows hinfo hstep'
      have hhere : (storedAt s' text).map Prod.snd =
          if s.sectionInfo = .deviceInfo then (pairOf s text).toList else [] := by
        rw [storedAt, storeIndex, hinfo, htrack.sectionInfo, htrack.pairOf]
        by_cases hsection : s.sectionInfo = .deviceInfo
        · cases hpair : pairOf s text with
          | none => simp
          | some p =>
            rw [hpair, if_pos hsection] at hroom
            have hfull : ¬f.mLength ≤ f.mNumResp := by
              simp only [Option.toList_some, List.length_singleton] at hroom
              omega
            simp [hsection, hfull]
        · simp [hsection]
      have hlen := congrArg List.length hhere
      rw [List.length_map] at hlen
      rw [storedFrom_cons, ← storedAt, hstep', List.map_append, hhere]
      congr 1
      refine ih htrack₁ hinfo₁ hno ?_
      rw [hgrows.mLength, hgrows.mNumResp, hroom, hlen, Nat.add_assoc]

/-! ## When the passes agree -/

/-- A line of the string section with the name `key` stays in the array: it meets an entry with
that key in the array, or the search ends in it. -/
def FileInfo.Lands (f : FileInfo) (key : List UInt8) : Prop :=
  (∃ j ≤ f.mNumResp, j < f.mLength ∧ f.HasKey key j) ∨ f.mNumResp + 1 < f.mLength

theorem renamed_lt_iff {f : FileInfo} {key : List UInt8} (hkey : 0 ∉ key) :
    f.renamed key < f.mLength ↔ f.Lands key := by
  obtain ⟨-, hle, hbefore, hfound⟩ := findEntry_spec (f := f) hkey (f.mNumResp + 1) 0
  rw [← FileInfo.renamed] at hle hbefore hfound
  constructor
  · intro hlt
    by_cases hin : f.renamed key ≤ f.mNumResp
    · exact .inl ⟨_, hin, hlt, hfound (by omega)⟩
    · exact .inr (by omega)
  · rintro (⟨j, hj, hlt, hhas⟩ | hlt)
    · have hle' : f.renamed key ≤ j := by
        by_contra hgt
        exact hbefore j (Nat.zero_le j) (Nat.not_le.mp hgt) hhas
      exact Nat.lt_of_le_of_lt hle' hlt
    · omega

theorem lineOf_pair {text name value : List UInt8} (htext : 0 ∉ text)
    (h : lineOf text = .pair name value) : 0 ∉ name := by
  have hno := zero_notMem_strip htext
  rw [lineOf] at h
  cases hstrip : strip text with
  | nil =>
    rw [hstrip] at h
    cases h
  | cons c t =>
    rw [hstrip] at h hno
    simp only at h
    split_ifs at h
    cases h
    exact fun hmem => hno ((List.takeWhile_prefix _).mem (mem_of_mem_rdropWhile hmem))

/-- The names handed to the `switch` are strings. -/
theorem name_noZero {flag : Bool} {s : State} {texts : List (List UInt8)}
    (htexts : ∀ text ∈ texts, 0 ∉ text) {p : State × List UInt8 × List UInt8}
    (hp : p ∈ pairs flag s texts) : 0 ∉ p.2.1 := by
  induction texts generalizing s with
  | nil => exact absurd hp List.not_mem_nil
  | cons text texts ih =>
    obtain ⟨htext, hrest⟩ := List.forall_mem_cons.mp htexts
    rw [pairs] at hp
    rcases List.mem_append.mp hp with hp | hp
    · obtain ⟨q, hq, rfl⟩ := Option.map_eq_some_iff.mp (Option.mem_toList.mp hp)
      rw [pairOf] at hq
      cases hline : lineOf text with
      | blank => simp [hline] at hq
      | header t => simp [hline] at hq
      | pair name value =>
        rw [hline] at hq
        simp only at hq
        split_ifs at hq
        cases hq
        exact lineOf_pair htext hline
    · cases hstep : processText flag s text with
      | inl r => simp [hstep] at hp
      | inr s' =>
        rw [hstep] at hp
        exact ih hrest hp

theorem toNat_of_toInt {x : UInt32} {n : Nat} (h : x.toInt32.toInt = n) : x.toNat = n := by
  have hx : x.toInt32.toInt = _ := BitVec.toInt_eq_toNat_cond x.toBitVec
  have hlt := x.toNat_lt
  rw [h] at hx
  split at hx <;> simp only [UInt32.toNat_toBitVec] at * <;> omega

/-- The lines of the model section of a file. -/
def modelLines (file : List UInt8) : List (List UInt8 × List UInt8) :=
  countedFrom (.start none) (linesRead file)

/-- The passes agree on a file, for the parse pass on a table with these contents. -/
structure PassesAgree (file : List UInt8) (mClass : DeviceClass) (mem : Nat → UInt8) : Prop where
  /-- With as many entries as were counted, the lines of the model section are stored in file
  order, one in each entry, and nothing is written behind the array. -/
  stored : ∀ n : Nat, qtiDevInfEntrySize file = some (n : Int) →
    ∃ r f, qtiDevInfParse file (freshTable mClass mem n) = some (r, some f) ∧ f.mNumResp = n ∧
      (storedFrom (.start (some (freshTable mClass mem n))) (linesRead file)).map Prod.fst =
        List.range n ∧
      (storedFrom (.start (some (freshTable mClass mem n))) (linesRead file)).map Prod.snd =
        modelLines file ∧
      ∀ p ∈ f.writes, p.1 < devTypeAt n
  /-- A header that does not end is an error of both. -/
  malformed : Malformed false (.start none) (linesRead file) →
    ∀ n, ∃ r f, qtiDevInfParse file (freshTable mClass mem n) = some (r, f) ∧ r < 0

theorem entrySize_eq (file : List UInt8) :
    qtiDevInfEntrySize file =
      some (processTexts false (.start none) (linesRead file)).ret.toInt32.toInt := by
  rw [qtiDevInfEntrySize, processData_eq none file false (by simp)]
  rfl

theorem parse_eq (file : List UInt8) (info : FileInfo) :
    qtiDevInfParse file info =
      some (0, (processTexts true (.start (some info)) (linesRead file)).info) := by
  rw [qtiDevInfParse, processData_eq (some info) file true (by simp)]
  rfl

/-- The passes agree exactly when no header fails to end before the count is known, the count
fits its type, and every line of the string section stays in the array. -/
theorem passesAgree_iff (file : List UInt8) (mClass : DeviceClass) (mem : Nat → UInt8) :
    PassesAgree file mClass mem ↔
      ¬Malformed false (.start none) (linesRead file) ∧
      ∀ n : Nat, qtiDevInfEntrySize file = some (n : Int) →
        (modelLines file).length < 2 ^ 32 ∧
        ∀ p ∈ pairs true (.start (some (freshTable mClass mem n))) (linesRead file),
          p.1.sectionInfo = .string → ∀ f ∈ p.1.info, f.Lands p.2.1 := by
  have hcount (n : Nat) (hn : qtiDevInfEntrySize file = some (n : Int))
      (hno : ¬Malformed false (.start none) (linesRead file)) :
      (UInt32.ofNat (modelLines file).length).toNat = n := by
    rw [entrySize_eq, ret_of_not_malformed hno] at hn
    have hint := Option.some.inj hn
    rw [show (State.start none).count = 0 from rfl, UInt32.zero_add] at hint
    exact toNat_of_toInt hint
  have hlands (n : Nat) :
      (∀ p ∈ pairs true (.start (some (freshTable mClass mem n))) (linesRead file), InArray p) ↔
        ∀ p ∈ pairs true (.start (some (freshTable mClass mem n))) (linesRead file),
          p.1.sectionInfo = .string → ∀ f ∈ p.1.info, f.Lands p.2.1 := by
    refine forall₂_congr fun p hp => forall_congr' fun _ => forall₂_congr fun f _ => ?_
    exact renamed_lt_iff (name_noZero (fun _ h => linesRead_noZero h) hp)
  constructor
  · intro hagree
    have hno : ¬Malformed false (.start none) (linesRead file) := by
      intro hmal
      obtain ⟨r, f, hparse, hlt⟩ := hagree.malformed hmal 0
      rw [parse_eq] at hparse
      cases hparse
      exact absurd hlt (Int.lt_irrefl 0)
    refine ⟨hno, fun n hn => ?_⟩
    obtain ⟨r, f, hparse, hnum, hfst, hsnd, hin⟩ := hagree.stored n hn
    obtain ⟨f', w, hinfo, hgrows, -, hiff⟩ :=
      parse_grows (s := .start (some (freshTable mClass mem n))) rfl (linesRead file)
    rw [parse_eq, hinfo] at hparse
    cases hparse
    refine ⟨?_, (hlands n).mp (hiff.mp fun p hp => hin p ?_)⟩
    · have hlen : (modelLines file).length = n := by
        rw [← hsnd, List.length_map, ← List.length_map (f := Prod.fst), hfst, List.length_range]
      have hlt := UInt32.toNat_lt (UInt32.ofNat (modelLines file).length)
      rw [hcount n hn hno] at hlt
      omega
    · rw [hgrows.writes]
      exact List.mem_append_right _ hp
  · rintro ⟨hno, hall⟩
    refine ⟨fun n hn => ?_, fun hmal => absurd hmal hno⟩
    obtain ⟨hlt, hstring⟩ := hall n hn
    have hlen : (modelLines file).length = n := by
      have h := hcount n hn hno
      rwa [UInt32.toNat_ofNat_of_lt' hlt] at h
    obtain ⟨f, w, hinfo, hgrows, hfst, hiff⟩ :=
      parse_grows (s := .start (some (freshTable mClass mem n))) rfl (linesRead file)
    have htrack : Track (.start none) (.start (some (freshTable mClass mem n))) :=
      ⟨rfl, rfl, rfl⟩
    have hsnd := stored_eq_counted htrack rfl hno (hlen.symm.trans (Nat.zero_add _).symm)
    have hstored : (storedFrom (.start (some (freshTable mClass mem n)))
        (linesRead file)).length = n := by
      have hlen' := congrArg List.length hsnd
      rw [List.length_map] at hlen'
      exact hlen'.trans hlen
    rw [hstored] at hfst hgrows
    refine ⟨0, f, by rw [parse_eq, hinfo], ?_, ?_, hsnd, ?_⟩
    · rw [hgrows.mNumResp]
      exact Nat.zero_add n
    · rw [hfst, List.range_eq_range']
      rfl
    · rw [hgrows.writes]
      exact hiff.mpr ((hlands n).mpr hstring)

/-- The line `[x`. -/
def openHeaderFile : List UInt8 := [91, 120, 10]

/-- The lines `[Version]`, `[Manufacturer]`, `=m`, `[m]`, `a=b`, `[Strings]` and `z=q`. -/
def strayStringFile : List UInt8 :=
  [91] ++ versionStr ++ [93, 10] ++ [91] ++ manufacturerStr ++ [93, 10] ++ [61, 109, 10] ++
    [91, 109, 93, 10] ++ [97, 61, 98, 10] ++ [91] ++ stringStr ++ [93, 10] ++ [122, 61, 113, 10]

/-- The header that does not end is no error of the parse pass, and a string that names no device
is written behind the array. -/
theorem passes_disagree :
    ¬PassesAgree openHeaderFile .ports (fun _ => 0) ∧
      ¬PassesAgree strayStringFile .ports (fun _ => 0) := by
  constructor
  · intro hagree
    have hlines : linesRead openHeaderFile = [[91, 120]] := by decide +kernel
    have hmal : Malformed false (.start none) (linesRead openHeaderFile) := by
      rw [hlines]
      exact fun hbreak => SectionInfo.noConfusion hbreak.2
    obtain ⟨r, f, hparse, hlt⟩ := hagree.malformed hmal 0
    rw [parse_eq] at hparse
    cases hparse
    exact absurd hlt (Int.lt_irrefl 0)
  · intro hagree
    have hone : qtiDevInfEntrySize strayStringFile = some ((1 : Nat) : Int) := by decide +kernel
    obtain ⟨r, f, hparse, -, -, -, hin⟩ := hagree.stored 1 hone
    have hout : ((qtiDevInfParse strayStringFile (freshTable .ports (fun _ => 0) 1)).bind
        Prod.snd).any (fun f => ∃ p ∈ f.writes, ¬p.1 < devTypeAt 1) = true := by
      decide +kernel
    rw [hparse] at hout
    obtain ⟨p, hp, hnot⟩ := of_decide_eq_true hout
    exact hnot (hin p hp)

end Inf
