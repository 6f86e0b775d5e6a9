-- SUMMARY: A line of an INF file is interpreted on its own: no leftovers of the buffer, when a line without a separator is harmless, and when each line is read once.
import QcomUsb.Inf.Parser

/-!
# A line is interpreted on its own

The lines that a file has are compared with the lines that are read. A line that is read has an
effect on the state that does not depend on the buffer, which may be none.
-/

namespace Inf

open CString

/-! ## The lines a file has -/

/-- The lines of a file, and what stands behind the last newline. -/
def physicalLines : List UInt8 → List (List UInt8) × List UInt8
  | [] => ([], [])
  | c :: file =>
    let (lines, tail) := physicalLines file
    if c = 10 then ([] :: lines, tail)
    else
      match lines with
      | [] => ([], c :: tail)
      | l :: lines => ((c :: l) :: lines, tail)

/-- The texts of the lines that are not blank, with a line that ends in a backslash continued by
the next. `acc` is what the line has so far. -/
def logicalLines (acc : List UInt8) : List (List UInt8) → List UInt8 → List (List UInt8)
  | [], tail =>
    let t := (acc ++ tail).rdropWhile isSpace
    let t := if t.getLast? = some 92 then t.dropLast else t
    if t = [] then [] else [t]
  | l :: lines, tail =>
    let t := (acc ++ l).rdropWhile isSpace
    if t = [] then logicalLines [] lines tail
    else if t.getLast? = some 92 then logicalLines t.dropLast lines tail
    else t :: logicalLines [] lines tail

/-- The texts of the lines of a file. -/
def linesOf (file : List UInt8) : List (List UInt8) :=
  logicalLines [] (physicalLines file).1 (physicalLines file).2

/-- No text stands from the first line on that does not fit the buffer, that is blank behind a
blank continued line, or that no newline ends. -/
def Readable (acc : List UInt8) : List (List UInt8) → List UInt8 → Prop
  | [], tail => logicalLines acc [] tail = []
  | l :: lines, tail =>
    let t := (acc ++ l).rdropWhile isSpace
    if maxLineSize ≤ (acc ++ l).length ∨ (t = [] ∧ acc ≠ []) then
      logicalLines acc (l :: lines) tail = []
    else if t = [] then Readable [] lines tail
    else if t.getLast? = some 92 then Readable t.dropLast lines tail
    else Readable [] lines tail

/-- The bytes of a file from its lines. -/
def ofLines (lines : List (List UInt8)) (tail : List UInt8) : List UInt8 :=
  lines.flatMap (· ++ [10]) ++ tail

theorem physicalLines_spec (file : List UInt8) :
    ofLines (physicalLines file).1 (physicalLines file).2 = file ∧
      (∀ l ∈ (physicalLines file).1, 10 ∉ l) ∧ 10 ∉ (physicalLines file).2 := by
  induction file with
  | nil => exact ⟨rfl, by simp [physicalLines], by simp [physicalLines]⟩
  | cons c file ih =>
    rw [physicalLines]
    generalize physicalLines file = p at ih
    obtain ⟨lines, tail⟩ := p
    obtain ⟨hjoin, hlines, htail⟩ := ih
    simp only at hjoin hlines htail ⊢
    have hcons (hc : ¬c = 10) {l : List UInt8} (hl : 10 ∉ l) : 10 ∉ c :: l := fun hmem =>
      (List.mem_cons.mp hmem).elim (fun heq => hc heq.symm) hl
    by_cases hc : c = 10
    · rw [if_pos hc]
      refine ⟨?_, List.forall_mem_cons.mpr ⟨List.not_mem_nil, hlines⟩, htail⟩
      rw [← hjoin, hc]
      rfl
    · rw [if_neg hc, ← hjoin]
      cases lines with
      | nil => exact ⟨rfl, List.forall_mem_nil _, hcons hc htail⟩
      | cons l lines =>
        obtain ⟨hl, hrest⟩ := List.forall_mem_cons.mp hlines
        exact ⟨rfl, List.forall_mem_cons.mpr ⟨hcons hc hl, hrest⟩, htail⟩

/-! ## Reading on from a part of a line -/

/-- The lines read from `file` on when the buffer holds the part `acc` of a line. -/
def linesFrom (acc file : List UInt8) : List (List UInt8) :=
  match readText acc file with
  | none => []
  | some (text, file) => text :: linesRead file

theorem linesRead_eq (file : List UInt8) : linesRead file = linesFrom [] file := by
  rw [linesFrom]
  cases h : readText [] file with
  | none => exact linesRead_of_none h
  | some x => exact linesRead_of_some h

theorem linesFrom_of_inl_none {t : List UInt8 × List UInt8} (h : lineTurn t = .inl none) :
    linesFrom t.1 t.2 = [] := by
  rw [linesFrom, readText_of_inl h]

theorem linesFrom_of_inl_some {t : List UInt8 × List UInt8} {text file : List UInt8}
    (h : lineTurn t = .inl (some (text, file))) :
    linesFrom t.1 t.2 = text :: linesFrom [] file := by
  rw [linesFrom, readText_of_inl h, ← linesRead_eq]

theorem linesFrom_of_inr {t t' : List UInt8 × List UInt8} (h : lineTurn t = .inr t') :
    linesFrom t.1 t.2 = linesFrom t'.1 t'.2 := by
  rw [linesFrom, readText_of_inr h, linesFrom]

/-- A line of zeros is never ended: the rest of the file is skipped. -/
theorem linesFrom_zeros (n : Nat) (file : List UInt8) :
    linesFrom (List.replicate (n + 1) 0) file = [] := by
  induction hlen : file.length using Nat.strong_induction_on generalizing file with
  | _ m ih =>
    have hturn : lineTurn (List.replicate (n + 1) 0, file) =
        match chunk (maxLineSize - (n + 1)) file with
        | none => .inl none
        | some (_, rest) => .inr (List.replicate (n + 1) 0, rest) := by
      rw [lineTurn]
      simp only [List.length_replicate]
      cases chunk (maxLineSize - (n + 1)) file with
      | none => rfl
      | some x =>
        rw [List.replicate_succ]
        rfl
    cases hc : chunk (maxLineSize - (n + 1)) file with
    | none =>
      rw [hc] at hturn
      exact linesFrom_of_inl_none hturn
    | some x =>
      rw [hc] at hturn
      have hlt := lineTurn_decreases _ _ hturn
      rw [linesFrom_of_inr hturn]
      exact ih x.2.length (hlen ▸ hlt) x.2 rfl

/-! ## A line without zeros -/

theorem takeBytes_line {l rest : List UInt8} (hl : 10 ∉ l) {n : Nat} (hn : l.length < n) :
    takeBytes n (l ++ 10 :: rest) = some (l ++ [10], rest) := by
  induction l generalizing n with
  | nil =>
    obtain ⟨n, rfl⟩ := Nat.exists_eq_succ_of_ne_zero (Nat.ne_of_gt hn)
    simp [takeBytes]
  | cons c l ih =>
    obtain ⟨n, rfl⟩ := Nat.exists_eq_succ_of_ne_zero (Nat.ne_of_gt (Nat.zero_lt_of_lt hn))
    have hc : c ≠ 10 := fun heq => hl (heq ▸ List.mem_cons_self)
    have hrest := ih (fun hmem => hl (List.mem_cons_of_mem c hmem)) (Nat.lt_of_succ_lt_succ hn)
    rw [List.cons_append, takeBytes, if_neg hc, hrest]
    rfl

/-- Too long a line, or one that does not end, is not read up to a newline. -/
theorem takeBytes_long {l rest : List UInt8} (hl : 10 ∉ l) {n : Nat} (hn : n ≤ l.length)
    {c file : List UInt8} (h : takeBytes n (l ++ rest) = some (c, file)) :
    c = l.take n := by
  induction n generalizing l c with
  | zero =>
    cases h
    rfl
  | succ n ih =>
    cases l with
    | nil => exact absurd hn (Nat.not_succ_le_zero n)
    | cons x l =>
      have hx : x ≠ 10 := fun heq => hl (heq ▸ List.mem_cons_self)
      rw [List.cons_append, takeBytes, if_neg hx] at h
      obtain ⟨⟨d, file'⟩, hd, heq⟩ := Option.map_eq_some_iff.mp h
      cases heq
      rw [List.take_succ_cons, ← ih (fun hmem => hl (List.mem_cons_of_mem x hmem))
        (Nat.le_of_succ_le_succ hn) hd]

theorem takeBytes_short {l : List UInt8} (hl : 10 ∉ l) {n : Nat} (hn : l.length < n) :
    takeBytes n l = none := by
  induction l generalizing n with
  | nil =>
    obtain ⟨n, rfl⟩ := Nat.exists_eq_succ_of_ne_zero (Nat.ne_of_gt hn)
    rfl
  | cons c l ih =>
    obtain ⟨n, rfl⟩ := Nat.exists_eq_succ_of_ne_zero (Nat.ne_of_gt (Nat.zero_lt_of_lt hn))
    have hc : c ≠ 10 := fun heq => hl (heq ▸ List.mem_cons_self)
    rw [takeBytes, if_neg hc,
      ih (fun hmem => hl (List.mem_cons_of_mem c hmem)) (Nat.lt_of_succ_lt_succ hn)]
    rfl

/-- A part of a line: bytes that are neither zero nor a newline. -/
def Plain (l : List UInt8) : Prop := 0 ∉ l ∧ 10 ∉ l

theorem Plain.append {l l' : List UInt8} (h : Plain l) (h' : Plain l') : Plain (l ++ l') :=
  ⟨fun hmem => (List.mem_append.mp hmem).elim h.1 h'.1,
    fun hmem => (List.mem_append.mp hmem).elim h.2 h'.2⟩

theorem Plain.of_subset {l l' : List UInt8} (h : Plain l) (hsub : l' ⊆ l) : Plain l' :=
  ⟨fun hmem => h.1 (hsub hmem), fun hmem => h.2 (hsub hmem)⟩

theorem Plain.takeWhile_append {l r : List UInt8} (h : Plain l) :
    (l ++ r).takeWhile (· ≠ 0) = l ++ r.takeWhile (· ≠ 0) :=
  List.takeWhile_append_of_pos fun _ hx => decide_eq_true fun heq => h.1 (heq ▸ hx)

/-- A line that no newline ends in the buffer is an error. -/
theorem lineTurn_unended {acc l : List UInt8} (rest : List UInt8) (hacc : Plain acc) (hl : Plain l)
    (hroom : acc.length + 2 ≤ maxLineSize)
    (hlong : maxLineSize ≤ (acc ++ l).length ∨ rest = []) :
    lineTurn (acc, l ++ rest) = .inl none := by
  have hn : maxLineSize - acc.length ≠ 0 := by omega
  rw [lineTurn, chunk]
  simp only [if_neg hn]
  cases hc : takeBytes (maxLineSize - acc.length) (l ++ rest) with
  | none => rfl
  | some x =>
    obtain ⟨c, file⟩ := x
    have hle : maxLineSize - acc.length ≤ l.length := by
      rcases hlong with hlong | rfl
      · rw [List.length_append] at hlong
        omega
      · by_contra hlt
        rw [List.append_nil, takeBytes_short hl.2 (Nat.not_le.mp hlt)] at hc
        cases hc
    have htake := takeBytes_long hl.2 hle hc
    have hplain : Plain (acc ++ c) := hacc.append (hl.of_subset (htake ▸ List.take_subset _ _))
    have hlen : (acc ++ c).length = maxLineSize := by
      rw [List.length_append, htake, List.length_take]
      omega
    have htext : (acc ++ c).takeWhile (· ≠ 0) = acc ++ c := by
      have h := hplain.takeWhile_append (r := [])
      simpa using h
    have hlast : (acc ++ c).getLast? ≠ some 10 := fun heq =>
      hplain.2 (List.mem_of_getLast? heq)
    simp only [htext]
    rw [if_neg (by omega), if_pos hlast]

/-- A line that fits the buffer is stripped, and kept if it is continued. -/
theorem lineTurn_line {acc l : List UInt8} (rest : List UInt8) (hacc : Plain acc) (hl : Plain l)
    (hfit : (acc ++ l).length < maxLineSize) :
    lineTurn (acc, l ++ 10 :: rest) =
      if (acc ++ l).rdropWhile isSpace = [] then .inr (List.replicate acc.length 0, rest)
      else if ((acc ++ l).rdropWhile isSpace).getLast? = some 92 then
        .inr (((acc ++ l).rdropWhile isSpace).dropLast, rest)
      else .inl (some ((acc ++ l).rdropWhile isSpace, rest)) := by
  have hfit' : l.length < maxLineSize - acc.length := by
    rw [List.length_append] at hfit
    omega
  have hn : maxLineSize - acc.length ≠ 0 := by omega
  have htext : (acc ++ (l ++ [10])).takeWhile (· ≠ 0) = (acc ++ l) ++ [10] := by
    rw [← List.append_assoc, (hacc.append hl).takeWhile_append]
    rfl
  have hdrop : ((acc ++ l) ++ [10]).rdropWhile isSpace = (acc ++ l).rdropWhile isSpace :=
    List.rdropWhile_concat_pos _ _ _ (by decide)
  rw [lineTurn, chunk]
  simp only [if_neg hn, takeBytes_line hl.2 hfit', htext, hdrop, List.getLast?_concat]
  by_cases hempty : acc ++ l = []
  · obtain ⟨rfl, rfl⟩ := List.append_eq_nil_iff.mp hempty
    rfl
  · have hlen : ¬((acc ++ l) ++ [10]).length ≤ 1 := by
      have hpos := List.length_pos_of_ne_nil hempty
      rw [List.length_append, List.length_singleton]
      omega
    rw [if_neg hlen, if_neg (not_not.mpr rfl)]

/-- From a part of a line on, the lines read are the lines of the file exactly when those are
readable. -/
theorem linesFrom_ofLines {acc : List UInt8} {lines : List (List UInt8)} {tail : List UInt8}
    (hacc : Plain acc) (hroom : acc.length + 2 ≤ maxLineSize) (hlines : ∀ l ∈ lines, Plain l)
    (htail : Plain tail) :
    linesFrom acc (ofLines lines tail) = logicalLines acc lines tail ↔ Readable acc lines tail := by
  induction lines generalizing acc with
  | nil =>
    have hturn := lineTurn_unended [] hacc htail hroom (.inr rfl)
    rw [List.append_nil] at hturn
    have hnone : linesFrom acc (ofLines [] tail) = [] := linesFrom_of_inl_none hturn
    rw [hnone, Readable]
    exact eq_comm
  | cons l lines ih =>
    obtain ⟨hl, hrest⟩ := List.forall_mem_cons.mp hlines
    have hjoin : ofLines (l :: lines) tail = l ++ 10 :: ofLines lines tail := by simp [ofLines]
    rw [Readable, hjoin]
    set t := (acc ++ l).rdropWhile isSpace with ht
    by_cases hlong : maxLineSize ≤ (acc ++ l).length
    · have hnone := linesFrom_of_inl_none
        (lineTurn_unended (10 :: ofLines lines tail) hacc hl hroom (.inl hlong))
      rw [if_pos (.inl hlong), hnone]
      exact eq_comm
    · have hturn := lineTurn_line (ofLines lines tail) hacc hl (Nat.not_le.mp hlong)
      rw [← ht] at hturn
      have hempty := ih ⟨List.not_mem_nil, List.not_mem_nil⟩ (Nat.le_add_left 2 510) hrest
      by_cases hblank : t = []
      · rw [if_pos hblank] at hturn
        have hstep := linesFrom_of_inr hturn
        simp only at hstep
        rw [hstep]
        by_cases hnil : acc = []
        · subst hnil
          rw [if_neg fun h => h.elim hlong fun h => h.2 rfl, if_pos hblank, logicalLines, ← ht]
          simp only [if_pos hblank]
          exact hempty
        · obtain ⟨n, hn⟩ := Nat.exists_eq_succ_of_ne_zero
            (Nat.ne_of_gt (List.length_pos_of_ne_nil hnil))
          rw [if_pos (.inr ⟨hblank, hnil⟩), hn, linesFrom_zeros]
          exact eq_comm
      · have hfine : ¬(maxLineSize ≤ (acc ++ l).length ∨ t = [] ∧ acc ≠ []) := fun h =>
          h.elim hlong fun h => hblank h.1
        rw [if_neg hfine, if_neg hblank]
        rw [if_neg hblank] at hturn
        rw [logicalLines, ← ht]
        simp only [if_neg hblank]
        have hsub : t ⊆ acc ++ l := (List.rdropWhile_prefix isSpace _).subset
        have hle : t.length ≤ (acc ++ l).length := (List.rdropWhile_prefix isSpace _).length_le
        by_cases hback : t.getLast? = some 92
        · rw [if_pos hback] at hturn ⊢
          simp only [if_pos hback]
          have hstep := linesFrom_of_inr hturn
          simp only at hstep
          rw [hstep]
          have hpos := List.length_pos_of_ne_nil hblank
          have hkept : Plain t.dropLast :=
            (hacc.append hl).of_subset fun x hx => hsub (List.mem_of_mem_dropLast hx)
          refine ih hkept ?_ hrest
          rw [List.length_dropLast]
          omega
        · rw [if_neg hback] at hturn ⊢
          simp only [if_neg hback]
          have hstep := linesFrom_of_inl_some hturn
          simp only at hstep
          rw [hstep, List.cons_inj_right]
          exact hempty

/-! ## Files with zeros -/

theorem mem_rdropWhile_of_not {q : UInt8 → Bool} {x : UInt8} {l : List UInt8} (hx : x ∈ l)
    (hq : ¬q x = true) : x ∈ l.rdropWhile q := by
  rw [← List.rdropWhile_append_rtakeWhile (p := q) (l := l)] at hx
  exact (List.mem_append.mp hx).resolve_right fun hmem => hq (List.mem_rtakeWhile_imp hmem)

theorem mem_dropLast_of_getLast {x : UInt8} {l : List UInt8} (hx : x ∈ l)
    (hlast : l.getLast? ≠ some x) : x ∈ l.dropLast := by
  have hne : l ≠ [] := List.ne_nil_of_mem hx
  rw [← List.dropLast_append_getLast hne] at hx
  rcases List.mem_append.mp hx with hmem | hmem
  · exact hmem
  · refine absurd ?_ hlast
    rw [List.getLast?_eq_some_getLast hne, List.mem_singleton.mp hmem]

/-- No zero of a file is lost in its lines. -/
theorem zero_mem_logicalLines {acc : List UInt8} {lines : List (List UInt8)} {tail : List UInt8}
    (h : 0 ∈ acc ++ lines.flatten ++ tail) : ∃ t ∈ logicalLines acc lines tail, 0 ∈ t := by
  have hspace : ¬isSpace 0 = true := by decide
  have h92 (t : List UInt8) (ht : t.getLast? = some 92) : t.getLast? ≠ some 0 := by
    rw [ht]
    decide
  induction lines generalizing acc with
  | nil =>
    rw [List.flatten_nil, List.append_nil] at h
    have hmem := mem_rdropWhile_of_not h hspace
    rw [logicalLines]
    set t := (acc ++ tail).rdropWhile isSpace
    by_cases hback : t.getLast? = some 92
    · have hmem' := mem_dropLast_of_getLast hmem (h92 t hback)
      simp only [if_pos hback, if_neg (List.ne_nil_of_mem hmem')]
      exact ⟨_, List.mem_singleton_self _, hmem'⟩
    · simp only [if_neg hback, if_neg (List.ne_nil_of_mem hmem)]
      exact ⟨_, List.mem_singleton_self _, hmem⟩
  | cons l lines ih =>
    rw [List.flatten_cons, ← List.append_assoc acc, List.append_assoc (acc ++ l)] at h
    rw [logicalLines]
    set t := (acc ++ l).rdropWhile isSpace
    rcases List.mem_append.mp h with hline | hlater
    · have hmem : 0 ∈ t := mem_rdropWhile_of_not hline hspace
      simp only [if_neg (List.ne_nil_of_mem hmem)]
      by_cases hback : t.getLast? = some 92
      · rw [if_pos hback]
        refine ih ?_
        have hmem' := mem_dropLast_of_getLast hmem (h92 t hback)
        exact List.mem_append_left _ (List.mem_append_left _ hmem')
      · rw [if_neg hback]
        exact ⟨t, List.mem_cons_self, hmem⟩
    · have hfrom (acc : List UInt8) : ∃ t ∈ logicalLines acc lines tail, 0 ∈ t := by
        refine ih ?_
        rw [List.append_assoc]
        exact List.mem_append_right _ hlater
      split
      · exact hfrom []
      · split
        · exact hfrom t.dropLast
        · obtain ⟨t', ht', hmem⟩ := hfrom []
          exact ⟨t', List.mem_cons_of_mem _ ht', hmem⟩

/-- Each line of a file is read exactly once when the file has no zero and is readable. -/
theorem linesRead_iff (file : List UInt8) :
    linesRead file = linesOf file ↔
      0 ∉ file ∧ Readable [] (physicalLines file).1 (physicalLines file).2 := by
  obtain ⟨hjoin, hlines, htail⟩ := physicalLines_spec file
  by_cases hzero : 0 ∈ file
  · -- a line with the zero is not among those read
    have hmem : 0 ∈ [] ++ (physicalLines file).1.flatten ++ (physicalLines file).2 := by
      rw [← hjoin, ofLines] at hzero
      rcases List.mem_append.mp hzero with hin | hin
      · obtain ⟨l, hl, hin⟩ := List.mem_flatMap.mp hin
        have hin' : 0 ∈ l := (List.mem_append.mp hin).resolve_right (by decide)
        exact List.mem_append_left _ (List.mem_flatten.mpr ⟨l, hl, hin'⟩)
      · exact List.mem_append_right _ hin
    obtain ⟨t, ht, htzero⟩ := zero_mem_logicalLines hmem
    refine ⟨fun heq => ?_, fun h => absurd hzero h.1⟩
    have hread : t ∈ linesRead file := by
      rw [heq]
      exact ht
    exact absurd htzero (linesRead_noZero hread)
  · have hplain {l : List UInt8} (hsub : l ⊆ file) (hl : 10 ∉ l) : Plain l :=
      ⟨fun hmem => hzero (hsub hmem), hl⟩
    have hsub : ∀ l ∈ (physicalLines file).1, l ⊆ file := by
      intro l hl x hx
      rw [← hjoin, ofLines]
      exact List.mem_append_left _ (List.mem_flatMap.mpr ⟨l, hl, List.mem_append_left _ hx⟩)
    have hsub' : (physicalLines file).2 ⊆ file := by
      intro x hx
      rw [← hjoin, ofLines]
      exact List.mem_append_right _ hx
    have hiff := linesFrom_ofLines (show Plain [] from ⟨List.not_mem_nil, List.not_mem_nil⟩)
      (Nat.le_add_left 2 510) (fun l hl => hplain (hsub l hl) (hlines l hl)) (hplain hsub' htail)
    rw [hjoin, ← linesRead_eq] at hiff
    exact hiff.trans ⟨fun h => ⟨hzero, h⟩, fun h => h.2⟩

/-! ## A line without a separator -/

/-- A line of a section that is neither a comment nor a header, with no separator in it. -/
def NoSeparator (text : List UInt8) : Prop :=
  ∃ c t, strip text = c :: t ∧ notComment c = true ∧ c ≠ 91 ∧ ∀ x ∈ c :: t, notDict x = true

/-- What a line without a separator leaves alone, beside the state it meets. -/
def Harmless (flag : Bool) (s : State) (text : List UInt8) : Prop :=
  s.filevalid = false ∨
  match s.sectionInfo with
  | .version => flag = true → ∀ f ∈ s.info,
      (nameOf (strip text)).length = classStr.length →
        startsWith (nameOf (strip text)) classStr = true → f.mClass = .unknown
  | .manufacturer => True
  | .deviceInfo => flag = true ∧ ∀ f ∈ s.info, f.mLength ≤ f.mNumResp
  | .string => flag = true → s.info = none
  | .unknown => True

theorem dropWhile_notDict {t : List UInt8} (h : ∀ x ∈ t, notDict x = true) :
    t.dropWhile notDict = [] := List.dropWhile_eq_nil_iff.mpr h

theorem valueOf_noSeparator {t : List UInt8} (h : ∀ x ∈ t, notDict x = true) : valueOf t = [] := by
  rw [valueOf, dropWhile_notDict h]
  rfl

theorem updateVersion_nil_eq_iff (f : FileInfo) (name : List UInt8) :
    updateVersion f name [] = f ↔
      (name.length = classStr.length → startsWith name classStr = true → f.mClass = .unknown) := by
  rw [updateVersion]
  by_cases hname : name.length = classStr.length ∧ startsWith name classStr = true
  · rw [if_pos hname]
    have hnone (lit : List UInt8) (hlit : lit ≠ []) : ¬startsWith [] lit = true := by
      simpa [startsWith] using hlit.symm
    rw [if_neg (hnone _ (by decide)), if_neg (hnone _ (by decide)), if_neg (hnone _ (by decide)),
      if_neg (hnone _ (by decide))]
    constructor
    · exact fun heq _ _ => (congrArg FileInfo.mClass heq).symm
    · intro h
      rw [← h hname.1 hname.2]
  · rw [if_neg hname]
    exact ⟨fun _ hlen hstart => absurd ⟨hlen, hstart⟩ hname, fun _ => rfl⟩

theorem updateDevStringInfo_ne (f : FileInfo) (name value : List UInt8) :
    updateDevStringInfo f name value ≠ f := by
  intro heq
  obtain ⟨w, hlog, hmem, -⟩ := updateDevStringInfo_logged f name value
  have hw : f.writes = f.writes ++ w := by
    rw [← hlog.writes, heq]
  exact List.ne_nil_of_mem hmem (List.self_eq_append_right.mp hw)

theorem updateDeviceInfo_ne {f : FileInfo} (hroom : ¬f.mLength ≤ f.mNumResp)
    (name value : List UInt8) : updateDeviceInfo f name value ≠ f := by
  intro heq
  have hnum := congrArg FileInfo.mNumResp heq
  rw [updateDeviceInfo, if_neg (fun hlt => hroom (Nat.le_of_lt hlt))] at hnum
  exact absurd hnum (Nat.succ_ne_self _)

/-- Where a line without a separator changes nothing. -/
theorem processText_noSeparator_iff {flag : Bool} {s : State} {text : List UInt8}
    (h : NoSeparator text) (hknown : s.sectionInfo ≠ .unknown) :
    processText flag s text = .inr s ↔ Harmless flag s text := by
  obtain ⟨c, t, hstrip, hcomment, hsection, hall⟩ := h
  rw [processText, Harmless, hstrip]
  have hcomment' : ¬(!notComment c) = true := by simpa using hcomment
  simp only [if_neg hcomment', if_neg hsection, valueOf_noSeparator hall]
  cases hvalid : s.filevalid with
  | false => simp
  | true =>
    rw [if_pos ⟨hknown, rfl⟩, Sum.inr.injEq, keyValue]
    obtain ⟨sectionInfo, filevalid, count, mfgInfo, info⟩ := s
    simp only
    cases sectionInfo with
    | version =>
      cases flag with
      | false => simp
      | true =>
        cases info with
        | none => simp
        | some f => simp [updateVersion_nil_eq_iff]
    | manufacturer => simp [updateManufacturer]
    | deviceInfo =>
      cases flag with
      | false => simp
      | true =>
        cases info with
        | none => simp
        | some f =>
          by_cases hroom : f.mLength ≤ f.mNumResp
          · simp [hroom]
          · simp [hroom, updateDeviceInfo_ne hroom]
    | string =>
      cases flag with
      | false => simp
      | true =>
        cases info with
        | none => simp
        | some f => simp [updateDevStringInfo_ne]
    | unknown => exact absurd rfl hknown

/-! ## Lines on their own -/

/-- The loop of `processData` reaches a turn. -/
def Reaches (flag : Bool) (info : Option FileInfo) (file : List UInt8)
    (t : State × List UInt8 × List UInt8) : Prop :=
  ∃ k, Loop.turn (turn flag) k (State.start info, emptyLine, file) = some t

/-- What a turn does: the buffer is not part of it. -/
def effect (x : Result ⊕ (State × List UInt8 × List UInt8)) : Result ⊕ (State × List UInt8) :=
  x.map id fun t => (t.1, t.2.2)

/-- Each line of the file is interpreted on its own. -/
structure OnItsOwn (flag : Bool) (info : Option FileInfo) (file : List UInt8) : Prop where
  /-- After other lines that lead to the same state, the next line does the same, and so do all
  the lines behind it. -/
  sameEffect : ∀ info' file' s line line' rest, Reaches flag info file (s, line, rest) →
    Reaches flag info' file' (s, line', rest) →
      effect (turn flag (s, line, rest)) = effect (turn flag (s, line', rest)) ∧
      Loop.run (turn flag) (rest.length + 1) (s, line, rest) =
        Loop.run (turn flag) (rest.length + 1) (s, line', rest)
  /-- A line of a known section without a separator changes nothing. -/
  noSeparator : ∀ s line rest text rest', Reaches flag info file (s, line, rest) →
    readText [] rest = some (text, rest') → NoSeparator text → s.sectionInfo ≠ .unknown →
      effect (turn flag (s, line, rest)) = .inr (s, rest')
  /-- Every line is processed exactly once. -/
  once : linesRead file = linesOf file

theorem Reaches.length {flag : Bool} {info : Option FileInfo} {file : List UInt8}
    {t : State × List UInt8 × List UInt8} (h : Reaches flag info file t) :
    t.2.1.length = maxLineSize + 1 := by
  obtain ⟨k, hk⟩ := h
  refine Loop.turn_inv (P := fun t => t.2.1.length = maxLineSize + 1) (fun t t' hlen hstep => ?_)
    (by rw [emptyLine, List.length_replicate]) hk
  have hturn := turn_textTurn flag (show WithBuffer t (t.1, t.2.2) from ⟨rfl, hlen, rfl⟩)
  rw [hstep] at hturn
  generalize textTurn flag (t.1, t.2.2) = y at hturn
  cases hturn with
  | inr hrel => exact hrel.2.1

theorem effect_turn (flag : Bool) {t : State × List UInt8 × List UInt8}
    (h : t.2.1.length = maxLineSize + 1) :
    effect (turn flag t) = textTurn flag (t.1, t.2.2) := by
  have hturn := turn_textTurn flag (show WithBuffer t (t.1, t.2.2) from ⟨rfl, h, rfl⟩)
  generalize turn flag t = x at hturn ⊢
  generalize textTurn flag (t.1, t.2.2) = y at hturn ⊢
  cases hturn with
  | inl heq =>
    rw [heq]
    rfl
  | inr hrel => exact congrArg Sum.inr (Prod.ext hrel.1 hrel.2.2)

/-- The lines of a file are interpreted on their own exactly when those without a separator meet
a state they leave alone, and the file is readable. -/
theorem onItsOwn_iff (flag : Bool) (info : Option FileInfo) (file : List UInt8) :
    OnItsOwn flag info file ↔
      (∀ s line rest text rest', Reaches flag info file (s, line, rest) →
        readText [] rest = some (text, rest') → NoSeparator text → s.sectionInfo ≠ .unknown →
          Harmless flag s text) ∧
      0 ∉ file ∧ Readable [] (physicalLines file).1 (physicalLines file).2 := by
  have hsame : ∀ s line rest text rest', Reaches flag info file (s, line, rest) →
      readText [] rest = some (text, rest') → NoSeparator text → s.sectionInfo ≠ .unknown →
        (effect (turn flag (s, line, rest)) = .inr (s, rest') ↔ Harmless flag s text) := by
    intro s line rest text rest' hreach hread hno hknown
    rw [effect_turn flag hreach.length, textTurn, ← processText_noSeparator_iff hno hknown]
    simp only [hread]
    cases processText flag s text with
    | inl r => simp
    | inr s' => simp
  constructor
  · intro hown
    refine ⟨fun s line rest text rest' hreach hread hno hknown => ?_,
      (linesRead_iff file).mp hown.once⟩
    exact (hsame s line rest text rest' hreach hread hno hknown).mp
      (hown.noSeparator s line rest text rest' hreach hread hno hknown)
  · rintro ⟨hharmless, hfile⟩
    refine ⟨fun info' file' s line line' rest hreach hreach' => ⟨?_, ?_⟩,
      fun s line rest text rest' hreach hread hno hknown => ?_, (linesRead_iff file).mpr hfile⟩
    · rw [effect_turn flag hreach.length, effect_turn flag hreach'.length]
    · rw [run_turn flag hreach.length, run_turn flag hreach'.length]
    · exact (hsame s line rest text rest' hreach hread hno hknown).mpr
        (hharmless s line rest text rest' hreach hread hno hknown)

/-- The lines `[Version]`, `[Manufacturer]`, `=m`, `[m]` and `x`. -/
def bareKeyFile : List UInt8 :=
  ofLines [91 :: versionStr ++ [93], 91 :: manufacturerStr ++ [93], [61, 109], [91, 109, 93], [120]]
    []

/-- The count after a turn, which is also what a last turn returns. -/
def countAfter : Result ⊕ (State × List UInt8) → UInt32
  | .inl r => r.ret
  | .inr t => t.1.count

/-- The last line of the file is counted. -/
theorem bareKeyFile_counted :
    (Loop.turn (turn false) 4 (State.start none, emptyLine, bareKeyFile)).any (fun t =>
      readText [] t.2.2 = some ([120], []) ∧ t.1.sectionInfo ≠ .unknown ∧
        countAfter (effect (turn false t)) ≠ t.1.count) = true := by
  decide +kernel

/-- A last line without a newline is not read, and a line without a separator is counted. -/
theorem lines_not_on_their_own :
    ¬OnItsOwn false none [120] ∧ ¬OnItsOwn false none bareKeyFile := by
  constructor
  · intro hown
    have hlost : linesRead [120] ≠ linesOf [120] := by decide +kernel
    exact hlost hown.once
  · intro hown
    obtain ⟨⟨s, line, rest⟩, hreach, hfacts⟩ := (Option.any_eq_true _ _).mp bareKeyFile_counted
    obtain ⟨hread, hknown, hcount⟩ := of_decide_eq_true hfacts
    have hno : NoSeparator [120] :=
      ⟨120, [], by decide +kernel, by decide, by decide, by decide +kernel⟩
    have hsame := hown.noSeparator s line rest _ _ ⟨4, hreach⟩ hread hno hknown
    rw [hsame] at hcount
    exact hcount rfl

end Inf
