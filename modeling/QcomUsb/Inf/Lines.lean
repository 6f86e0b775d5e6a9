-- SUMMARY: The lines of an INF file as they are read into one buffer, and their texts, which do not depend on what it held.
import QcomUsb.Library.CString
import QcomUsb.Library.Loop

/-!
# Reading a line

A file is the bytes still to be read. `_MyReadLine` collects a line, with the lines that
continue it, in the buffer of `processData`. `lineTurn` does the same to the text alone.
-/

namespace Inf

open CString

/-- `QTIDEV_INF_MAX_LINE_SIZE`. The buffer has one byte more. -/
def maxLineSize : Nat := 512

/-- `isspace`. -/
def isSpace (c : UInt8) : Bool := (9 ≤ c && c ≤ 13) || c == 32 || c == 160

/-- The loop of `MyReadLine`, with `len` bytes still allowed and `i` the next position. Nothing
comes back at the end of the file. -/
def readBytes : Nat → Nat → List UInt8 → List UInt8 → Option (List UInt8 × List UInt8)
  | 0, i, file, data => some (data.set i 0, file)
  | _ + 1, _, [], _ => none
  | len + 1, i, val :: file, data =>
    let data := data.set i val
    if val = 10 then some (data.set (i + 1) 0, file) else readBytes len (i + 1) file data

/-- `MyReadLine`, from the position `i` of the buffer on. -/
def myReadLine (len i : Nat) (file data : List UInt8) : Option (List UInt8 × List UInt8) :=
  if len = 0 then none else readBytes len i file data

/-- The locals of `_MyReadLine`. -/
structure Reader where
  last : Nat
  line : List UInt8
  file : List UInt8

/-- A turn of the loop of `_MyReadLine`. -/
def readTurn (s : Reader) : Option (List UInt8 × List UInt8) ⊕ Reader :=
  match myReadLine (maxLineSize - s.last) s.last s.file s.line with
  | none => .inl none
  | some (line, file) =>
    let n := (str line 0).length
    if n ≤ 1 then .inr ⟨s.last, line, file⟩
    else if line.getD (n - 1) 0 ≠ 10 then .inl none
    else
      -- a line of white space makes the source look at the byte before the buffer as well
      let (n, line) := trim isSpace 0 n line
      if n = 0 then .inr ⟨s.last, line, file⟩
      else if line.getD (n - 1) 0 = 92 then .inr ⟨n - 1, line, file⟩
      else .inl (some (line, file))

/-- `_MyReadLine`: the buffer and the rest of the file, or nothing at an error or the end of
the file. -/
def _myReadLine (line file : List UInt8) : Option (List UInt8 × List UInt8) :=
  (Loop.run readTurn (file.length + 1) ⟨0, line, file⟩).join

/-! ## The text of a line -/

/-- The bytes of the file up to a newline, at most `n`. -/
def takeBytes : Nat → List UInt8 → Option (List UInt8 × List UInt8)
  | 0, file => some ([], file)
  | _ + 1, [] => none
  | n + 1, c :: file =>
    if c = 10 then some ([10], file) else (takeBytes n file).map fun r => (c :: r.1, r.2)

/-- The bytes `MyReadLine` takes from the file. -/
def chunk (n : Nat) (file : List UInt8) : Option (List UInt8 × List UInt8) :=
  if n = 0 then none else takeBytes n file

/-- A turn of the loop on the bytes in front of `last` alone. -/
def lineTurn (s : List UInt8 × List UInt8) :
    Option (List UInt8 × List UInt8) ⊕ (List UInt8 × List UInt8) :=
  match chunk (maxLineSize - s.1.length) s.2 with
  | none => .inl none
  | some (c, file) =>
    let text := (s.1 ++ c).takeWhile (· ≠ 0)
    if text.length ≤ 1 then .inr (s.1, file)
    else if text.getLast? ≠ some 10 then .inl none
    else
      let t := text.rdropWhile isSpace
      if t = [] then .inr (List.replicate s.1.length 0, file)
      else if t.getLast? = some 92 then .inr (t.dropLast, file)
      else .inl (some (t, file))

/-- The text of the next line and the rest of the file, with `acc` in front of it. -/
def readText (acc file : List UInt8) : Option (List UInt8 × List UInt8) :=
  (Loop.run lineTurn (file.length + 1) (acc, file)).join

/-! ## The reader has the text in its buffer -/

theorem readBytes_append {n : Nat} {file u r : List UInt8} (hr : n < r.length) :
    readBytes n u.length file (u ++ r) =
      (takeBytes n file).map fun x => (u ++ (x.1 ++ 0 :: r.drop (x.1.length + 1)), x.2) := by
  induction n generalizing file u r with
  | zero =>
    cases r with
    | nil => exact absurd hr (Nat.not_lt_zero _)
    | cons x r =>
      rw [readBytes, takeBytes, set_append rfl]
      rfl
  | succ n ih =>
    cases file with
    | nil => rfl
    | cons c file =>
      cases r with
      | nil => exact absurd hr (Nat.not_lt_zero _)
      | cons x r =>
        have hlen : (u ++ [c]).length = u.length + 1 := by simp
        have hsplit : u ++ c :: r = (u ++ [c]) ++ r := by simp
        have hr' : n < r.length := Nat.lt_of_succ_lt_succ hr
        rw [readBytes, takeBytes, set_append rfl]
        by_cases hc : c = 10
        · cases r with
          | nil => exact absurd hr' (Nat.not_lt_zero _)
          | cons y r =>
            rw [if_pos hc, if_pos hc, hsplit, set_append hlen, hc]
            simp
        · rw [if_neg hc, if_neg hc, hsplit, ← hlen, ih hr', Option.map_map]
          congr 1
          funext x
          simp

theorem myReadLine_append {n : Nat} {file u r : List UInt8} (hr : n < r.length) :
    myReadLine n u.length file (u ++ r) =
      (chunk n file).map fun x => (u ++ (x.1 ++ 0 :: r.drop (x.1.length + 1)), x.2) := by
  rw [myReadLine, chunk]
  split
  · rfl
  · exact readBytes_append hr

theorem takeBytes_spec {n : Nat} {file c file' : List UInt8}
    (h : takeBytes n file = some (c, file')) :
    file = c ++ file' ∧ c.length ≤ n ∧ (0 < n → c ≠ []) := by
  induction n generalizing file c with
  | zero =>
    obtain ⟨rfl, rfl⟩ : [] = c ∧ file = file' := by simpa [takeBytes] using h
    exact ⟨rfl, Nat.le_refl _, fun hlt => absurd hlt (Nat.lt_irrefl _)⟩
  | succ n ih =>
    cases file with
    | nil => cases h
    | cons x file =>
      rw [takeBytes] at h
      split at h
      case isTrue hx =>
        obtain ⟨rfl, rfl⟩ : [10] = c ∧ file = file' := by simpa using h
        rw [hx]
        exact ⟨rfl, by simp, fun _ => List.cons_ne_nil _ _⟩
      case isFalse =>
        obtain ⟨⟨d, file''⟩, hd, heq⟩ := Option.map_eq_some_iff.mp h
        obtain ⟨rfl, rfl⟩ : x :: d = c ∧ file'' = file' := by simpa using heq
        obtain ⟨hsplit, hlen, -⟩ := ih hd
        exact ⟨by rw [hsplit]; rfl, Nat.succ_le_succ hlen, fun _ => List.cons_ne_nil _ _⟩

/-- What is taken stands in front of the rest of the file, and is something. -/
theorem chunk_spec {n : Nat} {file c file' : List UInt8} (h : chunk n file = some (c, file')) :
    file = c ++ file' ∧ c.length ≤ n ∧ c ≠ [] := by
  rw [chunk] at h
  split at h
  · cases h
  · rename_i hn
    obtain ⟨hsplit, hle, hne⟩ := takeBytes_spec h
    exact ⟨hsplit, hle, hne (Nat.pos_of_ne_zero hn)⟩

/-- The buffer starts with a text, and two zeros stand behind it. -/
structure HoldsText (line text : List UInt8) : Prop where
  noZero : 0 ∉ text
  split : ∃ r, line = text ++ 0 :: 0 :: r
  length : line.length = maxLineSize + 1

/-- The reader has collected the bytes of `t`, with the rest of the file still to come. -/
structure Reader.Holds (s : Reader) (t : List UInt8 × List UInt8) : Prop where
  last : s.last = t.1.length
  room : t.1.length + 2 ≤ maxLineSize
  split : ∃ r, s.line = t.1 ++ r
  length : s.line.length = maxLineSize + 1
  file : s.file = t.2
  /-- The bytes kept are a text, or zeros that a blank line has left. -/
  kept : 0 ∉ t.1 ∨ t.1 = List.replicate t.1.length 0

/-- The buffer after a read holds what is kept and the bytes read, up to the first zero. -/
theorem Reader.Holds.read {s : Reader} {t : List UInt8 × List UInt8} (h : s.Holds t)
    {c file : List UInt8} (hc : chunk (maxLineSize - t.1.length) t.2 = some (c, file)) :
    ∃ line w, myReadLine (maxLineSize - s.last) s.last s.file s.line = some (line, file) ∧
      (∃ r, line = t.1 ++ r) ∧ line.length = maxLineSize + 1 ∧
      line = (t.1 ++ c).takeWhile (· ≠ 0) ++ 0 :: w := by
  obtain ⟨r, hr⟩ := h.split
  have hlen : t.1.length + r.length = maxLineSize + 1 := by
    rw [← List.length_append, ← hr, h.length]
  have hroom := h.room
  obtain ⟨-, hle, -⟩ := chunk_spec hc
  obtain ⟨w, hw⟩ := exists_takeWhile_append (r := r.drop (c.length + 1)) (t.1 ++ c)
  refine ⟨t.1 ++ (c ++ 0 :: r.drop (c.length + 1)), w, ?_, ⟨_, rfl⟩, ?_, ?_⟩
  · rw [h.last, h.file, hr, myReadLine_append (by omega), hc]
    rfl
  · simp only [List.length_append, List.length_cons, List.length_drop]
    omega
  · rw [← hw, List.append_assoc]

/-- What a text keeps that is cut at its first zero. -/
theorem takeWhile_append_of_kept {u c : List UInt8}
    (h : 0 ∉ u ∨ u = List.replicate u.length 0) :
    (u ++ c).takeWhile (· ≠ 0) = [] ∨ 0 ∉ u := by
  rcases h with h | h
  · exact .inr h
  · cases u with
    | nil => exact .inr List.not_mem_nil
    | cons x u =>
      have hx : x = 0 := (List.cons_eq_cons.mp h).1
      exact .inl (by simp [hx])

/-- What a read answers, beside the text it has read. -/
def ReadsText (x y : List UInt8 × List UInt8) : Prop := HoldsText x.1 y.1 ∧ x.2 = y.2

/-- A line that ends in a newline loses a byte at least, and leaves two zeros behind. -/
theorem trim_line {text w : List UInt8} (hne : text ≠ []) (hlast : text.getLast hne = 10) :
    (text.rdropWhile isSpace).length + 1 ≤ text.length ∧
      ∃ r, trim isSpace 0 text.length (text ++ 0 :: w) =
        ((text.rdropWhile isSpace).length, text.rdropWhile isSpace ++ 0 :: 0 :: r) := by
  obtain ⟨v, x, rfl⟩ := (List.eq_nil_or_concat' text).resolve_left hne
  have hx : x = 10 := by simpa using hlast
  have hdrop : (v ++ [x]).rdropWhile isSpace = v.rdropWhile isSpace := by
    rw [hx]
    exact List.rdropWhile_concat_pos _ _ _ (by decide)
  have hle : (v.rdropWhile isSpace).length ≤ v.length := (List.rdropWhile_prefix _ v).length_le
  have hle' : ((v ++ [x]).rdropWhile isSpace).length + 1 ≤ (v ++ [x]).length := by
    rw [hdrop, List.length_append, List.length_singleton]
    exact Nat.succ_le_succ hle
  refine ⟨hle', ?_⟩
  obtain ⟨k, hk⟩ := Nat.exists_eq_add_of_le' (Nat.sub_pos_of_lt hle')
  obtain ⟨r, hr⟩ := replicate_append_cons (α := UInt8) (r := w) k
  have htrim := trim_append (q := isSpace) (u := []) (t := v ++ [x]) (r := 0 :: w) rfl
  refine ⟨r, ?_⟩
  rw [List.nil_append, List.nil_append, hk, List.replicate_succ, List.cons_append, hr] at htrim
  exact htrim

/-- A blank line leaves zeros over what was kept. -/
theorem trim_blank {u c w : List UInt8} (hu : 0 ∉ u)
    (hblank : ((u ++ c).takeWhile (· ≠ 0)).rdropWhile isSpace = []) :
    ∃ r, (trim isSpace 0 ((u ++ c).takeWhile (· ≠ 0)).length
      ((u ++ c).takeWhile (· ≠ 0) ++ 0 :: w)).2 = List.replicate u.length 0 ++ r := by
  have hall : ∀ x ∈ u, decide (x ≠ 0) = true := by
    intro x hx
    exact decide_eq_true fun heq => hu (heq ▸ hx)
  have hle : u.length ≤ ((u ++ c).takeWhile (· ≠ 0)).length := by
    rw [List.takeWhile_append_of_pos hall, List.length_append]
    exact Nat.le_add_right _ _
  obtain ⟨k, hk⟩ := Nat.exists_eq_add_of_le hle
  have htrim := trim_append (q := isSpace) (u := []) (t := (u ++ c).takeWhile (· ≠ 0))
    (r := 0 :: w) rfl
  rw [hblank, List.nil_append, List.length_nil, Nat.sub_zero] at htrim
  rw [htrim]
  refine ⟨List.replicate k 0 ++ 0 :: w, ?_⟩
  rw [hk, ← List.replicate_append_replicate, List.append_assoc (List.replicate u.length 0)]
  rfl

/-- A turn of the reader does to the text what it does in the buffer. -/
theorem readTurn_lineTurn {s : Reader} {t : List UInt8 × List UInt8} (h : s.Holds t) :
    Sum.LiftRel (Option.Rel ReadsText) Reader.Holds (readTurn s) (lineTurn t) := by
  have hroom := h.room
  rw [readTurn, lineTurn]
  cases hc : chunk (maxLineSize - t.1.length) t.2 with
  | none =>
    obtain ⟨r, hr⟩ := h.split
    have hlen : t.1.length + r.length = maxLineSize + 1 := by
      rw [← List.length_append, ← hr, h.length]
    rw [h.last, h.file, hr, myReadLine_append (by omega), hc]
    exact .inl .none
  | some x =>
    obtain ⟨c, file⟩ := x
    obtain ⟨line, w, hread, hsplit, hlen, hline⟩ := h.read hc
    obtain ⟨-, hcle, -⟩ := chunk_spec hc
    rw [hread]
    simp only
    set text := (t.1 ++ c).takeWhile (· ≠ 0) with htext
    have hno : 0 ∉ text := zero_notMem_takeWhile _
    have hstr : str line 0 = text := by
      rw [hline]
      exact str_append (u := []) rfl hno
    have htextlen : text.length ≤ maxLineSize := by
      have hle : text.length ≤ (t.1 ++ c).length := (List.takeWhile_prefix _).length_le
      rw [List.length_append] at hle
      omega
    rw [hstr]
    by_cases hshort : text.length ≤ 1
    · rw [if_pos hshort, if_pos hshort]
      exact .inr ⟨h.last, h.room, hsplit, hlen, rfl, h.kept⟩
    · have hne : text ≠ [] := fun heq => hshort (by simp [heq])
      have hget : line.getD (text.length - 1) 0 = text.getLast hne := by
        rw [hline]
        exact getD_pred_length hne
      rw [if_neg hshort, if_neg hshort, hget, List.getLast?_eq_some_getLast hne]
      by_cases hlast : text.getLast hne = 10
      · obtain ⟨hcut, r, htrim⟩ := trim_line (w := w) hne hlast
        have hsome : ¬some (text.getLast hne) ≠ some 10 := fun hnot => hnot (by rw [hlast])
        rw [if_neg (not_not.mpr hlast), if_neg hsome, hline, htrim]
        simp only [List.length_eq_zero_iff]
        have hlen' : (text.rdropWhile isSpace ++ 0 :: 0 :: r).length = maxLineSize + 1 := by
          have hkeep := trim_length isSpace 0 text.length line
          rw [hline, htrim, ← hline] at hkeep
          exact hkeep.trans hlen
        have hno' : 0 ∉ text.rdropWhile isSpace := fun hmem => hno (mem_of_mem_rdropWhile hmem)
        by_cases hblank : text.rdropWhile isSpace = []
        · have hkept : 0 ∉ t.1 := (takeWhile_append_of_kept h.kept).resolve_left hne
          obtain ⟨r', hr'⟩ := trim_blank (w := w) hkept hblank
          rw [← htext, htrim] at hr'
          rw [if_pos hblank, if_pos hblank]
          refine .inr ⟨?_, ?_, ⟨r', hr'⟩, hlen', rfl, .inr ?_⟩
          · rw [List.length_replicate]
            exact h.last
          · rw [List.length_replicate]
            exact h.room
          · rw [List.length_replicate]
        · have hget' : (text.rdropWhile isSpace ++ 0 :: 0 :: r).getD
              ((text.rdropWhile isSpace).length - 1) 0 =
                (text.rdropWhile isSpace).getLast hblank := getD_pred_length hblank
          rw [if_neg hblank, if_neg hblank, hget', List.getLast?_eq_some_getLast hblank]
          by_cases hback : (text.rdropWhile isSpace).getLast hblank = 92
          · have hsome' : some ((text.rdropWhile isSpace).getLast hblank) = some 92 := by rw [hback]
            have hdrop := List.dropLast_append_getLast hblank
            rw [if_pos hback, if_pos hsome']
            refine .inr ⟨?_, ?_, ⟨92 :: 0 :: 0 :: r, ?_⟩, hlen', rfl, .inl ?_⟩
            · exact List.length_dropLast.symm
            · simp only [List.length_dropLast]
              omega
            · conv_lhs => rw [← hdrop, hback]
              simp
            · exact fun hmem => hno' (List.mem_of_mem_dropLast hmem)
          · have hsome' : ¬some ((text.rdropWhile isSpace).getLast hblank) = some 92 :=
              fun heq => hback (Option.some.inj heq)
            rw [if_neg hback, if_neg hsome']
            exact .inl (.some ⟨⟨hno', ⟨r, rfl⟩, hlen'⟩, rfl⟩)
      · have hsome : some (text.getLast hne) ≠ some 10 := fun heq => hlast (Option.some.inj heq)
        rw [if_pos hlast, if_pos hsome]
        exact .inl .none

/-! ## A line read -/

/-- What is left of the file after a turn that has read something. -/
def restOf : Option (List UInt8 × List UInt8) ⊕ (List UInt8 × List UInt8) → Option (List UInt8)
  | .inl x => x.map Prod.snd
  | .inr t => some t.2

theorem lineTurn_rest {t : List UInt8 × List UInt8} {file : List UInt8}
    (h : restOf (lineTurn t) = some file) : file.length < t.2.length := by
  rw [lineTurn] at h
  cases hc : chunk (maxLineSize - t.1.length) t.2 with
  | none =>
    rw [hc] at h
    cases h
  | some x =>
    obtain ⟨c, rest⟩ := x
    obtain ⟨hsplit, -, hne⟩ := chunk_spec hc
    have hlt : rest.length < t.2.length := by
      rw [hsplit, List.length_append]
      exact Nat.lt_add_of_pos_left (List.length_pos_of_ne_nil hne)
    rw [hc] at h
    simp only at h
    split at h
    · cases h
      exact hlt
    · split at h
      · cases h
      · split at h
        · cases h
          exact hlt
        · split at h
          · cases h
            exact hlt
          · cases h
            exact hlt

theorem lineTurn_decreases (t t' : List UInt8 × List UInt8) (h : lineTurn t = .inr t') :
    t'.2.length < t.2.length :=
  lineTurn_rest (by rw [h]; rfl)

theorem readText_of_inl {t : List UInt8 × List UInt8} {r : Option (List UInt8 × List UInt8)}
    (h : lineTurn t = .inl r) : readText t.1 t.2 = r := by
  rw [readText, Loop.run_eq_of_inl h]
  rfl

theorem readText_of_inr {t t' : List UInt8 × List UInt8} (h : lineTurn t = .inr t') :
    readText t.1 t.2 = readText t'.1 t'.2 := by
  rw [readText, Loop.run_eq_of_inr (μ := fun t => t.2.length) lineTurn_decreases h, readText]

/-- What `_MyReadLine` reads does not depend on what the buffer held before. -/
theorem _myReadLine_readText {line : List UInt8} (hline : line.length = maxLineSize + 1)
    (file : List UInt8) : Option.Rel ReadsText (_myReadLine line file) (readText [] file) := by
  have hstart : Reader.Holds ⟨0, line, file⟩ ([], file) :=
    ⟨rfl, Nat.le_add_left 2 510, ⟨line, rfl⟩, hline, rfl, .inl List.not_mem_nil⟩
  have hrun := Loop.run_simulates (fun s t => readTurn_lineTurn) (file.length + 1) hstart
  rw [_myReadLine, readText]
  generalize Loop.run readTurn _ _ = x at hrun ⊢
  generalize Loop.run lineTurn _ _ = y at hrun ⊢
  cases hrun with
  | none => exact .none
  | some hrel => exact hrel

/-- The turn that answers a line. -/
theorem readText_turn {acc file : List UInt8} {x : List UInt8 × List UInt8}
    (h : readText acc file = some x) :
    ∃ t, lineTurn t = .inl (some x) ∧ t.2.length ≤ file.length := by
  obtain ⟨r, hr⟩ := Loop.exists_run_of_decreases lineTurn_decreases
    (Nat.lt_succ_self (acc, file).2.length)
  have hsome : r = some x := by
    rw [readText, hr] at h
    exact h
  obtain ⟨k, t, hturn, hlast⟩ := Loop.returns_iff_turn.mp ⟨_, hr⟩
  exact ⟨t, hsome ▸ hlast, Loop.turn_measure_le lineTurn_decreases hturn⟩

/-- A line read leaves less of the file. -/
theorem readText_decreases {acc file text file' : List UInt8}
    (h : readText acc file = some (text, file')) : file'.length < file.length := by
  obtain ⟨t, hturn, hle⟩ := readText_turn h
  exact Nat.lt_of_lt_of_le (lineTurn_rest (by rw [hturn]; rfl)) hle

/-! ## All the lines -/

/-- The texts of the lines `_MyReadLine` reads, at most `n`. -/
def readLines : Nat → List UInt8 → List (List UInt8)
  | 0, _ => []
  | n + 1, file =>
    match readText [] file with
    | none => []
    | some (text, file) => text :: readLines n file

/-- The texts of the lines that successive calls of `_MyReadLine` read. -/
def linesRead (file : List UInt8) : List (List UInt8) := readLines (file.length + 1) file

/-- A file has fewer lines than bytes allow. -/
theorem readLines_congr {n m : Nat} {file : List UInt8} (hn : file.length < n)
    (hm : file.length < m) : readLines n file = readLines m file := by
  induction n generalizing m file with
  | zero => exact absurd hn (Nat.not_lt_zero _)
  | succ n ih =>
    cases m with
    | zero => exact absurd hm (Nat.not_lt_zero _)
    | succ m =>
      rw [readLines, readLines]
      cases h : readText [] file with
      | none => rfl
      | some x =>
        obtain ⟨text, file'⟩ := x
        have hlt := readText_decreases h
        exact congrArg (text :: ·) (ih (by omega) (by omega))

theorem linesRead_of_none {file : List UInt8} (h : readText [] file = none) :
    linesRead file = [] := by
  rw [linesRead, readLines, h]

theorem linesRead_of_some {file text file' : List UInt8}
    (h : readText [] file = some (text, file')) : linesRead file = text :: linesRead file' := by
  rw [linesRead, readLines, h]
  exact congrArg (text :: ·) (readLines_congr (readText_decreases h) (Nat.lt_succ_self _))

theorem lineTurn_noZero {t : List UInt8 × List UInt8} {text file : List UInt8}
    (h : lineTurn t = .inl (some (text, file))) : 0 ∉ text := by
  rw [lineTurn] at h
  cases hc : chunk (maxLineSize - t.1.length) t.2 with
  | none =>
    rw [hc] at h
    cases h
  | some x =>
    rw [hc] at h
    simp only at h
    split at h
    · cases h
    · split at h
      · cases h
      · split at h
        · cases h
        · split at h
          · cases h
          · cases h
            exact fun hmem => zero_notMem_takeWhile _ (mem_of_mem_rdropWhile hmem)

/-- No line has a zero in it. -/
theorem linesRead_noZero {file text : List UInt8} (h : text ∈ linesRead file) : 0 ∉ text := by
  induction hlen : file.length using Nat.strong_induction_on generalizing file with
  | _ n ih =>
    cases hread : readText [] file with
    | none =>
      rw [linesRead_of_none hread] at h
      exact absurd h List.not_mem_nil
    | some x =>
      obtain ⟨text', file'⟩ := x
      rw [linesRead_of_some hread] at h
      rcases List.mem_cons.mp h with rfl | hmem
      · obtain ⟨t, hturn, -⟩ := readText_turn hread
        exact lineTurn_noZero hturn
      · exact ih _ (hlen ▸ readText_decreases hread) hmem rfl

end Inf
