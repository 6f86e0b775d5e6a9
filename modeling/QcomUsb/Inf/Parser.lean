-- SUMMARY: The loop over the lines of an INF file, in the buffer as the code runs it and on the texts of the lines.
import QcomUsb.Inf.DevInfo
import QcomUsb.Inf.Lines

/-!
# Parsing an INF file

`processData` reads a line, strips it in the buffer, and updates the section it is in, the list
of models, the device table or the count. The update functions take the strings the pointers of
the source point to. The zeros that `strsep` leaves in the value are left out: the next line goes
over them. Allocations succeed.
-/

namespace Inf

open CString

/-! ## Strings of the kernel -/

/-- `tolower`. -/
def toLower (c : UInt8) : UInt8 :=
  if (65 ≤ c ∧ c ≤ 90) ∨ (192 ≤ c ∧ c ≤ 214) ∨ (216 ≤ c ∧ c ≤ 222) then c + 32 else c

/-- `!strncasecmp(s, lit, strlen(lit))`. -/
def startsWith (s lit : List UInt8) : Bool :=
  (s.take lit.length).map toLower = lit.map toLower

/-- `strsep`: the string up to the separator, and the one behind it. -/
def strsep (s : List UInt8) (c : UInt8) : List UInt8 × Option (List UInt8) :=
  (s.takeWhile (· ≠ c), if c ∈ s then some (s.dropWhile (· ≠ c)).tail else none)

/-- `isdigit`. -/
def isDigit (c : UInt8) : Bool := 48 ≤ c && c ≤ 57

/-- The value of a hexadecimal digit. -/
def hexDigit (c : UInt8) : Option UInt32 :=
  let l := c ||| 32
  if 48 ≤ c ∧ c ≤ 57 then some (c - 48).toUInt32
  else if 97 ≤ l ∧ l ≤ 102 then some (l - 87).toUInt32
  else none

/-- The digits at the start of a string, after the value `v`. -/
def hexValue (v : UInt32) : List UInt8 → UInt32
  | [] => v
  | c :: s =>
    match hexDigit c with
    | none => v
    | some d => hexValue (v * 16 + d) s

/-- `(int)simple_strtoul(s, NULL, 16)`. -/
def strtoul16 (s : List UInt8) : UInt32 :=
  match s with
  | 48 :: x :: rest => if x ||| 32 = 120 then hexValue 0 rest else hexValue 0 s
  | _ => hexValue 0 s

/-! ## The update functions -/

/-- The bytes of `QTIDEV_INF_CLASS_STR` and of the other names of the header. -/
def classStr : List UInt8 := [67, 108, 97, 115, 115]
def versionStr : List UInt8 := [86, 101, 114, 115, 105, 111, 110]
def stringStr : List UInt8 := [83, 116, 114, 105, 110, 103]
def manufacturerStr : List UInt8 := [77, 97, 110, 117, 102, 97, 99, 116, 117, 114, 101, 114]
def classNetStr : List UInt8 := [78, 101, 116]
def classModemStr : List UInt8 := [77, 111, 100, 101, 109]
def classPortsStr : List UInt8 := [80, 111, 114, 116, 115]
def classUsbStr : List UInt8 := [85, 83, 66]

/-- `updateVersion`. -/
def updateVersion (f : FileInfo) (key value : List UInt8) : FileInfo :=
  if key.length = classStr.length ∧ startsWith key classStr then
    if startsWith value classNetStr then { f with mClass := .net }
    else if startsWith value classModemStr then { f with mClass := .modem }
    else if startsWith value classPortsStr then { f with mClass := .ports }
    else if startsWith value classUsbStr then { f with mClass := .usb }
    else { f with mClass := .unknown }
  else f

/-- Bytes that `rstrip` and `lskip` take away. -/
def isBlank (c : UInt8) : Bool := isSpace c || c == 37 || c == 34

/-- `lskip(rstrip(s))`. -/
def strip (s : List UInt8) : List UInt8 := (s.rdropWhile isBlank).dropWhile isBlank

/-- The loop of `updateManufacturer` after the first name, `model`. The newest name is in front. -/
def updateModels (model : List UInt8) : Nat → Option (List UInt8) → List (List UInt8) →
    List (List UInt8)
  | 0, _, mfgInfo => mfgInfo
  | _ + 1, none, mfgInfo => mfgInfo
  | n + 1, some data, mfgInfo =>
    let (tmp, data) := strsep data 44
    let name := (model ++ 46 :: strip tmp).take (maxKeySize - 2)
    updateModels model n data (name :: mfgInfo)

/-- `updateManufacturer`. A name is cut by `snprintf`. -/
def updateManufacturer (mfgInfo : List (List UInt8)) (value : List UInt8) : List (List UInt8) :=
  if mfgInfo ≠ [] ∨ value = [] then mfgInfo
  else
    let (tmp, data) := strsep value 44
    let model := (strip tmp).take (maxKeySize - 2)
    updateModels model value.length data [model]

/-- The ids after each `_`, from the index `idx` on. -/
def storeIds (m : Nat) : Nat → Nat → List UInt8 → FileInfo → FileInfo
  | 0, _, _, f => f
  | n + 1, idx, data, f =>
    match (strsep data 95).2 with
    | none => f
    | some data => storeIds m n (idx + 1) data (f.storeInt (vidPidIfaceAt m idx) (strtoul16 data))

/-- `updateDeviceInfo`. -/
def updateDeviceInfo (f : FileInfo) (key value : List UInt8) : FileInfo :=
  if f.mNumResp > f.mLength then f
  else
    let m := f.mNumResp
    let f := f.storeInt (devTypeAt m) 5
    let (tmp, rest) := strsep value 44
    let (f, data) :=
      match rest with
      | none => (f, value)
      | some data =>
        let tmp := tmp.dropWhile fun c => !isDigit c
        let val := if tmp ≠ [] then strtoul16 tmp else 0
        (f.storeInt (devTypeAt m) (if val ≠ 0 then 1 else 2), data)
    let f := storeIds m 3 0 data f
    let f := f.storeBytes (keyAt m) (strncpy0 key maxKeySize)
    { f with mNumResp := m + 1 }

/-! ## The state of the loop -/

/-- `sectionInfo_t`. -/
inductive SectionInfo where
  | version | manufacturer | deviceInfo | string | unknown
deriving DecidableEq

/-- The locals of `processData` that outlive a line, and what `pFileInfo` points to. -/
structure State where
  sectionInfo : SectionInfo
  filevalid : Bool
  count : UInt32
  mfgInfo : List (List UInt8)
  info : Option FileInfo

/-- What `processData` returns, with the file info it leaves. -/
structure Result where
  ret : UInt32
  info : Option FileInfo

def State.start (info : Option FileInfo) : State := ⟨.unknown, false, 0, [], info⟩

/-- `return count`. -/
def State.result (s : State) : Result := ⟨s.count, s.info⟩

/-- `return -1`. -/
def State.error (s : State) : Result := ⟨-1, s.info⟩

/-- The section that a header line opens. A match frees the list of models. -/
def openSection (s : State) (name : List UInt8) : State :=
  let name := name.take (maxKeySize - 1)
  if startsWith name manufacturerStr then { s with sectionInfo := .manufacturer }
  else if startsWith name versionStr then { s with sectionInfo := .version, filevalid := true }
  else if startsWith name stringStr then { s with sectionInfo := .string }
  else if name ∈ s.mfgInfo then { s with sectionInfo := .deviceInfo, mfgInfo := [] }
  else { s with sectionInfo := .unknown }

/-- The `switch` over the section, for the line `name = value`. -/
def keyValue (flag : Bool) (s : State) (name value : List UInt8) : State :=
  match s.sectionInfo with
  | .version =>
    if flag then { s with info := s.info.map fun f => updateVersion f name value } else s
  | .manufacturer => { s with mfgInfo := updateManufacturer s.mfgInfo value }
  | .deviceInfo =>
    if flag then
      { s with info := s.info.map fun f =>
          if f.mLength ≤ f.mNumResp then f else updateDeviceInfo f name value }
    else { s with count := s.count + 1 }
  | .string =>
    if flag then { s with info := s.info.map fun f => updateDevStringInfo f name value } else s
  | .unknown => s

/-! ## A line in the buffer -/

/-- Bytes that `strchr` does not find in `QTIDEV_INF_DICT_OPERATOR` and the like. -/
def notDict (c : UInt8) : Bool := c ≠ 58 && c ≠ 61
def notComment (c : UInt8) : Bool := c ≠ 59 && c ≠ 35
def notEnd (c : UInt8) : Bool := c ≠ 93

/-- The block of `processData` on a `name[=:]value` pair whose name ends at `stop`: the name, the
value and the buffer. -/
def splitPair (line : List UInt8) (start stop : Nat) : List UInt8 × List UInt8 × List UInt8 :=
  let line := rstrip isBlank (line.set stop 0) start
  let value := stop + 1
  let stop := skip notComment line value
  let line := if line.getD stop 0 ≠ 0 then line.set stop 0 else line
  let value := skip isBlank line value
  let line := rstrip isBlank line value
  (str line start, str line value, line)

/-- The body of the loop of `processData` on the line in the buffer. -/
def processLine (flag : Bool) (s : State) (line : List UInt8) : Result ⊕ (State × List UInt8) :=
  let line := rstrip isBlank line 0
  let start := skip isBlank line 0
  let c := line.getD start 0
  -- `strchr` finds the zero that ends its string as well
  if c = 0 ∨ !notComment c then .inr (s, line)
  else if c = 91 then
    if flag = false ∧ s.sectionInfo = .deviceInfo then .inl s.result
    else
      let stop := skip notEnd line (start + 1)
      if line.getD stop 0 = 93 then
        let line := line.set stop 0
        .inr (openSection s (str line (start + 1)), line)
      else .inl s.error
  else if c ≠ 0 ∧ s.sectionInfo ≠ .unknown ∧ s.filevalid then
    let stop := skip notDict line start
    let c := line.getD stop 0
    if c ≠ 0 ∧ notDict c then .inr (s, line)
    else
      let pair := splitPair line start stop
      .inr (keyValue flag s pair.1 pair.2.1, pair.2.2)
  else .inr (s, line)

/-- A turn of the loop of `processData`: the state, the buffer and the rest of the file. -/
def turn (flag : Bool) (t : State × List UInt8 × List UInt8) :
    Result ⊕ (State × List UInt8 × List UInt8) :=
  match _myReadLine t.2.1 t.2.2 with
  | none => .inl t.1.result
  | some (line, file) =>
    match processLine flag t.1 line with
    | .inl r => .inl r
    | .inr (s, line) => .inr (s, line, file)

/-- `char line[QTIDEV_INF_MAX_LINE_SIZE + 1] = ""`. -/
def emptyLine : List UInt8 := List.replicate (maxLineSize + 1) 0

/-- `processData`, on a file that can be read. -/
def processData (info : Option FileInfo) (file : List UInt8) (flag : Bool) : Option Result :=
  if flag ∧ info = none then some ⟨-1, info⟩
  else Loop.run (turn flag) (file.length + 1) (State.start info, emptyLine, file)

/-! ## A line as a text -/

/-- The name of a line: what stands in front of the separator. -/
def nameOf (t : List UInt8) : List UInt8 := (t.takeWhile notDict).rdropWhile isBlank

/-- The value of a line: what stands between the separator and a comment. -/
def valueOf (t : List UInt8) : List UInt8 :=
  (((t.dropWhile notDict).tail.takeWhile notComment).dropWhile isBlank).rdropWhile isBlank

/-- The body of the loop of `processData` on the text of a line. -/
def processText (flag : Bool) (s : State) (text : List UInt8) : Result ⊕ State :=
  match strip text with
  | [] => .inr s
  | c :: t =>
    if !notComment c then .inr s
    else if c = 91 then
      if flag = false ∧ s.sectionInfo = .deviceInfo then .inl s.result
      else if 93 ∈ t then .inr (openSection s (t.takeWhile notEnd))
      else .inl s.error
    else if s.sectionInfo ≠ .unknown ∧ s.filevalid then
      .inr (keyValue flag s (nameOf (c :: t)) (valueOf (c :: t)))
    else .inr s

/-- The buffer after `lskip(rstrip(start))`. -/
theorem strip_line {line text : List UInt8} (h : HoldsText line text) :
    ∃ u r, rstrip isBlank line 0 = u ++ (strip text ++ 0 :: 0 :: r) ∧
      u.length = skip isBlank (rstrip isBlank line 0) 0 := by
  obtain ⟨r, rfl⟩ := h.split
  have hno : 0 ∉ text.rdropWhile isBlank := fun hmem => h.noZero (mem_of_mem_rdropWhile hmem)
  have hstrip := rstrip_append (q := isBlank) (u := []) (r := 0 :: r) rfl h.noZero
  obtain ⟨r', hr'⟩ := replicate_append_two (r := r) (text.length - (text.rdropWhile isBlank).length)
  rw [List.nil_append, List.nil_append, List.length_nil, hr'] at hstrip
  have hskip := skip_append (q := isBlank) (u := []) (r := 0 :: r') rfl hno
  rw [List.nil_append, List.length_nil, Nat.zero_add] at hskip
  refine ⟨(text.rdropWhile isBlank).takeWhile isBlank, r', ?_, ?_⟩
  · rw [hstrip, strip, ← List.append_assoc, List.takeWhile_append_dropWhile]
  · rw [hstrip, hskip]

theorem zero_notMem_strip {text : List UInt8} (h : 0 ∉ text) : 0 ∉ strip text := fun hmem =>
  h (mem_of_mem_rdropWhile ((List.dropWhile_suffix isBlank).mem hmem))

/-- The name and the value that a line leaves in the buffer. -/
theorem splitPair_spec {u t r : List UInt8} {start : Nat} (hu : u.length = start) (ht : 0 ∉ t) :
    let line := u ++ (t ++ 0 :: 0 :: r)
    (splitPair line start (skip notDict line start)).1 = nameOf t ∧
      (splitPair line start (skip notDict line start)).2.1 = valueOf t := by
  intro line₀
  set stop₀ := skip notDict line₀ start
  rw [splitPair]
  set line₁ := rstrip isBlank (line₀.set stop₀ 0) start
  set value₀ := stop₀ + 1
  set stop₁ := skip notComment line₁ value₀
  set line₂ := if line₁.getD stop₁ 0 ≠ 0 then line₁.set stop₁ 0 else line₁
  set value₁ := skip isBlank line₂ value₀
  set line₃ := rstrip isBlank line₂ value₁
  set v := t.takeWhile notDict with hv
  set x := (t.dropWhile notDict).tail with hx
  set y := x.takeWhile notComment with hy
  have hvno : 0 ∉ v := fun hmem => ht ((List.takeWhile_prefix _).mem hmem)
  have hxno : 0 ∉ x := fun hmem => ht ((List.dropWhile_suffix _).mem (List.mem_of_mem_tail hmem))
  have hyno : 0 ∉ y := fun hmem => hxno ((List.takeWhile_prefix _).mem hmem)
  have hstop₀ : stop₀ = start + v.length := skip_append hu ht
  -- the name ends at the separator, and the value starts behind it
  obtain ⟨r₁, hr₁⟩ : ∃ r₁, (t.dropWhile notDict ++ 0 :: 0 :: r).tail = x ++ 0 :: r₁ := by
    rw [hx]
    cases t.dropWhile notDict with
    | nil => exact ⟨r, rfl⟩
    | cons _ w => exact ⟨0 :: r, rfl⟩
  set k := v.length - (v.rdropWhile isBlank).length with hk
  have hle : (v.rdropWhile isBlank).length ≤ v.length := (List.rdropWhile_prefix _ v).length_le
  have hline₁ : line₁ =
      u ++ (v.rdropWhile isBlank ++ (List.replicate k 0 ++ 0 :: (x ++ 0 :: r₁))) := by
    have hset := set_skip (q := notDict) (r := 0 :: r) hu ht
    rw [hr₁] at hset
    exact (congrArg (rstrip isBlank · start) hset).trans (rstrip_append hu hvno)
  set w := u ++ (v.rdropWhile isBlank ++ (List.replicate k 0 ++ [0])) with hw
  have hwlen : w.length = value₀ := by
    rw [hw]
    simp only [List.length_append, List.length_replicate, List.length_singleton]
    omega
  have hsplit : line₁ = w ++ (x ++ 0 :: r₁) := by
    rw [hline₁, hw]
    simp
  -- the value ends at a comment, and is stripped
  obtain ⟨r₂, hline₂⟩ : ∃ r₂, line₂ = w ++ (y ++ 0 :: r₂) := by
    have hcut := ite_set_skip (q := notComment) (r := r₁) hwlen hxno
    rw [← hsplit] at hcut
    exact hcut
  have hvalue₁ : value₁ = value₀ + (y.takeWhile isBlank).length := by
    have hskip := skip_append (q := isBlank) (r := r₂) hwlen hyno
    rw [← hline₂] at hskip
    exact hskip
  have hlen : (w ++ y.takeWhile isBlank).length = value₁ := by
    rw [hvalue₁, List.length_append, hwlen]
  have hdno : 0 ∉ y.dropWhile isBlank := fun hmem => hyno ((List.dropWhile_suffix _).mem hmem)
  have hline₃ : line₃ = (w ++ y.takeWhile isBlank) ++ (valueOf t ++
      (List.replicate ((y.dropWhile isBlank).length - (valueOf t).length) 0 ++ 0 :: r₂)) := by
    have hstrip := rstrip_append (q := isBlank) (r := r₂) hlen hdno
    rw [List.append_assoc, ← List.append_assoc (y.takeWhile isBlank),
      List.takeWhile_append_dropWhile, ← hline₂] at hstrip
    rw [List.append_assoc]
    rw [List.append_assoc] at hstrip
    exact hstrip
  constructor
  · obtain ⟨z, hz⟩ := replicate_append_cons (α := UInt8) (r := y.takeWhile isBlank ++ (valueOf t ++
      (List.replicate ((y.dropWhile isBlank).length - (valueOf t).length) 0 ++ 0 :: r₂))) k
    have hname : line₃ = u ++ (nameOf t ++ 0 :: z) := by
      rw [hline₃, hw, ← hz, nameOf, ← hv]
      simp
    rw [hname]
    exact str_append hu fun hmem => hvno (mem_of_mem_rdropWhile hmem)
  · obtain ⟨z, hz⟩ := replicate_append_cons (α := UInt8) (r := r₂)
      ((y.dropWhile isBlank).length - (valueOf t).length)
    rw [hline₃, hz]
    exact str_append hlen fun hmem => hdno (mem_of_mem_rdropWhile hmem)

theorem splitPair_length (line : List UInt8) (start stop : Nat) :
    (splitPair line start stop).2.2.length = line.length := by
  rw [splitPair]
  simp only [rstrip_length]
  split
  · rw [List.length_set, rstrip_length, List.length_set]
  · rw [rstrip_length, List.length_set]

/-- A search for the end of a section name stops at it, if there is one. -/
theorem head_dropWhile_notEnd (t : List UInt8) : (t.dropWhile notEnd).headD 0 = 93 ↔ 93 ∈ t := by
  induction t with
  | nil => decide
  | cons x t ih =>
    by_cases hx : x = 93
    · simp [notEnd, hx]
    · rw [List.dropWhile_cons_of_pos (by simp [notEnd, hx]), ih, List.mem_cons]
      exact ⟨.inr, fun h => h.resolve_left (Ne.symm hx)⟩

/-- A search for a separator stops at one, or at the end of the string. -/
theorem stop_notDict (t : List UInt8) :
    ¬((t.dropWhile notDict).headD 0 ≠ 0 ∧ notDict ((t.dropWhile notDict).headD 0) = true) := by
  induction t with
  | nil => decide
  | cons x t ih =>
    by_cases hx : notDict x = true
    · rwa [List.dropWhile_cons_of_pos hx]
    · rw [List.dropWhile_cons_of_neg hx]
      exact fun h => hx h.2

/-- A line does in the buffer what its text says, and keeps the length of the buffer. -/
theorem processLine_processText (flag : Bool) (s : State) {line text : List UInt8}
    (h : HoldsText line text) :
    Sum.LiftRel Eq (fun x s' => x.1 = s' ∧ x.2.length = maxLineSize + 1)
      (processLine flag s line) (processText flag s text) := by
  obtain ⟨u, r, hline, hu⟩ := strip_line h
  have hno : 0 ∉ strip text := zero_notMem_strip h.noZero
  have hlen : (rstrip isBlank line 0).length = maxLineSize + 1 := by
    rw [rstrip_length, h.length]
  rw [processLine, processText]
  simp only
  rw [hline] at hu hlen ⊢
  rw [← hu]
  cases hstrip : strip text with
  | nil =>
    rw [List.nil_append, getD_append rfl, if_pos (.inl rfl)]
    rw [hstrip] at hlen
    exact .inr ⟨rfl, hlen⟩
  | cons c t =>
    rw [hstrip] at hno hlen
    have hc : c ≠ 0 := fun heq => hno (heq ▸ List.mem_cons_self)
    have ht : 0 ∉ t := fun hmem => hno (List.mem_cons_of_mem c hmem)
    have hhead : (u ++ (c :: t ++ 0 :: 0 :: r)).getD u.length 0 = c := getD_append rfl
    rw [hhead]
    simp only
    by_cases hcomment : (!notComment c) = true
    · rw [if_pos (.inr hcomment), if_pos hcomment]
      exact .inr ⟨rfl, hlen⟩
    · rw [if_neg (not_or.mpr ⟨hc, hcomment⟩), if_neg hcomment]
      by_cases hsection : c = 91
      · rw [if_pos hsection, if_pos hsection]
        by_cases hbreak : flag = false ∧ s.sectionInfo = .deviceInfo
        · rw [if_pos hbreak, if_pos hbreak]
          exact .inl rfl
        · rw [if_neg hbreak, if_neg hbreak]
          have hu' : (u ++ [c]).length = u.length + 1 := by simp
          have hsplit : u ++ (c :: t ++ 0 :: 0 :: r) = (u ++ [c]) ++ (t ++ 0 :: 0 :: r) := by simp
          have hset := set_skip (q := notEnd) (r := 0 :: r) hu' ht
          have hstr := str_append (r := (t.dropWhile notEnd ++ 0 :: 0 :: r).tail) hu'
            fun hmem => ht ((List.takeWhile_prefix notEnd).mem hmem)
          rw [← hset] at hstr
          rw [hsplit, getD_skip hu' ht, hstr]
          by_cases hend : 93 ∈ t
          · rw [if_pos ((head_dropWhile_notEnd t).mpr hend), if_pos hend]
            exact .inr ⟨rfl, by rw [List.length_set, ← hsplit, hlen]⟩
          · rw [if_neg fun heq => hend ((head_dropWhile_notEnd t).mp heq), if_neg hend]
            exact .inl rfl
      · rw [if_neg hsection, if_neg hsection]
        by_cases hknown : s.sectionInfo ≠ .unknown ∧ s.filevalid = true
        · obtain ⟨hname, hvalue⟩ := splitPair_spec (r := r) (u := u) rfl hno
          have hstop := getD_skip (q := notDict) (u := u) (r := 0 :: r) rfl hno
          rw [if_pos ⟨hc, hknown⟩, if_pos hknown, hstop, if_neg (stop_notDict _), hname, hvalue]
          refine .inr ⟨rfl, ?_⟩
          rw [splitPair_length, hlen]
        · rw [if_neg fun hand => hknown hand.2, if_neg hknown]
          exact .inr ⟨rfl, hlen⟩

/-! ## The loop on texts -/

/-- A turn of the loop of `processData` without the buffer. -/
def textTurn (flag : Bool) (t : State × List UInt8) : Result ⊕ (State × List UInt8) :=
  match readText [] t.2 with
  | none => .inl t.1.result
  | some (text, file) =>
    match processText flag t.1 text with
    | .inl r => .inl r
    | .inr s => .inr (s, file)

/-- A turn of the loop goes from `t`, and its buffer is whole. -/
def WithBuffer (t : State × List UInt8 × List UInt8) (t' : State × List UInt8) : Prop :=
  t.1 = t'.1 ∧ t.2.1.length = maxLineSize + 1 ∧ t.2.2 = t'.2

/-- Whatever the buffer held, a turn does what the state and the file say. -/
theorem turn_textTurn (flag : Bool) {t : State × List UInt8 × List UInt8} {t' : State × List UInt8}
    (h : WithBuffer t t') : Sum.LiftRel Eq WithBuffer (turn flag t) (textTurn flag t') := by
  obtain ⟨s, line, file⟩ := t
  obtain ⟨s', file'⟩ := t'
  obtain ⟨rfl, hlen, rfl⟩ : s = s' ∧ line.length = maxLineSize + 1 ∧ file = file' := h
  rw [turn, textTurn]
  have hread := _myReadLine_readText hlen file
  simp only
  generalize _myReadLine line file = x at hread ⊢
  generalize readText [] file = y at hread ⊢
  cases hread with
  | none => exact .inl rfl
  | @some x y hxy =>
    obtain ⟨line', rest⟩ := x
    obtain ⟨text, rest'⟩ := y
    obtain ⟨hholds, rfl⟩ : HoldsText line' text ∧ rest = rest' := hxy
    have hline := processLine_processText flag s hholds
    simp only
    generalize processLine flag s line' = x at hline ⊢
    generalize processText flag s text = y at hline ⊢
    cases hline with
    | inl heq => exact .inl heq
    | inr hrel => exact .inr ⟨hrel.1, hrel.2, rfl⟩

/-- The loop over the texts of the lines. -/
def processTexts (flag : Bool) : State → List (List UInt8) → Result
  | s, [] => s.result
  | s, text :: texts =>
    match processText flag s text with
    | .inl r => r
    | .inr s => processTexts flag s texts

theorem run_textTurn (flag : Bool) {n : Nat} {file : List UInt8} (hn : file.length < n)
    (s : State) :
    Loop.run (textTurn flag) n (s, file) = some (processTexts flag s (linesRead file)) := by
  induction n generalizing file s with
  | zero => exact absurd hn (Nat.not_lt_zero _)
  | succ n ih =>
    rw [Loop.run, textTurn]
    cases h : readText [] file with
    | none =>
      rw [linesRead_of_none h]
      rfl
    | some x =>
      obtain ⟨text, file'⟩ := x
      have hlt := readText_decreases h
      rw [linesRead_of_some h, processTexts]
      simp only
      cases processText flag s text with
      | inl r => rfl
      | inr s' => exact ih (by omega) s'

/-- From any buffer the loop does what the texts of the lines say. -/
theorem run_turn (flag : Bool) {line : List UInt8} (hline : line.length = maxLineSize + 1)
    (file : List UInt8) (s : State) :
    Loop.run (turn flag) (file.length + 1) (s, line, file) =
      some (processTexts flag s (linesRead file)) := by
  have hrun := Loop.run_simulates (fun _ _ h => turn_textTurn flag h) (file.length + 1)
    (s := (s, line, file)) (t := (s, file)) ⟨rfl, hline, rfl⟩
  rw [run_textTurn flag (Nat.lt_succ_self _)] at hrun
  generalize Loop.run (turn flag) _ _ = x at hrun ⊢
  cases hrun with
  | some heq => rw [heq]

theorem processData_eq (info : Option FileInfo) (file : List UInt8) (flag : Bool)
    (h : ¬(flag = true ∧ info = none)) :
    processData info file flag = some (processTexts flag (.start info) (linesRead file)) := by
  rw [processData, if_neg h]
  exact run_turn flag (by rw [emptyLine, List.length_replicate]) file _

end Inf
