-- SUMMARY: The copy of a net buffer into one block of memory, and exactly when it is the whole packet or leaves nothing.
import QcomUsb.Ndis.TlpItem

/-!
# Data packets

A net buffer is a chain of memory descriptors. `MPUSB_RetriveDataPacket` copies its bytes behind
room for a QoS header, into memory it allocates or into the buffer of the caller.
`MPUSB_QueryDataPacket` walks the same chain for the length alone.
-/

namespace Ndis.DataPacket

open Memory

/-- An `MDL`. `mapped` says whether `NdisQueryMdl` finds an address for it. -/
structure Mdl where
  bytes : List UInt8
  mapped : Bool

/-- A `NET_BUFFER`, its data from `dataOffset` bytes into the chain on. The length is a `ULONG`. -/
structure NetBuffer where
  mdls : List Mdl
  dataOffset : Nat
  dataLength : Nat
  dataLength_lt : dataLength < 2 ^ 32

/-- The bytes of a chain. -/
def chainBytes (mdls : List Mdl) : List UInt8 := mdls.flatMap Mdl.bytes

/-- The data of a net buffer. -/
def NetBuffer.data (nb : NetBuffer) : List UInt8 :=
  ((chainBytes nb.mdls).drop nb.dataOffset).take nb.dataLength

/-- The data lies in the chain. -/
def NetBuffer.InChain (nb : NetBuffer) : Prop :=
  nb.dataLength ≤ (chainBytes nb.mdls).length - nb.dataOffset

/-! ## The query -/

/-- The locals of the loop of `MPUSB_QueryDataPacket`. -/
structure Query where
  offset : Nat
  pktLen : Nat
  bytesCopied : Nat

/-- A turn of the loop. -/
def Query.turn (q : Query) (mdl : Mdl) : Query :=
  if q.offset < mdl.bytes.length then
    let mdlLen := min (mdl.bytes.length - q.offset) q.pktLen
    { offset := 0, pktLen := q.pktLen - mdlLen, bytesCopied := q.bytesCopied + mdlLen }
  else { q with offset := q.offset - mdl.bytes.length }

def Query.run (q : Query) : List Mdl → Query
  | [] => q
  | mdl :: rest => if mdl.mapped then (q.turn mdl).run rest else { q with bytesCopied := 0 }

/-- `MPUSB_QueryDataPacket`: the `Length` it sets and returns. -/
def queryDataPacket (a : Tlp.Adapter) (nb : NetBuffer) : Nat :=
  if nb.dataLength = 0 ∨ nb.mdls = [] then 0
  else
    let q := (Query.mk nb.dataOffset nb.dataLength 0).run nb.mdls
    if q.bytesCopied = 0 then 0 else (q.bytesCopied + a.qosLen) % 2 ^ 32

/-! ## The copy -/

/-- The locals of the loop of `MPUSB_RetriveDataPacket`, and the memory. An observer keeps the
blocks that were written, each as its address and length. -/
structure Copy where
  offset : Nat
  pktLen : Nat
  bytesCopied : Nat
  pDest : Nat
  mem : Nat → UInt8
  written : List (Nat × Nat)

/-- A turn of the loop. -/
def Copy.turn (c : Copy) (mdl : Mdl) : Copy :=
  if c.offset < mdl.bytes.length then
    let mdlLen := min (mdl.bytes.length - c.offset) c.pktLen
    { offset := 0
      pktLen := c.pktLen - mdlLen
      bytesCopied := c.bytesCopied + mdlLen
      pDest := c.pDest + mdlLen
      mem := copyIn c.mem c.pDest ((mdl.bytes.drop c.offset).take mdlLen)
      written := c.written ++ [(c.pDest, mdlLen)] }
  else { c with offset := c.offset - mdl.bytes.length }

def Copy.run (c : Copy) : List Mdl → Copy
  | [] => c
  | mdl :: rest => if mdl.mapped then (c.turn mdl).run rest else { c with bytesCopied := 0 }

/-- The test behind the loop, where `pktLen` is what was not copied. -/
def Copy.zeroFill (c : Copy) : Copy :=
  if 0 < c.bytesCopied ∧ c.bytesCopied < c.pktLen then
    { c with
      mem := copyIn c.mem c.pDest (List.replicate (c.pktLen - c.bytesCopied) 0)
      written := c.written ++ [(c.pDest, c.pktLen - c.bytesCopied)] }
  else c

/-- What `MPUSB_RetriveDataPacket` returns and leaves: its result, `Length`, the memory, the blocks
written, and the address and size of what it allocated and did not free. -/
structure Retrieved where
  pktBuf : Option Nat
  length : Nat
  mem : Nat → UInt8
  written : List (Nat × Nat)
  allocated : Option (Nat × Nat)

/-- The size of the block that is allocated. -/
def bufLen (a : Tlp.Adapter) (nb : NetBuffer) : Nat := (nb.dataLength + a.qosLen) % 2 ^ 32

/-- `MPUSB_RetriveDataPacket`. `pool` is the block an allocation would find. -/
def retriveDataPacket (a : Tlp.Adapter) (nb : NetBuffer) (pktBuffer pool : Option Nat)
    (mem : Nat → UInt8) : Retrieved :=
  if nb.dataLength = 0 ∨ nb.mdls = [] then ⟨none, 0, mem, [], none⟩
  else
    match pktBuffer.or pool with
    | none => ⟨none, 0, mem, [], none⟩
    | some pktBuf =>
      let c := Copy.mk nb.dataOffset nb.dataLength 0 (pktBuf + a.qosLen) mem []
      let c := (c.run nb.mdls).zeroFill
      if c.bytesCopied = 0 then
        -- memory of its own is freed, but the buffer of the caller is returned
        ⟨pktBuffer, 0, c.mem, c.written, none⟩
      else
        ⟨some pktBuf, (c.bytesCopied + a.qosLen) % 2 ^ 32, c.mem, c.written,
          if pktBuffer.isNone then some (pktBuf, bufLen a nb) else none⟩

/-! ## What a call should do -/

/-- The packet can be copied: it is not empty, there is a buffer, and every descriptor is mapped. -/
def Readable (nb : NetBuffer) (pktBuffer pool : Option Nat) : Prop :=
  nb.dataLength ≠ 0 ∧ (pktBuffer.or pool).isSome ∧ ∀ mdl ∈ nb.mdls, mdl.mapped

/-- The size of the destination: what was allocated, or room for the header and the data. -/
def destSize (a : Tlp.Adapter) (nb : NetBuffer) (pktBuffer : Option Nat) : Nat :=
  if pktBuffer.isNone then bufLen a nb else nb.dataLength + a.qosLen

/-- One of the blocks holds the address. -/
def Covers (written : List (Nat × Nat)) (i : Nat) : Prop :=
  ∃ block ∈ written, block.1 ≤ i ∧ i < block.1 + block.2

/-- A call copies exactly the data behind room for the header and returns the length the query
finds, or it fails with nothing returned and nothing allocated. It never writes beyond the
buffer. -/
structure Flattened (a : Tlp.Adapter) (nb : NetBuffer) (pktBuffer pool : Option Nat)
    (mem : Nat → UInt8) (r : Retrieved) : Prop where
  copies : Readable nb pktBuffer pool → ∃ pktBuf ∈ pktBuffer.or pool, r.pktBuf = some pktBuf ∧
    r.mem = copyIn mem (pktBuf + a.qosLen) nb.data ∧ r.length = queryDataPacket a nb ∧
    r.allocated = if pktBuffer.isNone then some (pktBuf, bufLen a nb) else none
  fails : ¬ Readable nb pktBuffer pool → r.pktBuf = none ∧ r.length = 0 ∧ r.allocated = none
  inside : ∀ pktBuf ∈ pktBuffer.or pool, ∀ i, Covers r.written i →
    pktBuf ≤ i ∧ i < pktBuf + destSize a nb pktBuffer

/-- The bytes in front of the first descriptor that is not mapped. -/
def NetBuffer.mappedBytes (nb : NetBuffer) : List UInt8 := chainBytes (nb.mdls.takeWhile Mdl.mapped)

/-- With a buffer of the caller every descriptor is mapped. Without one the size does not wrap
around, or nothing is copied. An empty packet may have either. -/
def Flattenable (a : Tlp.Adapter) (nb : NetBuffer) (pktBuffer pool : Option Nat) : Prop :=
  nb.dataLength = 0 ∨
    if pktBuffer.isSome then ∀ mdl ∈ nb.mdls, mdl.mapped
    else pool = none ∨ nb.dataLength + a.qosLen < 2 ^ 32 ∨ nb.mappedBytes.length ≤ nb.dataOffset

/-! ## The walk over the chain -/

variable {a : Tlp.Adapter} {nb : NetBuffer} {pktBuffer pool : Option Nat} {mem : Nat → UInt8}
  {c c' : Copy} {mdl : Mdl} {mdls : List Mdl} {data : List UInt8}

/-- Turns that copy `data`. -/
structure Copied (c c' : Copy) (data : List UInt8) : Prop where
  pktLen : c'.pktLen = c.pktLen - data.length
  bytesCopied : c'.bytesCopied = c.bytesCopied + data.length
  pDest : c'.pDest = c.pDest + data.length
  mem : c'.mem = copyIn c.mem c.pDest data
  covers : ∀ i, Covers c'.written i ↔
    Covers c.written i ∨ (c.pDest ≤ i ∧ i < c.pDest + data.length)

theorem covers_append (written : List (Nat × Nat)) (start n i : Nat) :
    Covers (written ++ [(start, n)]) i ↔ Covers written i ∨ (start ≤ i ∧ i < start + n) := by
  simp [Covers, or_and_right, exists_or]

theorem Copied.nothing (hpktLen : c'.pktLen = c.pktLen)
    (hbytesCopied : c'.bytesCopied = c.bytesCopied) (hpDest : c'.pDest = c.pDest)
    (hmem : c'.mem = c.mem) (hwritten : c'.written = c.written) :
    Copied c c' [] where
  pktLen := hpktLen
  bytesCopied := hbytesCopied
  pDest := hpDest
  mem := by rw [hmem, copyIn_nil]
  covers i := by
    rw [hwritten]
    exact (or_iff_left fun h => absurd h.2 (Nat.not_lt.mpr h.1)).symm

theorem Copied.trans {c'' : Copy} {data' : List UInt8} (h : Copied c c' data)
    (h' : Copied c' c'' data') : Copied c c'' (data ++ data') where
  pktLen := by rw [h'.pktLen, h.pktLen, List.length_append, Nat.sub_sub]
  bytesCopied := by rw [h'.bytesCopied, h.bytesCopied, List.length_append, Nat.add_assoc]
  pDest := by rw [h'.pDest, h.pDest, List.length_append, Nat.add_assoc]
  mem := by rw [h'.mem, h.mem, h.pDest, copyIn_append]
  covers i := by
    rw [h'.covers, h.covers, h.pDest, or_assoc]
    refine or_congr_right ?_
    rw [List.length_append]
    omega

theorem turn_offset (c : Copy) (mdl : Mdl) :
    (c.turn mdl).offset = c.offset - mdl.bytes.length := by
  unfold Copy.turn
  split
  · rename_i hlt
    exact (Nat.sub_eq_zero_of_le hlt.le).symm
  · rfl

/-- A turn copies what is wanted of its descriptor. -/
theorem turn_copied (c : Copy) (mdl : Mdl) :
    Copied c (c.turn mdl) ((mdl.bytes.drop c.offset).take c.pktLen) := by
  unfold Copy.turn
  split
  · have hlength : ((mdl.bytes.drop c.offset).take c.pktLen).length =
        min (mdl.bytes.length - c.offset) c.pktLen := by
      rw [List.length_take, List.length_drop, Nat.min_comm]
    have htake : (mdl.bytes.drop c.offset).take (min (mdl.bytes.length - c.offset) c.pktLen) =
        (mdl.bytes.drop c.offset).take c.pktLen := by
      rw [List.take_eq_take_iff, List.length_drop]
      omega
    refine ⟨by rw [hlength], by rw [hlength], by rw [hlength],
      congrArg (copyIn c.mem c.pDest) htake, fun i => ?_⟩
    rw [covers_append, hlength]
  · rename_i hskip
    rw [List.drop_eq_nil_of_le (Nat.not_lt.mp hskip), List.take_nil]
    exact .nothing rfl rfl rfl rfl rfl

theorem chainBytes_cons (mdl : Mdl) (mdls : List Mdl) :
    chainBytes (mdl :: mdls) = mdl.bytes ++ chainBytes mdls := List.flatMap_cons

/-- What is wanted of two lists of bytes. -/
theorem take_drop_append (xs ys : List UInt8) (offset n : Nat) :
    ((xs ++ ys).drop offset).take n = (xs.drop offset).take n ++
      (ys.drop (offset - xs.length)).take (n - ((xs.drop offset).take n).length) := by
  rw [List.drop_append, List.take_append]
  congr 2
  rw [List.length_take]
  omega

/-- Over mapped descriptors the loop copies what is wanted of the chain. -/
theorem run_copied (h : ∀ mdl ∈ mdls, mdl.mapped) (c : Copy) :
    Copied c (c.run mdls) (((chainBytes mdls).drop c.offset).take c.pktLen) := by
  induction mdls generalizing c with
  | nil =>
    simp only [chainBytes, List.flatMap_nil, List.drop_nil, List.take_nil]
    exact .nothing rfl rfl rfl rfl rfl
  | cons mdl rest ih =>
    obtain ⟨hmdl, hrest⟩ := List.forall_mem_cons.mp h
    have hturn := turn_copied c mdl
    have hrun := ih hrest (c.turn mdl)
    rw [turn_offset, hturn.pktLen] at hrun
    rw [Copy.run, if_pos hmdl, chainBytes_cons, take_drop_append]
    exact hturn.trans hrun

/-- The loop stops in front of a descriptor that is not mapped. -/
theorem run_unmapped (h : ¬ ∀ mdl ∈ mdls, mdl.mapped) (c : Copy) :
    c.run mdls = { c.run (mdls.takeWhile Mdl.mapped) with bytesCopied := 0 } := by
  induction mdls generalizing c with
  | nil => exact absurd (fun _ hmem => absurd hmem List.not_mem_nil) h
  | cons mdl rest ih =>
    by_cases hmdl : mdl.mapped = true
    · have hrest : ¬ ∀ mdl ∈ rest, mdl.mapped := fun hall =>
        h (List.forall_mem_cons.mpr ⟨hmdl, hall⟩)
      rw [Copy.run, if_pos hmdl, List.takeWhile_cons_of_pos hmdl, Copy.run, if_pos hmdl]
      exact ih hrest (c.turn mdl)
    · rw [Copy.run, if_neg hmdl, List.takeWhile_cons_of_neg hmdl]
      rfl

/-- The walk of the query is that of the copy. -/
def Copy.query (c : Copy) : Query := ⟨c.offset, c.pktLen, c.bytesCopied⟩

theorem query_turn (c : Copy) (mdl : Mdl) : (c.turn mdl).query = c.query.turn mdl := by
  by_cases h : c.offset < mdl.bytes.length <;> simp [Copy.turn, Query.turn, Copy.query, h]

theorem query_run (c : Copy) (mdls : List Mdl) : (c.run mdls).query = c.query.run mdls := by
  induction mdls generalizing c with
  | nil => rfl
  | cons mdl rest ih =>
    rw [Copy.run, Query.run]
    split
    · rw [ih, query_turn]
    · rfl

/-! ## One call -/

theorem data_length (h : nb.InChain) : nb.data.length = nb.dataLength := by
  rw [NetBuffer.data, List.length_take, List.length_drop]
  exact Nat.min_eq_left h

theorem mdls_ne_nil (h : nb.InChain) (hlength : nb.dataLength ≠ 0) : nb.mdls ≠ [] := by
  intro hnil
  rw [NetBuffer.InChain, hnil] at h
  simp only [chainBytes, List.flatMap_nil, List.length_nil] at h
  omega

/-- With the whole packet copied, or with none of it, nothing is filled with zeros. -/
theorem zeroFill_eq (h : c.pktLen = 0 ∨ c.bytesCopied = 0) : c.zeroFill = c := by
  unfold Copy.zeroFill
  rw [if_neg]
  omega

/-- The start of the copy. -/
def Copy.start (a : Tlp.Adapter) (nb : NetBuffer) (pktBuf : Nat) (mem : Nat → UInt8) : Copy :=
  ⟨nb.dataOffset, nb.dataLength, 0, pktBuf + a.qosLen, mem, []⟩

/-- What is wanted of the mapped descriptors. -/
def NetBuffer.mappedData (nb : NetBuffer) : List UInt8 :=
  (nb.mappedBytes.drop nb.dataOffset).take nb.dataLength

theorem covers_nil (i : Nat) : ¬ Covers [] i := by
  rintro ⟨block, hblock, -⟩
  exact absurd hblock List.not_mem_nil

theorem retrive_mapped (a : Tlp.Adapter) (mem : Nat → UInt8) {pktBuf : Nat} (h : nb.InChain)
    (hlength : nb.dataLength ≠ 0) (hbuf : pktBuffer.or pool = some pktBuf)
    (hmapped : ∀ mdl ∈ nb.mdls, mdl.mapped) :
    ∃ written, retriveDataPacket a nb pktBuffer pool mem =
        ⟨some pktBuf, queryDataPacket a nb, copyIn mem (pktBuf + a.qosLen) nb.data, written,
          if pktBuffer.isNone then some (pktBuf, bufLen a nb) else none⟩ ∧
      ∀ i, Covers written i ↔
        pktBuf + a.qosLen ≤ i ∧ i < pktBuf + a.qosLen + nb.data.length := by
  have hrun : Copied (Copy.start a nb pktBuf mem)
      ((Copy.start a nb pktBuf mem).run nb.mdls) nb.data :=
    run_copied hmapped _
  have hguard : ¬ (nb.dataLength = 0 ∨ nb.mdls = []) := not_or.mpr ⟨hlength, mdls_ne_nil h hlength⟩
  have hpktLen := hrun.pktLen
  have hcopied := hrun.bytesCopied
  rw [data_length h] at hpktLen hcopied
  simp only [Copy.start, Nat.sub_self, Nat.zero_add] at hpktLen hcopied
  have hquery := congrArg Query.bytesCopied (query_run (Copy.start a nb pktBuf mem) nb.mdls)
  simp only [Copy.query, Copy.start] at hquery
  refine ⟨((Copy.start a nb pktBuf mem).run nb.mdls).written, ?_, fun i => ?_⟩
  · simp only [retriveDataPacket, queryDataPacket, if_neg hguard, hbuf, zeroFill_eq (.inl hpktLen)]
    rw [← hquery, hcopied, if_neg hlength, if_neg hlength]
    congr 1
    exact hrun.mem
  · rw [hrun.covers]
    exact or_iff_right (covers_nil i)

theorem retrive_unmapped (a : Tlp.Adapter) (mem : Nat → UInt8) {pktBuf : Nat} (h : nb.InChain)
    (hlength : nb.dataLength ≠ 0) (hbuf : pktBuffer.or pool = some pktBuf)
    (hmapped : ¬ ∀ mdl ∈ nb.mdls, mdl.mapped) :
    ∃ mem' written,
      retriveDataPacket a nb pktBuffer pool mem = ⟨pktBuffer, 0, mem', written, none⟩ ∧
      ∀ i, Covers written i ↔
        pktBuf + a.qosLen ≤ i ∧ i < pktBuf + a.qosLen + nb.mappedData.length := by
  have hrun : Copied (Copy.start a nb pktBuf mem)
      ((Copy.start a nb pktBuf mem).run (nb.mdls.takeWhile Mdl.mapped)) nb.mappedData :=
    run_copied (fun mdl hmdl => List.mem_takeWhile_imp hmdl) _
  have hguard : ¬ (nb.dataLength = 0 ∨ nb.mdls = []) := not_or.mpr ⟨hlength, mdls_ne_nil h hlength⟩
  have hstop := run_unmapped hmapped (Copy.start a nb pktBuf mem)
  have hcopied := congrArg Copy.bytesCopied hstop
  refine ⟨((Copy.start a nb pktBuf mem).run nb.mdls).mem,
    ((Copy.start a nb pktBuf mem).run nb.mdls).written, ?_, fun i => ?_⟩
  · simp only [Copy.start] at hcopied
    simp only [retriveDataPacket, if_neg hguard, hbuf, zeroFill_eq (.inr hcopied)]
    rw [if_pos hcopied]
    rfl
  · rw [hstop, hrun.covers]
    exact or_iff_right (covers_nil i)

/-- What was copied lies in the block that was allocated exactly if the size of the block did not
wrap around, or nothing was copied. -/
theorem inside_allocated_iff (hlength : nb.dataLength ≠ 0) (pktBuf : Nat) :
    (∀ i, pktBuf + a.qosLen ≤ i ∧ i < pktBuf + a.qosLen + nb.mappedData.length →
        pktBuf ≤ i ∧ i < pktBuf + bufLen a nb) ↔
      nb.dataLength + a.qosLen < 2 ^ 32 ∨ nb.mappedBytes.length ≤ nb.dataOffset := by
  have hlt := nb.dataLength_lt
  have hqos : a.qosLen ≤ 8 := by
    unfold Tlp.Adapter.qosLen
    split_ifs <;> decide
  have hdata : nb.mappedData.length =
      min nb.dataLength (nb.mappedBytes.length - nb.dataOffset) := by
    rw [NetBuffer.mappedData, List.length_take, List.length_drop]
  rw [hdata, bufLen]
  constructor
  · intro hinside
    by_contra hcond
    have hpos := Nat.pos_of_ne_zero hlength
    have hfirst := hinside (pktBuf + a.qosLen) (by omega)
    omega
  · rintro (hsize | hnone) i hi
    · rw [Nat.mod_eq_of_lt hsize]
      omega
    · omega

/-- With every descriptor mapped, all of the data is. -/
theorem mappedData_of_mapped (hmapped : ∀ mdl ∈ nb.mdls, mdl.mapped) : nb.mappedData = nb.data := by
  have hall : nb.mdls.takeWhile Mdl.mapped = nb.mdls := List.takeWhile_eq_self_iff.mpr hmapped
  rw [NetBuffer.mappedData, NetBuffer.mappedBytes, hall, NetBuffer.data]

/-- The copy into the buffer of a caller, who gave room for the header and the data. -/
theorem flattened_given_iff {pktBuf : Nat} (h : nb.InChain) (hlength : nb.dataLength ≠ 0) :
    Flattened a nb (some pktBuf) pool mem (retriveDataPacket a nb (some pktBuf) pool mem) ↔
      ∀ mdl ∈ nb.mdls, mdl.mapped := by
  constructor
  · intro hflat
    by_contra hmapped
    obtain ⟨mem', written, hr, -⟩ :=
      retrive_unmapped a mem h hlength (Option.some_or (o := pool)) hmapped
    have hfails := (hflat.fails fun hread => hmapped hread.2.2).1
    rw [hr] at hfails
    cases hfails
  · intro hmapped
    obtain ⟨written, hr, hcovers⟩ := retrive_mapped a mem h hlength (Option.some_or ..) hmapped
    rw [hr]
    refine ⟨fun _ => ⟨pktBuf, rfl, rfl, rfl, rfl, rfl⟩, fun hread => ?_, ?_⟩
    · exact absurd ⟨hlength, rfl, hmapped⟩ hread
    · intro p hp i hi
      cases hp
      obtain ⟨hlow, hhigh⟩ := (hcovers i).mp hi
      rw [data_length h] at hhigh
      simp only [destSize, Option.isNone_some, Bool.false_eq_true, ↓reduceIte]
      omega

/-- The copy into memory that is allocated. -/
theorem flattened_allocated_iff {pktBuf : Nat} (h : nb.InChain) (hlength : nb.dataLength ≠ 0) :
    Flattened a nb none (some pktBuf) mem (retriveDataPacket a nb none (some pktBuf) mem) ↔
      nb.dataLength + a.qosLen < 2 ^ 32 ∨ nb.mappedBytes.length ≤ nb.dataOffset := by
  rw [← inside_allocated_iff hlength pktBuf]
  by_cases hmapped : ∀ mdl ∈ nb.mdls, mdl.mapped
  · obtain ⟨written, hr, hcovers⟩ := retrive_mapped a mem h hlength (Option.none_or ..) hmapped
    rw [hr, mappedData_of_mapped hmapped]
    constructor
    · intro hflat i hi
      exact hflat.inside pktBuf rfl i ((hcovers i).mpr hi)
    · intro hinside
      refine ⟨fun _ => ⟨pktBuf, rfl, rfl, rfl, rfl, rfl⟩, fun hread => ?_, ?_⟩
      · exact absurd ⟨hlength, rfl, hmapped⟩ hread
      · intro p hp i hi
        cases hp
        exact hinside i ((hcovers i).mp hi)
  · obtain ⟨mem', written, hr, hcovers⟩ :=
      retrive_unmapped a mem h hlength (Option.none_or ..) hmapped
    rw [hr]
    constructor
    · intro hflat i hi
      exact hflat.inside pktBuf rfl i ((hcovers i).mpr hi)
    · intro hinside
      refine ⟨fun hread => absurd hread.2.2 hmapped, fun _ => ⟨rfl, rfl, rfl⟩, ?_⟩
      intro p hp i hi
      cases hp
      exact hinside i ((hcovers i).mp hi)

/-- A call does what it should exactly on these packets. -/
theorem flattened_iff (h : nb.InChain) :
    Flattened a nb pktBuffer pool mem (retriveDataPacket a nb pktBuffer pool mem) ↔
      Flattenable a nb pktBuffer pool := by
  by_cases hlength : nb.dataLength = 0
  · -- an empty packet
    have hr : retriveDataPacket a nb pktBuffer pool mem = ⟨none, 0, mem, [], none⟩ := by
      rw [retriveDataPacket, if_pos (.inl hlength)]
    rw [hr]
    exact iff_of_true ⟨fun hread => absurd hlength hread.1, fun _ => ⟨rfl, rfl, rfl⟩,
      fun _ _ i hi => absurd hi (covers_nil i)⟩ (.inl hlength)
  cases pktBuffer with
  | some pktBuf =>
    rw [flattened_given_iff h hlength, Flattenable, or_iff_right hlength]
    rfl
  | none =>
    cases pool with
    | some pktBuf =>
      rw [flattened_allocated_iff h hlength, Flattenable, or_iff_right hlength]
      simp
    | none =>
      -- no memory
      have hguard := not_or.mpr ⟨hlength, mdls_ne_nil h hlength⟩
      have hr : retriveDataPacket a nb none none mem = ⟨none, 0, mem, [], none⟩ := by
        rw [retriveDataPacket, if_neg hguard]
        rfl
      rw [hr]
      refine iff_of_true ⟨fun hread => Bool.noConfusion hread.2.1, fun _ => ⟨rfl, rfl, rfl⟩, ?_⟩
        (.inr (.inl rfl))
      rintro _ ⟨⟩

/-- Into an item a call copies as the model of the item does. -/
theorem retrive_into_item (item : Tlp.Item) (usbBuffer : Nat) (h : nb.InChain)
    (hlength : nb.dataLength ≠ 0) (hmapped : ∀ mdl ∈ nb.mdls, mdl.mapped)
    (hsize : nb.dataLength + a.qosLen < 2 ^ 32) :
    (retriveDataPacket a nb (some usbBuffer) pool item.buffer).mem =
        (item.write (usbBuffer + a.qosLen) nb.data).buffer ∧
      (retriveDataPacket a nb (some usbBuffer) pool item.buffer).length =
        nb.data.length + a.qosLen := by
  obtain ⟨written, hr, -⟩ :=
    retrive_mapped a item.buffer h hlength (Option.some_or (o := pool)) hmapped
  rw [hr]
  refine ⟨rfl, ?_⟩
  have hguard : ¬ (nb.dataLength = 0 ∨ nb.mdls = []) := not_or.mpr ⟨hlength, mdls_ne_nil h hlength⟩
  have hrun := run_copied hmapped (Copy.start a nb 0 item.buffer)
  have hcopied := hrun.bytesCopied
  have hquery := congrArg Query.bytesCopied (query_run (Copy.start a nb 0 item.buffer) nb.mdls)
  simp only [Copy.query, Copy.start, Nat.zero_add] at hquery hcopied
  rw [hcopied] at hquery
  rw [← NetBuffer.data, data_length h] at hquery
  simp only [queryDataPacket, if_neg hguard]
  rw [← hquery, if_neg hlength, Nat.mod_eq_of_lt hsize, data_length h]

/-- A packet of two descriptors, with an empty one between them. -/
def splitPacket (mapped : Bool) : NetBuffer :=
  ⟨[⟨[0xAA, 0x45], true⟩, ⟨[], true⟩, ⟨[1, 2], mapped⟩], 1, 2, by decide⟩

def plainAdapter : Tlp.Adapter := ⟨.tlp, 0, 0, 100, true, false, 0, false, false, false⟩

theorem flattened_split : Flattened plainAdapter (splitPacket true) (some 16) none (fun _ => 0)
    (retriveDataPacket plainAdapter (splitPacket true) (some 16) none fun _ => 0) :=
  (flattened_iff (by unfold NetBuffer.InChain; decide)).mpr (.inr (by decide))

/-- The second descriptor of the packet cannot be mapped. -/
theorem not_flattened_unmapped :
    ¬ Flattened plainAdapter (splitPacket false) (some 16) none (fun _ => 0)
      (retriveDataPacket plainAdapter (splitPacket false) (some 16) none fun _ => 0) := by
  intro hflat
  have hread : ¬ Readable (splitPacket false) (some 16) none := by
    unfold Readable
    decide
  have hnull := (hflat.fails hread).1
  revert hnull
  decide

end Ndis.DataPacket
