-- SUMMARY: Flat memory as a function from addresses: slices, copies, and windows that wrap around a circular buffer.
import Mathlib

/-!
# Memory

Memory is a function from addresses to cells. `slice` reads a block, `copyIn`
writes one (`memcpy`, `memmove`), and `window` reads a block that wraps around at
the end of a buffer of `L` cells.
-/

namespace Memory

variable {α : Type}

/-- The `n` cells from `off` on. -/
def slice (mem : Nat → α) (off n : Nat) : List α :=
  (List.range n).map fun k => mem (off + k)

/-- Write `data` at `off`. -/
def copyIn (mem : Nat → α) (off : Nat) (data : List α) : Nat → α := fun i =>
  if h : off ≤ i ∧ i - off < data.length then data.get ⟨i - off, h.2⟩ else mem i

/-- The `n` cells from `s` on in a circular buffer of `L` cells. -/
def window (mem : Nat → α) (L s n : Nat) : List α :=
  (List.range n).map fun k => mem ((s + k) % L)

/-! ## Slices -/

@[simp] theorem slice_length (mem : Nat → α) (off n : Nat) : (slice mem off n).length = n := by
  simp [slice]

theorem slice_add (mem : Nat → α) (off m n : Nat) :
    slice mem off (m + n) = slice mem off m ++ slice mem (off + m) n := by
  simp [slice, List.range_add, Function.comp_def, Nat.add_assoc]

/-- A slice known to begin with `xs` splits there. -/
theorem slice_eq_append {mem : Nat → α} {off n : Nat} {xs ys : List α}
    (h : slice mem off n = xs ++ ys) :
    slice mem off xs.length = xs ∧ slice mem (off + xs.length) (n - xs.length) = ys := by
  have hlen : n = xs.length + ys.length := by
    have := congrArg List.length h
    simpa using this
  have hn : n = xs.length + (n - xs.length) := by omega
  rw [hn, slice_add] at h
  exact List.append_inj h (by simp)

theorem slice_take (mem : Nat → α) (off : Nat) {m n : Nat} (h : m ≤ n) :
    (slice mem off n).take m = slice mem off m := by
  obtain ⟨k, rfl⟩ := Nat.exists_eq_add_of_le h
  rw [slice_add, List.take_append_of_le_length (by simp)]
  simp [List.take_of_length_le]

theorem slice_drop (mem : Nat → α) (off k n : Nat) :
    (slice mem off n).drop k = slice mem (off + k) (n - k) := by
  rcases Nat.le_total k n with h | h
  · obtain ⟨m, rfl⟩ := Nat.exists_eq_add_of_le h
    rw [slice_add, List.drop_left' (slice_length mem off k), Nat.add_sub_cancel_left]
  · rw [Nat.sub_eq_zero_of_le h, List.drop_of_length_le (by simpa using h)]
    rfl

theorem getD_slice (mem : Nat → α) (off : Nat) {n i : Nat} (h : i < n) (a : α) :
    (slice mem off n).getD i a = mem (off + i) := by
  simp [slice, List.getD, h]

/-! ## Copies -/

theorem copyIn_inside (mem : Nat → α) (off : Nat) (data : List α) {k : Nat}
    (hk : k < data.length) : copyIn mem off data (off + k) = data[k] := by
  have h : off ≤ off + k ∧ off + k - off < data.length := by omega
  rw [copyIn, dif_pos h]
  simp

theorem copyIn_outside (mem : Nat → α) (off : Nat) (data : List α) {i : Nat}
    (hi : i < off ∨ off + data.length ≤ i) : copyIn mem off data i = mem i := by
  have h : ¬ (off ≤ i ∧ i - off < data.length) := by omega
  rw [copyIn, dif_neg h]

/-- A copy leaves a slice alone that it does not reach. -/
theorem slice_copyIn_of_disjoint {mem : Nat → α} {o off n : Nat} {data : List α}
    (h : off + n ≤ o ∨ o + data.length ≤ off) :
    slice (copyIn mem o data) off n = slice mem off n := by
  refine List.map_congr_left fun k hk => ?_
  have hlt := List.mem_range.mp hk
  exact copyIn_outside mem o data (by omega)

/-- What was copied is there. -/
theorem slice_copyIn_self (mem : Nat → α) (off : Nat) (data : List α) :
    slice (copyIn mem off data) off data.length = data := by
  apply List.ext_getElem
  · simp
  · intro i _ hi
    simpa [slice] using copyIn_inside mem off data hi

@[simp] theorem copyIn_nil (mem : Nat → α) (off : Nat) : copyIn mem off [] = mem := by
  funext i
  exact copyIn_outside mem off [] (by simpa using Nat.lt_or_ge i off)

/-- Two copies, one behind the other. -/
theorem copyIn_append (mem : Nat → α) (off : Nat) (data data' : List α) :
    copyIn (copyIn mem off data) (off + data.length) data' = copyIn mem off (data ++ data') := by
  funext i
  rcases Nat.lt_or_ge i off with hbefore | hoff
  · rw [copyIn_outside _ _ _ (.inl (by omega)), copyIn_outside _ _ _ (.inl hbefore),
      copyIn_outside _ _ _ (.inl hbefore)]
  · obtain ⟨k, rfl⟩ := Nat.exists_eq_add_of_le hoff
    rcases Nat.lt_or_ge k data.length with hfirst | hlater
    · have hk : k < (data ++ data').length := by
        rw [List.length_append]
        omega
      rw [copyIn_outside _ _ _ (.inl (by omega)), copyIn_inside _ _ _ hfirst,
        copyIn_inside _ _ _ hk, List.getElem_append_left hfirst]
    · obtain ⟨j, rfl⟩ := Nat.exists_eq_add_of_le hlater
      rw [← Nat.add_assoc]
      rcases Nat.lt_or_ge j data'.length with hsecond | hbehind
      · have hj : data.length + j < (data ++ data').length := by
          rw [List.length_append]
          omega
        rw [copyIn_inside _ _ _ hsecond, Nat.add_assoc, copyIn_inside _ _ _ hj,
          List.getElem_append_right (Nat.le_add_right _ _)]
        simp
      · rw [copyIn_outside _ _ _ (.inr (by omega)), copyIn_outside _ _ _ (.inr (by omega)),
          copyIn_outside _ _ _ (.inr (by rw [List.length_append]; omega))]

/-- A copy seen from a later origin. -/
theorem copyIn_add (mem : Nat → α) (b off : Nat) (data : List α) (i : Nat) :
    copyIn mem (b + off) data (b + i) = copyIn (fun k => mem (b + k)) off data i := by
  simp only [copyIn, Nat.add_le_add_iff_left, Nat.add_sub_add_left]

/-- A slice of such a copy. -/
theorem slice_copyIn_add (mem : Nat → α) (b off n : Nat) (data : List α) :
    slice (copyIn mem (b + off) data) b n = slice (copyIn (fun k => mem (b + k)) off data) 0 n := by
  refine List.map_congr_left fun k _ => ?_
  rw [copyIn_add, Nat.zero_add]

/-! ## Windows -/

@[simp] theorem window_length (mem : Nat → α) (L s n : Nat) : (window mem L s n).length = n := by
  simp [window]

theorem window_add (mem : Nat → α) (L s m n : Nat) :
    window mem L s (m + n) = window mem L s m ++ window mem L (s + m) n := by
  simp [window, List.range_add, Function.comp_def, Nat.add_assoc]

theorem window_mod (mem : Nat → α) (L s n : Nat) : window mem L (s % L) n = window mem L s n := by
  simp [window]

/-- One turn further the window shows the same cells. -/
theorem window_add_size (mem : Nat → α) (L s n : Nat) :
    window mem L (s + L) n = window mem L s n := by
  rw [← window_mod, Nat.add_mod_right, window_mod]

/-- A window that ends before the buffer does is a slice. -/
theorem window_eq_slice (mem : Nat → α) {L s n : Nat} (h : s + n ≤ L) :
    window mem L s n = slice mem s n := by
  simp only [window, slice]
  apply List.map_congr_left
  intro k hk
  have hk : k < n := List.mem_range.mp hk
  rw [Nat.mod_eq_of_lt (by omega)]

theorem window_take (mem : Nat → α) (L s : Nat) {m n : Nat} (h : m ≤ n) :
    (window mem L s n).take m = window mem L s m := by
  obtain ⟨k, rfl⟩ := Nat.exists_eq_add_of_le h
  rw [window_add, List.take_append_of_le_length (by simp)]
  simp [List.take_of_length_le]

theorem window_drop (mem : Nat → α) (L s : Nat) {m n : Nat} (h : m ≤ n) :
    (window mem L s n).drop m = window mem L (s + m) (n - m) := by
  obtain ⟨k, rfl⟩ := Nat.exists_eq_add_of_le h
  rw [window_add, List.drop_append_of_le_length (by simp)]
  simp

/-- Writing behind a window extends it: the old cells are untouched and the new ones
hold the data. -/
theorem window_extend {mem mem' : Nat → α} {L s n : Nat} {data : List α}
    (hold : ∀ k, k < n → mem' ((s + k) % L) = mem ((s + k) % L))
    (hnew : ∀ j (hj : j < data.length), mem' ((s + n + j) % L) = data[j]) :
    window mem' L s (n + data.length) = window mem L s n ++ data := by
  rw [window_add]
  congr 1
  · apply List.map_congr_left
    intro k hk
    exact hold k (List.mem_range.mp hk)
  · apply List.ext_getElem
    · simp
    · intro j _ hj
      simpa [window] using hnew j hj

/-- An index less than two turns away wraps at most once. -/
theorem mod_of_lt_two_mul {a L : Nat} (h : a < 2 * L) :
    a % L = if a < L then a else a - L := by
  split
  · rename_i ha
    exact Nat.mod_eq_of_lt ha
  · rename_i ha
    rw [Nat.mod_eq_sub_mod (by omega), Nat.mod_eq_of_lt (by omega)]

/-! ## Buffers that are written from the start

A cell that was never written is `none`. -/

/-- A buffer whose first cells have been written, and no others. -/
def written (xs : List α) : Nat → Option α := fun i => xs[i]?

@[simp] theorem written_nil : written ([] : List α) = fun _ => none := by
  funext i
  simp [written]

/-- What is copied to the end of the written part extends it. -/
theorem copyIn_written (xs ys : List α) :
    copyIn (written xs) xs.length (ys.map some) = written (xs ++ ys) := by
  funext i
  rcases Nat.lt_or_ge i xs.length with hbefore | hge
  · rw [copyIn_outside _ _ _ (.inl hbefore)]
    exact (List.getElem?_append_left hbefore).symm
  · obtain ⟨k, rfl⟩ := Nat.exists_eq_add_of_le hge
    have hright : written (xs ++ ys) (xs.length + k) = ys[k]? := by
      simp [written, List.getElem?_append_right]
    rw [hright]
    rcases Nat.lt_or_ge k ys.length with hk | hk
    · rw [copyIn_inside _ _ _ (by simpa using hk)]
      simp [hk]
    · rw [copyIn_outside _ _ _ (.inr (by simpa using hk))]
      simp [written, hk]

theorem copyIn_none (xs : List α) : copyIn (fun _ => none) 0 (xs.map some) = written xs := by
  simpa using copyIn_written [] xs

/-- A copy over a written cell. -/
theorem copyIn_written_set {xs : List α} {i : Nat} (h : i < xs.length) (x : α) :
    copyIn (written xs) i [some x] = written (xs.set i x) := by
  funext j
  rcases eq_or_ne i j with rfl | hne
  · rw [show copyIn (written xs) i [some x] i = some x by
      simpa using copyIn_inside (written xs) i [some x] Nat.zero_lt_one]
    simp [written, h]
  · rw [copyIn_outside _ _ _ (by simp; omega)]
    simp [written, List.getElem?_set_ne hne]

end Memory
