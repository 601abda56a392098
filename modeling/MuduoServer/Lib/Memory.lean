import Mathlib

/-!
# Vectors as memory

A `std::vector` is a list of cells, and the code reads and writes it by index.  `slice` is the
content of an index range, `overwrite` is a copy of foreign data into the vector, `copyForward` is
`std::copy` inside one vector, cell by cell and from the front, and `resize` is the member function
of that name.  The point of the file is `copyForward_eq`: a forward copy to a lower or equal index
moves the range unchanged even when source and target overlap.
-/

namespace MuduoServer

namespace Memory

variable {α : Type*}

/-- The cells from index `i` up to, not including, index `j`. -/
def slice (m : List α) (i j : ℕ) : List α := (m.drop i).take (j - i)

/-- Write `data` over the cells from index `i` on. -/
def overwrite (m : List α) (i : ℕ) (data : List α) : List α :=
  m.take i ++ data ++ m.drop (i + data.length)

/-- `std::copy` of `n` cells from index `src` to index `dst` of the same vector, one cell after
the other from the front. -/
def copyForward [Inhabited α] : List α → ℕ → ℕ → ℕ → List α
  | m, _, _, 0 => m
  | m, src, dst, n + 1 => copyForward (m.set dst (m.getD src default)) (src + 1) (dst + 1) n

/-- `std::vector::resize`: cut the vector or fill it up with value-initialised cells. -/
def resize [Inhabited α] (m : List α) (n : ℕ) : List α :=
  m.take n ++ List.replicate (n - m.length) default

/-! ### Lengths -/

/-- The length of a slice inside the memory. -/
@[simp] lemma length_slice {m : List α} {i j : ℕ} (hj : j ≤ m.length) :
    (slice m i j).length = j - i := by
  simp only [slice, List.length_take, List.length_drop]
  omega

/-- To overwrite does not change the length. -/
@[simp] lemma length_overwrite {m data : List α} {i : ℕ} (h : i + data.length ≤ m.length) :
    (overwrite m i data).length = m.length := by
  simp only [overwrite, List.length_append, List.length_take, List.length_drop]
  omega

/-- Nor does copying inside the memory. -/
@[simp] lemma length_copyForward [Inhabited α] (m : List α) (src dst n : ℕ) :
    (copyForward m src dst n).length = m.length := by
  induction n generalizing m src dst with
  | zero => rfl
  | succ n ih => simp [copyForward, ih]

/-- `resize` gives the length that has been asked for. -/
@[simp] lemma length_resize [Inhabited α] (m : List α) (n : ℕ) : (resize m n).length = n := by
  simp only [resize, List.length_append, List.length_take, List.length_replicate]
  omega

/-! ### Reading one cell -/

/-- Reading a cell of a slice reads the vector at the shifted index. -/
lemma getElem?_slice (m : List α) (i j k : ℕ) :
    (slice m i j)[k]? = if k < j - i then m[i + k]? else none := by
  simp only [slice, List.getElem?_take, List.getElem?_drop]

/-- Reading after a write: inside the written range the data, outside it the old cell. -/
lemma getElem?_overwrite {m data : List α} {i : ℕ} (h : i + data.length ≤ m.length) (k : ℕ) :
    (overwrite m i data)[k]? =
      if i ≤ k ∧ k < i + data.length then data[k - i]? else m[k]? := by
  simp only [overwrite, List.getElem?_append, List.getElem?_take, List.getElem?_drop,
    List.length_append, List.length_take]
  have hmin : min i m.length = i := by omega
  rw [hmin]
  split_ifs <;> first | rfl | omega | (congr 1; omega)

/-- Reading after a growing `resize`: the old cells keep their content. -/
lemma getElem?_resize_of_lt [Inhabited α] {m : List α} {n k : ℕ} (hn : m.length ≤ n)
    (hk : k < m.length) : (resize m n)[k]? = m[k]? := by
  have htake : m.take n = m := List.take_of_length_le hn
  rw [resize, htake, List.getElem?_append_left hk]

/-- Reading after a forward copy to a lower or equal index.  The induction follows the loop: the
cell just written lies below every cell that is still to be read, so later reads see old cells. -/
lemma getElem?_copyForward [Inhabited α] {m : List α} {src dst n : ℕ} (hd : dst ≤ src)
    (hs : src + n ≤ m.length) (k : ℕ) :
    (copyForward m src dst n)[k]? =
      if dst ≤ k ∧ k < dst + n then m[src + (k - dst)]? else m[k]? := by
  induction n generalizing m src dst with
  | zero =>
    have : ¬ (dst ≤ k ∧ k < dst + 0) := by omega
    rw [if_neg this]
    rfl
  | succ n ih =>
    have hset : (m.set dst (m.getD src default)).length = m.length := List.length_set
    rw [copyForward, ih (by omega) (by rw [hset]; omega)]
    have hsrc : src < m.length := by omega
    by_cases hk : k = dst
    · subst hk
      have hlt : k < m.length := by omega
      simp [List.getElem?_set_self hlt, hsrc]
    · have hread : ∀ i, dst < i → (m.set dst (m.getD src default))[i]? = m[i]? := by
        intro i hi
        exact List.getElem?_set_ne (by omega)
      split_ifs with h₁ h₂ h₂
      · rw [hread _ (by omega)]
        congr 1
        omega
      · omega
      · omega
      · exact List.getElem?_set_ne (fun h => hk h.symm)

/-! ### Ranges after a write -/

/-- A range below the written cells is untouched. -/
lemma slice_overwrite_of_le {m data : List α} {i a b : ℕ} (h : i + data.length ≤ m.length)
    (hb : b ≤ i) : slice (overwrite m i data) a b = slice m a b := by
  apply List.ext_getElem?
  intro k
  rw [getElem?_slice, getElem?_slice, getElem?_overwrite h]
  split_ifs <;> first | rfl | omega

/-- A range above the written cells is untouched. -/
lemma slice_overwrite_of_ge {m data : List α} {i a b : ℕ} (h : i + data.length ≤ m.length)
    (ha : i + data.length ≤ a) : slice (overwrite m i data) a b = slice m a b := by
  apply List.ext_getElem?
  intro k
  rw [getElem?_slice, getElem?_slice, getElem?_overwrite h]
  split_ifs <;> first | rfl | omega

/-- The written range reads back the data. -/
lemma slice_overwrite_self {m data : List α} {i : ℕ} (h : i + data.length ≤ m.length) :
    slice (overwrite m i data) i (i + data.length) = data := by
  apply List.ext_getElem?
  intro k
  rw [getElem?_slice, getElem?_overwrite h]
  split_ifs with h₁ h₂
  · rw [Nat.add_sub_cancel_left]
  · omega
  · rw [List.getElem?_eq_none (by omega)]

/-- Two adjacent ranges make up the whole range. -/
lemma slice_append_slice {m : List α} {a b c : ℕ} (hab : a ≤ b) (hbc : b ≤ c)
    (hc : c ≤ m.length) : slice m a b ++ slice m b c = slice m a c := by
  apply List.ext_getElem?
  intro k
  rw [List.getElem?_append, length_slice (hbc.trans hc), getElem?_slice, getElem?_slice,
    getElem?_slice]
  split_ifs <;> first | rfl | omega | (congr 1; omega)

/-- Appending behind a range: the range grows by the data written at its end. -/
lemma slice_overwrite_append {m data : List α} {a b : ℕ} (hab : a ≤ b)
    (h : b + data.length ≤ m.length) :
    slice (overwrite m b data) a (b + data.length) = slice m a b ++ data := by
  have hlen : (overwrite m b data).length = m.length := length_overwrite h
  rw [← slice_append_slice hab (Nat.le_add_right b data.length) (by rw [hlen]; exact h),
    slice_overwrite_of_le h le_rfl, slice_overwrite_self h]

/-- Prepending before a range: the range grows by the data written right below it. -/
lemma slice_overwrite_prepend {m data : List α} {a b : ℕ} (hab : a + data.length ≤ b)
    (hb : b ≤ m.length) :
    slice (overwrite m a data) a b = data ++ slice m (a + data.length) b := by
  have h : a + data.length ≤ m.length := hab.trans hb
  have hlen : (overwrite m a data).length = m.length := length_overwrite h
  rw [← slice_append_slice (Nat.le_add_right a data.length) hab (by rw [hlen]; exact hb),
    slice_overwrite_self h, slice_overwrite_of_ge h le_rfl]

/-- Growing the vector keeps every range of it. -/
lemma slice_resize [Inhabited α] {m : List α} {n a b : ℕ} (hn : m.length ≤ n)
    (hb : b ≤ m.length) : slice (resize m n) a b = slice m a b := by
  apply List.ext_getElem?
  intro k
  rw [getElem?_slice, getElem?_slice]
  split_ifs with h
  · exact getElem?_resize_of_lt hn (by omega)
  · rfl

/-- A forward copy to a lower or equal index moves the range unchanged, overlap or not. -/
lemma slice_copyForward [Inhabited α] {m : List α} {src dst n : ℕ} (hd : dst ≤ src)
    (hs : src + n ≤ m.length) :
    slice (copyForward m src dst n) dst (dst + n) = slice m src (src + n) := by
  apply List.ext_getElem?
  intro k
  rw [getElem?_slice, getElem?_slice, getElem?_copyForward hd hs]
  split_ifs <;> first | rfl | omega | (congr 1; omega)

/-- Dropping the first cells of a range. -/
lemma drop_slice (m : List α) (a b n : ℕ) : (slice m a b).drop n = slice m (a + n) b := by
  simp only [slice, List.drop_take, List.drop_drop]
  rw [Nat.sub_sub]

/-- Taking the first cells of a range. -/
lemma take_slice {m : List α} {a b n : ℕ} (h : a + n ≤ b) :
    (slice m a b).take n = slice m a (a + n) := by
  simp only [slice, List.take_take]
  congr 1
  omega

/-- An empty range. -/
@[simp] lemma slice_self (m : List α) (a : ℕ) : slice m a a = [] := by
  simp [slice]

end Memory

end MuduoServer
