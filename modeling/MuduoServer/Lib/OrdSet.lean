import Mathlib

/-!
# Ordered sets

The part of `std::set` the timer queue uses, over any linear order: a strictly increasing list of
elements, kept increasing by construction.  `insert` and `erase` report what the member functions
of that name report, `first` is the element at `begin()`, and `below` and `above` are the two
ranges that `lower_bound` separates.
-/

namespace MuduoServer

/-- A finite set of a linear order, listed in increasing order. -/
structure OrdSet (α : Type*) [LinearOrder α] where
  /-- The elements from `begin()` to `end()`. -/
  elems : List α
  /-- They are strictly increasing. -/
  sorted : elems.Pairwise (· < ·)

namespace OrdSet

variable {α : Type*} [LinearOrder α] {s : OrdSet α} {a b : α}

instance : Membership α (OrdSet α) where
  mem s a := a ∈ s.elems

instance (a : α) (s : OrdSet α) : Decidable (a ∈ s) := inferInstanceAs (Decidable (a ∈ s.elems))

/-- The empty set. -/
def empty : OrdSet α := ⟨[], List.Pairwise.nil⟩

/-- `size()`. -/
def size (s : OrdSet α) : ℕ := s.elems.length

/-- The element at `begin()`, if there is one. -/
def first (s : OrdSet α) : Option α := s.elems.head?

/-- Insertion into an increasing list at the place the order asks for. -/
def insertList (a : α) : List α → List α
  | [] => [a]
  | b :: l => if a < b then a :: b :: l else b :: insertList a l

/-- Insertion adds the element and no other. -/
lemma mem_insertList {l : List α} : b ∈ insertList a l ↔ b = a ∨ b ∈ l := by
  induction l with
  | nil => simp [insertList]
  | cons c l ih =>
    unfold insertList
    split
    · simp
    · simp only [List.mem_cons, ih]
      tauto

/-- Insertion of a new element keeps the list strictly increasing. -/
lemma pairwise_insertList {l : List α} (h : l.Pairwise (· < ·)) (ha : a ∉ l) :
    (insertList a l).Pairwise (· < ·) := by
  induction l with
  | nil => exact List.pairwise_singleton _ _
  | cons c l ih =>
    rw [List.pairwise_cons] at h
    rw [List.mem_cons, not_or] at ha
    unfold insertList
    split
    · next hlt =>
      rw [List.pairwise_cons]
      refine ⟨?_, List.pairwise_cons.mpr h⟩
      intro x hx
      rcases List.mem_cons.mp hx with rfl | hx
      · exact hlt
      · exact hlt.trans (h.1 x hx)
    · next hge =>
      rw [List.pairwise_cons]
      refine ⟨?_, ih h.2 ha.2⟩
      intro x hx
      rcases mem_insertList.mp hx with rfl | hx
      · exact lt_of_le_of_ne (not_lt.mp hge) (Ne.symm ha.1)
      · exact h.1 x hx

/-- `insert(a)`: the new set, and whether the insertion took place. -/
def insert (s : OrdSet α) (a : α) : OrdSet α × Bool :=
  if h : a ∈ s.elems then (s, false)
  else (⟨insertList a s.elems, pairwise_insertList s.sorted h⟩, true)

/-- `erase(a)`: the new set, and the number of elements removed. -/
def erase (s : OrdSet α) (a : α) : OrdSet α × ℕ :=
  (⟨s.elems.erase a, s.sorted.sublist List.erase_sublist⟩, if a ∈ s then 1 else 0)

/-- The range from `begin()` to `lower_bound(a)`. -/
def below (s : OrdSet α) (a : α) : List α := s.elems.takeWhile (· < a)

/-- The range from `lower_bound(a)` to `end()`. -/
def above (s : OrdSet α) (a : α) : OrdSet α :=
  ⟨s.elems.dropWhile (· < a), s.sorted.sublist (List.dropWhile_sublist _)⟩

/-! ### Membership and size -/

/-- Nothing is in the empty set. -/
@[simp] lemma not_mem_empty : a ∉ (empty : OrdSet α) := List.not_mem_nil

/-- No element is in the list twice. -/
lemma nodup_elems (s : OrdSet α) : s.elems.Nodup := s.sorted.imp fun h => ne_of_lt h

/-- `insert` of a new element reports that it has been inserted. -/
lemma insert_snd (h : a ∉ s) : (s.insert a).2 = true := by
  unfold insert
  rw [dif_neg (show a ∉ s.elems from h)]

/-- `insert` adds the element and no other. -/
lemma mem_insert : b ∈ (s.insert a).1 ↔ b = a ∨ b ∈ s := by
  unfold insert
  split
  · next h =>
    constructor
    · exact Or.inr
    · rintro (rfl | hb)
      · exact h
      · exact hb
  · exact mem_insertList

/-- `erase` of a member reports one element. -/
lemma erase_snd (h : a ∈ s) : (s.erase a).2 = 1 := if_pos h

/-- `erase` takes out the element and no other. -/
lemma mem_erase : b ∈ (s.erase a).1 ↔ b ≠ a ∧ b ∈ s := s.nodup_elems.mem_erase_iff

/-- The range below a bound has the smaller elements. -/
lemma mem_below : b ∈ s.below a ↔ b ∈ s ∧ b < a := by
  obtain ⟨elems, hs⟩ := s
  change b ∈ elems.takeWhile (· < a) ↔ b ∈ elems ∧ b < a
  induction elems with
  | nil => simp
  | cons c l ih =>
    rw [List.pairwise_cons] at hs
    by_cases hc : c < a
    · rw [List.takeWhile_cons_of_pos (by simpa using hc), List.mem_cons, ih hs.2, List.mem_cons]
      constructor
      · rintro (rfl | ⟨hb, hba⟩)
        · exact ⟨Or.inl rfl, hc⟩
        · exact ⟨Or.inr hb, hba⟩
      · rintro ⟨rfl | hb, hba⟩
        · exact Or.inl rfl
        · exact Or.inr ⟨hb, hba⟩
    · rw [List.takeWhile_cons_of_neg (by simpa using hc)]
      constructor
      · intro hb
        cases hb
      · rintro ⟨hb, hba⟩
        rcases List.mem_cons.mp hb with rfl | hb
        · exact absurd hba hc
        · exact absurd ((hs.1 b hb).trans hba) hc

/-- The range from the bound on has the others. -/
lemma mem_above : b ∈ s.above a ↔ b ∈ s ∧ a ≤ b := by
  have hsplit : s.below a ++ (s.above a).elems = s.elems := List.takeWhile_append_dropWhile
  have hdisj : ∀ x ∈ s.below a, ∀ y ∈ (s.above a).elems, x < y := by
    have hs := s.sorted
    rw [← hsplit] at hs
    exact (List.pairwise_append.mp hs).2.2
  constructor
  · intro hb
    have hmem : b ∈ s.elems := by
      rw [← hsplit]
      exact List.mem_append_right _ hb
    refine ⟨hmem, not_lt.mp fun hlt => ?_⟩
    exact lt_irrefl b (hdisj b (mem_below.mpr ⟨hmem, hlt⟩) b hb)
  · rintro ⟨hb, hab⟩
    have hmem : b ∈ s.below a ++ (s.above a).elems := by
      rw [hsplit]
      exact hb
    rcases List.mem_append.mp hmem with hlt | hge
    · exact absurd (mem_below.mp hlt).2 (not_lt.mpr hab)
    · exact hge

/-- The range below a bound is strictly increasing. -/
lemma pairwise_below (s : OrdSet α) (a : α) : (s.below a).Pairwise (· < ·) :=
  s.sorted.sublist (List.takeWhile_sublist _)

/-! ### The first element -/

/-- There is no first element exactly if the set is empty. -/
lemma first_eq_none : s.first = none ↔ ∀ a, a ∉ s := by
  unfold first
  rw [List.head?_eq_none_iff, List.eq_nil_iff_forall_not_mem]
  rfl

/-- The first element is a member. -/
lemma mem_of_first (h : s.first = some a) : a ∈ s := List.mem_of_mem_head? h

/-- The element at `begin()` is the least. -/
lemma first_le (h : s.first = some a) (hb : b ∈ s) : a ≤ b := by
  obtain ⟨l, hl⟩ := List.head?_eq_some_iff.mp h
  have hs := s.sorted
  rw [hl, List.pairwise_cons] at hs
  have hb' : b ∈ a :: l := hl ▸ hb
  rcases List.mem_cons.mp hb' with rfl | hb'
  · exact le_rfl
  · exact (hs.1 b hb').le

/-- If there is a member, there is a first element, and it is not above the member. -/
lemma exists_first (ha : a ∈ s) : ∃ m, s.first = some m ∧ m ≤ a := by
  cases h : s.first with
  | none => exact absurd ha (first_eq_none.mp h a)
  | some m => exact ⟨m, rfl, first_le h ha⟩

end OrdSet

end MuduoServer
