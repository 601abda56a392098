import Mathlib

/-!
# Descriptor tables

The descriptors of a process are numbers below a limit.  A new one is the lowest number that is
not in use, and there is none to be had when the table is full.  `alloc_spec` says what an
allocation does.  The last two lemmas are what a reserve is for: of a full table, a descriptor that
is closed is the one allocated next, and opened again it leaves the table as it was.
-/

namespace MuduoServer

/-- A table of descriptors with the things that they are open on. -/
@[ext]
structure DescriptorTable (κ : Type*) where
  limit : ℕ
  file : ℕ → Option κ
  file_eq_none : ∀ fd, limit ≤ fd → file fd = none

namespace DescriptorTable

variable {κ : Type*} {d d' : DescriptorTable κ} {fd : ℕ} {k : κ}

/-- The numbers in use. -/
def opened (d : DescriptorTable κ) : Finset ℕ := {fd ∈ Finset.range d.limit | (d.file fd).isSome}

/-- How many descriptors are open. -/
def count (d : DescriptorTable κ) : ℕ := d.opened.card

/-- Every number below the limit is in use. -/
def Full (d : DescriptorTable κ) : Prop := ∀ fd < d.limit, (d.file fd).isSome

instance (d : DescriptorTable κ) : Decidable d.Full :=
  inferInstanceAs (Decidable (∀ fd < d.limit, (d.file fd).isSome))

/-- The lowest number that is not in use. -/
def lowest (d : DescriptorTable κ) : Option (Fin d.limit) :=
  (List.finRange d.limit).find? fun fd => (d.file fd).isNone

/-- The table in which a number has been put to use. -/
def put (d : DescriptorTable κ) (fd : Fin d.limit) (k : κ) : DescriptorTable κ where
  limit := d.limit
  file := Function.update d.file fd (some k)
  file_eq_none n hn := by
    rw [Function.update_of_ne (by omega)]
    exact d.file_eq_none n hn

/-- Open a descriptor. -/
def alloc (d : DescriptorTable κ) (k : κ) : Option (ℕ × DescriptorTable κ) :=
  d.lowest.map fun fd => (fd.val, d.put fd k)

/-- Close a descriptor. -/
def close (d : DescriptorTable κ) (fd : ℕ) : DescriptorTable κ where
  limit := d.limit
  file := Function.update d.file fd none
  file_eq_none n hn := by
    by_cases h : n = fd
    · rw [h, Function.update_self]
    · rw [Function.update_of_ne h, d.file_eq_none n hn]

/-- A closed descriptor is not in use. -/
@[simp] lemma file_close_self : (d.close fd).file fd = none := Function.update_self ..

/-- Closing leaves the others as they are. -/
lemma file_close_of_ne {n : ℕ} (h : n ≠ fd) : (d.close fd).file n = d.file n :=
  Function.update_of_ne h ..

/-- The limit does not move. -/
@[simp] lemma limit_close : (d.close fd).limit = d.limit := rfl

/-- What is in use is below the limit. -/
lemma lt_limit (h : (d.file fd).isSome) : fd < d.limit := by
  by_contra hge
  rw [d.file_eq_none fd (by omega)] at h
  cases h

/-- The open descriptors are those in use. -/
@[simp] lemma mem_opened : fd ∈ d.opened ↔ (d.file fd).isSome := by
  rw [opened, Finset.mem_filter, Finset.mem_range]
  exact and_iff_right_of_imp lt_limit

/-! ### Opening and closing -/

/-- What an allocation does. -/
structure Allocated (d : DescriptorTable κ) (k : κ) (fd : ℕ) (d' : DescriptorTable κ) : Prop where
  free : d.file fd = none
  lowest : ∀ n < fd, (d.file n).isSome
  limit : d'.limit = d.limit
  file : d'.file = Function.update d.file fd (some k)

/-- An allocation that succeeds does what `Allocated` says. -/
lemma alloc_spec (h : d.alloc k = some (fd, d')) : Allocated d k fd d' := by
  obtain ⟨n, hn, heq⟩ := Option.map_eq_some_iff.mp h
  obtain ⟨rfl, rfl⟩ := Prod.mk.inj heq
  obtain ⟨hfree, i, hi, hget, hbefore⟩ := List.find?_eq_some_iff_getElem.mp hn
  have hvalue : n.val = i := by
    rw [← hget, List.getElem_finRange]
    rfl
  refine ⟨Option.isNone_iff_eq_none.mp hfree, ?_, rfl, rfl⟩
  intro m hm
  have hused := hbefore m (by omega)
  rw [List.getElem_finRange] at hused
  simpa [Option.isSome_iff_ne_none] using hused

/-- An allocation fails exactly if the table is full. -/
lemma alloc_eq_none_iff : d.alloc k = none ↔ d.Full := by
  rw [alloc, Option.map_eq_none_iff, lowest, List.find?_eq_none]
  constructor
  · intro h fd hfd
    have hused := h ⟨fd, hfd⟩ (List.mem_finRange _)
    simpa [Option.isSome_iff_ne_none] using hused
  · intro h fd _
    have hused := h fd.val fd.isLt
    simpa [Option.isSome_iff_ne_none] using hused

/-- It succeeds if the table is not full. -/
lemma exists_alloc (h : ¬ d.Full) (k : κ) : ∃ fd d', d.alloc k = some (fd, d') := by
  obtain ⟨r, hr⟩ := Option.ne_none_iff_exists'.mp (mt alloc_eq_none_iff.mp h)
  exact ⟨r.1, r.2, hr⟩

namespace Allocated

variable {n : ℕ}

/-- The new descriptor is open on what has been asked for. -/
lemma file_self (h : Allocated d k fd d') : d'.file fd = some k := by
  rw [h.file, Function.update_self]

/-- The others are as they were. -/
lemma file_of_ne (h : Allocated d k fd d') (hn : n ≠ fd) : d'.file n = d.file n := by
  rw [h.file, Function.update_of_ne hn]

/-- What is open stays open. -/
lemma file_of_some (h : Allocated d k fd d') {x : κ} (hn : d.file n = some x) :
    d'.file n = some x := by
  have hne : n ≠ fd := by
    rintro rfl
    cases h.free.symm.trans hn
  rw [h.file_of_ne hne, hn]

/-- One more descriptor is open. -/
lemma opened_eq (h : Allocated d k fd d') : d'.opened = insert fd d.opened := by
  ext n
  rw [Finset.mem_insert, mem_opened, mem_opened]
  by_cases hn : n = fd
  · subst hn
    rw [h.file_self]
    exact iff_of_true rfl (Or.inl rfl)
  · rw [h.file_of_ne hn]
    exact (or_iff_right hn).symm

/-- So there is one more of them. -/
lemma count_eq (h : Allocated d k fd d') : d'.count = d.count + 1 := by
  rw [count, h.opened_eq, Finset.card_insert_of_notMem, count]
  rw [mem_opened, h.free]
  exact Bool.false_ne_true

/-- A descriptor that is closed again leaves the table as it was. -/
lemma close_eq (h : Allocated d k fd d') : d'.close fd = d := by
  refine DescriptorTable.ext h.limit ?_
  change Function.update d'.file fd none = d.file
  rw [h.file, Function.update_idem, Function.update_eq_self_iff]
  exact h.free.symm

end Allocated

/-- After a close the table is not full. -/
lemma not_full_close (h : (d.file fd).isSome) : ¬ (d.close fd).Full := by
  intro hfull
  have hlt : fd < (d.close fd).limit := lt_limit (d := d) h
  have hused := hfull fd hlt
  rw [file_close_self] at hused
  cases hused

/-- There are at most as many open descriptors as the limit. -/
lemma count_le : d.count ≤ d.limit := by
  refine (Finset.card_filter_le _ _).trans ?_
  rw [Finset.card_range]

/-- The table is full exactly if the limit has been reached. -/
lemma full_iff : d.Full ↔ d.count = d.limit := by
  have hcard : d.count = d.limit ↔ d.opened.card = (Finset.range d.limit).card := by
    rw [Finset.card_range]
    rfl
  rw [hcard, opened, Finset.card_filter_eq_iff]
  exact ⟨fun h fd hfd => h fd (Finset.mem_range.mp hfd),
    fun h fd hfd => h fd (Finset.mem_range.mpr hfd)⟩

/-- The reserve: of a full table, a descriptor that is closed is the next one to be allocated. -/
lemma alloc_close_of_full (hfull : d.Full) (h : (d.file fd).isSome) (k : κ) :
    ∃ d', (d.close fd).alloc k = some (fd, d') ∧ Allocated (d.close fd) k fd d' := by
  obtain ⟨n, d', halloc⟩ := exists_alloc (not_full_close h) k
  have hspec := alloc_spec halloc
  obtain rfl : n = fd := by
    by_contra hne
    have hlt : n < d.limit := by
      have hsome : (d'.file n).isSome := by
        rw [hspec.file_self]
        rfl
      have hlimit := lt_limit hsome
      rwa [hspec.limit, limit_close] at hlimit
    have hused := hfull n hlt
    rw [← file_close_of_ne hne, hspec.free] at hused
    cases hused
  exact ⟨d', halloc, hspec⟩

/-- Opened again on the same thing, it leaves the table as it was. -/
lemma reopen_eq (h : Allocated (d.close fd) k fd d') (hfile : d.file fd = some k) : d' = d := by
  refine DescriptorTable.ext h.limit ?_
  rw [h.file]
  change Function.update (Function.update d.file fd none) fd (some k) = d.file
  rw [Function.update_idem, Function.update_eq_self_iff]
  exact hfile.symm

end DescriptorTable

end MuduoServer
