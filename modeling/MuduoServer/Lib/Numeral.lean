import Mathlib

/-!
# Positional numerals

A numeral is a list of digits with the most significant one in front.  `IsNumeral b ds n` says that
`ds` is the numeral of `n` in base `b`: no digit is too large and there is no leading zero, except
that zero itself is written with one digit.  Every number has exactly one numeral.

Numerals that are written one after the other need not be readable again.  `Shift` describes the
case in which digits have moved from the front of the second number to the end of the first, and
`append_numeral_eq_iff` shows that this is the only way in which two pairs look the same.
-/

namespace MuduoServer

/-- The number that a list of digits stands for. -/
def digitsValue (b : ℕ) (ds : List ℕ) : ℕ := Nat.ofDigits b ds.reverse

/-- The numeral of a number. -/
def numeral (b n : ℕ) : List ℕ := if n = 0 then [0] else (Nat.digits b n).reverse

/-- The digits are the numeral of the number. -/
structure IsNumeral (b : ℕ) (ds : List ℕ) (n : ℕ) : Prop where
  lt : ∀ d ∈ ds, d < b
  ne_nil : ds ≠ []
  /-- Only zero is written with a zero in front. -/
  lead : ds.head? = some 0 → ds = [0]
  value : digitsValue b ds = n

variable {b m n p q : ℕ} {ds es : List ℕ}

/-- The value of two texts of digits, one behind the other. -/
lemma digitsValue_append : digitsValue b (ds ++ es) =
    digitsValue b ds * b ^ es.length + digitsValue b es := by
  rw [digitsValue, List.reverse_append, Nat.ofDigits_append, List.length_reverse]
  unfold digitsValue
  ring

/-- The numeral of a number has the number as its value. -/
@[simp] lemma digitsValue_numeral (b n : ℕ) : digitsValue b (numeral b n) = n := by
  unfold digitsValue numeral
  split
  · next h => simp [h]
  · rw [List.reverse_reverse, Nat.ofDigits_digits]

/-- Different numbers have different numerals. -/
lemma numeral_injective : Function.Injective (numeral b) := by
  intro m n h
  rw [← digitsValue_numeral b m, h, digitsValue_numeral]

/-- The value of so many digits is below that power of the base. -/
lemma digitsValue_lt (hb : 1 < b) (h : ∀ d ∈ ds, d < b) : digitsValue b ds < b ^ ds.length := by
  have hlt := Nat.ofDigits_lt_base_pow_length (l := ds.reverse) hb fun d hd =>
    h d (List.mem_reverse.mp hd)
  rwa [List.length_reverse] at hlt

/-- What the loop sees that divides by the base: the last digit, and the numeral of the quotient in
front of it. -/
lemma numeral_eq (hb : 1 < b) (n : ℕ) :
    numeral b n = if n / b = 0 then [n % b] else numeral b (n / b) ++ [n % b] := by
  by_cases hn : n = 0
  · simp [hn, numeral]
  · rw [numeral, if_neg hn, Nat.digits_eq_cons_digits_div hb hn, List.reverse_cons]
    split
    · next hq => simp [hq]
    · next hq => rw [numeral, if_neg hq]

/-- The digits of a numeral are below the base. -/
lemma lt_of_mem_numeral (hb : 1 < b) {d : ℕ} (hd : d ∈ numeral b n) : d < b := by
  unfold numeral at hd
  split at hd
  · rw [List.mem_singleton.mp hd]
    exact Nat.zero_lt_of_lt hb
  · exact Nat.digits_lt_base hb (List.mem_reverse.mp hd)

/-- A numeral has at least one digit. -/
lemma numeral_ne_nil : numeral b n ≠ [] := by
  unfold numeral
  split
  · exact List.cons_ne_nil _ _
  · next hn => simpa [Nat.digits_eq_nil_iff_eq_zero] using hn

/-- The first digit of a number that is not zero. -/
lemma head?_numeral_ne_zero (hn : n ≠ 0) : (numeral b n).head? ≠ some 0 := by
  intro h
  rw [numeral, if_neg hn, List.head?_reverse] at h
  have hne : Nat.digits b n ≠ [] := Nat.digits_ne_nil_iff_ne_zero.mpr hn
  rw [List.getLast?_eq_some_getLast hne, Option.some.injEq] at h
  exact Nat.getLast_digit_ne_zero b hn h

/-- The numeral of a number is one. -/
theorem isNumeral_numeral (hb : 1 < b) (n : ℕ) : IsNumeral b (numeral b n) n where
  lt _ hd := lt_of_mem_numeral hb hd
  ne_nil := numeral_ne_nil
  lead h := by
    by_cases hn : n = 0
    · simp [hn, numeral]
    · exact absurd h (head?_numeral_ne_zero hn)
  value := digitsValue_numeral b n

/-- The numeral of a number is unique. -/
theorem IsNumeral.eq_numeral (hb : 1 < b) (h : IsNumeral b ds n) : ds = numeral b n := by
  by_cases hlead : ds.head? = some 0
  · have hds := h.lead hlead
    have hn : n = 0 := by
      rw [← h.value, hds]
      simp [digitsValue]
    rw [hds, hn]
    rfl
  · have hlast : ∀ hne : ds.reverse ≠ [], ds.reverse.getLast hne ≠ 0 := by
      intro hne hzero
      apply hlead
      rw [← List.getLast?_reverse, List.getLast?_eq_some_getLast hne, hzero]
    have hdigits := Nat.digits_ofDigits b hb ds.reverse
      (fun d hd => h.lt d (List.mem_reverse.mp hd)) hlast
    have hvalue : Nat.ofDigits b ds.reverse = n := h.value
    rw [hvalue] at hdigits
    have hn : n ≠ 0 := by
      rintro rfl
      rw [Nat.digits_zero] at hdigits
      exact h.ne_nil (List.reverse_eq_nil_iff.mp hdigits.symm)
    rw [numeral, if_neg hn, hdigits, List.reverse_reverse]

/-! ### Lengths -/

/-- So its length is positive. -/
lemma length_numeral_pos : 0 < (numeral b n).length := List.length_pos_of_ne_nil numeral_ne_nil

/-- A number below a power of the base has at most so many digits. -/
lemma length_numeral_le {k : ℕ} (hb : 1 < b) (hk : 0 < k) (h : n < b ^ k) :
    (numeral b n).length ≤ k := by
  unfold numeral
  split
  · exact hk
  · rw [List.length_reverse]
    exact (Nat.digits_length_le_iff hb n).mpr h

/-- The length of a numeral tells the size of the number. -/
lemma pow_le_of_length (hb : 1 < b) (hn : n ≠ 0) : b ^ ((numeral b n).length - 1) ≤ n := by
  rw [numeral, if_neg hn, List.length_reverse]
  have hpos : 0 < (Nat.digits b n).length :=
    List.length_pos_of_ne_nil (Nat.digits_ne_nil_iff_ne_zero.mpr hn)
  exact (Nat.lt_digits_length_iff hb n).mp (by omega)

/-- A number is below the power of the base that its digits give. -/
lemma lt_pow_length (hb : 1 < b) (n : ℕ) : n < b ^ (numeral b n).length := by
  have h := digitsValue_lt hb fun d hd => lt_of_mem_numeral hb hd (n := n)
  rwa [digitsValue_numeral] at h

/-- The length of the numeral of a number between two powers. -/
lemma length_numeral_of_bounds {k : ℕ} (hb : 1 < b) (hk : b ^ k ≤ n) (hn : n < b ^ (k + 1)) :
    (numeral b n).length = k + 1 := by
  have hle := length_numeral_le hb k.succ_pos hn
  have hlt : b ^ k < b ^ (numeral b n).length := hk.trans_lt (lt_pow_length hb n)
  have := (Nat.pow_lt_pow_iff_right hb).mp hlt
  omega

/-! ### Two numerals in a row -/

/-- The numeral of a number with more digits written behind it. -/
lemma numeral_append (hb : 1 < b) (hm : 0 < m) (h : ∀ d ∈ es, d < b) :
    numeral b m ++ es = numeral b (m * b ^ es.length + digitsValue b es) := by
  apply IsNumeral.eq_numeral hb
  refine ⟨fun d hd => ?_, fun hnil => ?_, fun hlead => ?_, ?_⟩
  · rcases List.mem_append.mp hd with hd | hd
    · exact lt_of_mem_numeral hb hd
    · exact h d hd
  · exact numeral_ne_nil (List.append_eq_nil_iff.mp hnil).1
  · rw [List.head?_append_of_ne_nil _ numeral_ne_nil] at hlead
    exact absurd hlead (head?_numeral_ne_zero hm.ne')
  · rw [digitsValue_append, digitsValue_numeral]

/-- Digits have moved from the front of `p` to the end of `m`: `r` is what they stand for, and they
are `k + 1` in number. -/
def Shift (b m p n q : ℕ) : Prop :=
  ∃ k r, 0 < m ∧ b ^ k ≤ r ∧ r < b ^ (k + 1) ∧ n = m * b ^ (k + 1) + r ∧
    p = r * b ^ (numeral b q).length + q

namespace Shift

/-- A shift does not change what is read. -/
lemma append_eq (hb : 1 < b) (h : Shift b m p n q) :
    numeral b m ++ numeral b p = numeral b n ++ numeral b q := by
  obtain ⟨k, r, hm, hr, hr', rfl, rfl⟩ := h
  have hlen : (numeral b r).length = k + 1 := length_numeral_of_bounds hb hr hr'
  have hpos : 0 < r := (Nat.pow_pos (Nat.zero_lt_of_lt hb)).trans_le hr
  have hn := numeral_append hb hm fun d hd => lt_of_mem_numeral hb hd (n := r)
  have hp := numeral_append hb hpos fun d hd => lt_of_mem_numeral hb hd (n := q)
  rw [digitsValue_numeral] at hn hp
  rw [← hlen, ← hn, ← hp, List.append_assoc]

/-- The digits that have moved make the first number larger. -/
lemma lt (hb : 1 < b) (h : Shift b m p n q) : m < n := by
  obtain ⟨k, r, -, hr, -, rfl, -⟩ := h
  have hr₀ : 0 < r := (Nat.pow_pos (Nat.zero_lt_of_lt hb)).trans_le hr
  have hle : m ≤ m * b ^ (k + 1) := Nat.le_mul_of_pos_right m (Nat.pow_pos (Nat.zero_lt_of_lt hb))
  omega

/-- Digits in the middle that belong to the second number in one reading and to the first in the
other. -/
lemma of_append (hb : 1 < b) (hes : es ≠ []) (hn : numeral b n = numeral b m ++ es)
    (hp : numeral b p = es ++ numeral b q) : Shift b m p n q := by
  have hlt : ∀ d ∈ es, d < b := fun d hd =>
    lt_of_mem_numeral hb (hn ▸ List.mem_append_right _ hd)
  have hm : 0 < m := by
    rw [Nat.pos_iff_ne_zero]
    rintro rfl
    have hlead := (isNumeral_numeral hb n).lead (by rw [hn]; rfl)
    rw [hn] at hlead
    exact hes (List.cons.inj hlead).2
  have hhead : es.head? ≠ some 0 := by
    intro hzero
    have hlead := (isNumeral_numeral hb p).lead
      (by rw [hp, List.head?_append_of_ne_nil _ hes, hzero])
    have hlen := congrArg List.length hlead
    rw [hp, List.length_append, List.length_singleton] at hlen
    have hes₀ := List.length_pos_of_ne_nil hes
    have hq : 0 < (numeral b q).length := length_numeral_pos
    omega
  have hnum : IsNumeral b es (digitsValue b es) :=
    ⟨hlt, hes, fun hzero => absurd hzero hhead, rfl⟩
  have heq := hnum.eq_numeral hb
  have hr : digitsValue b es ≠ 0 := by
    intro hzero
    rw [hzero] at heq
    rw [heq] at hhead
    exact hhead rfl
  have hlen : es.length - 1 + 1 = es.length := Nat.sub_add_cancel (List.length_pos_of_ne_nil hes)
  refine ⟨es.length - 1, digitsValue b es, hm, ?_, ?_, ?_, ?_⟩
  · have hle := pow_le_of_length hb hr
    rwa [← heq] at hle
  · rw [hlen]
    exact digitsValue_lt hb hlt
  · rw [hlen, ← digitsValue_numeral b n, hn, digitsValue_append, digitsValue_numeral]
  · rw [← digitsValue_numeral b p, hp, digitsValue_append, digitsValue_numeral]

end Shift

/-- Two pairs of numerals read the same only if they are the same or digits have moved. -/
theorem append_numeral_eq_iff (hb : 1 < b) :
    numeral b m ++ numeral b p = numeral b n ++ numeral b q ↔
      (m = n ∧ p = q) ∨ Shift b m p n q ∨ Shift b n q m p := by
  constructor
  · intro h
    rcases List.append_eq_append_iff.mp h with ⟨es, hn, hp⟩ | ⟨es, hm, hq⟩
    · by_cases hes : es = []
      · rw [hes, List.append_nil] at hn
        rw [hes, List.nil_append] at hp
        exact Or.inl ⟨(numeral_injective hn).symm, numeral_injective hp⟩
      · exact Or.inr (Or.inl (.of_append hb hes hn hp))
    · by_cases hes : es = []
      · rw [hes, List.append_nil] at hm
        rw [hes, List.nil_append] at hq
        exact Or.inl ⟨numeral_injective hm, (numeral_injective hq).symm⟩
      · exact Or.inr (Or.inr (.of_append hb hes hm hq))
  · rintro (⟨rfl, rfl⟩ | h | h)
    · rfl
    · exact h.append_eq hb
    · exact (h.append_eq hb).symm

end MuduoServer
