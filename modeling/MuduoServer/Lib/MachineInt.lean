import Mathlib

/-!
# Integers of a fixed width

The integer types of a machine in two's complement.  Values are mathematical integers, and an
operation that may leave the range is followed by `wrap`, which takes the result modulo `2 ^ bits`
back into it.  Negation leaves the range at one value only, the least one of a signed type, and
gives that value again.  `truncate` is the conversion of a floating-point number.  `int` has 32 bits
and `size_t` has 64.
-/

namespace MuduoServer

/-- The conversion of a `size_t` to `int`. -/
def intOfSize (n : ℕ) : ℤ := Int.bmod n (2 ^ 32)

/-- The conversion of an `int` to `size_t`. -/
def sizeOfInt (i : ℤ) : ℕ := (i % 2 ^ 64).toNat

/-- The width of an integer type and whether it has negative values. -/
structure IntType where
  bits : ℕ
  signed : Bool
  deriving DecidableEq, Repr

namespace IntType

/-- Reduction modulo `2 ^ bits` into the range of the type. -/
def wrap (t : IntType) (v : ℤ) : ℤ :=
  if t.signed then v.bmod (2 ^ t.bits) else v % 2 ^ t.bits

/-- The least value. -/
def minimum (t : IntType) : ℤ := if t.signed then -2 ^ (t.bits - 1) else 0

/-- The least number above all values. -/
def bound (t : IntType) : ℤ := if t.signed then 2 ^ (t.bits - 1) else 2 ^ t.bits

/-- The number is a value of the type. -/
def InRange (t : IntType) (v : ℤ) : Prop := t.minimum ≤ v ∧ v < t.bound

instance (t : IntType) (v : ℤ) : Decidable (t.InRange v) := inferInstanceAs (Decidable (_ ∧ _))

/-- The conversion of a floating-point number to a signed type: `whole` is its whole part, which an
infinity and a NaN do not have.  The language leaves a number that does not fit undefined; the
conversion instruction of the processor gives the least value for it. -/
def truncate (t : IntType) (whole : Option ℤ) : ℤ :=
  match whole with
  | some v => if t.InRange v then v else t.minimum
  | none => t.minimum

variable {t : IntType} {v : ℤ}

/-- The range of a signed type. -/
lemma inRange_signed {bits : ℕ} :
    (⟨bits, true⟩ : IntType).InRange v ↔ -2 ^ (bits - 1) ≤ v ∧ v < 2 ^ (bits - 1) := Iff.rfl

/-- The range of an unsigned type. -/
lemma inRange_unsigned {bits n : ℕ} (h : n < 2 ^ bits) : (⟨bits, false⟩ : IntType).InRange n := by
  have hbound : (n : ℤ) < 2 ^ bits := by exact_mod_cast h
  exact ⟨Int.natCast_nonneg n, hbound⟩

/-- A type has twice as many values as the type with one bit less. -/
lemma two_pow_eq (h : 0 < t.bits) : (2 : ℕ) ^ t.bits = 2 * 2 ^ (t.bits - 1) := by
  rw [← pow_succ', Nat.sub_add_cancel h]

/-- Twice the bound of a signed type is the number of its values. -/
lemma two_pow_bits (hbits : 0 < t.bits) (hsigned : t.signed = true) :
    ((2 ^ t.bits : ℕ) : ℤ) = 2 * t.bound := by
  rw [two_pow_eq hbits, bound, if_pos hsigned]
  push_cast
  rfl

/-- The values of a signed type lie symmetrically around zero, but for the least one. -/
lemma minimum_eq (hsigned : t.signed = true) : t.minimum = -t.bound := by
  simp [minimum, bound, hsigned]

/-- A value of a signed type is left alone. -/
lemma wrap_of_inRange (hbits : 0 < t.bits) (hsigned : t.signed = true) (hv : t.InRange v) :
    t.wrap v = v := by
  obtain ⟨hlow, hhigh⟩ := hv
  have hpow := two_pow_bits hbits hsigned
  rw [minimum_eq hsigned] at hlow
  rw [wrap, if_pos hsigned]
  apply Int.bmod_eq_of_le <;> omega

/-- What is wrapped into a signed type is below its bound. -/
lemma wrap_lt_bound (hbits : 0 < t.bits) (hsigned : t.signed = true) (v : ℤ) :
    t.wrap v < t.bound := by
  have hpow := two_pow_bits hbits hsigned
  have hlt : v.bmod (2 ^ t.bits) < ((2 ^ t.bits : ℕ) + 1 : ℤ) / 2 :=
    Int.bmod_lt (Nat.two_pow_pos _)
  rw [wrap, if_pos hsigned]
  omega

/-- Negation of any other value stays in the range. -/
lemma wrap_neg (hbits : 0 < t.bits) (hsigned : t.signed = true) (hv : t.InRange v)
    (hne : v ≠ t.minimum) : t.wrap (-v) = -v := by
  obtain ⟨hlow, hhigh⟩ := hv
  rw [minimum_eq hsigned] at hlow hne
  refine wrap_of_inRange hbits hsigned ⟨?_, ?_⟩
  · rw [minimum_eq hsigned]
    omega
  · omega

/-- Negation of the least value of a signed type. -/
lemma wrap_neg_minimum (hbits : 0 < t.bits) (hsigned : t.signed = true) :
    t.wrap (-t.minimum) = t.minimum := by
  have hcast : ((2 ^ (t.bits - 1) : ℕ) : ℤ) = 2 ^ (t.bits - 1) := by push_cast; rfl
  simp only [wrap, minimum, hsigned, if_true, two_pow_eq hbits, neg_neg]
  rw [← hcast]
  generalize 2 ^ (t.bits - 1) = k
  have hmod : ((k : ℤ) - (2 * k : ℕ) * 1).bmod (2 * k) = (k : ℤ).bmod (2 * k) :=
    Int.sub_mul_bmod_self_left _ _ _
  rw [← hmod]
  by_cases hk : k = 0
  · simp [hk]
  · rw [Int.bmod_eq_of_le] <;> push_cast <;> omega

end IntType

end MuduoServer
