import MuduoServer.Lib.Numeral
import MuduoServer.Log.Basic

/-!
# Numbers in a log stream

`formatInteger` writes the digits of a number behind the cursor, the last one first, then the sign
and a terminating zero, and turns digits and sign round.  `Wrote` says what a sequence of such
writes has done, and `loopText` which bytes the digit loop writes.

The loop is written for numbers that are not negative.  A negative number is negated in its own
type, which gives the number itself again if it is the least one of an `int` or of a `long`.  The
loop then stops after one round, and its remainder is negative: the text is `-(`.
-/

namespace MuduoServer

open Memory

namespace FixedBuffer

variable {SIZE : ℕ} {b b' b₁ b₂ : FixedBuffer SIZE} {i : ℕ} {x y : List UInt8}

/-- The text in the buffer. -/
def contents (b : FixedBuffer SIZE) : List UInt8 := b.data.take b.cur

/-- The bytes have been written from a place on, and nothing before it has changed. -/
structure Wrote (b : FixedBuffer SIZE) (i : ℕ) (bytes : List UInt8) (b' : FixedBuffer SIZE) :
    Prop where
  room : i + bytes.length ≤ SIZE
  cur : b'.cur = b.cur
  data : b'.data.take (i + bytes.length) = b.data.take i ++ bytes

/-- A write inside the array. -/
lemma store_wrote (h : i + x.length ≤ SIZE) : ∃ b', b.store i x = some b' ∧ Wrote b i x b' := by
  refine ⟨_, dif_pos h, h, rfl, ?_⟩
  have hi : (b.data.take i).length = i := by
    rw [List.length_take, b.size]
    omega
  have hlen : i + x.length = (b.data.take i ++ x).length := by rw [List.length_append, hi]
  dsimp only [overwrite]
  rw [hlen, List.take_left]

namespace Wrote

/-- Two writes, one behind the other. -/
lemma append (h : Wrote b i x b₁) (h' : Wrote b₁ (i + x.length) y b₂) : Wrote b i (x ++ y) b₂ := by
  refine ⟨?_, h'.cur.trans h.cur, ?_⟩
  · rw [List.length_append, ← Nat.add_assoc]
    exact h'.room
  · rw [List.length_append, ← Nat.add_assoc, h'.data, h.data, List.append_assoc]

/-- The first part of a write. -/
lemma of_append (h : Wrote b i (x ++ y) b') : Wrote b i x b' := by
  have hroom := h.room
  rw [List.length_append] at hroom
  have hi : (b.data.take i).length = i := by
    rw [List.length_take, b.size]
    omega
  refine ⟨by omega, h.cur, ?_⟩
  have htake := congrArg (List.take (i + x.length)) h.data
  rw [List.take_take, List.length_append, Nat.min_eq_left (by omega), ← List.append_assoc] at htake
  have hlen : i + x.length = (b.data.take i ++ x).length := by rw [List.length_append, hi]
  rw [htake, hlen, List.take_left]

/-- The bytes written are turned round. -/
lemma reverse (h : Wrote b i x b₁) :
    ∃ b₂, b₁.reverse i (i + x.length) = some b₂ ∧ Wrote b i x.reverse b₂ := by
  have hroom := h.room
  have hi : (b.data.take i).length = i := by
    rw [List.length_take, b.size]
    omega
  have hslice : slice b₁.data i (i + x.length) = x := by
    rw [slice, ← List.drop_take, h.data, List.drop_left' hi]
  have hbefore : b₁.data.take i = b.data.take i := by
    have htake := congrArg (List.take i) h.data
    rwa [List.take_take, Nat.min_eq_left (Nat.le_add_right _ _), List.take_left' hi] at htake
  obtain ⟨b₂, hb₂, hwrote⟩ := store_wrote (b := b₁) (i := i) (x := x.reverse) (by simpa using hroom)
  refine ⟨b₂, ?_, hwrote.room, hwrote.cur.trans h.cur, ?_⟩
  · rw [FixedBuffer.reverse, hslice, hb₂]
  · rw [hwrote.data, hbefore]

/-- What is written at the cursor becomes text when the cursor moves behind it. -/
lemma contents_add (h : Wrote b b.cur x b') : (b'.add x.length).contents = b.contents ++ x := by
  have hdata := h.data
  unfold contents add
  rw [h.cur]
  exact hdata

end Wrote

/-! ### The digit loop -/

/-- The bytes that the digit loop writes. -/
def loopText (digit : ℤ → UInt8) (base : ℕ) (v : ℤ) : List UInt8 :=
  if 0 ≤ v then (numeral base v.toNat).reverse.map fun d : ℕ => digit d else [digit (v.tmod base)]

variable {digit : ℤ → UInt8} {base : ℕ}

/-- One round of the loop. -/
lemma loopText_eq (hb : 1 < base) (v : ℤ) : loopText digit base v =
    digit (v.tmod base) :: if 0 < v.tdiv base then loopText digit base (v.tdiv base) else [] := by
  by_cases hv : 0 ≤ v
  · obtain ⟨n, rfl⟩ := Int.eq_ofNat_of_zero_le hv
    have hdiv : (n : ℤ).tdiv base = (n / base : ℕ) := rfl
    have hmod : (n : ℤ).tmod base = (n % base : ℕ) := rfl
    rw [hdiv, hmod, loopText, if_pos hv, Int.toNat_natCast, numeral_eq hb]
    by_cases hq : n / base = 0
    · simp [hq]
    · have hpos : (0 : ℤ) < (n / base : ℕ) := by exact_mod_cast Nat.pos_of_ne_zero hq
      rw [if_neg hq, if_pos hpos, loopText, if_pos hpos.le, Int.toNat_natCast]
      simp
  · have hdiv : ¬ 0 < v.tdiv base := by
      have hle : 0 ≤ (-v).tdiv base := Int.tdiv_nonneg (by omega) (Int.natCast_nonneg base)
      rw [Int.neg_tdiv] at hle
      omega
    rw [loopText, if_neg hv, if_neg hdiv]

variable (digit base) in
/-- The loop ends, and has written its text. -/
lemma digitsLoop_wrote (hb : 1 < base) {fuel : ℕ} {v : ℤ} (hfuel : v.natAbs < fuel)
    (hroom : i + (loopText digit base v).length ≤ SIZE) (b : FixedBuffer SIZE) :
    ∃ b', b.digitsLoop digit base fuel i v = some (b', i + (loopText digit base v).length) ∧
      Wrote b i (loopText digit base v) b' := by
  induction fuel generalizing b i v with
  | zero => omega
  | succ fuel ih =>
    rw [loopText_eq hb] at hroom ⊢
    obtain ⟨b₁, hb₁, hwrote⟩ := store_wrote (b := b) (i := i) (x := [digit (v.tmod base)])
      (by simp only [List.length_cons, List.length_nil] at hroom ⊢; omega)
    rw [digitsLoop, hb₁, Option.bind_eq_bind, Option.bind_some]
    by_cases hpos : 0 < v.tdiv base
    · simp only [if_pos hpos] at hroom ⊢
      have hlt : (v.tdiv base).natAbs < fuel := by
        rw [Int.natAbs_tdiv, Int.natAbs_natCast]
        have hv : v.natAbs ≠ 0 := by
          intro hzero
          rw [Int.natAbs_eq_zero.mp hzero] at hpos
          simp at hpos
        have hdiv : v.natAbs.div base < v.natAbs := Nat.div_lt_self (Nat.pos_of_ne_zero hv) hb
        omega
      have hroom' : i + 1 + (loopText digit base (v.tdiv base)).length ≤ SIZE := by
        simp only [List.length_cons] at hroom
        omega
      obtain ⟨b₂, hb₂, hwrote'⟩ := ih hlt hroom' b₁
      refine ⟨b₂, ?_, hwrote.append hwrote'⟩
      rw [hb₂, List.length_cons]
      simp only [Option.some.injEq, Prod.mk.injEq, true_and]
      omega
    · simp only [if_neg hpos]
      exact ⟨b₁, rfl, hwrote⟩

variable (digit) in
/-- The digit loop writes no more digits than the number has. -/
lemma length_loopText_le {v : ℤ} {k : ℕ} (hb : 1 < base) (hk : 0 < k) (h : v < (base ^ k : ℕ)) :
    (loopText digit base v).length ≤ k := by
  unfold loopText
  split
  · rw [List.length_map, List.length_reverse]
    exact length_numeral_le hb hk (by omega)
  · exact hk

end FixedBuffer

namespace LogStream

open FixedBuffer

variable {s s' : LogStream} {T : IntType} {v : ℤ}

/-- The text in the stream. -/
def contents (s : LogStream) : List UInt8 := s.buffer.contents

/-- A text has been appended as a whole. -/
structure Appended (s : LogStream) (text : List UInt8) (s' : LogStream) : Prop where
  contents : s'.contents = s.contents ++ text
  length : s'.buffer.length = s.buffer.length + text.length

/-- What is written at the cursor has been appended when the cursor moves behind it. -/
lemma Appended.of_wrote {b : FixedBuffer kSmallBuffer} {text : List UInt8}
    (h : Wrote s.buffer s.buffer.cur text b) : Appended s text ⟨b.add text.length⟩ := by
  refine ⟨h.contents_add, ?_⟩
  rw [FixedBuffer.length, FixedBuffer.length, ← h.cur]
  rfl

/-! ### What the two functions append -/

/-- The number whose digits are written: the absolute value, where the type has it. -/
def magnitude (T : IntType) (v : ℤ) : ℤ := if v < 0 then T.wrap (-v) else v

/-- The sign of a negative number. -/
def signText (v : ℤ) : List UInt8 := if v < 0 then ['-'.toUInt8] else []

/-- The text that `formatInteger` appends. -/
def integerText (T : IntType) (v : ℤ) : List UInt8 :=
  signText v ++ (loopText decimalDigit 10 (magnitude T v)).reverse

/-- The text that is appended for a pointer. -/
def pointerText (p : UInt64) : List UInt8 :=
  ['0'.toUInt8, 'x'.toUInt8] ++ (loopText hexDigit 16 p.toNat).reverse

/-- The sign is written behind the digits. -/
lemma sign_wrote {SIZE : ℕ} {b b₁ : FixedBuffer SIZE} {i : ℕ} {x : List UInt8}
    (h : Wrote b i x b₁) (hroom : i + (x ++ signText v).length ≤ SIZE) :
    ∃ b₂, storeSign v (b₁, i + x.length) = some (b₂, i + (x ++ signText v).length) ∧
      Wrote b i (x ++ signText v) b₂ := by
  unfold storeSign
  by_cases hv : v < 0
  · simp only [signText, if_pos hv, List.length_append, List.length_singleton] at hroom ⊢
    obtain ⟨b₂, hb₂, hwrote⟩ := store_wrote (b := b₁) (i := i + x.length) (x := ['-'.toUInt8])
      (by rw [List.length_singleton]; omega)
    refine ⟨b₂, ?_, h.append hwrote⟩
    rw [hb₂, Option.map_some, Nat.add_assoc]
  · simp only [signText, if_neg hv, List.append_nil]
    exact ⟨b₁, rfl, h⟩

/-- `formatInteger` appends its text where the reserve is enough for it and a zero. -/
lemma formatInteger_appended (hroom : kMaxNumericSize ≤ s.buffer.avail)
    (hlen : (integerText T v).length < 32) :
    ∃ s', s.formatInteger T v = some s' ∧ Appended s (integerText T v) s' := by
  have hspace : s.buffer.cur + 32 ≤ kSmallBuffer := by
    unfold kMaxNumericSize FixedBuffer.avail at hroom
    omega
  have hsum : (loopText decimalDigit 10 (magnitude T v) ++ signText v).length < 32 := by
    rw [integerText, List.length_append, List.length_reverse] at hlen
    rw [List.length_append]
    omega
  have hdigits := hsum
  rw [List.length_append] at hdigits
  obtain ⟨b₁, hb₁, h₁⟩ := digitsLoop_wrote decimalDigit 10 (i := s.buffer.cur) (by decide)
    (Nat.lt_succ_self (magnitude T v).natAbs) (by omega) s.buffer
  obtain ⟨b₂, hb₂, h₂⟩ := sign_wrote (v := v) h₁ (by omega)
  obtain ⟨b₃, hb₃, h₃⟩ := store_wrote (b := b₂) (x := [0])
    (i := s.buffer.cur + (loopText decimalDigit 10 (magnitude T v) ++ signText v).length)
    (by rw [List.length_singleton]; omega)
  obtain ⟨b₄, hb₄, h₄⟩ := (h₂.append h₃).of_append.reverse
  have hreverse : (loopText decimalDigit 10 (magnitude T v) ++ signText v).reverse =
      integerText T v := by
    rw [List.reverse_append, integerText]
    congr 1
    unfold signText
    split <;> rfl
  rw [hreverse] at h₄
  have hlength : s.buffer.cur + (loopText decimalDigit 10 (magnitude T v) ++ signText v).length -
      s.buffer.cur = (integerText T v).length := by
    rw [← hreverse, List.length_reverse]
    omega
  refine ⟨_, ?_, .of_wrote h₄⟩
  simp only [formatInteger, if_pos hroom]
  change ((s.buffer.digitsLoop decimalDigit 10 ((magnitude T v).natAbs + 1) s.buffer.cur
    (magnitude T v)) >>= _) = _
  rw [show (10 : ℤ) = ((10 : ℕ) : ℤ) from rfl, hb₁]
  simp only [Option.bind_eq_bind, Option.bind_some, hb₂, hb₃, hb₄, hlength]

/-- `operator<<(const void*)` appends its text. -/
lemma insertPointer_appended {p : UInt64} (hroom : kMaxNumericSize ≤ s.buffer.avail)
    (hlen : (pointerText p).length < 32) :
    ∃ s', s.insertPointer p = some s' ∧ Appended s (pointerText p) s' := by
  have hspace : s.buffer.cur + 32 ≤ kSmallBuffer := by
    unfold kMaxNumericSize FixedBuffer.avail at hroom
    omega
  have hdigits : 2 + (loopText hexDigit 16 p.toNat).length < 32 := by
    rw [pointerText, List.length_append, List.length_reverse] at hlen
    exact hlen
  obtain ⟨b₁, hb₁, h₁⟩ := store_wrote (b := s.buffer) (i := s.buffer.cur) (x := ['0'.toUInt8])
    (by rw [List.length_singleton]; omega)
  obtain ⟨b₂, hb₂, h₂⟩ := store_wrote (b := b₁) (i := s.buffer.cur + 1) (x := ['x'.toUInt8])
    (by rw [List.length_singleton]; omega)
  obtain ⟨b₃, hb₃, h₃⟩ := digitsLoop_wrote hexDigit 16 (i := s.buffer.cur + 2) (by decide)
    (Nat.lt_succ_self (p.toNat : ℤ).natAbs) (by omega) b₂
  obtain ⟨b₄, hb₄, h₄⟩ := store_wrote (b := b₃) (x := [0])
    (i := s.buffer.cur + 2 + (loopText hexDigit 16 p.toNat).length)
    (by rw [List.length_singleton]; omega)
  obtain ⟨b₅, hb₅, h₅⟩ := (h₃.append h₄).of_append.reverse
  have hwrote : Wrote s.buffer s.buffer.cur (pointerText p) b₅ := (h₁.append h₂).append h₅
  have hlength : s.buffer.cur + 2 + (loopText hexDigit 16 p.toNat).length - s.buffer.cur =
      (pointerText p).length := by
    rw [pointerText, List.length_append, List.length_reverse, List.length_cons,
      List.length_singleton]
    omega
  refine ⟨_, ?_, .of_wrote hwrote⟩
  rw [Int.natAbs_natCast] at hb₃
  simp only [insertPointer, if_pos hroom, hb₁, hb₂, Option.bind_eq_bind, Option.bind_some]
  rw [show (16 : ℤ) = ((16 : ℕ) : ℤ) from rfl, hb₃]
  simp only [Option.bind_some, hb₄, hb₅, hlength]

/-- `operator<<(double)` appends its text. -/
lemma insertDouble_appended {text : CString} (hroom : kMaxNumericSize ≤ s.buffer.avail)
    (hlen : text.chars.length < 32) :
    ∃ s', s.insertDouble text = some s' ∧ Appended s text.chars s' := by
  have hspace : s.buffer.cur + (text.chars ++ [0]).length ≤ kSmallBuffer := by
    rw [List.length_append, List.length_singleton]
    unfold kMaxNumericSize FixedBuffer.avail at hroom
    omega
  obtain ⟨b, hb, hwrote⟩ := store_wrote (b := s.buffer) hspace
  refine ⟨_, ?_, .of_wrote hwrote.of_append⟩
  rw [insertDouble, if_pos hroom, hb]
  rfl

/-! ### Canonical numerals -/

/-- A digit as a character. -/
def digitByte (d : ℕ) : UInt8 := (Nat.digitChar d).toUInt8

/-- The text is the decimal numeral of the number: an optional sign, and digits without leading
zeros. -/
def IsDecimal (text : List UInt8) (v : ℤ) : Prop :=
  ∃ ds, IsNumeral 10 ds v.natAbs ∧ text = signText v ++ ds.map digitByte

/-- The decimal numeral of a number. -/
def decimalText (v : ℤ) : List UInt8 := signText v ++ (numeral 10 v.natAbs).map digitByte

/-- There is one decimal numeral of each number. -/
lemma isDecimal_iff {text : List UInt8} : IsDecimal text v ↔ text = decimalText v := by
  constructor
  · rintro ⟨ds, hds, rfl⟩
    rw [decimalText, hds.eq_numeral (by decide)]
  · rintro rfl
    exact ⟨_, isNumeral_numeral (by decide) _, rfl⟩

/-- The digit that a character stands for. -/
def parseDigit (c : UInt8) : Option ℕ :=
  if '0'.toNat ≤ c.toNat ∧ c.toNat ≤ '9'.toNat then some (c.toNat - '0'.toNat) else none

/-- Read digits, at least one. -/
def parseDigits (text : List UInt8) : Option ℕ :=
  if text = [] then none else (text.mapM parseDigit).map (digitsValue 10)

/-- Read a number with an optional sign. -/
def parseInteger (text : List UInt8) : Option ℤ :=
  if text.head? = some '-'.toUInt8 then (parseDigits text.tail).map fun n : ℕ => -(n : ℤ)
  else (parseDigits text).map fun n : ℕ => (n : ℤ)

/-- A digit is read back. -/
lemma parseDigit_digitByte {d : ℕ} (h : d < 10) : parseDigit (digitByte d) = some d := by
  interval_cases d <;> decide

/-- No digit is a sign. -/
lemma digitByte_ne_minus {d : ℕ} (h : d < 10) : digitByte d ≠ '-'.toUInt8 := by
  interval_cases d <;> decide

/-- The code makes the same characters. -/
lemma decimalDigit_eq {d : ℕ} (h : d < 10) : decimalDigit d = digitByte d := by
  interval_cases d <;> decide

/-- The digits of a number are read back. -/
lemma parseDigits_numeral (n : ℕ) : parseDigits ((numeral 10 n).map digitByte) = some n := by
  have hread : ∀ ds : List ℕ, (∀ d ∈ ds, d < 10) →
      (ds.map digitByte).mapM parseDigit = some ds := by
    intro ds hds
    induction ds with
    | nil => rfl
    | cons d ds ih =>
      rw [List.map_cons, List.mapM_cons, parseDigit_digitByte (hds d List.mem_cons_self),
        ih fun e he => hds e (List.mem_cons_of_mem d he)]
      rfl
  have hne : (numeral 10 n).map digitByte ≠ [] := by simpa using numeral_ne_nil
  rw [parseDigits, if_neg hne, hread _ fun d hd => lt_of_mem_numeral (by decide) hd,
    Option.map_some, digitsValue_numeral]

/-- The numeral of a number reads as the number. -/
lemma parseInteger_decimalText (v : ℤ) : parseInteger (decimalText v) = some v := by
  unfold parseInteger decimalText signText
  by_cases hv : v < 0
  · rw [if_pos hv, List.singleton_append, List.head?_cons, if_pos rfl, List.tail_cons,
      parseDigits_numeral, Option.map_some]
    congr 1
    omega
  · have hhead : ((numeral 10 v.natAbs).map digitByte).head? ≠ some '-'.toUInt8 := by
      rw [List.head?_map]
      intro hminus
      obtain ⟨d, hd, hbyte⟩ := Option.map_eq_some_iff.mp hminus
      exact digitByte_ne_minus (lt_of_mem_numeral (by decide) (List.mem_of_head? hd)) hbyte
    rw [if_neg hv, List.nil_append, if_neg hhead, parseDigits_numeral, Option.map_some]
    congr 1
    omega

/-! ### Where the text is exact -/

/-- For a number that is not negative the loop writes its numeral. -/
lemma reverse_loopText {n : ℕ} : (loopText decimalDigit 10 n).reverse =
    (numeral 10 n).map digitByte := by
  rw [loopText, if_pos (Int.natCast_nonneg n), Int.toNat_natCast, ← List.map_reverse,
    List.reverse_reverse]
  exact List.map_congr_left fun d hd => decimalDigit_eq (lt_of_mem_numeral (by decide) hd)

/-- The absolute value of every value but the least one. -/
lemma magnitude_eq (hbits : 0 < T.bits) (hv : T.InRange v)
    (hne : T.signed = true → v ≠ T.minimum) : magnitude T v = v.natAbs := by
  unfold magnitude
  split
  · next hneg =>
    have hsigned : T.signed = true := by
      by_contra hsigned
      have hlow := hv.1
      rw [IntType.minimum, if_neg hsigned] at hlow
      omega
    rw [IntType.wrap_neg hbits hsigned hv (hne hsigned)]
    omega
  · omega

/-- Except for the least value the text is the numeral. -/
lemma integerText_eq (hbits : 0 < T.bits) (hv : T.InRange v)
    (hne : T.signed = true → v ≠ T.minimum) : integerText T v = decimalText v := by
  rw [integerText, magnitude_eq hbits hv hne, reverse_loopText, decimalText]

/-- The least value of a signed type is not negated, and its text is not a number. -/
lemma integerText_minimum (hT : T = intType ∨ T = longType) :
    integerText T T.minimum = ['-'.toUInt8, '('.toUInt8] := by
  have hsigned : T.signed = true := by rcases hT with rfl | rfl <;> rfl
  have hbits : 0 < T.bits := by rcases hT with rfl | rfl <;> decide
  have hneg : T.minimum < 0 := by rcases hT with rfl | rfl <;> decide
  rw [integerText, magnitude, if_pos hneg, IntType.wrap_neg_minimum hbits hsigned, signText,
    if_pos hneg, loopText, if_neg (not_le.mpr hneg)]
  rcases hT with rfl | rfl <;> rfl

end LogStream

/-! ### The integer types -/

namespace LogItem

/-- The number that an item inserts, and the type in which it is formatted. -/
def integer : LogItem → Option (IntType × ℤ)
  | .short v => some (intType, v.toInt)
  | .unsignedShort v => some (unsignedIntType, v.toNat)
  | .int v => some (intType, v.toInt)
  | .unsignedInt v => some (unsignedIntType, v.toNat)
  | .long v => some (longType, v.toInt)
  | .unsignedLong v => some (unsignedLongType, v.toNat)
  | .longLong v => some (longType, v.toInt)
  | .unsignedLongLong v => some (unsignedLongType, v.toNat)
  | _ => none

/-- The item is the least `int`, `long` or `long long`. -/
def IsMinimum : LogItem → Prop
  | .int v => v = Int32.minValue
  | .long v => v = Int64.minValue
  | .longLong v => v = Int64.minValue
  | _ => False

instance (item : LogItem) : Decidable item.IsMinimum := by
  unfold IsMinimum
  split <;> infer_instance

variable {item : LogItem} {T : IntType} {v : ℤ}

/-- What is known of the number that is formatted. -/
structure Formatted (item : LogItem) (T : IntType) (v : ℤ) : Prop where
  insert : ∀ s : LogStream, s.insert item = s.formatInteger T v
  bits : 0 < T.bits ∧ T.bits ≤ 64
  inRange : T.InRange v
  /-- The least value of the type is not the one of a `short`. -/
  minimum : item.IsMinimum ↔ T.signed = true ∧ v = T.minimum
  type : T.signed = true → T = intType ∨ T = longType

/-- Every integer is formatted as its numeral, at its own type. -/
lemma formatted (h : item.integer = some (T, v)) : Formatted item T v := by
  cases item with
  | short v =>
    obtain ⟨rfl, rfl⟩ := Prod.mk.inj (Option.some.inj h)
    have hlow := v.le_toInt
    have hhigh := v.toInt_lt
    refine ⟨fun _ => rfl, by decide, IntType.inRange_signed.mpr ⟨by omega, by omega⟩, ?_,
      fun _ => Or.inl rfl⟩
    refine iff_of_false not_false fun hmin => ?_
    rw [show intType.minimum = -2 ^ 31 from rfl] at hmin
    omega
  | int v =>
    obtain ⟨rfl, rfl⟩ := Prod.mk.inj (Option.some.inj h)
    refine ⟨fun _ => rfl, by decide, ⟨v.le_toInt, v.toInt_lt⟩, ?_, fun _ => Or.inl rfl⟩
    rw [IsMinimum, ← Int32.toInt_inj]
    exact (and_iff_right rfl).symm
  | long v | longLong v =>
    obtain ⟨rfl, rfl⟩ := Prod.mk.inj (Option.some.inj h)
    refine ⟨fun _ => rfl, by decide, ⟨v.le_toInt, v.toInt_lt⟩, ?_, fun _ => Or.inr rfl⟩
    rw [IsMinimum, ← Int64.toInt_inj]
    exact (and_iff_right rfl).symm
  | unsignedShort v =>
    obtain ⟨rfl, rfl⟩ := Prod.mk.inj (Option.some.inj h)
    exact ⟨fun _ => rfl, by decide, IntType.inRange_unsigned (v.toNat_lt.trans (by decide)),
      iff_of_false not_false nofun, nofun⟩
  | unsignedInt v | unsignedLong v | unsignedLongLong v =>
    obtain ⟨rfl, rfl⟩ := Prod.mk.inj (Option.some.inj h)
    exact ⟨fun _ => rfl, by decide, IntType.inRange_unsigned v.toNat_lt,
      iff_of_false not_false nofun, nofun⟩
  | bool | pointer | double | char | cString | unsignedCString | string | append => cases h

end LogItem

namespace LogStream

open FixedBuffer

variable {s : LogStream} {item : LogItem} {T : IntType} {v : ℤ}

/-- No text of a number is longer than twenty bytes, be it exact or not. -/
lemma length_integerText_le (hbits : 0 < T.bits ∧ T.bits ≤ 64) (hv : T.InRange v) :
    (integerText T v).length ≤ 20 := by
  have hsmall : (2 : ℤ) ^ (T.bits - 1) ≤ 2 ^ 63 := pow_le_pow_right₀ (by decide) (by omega)
  have hlarge : (2 : ℤ) ^ T.bits ≤ 2 ^ 64 := pow_le_pow_right₀ (by decide) (by omega)
  obtain ⟨hlow, hhigh⟩ := hv
  by_cases hneg : v < 0
  · have hmagnitude : magnitude T v < (10 ^ 19 : ℕ) := by
      by_cases hmin : T.signed = true ∧ v = T.minimum
      · rw [magnitude, if_pos hneg, hmin.2, IntType.wrap_neg_minimum hbits.1 hmin.1]
        omega
      · rw [magnitude_eq hbits.1 ⟨hlow, hhigh⟩ fun hsigned hv => hmin ⟨hsigned, hv⟩]
        unfold IntType.minimum at hlow
        split at hlow <;> omega
    have hloop := length_loopText_le decimalDigit (by decide) (by decide) hmagnitude
    rw [integerText, List.length_append, List.length_reverse, signText, if_pos hneg,
      List.length_singleton]
    omega
  · have hmagnitude : magnitude T v < (10 ^ 20 : ℕ) := by
      rw [magnitude, if_neg hneg]
      unfold IntType.bound at hhigh
      split at hhigh <;> omega
    have hloop := length_loopText_le decimalDigit (by decide) (by decide) hmagnitude
    rw [integerText, List.length_append, List.length_reverse, signText, if_neg hneg]
    exact (Nat.zero_add _).le.trans hloop

/-- An integer is inserted as a whole where there is room for the reserve. -/
lemma insert_integer (h : item.integer = some (T, v)) (hroom : kMaxNumericSize ≤ s.buffer.avail) :
    ∃ s', s.insert item = some s' ∧ Appended s (integerText T v) s' := by
  have hformatted := LogItem.formatted h
  have hlen := length_integerText_le hformatted.bits hformatted.inRange
  rw [hformatted.insert]
  exact formatInteger_appended hroom (by omega)

/-- The text is the numeral of the number except for the least values. -/
lemma isDecimal_integerText_iff (h : item.integer = some (T, v)) :
    IsDecimal (integerText T v) v ↔ ¬ item.IsMinimum := by
  have hformatted := LogItem.formatted h
  rw [hformatted.minimum]
  constructor
  · rintro hdecimal ⟨hsigned, rfl⟩
    rw [isDecimal_iff, integerText_minimum (hformatted.type hsigned)] at hdecimal
    have hparse := parseInteger_decimalText T.minimum
    have hnone : parseInteger ['-'.toUInt8, '('.toUInt8] = none := by decide
    rw [← hdecimal, hnone] at hparse
    cases hparse
  · intro hmin
    rw [isDecimal_iff]
    exact integerText_eq hformatted.bits.1 hformatted.inRange fun hsigned hv => hmin ⟨hsigned, hv⟩

/-- A stream on cleared memory. -/
abbrev fresh : LogStream := new (List.replicate kSmallBuffer 0) List.length_replicate

/-- For any integer of any type, streamed where at least 32 bytes are available: the digit loop
ends, and the text appended is the decimal numeral of the number and reads as the number, exactly
when it is not the least `int`, `long` or `long long`. -/
theorem integer_exact_iff (hitem : item.integer = some (T, v))
    (hroom : kMaxNumericSize ≤ s.buffer.avail) :
    (∃ s' text, s.insert item = some s' ∧ s'.contents = s.contents ++ text ∧ IsDecimal text v ∧
      parseInteger text = some v) ↔ ¬ item.IsMinimum := by
  obtain ⟨s₁, hs₁, happended⟩ := insert_integer hitem hroom
  rw [← isDecimal_integerText_iff hitem]
  constructor
  · rintro ⟨s', text, hs', hcontents, hdecimal, -⟩
    obtain rfl := Option.some.inj (hs₁.symm.trans hs')
    rw [happended.contents] at hcontents
    rwa [List.append_cancel_left hcontents]
  · intro hdecimal
    refine ⟨s₁, _, hs₁, happended.contents, hdecimal, ?_⟩
    rw [isDecimal_iff.mp hdecimal, parseInteger_decimalText]

/-- The `short` that is the least one of its type is formatted as an `int`. -/
theorem integer_exact_iff_short :
    ∃ s' text, fresh.insert (.short Int16.minValue) = some s' ∧
      s'.contents = fresh.contents ++ text ∧ IsDecimal text (-32768) ∧
      parseInteger text = some (-32768) := by
  have hitem : LogItem.integer (.short Int16.minValue) = some (intType, -32768) := rfl
  exact (integer_exact_iff hitem (by decide)).mpr (by decide)

/-- The least `int` is written as `-(`. -/
theorem least_int_not_exact :
    LogItem.integer (.int Int32.minValue) = some (intType, -2147483648) ∧
    kMaxNumericSize ≤ fresh.buffer.avail ∧
    ¬ ∃ s' text, fresh.insert (.int Int32.minValue) = some s' ∧
      s'.contents = fresh.contents ++ text ∧ IsDecimal text (-2147483648) ∧
      parseInteger text = some (-2147483648) := by
  have hitem : LogItem.integer (.int Int32.minValue) = some (intType, -2147483648) := rfl
  have hroom : kMaxNumericSize ≤ fresh.buffer.avail := by decide
  refine ⟨hitem, hroom, ?_⟩
  rintro ⟨s', text, hs', hcontents, hdecimal, -⟩
  obtain ⟨s₁, hs₁, happended⟩ := insert_integer hitem hroom
  obtain rfl := Option.some.inj (hs₁.symm.trans hs')
  rw [happended.contents] at hcontents
  rw [← List.append_cancel_left hcontents] at hdecimal
  exact (isDecimal_integerText_iff hitem).mp hdecimal rfl

end LogStream

end MuduoServer
