import MuduoServer.Lib.Framing
import MuduoServer.Lib.Numeral
import MuduoServer.Tcp.Server

/-!
# The text of an address

`toIpPort` writes the port directly behind the last number of the dotted quad.  The dots keep the
first three numbers apart, but nothing marks the place where the last one ends, so `1.2.3.4` with
port `56` and `1.2.3.45` with port `6` get the same text.  Two addresses share their text exactly
when digits have moved between the two numbers (`Shift`).
-/

namespace MuduoServer

/-! ### Reading an address -/

/-- `c_str()`: the characters up to the terminating zero. -/
def cStr (s : List Char) : List Char := s.takeWhile (· ≠ Char.ofNat 0)

/-- One number of a dotted quad, as `inet_pton` reads it: without leading zeros, and at most
`255`. -/
def readByte (part : List Char) : Option UInt8 :=
  ((List.range 256).find? fun n => decimal n == part).map UInt8.ofNat

namespace InetAddress

/-- `inet_pton(AF_INET, ..)` into an address with the port given. -/
def inetPton (ip : List Char) (port : UInt16) : Option InetAddress :=
  match ip.splitOn '.' with
  | [part₀, part₁, part₂, part₃] => do
    let byte₀ ← readByte part₀
    let byte₁ ← readByte part₁
    let byte₂ ← readByte part₂
    let byte₃ ← readByte part₃
    some ⟨byte₀, byte₁, byte₂, byte₃, port⟩
  | _ => none

/-- The constructor `InetAddress(ip, port)`, through `sockets::fromIpPort`; `none` when the address
is left unset because `inet_pton` does not understand the text. -/
def ofIpPort (ip : List Char) (port : UInt16) : Option InetAddress := inetPton (cStr ip) port

end InetAddress

/-! ### Numbers in decimal -/

/-- The text of a number is its numeral in base ten. -/
lemma decimal_eq_map_numeral (n : ℕ) : decimal n = (numeral 10 n).map Nat.digitChar := by
  induction n using Nat.strong_induction_on with
  | _ n ih =>
    rw [numeral_eq (by decide), decimal, Nat.toDigits_eq_if (by decide)]
    by_cases h : n < 10
    · rw [if_pos h, if_pos (Nat.div_eq_of_lt h), Nat.mod_eq_of_lt h]
      rfl
    · rw [if_neg h, if_neg (by omega), List.map_append, ← ih (n / 10) (by omega)]
      rfl

/-- The digits can be read off the text. -/
lemma map_digitChar_inj {ds es : List ℕ} (hds : ∀ d ∈ ds, d < 10) (hes : ∀ d ∈ es, d < 10) :
    ds.map Nat.digitChar = es.map Nat.digitChar ↔ ds = es := by
  refine ⟨fun h => ?_, congrArg _⟩
  have hread : ∀ l : List ℕ, (∀ d ∈ l, d < 10) →
      (l.map Nat.digitChar).map (fun c => c.toNat - 48) = l := by
    intro l hl
    rw [List.map_map]
    conv_rhs => rw [← List.map_id l]
    exact List.map_congr_left fun d hd => Nat.toNat_digitChar_sub_48_of_lt_ten (hl d hd)
  rw [← hread ds hds, ← hread es hes, h]

/-- Two numbers in a row look alike only if digits have moved. -/
lemma decimal_append_eq_iff {m n p q : ℕ} : decimal m ++ decimal p = decimal n ++ decimal q ↔
    (m = n ∧ p = q) ∨ Shift 10 m p n q ∨ Shift 10 n q m p := by
  have hlt : ∀ k l, ∀ d ∈ numeral 10 k ++ numeral 10 l, d < 10 := by
    intro k l d hd
    rcases List.mem_append.mp hd with hd | hd
    · exact lt_of_mem_numeral (by decide) hd
    · exact lt_of_mem_numeral (by decide) hd
  rw [← append_numeral_eq_iff (by decide), ← map_digitChar_inj (hlt m p) (hlt n q)]
  simp only [decimal_eq_map_numeral, List.map_append]

/-- No digit is a dot. -/
lemma dot_notMem_decimal (n : ℕ) : '.' ∉ decimal n := by
  intro h
  have hdigit := Nat.isDigit_of_mem_toDigits (by decide) (by decide) h
  revert hdigit
  decide

/-- No digit is the terminator. -/
lemma zero_notMem_decimal (n : ℕ) : Char.ofNat 0 ∉ decimal n := by
  intro h
  have hdigit := Nat.isDigit_of_mem_toDigits (by decide) (by decide) h
  revert hdigit
  decide

/-- A number with the dot behind it. -/
lemma isFrame_decimal (n : ℕ) : IsFrame '.' (decimal n ++ ['.']) :=
  ⟨decimal n, rfl, dot_notMem_decimal n⟩

/-- Up to the next dot the numbers can be read back. -/
lemma decimal_dot_inj {m n : ℕ} {r r' : List Char} :
    decimal m ++ '.' :: r = decimal n ++ '.' :: r' ↔ m = n ∧ r = r' := by
  constructor
  · intro h
    rw [← List.singleton_append, ← List.append_assoc, ← List.singleton_append (l := r'),
      ← List.append_assoc] at h
    obtain ⟨hframe, hr⟩ := (isFrame_decimal m).append_inj (isFrame_decimal n) h
    exact ⟨decimal_injective (List.append_cancel_right hframe), hr⟩
  · rintro ⟨rfl, rfl⟩
    rfl

/-- A byte is read back from its digits. -/
lemma readByte_decimal (b : UInt8) : readByte (decimal b.toNat) = some b := by
  have hfind : (List.range 256).find? (fun n => decimal n == decimal b.toNat) = some b.toNat := by
    rw [List.find?_range_eq_some]
    refine ⟨by simp, List.mem_range.mpr b.toNat_lt, fun n hn => ?_⟩
    have hne : decimal n ≠ decimal b.toNat := fun h => hn.ne (decimal_injective h)
    simpa using hne
  rw [readByte, hfind]
  simp

namespace InetAddress

/-- `inet_pton` reads back what `inet_ntop` writes. -/
lemma inetPton_inetNtop (a : InetAddress) (port : UInt16) :
    inetPton a.inetNtop port = some { a with port := port } := by
  have htext : a.inetNtop = ['.'].intercalate [decimal a.byte₀.toNat, decimal a.byte₁.toNat,
      decimal a.byte₂.toNat, decimal a.byte₃.toNat] := by
    simp [inetNtop, List.intercalate]
  have hdots : ∀ part ∈ [decimal a.byte₀.toNat, decimal a.byte₁.toNat, decimal a.byte₂.toNat,
      decimal a.byte₃.toNat], '.' ∉ part := by
    simp [dot_notMem_decimal]
  rw [inetPton, htext, List.splitOn_intercalate '.' hdots (List.cons_ne_nil _ _)]
  simp [readByte_decimal]

/-- The constructor takes the canonical text of every address. -/
theorem ofIpPort_inetNtop (a : InetAddress) (port : UInt16) :
    ofIpPort a.inetNtop port = some { a with port := port } := by
  have hzero : ∀ c ∈ a.inetNtop, decide (c ≠ Char.ofNat 0) = true := by
    intro c hc
    rw [decide_eq_true_eq]
    rintro rfl
    simp only [inetNtop, List.mem_append, List.mem_cons] at hc
    have hdot : Char.ofNat 0 ≠ '.' := by decide
    simp [zero_notMem_decimal, hdot] at hc
  rw [ofIpPort, cStr, List.takeWhile_eq_self_iff.mpr hzero, inetPton_inetNtop]

/-! ### What the text tells -/

/-- Nothing is cut off. -/
lemma toIpPort_eq (a : InetAddress) : a.toIpPort = a.inetNtop ++ decimal a.port.toNat := by
  have haddr := a.inetNtop_length_le
  have hport : (decimal a.port.toNat).length ≤ 5 :=
    decimal_length_le (by decide) (lt_trans a.port.toNat_lt (by decide))
  rw [toIpPort, toIpPortBuf, snprintf_eq (by omega)]

/-- Both addresses are in the same network `/24`, and digits have moved from the port of the first
to the last byte of the second. -/
def ShiftsTo (a b : InetAddress) : Prop :=
  (a.byte₀ = b.byte₀ ∧ a.byte₁ = b.byte₁ ∧ a.byte₂ = b.byte₂) ∧
    Shift 10 a.byte₃.toNat a.port.toNat b.byte₃.toNat b.port.toNat

/-- The text of an address determines it unless digits have moved. -/
lemma toIpPort_eq_iff (a b : InetAddress) :
    a.toIpPort = b.toIpPort ↔ a = b ∨ a.ShiftsTo b ∨ b.ShiftsTo a := by
  have htext : a.toIpPort = b.toIpPort ↔ (a.byte₀ = b.byte₀ ∧ a.byte₁ = b.byte₁ ∧
      a.byte₂ = b.byte₂) ∧ decimal a.byte₃.toNat ++ decimal a.port.toNat =
        decimal b.byte₃.toNat ++ decimal b.port.toNat := by
    simp only [toIpPort_eq, inetNtop, List.append_assoc, List.cons_append, decimal_dot_inj,
      UInt8.toNat_inj, and_assoc]
  have hsame : a = b ↔ (a.byte₀ = b.byte₀ ∧ a.byte₁ = b.byte₁ ∧ a.byte₂ = b.byte₂) ∧
      a.byte₃.toNat = b.byte₃.toNat ∧ a.port.toNat = b.port.toNat := by
    rw [UInt8.toNat_inj, UInt16.toNat_inj]
    constructor
    · rintro rfl
      exact ⟨⟨rfl, rfl, rfl⟩, rfl, rfl⟩
    · cases a
      cases b
      rintro ⟨⟨rfl, rfl, rfl⟩, rfl, rfl⟩
      rfl
  have hnet : b.ShiftsTo a ↔ (a.byte₀ = b.byte₀ ∧ a.byte₁ = b.byte₁ ∧ a.byte₂ = b.byte₂) ∧
      Shift 10 b.byte₃.toNat b.port.toNat a.byte₃.toNat a.port.toNat := by
    unfold ShiftsTo
    rw [eq_comm (a := b.byte₀), eq_comm (a := b.byte₁), eq_comm (a := b.byte₂)]
  rw [htext, decimal_append_eq_iff, hsame, hnet, ShiftsTo, ← and_or_left, ← and_or_left]

/-- For any two addresses: that they are the same follows from their texts being the same exactly
when no digits can have moved between the last byte and the port. -/
theorem toIpPort_identifies_iff (a b : InetAddress) :
    (a.toIpPort = b.toIpPort → a = b) ↔ ¬ a.ShiftsTo b ∧ ¬ b.ShiftsTo a := by
  rw [toIpPort_eq_iff]
  constructor
  · intro h
    constructor
    · intro hshift
      have hlt := hshift.2.lt (by decide)
      rw [h (Or.inr (Or.inl hshift))] at hlt
      exact lt_irrefl _ hlt
    · intro hshift
      have hlt := hshift.2.lt (by decide)
      rw [h (Or.inr (Or.inr hshift))] at hlt
      exact lt_irrefl _ hlt
  · rintro ⟨hab, hba⟩ (rfl | hshift | hshift)
    · rfl
    · exact absurd hshift hab
    · exact absurd hshift hba

/-- `1.2.3.4` with port `56` and `1.2.3.45` with port `6`. -/
theorem toIpPort_not_identifies :
    ∃ a b, ofIpPort "1.2.3.4".toList 56 = some a ∧ ofIpPort "1.2.3.45".toList 6 = some b ∧
      a.toIpPort = b.toIpPort ∧ a ≠ b :=
  ⟨⟨1, 2, 3, 4, 56⟩, ⟨1, 2, 3, 45, 6⟩, by decide +kernel, by decide +kernel, by decide +kernel,
    by decide⟩

end InetAddress

end MuduoServer
