import MuduoServer.Log.Format

/-!
# Whole items in a log stream

The abstract model of a `LogStream` is the text that it holds, and `recordItem` is the rule by which
an item is added: as a whole, or not at all if it does not fit.  Text fits if it is shorter than
what is left, so that one byte always stays free, and a number fits if 32 bytes are left.
`insert_refines` shows that the code follows this rule for every item and never writes outside
`data_`.

What is added for a number is the text of `formatInteger`.  It is the complete rendering of the
number except for the least values of `int`, `long` and `long long`.
-/

namespace MuduoServer

open Memory

/-- The bytes of a C string, or the text for a null pointer. -/
def cStringBytes : Option CString → List UInt8
  | some str => str.chars
  | none => LogStream.nullText

/-- A digit to the base sixteen, as a capital letter from ten on. -/
def hexByte (d : ℕ) : UInt8 := (Nat.digitChar d).toUpper.toUInt8

/-- The rendering of an address. -/
def hexText (n : ℕ) : List UInt8 := "0x".toList.map Char.toUInt8 ++ (numeral 16 n).map hexByte

namespace LogItem

/-- The complete rendering of an item. -/
def render : LogItem → List UInt8
  | .bool v => if v then ['1'.toUInt8] else ['0'.toUInt8]
  | .short v => LogStream.decimalText v.toInt
  | .unsignedShort v => LogStream.decimalText v.toNat
  | .int v => LogStream.decimalText v.toInt
  | .unsignedInt v => LogStream.decimalText v.toNat
  | .long v => LogStream.decimalText v.toInt
  | .unsignedLong v => LogStream.decimalText v.toNat
  | .longLong v => LogStream.decimalText v.toInt
  | .unsignedLongLong v => LogStream.decimalText v.toNat
  | .pointer p => hexText p.toNat
  | .double text _ => text.chars
  | .char v => [v]
  | .cString str => cStringBytes str
  | .unsignedCString str => cStringBytes str
  | .string str => str
  | .append data len _ => data.take len.toInt.toNat

/-- The length of an item of text, a `size_t`; a number has none. -/
def textLength : LogItem → Option ℕ
  | .bool _ => some 1
  | .char _ => some 1
  | .cString str => some (cStringBytes str).length
  | .unsignedCString str => some (cStringBytes str).length
  | .string str => some str.length
  | .append _ len _ => some (sizeOfInt len.toInt)
  | _ => none

/-- The item fits where so many bytes are left: text must be shorter, a number needs 32 bytes. -/
def Fits (item : LogItem) (avail : ℤ) : Prop :=
  match item.textLength with
  | some len => len < avail
  | none => LogStream.kMaxNumericSize ≤ avail

instance (item : LogItem) (avail : ℤ) : Decidable (item.Fits avail) := by
  unfold Fits
  split <;> infer_instance

/-- What the code adds for an item that fits. -/
def written (item : LogItem) : List UInt8 :=
  match item.integer with
  | some (T, v) => LogStream.integerText T v
  | none => item.render

variable {item : LogItem} {T : IntType} {v : ℤ}

/-- For an integer the code adds the text of `formatInteger`. -/
lemma written_of_integer (h : item.integer = some (T, v)) :
    item.written = LogStream.integerText T v := by
  rw [written, h]

/-- The rendering of an integer is its decimal numeral. -/
lemma render_of_integer (h : item.integer = some (T, v)) :
    item.render = LogStream.decimalText v := by
  cases item with
  | short | unsignedShort | int | unsignedInt | long | unsignedLong | longLong |
    unsignedLongLong =>
    obtain ⟨-, rfl⟩ := Prod.mk.inj (Option.some.inj h)
    rfl
  | bool | pointer | double | char | cString | unsignedCString | string | append => cases h

/-- An integer fits where the reserve is left. -/
lemma fits_of_integer (h : item.integer = some (T, v)) {avail : ℤ} :
    item.Fits avail ↔ LogStream.kMaxNumericSize ≤ avail := by
  cases item with
  | short | unsignedShort | int | unsignedInt | long | unsignedLong | longLong |
    unsignedLongLong => exact Iff.rfl
  | bool | pointer | double | char | cString | unsignedCString | string | append => cases h

/-- The least values are integers. -/
lemma IsMinimum.exists_integer (h : item.IsMinimum) : ∃ T v, item.integer = some (T, v) := by
  cases item with
  | int | long | longLong => exact ⟨_, _, rfl⟩
  | _ => cases h

/-- The code adds the complete rendering of every item but the least values. -/
lemma written_eq_render_iff : item.written = item.render ↔ ¬ item.IsMinimum := by
  cases h : item.integer with
  | none =>
    have hnot : ¬ item.IsMinimum := by
      intro hmin
      obtain ⟨T, v, hitem⟩ := hmin.exists_integer
      cases h.symm.trans hitem
    rw [written, h]
    exact iff_of_true rfl hnot
  | some r =>
    obtain ⟨T, v⟩ := r
    rw [written_of_integer h, render_of_integer h, ← LogStream.isDecimal_integerText_iff h,
      LogStream.isDecimal_iff]

end LogItem

namespace LogStream

open FixedBuffer

variable {s s' : LogStream} {item : LogItem}

/-! ### The abstract model -/

/-- One item is added to the text, or dropped. -/
def recordItem (text : List UInt8) (item : LogItem) : List UInt8 :=
  if item.Fits (kSmallBuffer - text.length) then text ++ item.written else text

/-- The cursor leaves at least one byte free. -/
def Valid (s : LogStream) : Prop := s.buffer.cur < kSmallBuffer

/-- The text is as long as the cursor says. -/
lemma Valid.length_contents (h : s.Valid) : s.contents.length = s.buffer.cur := by
  rw [contents, FixedBuffer.contents, List.length_take, s.buffer.size]
  exact Nat.min_eq_left (le_of_lt h)

/-- What is available is what the text leaves. -/
lemma Valid.avail (h : s.Valid) : s.buffer.avail = kSmallBuffer - s.contents.length := by
  rw [h.length_contents, FixedBuffer.avail]

/-- An append that leaves a byte free keeps the stream valid. -/
lemma Appended.valid {text : List UInt8} (h : Appended s text s')
    (hroom : s.buffer.cur + text.length < kSmallBuffer) : s'.Valid := by
  have hlen := h.length
  unfold FixedBuffer.length at hlen
  rw [Valid, hlen]
  exact hroom

/-! ### The code follows the model -/

/-- `append` adds as many bytes as it is asked for if they are fewer than what is left. -/
lemma appendBytes_of_lt {buf : List UInt8} {len : ℕ} (hfits : len < s.buffer.avail)
    (hlen : len ≤ buf.length) : ∃ s', s.appendBytes buf len = some s' ∧
      Appended s (buf.take len) s' := by
  have hsize : len < sizeOfInt s.buffer.avail := by
    unfold sizeOfInt
    unfold FixedBuffer.avail kSmallBuffer at hfits ⊢
    omega
  have htake : (buf.take len).length = len := List.length_take_of_le hlen
  obtain ⟨b, hb, hwrote⟩ := store_wrote (b := s.buffer) (i := s.buffer.cur) (x := buf.take len) (by
    rw [htake]
    unfold FixedBuffer.avail at hfits
    omega)
  have happended := Appended.of_wrote hwrote
  rw [htake] at happended
  refine ⟨_, ?_, happended⟩
  rw [appendBytes, FixedBuffer.append, if_pos hsize, if_pos hlen, hb]
  rfl

/-- And nothing otherwise. -/
lemma appendBytes_of_not_lt {buf : List UInt8} {len : ℕ} (hs : s.Valid)
    (hfits : ¬ len < s.buffer.avail) : s.appendBytes buf len = some s := by
  have hsize : ¬ len < sizeOfInt s.buffer.avail := by
    unfold sizeOfInt
    unfold Valid at hs
    unfold FixedBuffer.avail at hfits ⊢
    unfold kSmallBuffer at *
    omega
  rw [appendBytes, FixedBuffer.append, if_neg hsize]
  rfl

/-- The pointer text is the rendering of the address. -/
lemma pointerText_eq (p : UInt64) : pointerText p = hexText p.toNat := by
  have hdigit : ∀ d < 16, hexDigit (d : ℕ) = hexByte d := by decide
  rw [pointerText, hexText, loopText, if_pos (Int.natCast_nonneg _), Int.toNat_natCast,
    ← List.map_reverse, List.reverse_reverse]
  congr 1
  exact List.map_congr_left fun d hd => hdigit d (lt_of_mem_numeral (by decide) hd)

/-- An address has at most 18 characters. -/
lemma length_pointerText_le (p : UInt64) : (pointerText p).length ≤ 18 := by
  have hlt : (p.toNat : ℤ) < (16 ^ 16 : ℕ) := by
    have hp := p.toNat_lt
    omega
  have hloop := length_loopText_le hexDigit (by decide) (by decide) hlt
  rw [pointerText, List.length_append, List.length_reverse]
  simp only [List.length_cons, List.length_nil]
  omega

/-- An item of text is added as far as it is asked for, and it is asked for no more than there
is. -/
lemma insert_text {len : ℕ} (hlen : item.textLength = some len) :
    ∃ buf, (∀ s : LogStream, s.insert item = s.appendBytes buf len) ∧
      (len < kSmallBuffer → len ≤ buf.length ∧ buf.take len = item.written) := by
  cases item with
  | bool v =>
    obtain rfl := Option.some.inj hlen
    exact ⟨_, fun _ => rfl, fun _ => by cases v <;> exact ⟨le_rfl, rfl⟩⟩
  | char v =>
    obtain rfl := Option.some.inj hlen
    exact ⟨_, fun _ => rfl, fun _ => ⟨le_rfl, rfl⟩⟩
  | cString str | unsignedCString str =>
    obtain rfl := Option.some.inj hlen
    cases str with
    | none => exact ⟨_, fun _ => rfl, fun _ => ⟨le_rfl, rfl⟩⟩
    | some str => exact ⟨_, fun _ => rfl, fun _ => ⟨le_rfl, List.take_length⟩⟩
  | string str =>
    obtain rfl := Option.some.inj hlen
    exact ⟨_, fun _ => rfl, fun _ => ⟨le_rfl, List.take_length⟩⟩
  | append data len readable =>
    obtain rfl := Option.some.inj hlen
    refine ⟨_, fun _ => rfl, fun hsmall => ?_⟩
    have hsize : sizeOfInt len.toInt = len.toInt.toNat := by
      have hlow := len.le_toInt
      have hhigh := len.toInt_lt
      unfold sizeOfInt kSmallBuffer at hsmall
      unfold sizeOfInt
      omega
    rw [hsize]
    exact ⟨by omega, rfl⟩
  | short | unsignedShort | int | unsignedInt | long | unsignedLong | longLong |
    unsignedLongLong | pointer | double => cases hlen

/-- A number is added as a whole where 32 bytes are left, and not at all otherwise. -/
lemma insert_number (hitem : item.textLength = none) (s : LogStream) :
    if kMaxNumericSize ≤ s.buffer.avail then
      ∃ s', s.insert item = some s' ∧ Appended s item.written s' ∧ item.written.length < 32
    else s.insert item = some s := by
  cases h : item.integer with
  | some r =>
    obtain ⟨T, v⟩ := r
    have hformatted := LogItem.formatted h
    have hlen := length_integerText_le hformatted.bits hformatted.inRange
    rw [LogItem.written_of_integer h]
    split
    · next hroom =>
      obtain ⟨s', hs', happended⟩ := insert_integer h hroom
      exact ⟨s', hs', happended, by omega⟩
    · next hroom => rw [hformatted.insert, formatInteger, if_neg hroom]
  | none =>
    cases item with
    | pointer p =>
      have hlen := length_pointerText_le p
      have hwritten : (LogItem.pointer p).written = pointerText p := (pointerText_eq p).symm
      rw [hwritten]
      split
      · next hroom =>
        obtain ⟨s', hs', happended⟩ := insertPointer_appended (p := p) hroom (by omega)
        exact ⟨s', hs', happended, by omega⟩
      · next hroom => exact if_neg hroom
    | double text hfits =>
      have hwritten : (LogItem.double text hfits).written = text.chars := rfl
      rw [hwritten]
      split
      · next hroom =>
        obtain ⟨s', hs', happended⟩ := insertDouble_appended hroom hfits
        exact ⟨s', hs', happended, hfits⟩
      · next hroom => exact if_neg hroom
    | bool | char | cString | unsignedCString | string | append => cases hitem
    | short | unsignedShort | int | unsignedInt | long | unsignedLong | longLong |
      unsignedLongLong => cases h

/-- Every insertion stays inside `data_`, leaves a byte free and follows the model. -/
theorem insert_refines (hs : s.Valid) (item : LogItem) :
    ∃ s', s.insert item = some s' ∧ s'.Valid ∧ s'.contents = recordItem s.contents item := by
  have havail := hs.avail
  cases hlen : item.textLength with
  | some len =>
    obtain ⟨buf, hinsert, hbuf⟩ := insert_text hlen
    have hfits : item.Fits (kSmallBuffer - s.contents.length) ↔ (len : ℤ) < s.buffer.avail := by
      rw [LogItem.Fits, hlen, havail]
    rw [hinsert, recordItem]
    by_cases hlt : (len : ℤ) < s.buffer.avail
    · have hsmall : len < kSmallBuffer := by omega
      obtain ⟨hle, htake⟩ := hbuf hsmall
      obtain ⟨s', hs', happended⟩ := appendBytes_of_lt hlt hle
      have htaken : (buf.take len).length = len := List.length_take_of_le hle
      refine ⟨s', hs', happended.valid ?_, ?_⟩
      · rw [htaken]
        unfold FixedBuffer.avail at hlt
        omega
      · rw [if_pos (hfits.mpr hlt), happended.contents, htake]
    · refine ⟨s, appendBytes_of_not_lt hs hlt, hs, ?_⟩
      rw [if_neg fun h => hlt (hfits.mp h)]
  | none =>
    have hfits : item.Fits (kSmallBuffer - s.contents.length) ↔
        kMaxNumericSize ≤ s.buffer.avail := by
      rw [LogItem.Fits, hlen, havail]
    have hnumber := insert_number hlen s
    rw [recordItem]
    by_cases hroom : kMaxNumericSize ≤ s.buffer.avail
    · rw [if_pos hroom] at hnumber
      obtain ⟨s', hs', happended, hshort⟩ := hnumber
      refine ⟨s', hs', happended.valid ?_, ?_⟩
      · unfold kMaxNumericSize FixedBuffer.avail at hroom
        omega
      · rw [if_pos (hfits.mpr hroom), happended.contents]
    · rw [if_neg hroom] at hnumber
      refine ⟨s, hnumber, hs, ?_⟩
      rw [if_neg fun h => hroom (hfits.mp h)]

/-- Whatever is inserted, nothing is written outside `data_`, and the text is that of the model. -/
theorem insertAll_refines (hs : s.Valid) (items : List LogItem) :
    ∃ s', s.insertAll items = some s' ∧ s'.Valid ∧
      s'.contents = items.foldl recordItem s.contents := by
  induction items generalizing s with
  | nil => exact ⟨s, rfl, hs, rfl⟩
  | cons item items ih =>
    obtain ⟨s₁, hs₁, hvalid, hcontents⟩ := insert_refines hs item
    obtain ⟨s', hs', hvalid', hcontents'⟩ := ih hvalid
    refine ⟨s', ?_, hvalid', ?_⟩
    · rw [insertAll, List.foldlM_cons, hs₁]
      exact hs'
    · rw [List.foldl_cons, ← hcontents, hcontents']

/-! ### Whole items -/

/-- Insertions one after the other that write inside `data_` only and leave a byte free.  The items
in `kept` have been added as a whole, the others have been dropped because they did not fit. -/
inductive Recorded : LogStream → List LogItem → List LogItem → LogStream → Prop
  | nil (s : LogStream) : Recorded s [] [] s
  | keep {s s₁ s' : LogStream} {item : LogItem} {items kept : List LogItem} :
      s.insert item = some s₁ → s₁.contents = s.contents ++ item.render →
      s₁.buffer.length ≤ 4095 → Recorded s₁ items kept s' →
      Recorded s (item :: items) (item :: kept) s'
  | drop {s s₁ s' : LogStream} {item : LogItem} {items kept : List LogItem} :
      s.insert item = some s₁ → ¬ item.Fits s.buffer.avail → s₁.contents = s.contents →
      s₁.buffer.length ≤ 4095 → Recorded s₁ items kept s' → Recorded s (item :: items) kept s'

namespace Recorded

variable {items kept : List LogItem}

/-- The kept items are some of the items. -/
lemma sublist (h : Recorded s items kept s') : kept.Sublist items := by
  induction h with
  | nil => exact List.Sublist.slnil
  | keep _ _ _ _ ih => exact ih.cons_cons _
  | drop _ _ _ _ _ ih => exact ih.cons _

/-- The text is the rendering of the items that have been kept. -/
lemma contents_eq (h : Recorded s items kept s') :
    s'.contents = s.contents ++ (kept.map LogItem.render).flatten := by
  induction h with
  | nil => simp
  | keep _ hcontents _ _ ih =>
    rw [ih, hcontents, List.map_cons, List.flatten_cons, List.append_assoc]
  | drop _ _ hcontents _ _ ih => rw [ih, hcontents]

end Recorded

/-- No least value is formatted while the items are inserted. -/
def NoMinimum (s : LogStream) (items : List LogItem) : Prop :=
  ∀ before item after s₁, items = before ++ item :: after → s.insertAll before = some s₁ →
    kMaxNumericSize ≤ s₁.buffer.avail → ¬ item.IsMinimum

/-- The condition for the first item and for the rest. -/
lemma noMinimum_cons {items : List LogItem} {s₁ : LogStream} (hs₁ : s.insert item = some s₁) :
    NoMinimum s (item :: items) ↔
      (kMaxNumericSize ≤ s.buffer.avail → ¬ item.IsMinimum) ∧ NoMinimum s₁ items := by
  have hcons : ∀ before, s.insertAll (item :: before) = s₁.insertAll before := by
    intro before
    rw [insertAll, List.foldlM_cons, hs₁]
    rfl
  constructor
  · intro h
    refine ⟨h [] item items s rfl rfl, fun before item' after s₂ hitems hs₂ => ?_⟩
    exact h (item :: before) item' after s₂ (by rw [hitems, List.cons_append])
      ((hcons before).trans hs₂)
  · rintro ⟨hfirst, hrest⟩ before item' after s₂ hitems hs₂
    cases before with
    | nil =>
      obtain ⟨rfl, rfl⟩ := List.cons.inj hitems
      obtain rfl := Option.some.inj hs₂
      exact hfirst
    | cons first before =>
      rw [List.cons_append] at hitems
      obtain ⟨rfl, htail⟩ := List.cons.inj hitems
      exact hrest before item' after s₂ htail ((hcons before).symm.trans hs₂)

/-- One insertion is whole exactly if it does not format a least value. -/
lemma insert_whole_iff (hs : s.Valid) (hs₁ : s.insert item = some s') :
    (s'.contents = s.contents ++ item.render ∨
      ¬ item.Fits s.buffer.avail ∧ s'.contents = s.contents) ↔
    (kMaxNumericSize ≤ s.buffer.avail → ¬ item.IsMinimum) := by
  obtain ⟨s₂, hs₂, -, hcontents⟩ := insert_refines hs item
  obtain rfl := Option.some.inj (hs₁.symm.trans hs₂)
  rw [hcontents, recordItem, ← hs.avail]
  by_cases hfits : item.Fits s.buffer.avail
  · rw [if_pos hfits, List.append_cancel_left_eq, LogItem.written_eq_render_iff]
    constructor
    · rintro (hmin | ⟨hnot, -⟩)
      · exact fun _ => hmin
      · exact absurd hfits hnot
    · intro h
      refine Or.inl fun hmin => ?_
      obtain ⟨T, v, hitem⟩ := hmin.exists_integer
      exact h ((LogItem.fits_of_integer hitem).mp hfits) hmin
  · rw [if_neg hfits]
    refine iff_of_true (Or.inr ⟨hfits, rfl⟩) fun hroom hmin => ?_
    obtain ⟨T, v, hitem⟩ := hmin.exists_integer
    exact hfits ((LogItem.fits_of_integer hitem).mpr hroom)

/-- A sequence of insertions is whole exactly if no least value is formatted on the way. -/
lemma recorded_iff (hs : s.Valid) (items : List LogItem) :
    (∃ kept s', Recorded s items kept s') ↔ NoMinimum s items := by
  induction items generalizing s with
  | nil =>
    refine iff_of_true ⟨[], s, .nil s⟩ fun before item after s₁ hitems => ?_
    exact absurd hitems.symm (by simp)
  | cons item items ih =>
    obtain ⟨s₁, hs₁, hvalid, -⟩ := insert_refines hs item
    rw [noMinimum_cons hs₁, ← insert_whole_iff hs hs₁, ← ih hvalid]
    have hlen : s₁.buffer.length ≤ 4095 := Nat.le_of_lt_succ hvalid
    constructor
    · rintro ⟨kept, s', h⟩
      cases h with
      | keep hs₂ hcontents _ hrest =>
        obtain rfl := Option.some.inj (hs₁.symm.trans hs₂)
        exact ⟨Or.inl hcontents, _, _, hrest⟩
      | drop hs₂ hfits hcontents _ hrest =>
        obtain rfl := Option.some.inj (hs₁.symm.trans hs₂)
        exact ⟨Or.inr ⟨hfits, hcontents⟩, _, _, hrest⟩
    · rintro ⟨hcontents | ⟨hfits, hcontents⟩, kept, s', hrest⟩
      · exact ⟨item :: kept, s', .keep hs₁ hcontents hlen hrest⟩
      · exact ⟨kept, s', .drop hs₁ hfits hcontents hlen hrest⟩

/-- A new stream is valid. -/
lemma valid_new {data : List UInt8} (size : data.length = kSmallBuffer) :
    (LogStream.new data size).Valid := by
  change 0 < kSmallBuffer
  decide

/-- For any sequence of insertions into a new stream: nothing is written outside `data_`, a byte
stays free after every insertion, the text is made of complete renderings of the items in order, and
only an item that does not fit is dropped, exactly when no least `int`, `long` or `long long` is
formatted on the way. -/
theorem items_whole_iff {data : List UInt8} (size : data.length = kSmallBuffer)
    (items : List LogItem) :
    (∃ kept s, Recorded (.new data size) items kept s ∧ kept.Sublist items ∧
      s.contents = (kept.map LogItem.render).flatten) ↔ NoMinimum (.new data size) items := by
  rw [← recorded_iff (valid_new size)]
  constructor
  · rintro ⟨kept, s, h, -, -⟩
    exact ⟨kept, s, h⟩
  · rintro ⟨kept, s, h⟩
    refine ⟨kept, s, h, h.sublist, ?_⟩
    rw [h.contents_eq]
    rfl

/-- A null pointer, an address and the least `short`. -/
theorem items_whole_iff_three :
    ∃ kept s, Recorded fresh [.cString none, .pointer 255, .short Int16.minValue] kept s ∧
      kept.Sublist [.cString none, .pointer 255, .short Int16.minValue] ∧
      s.contents = (kept.map LogItem.render).flatten := by
  refine (items_whole_iff List.length_replicate _).mpr ?_
  intro before item after s₁ hitems _ _
  have hmem : item ∈ [LogItem.cString none, .pointer 255, .short Int16.minValue] := by
    rw [hitems]
    simp
  simp only [List.mem_cons, List.not_mem_nil, or_false] at hmem
  rcases hmem with rfl | rfl | rfl <;> exact not_false

/-- Of the least `int` only the sign and one character are written. -/
theorem least_int_not_whole :
    ¬ ∃ kept s, Recorded fresh [.int Int32.minValue] kept s ∧
      kept.Sublist [.int Int32.minValue] ∧ s.contents = (kept.map LogItem.render).flatten := by
  rintro ⟨kept, s, h, -, -⟩
  have hmin := (recorded_iff (valid_new List.length_replicate) _).mp ⟨kept, s, h⟩
  exact hmin [] (.int Int32.minValue) [] fresh rfl rfl (by decide) rfl

end LogStream

end MuduoServer
