import MuduoServer.Buffer.Refinement

/-!
# The space a buffer takes

The vector of a `Buffer` only grows, in `makeSpace`, and it then keeps the dead space in front of
the reader index.  It grows only where that space, the part behind the writer index included, is
smaller than the request and the reserve together; so each call leaves a vector that is no longer
than before or at most twice as long as the readable bytes, and seven (`BufferOp.onBuffer_grows`).
Along a run the vector is bounded by the largest contents.
-/

namespace MuduoServer

open Memory

namespace Buffer

variable {b b' : Buffer}

/-- The vector did not shrink, and where it grew it is at most twice as long as the readable bytes,
and seven. -/
def Grows (b b' : Buffer) : Prop :=
  b.buffer.length ≤ b'.buffer.length ∧
    b'.buffer.length ≤ max b.buffer.length (2 * b'.readableBytes + 7)

/-- A buffer of the same length has grown by nothing. -/
lemma Grows.of_length_eq (h : b'.buffer.length = b.buffer.length) : Grows b b' := by
  unfold Grows
  omega

/-- The request as the vector sees it: after `makeSpace` it has its old length, or the writer index
and the request fill it and the dead space in front was smaller than the request and the reserve. -/
lemma makeSpace_length {len : ℕ} (h : b.makeSpace len = some b') :
    b'.buffer.length = b.buffer.length ∨
      (b'.buffer.length = b.writerIndex + len ∧ b.readerIndex < len + KCheapPrepend) := by
  unfold makeSpace at h
  split at h
  next hgrow =>
    cases h
    simp only [prependableBytes] at hgrow
    exact Or.inr ⟨length_resize _ _, by omega⟩
  next =>
    split at h
    next =>
      simp only [readableBytes, Nat.add_sub_cancel_left, if_true, Option.some.injEq] at h
      subst h
      exact Or.inl (length_copyForward _ _ _ _)
    next => cases h

/-- The same for `ensureWritableBytes`, which calls `makeSpace` only for lack of room. -/
lemma ensureWritableBytes_length {len : ℕ} (h : b.ensureWritableBytes len = some b') :
    b'.buffer.length = b.buffer.length ∨
      (b'.buffer.length = b.writerIndex + len ∧ b.readerIndex < len + KCheapPrepend ∧
        b.writableBytes < len) := by
  unfold ensureWritableBytes at h
  by_cases hlt : b.writableBytes < len
  · simp only [if_pos hlt] at h
    obtain ⟨b₁, hb₁, h⟩ := Option.bind_eq_some_iff.mp h
    obtain ⟨-, h⟩ := Option.ite_none_right_eq_some.mp h
    cases h
    rcases makeSpace_length hb₁ with hlen | ⟨hlen, hdead⟩
    · exact Or.inl hlen
    · exact Or.inr ⟨hlen, hdead, hlt⟩
  · simp only [if_neg hlt] at h
    obtain ⟨-, h⟩ := Option.ite_none_right_eq_some.mp h
    cases h
    exact Or.inl rfl

/-- Filling the room behind the writer index does not touch the length. -/
lemma fill_length (hvalid : b.Valid) {data : List UInt8} (hroom : data.length ≤ b.writableBytes)
    (h : b.fill data = some b') : b'.buffer.length = b.buffer.length := by
  have hws := hvalid.writer_le_size
  simp only [writableBytes] at hroom
  have hlen : (overwrite b.buffer b.writerIndex data).length = b.buffer.length :=
    length_overwrite (by omega)
  obtain ⟨-, h⟩ := Option.ite_none_right_eq_some.mp h
  cases h
  exact hlen

/-- `append` grows the vector to twice the new contents at most. -/
lemma append_grows (hvalid : b.Valid) {data : List UInt8} (h : b.append data = some b') :
    Grows b b' := by
  obtain ⟨b₁, hb₁, hvalid₁, hread₁, hroom⟩ := ensureWritableBytes_spec hvalid data.length
  obtain ⟨b₂, hb₂, hvalid₂, hread₂⟩ := fill_spec hvalid₁ hroom
  have hb' : b.append data = some b₂ := by
    unfold append
    rw [hb₁]
    exact hb₂
  obtain rfl : b₂ = b' := Option.some.inj (hb'.symm.trans h)
  have hlen₂ := fill_length hvalid₁ hroom hb₂
  -- the new contents: the readable bytes and the data
  have hcontents : b₂.readableBytes = b.readableBytes + data.length := by
    rw [← hvalid₂.length_readable, ← hvalid.length_readable, hread₂, hread₁, List.length_append]
  rcases ensureWritableBytes_length hb₁ with hlen₁ | ⟨hlen₁, hdead, hlt⟩
  · exact Grows.of_length_eq (hlen₂.trans hlen₁)
  · have hrw := hvalid.reader_le_writer
    have hws := hvalid.writer_le_size
    simp only [KCheapPrepend] at hdead
    simp only [writableBytes] at hlt
    simp only [readableBytes] at hcontents
    unfold Grows
    simp only [readableBytes]
    omega

/-- `readFd` fills the vector first; the spill is then an `append` of the rest. -/
lemma readFd_data_grows (hvalid : b.Valid) {bytes : List UInt8} {r : ℤ × Option ℕ}
    (h : b.readFd (.data bytes) = some (b', r)) : Grows b b' := by
  have hws := hvalid.writer_le_size
  have hlen : ∀ n, n ≤ b.writableBytes →
      (b.copyToWrite (bytes.take n)).buffer.length = b.buffer.length := by
    intro n hn
    refine length_overwrite ?_
    simp only [writableBytes, List.length_take] at hn ⊢
    omega
  simp only [readFd] at h
  split at h
  next =>
    cases h
    exact Grows.of_length_eq (hlen _ le_rfl)
  next hspill =>
    have htake : (bytes.take b.writableBytes).length = b.writableBytes := by
      rw [List.length_take]
      omega
    obtain ⟨hvalid₁, -⟩ := fillAll_spec hvalid htake
    obtain ⟨b₁, hb₁, hr⟩ := Option.map_eq_some_iff.mp h
    cases hr
    have hgrows := append_grows hvalid₁ hb₁
    simpa only [Grows, hlen _ le_rfl] using hgrows

/-- Taking bytes out leaves the vector alone. -/
lemma retrieve_length {len : ℕ} (h : b.retrieve len = some b') :
    b'.buffer.length = b.buffer.length := by
  unfold retrieve at h
  split at h
  next =>
    split at h
    next =>
      cases h
      rfl
    next =>
      cases h
      rfl
  next => cases h

/-- `retrieveAsString()` does not change the length of the vector. -/
lemma retrieveAsString_length {len : ℕ} {str : List UInt8}
    (h : b.retrieveAsString len = some (b', str)) : b'.buffer.length = b.buffer.length := by
  unfold retrieveAsString at h
  split at h
  next =>
    obtain ⟨b₁, hb₁, hr⟩ := Option.map_eq_some_iff.mp h
    cases hr
    exact retrieve_length hb₁
  next => cases h

/-- Nor does `getLine()`. -/
lemma getLine_length {line : Option (List UInt8)} (h : b.getLine = some (b', line)) :
    b'.buffer.length = b.buffer.length := by
  unfold getLine at h
  split at h
  next =>
    cases h
    rfl
  next =>
    obtain ⟨b₁, hb₁, hr⟩ := Option.map_eq_some_iff.mp h
    cases hr
    exact retrieve_length hb₁

/-- Nor does `prepend()`, which writes in front of the readable bytes. -/
lemma prepend_length (hvalid : b.Valid) {data : List UInt8} (h : b.prepend data = some b') :
    b'.buffer.length = b.buffer.length := by
  have hrw := hvalid.reader_le_writer
  have hws := hvalid.writer_le_size
  unfold prepend at h
  split at h
  next hroom =>
    cases h
    simp only [prependableBytes] at hroom
    exact length_overwrite (by omega)
  next => cases h

end Buffer

namespace BufferOp

/-- `ensureWritableBytes` asks for room that nobody has to fill. -/
def Reserves : BufferOp → Prop
  | ensureWritableBytes _ => True
  | _ => False

instance (op : BufferOp) : Decidable op.Reserves := by
  unfold Reserves
  split <;> infer_instance

/-- Every legal call that does not merely reserve room. -/
theorem onBuffer_grows {b b' : Buffer} {ret : Ret} (hvalid : b.Valid) {op : BufferOp}
    (hop : op.Legal b) (hreserve : ¬ op.Reserves) (h : op.onBuffer b = some (b', ret)) :
    b.Grows b' := by
  cases op with
  | retrieveAll =>
    cases h
    exact Buffer.Grows.of_length_eq rfl
  | ensureWritableBytes len => exact absurd trivial hreserve
  | append data =>
    obtain ⟨b₁, hb₁, hr⟩ := Option.map_eq_some_iff.mp h
    cases hr
    exact Buffer.append_grows hvalid hb₁
  | prepend data =>
    obtain ⟨b₁, hb₁, hr⟩ := Option.map_eq_some_iff.mp h
    cases hr
    exact Buffer.Grows.of_length_eq (Buffer.prepend_length hvalid hb₁)
  | retrieve len =>
    obtain ⟨b₁, hb₁, hr⟩ := Option.map_eq_some_iff.mp h
    cases hr
    exact Buffer.Grows.of_length_eq (Buffer.retrieve_length hb₁)
  | retrieveAsString len =>
    obtain ⟨r, hb₁, hr⟩ := Option.map_eq_some_iff.mp h
    cases hr
    exact Buffer.Grows.of_length_eq (Buffer.retrieveAsString_length hb₁)
  | retrieveAllString =>
    obtain ⟨r, hb₁, hr⟩ := Option.map_eq_some_iff.mp h
    cases hr
    exact Buffer.Grows.of_length_eq (Buffer.retrieveAsString_length hb₁)
  | getLine =>
    obtain ⟨r, hb₁, hr⟩ := Option.map_eq_some_iff.mp h
    cases hr
    exact Buffer.Grows.of_length_eq (Buffer.getLine_length hb₁)
  | fill data =>
    obtain ⟨b₁, hb₁, hr⟩ := Option.map_eq_some_iff.mp h
    cases hr
    exact Buffer.Grows.of_length_eq (Buffer.fill_length hvalid hop hb₁)
  | readFd r =>
    cases r with
    | data bytes =>
      obtain ⟨x, hb₁, hr⟩ := Option.map_eq_some_iff.mp h
      cases hr
      exact Buffer.readFd_data_grows hvalid hb₁
    | error errno =>
      cases h
      exact Buffer.Grows.of_length_eq rfl

end BufferOp

/-! ### Runs with bounded contents -/

/-- One buffer under its member functions, `ensureWritableBytes` apart. -/
def spaceMachine : Machine Buffer BufferOp Ret where
  pre b op := op.Legal b ∧ ¬ op.Reserves
  step b op := (op.onBuffer b).map fun r => (r.1, [r.2])

instance (b : Buffer) (op : BufferOp) : Decidable (spaceMachine.pre b op) :=
  inferInstanceAs (Decidable (_ ∧ _))

/-- The call leaves at most `M` readable bytes. -/
def ContentsAtMost (M : ℕ) (b : Buffer) (op : BufferOp) : Prop :=
  ∀ r ∈ op.onBuffer b, r.1.readableBytes ≤ M

instance (M : ℕ) (b : Buffer) (op : BufferOp) : Decidable (ContentsAtMost M b op) := by
  unfold ContentsAtMost
  infer_instance

/-- One call keeps the vector valid and grows it within the bound. -/
lemma spaceMachine_step {M : ℕ} {b b' : Buffer} {op : BufferOp} {out : List Ret} (hvalid : b.Valid)
    (hpre : (spaceMachine.restrict (ContentsAtMost M)).pre b op)
    (hstep : spaceMachine.step b op = some (b', out)) :
    b'.Valid ∧ b.buffer.length ≤ b'.buffer.length ∧
      b'.buffer.length ≤ max b.buffer.length (2 * M + 7) := by
  obtain ⟨⟨hlegal, hreserve⟩, hcontents⟩ := hpre
  obtain ⟨b₁, hvalid₁, hb₁, -⟩ := op.simulates hvalid hlegal
  obtain ⟨r, hr, hout⟩ := Option.map_eq_some_iff.mp hstep
  obtain rfl := Option.some.inj (hb₁.symm.trans hr)
  cases hout
  obtain ⟨hmono, hbound⟩ := op.onBuffer_grows hvalid hlegal hreserve hb₁
  have hM : b₁.readableBytes ≤ M := hcontents _ hb₁
  refine ⟨hvalid₁, hmono, ?_⟩
  simp only
  omega

/-- From any valid buffer on, the vector is never shorter, and never longer than it was or than
twice the largest contents, and seven. -/
lemma spaceMachine_run {M : ℕ} {b b' : Buffer} {t : List Ret} (hvalid : b.Valid)
    (h : (spaceMachine.restrict (ContentsAtMost M)).Run b t b') :
    b'.Valid ∧ b.buffer.length ≤ b'.buffer.length ∧
      b'.buffer.length ≤ max b.buffer.length (2 * M + 7) := by
  refine h.stateInvariant (fun x => x.Valid ∧ b.buffer.length ≤ x.buffer.length ∧
    x.buffer.length ≤ max b.buffer.length (2 * M + 7)) ⟨hvalid, le_rfl, le_max_left _ _⟩ ?_
  rintro x op x' out ⟨hx, hmono, hbound⟩ hpre hstep
  obtain ⟨hx', hmono', hbound'⟩ := spaceMachine_step hx hpre hstep
  exact ⟨hx', by omega, by omega⟩

/-- In every run of a default-constructed buffer whose contents never exceed `M` bytes, the vector
never exceeds `max 1024 (2 * M + 7)` bytes and never gets shorter from one moment of the run to a
later one. -/
theorem space_bounded {M : ℕ} {b b' : Buffer} {t t' : List Ret}
    (h : (spaceMachine.restrict (ContentsAtMost M)).Run Buffer.new t b)
    (h' : (spaceMachine.restrict (ContentsAtMost M)).Run b t' b') :
    b.buffer.length ≤ b'.buffer.length ∧ b'.buffer.length ≤ max 1024 (2 * M + 7) := by
  obtain ⟨hvalid, -, hbound⟩ := spaceMachine_run Buffer.new_valid h
  obtain ⟨-, hmono, hbound'⟩ := spaceMachine_run hvalid h'
  have hnew : Buffer.new.buffer.length = 1024 := List.length_replicate
  exact ⟨hmono, by omega⟩

/-- A spill of `readFd` behind a consumed front: the vector grows past its initial length and keeps
the dead space. -/
theorem space_bounded_spill :
    ∃ t b, (spaceMachine.restrict (ContentsAtMost 1500)).Run Buffer.new t b ∧
      b.buffer.length = 1908 ∧ b.buffer.length ≤ max 1024 (2 * 1500 + 7) := by
  obtain ⟨t, b, hrun, hlen⟩ :=
    (spaceMachine.restrict (ContentsAtMost 1500)).exists_run_of_exec Buffer.new
      [.append (List.replicate 600 46), .retrieve 500, .readFd (.data (List.replicate 1300 46))]
      (fun b _ => b.buffer.length = 1908) (by decide +kernel)
  exact ⟨t, b, hrun, hlen, (space_bounded hrun .nil).2⟩

end MuduoServer
