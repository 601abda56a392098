import MuduoServer.Lib.Memory

/-!
# The byte buffer

The class `Buffer` of `net/buffer/Buffer.cc`: a `std::vector<char>` with a reader index and a writer
index, eight reserved bytes in front, and three ways of making room (the space behind the writer
index suffices, the vector grows, the readable bytes move to the front).  Every function is
translated from the source; `none` stands for a failed `assert`.  All `size_t` arithmetic is on
natural numbers, which is exact as long as sizes stay below `2 ^ 63`.

`Valid` is the index invariant `readerIndex_ ≤ writerIndex_ ≤ buffer_.size()` and `readable` the
bytes between the two indexes.  The second half of the file gives one specification lemma per
function, in terms of `readable` alone: later proofs use these and never unfold a definition.
-/

namespace MuduoServer

open Memory

/-- `Buffer::KInititalSize`. -/
def KInititalSize : ℕ := 1024

/-- `Buffer::KCheapPrepend`. -/
def KCheapPrepend : ℕ := 8

/-- `sizeof extrabuf` in `Buffer::readFd`. -/
def extrabufSize : ℕ := 65536

/-- The byte `'\n'`. -/
def newline : UInt8 := 10

/-- The data members of `Buffer`. -/
@[ext] structure Buffer where
  /-- `buffer_`. -/
  buffer : List UInt8
  /-- `readerIndex_`. -/
  readerIndex : ℕ
  /-- `writerIndex_`. -/
  writerIndex : ℕ
  deriving DecidableEq, Repr

/-- The outcome of `readv` on a descriptor: bytes delivered into the io vectors in order, or `-1`
with an `errno`. -/
inductive ReadResult where
  | data (bytes : List UInt8)
  | error (errno : ℕ)
  deriving DecidableEq, Repr

namespace Buffer

/-! ### The code -/

/-- The default constructor. -/
def new : Buffer where
  buffer := List.replicate KInititalSize 0
  readerIndex := KCheapPrepend
  writerIndex := KCheapPrepend

/-- The copy constructor. -/
def copyConstruct (other : Buffer) : Buffer where
  buffer := other.buffer
  readerIndex := other.readerIndex
  writerIndex := other.writerIndex

/-- `a.swap(b)` for two different objects: the new `a` and the new `b`. -/
def swap (a b : Buffer) : Buffer × Buffer :=
  (⟨b.buffer, b.readerIndex, b.writerIndex⟩, ⟨a.buffer, a.readerIndex, a.writerIndex⟩)

/-- The move constructor: the object constructed and what is left of `other`.  Its indexes are not
initialised before the swaps, so they start as arbitrary numbers `junk`. -/
def moveConstruct (junk : ℕ × ℕ) (other : Buffer) : Buffer × Buffer :=
  let this : Buffer := ⟨[], junk.1, junk.2⟩
  let s₁ := swap new other
  let s₂ := swap s₁.1 this
  (s₂.2, s₁.2)

/-- `readableBytes()`. -/
def readableBytes (b : Buffer) : ℕ := b.writerIndex - b.readerIndex

/-- `writableBytes()`. -/
def writableBytes (b : Buffer) : ℕ := b.buffer.length - b.writerIndex

/-- `PrependableBytes()`. -/
def prependableBytes (b : Buffer) : ℕ := b.readerIndex

/-- The `len` bytes at `peek()`. -/
def peek (b : Buffer) (len : ℕ) : List UInt8 := slice b.buffer b.readerIndex (b.readerIndex + len)

/-- `retrieveAll()`. -/
def retrieveAll (b : Buffer) : Buffer :=
  { b with readerIndex := KCheapPrepend, writerIndex := KCheapPrepend }

/-- `retrieve(len)`. -/
def retrieve (b : Buffer) (len : ℕ) : Option Buffer :=
  if len ≤ b.readableBytes then
    if len < b.readableBytes then some { b with readerIndex := b.readerIndex + len }
    else some b.retrieveAll
  else none

/-- `retrieveAsString(len)`: the string returned and the buffer left. -/
def retrieveAsString (b : Buffer) (len : ℕ) : Option (Buffer × List UInt8) :=
  if len ≤ b.readableBytes then
    (b.retrieve len).map fun b' => (b', b.peek len)
  else none

/-- `retrieveAllString()`. -/
def retrieveAllString (b : Buffer) : Option (Buffer × List UInt8) :=
  b.retrieveAsString b.readableBytes

/-- `makeSpace(len)`. -/
def makeSpace (b : Buffer) (len : ℕ) : Option Buffer :=
  if b.prependableBytes + b.writableBytes < len + KCheapPrepend then
    some { b with buffer := resize b.buffer (b.writerIndex + len) }
  else if KCheapPrepend < b.readerIndex then
    let datasize := b.readableBytes
    let b' : Buffer :=
      { buffer := copyForward b.buffer b.readerIndex KCheapPrepend
          (b.writerIndex - b.readerIndex)
        readerIndex := KCheapPrepend
        writerIndex := KCheapPrepend + datasize }
    if datasize = b'.readableBytes then some b' else none
  else none

/-- `ensureWritableBytes(len)`. -/
def ensureWritableBytes (b : Buffer) (len : ℕ) : Option Buffer := do
  let b' ← if b.writableBytes < len then b.makeSpace len else some b
  if len ≤ b'.writableBytes then some b' else none

/-- `hasWritten(len)`. -/
def hasWritten (b : Buffer) (len : ℕ) : Option Buffer :=
  if len ≤ b.writableBytes then some { b with writerIndex := b.writerIndex + len } else none

/-- Copy `data` to `beginWrite()`. -/
def copyToWrite (b : Buffer) (data : List UInt8) : Buffer :=
  { b with buffer := overwrite b.buffer b.writerIndex data }

/-- `append(data, len)`. -/
def append (b : Buffer) (data : List UInt8) : Option Buffer := do
  let b' ← b.ensureWritableBytes data.length
  (b'.copyToWrite data).hasWritten data.length

/-- The caller fills `beginWrite()` with `data` and then calls `hasWritten`. -/
def fill (b : Buffer) (data : List UInt8) : Option Buffer :=
  (b.copyToWrite data).hasWritten data.length

/-- `prepend(data, len)`. -/
def prepend (b : Buffer) (data : List UInt8) : Option Buffer :=
  if data.length ≤ b.prependableBytes then
    some { b with
      buffer := overwrite b.buffer (b.readerIndex - data.length) data
      readerIndex := b.readerIndex - data.length }
  else none

/-- `getLine()`: `memchr` for a newline among the readable bytes, then the line it ends. -/
def getLine (b : Buffer) : Option (Buffer × Option (List UInt8)) :=
  match (b.peek b.readableBytes).findIdx? (· == newline) with
  | none => some (b, none)
  | some pos =>
    let res := b.peek (pos + 1)
    (b.retrieve res.length).map fun b' => (b', some res)

/-- The number of bytes `readv` can deliver at most: the writable space, and `extrabuf` when
`iovcnt` is `2`. -/
def readvCapacity (b : Buffer) : ℕ :=
  if b.writableBytes < extrabufSize then b.writableBytes + extrabufSize else b.writableBytes

/-- `readFd(fd, savedErrno)` for a given outcome of `readv`: the new buffer, the result, and what
was stored into `*savedErrno`. -/
def readFd (b : Buffer) : ReadResult → Option (Buffer × ℤ × Option ℕ)
  | .error errno => some (b, -1, some errno)
  | .data bytes =>
    let writable := b.writableBytes
    let b₁ := b.copyToWrite (bytes.take writable)
    if bytes.length ≤ writable then
      some ({ b₁ with writerIndex := b₁.writerIndex + bytes.length }, bytes.length, none)
    else
      (Buffer.append { b₁ with writerIndex := b₁.buffer.length } (bytes.drop writable)).map
        fun b' => (b', (bytes.length : ℤ), none)

/-! ### The invariant and the contents -/

/-- `readerIndex_ <= writerIndex_ <= buffer_.size()`, and the vector never falls below the
reserve that `retrieveAll` returns to. -/
structure Valid (b : Buffer) : Prop where
  reader_le_writer : b.readerIndex ≤ b.writerIndex
  writer_le_size : b.writerIndex ≤ b.buffer.length
  reserve_le_size : KCheapPrepend ≤ b.buffer.length

instance (b : Buffer) : Decidable b.Valid :=
  decidable_of_iff (b.readerIndex ≤ b.writerIndex ∧ b.writerIndex ≤ b.buffer.length ∧
      KCheapPrepend ≤ b.buffer.length)
    ⟨fun h => ⟨h.1, h.2.1, h.2.2⟩, fun h => ⟨h.1, h.2, h.3⟩⟩

/-- The readable bytes. -/
def readable (b : Buffer) : List UInt8 := slice b.buffer b.readerIndex b.writerIndex

variable {b : Buffer}

/-- There are `readableBytes()` readable bytes. -/
lemma Valid.length_readable (h : b.Valid) : b.readable.length = b.readableBytes :=
  length_slice h.writer_le_size

/-- The bytes at `peek()` are the first readable bytes. -/
lemma peek_eq_take (h : b.Valid) {len : ℕ} (hlen : len ≤ b.readableBytes) :
    b.peek len = b.readable.take len := by
  have := h.reader_le_writer
  simp only [readableBytes] at hlen
  rw [readable, peek, take_slice (by omega)]

/-- All bytes at `peek()` are all readable bytes. -/
lemma peek_readableBytes (h : b.Valid) : b.peek b.readableBytes = b.readable := by
  rw [peek_eq_take h le_rfl, ← h.length_readable, List.take_length]

/-- The reserve lies inside a new buffer. -/
lemma reserve_le_length_new : KCheapPrepend ≤ new.buffer.length := by
  rw [show new.buffer.length = KInititalSize from List.length_replicate]
  decide

/-- A new buffer is valid. -/
lemma new_valid : new.Valid where
  reader_le_writer := le_rfl
  writer_le_size := reserve_le_length_new
  reserve_le_size := reserve_le_length_new

/-- Nothing is readable in it. -/
@[simp] lemma readable_new : new.readable = [] := slice_self _ _

/-- A copy is the buffer itself. -/
@[simp] lemma copyConstruct_eq (b : Buffer) : b.copyConstruct = b := rfl

/-- `swap` exchanges the two buffers. -/
@[simp] lemma swap_eq (a b : Buffer) : swap a b = (b, a) := rfl

/-- Whatever the uninitialised indexes were, the move constructor takes over `other` and leaves a
default-constructed buffer behind. -/
@[simp] lemma moveConstruct_eq (junk : ℕ × ℕ) (other : Buffer) :
    moveConstruct junk other = (other, new) := rfl

/-! ### Taking bytes out -/

/-- `retrieveAll()` keeps the buffer valid. -/
lemma retrieveAll_valid (h : b.Valid) : b.retrieveAll.Valid where
  reader_le_writer := le_rfl
  writer_le_size := h.reserve_le_size
  reserve_le_size := h.reserve_le_size

/-- After it nothing is readable. -/
@[simp] lemma readable_retrieveAll : b.retrieveAll.readable = [] := slice_self _ _

/-- `retrieve` drops the first `len` readable bytes, on both of its branches. -/
theorem retrieve_spec (h : b.Valid) {len : ℕ} (hlen : len ≤ b.readableBytes) :
    ∃ b', b.retrieve len = some b' ∧ b'.Valid ∧ b'.readable = b.readable.drop len := by
  unfold retrieve
  rw [if_pos hlen]
  by_cases hlt : len < b.readableBytes
  · rw [if_pos hlt]
    refine ⟨_, rfl, ?_, ?_⟩
    · have := h.reader_le_writer
      simp only [readableBytes] at hlt
      exact ⟨by simp only; omega, h.writer_le_size, h.reserve_le_size⟩
    · rw [readable, readable, drop_slice]
  · rw [if_neg hlt]
    refine ⟨_, rfl, retrieveAll_valid h, ?_⟩
    have hall : b.readable.length ≤ len := by rw [h.length_readable]; omega
    rw [readable_retrieveAll, List.drop_of_length_le hall]

/-- `retrieveAsString` returns the bytes it drops. -/
theorem retrieveAsString_spec (h : b.Valid) {len : ℕ} (hlen : len ≤ b.readableBytes) :
    ∃ b', b.retrieveAsString len = some (b', b.readable.take len) ∧ b'.Valid ∧
      b'.readable = b.readable.drop len := by
  obtain ⟨b', hb', hvalid, hread⟩ := retrieve_spec h hlen
  refine ⟨b', ?_, hvalid, hread⟩
  rw [retrieveAsString, if_pos hlen, hb', Option.map_some, peek_eq_take h hlen]

/-- `getLine` cuts the readable bytes behind the first newline and leaves them alone when there is
none. -/
theorem getLine_spec (h : b.Valid) :
    ∃ b', b'.Valid ∧
      match b.readable.findIdx? (· == newline) with
      | none => b.getLine = some (b', none) ∧ b'.readable = b.readable
      | some pos => b.getLine = some (b', some (b.readable.take (pos + 1))) ∧
          b'.readable = b.readable.drop (pos + 1) := by
  unfold getLine
  rw [peek_readableBytes h]
  cases hpos : b.readable.findIdx? (· == newline) with
  | none => exact ⟨b, h, rfl, rfl⟩
  | some pos =>
    obtain ⟨hlt, -⟩ := List.findIdx?_eq_some_iff_getElem.mp hpos
    have hlen : pos + 1 ≤ b.readableBytes := by rw [← h.length_readable]; exact hlt
    obtain ⟨b', hb', hvalid, hread⟩ := retrieve_spec h hlen
    refine ⟨b', hvalid, ?_, hread⟩
    have hres : (b.peek (pos + 1)).length = pos + 1 := by
      rw [peek_eq_take h hlen, List.length_take, h.length_readable]
      omega
    simp only [hres, hb', Option.map_some]
    rw [peek_eq_take h hlen]

/-! ### Making room -/

/-- `makeSpace`, called when the space behind the writer index does not suffice, makes it suffice,
and the `assert` on its compaction branch holds whatever `prepend` did to the reader index. -/
theorem makeSpace_spec (h : b.Valid) {len : ℕ} (hlen : b.writableBytes < len) :
    ∃ b', b.makeSpace len = some b' ∧ b'.Valid ∧ b'.readable = b.readable ∧
      len ≤ b'.writableBytes := by
  have hrw := h.reader_le_writer
  have hws := h.writer_le_size
  have hres := h.reserve_le_size
  simp only [writableBytes] at hlen
  unfold makeSpace
  by_cases hgrow : b.prependableBytes + b.writableBytes < len + KCheapPrepend
  · rw [if_pos hgrow]
    refine ⟨_, rfl, ⟨hrw, ?_, ?_⟩, ?_, ?_⟩
    · simp only [length_resize]
      omega
    · simp only [length_resize]
      omega
    · exact slice_resize (by omega) hws
    · simp only [writableBytes, length_resize]
      omega
  · rw [if_neg hgrow]
    simp only [prependableBytes, writableBytes] at hgrow
    have hassert : KCheapPrepend < b.readerIndex := by omega
    rw [if_pos hassert]
    simp only [readableBytes, Nat.add_sub_cancel_left, if_true]
    refine ⟨_, rfl, ⟨?_, ?_, ?_⟩, ?_, ?_⟩
    · simp only
      omega
    · simp only [length_copyForward]
      omega
    · simp only [length_copyForward]
      exact hres
    · have hmove := slice_copyForward (m := b.buffer) (n := b.writerIndex - b.readerIndex)
        hassert.le (by omega)
      rwa [Nat.add_sub_cancel' hrw] at hmove
    · simp only [writableBytes, length_copyForward]
      omega

/-- `ensureWritableBytes` keeps the readable bytes and makes room. -/
theorem ensureWritableBytes_spec (h : b.Valid) (len : ℕ) :
    ∃ b', b.ensureWritableBytes len = some b' ∧ b'.Valid ∧ b'.readable = b.readable ∧
      len ≤ b'.writableBytes := by
  unfold ensureWritableBytes
  by_cases hlt : b.writableBytes < len
  · obtain ⟨b', hb', hvalid, hread, hroom⟩ := makeSpace_spec h hlt
    refine ⟨b', ?_, hvalid, hread, hroom⟩
    simp [hlt, hb', hroom]
  · refine ⟨b, ?_, h, rfl, by omega⟩
    have hroom : len ≤ b.writableBytes := by omega
    simp [hlt, hroom]

/-! ### Putting bytes in -/

/-- Filling `beginWrite()` and then calling `hasWritten` appends the bytes written. -/
theorem fill_spec (h : b.Valid) {data : List UInt8} (hroom : data.length ≤ b.writableBytes) :
    ∃ b', b.fill data = some b' ∧ b'.Valid ∧ b'.readable = b.readable ++ data := by
  have hrw := h.reader_le_writer
  have hws := h.writer_le_size
  simp only [writableBytes] at hroom
  have hfit : b.writerIndex + data.length ≤ b.buffer.length := by omega
  have hlen := length_overwrite hfit
  unfold fill hasWritten copyToWrite
  simp only [writableBytes, hlen]
  rw [if_pos hroom]
  refine ⟨_, rfl, ⟨?_, ?_, ?_⟩, ?_⟩
  · simp only
    omega
  · simp only [hlen]
    exact hfit
  · simp only [hlen]
    exact h.reserve_le_size
  · exact slice_overwrite_append hrw hfit

/-- `append` appends. -/
theorem append_spec (h : b.Valid) (data : List UInt8) :
    ∃ b', b.append data = some b' ∧ b'.Valid ∧ b'.readable = b.readable ++ data := by
  obtain ⟨b₁, hb₁, hvalid₁, hread₁, hroom⟩ := ensureWritableBytes_spec h data.length
  obtain ⟨b₂, hb₂, hvalid₂, hread₂⟩ := fill_spec hvalid₁ hroom
  refine ⟨b₂, ?_, hvalid₂, by rw [hread₂, hread₁]⟩
  unfold append
  rw [hb₁]
  exact hb₂

/-- `prepend` within the space in front of the reader index puts the bytes in front. -/
theorem prepend_spec (h : b.Valid) {data : List UInt8} (hroom : data.length ≤ b.prependableBytes) :
    ∃ b', b.prepend data = some b' ∧ b'.Valid ∧ b'.readable = data ++ b.readable := by
  have hrw := h.reader_le_writer
  have hws := h.writer_le_size
  unfold prepend
  rw [if_pos hroom]
  simp only [prependableBytes] at hroom
  have hfit : b.readerIndex - data.length + data.length ≤ b.buffer.length := by omega
  have hlen := length_overwrite hfit
  refine ⟨_, rfl, ⟨?_, ?_, ?_⟩, ?_⟩
  · simp only
    omega
  · simp only [hlen]
    exact hws
  · simp only [hlen]
    exact h.reserve_le_size
  · have hbelow : b.readerIndex - data.length + data.length ≤ b.writerIndex := by omega
    have hput := slice_overwrite_prepend hbelow hws
    rwa [Nat.sub_add_cancel hroom] at hput

/-- Filling the writable space completely and moving the writer index to the end of the vector, as
`readFd` does before it appends the rest. -/
lemma fillAll_spec (h : b.Valid) {data : List UInt8} (hlen : data.length = b.writableBytes) :
    Valid { b.copyToWrite data with writerIndex := (b.copyToWrite data).buffer.length } ∧
      readable { b.copyToWrite data with writerIndex := (b.copyToWrite data).buffer.length } =
        b.readable ++ data := by
  have hrw := h.reader_le_writer
  have hws := h.writer_le_size
  simp only [writableBytes] at hlen
  have hfit : b.writerIndex + data.length = b.buffer.length := by omega
  have hsize := length_overwrite hfit.le
  unfold copyToWrite
  refine ⟨⟨?_, le_rfl, ?_⟩, ?_⟩
  · simp only [hsize]
    omega
  · simp only [hsize]
    exact h.reserve_le_size
  · simp only [readable, hsize, ← hfit]
    exact slice_overwrite_append hrw hfit.le

/-- `readFd` appends exactly the bytes `readv` delivered, through the spill path or not, and
returns their number. -/
theorem readFd_data_spec (h : b.Valid) (bytes : List UInt8) :
    ∃ b' : Buffer, b.readFd (.data bytes) = some (b', (bytes.length : ℤ), none) ∧ b'.Valid ∧
      b'.readable = b.readable ++ bytes := by
  by_cases hfit : bytes.length ≤ b.writableBytes
  · obtain ⟨b', hb', hvalid, hread⟩ := fill_spec h hfit
    have hsize : (b.copyToWrite bytes).writableBytes = b.writableBytes := by
      have hws := h.writer_le_size
      have hfit' := hfit
      simp only [writableBytes] at hfit'
      simp only [writableBytes, copyToWrite]
      rw [length_overwrite (by omega)]
    refine ⟨b', ?_, hvalid, hread⟩
    simp only [fill, hasWritten, hsize, if_pos hfit, Option.some.injEq] at hb'
    simp only [readFd, if_pos hfit, List.take_of_length_le hfit, hb']
  · have htake : (bytes.take b.writableBytes).length = b.writableBytes := by
      rw [List.length_take]
      omega
    obtain ⟨hvalid₁, hread₁⟩ := fillAll_spec h htake
    obtain ⟨b', hb', hvalid, hread⟩ := append_spec hvalid₁ (bytes.drop b.writableBytes)
    refine ⟨b', ?_, hvalid, ?_⟩
    · simp only [readFd, if_neg hfit, hb', Option.map_some]
    · rw [hread, hread₁, List.append_assoc, List.take_append_drop]

end Buffer

end MuduoServer
