import MuduoServer.Tcp.Stream

/-!
# The length of a message on its way

`send(Buffer*)` passes `readableBytes()`, a `size_t`, to `send(const void*, int)`, which passes its
`int` to `sendInLoop(const void*, size_t)`; from another thread the `int` first becomes the length
of a `std::string`, whose size goes the same way once more.  `SendCall` is what arrives: the memory
behind the pointer and the length argument.  The conversions lose nothing exactly for lengths below
`2 ^ 31`.
-/

namespace MuduoServer

/-- The arguments of a call of `sendInLoop(const void* message, size_t len)`: the memory that starts
at `message`, up to the end of its object, and `len`. -/
structure SendCall where
  message : List UInt8
  len : ℕ
  deriving DecidableEq, Repr

/-- `std::string::max_size()`. -/
def maxStringSize : ℕ := 2 ^ 63 - 1

namespace SendCall

/-- The bytes that the call hands over, if they are all there. -/
def bytes (c : SendCall) : Option (List UInt8) :=
  if c.len ≤ c.message.length then some (c.message.take c.len) else none

/-- `send(const void* message, int len)` on the loop thread. -/
def send (message : List UInt8) (len : ℤ) : SendCall := ⟨message, sizeOfInt len⟩

/-- The message is the text that has been given. -/
@[simp] lemma message_send (message : List UInt8) (len : ℤ) :
    (send message len).message = message := rfl

/-- Its length is converted to `size_t`. -/
@[simp] lemma len_send (message : List UInt8) (len : ℤ) :
    (send message len).len = sizeOfInt len := rfl

/-- `sendInLoop(const std::string& message)`. -/
def sendInLoopString (message : List UInt8) : SendCall := send message (intOfSize message.length)

/-- The copy `std::string msg((char*)message, len)`; `none` when its constructor throws
`std::length_error` or would read past the object. -/
def copy (message : List UInt8) (len : ℤ) : Option (List UInt8) :=
  if sizeOfInt len ≤ maxStringSize ∧ sizeOfInt len ≤ message.length then
    some (message.take (sizeOfInt len))
  else none

/-- The memory from `peek()` to the end of the vector. -/
def peekMemory (b : Buffer) : List UInt8 := b.buffer.drop b.readerIndex

/-- `send(Buffer*)` on the loop thread. -/
def sendBuffer (b : Buffer) : SendCall := send (peekMemory b) (intOfSize b.readableBytes)

/-- `send(Buffer*)` from another thread: the copy, and the task that the loop thread runs. -/
def postBuffer (b : Buffer) : Option SendCall :=
  (copy (peekMemory b) (intOfSize b.readableBytes)).map sendInLoopString

/-- On the loop thread the call is the one that `ConnLoop.send` makes. -/
lemma connLoop_send_eq {τ : Type} (s : ConnLoop τ) (message : List UInt8) (len : ℤ)
    (w : WriteResult) :
    s.send message len w = s.sendInLoop (send message len).message (send message len).len w := by
  rw [ConnLoop.send, message_send, len_send]

/-- The posted task makes the call that `ConnLoop.sendInLoopString` makes. -/
lemma connLoop_sendInLoopString_eq {τ : Type} (s : ConnLoop τ) (message : List UInt8)
    (w : WriteResult) :
    s.sendInLoopString message w =
      s.sendInLoop (sendInLoopString message).message (sendInLoopString message).len w := by
  rw [ConnLoop.sendInLoopString, connLoop_send_eq, sendInLoopString]

/-- The call hands over the whole of a buffer. -/
def HandsOver (c : SendCall) (b : Buffer) : Prop :=
  c.len = b.readableBytes ∧ c.bytes = some b.readable

end SendCall

/-- From `2 ^ 31` on the conversions to `int` and back change the length: it becomes smaller, or
negative and then huge. -/
lemma sizeOfInt_intOfSize_ne {n : ℕ} (hlarge : 2 ^ 31 ≤ n) (hn : n < 2 ^ 63) :
    sizeOfInt (intOfSize n) ≠ n := by
  have hlt : intOfSize n < 2 ^ 31 := by
    have := Int.bmod_lt (x := (n : ℤ)) (m := 2 ^ 32) (by norm_num)
    unfold intOfSize
    omega
  have hge : -2 ^ 31 ≤ intOfSize n := by
    have := Int.le_bmod (x := (n : ℤ)) (m := 2 ^ 32) (by norm_num)
    unfold intOfSize
    omega
  unfold sizeOfInt
  generalize intOfSize n = i at hlt hge ⊢
  omega

namespace SendCall

variable {b : Buffer}

/-- Behind `peek()` lies at least what is readable. -/
lemma length_peekMemory (h : b.Valid) : b.readableBytes ≤ (peekMemory b).length := by
  have := h.writer_le_size
  simp only [Buffer.readableBytes, peekMemory, List.length_drop]
  omega

/-- The readable bytes stand at the front of the memory at `peek()`. -/
lemma take_peekMemory (b : Buffer) : (peekMemory b).take b.readableBytes = b.readable := rfl

/-- A call with the right length on the memory at `peek()` hands over the buffer. -/
lemma handsOver_of_len_eq (h : b.Valid) {c : SendCall} (hmessage : c.message = peekMemory b)
    (hlen : c.len = b.readableBytes) : c.HandsOver b := by
  refine ⟨hlen, ?_⟩
  rw [bytes, hmessage, hlen, if_pos (length_peekMemory h), take_peekMemory]

/-- So does a call with the right length on a copy of the readable bytes. -/
lemma handsOver_sendInLoopString (h : b.Valid) (hshort : b.readableBytes < 2 ^ 31) :
    (sendInLoopString b.readable).HandsOver b := by
  have hlen : sizeOfInt (intOfSize b.readable.length) = b.readable.length := by
    rw [h.length_readable]
    exact sizeOfInt_intOfSize hshort
  rw [HandsOver, bytes, sendInLoopString, message_send, len_send, hlen]
  exact ⟨h.length_readable, by rw [if_pos le_rfl, List.take_length]⟩

/-- Below `2 ^ 31` bytes the posted copy is the readable bytes. -/
lemma copy_peekMemory (h : b.Valid) (hshort : b.readableBytes < 2 ^ 31) :
    copy (peekMemory b) (intOfSize b.readableBytes) = some b.readable := by
  have hmax : b.readableBytes ≤ maxStringSize := by
    unfold maxStringSize
    omega
  rw [copy, sizeOfInt_intOfSize hshort, if_pos ⟨hmax, length_peekMemory h⟩, take_peekMemory]

/-- Both ways of sending a buffer of `n < 2 ^ 63` bytes end in a call with the length `n` and the
readable bytes if and only if `n < 2 ^ 31`. -/
theorem sendBuffer_whole_iff (h : b.Valid) (hsize : b.readableBytes < 2 ^ 63) :
    ((sendBuffer b).HandsOver b ∧ ∃ c, postBuffer b = some c ∧ c.HandsOver b) ↔
      b.readableBytes < 2 ^ 31 := by
  constructor
  · rintro ⟨⟨hlen, -⟩, -⟩
    rw [sendBuffer, len_send] at hlen
    by_contra hlarge
    exact sizeOfInt_intOfSize_ne (not_lt.mp hlarge) hsize hlen
  · intro hshort
    have hdirect : (sendBuffer b).len = b.readableBytes := by
      rw [sendBuffer, len_send, sizeOfInt_intOfSize hshort]
    refine ⟨handsOver_of_len_eq h rfl hdirect, ?_⟩
    refine ⟨sendInLoopString b.readable, ?_, handsOver_sendInLoopString h hshort⟩
    rw [postBuffer, copy_peekMemory h hshort, Option.map_some]

/-- Two bytes. -/
theorem sendBuffer_whole_two :
    Buffer.readableBytes ⟨List.replicate 12 7, 8, 10⟩ < 2 ^ 31 ∧
      (sendBuffer ⟨List.replicate 12 7, 8, 10⟩).HandsOver ⟨List.replicate 12 7, 8, 10⟩ := by
  have hvalid : Buffer.Valid ⟨List.replicate 12 7, 8, 10⟩ :=
    ⟨by decide, by decide, by decide⟩
  have hshort : Buffer.readableBytes ⟨List.replicate 12 7, 8, 10⟩ < 2 ^ 31 := by decide
  exact ⟨hshort, ((sendBuffer_whole_iff hvalid (by decide)).mpr hshort).1⟩

/-- `2 ^ 32` readable bytes go through `int` as `0`, and nothing is handed over. -/
theorem sendBuffer_not_whole :
    ¬ ∀ b : Buffer, b.Valid → b.readableBytes < 2 ^ 63 →
      (sendBuffer b).HandsOver b ∧ ∃ c, postBuffer b = some c ∧ c.HandsOver b := by
  intro h
  have hlen : (List.replicate (2 ^ 32 + 8) (0 : UInt8)).length = 2 ^ 32 + 8 :=
    List.length_replicate
  have hvalid : Buffer.Valid ⟨List.replicate (2 ^ 32 + 8) 0, 8, 2 ^ 32 + 8⟩ :=
    ⟨by norm_num, hlen.ge, by rw [hlen, KCheapPrepend]; norm_num⟩
  obtain ⟨⟨hwhole, -⟩, -⟩ := h _ hvalid (by norm_num [Buffer.readableBytes])
  rw [sendBuffer, len_send, Buffer.readableBytes] at hwhole
  exact absurd hwhole (by decide)

end SendCall

end MuduoServer
