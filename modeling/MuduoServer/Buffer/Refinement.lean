import MuduoServer.Lib.Machine
import MuduoServer.Buffer.Basic

/-!
# Buffers refine byte queues

Any number of `Buffer` objects live in a `Store`, addressed by name.  `bufferMachine` runs the
operations of the class on them exactly as the code does, aliasing included: an object may be
assigned to, or swapped with, itself.  `queueMachine` runs the same operations on plain byte lists.

`bufferMachine_refines` is the refinement: along every run of legal calls the index invariant holds
for every buffer, no `assert` fails, and the byte lists return the same strings and hold the same
bytes.  The proof is a forward simulation, assembled from one lemma for the operations on one
buffer (`BufferOp.simulates`) and the equations for construction, assignment and `swap`.
-/

namespace MuduoServer

/-- What a call returns to its caller. -/
inductive Ret where
  | unit
  | string (s : List UInt8)
  | line (s : Option (List UInt8))
  | count (res : ℤ) (savedErrno : Option ℕ)
  deriving DecidableEq, Repr

/-- The member functions called on one buffer. -/
inductive BufferOp where
  | append (data : List UInt8)
  | prepend (data : List UInt8)
  | retrieve (len : ℕ)
  | retrieveAsString (len : ℕ)
  | retrieveAll
  | retrieveAllString
  | getLine
  | ensureWritableBytes (len : ℕ)
  | fill (data : List UInt8)
  | readFd (r : ReadResult)
  deriving DecidableEq, Repr

namespace BufferOp

/-- What the caller of each member function has to respect; for `readFd` it is `readv` that cannot
deliver more than the io vectors hold. -/
def Legal (b : Buffer) : BufferOp → Prop
  | prepend data => data.length ≤ b.prependableBytes
  | retrieve len => len ≤ b.readableBytes
  | retrieveAsString len => len ≤ b.readableBytes
  | fill data => data.length ≤ b.writableBytes
  | readFd (.data bytes) => bytes.length ≤ b.readvCapacity
  | _ => True

instance (b : Buffer) (op : BufferOp) : Decidable (op.Legal b) := by
  unfold Legal
  split <;> infer_instance

/-- The member function on a buffer. -/
def onBuffer (b : Buffer) : BufferOp → Option (Buffer × Ret)
  | append data => (b.append data).map fun b' => (b', .unit)
  | prepend data => (b.prepend data).map fun b' => (b', .unit)
  | retrieve len => (b.retrieve len).map fun b' => (b', .unit)
  | retrieveAsString len => (b.retrieveAsString len).map fun r => (r.1, .string r.2)
  | retrieveAll => some (b.retrieveAll, .unit)
  | retrieveAllString => b.retrieveAllString.map fun r => (r.1, .string r.2)
  | getLine => b.getLine.map fun r => (r.1, .line r.2)
  | ensureWritableBytes len => (b.ensureWritableBytes len).map fun b' => (b', .unit)
  | fill data => (b.fill data).map fun b' => (b', .unit)
  | readFd r => (b.readFd r).map fun x => (x.1, .count x.2.1 x.2.2)

/-- The same operation on a plain byte list. -/
def onQueue (q : List UInt8) : BufferOp → List UInt8 × Ret
  | append data => (q ++ data, .unit)
  | prepend data => (data ++ q, .unit)
  | retrieve len => (q.drop len, .unit)
  | retrieveAsString len => (q.drop len, .string (q.take len))
  | retrieveAll => ([], .unit)
  | retrieveAllString => ([], .string q)
  | getLine =>
    match q.findIdx? (· == newline) with
    | none => (q, .line none)
    | some pos => (q.drop (pos + 1), .line (some (q.take (pos + 1))))
  | ensureWritableBytes _ => (q, .unit)
  | fill data => (q ++ data, .unit)
  | readFd (.data bytes) => (q ++ bytes, .count bytes.length none)
  | readFd (.error errno) => (q, .count (-1) (some errno))

/-- Every legal call on a valid buffer succeeds, leaves a valid buffer, and does to the readable
bytes what the byte list does, with the same return value. -/
theorem simulates {b : Buffer} (h : b.Valid) (op : BufferOp) (hop : op.Legal b) :
    ∃ b', b'.Valid ∧ op.onBuffer b = some (b', (op.onQueue b.readable).2) ∧
      b'.readable = (op.onQueue b.readable).1 := by
  cases op with
  | append data =>
    obtain ⟨b', hb', hvalid, hread⟩ := Buffer.append_spec h data
    exact ⟨b', hvalid, by simp [onBuffer, onQueue, hb'], hread⟩
  | prepend data =>
    obtain ⟨b', hb', hvalid, hread⟩ := Buffer.prepend_spec h hop
    exact ⟨b', hvalid, by simp [onBuffer, onQueue, hb'], hread⟩
  | retrieve len =>
    obtain ⟨b', hb', hvalid, hread⟩ := Buffer.retrieve_spec h hop
    exact ⟨b', hvalid, by simp [onBuffer, onQueue, hb'], hread⟩
  | retrieveAsString len =>
    obtain ⟨b', hb', hvalid, hread⟩ := Buffer.retrieveAsString_spec h hop
    exact ⟨b', hvalid, by simp [onBuffer, onQueue, hb'], hread⟩
  | retrieveAll =>
    exact ⟨b.retrieveAll, Buffer.retrieveAll_valid h, rfl, Buffer.readable_retrieveAll⟩
  | retrieveAllString =>
    obtain ⟨b', hb', hvalid, hread⟩ := Buffer.retrieveAsString_spec h le_rfl
    rw [← h.length_readable, List.take_length] at hb'
    rw [← h.length_readable, List.drop_length] at hread
    refine ⟨b', hvalid, ?_, hread⟩
    simp [onBuffer, onQueue, Buffer.retrieveAllString, ← h.length_readable, hb']
  | getLine =>
    obtain ⟨b', hvalid, hline⟩ := Buffer.getLine_spec h
    refine ⟨b', hvalid, ?_⟩
    simp only [onBuffer, onQueue]
    cases hpos : b.readable.findIdx? (· == newline) with
    | none =>
      rw [hpos] at hline
      simp [hline.1, hline.2]
    | some pos =>
      rw [hpos] at hline
      simp [hline.1, hline.2]
  | ensureWritableBytes len =>
    obtain ⟨b', hb', hvalid, hread, -⟩ := Buffer.ensureWritableBytes_spec h len
    exact ⟨b', hvalid, by simp [onBuffer, onQueue, hb'], hread⟩
  | fill data =>
    obtain ⟨b', hb', hvalid, hread⟩ := Buffer.fill_spec h hop
    exact ⟨b', hvalid, by simp [onBuffer, onQueue, hb'], hread⟩
  | readFd r =>
    cases r with
    | data bytes =>
      obtain ⟨b', hb', hvalid, hread⟩ := Buffer.readFd_data_spec h bytes
      exact ⟨b', hvalid, by simp [onBuffer, onQueue, hb'], hread⟩
    | error errno => exact ⟨b, h, rfl, rfl⟩

end BufferOp

/-! ### Several buffers -/

/-- An operation of a program with several buffers, each addressed by name. -/
inductive StoreOp where
  | construct (i : ℕ)
  | copyConstruct (i j : ℕ)
  | moveConstruct (i j : ℕ) (junk : ℕ × ℕ)
  | copyAssign (i j : ℕ)
  | moveAssign (i j : ℕ) (junk : ℕ × ℕ)
  | swap (i j : ℕ)
  | call (i : ℕ) (op : BufferOp)
  deriving DecidableEq, Repr

/-- The objects alive, by name. -/
abbrev Store (α : Type*) := ℕ → Option α

namespace Store

variable {α : Type*}

/-- The store with object `i` replaced. -/
def put (s : Store α) (i : ℕ) (a : α) : Store α := fun j => if j = i then some a else s j

/-- What has been put at an index is there. -/
@[simp] lemma put_self (s : Store α) (i : ℕ) (a : α) : s.put i a i = some a := if_pos rfl

/-- The other indices stay as they are. -/
lemma put_ne (s : Store α) {i j : ℕ} (a : α) (h : j ≠ i) : s.put i a j = s j := if_neg h

end Store

namespace StoreOp

/-- A constructor needs a fresh name, every other call existing objects. -/
def Legal (s : Store Buffer) : StoreOp → Prop
  | construct i => s i = none
  | copyConstruct i j => s i = none ∧ (s j).isSome
  | moveConstruct i j _ => s i = none ∧ (s j).isSome
  | copyAssign i j => (s i).isSome ∧ (s j).isSome
  | moveAssign i j _ => (s i).isSome ∧ (s j).isSome
  | swap i j => (s i).isSome ∧ (s j).isSome
  | call i op => ∃ b ∈ s i, op.Legal b

instance (s : Store Buffer) (op : StoreOp) : Decidable (op.Legal s) := by
  unfold Legal
  split <;> infer_instance

/-- The operation as the code runs it. -/
def onBuffers (s : Store Buffer) : StoreOp → Option (Store Buffer × Ret)
  | construct i => some (s.put i Buffer.new, .unit)
  | copyConstruct i j => do
    let other ← s j
    some (s.put i other.copyConstruct, .unit)
  | moveConstruct i j junk => do
    let other ← s j
    let r := Buffer.moveConstruct junk other
    some ((s.put j r.2).put i r.1, .unit)
  | copyAssign i j => do
    let other ← s j
    let this ← s i
    let r := Buffer.swap other.copyConstruct this
    some (s.put i r.2, .unit)
  -- `tmp` takes over `other` first; only then is `*this` read, which may be the same object
  | moveAssign i j junk => do
    let other ← s j
    let r := Buffer.moveConstruct junk other
    let s' := s.put j r.2
    let this ← s' i
    let r' := Buffer.swap r.1 this
    some (s'.put i r'.2, .unit)
  | swap i j => do
    let a ← s i
    let b ← s j
    let r := Buffer.swap a b
    some ((s.put i r.1).put j r.2, .unit)
  | call i op => do
    let b ← s i
    let r ← op.onBuffer b
    some (s.put i r.1, r.2)

/-- The operation on byte lists: a copy duplicates the list, a move empties its source. -/
def onQueues (q : Store (List UInt8)) : StoreOp → Option (Store (List UInt8) × Ret)
  | construct i => some (q.put i [], .unit)
  | copyConstruct i j => do
    let other ← q j
    some (q.put i other, .unit)
  | moveConstruct i j _ => do
    let other ← q j
    some ((q.put j []).put i other, .unit)
  | copyAssign i j => do
    let other ← q j
    some (q.put i other, .unit)
  | moveAssign i j _ => do
    let other ← q j
    some ((q.put j []).put i other, .unit)
  | swap i j => do
    let a ← q i
    let b ← q j
    some ((q.put i b).put j a, .unit)
  | call i op => do
    let a ← q i
    some (q.put i (op.onQueue a).1, (op.onQueue a).2)

end StoreOp

/-- The program with several buffers. -/
def bufferMachine : Machine (Store Buffer) StoreOp (StoreOp × Ret) where
  pre s op := op.Legal s
  step s op := (op.onBuffers s).map fun r => (r.1, [(op, r.2)])

instance (s : Store Buffer) (op : StoreOp) : Decidable (bufferMachine.pre s op) :=
  inferInstanceAs (Decidable (op.Legal s))

/-- The same program on byte lists. -/
def queueMachine : Machine (Store (List UInt8)) StoreOp (StoreOp × Ret) where
  pre _ _ := True
  step q op := (op.onQueues q).map fun r => (r.1, [(op, r.2)])

/-- The byte lists a store of buffers stands for. -/
def contents (s : Store Buffer) : Store (List UInt8) := fun i => (s i).map Buffer.readable

/-- Every buffer of the store satisfies the index invariant. -/
def AllValid (s : Store Buffer) : Prop := ∀ i b, s i = some b → b.Valid

/-- To put a buffer is to put its readable bytes. -/
lemma contents_put (s : Store Buffer) (i : ℕ) (b : Buffer) :
    contents (s.put i b) = (contents s).put i b.readable := by
  funext j
  by_cases hj : j = i
  · subst hj
    simp [contents]
  · simp [contents, Store.put_ne _ _ hj]

/-- To put a valid buffer keeps all of them valid. -/
lemma AllValid.put {s : Store Buffer} (h : AllValid s) {b : Buffer} (hb : b.Valid) (i : ℕ) :
    AllValid (s.put i b) := by
  intro j b' hj
  by_cases hji : j = i
  · subst hji
    rw [Store.put_self, Option.some.injEq] at hj
    exact hj ▸ hb
  · rw [Store.put_ne _ _ hji] at hj
    exact h j b' hj

/-- Every legal operation succeeds on valid buffers, keeps them valid and is matched by the same
operation on their contents. -/
theorem StoreOp.simulates {s : Store Buffer} (h : AllValid s) (op : StoreOp) (hop : op.Legal s) :
    ∃ s' r, op.onBuffers s = some (s', r) ∧ AllValid s' ∧
      op.onQueues (contents s) = some (contents s', r) := by
  have hcontents : ∀ {i b}, s i = some b → contents s i = some b.readable := by
    intro i b hb
    simp [contents, hb]
  cases op with
  | construct i =>
    refine ⟨_, _, rfl, h.put Buffer.new_valid i, ?_⟩
    simp [onQueues, contents_put]
  | copyConstruct i j =>
    obtain ⟨-, hj⟩ := hop
    obtain ⟨b, hb⟩ := Option.isSome_iff_exists.mp hj
    refine ⟨s.put i b, .unit, by simp [onBuffers, hb], h.put (h j b hb) i, ?_⟩
    simp [onQueues, hcontents hb, contents_put]
  | moveConstruct i j junk =>
    obtain ⟨-, hj⟩ := hop
    obtain ⟨b, hb⟩ := Option.isSome_iff_exists.mp hj
    refine ⟨(s.put j Buffer.new).put i b, .unit, by simp [onBuffers, hb],
      (h.put Buffer.new_valid j).put (h j b hb) i, ?_⟩
    simp [onQueues, hcontents hb, contents_put]
  | copyAssign i j =>
    obtain ⟨hi, hj⟩ := hop
    obtain ⟨a, ha⟩ := Option.isSome_iff_exists.mp hi
    obtain ⟨b, hb⟩ := Option.isSome_iff_exists.mp hj
    refine ⟨s.put i b, .unit, by simp [onBuffers, ha, hb], h.put (h j b hb) i, ?_⟩
    simp [onQueues, hcontents hb, contents_put]
  | moveAssign i j junk =>
    obtain ⟨hi, hj⟩ := hop
    obtain ⟨a, ha⟩ := Option.isSome_iff_exists.mp hi
    obtain ⟨b, hb⟩ := Option.isSome_iff_exists.mp hj
    -- whether or not the two names are the same, `*this` exists after the source was emptied
    obtain ⟨this, hthis⟩ : ∃ this, s.put j Buffer.new i = some this := by
      by_cases hij : i = j
      · exact ⟨Buffer.new, by rw [hij, Store.put_self]⟩
      · exact ⟨a, by rw [Store.put_ne _ _ hij, ha]⟩
    refine ⟨(s.put j Buffer.new).put i b, .unit, by simp [onBuffers, hb, hthis],
      (h.put Buffer.new_valid j).put (h j b hb) i, ?_⟩
    simp [onQueues, hcontents hb, contents_put]
  | swap i j =>
    obtain ⟨hi, hj⟩ := hop
    obtain ⟨a, ha⟩ := Option.isSome_iff_exists.mp hi
    obtain ⟨b, hb⟩ := Option.isSome_iff_exists.mp hj
    refine ⟨(s.put i b).put j a, .unit, by simp [onBuffers, ha, hb],
      (h.put (h j b hb) i).put (h i a ha) j, ?_⟩
    simp [onQueues, hcontents ha, hcontents hb, contents_put]
  | call i op =>
    obtain ⟨b, hb, hlegal⟩ := hop
    obtain ⟨b', hvalid, hstep, hread⟩ := op.simulates (h i b hb) hlegal
    refine ⟨s.put i b', (op.onQueue b.readable).2, ?_, h.put hvalid i, ?_⟩
    · rw [Option.mem_def] at hb
      simp [onBuffers, hb, hstep]
    · simp [onQueues, hcontents hb, contents_put, hread]

/-- The step lemma: the relation "valid, with these contents" is a forward simulation. -/
lemma bufferMachine_simulates :
    bufferMachine.Simulates queueMachine fun s q => AllValid s ∧ q = contents s := by
  rintro s q op s' out ⟨hvalid, rfl⟩ hpre hstep
  obtain ⟨s'', r, hs, hvalid', hq⟩ := op.simulates hvalid hpre
  simp only [bufferMachine, hs, Option.map_some, Option.some.injEq, Prod.mk.injEq] at hstep
  obtain ⟨rfl, rfl⟩ := hstep
  exact ⟨contents s'', trivial, by simp [queueMachine, hq], hvalid', rfl⟩

/-- Along every run of legal calls on any number of buffers the index invariant holds, the byte
lists make the same run (so every string returned is the one the byte list returns) and end with
the readable bytes, and no further legal call fails an `assert`. -/
theorem bufferMachine_refines {t : List (StoreOp × Ret)} {s : Store Buffer}
    (h : bufferMachine.Run (fun _ => none) t s) :
    (∀ i b, s i = some b → b.readerIndex ≤ b.writerIndex ∧ b.writerIndex ≤ b.buffer.length) ∧
      queueMachine.Run (fun _ => none) t (contents s) ∧
      ∀ op, bufferMachine.pre s op → (bufferMachine.step s op).isSome := by
  have hstart : AllValid (fun _ => none) ∧ (fun _ => none) = contents (fun _ => none) :=
    ⟨fun _ _ hb => (Option.some_ne_none _ hb.symm).elim, rfl⟩
  obtain ⟨q, hq, hvalid, rfl⟩ := h.simulates bufferMachine_simulates hstart
  refine ⟨fun i b hb => ⟨(hvalid i b hb).reader_le_writer, (hvalid i b hb).writer_le_size⟩, hq,
    fun op hop => ?_⟩
  obtain ⟨s', r, hs, -, -⟩ := op.simulates hvalid hop
  simp [bufferMachine, hs]

/-- A program with two buffers: a prepend below the reserve, a line read, a spill of `readFd` past
the end of the vector, a copy, and a move assignment of an object to itself. -/
def twoBufferProgram : List StoreOp :=
  [.construct 0, .call 0 (.append [104, 105, 10, 33]), .call 0 (.prepend [62]), .call 0 .getLine,
    .copyConstruct 1 0, .moveAssign 0 0 (7, 3), .call 0 (.readFd (.data (List.replicate 1030 46))),
    .swap 0 1, .call 0 .retrieveAllString]

/-- The program above runs through, so the refinement applies to it, and its last call returns the
one byte that the copy still held. -/
theorem bufferMachine_refines_twoBufferProgram :
    ∃ t s, bufferMachine.Run (fun _ => none) t s ∧
      (StoreOp.call 0 .retrieveAllString, Ret.string [33]) ∈ t ∧
      queueMachine.Run (fun _ => none) t (contents s) := by
  obtain ⟨t, s, hrun, hlast⟩ := bufferMachine.exists_run_of_exec (fun _ => none) twoBufferProgram
    (fun _ t => (StoreOp.call 0 .retrieveAllString, Ret.string [33]) ∈ t) (by decide +kernel)
  exact ⟨t, s, hrun, hlast, (bufferMachine_refines hrun).2.1⟩

end MuduoServer
