import MuduoServer.Buffer.Basic
import MuduoServer.Lib.Framing

/-!
# Lines of a stream

A peer sends a stream of bytes; it arrives in chunks, by `append` or by `readFd`, and after each
chunk the user calls `getLine` until it returns nothing.  The lines that come out are the frames of
the stream, so how the stream was cut leaves no trace in them.  The drain loop is written with a
bound on the calls; that the bound is never reached is part of `drainLines_spec`.
-/

namespace MuduoServer

/-- One arrival of bytes. -/
inductive Delivery where
  | append (data : List UInt8)
  | readFd (r : ReadResult)
  deriving DecidableEq, Repr

namespace Delivery

/-- The bytes that arrive: none where `readv` fails. -/
def bytes : Delivery → List UInt8
  | append data => data
  | readFd (.data bytes) => bytes
  | readFd (.error _) => []

/-- The call on the buffer. -/
def deliver (b : Buffer) : Delivery → Option Buffer
  | append data => b.append data
  | readFd r => (b.readFd r).map fun x => x.1

/-- Either call puts the bytes behind the readable ones. -/
lemma deliver_spec {b : Buffer} (h : b.Valid) (d : Delivery) :
    ∃ b', d.deliver b = some b' ∧ b'.Valid ∧ b'.readable = b.readable ++ d.bytes := by
  cases d with
  | append data => exact Buffer.append_spec h data
  | readFd r =>
    cases r with
    | data bytes =>
      obtain ⟨b', hb', hvalid, hread⟩ := Buffer.readFd_data_spec h bytes
      exact ⟨b', by simp [deliver, hb'], hvalid, hread⟩
    | error errno => exact ⟨b, rfl, h, by simp [bytes]⟩

end Delivery

namespace Buffer

/-- Call `getLine()` until it returns `nullopt`, at most `fuel` times: the buffer left and the
lines. -/
def drainLines : ℕ → Buffer → Option (Buffer × List (List UInt8))
  | 0, _ => none
  | fuel + 1, b => do
    let r ← b.getLine
    match r.2 with
    | none => some (r.1, [])
    | some line =>
      let rest ← drainLines fuel r.1
      some (rest.1, line :: rest.2)

/-- Deliver chunk after chunk and drain the lines after each. -/
def receiveLines (fuel : ℕ) : Buffer → List Delivery → Option (Buffer × List (List UInt8))
  | b, [] => some (b, [])
  | b, d :: ds => do
    let b' ← d.deliver b
    let r ← b'.drainLines fuel
    let rest ← receiveLines fuel r.1 ds
    some (rest.1, r.2 ++ rest.2)

variable {b : Buffer}

/-- What `memchr` finds ends the first line. -/
lemma isFrame_take_of_findIdx? {q : List UInt8} {pos : ℕ}
    (h : q.findIdx? (· == newline) = some pos) :
    pos < q.length ∧ IsFrame newline (q.take (pos + 1)) := by
  obtain ⟨hlt, hpos, hbefore⟩ := List.findIdx?_eq_some_iff_getElem.mp h
  refine ⟨hlt, q.take pos, ?_, ?_⟩
  · rw [List.take_add_one, List.getElem?_eq_getElem hlt, eq_of_beq hpos]
    rfl
  · intro hmem
    obtain ⟨j, hj, hget⟩ := List.mem_take_iff_getElem.mp hmem
    exact hbefore j (by omega) (by simp [hget])

/-- Each call of the drain loop takes a line of at least one byte, so that it ends; it returns the
frames of the readable bytes and leaves the rest. -/
theorem drainLines_spec (h : b.Valid) {fuel : ℕ} (hfuel : b.readable.length < fuel) :
    ∃ b' lines, b.drainLines fuel = some (b', lines) ∧ b'.Valid ∧
      Framed newline b.readable lines b'.readable := by
  induction fuel generalizing b with
  | zero => omega
  | succ fuel ih =>
    obtain ⟨b₁, hvalid₁, hline⟩ := getLine_spec h
    cases hpos : b.readable.findIdx? (· == newline) with
    | none =>
      rw [hpos] at hline
      refine ⟨b₁, [], by simp [drainLines, hline.1], hvalid₁, ?_⟩
      rw [hline.2]
      refine Framed.nil fun hmem => ?_
      simpa using List.findIdx?_eq_none_iff.mp hpos newline hmem
    | some pos =>
      rw [hpos] at hline
      obtain ⟨hlt, hframe⟩ := isFrame_take_of_findIdx? hpos
      have hshorter : b₁.readable.length < fuel := by
        rw [hline.2, List.length_drop]
        omega
      obtain ⟨b', lines, hb', hvalid', hframed⟩ := ih hvalid₁ hshorter
      refine ⟨b', b.readable.take (pos + 1) :: lines, by simp [drainLines, hline.1, hb'],
        hvalid', ?_⟩
      rw [hline.2] at hframed
      have hall := hframed.cons hframe
      rwa [List.take_append_drop] at hall

/-- The lines drained over all deliveries are the frames of everything delivered. -/
theorem receiveLines_spec (h : b.Valid) (hopen : newline ∉ b.readable) {fuel : ℕ}
    (ds : List Delivery)
    (hfuel : (b.readable ++ (ds.map Delivery.bytes).flatten).length < fuel) :
    ∃ b' lines, b.receiveLines fuel ds = some (b', lines) ∧
      Framed newline (b.readable ++ (ds.map Delivery.bytes).flatten) lines b'.readable := by
  induction ds generalizing b with
  | nil =>
    refine ⟨b, [], rfl, ?_⟩
    simpa using Framed.nil hopen
  | cons d ds ih =>
    obtain ⟨b₁, hb₁, hvalid₁, hread₁⟩ := Delivery.deliver_spec h d
    have hfuel₁ : b₁.readable.length < fuel := by
      rw [hread₁]
      simp only [List.map_cons, List.flatten_cons, List.length_append] at hfuel ⊢
      omega
    obtain ⟨b₂, lines₁, hb₂, hvalid₂, hframed₁⟩ := drainLines_spec hvalid₁ hfuel₁
    -- what the drain leaves is no longer than what it found
    have hfuel₂ : (b₂.readable ++ (ds.map Delivery.bytes).flatten).length < fuel := by
      have hlen := congrArg List.length hframed₁.flatten_append
      rw [hread₁] at hlen
      simp only [List.map_cons, List.flatten_cons, List.length_append] at hfuel hlen ⊢
      omega
    obtain ⟨b', lines, hb', hframed⟩ := ih hvalid₂ hframed₁.rest_open hfuel₂
    refine ⟨b', lines₁ ++ lines, by simp [receiveLines, hb₁, hb₂, hb'], ?_⟩
    have hall := hframed₁.append hframed
    rwa [hread₁, List.append_assoc] at hall

/-- For every stream there are lines and a rest, each line with a newline at its end and nowhere
else and the rest without one, that every way of cutting the stream into deliveries produces: the
drain loops end, the lines come out in order and the rest stays in the buffer. -/
theorem receiveLines_independent (s : List UInt8) :
    ∃ lines rest, (∀ line ∈ lines, ∃ body, line = body ++ [newline] ∧ newline ∉ body) ∧
      newline ∉ rest ∧ lines.flatten ++ rest = s ∧
      ∀ ds : List Delivery, (ds.map Delivery.bytes).flatten = s → ∀ fuel, s.length < fuel →
        ∃ b, new.receiveLines fuel ds = some (b, lines) ∧ b.readable = rest := by
  have hopen : newline ∉ new.readable := by simp
  -- the stream in one piece
  have hfuel₁ : (new.readable ++ ([.append s].map Delivery.bytes).flatten).length <
      s.length + 1 := by
    simp [Delivery.bytes]
  obtain ⟨b₁, lines, -, hframed⟩ := receiveLines_spec new_valid hopen [.append s] hfuel₁
  have hwhole : Framed newline s lines b₁.readable := by simpa [Delivery.bytes] using hframed
  refine ⟨lines, b₁.readable, hwhole.frame, hwhole.rest_open, hwhole.flatten_append, ?_⟩
  rintro ds rfl fuel hfuel
  obtain ⟨b, lines', hb, hframed'⟩ := receiveLines_spec new_valid hopen ds (by simpa using hfuel)
  rw [readable_new, List.nil_append] at hframed'
  obtain ⟨rfl, hrest⟩ := hwhole.unique hframed'
  exact ⟨b, hb, hrest.symm⟩

-- a line that straddles two deliveries, and a failed `readv` between them
example : (new.receiveLines 5 [.append [97, 98], .readFd (.error 11),
    .readFd (.data [10, 99, 10, 100])]).map (fun r => (r.2, r.1.readable)) =
      some ([[97, 98, 10], [99, 10]], [100]) := by decide +kernel

end Buffer

end MuduoServer
