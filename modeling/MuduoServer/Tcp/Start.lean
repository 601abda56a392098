import MuduoServer.Tcp.Table

/-!
# Starting a server

`TcpServer::start` with the `EventLoopThreadPool` and the `Acceptor` it starts.  The flag `started_`
is meant to let only the first call through, but `start` sets it before it looks at it, so that
every call starts the pool, which makes its loops once more, and then fails the `assert` that the
acceptor is not listening yet.  The server behaves as intended exactly for one call of `start`.

All these functions run on the thread of the base loop, so `runInLoop` calls `Acceptor::listen` at
once.  Loop `0` is the base loop, and the loops of the io threads are numbered from `1` on in the
order in which they are made.
-/

namespace MuduoServer

/-- The data members of `EventLoopThreadPool`, and how many loops have been made so far. -/
structure EventLoopThreadPool where
  numThreads : ℤ
  next : ℕ
  started : Bool
  loops : List ℕ
  created : ℕ
  deriving DecidableEq, Repr

namespace EventLoopThreadPool

/-- The constructor. -/
def new : EventLoopThreadPool where
  numThreads := 0
  next := 0
  started := false
  loops := []
  created := 0

/-- `setThreadNum(numThreads)`. -/
def setThreadNum (p : EventLoopThreadPool) (numThreads : ℤ) : EventLoopThreadPool :=
  { p with numThreads := numThreads }

/-- One round of the loop in `start()`. -/
def pushLoop (p : EventLoopThreadPool) : EventLoopThreadPool :=
  { p with loops := p.loops ++ [p.created + 1], created := p.created + 1 }

/-- `start()`. -/
def start (p : EventLoopThreadPool) : EventLoopThreadPool :=
  pushLoop^[p.numThreads.toNat] { p with started := true }

/-- `getNextLoop()`; `none` when `loops_[next_]` is out of range. -/
def getNextLoop (p : EventLoopThreadPool) : Option (EventLoopThreadPool × ℕ) :=
  if p.numThreads = 0 then some (p, 0)
  else
    p.loops[p.next]?.map fun loop =>
      ({ p with next := if (p.next + 1 : ℤ) = p.numThreads then 0 else p.next + 1 }, loop)

end EventLoopThreadPool

/-- The server with its pool and its acceptor. -/
structure ServerStart where
  started : Bool
  threadPool : EventLoopThreadPool
  /-- `listening_` of the acceptor. -/
  listening : Bool
  /-- How often `Acceptor::listen` has run. -/
  listens : ℕ
  /-- The loops given to the accepted connections, in order. -/
  assigned : List ℕ
  deriving DecidableEq, Repr

/-- What happens to a server once its threads have been set. -/
inductive ServerCall where
  | start
  /-- The acceptor accepts a connection. -/
  | accept
  deriving DecidableEq, Repr

namespace ServerStart

/-- The constructor; `started_` is not initialised. -/
def new (started : Bool) : ServerStart where
  started := started
  threadPool := .new
  listening := false
  listens := 0
  assigned := []

/-- `setThreadNum(numThreads)`. -/
def setThreadNum (s : ServerStart) (numThreads : ℤ) : Option ServerStart :=
  if 0 ≤ numThreads then some { s with threadPool := s.threadPool.setThreadNum numThreads }
  else none

/-- `Acceptor::listen()`. -/
def listen (s : ServerStart) : ServerStart :=
  { s with listening := true, listens := s.listens + 1 }

/-- `start()`. -/
def start (s : ServerStart) : Option ServerStart :=
  let s₁ := { s with started := true }
  if s₁.started then
    let s₂ := { s₁ with threadPool := s₁.threadPool.start }
    if s₂.listening = false then some s₂.listen else none
  else some s₁

/-- `newConnection(sockfd, peerAddr)`, as far as the loop of the connection. -/
def newConnection (s : ServerStart) : Option ServerStart := do
  let r ← s.threadPool.getNextLoop
  some { s with threadPool := r.1, assigned := s.assigned ++ [r.2] }

/-- One call. -/
def call (s : ServerStart) : ServerCall → Option ServerStart
  | .start => s.start
  | .accept => s.newConnection

/-- The calls of `setThreadNum`, then the others. -/
def run (started : Bool) (ns : List ℤ) (calls : List ServerCall) : Option ServerStart := do
  let s ← ns.foldlM setThreadNum (new started)
  calls.foldlM call s

/-- The server of a configuration with `n` threads has been started once and has accepted `k`
connections. -/
structure Serving (n k : ℕ) (s : ServerStart) : Prop where
  /-- The pool has exactly `n` loops. -/
  loops : s.threadPool.loops = List.range' 1 n
  numThreads : s.threadPool.numThreads = n
  /-- `loops_[next_]` is in range, if it is ever read. -/
  next : s.threadPool.next = if n = 0 then 0 else k % n
  listening : s.listening = true
  listens : s.listens = 1
  /-- The connections go round the loops, or all to the base loop. -/
  assigned : s.assigned = (List.range k).map fun i => if n = 0 then 0 else i % n + 1

/-! ### Before the first start -/

/-- Of several calls of `setThreadNum` the last one counts. -/
lemma foldlM_setThreadNum {ns : List ℤ} (hns : ∀ n ∈ ns, 0 ≤ n) (s : ServerStart) :
    ns.foldlM setThreadNum s = some { s with threadPool :=
      { s.threadPool with numThreads := ns.getLastD s.threadPool.numThreads } } := by
  induction ns generalizing s with
  | nil => rfl
  | cons n ns ih =>
    have hn : 0 ≤ n := hns n (by simp)
    rw [List.foldlM_cons, setThreadNum, if_pos hn, Option.bind_eq_bind, Option.bind_some,
      ih fun m hm => hns m (List.mem_cons_of_mem n hm), List.getLastD_cons]
    rfl

/-- The loop of `EventLoopThreadPool::start`. -/
lemma iterate_pushLoop (n : ℕ) (p : EventLoopThreadPool) :
    EventLoopThreadPool.pushLoop^[n] p =
      { p with loops := p.loops ++ List.range' (p.created + 1) n, created := p.created + n } := by
  induction n with
  | zero => simp
  | succ n ih =>
    rw [Function.iterate_succ_apply', ih, EventLoopThreadPool.pushLoop, List.range'_concat]
    simp [Nat.add_comm, Nat.add_assoc, Nat.add_left_comm]

/-- The first `start()`. -/
lemma start_serving (started : Bool) {n : ℤ} (hn : 0 ≤ n) :
    ∃ s, start { new started with threadPool := { EventLoopThreadPool.new with numThreads := n } } =
      some s ∧ Serving n.toNat 0 s := by
  refine ⟨_, rfl, ⟨?_, ?_, ?_, rfl, rfl, rfl⟩⟩
  · simp [listen, EventLoopThreadPool.start, iterate_pushLoop, EventLoopThreadPool.new]
  · simp [listen, EventLoopThreadPool.start, iterate_pushLoop, hn]
  · simp [listen, EventLoopThreadPool.start, iterate_pushLoop, EventLoopThreadPool.new]

/-! ### After it -/

variable {n k : ℕ} {s : ServerStart}

/-- A pool that has been started once answers as the `getNextLoop` of `TcpServer`. -/
lemma Serving.getNextLoop_eq (h : Serving n k s) :
    s.threadPool.getNextLoop =
      some ({ s.threadPool with next := (TcpServer.getNextLoop n s.threadPool.next).2 },
        (TcpServer.getNextLoop n s.threadPool.next).1) := by
  unfold EventLoopThreadPool.getNextLoop TcpServer.getNextLoop
  by_cases hn : n = 0
  · have hn' : s.threadPool.numThreads = 0 := by rw [h.numThreads, hn, Nat.cast_zero]
    rw [if_pos hn', if_pos hn]
  · have hnext : s.threadPool.next < n := by
      rw [h.next, if_neg hn]
      exact Nat.mod_lt k (Nat.pos_of_ne_zero hn)
    have hread : s.threadPool.loops[s.threadPool.next]? = some (s.threadPool.next + 1) := by
      rw [h.loops, List.getElem?_range' (by simpa using hnext)]
      simp [Nat.add_comm]
    have hwrap : ((s.threadPool.next : ℤ) + 1 = n) ↔ s.threadPool.next + 1 = n := by omega
    have hn' : (n : ℤ) ≠ 0 := by exact_mod_cast hn
    simp only [h.numThreads, hread, if_neg hn, if_neg hn', hwrap, Option.map_some]

/-- An accepted connection gets the loop whose turn it is. -/
lemma Serving.newConnection (h : Serving n k s) :
    ∃ s', s.newConnection = some s' ∧ Serving n (k + 1) s' := by
  have hturn := TcpServer.getNextLoop_eq ⟨⟨0, 0, 0, 0, 0⟩, [], n⟩ k
  simp only [← h.next, ServerConfig.loopOf] at hturn
  rw [ServerStart.newConnection, h.getNextLoop_eq, hturn]
  refine ⟨_, rfl, ⟨h.loops, h.numThreads, rfl, h.listening, h.listens, ?_⟩⟩
  rw [List.range_succ, List.map_append, ← h.assigned]
  rfl

/-- As long as `start()` is not called again, every connection gets its loop. -/
lemma Serving.foldlM (h : Serving n k s) {calls : List ServerCall} (hcalls : .start ∉ calls) :
    ∃ s', calls.foldlM call s = some s' ∧ Serving n (k + calls.length) s' := by
  induction calls generalizing k s with
  | nil => exact ⟨s, rfl, h⟩
  | cons c calls ih =>
    cases c with
    | start => simp at hcalls
    | accept =>
      obtain ⟨s₁, hs₁, h₁⟩ := h.newConnection
      obtain ⟨s', hs', h'⟩ := ih h₁ (by simpa using hcalls)
      refine ⟨s', ?_, ?_⟩
      · rw [List.foldlM_cons, call, hs₁]
        exact hs'
      · rw [List.length_cons, Nat.add_comm calls.length, ← Nat.add_assoc]
        exact h'

/-- `start()` on a server that listens fails the `assert`. -/
lemma start_eq_none (h : s.listening = true) : s.start = none := by
  simp [start, h]

/-- Every further call of `start()` comes to that. -/
lemma Serving.foldlM_eq_none (h : Serving n k s) {calls : List ServerCall}
    (hcalls : .start ∈ calls) : calls.foldlM call s = none := by
  induction calls generalizing k s with
  | nil => simp at hcalls
  | cons c calls ih =>
    cases c with
    | start =>
      rw [List.foldlM_cons, call, start_eq_none h.listening]
      rfl
    | accept =>
      obtain ⟨s₁, hs₁, h₁⟩ := h.newConnection
      rw [List.foldlM_cons, call, hs₁]
      exact ih h₁ (by simpa using hcalls)

/-- Up to the first `start()`. -/
lemma run_eq (started : Bool) {ns : List ℤ} (hns : ∀ n ∈ ns, 0 ≤ n) (calls : List ServerCall) :
    ∃ s, Serving (ns.getLastD 0).toNat 0 s ∧
      run started ns (.start :: calls) = calls.foldlM call s := by
  have hlast : 0 ≤ ns.getLastD 0 := by
    cases hne : ns.getLast? with
    | none => simp [List.getLastD_eq_getLast?, hne]
    | some n =>
      rw [List.getLastD_eq_getLast?, hne]
      exact hns n (List.mem_of_getLast? hne)
  obtain ⟨s, hs, hserving⟩ := start_serving started hlast
  refine ⟨s, hserving, ?_⟩
  rw [run, foldlM_setThreadNum hns, Option.bind_eq_bind, Option.bind_some, List.foldlM_cons]
  exact congrArg (fun o => o.bind fun s => calls.foldlM call s) hs

/-- After the calls of `setThreadNum` and a first `start()`, whatever further calls of `start()` and
accepted connections follow: the pool has its `n` loops, the acceptor listens once, no `assert`
fails, no index is out of range and the connections go round the loops, if and only if `start()` is
not called again. -/
theorem start_serving_iff (started : Bool) (ns : List ℤ) (hns : ∀ n ∈ ns, 0 ≤ n)
    (calls : List ServerCall) :
    (∃ s, run started ns (.start :: calls) = some s ∧
      Serving (ns.getLastD 0).toNat (calls.count .accept) s) ↔ .start ∉ calls := by
  obtain ⟨s₁, hserving, hrun⟩ := run_eq started hns calls
  rw [hrun]
  constructor
  · rintro ⟨s, hs, -⟩ hstart
    rw [hserving.foldlM_eq_none hstart] at hs
    cases hs
  · intro hstart
    obtain ⟨s, hs, hserving'⟩ := hserving.foldlM hstart
    have hcount : calls.count .accept = calls.length := by
      rw [List.count_eq_length]
      intro c hc
      cases c with
      | start => exact absurd hc hstart
      | accept => rfl
    rw [Nat.zero_add, ← hcount] at hserving'
    exact ⟨s, hs, hserving'⟩

/-- Two io threads and three connections. -/
theorem start_serving_two :
    ∃ s, run false [4, 2] [.start, .accept, .accept, .accept] = some s ∧ Serving 2 3 s :=
  (start_serving_iff false [4, 2] (by decide) [.accept, .accept, .accept]).mpr (by decide)

/-- The second `start()` fails the `assert` that the acceptor is not listening. -/
theorem start_twice_not_serving :
    ¬ ∀ (started : Bool) (ns : List ℤ), (∀ n ∈ ns, 0 ≤ n) → ∀ calls : List ServerCall,
      ∃ s, run started ns (.start :: calls) = some s ∧
        Serving (ns.getLastD 0).toNat (calls.count .accept) s := by
  intro h
  obtain ⟨s, hs, -⟩ := h false [] (by simp) [.start]
  exact absurd hs (by simp [run, new, call, start, listen])

end ServerStart

end MuduoServer
