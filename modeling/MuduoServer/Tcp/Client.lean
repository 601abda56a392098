import MuduoServer.Tcp.Basic

/-!
# A client and the connections it makes

The class `TcpClient` of `net/Tcp/TcpClient.cc` with all the connections it has made.  There is one
slot, `connection_`: `newConnection` overwrites it and `removeConnection` empties it, whatever it
holds.  The loop thread runs both, and both may be reached from within a user callback, so `stack`
is what the loop thread is in the middle of, innermost first.  Other threads are in `connect` at
any time and post a task when it succeeds.

A connection lives as long as somebody owns it: the slot, a user handle, a task that is bound to it,
or a function that the loop thread is in.  The assertion in its destructor is that it is down by
then.
-/

namespace MuduoServer

/-- The results of `sockets::connect` that `TcpClient::connect` tells apart. -/
inductive ConnectErrno where
  | ok
  | EISCONN
  | EINPROGRESS
  | EINTR
  | EAGAIN
  | EADDRINUSE
  | EADDRNOTAVAIL
  | ECONNREFUSED
  | ENETUNREACH
  | ETIMEDOUT
  | EPROTOTYPE
  | EACCES
  | ENOTSOCK
  | EFAULT
  | EBADF
  | EALREADY
  | EAFNOSUPPORT
  | other
  deriving DecidableEq, Repr

/-- What `TcpClient::connect` does next. -/
inductive ConnectOutcome where
  | newConnection
  | retry
  /-- `LOG_FATAL`, which aborts. -/
  | fatal
  deriving DecidableEq, Repr

/-- The `switch` of `TcpClient::connect`. -/
def ConnectErrno.outcome : ConnectErrno → ConnectOutcome
  | .EISCONN | .EINPROGRESS | .EINTR | .ok => .newConnection
  | .EAGAIN | .EADDRINUSE | .EADDRNOTAVAIL | .ECONNREFUSED | .ENETUNREACH | .ETIMEDOUT => .retry
  | .EPROTOTYPE | .EACCES | .ENOTSOCK | .EFAULT | .EBADF | .EALREADY | .EAFNOSUPPORT | .other =>
    .fatal

/-- The tasks of the client and its connections in the queue of the loop. -/
inductive ClientTask where
  | newConnection
  | forceCloseInLoop (c : ℕ)
  deriving DecidableEq, Repr

/-- The connection a task owns. -/
def ClientTask.conn? : ClientTask → Option ℕ
  | .newConnection => none
  | .forceCloseInLoop c => some c

/-- What the loop thread may be in the middle of. -/
inductive ClientFrame where
  /-- `TcpClient::connect`, before the result. -/
  | connect
  /-- `newConnection`, in the `connectionCallback_` of `connectEstablished`. -/
  | up (c : ℕ)
  /-- `handleClose`, in its `connectionCallback_`. -/
  | down (c : ℕ)
  /-- A dispatch, under the guard of `Channel::tie`. -/
  | dispatch (c : ℕ)
  deriving DecidableEq, Repr

namespace ClientFrame

/-- The connection a function of the loop thread owns. -/
def conn? : ClientFrame → Option ℕ
  | .connect => none
  | .up c | .down c | .dispatch c => some c

/-- A call of `handleClose` that has still to call `closeCallback_`. -/
def isDown : ClientFrame → Bool
  | .down _ => true
  | _ => false

end ClientFrame

/-- The client, the connections it has made with their `state_`, and what is under way. -/
structure TcpClient where
  connection : Option ℕ
  conns : List StateE
  tasks : List ClientTask
  /-- The timers that will call `retryInLoop`. -/
  retries : ℕ
  /-- The calls of `connect` in progress on other threads. -/
  connecting : ℕ
  stack : List ClientFrame
  /-- The `TcpConnectionPtr` that users hold. -/
  handles : ℕ → ℕ
  aborted : Bool

/-- The steps of the threads. -/
inductive ClientAct where
  /-- Another thread calls `connect`. -/
  | connect
  /-- The `connect` of another thread has its result. -/
  | connected (errn : ConnectErrno)
  /-- User code on the loop thread calls `connect`. -/
  | loopConnect
  /-- The `connect` of the loop thread has its result. -/
  | loopConnected (errn : ConnectErrno)
  /-- The next task. -/
  | runTask
  /-- A retry timer expires. -/
  | retryInLoop
  /-- The callback or the dispatch that the loop thread is in returns. -/
  | finish
  /-- The loop thread dispatches an event of a connection. -/
  | dispatch (c : ℕ)
  /-- The dispatch leads to `handleClose`. -/
  | handleClose (c : ℕ)
  /-- `forceClose` on any thread. -/
  | forceClose (c : ℕ)
  | takeHandle (c : ℕ)
  | dropHandle (c : ℕ)
  deriving DecidableEq, Repr

/-- What is seen of the client. -/
inductive ClientEvent where
  /-- `newConnection` has made connection `c`, and what the slot held before. -/
  | newConnection (c : ℕ) (old : Option ℕ)
  /-- `removeConnection(c)`, and what the slot held before. -/
  | removeConnection (c : ℕ) (old : Option ℕ)
  | retryInLoop
  /-- The end of `~TcpClient`. -/
  | destroyed
  deriving DecidableEq, Repr

namespace TcpClient

/-- The constructor. -/
def new : TcpClient where
  connection := none
  conns := []
  tasks := []
  retries := 0
  connecting := 0
  stack := []
  handles _ := 0
  aborted := false

/-- The connection is not `KDisconnected`. -/
def Live (s : TcpClient) (c : ℕ) : Prop := ∃ state ∈ s.conns[c]?, state ≠ .KDisconnected

/-- The test of `forceClose`, `forceCloseInLoop` and `handleClose`. -/
def Open (s : TcpClient) (c : ℕ) : Prop :=
  s.conns[c]? = some .KConnected ∨ s.conns[c]? = some .KDisconnecting

/-- Somebody owns the connection. -/
def Owned (s : TcpClient) (c : ℕ) : Prop :=
  s.connection = some c ∨ 0 < s.handles c ∨ (∃ task ∈ s.tasks, task.conn? = some c) ∨
    ∃ f ∈ s.stack, f.conn? = some c

instance (s : TcpClient) (c : ℕ) : Decidable (s.Live c) :=
  inferInstanceAs (Decidable (∃ state ∈ s.conns[c]?, state ≠ .KDisconnected))

instance (s : TcpClient) (c : ℕ) : Decidable (s.Open c) :=
  inferInstanceAs (Decidable (_ ∨ _))

instance (s : TcpClient) (c : ℕ) : Decidable (s.Owned c) :=
  inferInstanceAs (Decidable (_ ∨ _))

/-- `TcpClient::newConnection` up to the callback of `connectEstablished`. -/
def newConnection (s : TcpClient) : TcpClient × List ClientEvent :=
  let conn := s.conns.length
  ({ s with
    connection := some conn
    conns := s.conns ++ [.KConnected]
    stack := .up conn :: s.stack }, [.newConnection conn s.connection])

/-- `TcpClient::removeConnection`; `connectDestroyed` finds the connection down. -/
def removeConnection (s : TcpClient) (c : ℕ) : TcpClient × List ClientEvent :=
  ({ s with connection := none }, [.removeConnection c s.connection])

/-- `TcpConnection::forceClose`. -/
def forceClose (s : TcpClient) (c : ℕ) : TcpClient :=
  if s.Open c then
    { s with
      conns := s.conns.set c .KDisconnecting
      tasks := s.tasks ++ [.forceCloseInLoop c] }
  else s

/-- `TcpConnection::handleClose` up to its callback. -/
def handleClose (s : TcpClient) (c : ℕ) : TcpClient :=
  { s with
    conns := s.conns.set c .KDisconnected
    stack := .down c :: s.stack }

/-- `TcpClient::retry`. -/
def retry (s : TcpClient) : TcpClient := { s with retries := s.retries + 1 }

/-- The rest of `connect` on another thread: `runInLoop` queues. -/
def connected (s : TcpClient) (errn : ConnectErrno) : TcpClient × List ClientEvent :=
  match errn.outcome with
  | .newConnection => ({ s with tasks := s.tasks ++ [.newConnection] }, [])
  | .retry => (s.retry, [])
  | .fatal => ({ s with aborted := true }, [])

/-- The rest of `connect` on the loop thread: `runInLoop` calls at once. -/
def loopConnected (s : TcpClient) (errn : ConnectErrno) : TcpClient × List ClientEvent :=
  match errn.outcome with
  | .newConnection => s.newConnection
  | .retry => (s.retry, [])
  | .fatal => ({ s with aborted := true }, [])

/-- A task runs. -/
def run (s : TcpClient) : ClientTask → TcpClient × List ClientEvent
  | .newConnection => s.newConnection
  | .forceCloseInLoop c => (if s.Open c then s.handleClose c else s, [])

/-- The loop thread comes back from a callback or from a dispatch. -/
def leave (s : TcpClient) : ClientFrame → TcpClient × List ClientEvent
  -- the callback was followed by `closeCallback_`
  | .down c => s.removeConnection c
  | .connect | .up _ | .dispatch _ => (s, [])

/-- The loop thread is in user code or between two of its own steps. -/
def atUser (s : TcpClient) : Prop := s.stack.head? ≠ some .connect

instance (s : TcpClient) : Decidable s.atUser :=
  inferInstanceAs (Decidable (s.stack.head? ≠ some .connect))

/-- When a step can be taken. -/
def guard (s : TcpClient) : ClientAct → Prop
  | .connect => True
  | .connected _ => 0 < s.connecting
  | .loopConnect => s.atUser
  | .loopConnected _ => s.stack.head? = some .connect
  | .runTask => s.stack = [] ∧ s.tasks ≠ []
  | .retryInLoop => s.stack = [] ∧ 0 < s.retries
  | .finish => s.stack ≠ [] ∧ s.atUser
  | .dispatch c => s.stack = [] ∧ s.Owned c
  | .handleClose c => s.stack = [.dispatch c] ∧ s.Open c
  | .forceClose c => s.Owned c
  | .takeHandle c => s.Owned c
  | .dropHandle c => 0 < s.handles c

/-- Nothing follows an abort. -/
def pre (s : TcpClient) (act : ClientAct) : Prop := s.aborted = false ∧ s.guard act

instance (s : TcpClient) (act : ClientAct) : Decidable (s.pre act) := by
  unfold pre guard
  split <;> infer_instance

/-- The effect of a step. -/
def step (s : TcpClient) : ClientAct → TcpClient × List ClientEvent
  | .connect => ({ s with connecting := s.connecting + 1 }, [])
  | .connected errn => { s with connecting := s.connecting - 1 }.connected errn
  | .loopConnect => ({ s with stack := .connect :: s.stack }, [])
  | .loopConnected errn => { s with stack := s.stack.tail }.loopConnected errn
  | .runTask =>
    match s.tasks with
    | [] => (s, [])
    | task :: rest => { s with tasks := rest }.run task
  | .retryInLoop =>
    ({ s with retries := s.retries - 1, stack := .connect :: s.stack }, [.retryInLoop])
  | .finish =>
    match s.stack with
    | [] => (s, [])
    | f :: rest => { s with stack := rest }.leave f
  | .dispatch c => ({ s with stack := .dispatch c :: s.stack }, [])
  | .handleClose c => (s.handleClose c, [])
  | .forceClose c => (s.forceClose c, [])
  | .takeHandle c => ({ s with handles := Function.update s.handles c (s.handles c + 1) }, [])
  | .dropHandle c => ({ s with handles := Function.update s.handles c (s.handles c - 1) }, [])

/-- The events of a step.  `removeConnection` is called when the callback of `handleClose`
returns. -/
lemma mem_step_events {s : TcpClient} {act : ClientAct} {e : ClientEvent}
    (h : e ∈ (s.step act).2) : (∃ c old, e = .newConnection c old) ∨ e = .retryInLoop ∨
      ∃ c rest, s.stack = .down c :: rest ∧ e = .removeConnection c s.connection := by
  cases act with
  | connected errn =>
    simp only [step, connected] at h
    split at h <;> cases h
  | loopConnected errn =>
    simp only [step, loopConnected] at h
    split at h
    · exact Or.inl ⟨_, _, List.mem_singleton.mp h⟩
    · cases h
    · cases h
  | runTask =>
    simp only [step] at h
    split at h
    · cases h
    · next task rest _ =>
      cases task with
      | newConnection => exact Or.inl ⟨_, _, List.mem_singleton.mp h⟩
      | forceCloseInLoop c => cases h
  | retryInLoop => exact Or.inr (Or.inl (List.mem_singleton.mp h))
  | finish =>
    simp only [step] at h
    split at h
    · cases h
    · next f rest hstack =>
      cases f with
      | down c => exact Or.inr (Or.inr ⟨c, rest, hstack, List.mem_singleton.mp h⟩)
      | connect | up c | dispatch c => cases h
  | connect | loopConnect | dispatch c | handleClose c | forceClose c | takeHandle c
  | dropHandle c => cases h

end TcpClient

/-- All interleavings of the loop thread with the other threads, while the client exists. -/
def clientMachine : Machine TcpClient ClientAct ClientEvent where
  pre s act := s.pre act
  step s act := some (s.step act)

instance (s : TcpClient) (act : ClientAct) : Decidable (clientMachine.pre s act) :=
  inferInstanceAs (Decidable (s.pre act))

end MuduoServer
