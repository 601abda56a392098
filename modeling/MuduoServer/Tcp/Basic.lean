import MuduoServer.Buffer.Basic
import MuduoServer.Channel.Basic
import MuduoServer.Lib.Machine
import MuduoServer.Lib.MachineInt

/-!
# A connection on its loop

The class `TcpConnection` of `net/Tcp/TcpConnection.cc`, its channel, the tasks that concern it in
the queue of its loop, and its owner: a `TcpServer` on the same loop, a `TcpServer` on another loop,
or a `TcpClient`.  The functions are those of the source.  Whatever the kernel decides, the results
of `read` and `write`, comes from the caller; `none` is a failed `assert`.

A dispatch is not one step.  `handleEventWithGuard` goes through its four tests one after the other,
and while a user callback runs the loop thread may send and close again.  Other threads post tasks
and call `forceClose` at any moment.  `ConnPc` is where the loop thread stands.
-/

namespace MuduoServer

/-- `TcpConnection::StateE`. -/
inductive StateE where
  | KDisconnected
  | KConnecting
  | KConnected
  | KDisconnecting
  deriving DecidableEq, Repr

/-- The values of `errno` after `write` that the code tells apart. -/
inductive Errno where
  | EWOULDBLOCK
  | EPIPE
  | ECONNRESET
  | other
  deriving DecidableEq, Repr

/-- The result of `sockets::write`. -/
inductive WriteResult where
  /-- The kernel has taken the first `n` bytes. -/
  | ok (n : ℕ)
  | error (errno : Errno)
  deriving DecidableEq, Repr

/-- A result that a `write` of `len` bytes can have. -/
def WriteResult.Within (len : ℕ) : WriteResult → Prop
  | .ok n => n ≤ len
  | .error _ => True

instance (len : ℕ) (w : WriteResult) : Decidable (w.Within len) := by
  unfold WriteResult.Within
  split <;> infer_instance

/-- The data members of `TcpConnection`; of the callbacks, whether they are set. -/
structure TcpConnection where
  state : StateE
  channel : Channel
  inputBuffer : Buffer
  outputBuffer : Buffer
  highWaterMark : ℕ
  connectionCallback : Bool
  writeCompleteCallback : Bool
  highWaterMarkCallback : Bool

/-- The constructor, and the callbacks that `newConnection` and the user set afterwards. -/
def TcpConnection.new (address fd highWaterMark : ℕ)
    (connectionCallback writeCompleteCallback highWaterMarkCallback : Bool) : TcpConnection where
  state := .KConnecting
  channel := .new address fd
  inputBuffer := .new
  outputBuffer := .new
  highWaterMark := highWaterMark
  connectionCallback := connectionCallback
  writeCompleteCallback := writeCompleteCallback
  highWaterMarkCallback := highWaterMarkCallback

/-- The tasks in the queue of the loop that concern the connection. -/
inductive ConnTask (τ : Type) where
  | connectEstablished
  /-- `sendInLoop(message)`, posted by a thread. -/
  | sendInLoop (poster : τ) (message : List UInt8)
  | forceCloseInLoop
  | writeCompleteCallback
  | highWaterMarkCallback (size : ℕ)
  | connectDestroyed
  deriving DecidableEq, Repr

/-- Who made the connection. -/
inductive OwnerKind where
  | serverSameLoop
  | serverOtherLoop
  | client
  deriving DecidableEq, Repr

/-- The owner of the connection. -/
structure ConnOwner where
  kind : OwnerKind
  /-- `connections_` has the connection, or `connection_` points to it. -/
  holds : Bool
  /-- How many `removeConnectionInLoop` of it are in the queue of the server's loop. -/
  posted : ℕ
  deriving DecidableEq, Repr

/-- The tests of `handleEventWithGuard`, and its end. -/
inductive Phase where
  | close
  | error
  | read
  | write
  | done
  deriving DecidableEq, Repr

/-- Where the loop thread stands, as far as the connection is concerned. -/
inductive ConnPc where
  /-- In `newConnection`, before `connectEstablished`. -/
  | newConnection
  /-- Elsewhere. -/
  | idle
  /-- `poll` has returned the channel as active, and it is not its turn yet. -/
  | polled
  /-- In `handleEventWithGuard`. -/
  | phase (p : Phase)
  /-- In `connectionCallback_`, called by `connectEstablished`. -/
  | inUp
  /-- In `messageCallback_`. -/
  | inMessage
  /-- In `connectionCallback_`, called by `handleClose`, which then returns to the dispatch or to
  the task. -/
  | closing (k : Option Phase)
  deriving DecidableEq, Repr

/-- Where `handleClose` returns to. -/
def ConnPc.ofReturn : Option Phase → ConnPc
  | none => .idle
  | some p => .phase p

/-- A user callback of the connection is running. -/
def ConnPc.inCallback : ConnPc → Bool
  | .inUp | .inMessage | .closing _ => true
  | .newConnection | .idle | .polled | .phase _ => false

/-- What an observer can see.  The caller `none` is the loop thread. -/
inductive ConnEvent (τ : Type) where
  /-- `send(message)` is called. -/
  | called (caller : Option τ) (message : List UInt8)
  /-- `sendInLoop(const void*, size_t)` runs for the message. -/
  | bodyRan (caller : Option τ) (message : List UInt8)
  | setState (state : StateE)
  /-- `connectionCallback_` runs, and `connected()` is `up`. -/
  | connection (up : Bool)
  | message
  | close
  | writeComplete
  | highWaterMark (size : ℕ)
  deriving DecidableEq, Repr

/-- A connection, its loop and its owner. -/
structure ConnLoop (τ : Type) where
  conn : TcpConnection
  poller : EPollPoller
  dispatch : LoopDispatch
  tasks : List (ConnTask τ)
  /-- The bytes the kernel has taken from `write`. -/
  accepted : List UInt8
  owner : ConnOwner
  pc : ConnPc

namespace ConnLoop

variable {τ : Type}

/-- `loop_->queueInLoop(task)`. -/
def queueInLoop (s : ConnLoop τ) (task : ConnTask τ) : ConnLoop τ :=
  { s with tasks := s.tasks ++ [task] }

/-- Queueing under a condition changes only the queue. -/
lemma ite_queueInLoop (c : Prop) [Decidable c] (s : ConnLoop τ) (task : ConnTask τ) :
    (if c then s.queueInLoop task else s) =
      { s with tasks := s.tasks ++ if c then [task] else [] } := by
  split
  · rfl
  · rw [List.append_nil]

/-! ### Sending -/

/-- The local variables of `sendInLoop` after its direct write. -/
structure Direct where
  nwrote : ℕ
  remaining : ℕ
  faultError : Bool

/-- `sendInLoop` tries to write directly. -/
def writesDirectly (s : ConnLoop τ) : Prop :=
  ¬ s.conn.channel.isWriting ∧ s.conn.outputBuffer.readableBytes = 0

instance (s : ConnLoop τ) : Decidable s.writesDirectly := inferInstanceAs (Decidable (_ ∧ _))

/-- The first half of `sendInLoop`, with the result of the direct write, if there is one. -/
def direct (s : ConnLoop τ) (message : List UInt8) (len : ℕ) (w : WriteResult) :
    ConnLoop τ × Direct :=
  if s.writesDirectly then
    match w with
    | .ok n =>
      let s' := { s with accepted := s.accepted ++ message.take n }
      (if len - n = 0 ∧ s.conn.writeCompleteCallback then s'.queueInLoop .writeCompleteCallback
        else s', { nwrote := n, remaining := len - n, faultError := false })
    | .error errno =>
      (s, { nwrote := 0, remaining := len,
            faultError := decide (errno = .EPIPE ∨ errno = .ECONNRESET) })
  else (s, { nwrote := 0, remaining := len, faultError := false })

/-- The second half of `sendInLoop`: what is left goes to `outputBuffer_`. -/
def backlog (s : ConnLoop τ) (data : List UInt8) : Option (ConnLoop τ) := do
  let oldLen := s.conn.outputBuffer.readableBytes
  let s₁ :=
    if s.conn.highWaterMark ≤ oldLen + data.length ∧ oldLen < s.conn.highWaterMark ∧
        s.conn.highWaterMarkCallback then
      s.queueInLoop (.highWaterMarkCallback (oldLen + data.length))
    else s
  let outputBuffer ← s₁.conn.outputBuffer.append data
  let s₂ := { s₁ with conn := { s₁.conn with outputBuffer := outputBuffer } }
  if s₂.conn.channel.isWriting then some s₂
  else do
    let r ← s₂.conn.channel.enableWriting s₂.poller
    some { s₂ with poller := r.1, conn := { s₂.conn with channel := r.2 } }

/-- `sendInLoop(const void* message, size_t len)`; `none` also when it would read past the
message. -/
def sendInLoop (s : ConnLoop τ) (message : List UInt8) (len : ℕ) (w : WriteResult) :
    Option (ConnLoop τ) :=
  if message.length < len then none
  else if s.conn.state = .KDisconnected then some s
  else
    let r := s.direct message len w
    if r.2.remaining ≤ len then
      if r.2.faultError = false ∧ 0 < r.2.remaining then
        r.1.backlog ((message.drop r.2.nwrote).take r.2.remaining)
      else some r.1
    else none

/-- `send(const void* message, int len)` on the loop thread. -/
def send (s : ConnLoop τ) (message : List UInt8) (len : ℤ) (w : WriteResult) :
    Option (ConnLoop τ) :=
  s.sendInLoop message (sizeOfInt len) w

/-- `sendInLoop(const std::string& message)`. -/
def sendInLoopString (s : ConnLoop τ) (message : List UInt8) (w : WriteResult) :
    Option (ConnLoop τ) :=
  s.send message (intOfSize message.length) w

/-! ### Closing -/

/-- The states in which `forceClose` and `handleClose` have something to do. -/
def isOpen (s : ConnLoop τ) : Prop := s.conn.state = .KConnected ∨ s.conn.state = .KDisconnecting

instance (s : ConnLoop τ) : Decidable s.isOpen := inferInstanceAs (Decidable (_ ∨ _))

/-- `handleClose()`, up to the call of `connectionCallback_`. -/
def handleClose (s : ConnLoop τ) (k : Option Phase) :
    Option (ConnLoop τ × List (ConnEvent τ)) :=
  if s.isOpen then do
    let r ← s.conn.channel.disableAll s.poller
    some ({ s with
        poller := r.1
        conn := { s.conn with state := .KDisconnected, channel := r.2 }
        pc := .closing k },
      .setState .KDisconnected :: if s.conn.connectionCallback then [.connection false] else [])
  else none

/-- `forceCloseInLoop()`. -/
def forceCloseInLoop (s : ConnLoop τ) (k : Option Phase) :
    Option (ConnLoop τ × List (ConnEvent τ)) :=
  if s.isOpen then s.handleClose k else some ({ s with pc := .ofReturn k }, [])

/-- `forceClose()`. -/
def forceClose (s : ConnLoop τ) : ConnLoop τ × List (ConnEvent τ) :=
  if s.isOpen then
    ({ s with conn := { s.conn with state := .KDisconnecting } }.queueInLoop .forceCloseInLoop,
      [.setState .KDisconnecting])
  else (s, [])

/-- `connectEstablished()`, up to the call of `connectionCallback_`. -/
def connectEstablished (s : ConnLoop τ) : Option (ConnLoop τ × List (ConnEvent τ)) :=
  if s.conn.state = .KConnecting then do
    let r ← s.conn.channel.tie.enableReading s.poller
    some ({ s with
        poller := r.1
        conn := { s.conn with state := .KConnected, channel := r.2 }
        pc := .inUp },
      .setState .KConnected :: if s.conn.connectionCallback then [.connection true] else [])
  else none

/-- The first half of `connectDestroyed()`: a connection that is still up is taken down. -/
def takeDown (s : ConnLoop τ) : Option (ConnLoop τ × List (ConnEvent τ)) :=
  if s.conn.state = .KConnected then do
    let r ← s.conn.channel.disableAll s.poller
    some ({ s with poller := r.1, conn := { s.conn with state := .KDisconnected, channel := r.2 } },
      [.setState .KDisconnected, .connection false])
  else some (s, [])

/-- `connectDestroyed()`. -/
def connectDestroyed (s : ConnLoop τ) : Option (ConnLoop τ × List (ConnEvent τ)) := do
  let r₁ ← s.takeDown
  let r ← r₁.1.conn.channel.remove r₁.1.dispatch r₁.1.poller
  some ({ r₁.1 with poller := r.1, conn := { r₁.1.conn with channel := r.2 } }, r₁.2)

/-- `TcpServer::removeConnectionInLoop(conn)`. -/
def removeConnectionInLoop (s : ConnLoop τ) : Option (ConnLoop τ) :=
  if s.owner.holds then
    some ({ s with owner := { s.owner with holds := false } }.queueInLoop .connectDestroyed)
  else none

/-- `closeCallback_(conn)`: `TcpServer::removeConnection` or `TcpClient::removeConnection`. -/
def closeCallback (s : ConnLoop τ) : Option (ConnLoop τ × List (ConnEvent τ)) :=
  match s.owner.kind with
  | .serverSameLoop => s.removeConnectionInLoop.map fun s' => (s', [])
  | .serverOtherLoop =>
    some ({ s with owner := { s.owner with posted := s.owner.posted + 1 } }, [])
  | .client => { s with owner := { s.owner with holds := false } }.connectDestroyed

/-! ### The callbacks of the channel -/

/-- `handleRead(receiveTime)`, up to the call of `messageCallback_`. -/
def handleRead (s : ConnLoop τ) (result : ReadResult) :
    Option (ConnLoop τ × List (ConnEvent τ)) := do
  let r ← s.conn.inputBuffer.readFd result
  let s₁ := { s with conn := { s.conn with inputBuffer := r.1 } }
  if 0 < r.2.1 then some ({ s₁ with pc := .inMessage }, [.message])
  else if r.2.1 = 0 then s₁.handleClose (some .write)
  else some ({ s₁ with pc := .phase .write }, [])

/-- The end of `handleWrite()` when `outputBuffer_` has been emptied. -/
def writeComplete (s : ConnLoop τ) : Option (ConnLoop τ × List (ConnEvent τ)) := do
  let r ← s.conn.channel.disableWriting s.poller
  let s₁ := { s with poller := r.1, conn := { s.conn with channel := r.2 } }
  let s₂ := if s.conn.writeCompleteCallback then s₁.queueInLoop .writeCompleteCallback else s₁
  if s.conn.state = .KDisconnecting then s₂.forceCloseInLoop (some .done) else some (s₂, [])

/-- `handleWrite()`. -/
def handleWrite (s : ConnLoop τ) (w : WriteResult) : Option (ConnLoop τ × List (ConnEvent τ)) :=
  if s.conn.channel.isWriting then
    match w with
    | .error _ => some ({ s with pc := .phase .done }, [])
    | .ok n =>
      if 0 < n then do
        let outputBuffer ← s.conn.outputBuffer.retrieve n
        let request := s.conn.outputBuffer.peek s.conn.outputBuffer.readableBytes
        let s₁ := { s with
          accepted := s.accepted ++ request.take n
          conn := { s.conn with outputBuffer := outputBuffer }
          pc := .phase .done }
        if outputBuffer.readableBytes = 0 then s₁.writeComplete else some (s₁, [])
      else some ({ s with pc := .phase .done }, [])
  else some ({ s with pc := .phase .done }, [])

/-! ### The steps -/

/-- The state after `newConnection` has made the connection: on the loop of the caller
`connectEstablished` comes next, on another loop it has been posted.  `handling` says whether the
loop thread is dispatching some other channel. -/
def newConnection (kind : OwnerKind) (conn : TcpConnection) (poller : EPollPoller)
    (handling : Bool) : ConnLoop τ where
  conn := conn
  poller := poller
  dispatch := { eventHandling := handling, currentActiveChannel := none, activeChannels := [] }
  tasks := if kind = .serverOtherLoop then [.connectEstablished] else []
  accepted := []
  owner := { kind := kind, holds := true, posted := 0 }
  pc := if kind = .serverOtherLoop then .idle else .newConnection

/-- The loop thread can be in user code that knows the connection. -/
def inUserCode (s : ConnLoop τ) : Prop :=
  match s.pc with
  | .idle | .polled => s.conn.state ≠ .KConnecting
  | .inUp | .inMessage | .closing _ => True
  | .newConnection | .phase _ => False

instance (s : ConnLoop τ) : Decidable s.inUserCode := by
  unfold inUserCode
  split <;> infer_instance

end ConnLoop

/-- What `epoll_wait` can report of a connected socket that is monitored for `events`: registered
events, errors and hang-ups, and a hang-up comes with `EPOLLIN` if that is registered. -/
structure EpollReports (events revents : Events) : Prop where
  nonempty : revents ≠ ∅
  subset : revents ⊆ events ∪ {.EPOLLERR, .EPOLLHUP}
  hup : EpollFlag.EPOLLHUP ∈ revents → EpollFlag.EPOLLIN ∈ events → EpollFlag.EPOLLIN ∈ revents

instance (events revents : Events) : Decidable (EpollReports events revents) :=
  decidable_of_iff (revents ≠ ∅ ∧ revents ⊆ events ∪ {.EPOLLERR, .EPOLLHUP} ∧
      (EpollFlag.EPOLLHUP ∈ revents → EpollFlag.EPOLLIN ∈ events → EpollFlag.EPOLLIN ∈ revents))
    ⟨fun h => ⟨h.1, h.2.1, h.2.2⟩, fun h => ⟨h.1, h.2, h.3⟩⟩

/-- A result that `readv` can have on the buffer. -/
def ReadResult.Within (b : Buffer) : ReadResult → Prop
  | .data bytes => bytes.length ≤ b.readvCapacity
  | .error _ => True

instance (b : Buffer) (r : ReadResult) : Decidable (r.Within b) := by
  unfold ReadResult.Within
  split <;> infer_instance

/-- The steps of the loop thread, of the server's loop and of the other threads. -/
inductive ConnAct (τ : Type) where
  /-- Another thread calls `send`, which posts a copy. -/
  | postSend (caller : τ) (message : List UInt8)
  /-- The loop thread calls `send`; `w` is the result of the direct write. -/
  | send (message : List UInt8) (w : WriteResult)
  /-- Any thread calls `forceClose`. -/
  | forceClose
  /-- User code on the loop thread takes bytes out of `inputBuffer()`. -/
  | retrieve (len : ℕ)
  /-- `newConnection` calls `connectEstablished` itself. -/
  | connectEstablished
  /-- The loop thread runs the next task; `w` is the result of its direct write, if it has one. -/
  | runTask (w : WriteResult)
  /-- The server's loop, another one, runs `removeConnectionInLoop`. -/
  | removeConnectionInLoop
  /-- `poll` returns the channel with these events. -/
  | poll (revents : Events)
  /-- `poll` returns without the channel. -/
  | pollOther
  /-- All active channels have been dispatched. -/
  | endHandling
  /-- `handleEvent` of the channel begins; the weak pointer to the connection can be locked. -/
  | handleEvent
  /-- The tests of `handleEventWithGuard`. -/
  | testClose
  | testError
  | testRead (r : ReadResult)
  | testWrite (w : WriteResult)
  | endEvent
  /-- The user callback that is running returns. -/
  | callbackReturns

namespace ConnLoop

variable {τ : Type}

/-- The next task can have the result `w` for its direct write. -/
def taskWithin (s : ConnLoop τ) (w : WriteResult) : Prop :=
  match s.tasks with
  | [] => False
  | .sendInLoop _ message :: _ => w.Within message.length
  | _ :: _ => True

instance (s : ConnLoop τ) (w : WriteResult) : Decidable (s.taskWithin w) := by
  unfold taskWithin
  split <;> infer_instance

/-- When a step can be taken. -/
def pre (s : ConnLoop τ) : ConnAct τ → Prop
  | .postSend _ message => message.length < 2 ^ 31
  | .send message w => s.inUserCode ∧ message.length < 2 ^ 31 ∧ w.Within message.length
  | .forceClose => True
  | .retrieve len => s.inUserCode ∧ len ≤ s.conn.inputBuffer.readableBytes
  | .connectEstablished => s.pc = .newConnection
  | .runTask w => s.pc = .idle ∧ s.dispatch.eventHandling = false ∧ s.taskWithin w
  | .removeConnectionInLoop => 0 < s.owner.posted
  | .poll revents => s.pc = .idle ∧ s.dispatch.eventHandling = false ∧
      ∃ events ∈ s.poller.interest s.conn.channel.fd, EpollReports events revents
  | .pollOther => s.pc = .idle ∧ s.dispatch.eventHandling = false
  | .endHandling => s.pc = .idle ∧ s.dispatch.eventHandling = true
  | .handleEvent => s.pc = .polled
  | .testClose => s.pc = .phase .close
  | .testError => s.pc = .phase .error
  | .testRead r => s.pc = .phase .read ∧ r.Within s.conn.inputBuffer
  | .testWrite w => s.pc = .phase .write ∧ w.Within s.conn.outputBuffer.readableBytes
  | .endEvent => s.pc = .phase .done
  | .callbackReturns => s.pc.inCallback = true

instance (s : ConnLoop τ) (act : ConnAct τ) : Decidable (s.pre act) := by
  unfold pre
  split <;> infer_instance

/-- The effect of running the next task. -/
def runTask (s : ConnLoop τ) (w : WriteResult) : Option (ConnLoop τ × List (ConnEvent τ)) :=
  match s.tasks with
  | [] => some (s, [])
  | task :: tasks =>
    let s₁ := { s with tasks := tasks }
    match task with
    | .connectEstablished => s₁.connectEstablished
    | .sendInLoop poster message =>
      (s₁.sendInLoopString message w).map fun s' => (s', [.bodyRan (some poster) message])
    | .forceCloseInLoop => s₁.forceCloseInLoop none
    | .writeCompleteCallback => some (s₁, [.writeComplete])
    | .highWaterMarkCallback size => some (s₁, [.highWaterMark size])
    | .connectDestroyed => s₁.connectDestroyed

/-- The effect of the end of a user callback. -/
def callbackReturns (s : ConnLoop τ) : Option (ConnLoop τ × List (ConnEvent τ)) :=
  match s.pc with
  | .inUp => some ({ s with pc := .idle }, [])
  | .inMessage => some ({ s with pc := .phase .write }, [])
  | .closing k =>
    let s₁ : ConnLoop τ := { s with pc := .ofReturn k }
    s₁.closeCallback.map fun r => (r.1, .close :: r.2)
  | _ => some (s, [])

/-- The effect of a step. -/
def step (s : ConnLoop τ) : ConnAct τ → Option (ConnLoop τ × List (ConnEvent τ))
  | .postSend caller message =>
    some (s.queueInLoop (.sendInLoop caller message), [.called (some caller) message])
  | .send message w =>
    (s.send message message.length w).map fun s' =>
      (s', [.called none message, .bodyRan none message])
  | .forceClose => some s.forceClose
  | .retrieve len => do
    let inputBuffer ← s.conn.inputBuffer.retrieve len
    some ({ s with conn := { s.conn with inputBuffer := inputBuffer } }, [])
  | .connectEstablished => s.connectEstablished
  | .runTask w => s.runTask w
  | .removeConnectionInLoop =>
    { s with owner := { s.owner with posted := s.owner.posted - 1 } }.removeConnectionInLoop.map
      fun s' => (s', [])
  | .poll revents =>
    some ({ s with
        conn := { s.conn with channel := { s.conn.channel with revents := revents } }
        dispatch :=
          { eventHandling := true
            currentActiveChannel := none
            activeChannels := [s.conn.channel.address] }
        pc := .polled }, [])
  | .pollOther =>
    some ({ s with dispatch :=
      { eventHandling := true, currentActiveChannel := none, activeChannels := [] } }, [])
  | .endHandling =>
    some ({ s with dispatch :=
      { s.dispatch with eventHandling := false, currentActiveChannel := none } }, [])
  | .handleEvent =>
    some ({ s with
        conn := { s.conn with channel := { s.conn.channel with eventHandling := true } }
        dispatch := { s.dispatch with currentActiveChannel := some s.conn.channel.address }
        pc := .phase .close }, [])
  | .testClose =>
    if .EPOLLHUP ∈ s.conn.channel.revents ∧ .EPOLLIN ∉ s.conn.channel.revents then
      s.handleClose (some .error)
    else some ({ s with pc := .phase .error }, [])
  | .testError => some ({ s with pc := .phase .read }, [])
  | .testRead r =>
    if s.conn.channel.revents ∩ {.EPOLLIN, .EPOLLPRI, .EPOLLRDHUP} ≠ ∅ then s.handleRead r
    else some ({ s with pc := .phase .write }, [])
  | .testWrite w =>
    if .EPOLLOUT ∈ s.conn.channel.revents then s.handleWrite w
    else some ({ s with pc := .phase .done }, [])
  | .endEvent =>
    some ({ s with
        conn := { s.conn with channel := { s.conn.channel with eventHandling := false } }
        dispatch := { s.dispatch with currentActiveChannel := none }
        pc := .idle }, [])
  | .callbackReturns => s.callbackReturns

/-! ### What the functions do

When a function has succeeded, its result has one of these forms.  Every proof about the functions
of a connection starts from here. -/

section Inversion

variable {s s' : ConnLoop τ} {out : List (ConnEvent τ)}

/-- The backlog that could be appended: the high water mark is tested first, the interest comes
last. -/
lemma backlog_eq_some {data : List UInt8} (h : s.backlog data = some s') :
    ∃ b s₁, s.conn.outputBuffer.append data = some b ∧
      s₁ = { s with
        tasks := s.tasks ++
          if s.conn.highWaterMark ≤ s.conn.outputBuffer.readableBytes + data.length ∧
              s.conn.outputBuffer.readableBytes < s.conn.highWaterMark ∧
              s.conn.highWaterMarkCallback then
            [.highWaterMarkCallback (s.conn.outputBuffer.readableBytes + data.length)]
          else []
        conn := { s.conn with outputBuffer := b } } ∧
      ((s.conn.channel.isWriting ∧ s' = s₁) ∨
        ¬ s.conn.channel.isWriting ∧ ∃ r, s.conn.channel.enableWriting s.poller = some r ∧
          s' = { s₁ with poller := r.1, conn := { s₁.conn with channel := r.2 } }) := by
  unfold backlog at h
  simp only [ite_queueInLoop] at h
  obtain ⟨b, hb, h⟩ := Option.bind_eq_some_iff.mp h
  refine ⟨b, _, hb, rfl, ?_⟩
  split at h
  · next hwriting => exact Or.inl ⟨hwriting, (Option.some.inj h).symm⟩
  · next hwriting =>
    obtain ⟨r, hr, h⟩ := Option.bind_eq_some_iff.mp h
    exact Or.inr ⟨hwriting, r, hr, (Option.some.inj h).symm⟩

/-- `sendInLoop` does nothing for a connection that is down, and else tries the write and keeps the
rest. -/
lemma sendInLoop_eq_some {message : List UInt8} {len : ℕ} {w : WriteResult}
    (h : s.sendInLoop message len w = some s') :
    len ≤ message.length ∧ ((s.conn.state = .KDisconnected ∧ s' = s) ∨
      s.conn.state ≠ .KDisconnected ∧ ∃ r, s.direct message len w = r ∧ r.2.remaining ≤ len ∧
        ((r.2.faultError = false ∧ 0 < r.2.remaining ∧
            r.1.backlog ((message.drop r.2.nwrote).take r.2.remaining) = some s') ∨
          ¬ (r.2.faultError = false ∧ 0 < r.2.remaining) ∧ s' = r.1)) := by
  obtain ⟨hlen, h⟩ := Option.ite_none_left_eq_some.mp h
  refine ⟨not_lt.mp hlen, ?_⟩
  split at h
  · next hstate => exact Or.inl ⟨hstate, (Option.some.inj h).symm⟩
  · next hstate =>
    obtain ⟨hremaining, h⟩ := Option.ite_none_right_eq_some.mp h
    refine Or.inr ⟨hstate, _, rfl, hremaining, ?_⟩
    split at h
    · next hleft => exact Or.inl ⟨hleft.1, hleft.2, h⟩
    · next hleft => exact Or.inr ⟨hleft, (Option.some.inj h).symm⟩

/-- `forceClose` of an open connection stores the state and queues; otherwise it does nothing. -/
lemma forceClose_eq (h : s.forceClose = (s', out)) :
    (s.isOpen ∧
      s' = { s with conn := { s.conn with state := .KDisconnecting } }.queueInLoop
        .forceCloseInLoop ∧ out = [.setState .KDisconnecting]) ∨
      ¬ s.isOpen ∧ s' = s ∧ out = [] := by
  unfold forceClose at h
  split at h
  · next hopen =>
    obtain ⟨rfl, rfl⟩ := Prod.mk.inj h
    exact Or.inl ⟨hopen, rfl, rfl⟩
  · next hopen =>
    obtain ⟨rfl, rfl⟩ := Prod.mk.inj h
    exact Or.inr ⟨hopen, rfl, rfl⟩

/-- `handleClose` that passes its assert withdraws all events and goes into the callbacks. -/
lemma handleClose_eq_some {k : Option Phase} (h : s.handleClose k = some (s', out)) :
    s.isOpen ∧ ∃ r, s.conn.channel.disableAll s.poller = some r ∧
      s' = { s with
        poller := r.1
        conn := { s.conn with state := .KDisconnected, channel := r.2 }
        pc := .closing k } ∧
      out = .setState .KDisconnected ::
        if s.conn.connectionCallback then [.connection false] else [] := by
  obtain ⟨hopen, h⟩ := Option.ite_none_right_eq_some.mp h
  obtain ⟨r, hr, h⟩ := Option.bind_eq_some_iff.mp h
  obtain ⟨rfl, rfl⟩ := Prod.mk.inj (Option.some.inj h)
  exact ⟨hopen, r, hr, rfl, rfl⟩

/-- `forceCloseInLoop` is `handleClose` of an open connection, and else it returns. -/
lemma forceCloseInLoop_eq_some {k : Option Phase} (h : s.forceCloseInLoop k = some (s', out)) :
    s.handleClose k = some (s', out) ∨
      ¬ s.isOpen ∧ s' = { s with pc := .ofReturn k } ∧ out = [] := by
  unfold forceCloseInLoop at h
  split at h
  · exact Or.inl h
  · next hopen =>
    obtain ⟨rfl, rfl⟩ := Prod.mk.inj (Option.some.inj h)
    exact Or.inr ⟨hopen, rfl, rfl⟩

/-- `connectEstablished` that passes its assert ties the channel and enables reading. -/
lemma connectEstablished_eq_some (h : s.connectEstablished = some (s', out)) :
    s.conn.state = .KConnecting ∧ ∃ r, s.conn.channel.tie.enableReading s.poller = some r ∧
      s' = { s with
        poller := r.1
        conn := { s.conn with state := .KConnected, channel := r.2 }
        pc := .inUp } ∧
      out = .setState .KConnected ::
        if s.conn.connectionCallback then [.connection true] else [] := by
  obtain ⟨hstate, h⟩ := Option.ite_none_right_eq_some.mp h
  obtain ⟨r, hr, h⟩ := Option.bind_eq_some_iff.mp h
  obtain ⟨rfl, rfl⟩ := Prod.mk.inj (Option.some.inj h)
  exact ⟨hstate, r, hr, rfl, rfl⟩

/-- `connectDestroyed` takes a connection in `KConnected` down itself, and no other. -/
lemma takeDown_eq_some (h : s.takeDown = some (s', out)) :
    (s.conn.state = .KConnected ∧ ∃ r, s.conn.channel.disableAll s.poller = some r ∧
      s' = { s with
        poller := r.1
        conn := { s.conn with state := .KDisconnected, channel := r.2 } } ∧
      out = [.setState .KDisconnected, .connection false]) ∨
    s.conn.state ≠ .KConnected ∧ s' = s ∧ out = [] := by
  unfold takeDown at h
  split at h
  · next hstate =>
    obtain ⟨r, hr, h⟩ := Option.bind_eq_some_iff.mp h
    obtain ⟨rfl, rfl⟩ := Prod.mk.inj (Option.some.inj h)
    exact Or.inl ⟨hstate, r, hr, rfl, rfl⟩
  · next hstate =>
    obtain ⟨rfl, rfl⟩ := Prod.mk.inj (Option.some.inj h)
    exact Or.inr ⟨hstate, rfl, rfl⟩

/-- `connectDestroyed` ends with `remove()`. -/
lemma connectDestroyed_eq_some (h : s.connectDestroyed = some (s', out)) :
    ∃ s₁ r, s.takeDown = some (s₁, out) ∧
      s₁.conn.channel.remove s₁.dispatch s₁.poller = some r ∧
      s' = { s₁ with poller := r.1, conn := { s₁.conn with channel := r.2 } } := by
  obtain ⟨⟨s₁, out₁⟩, hs₁, h⟩ := Option.bind_eq_some_iff.mp h
  obtain ⟨r, hr, h⟩ := Option.bind_eq_some_iff.mp h
  obtain ⟨rfl, rfl⟩ := Prod.mk.inj (Option.some.inj h)
  exact ⟨s₁, r, hs₁, hr, rfl⟩

/-- `removeConnectionInLoop` erases the connection and queues `connectDestroyed`. -/
lemma removeConnectionInLoop_eq_some (h : s.removeConnectionInLoop = some s') :
    s.owner.holds = true ∧
      s' = { s with owner := { s.owner with holds := false } }.queueInLoop .connectDestroyed := by
  obtain ⟨hholds, h⟩ := Option.ite_none_right_eq_some.mp h
  exact ⟨hholds, (Option.some.inj h).symm⟩

/-- The close callback of the three owners. -/
lemma closeCallback_eq_some (h : s.closeCallback = some (s', out)) :
    (s.owner.kind = .serverSameLoop ∧ s.removeConnectionInLoop = some s' ∧ out = []) ∨
      (s.owner.kind = .serverOtherLoop ∧
        s' = { s with owner := { s.owner with posted := s.owner.posted + 1 } } ∧ out = []) ∨
      s.owner.kind = .client ∧
        { s with owner := { s.owner with holds := false } }.connectDestroyed = some (s', out) := by
  unfold closeCallback at h
  split at h
  · next hkind =>
    obtain ⟨s₁, hs₁, heq⟩ := Option.map_eq_some_iff.mp h
    obtain ⟨rfl, rfl⟩ := Prod.mk.inj heq
    exact Or.inl ⟨hkind, hs₁, rfl⟩
  · next hkind =>
    obtain ⟨rfl, rfl⟩ := Prod.mk.inj (Option.some.inj h)
    exact Or.inr (Or.inl ⟨hkind, rfl, rfl⟩)
  · next hkind => exact Or.inr (Or.inr ⟨hkind, h⟩)

/-- `handleRead` has three ways on: data, the end of the stream, and an error. -/
lemma handleRead_eq_some {result : ReadResult} (h : s.handleRead result = some (s', out)) :
    ∃ r, s.conn.inputBuffer.readFd result = some r ∧
      ((s' = { s with conn := { s.conn with inputBuffer := r.1 }, pc := .inMessage } ∧
          out = [.message]) ∨
        (r.2.1 = 0 ∧ { s with conn := { s.conn with inputBuffer := r.1 } }.handleClose
          (some .write) = some (s', out)) ∨
        (s' = { s with conn := { s.conn with inputBuffer := r.1 }, pc := .phase .write } ∧
          out = [])) := by
  obtain ⟨r, hr, h⟩ := Option.bind_eq_some_iff.mp h
  refine ⟨r, hr, ?_⟩
  split at h
  · obtain ⟨rfl, rfl⟩ := Prod.mk.inj (Option.some.inj h)
    exact Or.inl ⟨rfl, rfl⟩
  · split at h
    · next hzero => exact Or.inr (Or.inl ⟨hzero, h⟩)
    · obtain ⟨rfl, rfl⟩ := Prod.mk.inj (Option.some.inj h)
      exact Or.inr (Or.inr ⟨rfl, rfl⟩)

/-- After the last byte writing is disabled, the callback queued and, in `KDisconnecting`, the
connection closed. -/
lemma writeComplete_eq_some (h : s.writeComplete = some (s', out)) :
    ∃ r s₁, s.conn.channel.disableWriting s.poller = some r ∧
      s₁ = { s with
        poller := r.1
        conn := { s.conn with channel := r.2 }
        tasks := s.tasks ++
          if s.conn.writeCompleteCallback = true then [.writeCompleteCallback] else [] } ∧
      ((s.conn.state = .KDisconnecting ∧ s₁.forceCloseInLoop (some .done) = some (s', out)) ∨
        s.conn.state ≠ .KDisconnecting ∧ s' = s₁ ∧ out = []) := by
  obtain ⟨r, hr, h⟩ := Option.bind_eq_some_iff.mp h
  simp only [ite_queueInLoop] at h
  refine ⟨r, _, hr, rfl, ?_⟩
  split at h
  · next hstate => exact Or.inl ⟨hstate, h⟩
  · next hstate =>
    obtain ⟨rfl, rfl⟩ := Prod.mk.inj (Option.some.inj h)
    exact Or.inr ⟨hstate, rfl, rfl⟩

/-- `handleWrite` retrieves what has been written, or has written nothing. -/
lemma handleWrite_eq_some {w : WriteResult} (h : s.handleWrite w = some (s', out)) :
    (∃ n b s₁, s.conn.channel.isWriting ∧ w = .ok n ∧ 0 < n ∧
      s.conn.outputBuffer.retrieve n = some b ∧
      s₁ = { s with
        accepted := s.accepted ++
          (s.conn.outputBuffer.peek s.conn.outputBuffer.readableBytes).take n
        conn := { s.conn with outputBuffer := b }
        pc := .phase .done } ∧
      ((b.readableBytes = 0 ∧ s₁.writeComplete = some (s', out)) ∨
        b.readableBytes ≠ 0 ∧ s' = s₁ ∧ out = [])) ∨
    s' = { s with pc := .phase .done } ∧ out = [] := by
  unfold handleWrite at h
  split at h
  · next hwriting =>
    cases w with
    | error errno =>
      obtain ⟨rfl, rfl⟩ := Prod.mk.inj (Option.some.inj h)
      exact Or.inr ⟨rfl, rfl⟩
    | ok n =>
      dsimp only at h
      split at h
      · next hn =>
        obtain ⟨b, hb, h⟩ := Option.bind_eq_some_iff.mp h
        refine Or.inl ⟨n, b, _, hwriting, rfl, hn, hb, rfl, ?_⟩
        split at h
        · next hzero => exact Or.inl ⟨hzero, h⟩
        · next hzero =>
          obtain ⟨rfl, rfl⟩ := Prod.mk.inj (Option.some.inj h)
          exact Or.inr ⟨hzero, rfl, rfl⟩
      · obtain ⟨rfl, rfl⟩ := Prod.mk.inj (Option.some.inj h)
        exact Or.inr ⟨rfl, rfl⟩
  · obtain ⟨rfl, rfl⟩ := Prod.mk.inj (Option.some.inj h)
    exact Or.inr ⟨rfl, rfl⟩

/-- Where the loop thread goes on when a callback of the user has returned. -/
lemma callbackReturns_eq_some (h : s.callbackReturns = some (s', out)) :
    (s.pc = .inUp ∧ s' = { s with pc := .idle } ∧ out = []) ∨
      (s.pc = .inMessage ∧ s' = { s with pc := .phase .write } ∧ out = []) ∨
      (∃ k out', s.pc = .closing k ∧
        { s with pc := .ofReturn k }.closeCallback = some (s', out') ∧ out = .close :: out') ∨
      (s.pc.inCallback = false ∧ s' = s ∧ out = []) := by
  unfold callbackReturns at h
  split at h
  · next hpc =>
    obtain ⟨rfl, rfl⟩ := Prod.mk.inj (Option.some.inj h)
    exact Or.inl ⟨hpc, rfl, rfl⟩
  · next hpc =>
    obtain ⟨rfl, rfl⟩ := Prod.mk.inj (Option.some.inj h)
    exact Or.inr (Or.inl ⟨hpc, rfl, rfl⟩)
  · next k hpc =>
    obtain ⟨r, hr, heq⟩ := Option.map_eq_some_iff.mp h
    obtain ⟨rfl, rfl⟩ := Prod.mk.inj heq
    exact Or.inr (Or.inr (Or.inl ⟨k, r.2, hpc, hr, rfl⟩))
  · next hup hmessage hclosing =>
    obtain ⟨rfl, rfl⟩ := Prod.mk.inj (Option.some.inj h)
    refine Or.inr (Or.inr (Or.inr ⟨?_, rfl, rfl⟩))
    cases hpc : s.pc with
    | inUp => exact absurd hpc hup
    | inMessage => exact absurd hpc hmessage
    | closing k => exact absurd hpc (hclosing k)
    | newConnection | idle | polled | phase => rfl

end Inversion

end ConnLoop

/-- All runs of a connection. -/
def connMachine (τ : Type) : Machine (ConnLoop τ) (ConnAct τ) (ConnEvent τ) where
  pre s act := s.pre act
  step s act := s.step act

instance {τ : Type} (s : ConnLoop τ) (act : ConnAct τ) : Decidable ((connMachine τ).pre s act) :=
  inferInstanceAs (Decidable (s.pre act))

end MuduoServer
