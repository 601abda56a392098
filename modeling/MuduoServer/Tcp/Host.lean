import MuduoServer.Tcp.Footprint
import MuduoServer.Timer.Loop

/-!
# A loop and everything on it

One `EventLoop` with all its channels: those of the wakeup descriptor, of the timer queue and of the
acceptors, and those of any number of connections, of servers and of clients.  `poll` writes raw
pointers to channels into `activeChannels_`, and while the loop goes through them, connections come
and go: a client's connection is removed inside its own dispatch, and with the last reference its
`Socket` goes, so that the next `accept` may get the same descriptor, and the next channel the same
memory.

A function of a connection runs here as it does in `ConnLoop`: on the `view` that the connection has
of the loop, after which the parts are `put` back.  Nothing else may happen to the poller or to the
table `channels_`.  Whether a connection is alive is decided by the references that the library
holds; a user who holds one more only lets it live longer.  A thread that sends from outside keeps
its reference until the posted `sendInLoop`, which has only a bare pointer, has run.  A callback
that is not set is one that does nothing.  `startRead` and `stopRead` are not among the steps, and
`forceClose` reads and writes `state_` in one step.
-/

namespace MuduoServer

/-- `set_revents(revt)`. -/
def Channel.setRevents (c : Channel) (revents : Events) : Channel := { c with revents := revents }

/-- The flag that `handleEventWithGuard` sets while it runs. -/
def Channel.setEventHandling (c : Channel) (eventHandling : Bool) : Channel :=
  { c with eventHandling := eventHandling }

/-- Whose channel it is, if not a connection's. -/
inductive LoopChannel where
  | wakeup
  | timer
  | acceptor
  deriving DecidableEq, Repr

/-- A functor in the queue of the loop. -/
inductive HostTask where
  /-- A function of the connection whose channel is at the address `a`. -/
  | conn (a : ℕ) (task : ConnTask Unit)
  /-- Any other one. -/
  | user

/-- A connection, and what its owner holds of it. -/
structure Hosted where
  conn : TcpConnection
  owner : ConnOwner

/-- The part of `EventLoop::loop` that is being executed. -/
inductive LoopStage where
  /-- At the top of the `while`, or not in `loop()` at all. -/
  | top
  /-- In `poll`. -/
  | poll
  /-- In the traversal of `activeChannels_`. -/
  | handle
  /-- In `doPendingFunctors`. -/
  | functors
  deriving DecidableEq, Repr

/-- What the loop thread is doing there, when it is not in a function of a connection. -/
inductive HostFrame where
  | loop
  /-- In `handleEvent` of the channel at the address `a`, which is not a connection's. -/
  | event (a : ℕ)
  /-- In a functor. -/
  | functor
  deriving DecidableEq, Repr

/-- A loop with its channels, named by address. -/
structure LoopHost where
  poller : EPollPoller
  /-- The pointers `data.ptr` in the interest list of the kernel. -/
  ptr : ℕ → Option ℕ
  dispatch : LoopDispatch
  /-- The part of `activeChannels_` that has not been reached. -/
  turn : List ℕ
  stage : LoopStage
  frame : HostFrame
  /-- The function of a connection in which the loop thread is. -/
  inside : Option (ℕ × ConnPc)
  /-- The functors that `doPendingFunctors` has swapped out and not run yet. -/
  functors : List HostTask
  pendingFunctors : List HostTask
  conns : ℕ → Option Hosted
  channels : ℕ → Option (LoopChannel × Channel)
  /-- The descriptors that are open. -/
  fds : ℕ → Bool
  timers : TimerLoop

/-- What can happen. -/
inductive HostAct where
  /-- The channel of the wakeup descriptor, of a timer queue or of an acceptor is made. -/
  | construct (k : LoopChannel) (a fd : ℕ)
  /-- It is enabled, by the constructor or by `Acceptor::listen`. -/
  | enableReading (a : ℕ)
  /-- `newConnection` makes a `TcpConnection`. -/
  | newConnection (kind : OwnerKind) (a fd highWaterMark : ℕ)
      (writeCompleteCallback highWaterMarkCallback : Bool)
  /-- A step of a function of the connection `a`, or a call of one. -/
  | conn (a : ℕ) (act : ConnAct Unit)
  /-- `queueInLoop` of something else. -/
  | queueInLoop
  /-- A step of the timer queue. -/
  | timer (act : TimerAct)
  | poll
  /-- `poll` finds an event for the descriptor. -/
  | report (fd : ℕ) (revents : Events)
  /-- `poll` returns, and the traversal begins. -/
  | beginHandling
  /-- The next channel has its turn. -/
  | handleEvent
  /-- Its `handleEvent` returns. -/
  | endEvent
  /-- The traversal is over, and `doPendingFunctors` swaps the queue out. -/
  | endHandling
  /-- The next functor is called. -/
  | runFunctor (w : WriteResult)
  /-- It returns. -/
  | endFunctor
  /-- `doPendingFunctors` returns. -/
  | endFunctors
  /-- The last reference to the connection is gone. -/
  | destroy (a : ℕ)

namespace LoopHost

/-- A loop that has no channel yet. -/
def new (clk : Timestamp) : LoopHost where
  poller := ⟨fun _ => none, fun _ => none⟩
  ptr _ := none
  dispatch := { eventHandling := false, currentActiveChannel := none, activeChannels := [] }
  turn := []
  stage := .top
  frame := .loop
  inside := none
  functors := []
  pendingFunctors := []
  conns _ := none
  channels _ := none
  fds _ := false
  timers := .new clk

/-- The channel at an address. -/
def channelAt (s : LoopHost) (a : ℕ) : Option Channel :=
  match s.conns a with
  | some h => some h.conn.channel
  | none => (s.channels a).map Prod.snd

/-- The pointers in the kernel after the channel at `a` has turned the poller into `p`: it writes
its own with every `epoll_ctl`. -/
def written (s : LoopHost) (a : ℕ) (p : EPollPoller) : ℕ → Option ℕ := fun fd =>
  if p.interest fd = s.poller.interest fd then s.ptr fd else some a

/-- A write to the channel at an address, through a bare pointer. -/
def mapChannel (s : LoopHost) (a : ℕ) (f : Channel → Channel) : LoopHost :=
  { s with
    conns := Function.update s.conns a ((s.conns a).map fun h =>
      { h with conn := { h.conn with channel := f h.conn.channel } })
    channels := Function.update s.channels a ((s.channels a).map fun p => (p.1, f p.2)) }

/-! ### The view of a connection -/

/-- The functors that are functions of the connection `a`. -/
def tasksOf (a : ℕ) (l : List HostTask) : List (ConnTask Unit) :=
  l.filterMap fun
    | .conn b task => if b = a then some task else none
    | .user => none

/-- All functors that wait. -/
def waiting (s : LoopHost) : List HostTask := s.functors ++ s.pendingFunctors

/-- Where the loop thread stands, as far as the connection `a` is concerned. -/
def pcOf (s : LoopHost) (a : ℕ) : ConnPc :=
  match s.inside.filter (·.1 = a) with
  | some p => p.2
  | none => if a ∈ s.turn then .polled else .idle

/-- The loop as the connection at the address `a` sees it. -/
def view (s : LoopHost) (a : ℕ) (h : Hosted) : ConnLoop Unit where
  conn := h.conn
  poller := s.poller
  dispatch := s.dispatch
  tasks := tasksOf a s.waiting
  accepted := []
  owner := h.owner
  pc := s.pcOf a

/-- What a function of the connection has changed is put back: what it has queued goes to the end of
the queue. -/
def put (s : LoopHost) (a : ℕ) (v : ConnLoop Unit) : LoopHost :=
  { s with
    poller := v.poller
    ptr := s.written a v.poller
    dispatch := v.dispatch
    conns := Function.update s.conns a (some ⟨v.conn, v.owner⟩)
    pendingFunctors := s.pendingFunctors ++
      (v.tasks.drop (tasksOf a s.waiting).length).map (.conn a)
    inside :=
      match v.pc with
      | .idle | .polled => s.inside.filter (·.1 ≠ a)
      | pc => some (a, pc) }

/-! ### The steps -/

/-- The loop thread is in code that is neither the loop's nor a connection's. -/
def inOtherCode (s : LoopHost) : Prop := s.inside = none ∧ (s.stage = .top ∨ s.frame ≠ .loop)

/-- User code can run on the loop thread. -/
def inUserCode (s : LoopHost) : Prop :=
  s.inOtherCode ∨ ∃ p ∈ s.inside, p.2.inCallback = true

/-- The loop thread is in `handleEvent` of a channel of this kind. -/
def inEvent (s : LoopHost) (k : LoopChannel) : Prop :=
  s.inside = none ∧
    match s.frame with
    | .event a => (s.channels a).map Prod.fst = some k
    | _ => False

/-- The loop thread is in the loop itself. -/
def inLoop (s : LoopHost) (stage : LoopStage) : Prop :=
  s.inside = none ∧ s.frame = .loop ∧ s.stage = stage

/-- No channel has the address, and the descriptor is not open. -/
def Fresh (s : LoopHost) (a fd : ℕ) : Prop :=
  (s.conns a).isNone ∧ (s.channels a).isNone ∧ s.fds fd = false

instance (s : LoopHost) : Decidable s.inOtherCode := by
  unfold inOtherCode
  exact @instDecidableAnd _ _ (decidable_of_iff _ Option.isNone_iff_eq_none) inferInstance

instance (s : LoopHost) : Decidable s.inUserCode := by
  unfold inUserCode
  infer_instance

instance (s : LoopHost) (k : LoopChannel) : Decidable (s.inEvent k) := by
  unfold inEvent
  refine @instDecidableAnd _ _ (decidable_of_iff _ Option.isNone_iff_eq_none) ?_
  split <;> infer_instance

instance (s : LoopHost) (stage : LoopStage) : Decidable (s.inLoop stage) := by
  unfold inLoop
  exact @instDecidableAnd _ _ (decidable_of_iff _ Option.isNone_iff_eq_none) inferInstance

instance (s : LoopHost) (a fd : ℕ) : Decidable (s.Fresh a fd) := by
  unfold Fresh
  infer_instance

/-- Where `newConnection` can be called: by an acceptor of this loop, by an acceptor of another one,
or by `TcpClient::connect`. -/
def callsNewConnection (s : LoopHost) : OwnerKind → Prop
  | .serverSameLoop => s.inEvent .acceptor
  | .serverOtherLoop => True
  | .client => s.inOtherCode

/-- Where the steps of the timer queue can be taken. -/
def callsTimer (s : LoopHost) : TimerAct → Prop
  | .addTimer _ _ _ _ | .cancel _ => s.inUserCode
  | .postAddTimer _ _ _ | .postCancel _ => True
  | .runTask _ => s.inOtherCode ∧ s.frame = .functor
  | .handleRead _ | .runCallback | .finish _ => s.inEvent .timer

/-- Where the steps of a connection can be taken, beyond what the connection itself asks for. -/
def callsConn (s : LoopHost) : ConnAct Unit → Prop
  | .send _ _ | .retrieve _ => s.inUserCode
  | act => act.ofConn = true

/-- The next functor can have the result `w` for its direct write. -/
def functorWithin (s : LoopHost) (w : WriteResult) : Prop :=
  match s.functors with
  | [] => False
  | .conn a _ :: _ => ∀ h ∈ s.conns a, (s.view a h).taskWithin w
  | .user :: _ => True

/-- `handleEvent` is about to return; that of the timer queue has gone through its batch. -/
def endsEvent (s : LoopHost) : Prop :=
  match s.inside, s.frame with
  | some p, _ => p.2 = .phase .done
  | none, .event a => (s.channels a).map Prod.fst = some .timer → s.timers.batch = none
  | none, _ => False

/-- Nothing refers to the connection any more. -/
def Unreferenced (s : LoopHost) (a : ℕ) (h : Hosted) : Prop :=
  h.owner.holds = false ∧ h.owner.posted = 0 ∧ tasksOf a s.waiting = [] ∧ ∀ p ∈ s.inside, p.1 ≠ a

instance (s : LoopHost) (kind : OwnerKind) : Decidable (s.callsNewConnection kind) := by
  unfold callsNewConnection
  split <;> infer_instance

instance (s : LoopHost) (act : TimerAct) : Decidable (s.callsTimer act) := by
  apply TimerAct.casesOn (motive := fun act => Decidable (s.callsTimer act)) act <;>
    intros <;> unfold callsTimer <;> infer_instance

instance (s : LoopHost) (act : ConnAct Unit) : Decidable (s.callsConn act) := by
  unfold callsConn
  split <;> infer_instance

instance (s : LoopHost) (w : WriteResult) : Decidable (s.functorWithin w) := by
  unfold functorWithin
  split <;> infer_instance

instance (s : LoopHost) : Decidable s.endsEvent := by
  unfold endsEvent
  split
  · infer_instance
  · exact @instDecidableForall _ _ inferInstance (decidable_of_iff _ Option.isNone_iff_eq_none)
  · infer_instance

instance (s : LoopHost) (a : ℕ) (h : Hosted) : Decidable (s.Unreferenced a h) := by
  unfold Unreferenced
  infer_instance

/-- When a step can be taken. -/
def pre (s : LoopHost) : HostAct → Prop
  | .construct _ a fd => s.Fresh a fd
  | .enableReading a => s.inOtherCode ∧ ∃ p ∈ s.channels a, p.2.index = .kNew
  | .newConnection kind a fd _ _ _ => s.Fresh a fd ∧ s.callsNewConnection kind
  | .conn a act => s.callsConn act ∧ ∃ h ∈ s.conns a, (s.view a h).pre act
  | .queueInLoop => True
  | .timer act => s.callsTimer act ∧ s.timers.pre act
  | .poll => s.inLoop .top
  | .report fd revents => s.inLoop .poll ∧ (∀ a ∈ s.ptr fd, a ∉ s.dispatch.activeChannels) ∧
      ∃ events ∈ s.poller.interest fd, EpollReports events revents
  | .beginHandling => s.inLoop .poll
  | .handleEvent => s.inLoop .handle ∧ s.turn ≠ []
  | .endEvent => s.endsEvent
  | .endHandling => s.inLoop .handle ∧ s.turn = []
  | .runFunctor w => s.inLoop .functors ∧ s.functorWithin w
  | .endFunctor => s.inOtherCode ∧ s.frame = .functor
  | .endFunctors => s.inLoop .functors ∧ s.functors.isEmpty
  | .destroy a => ∃ h ∈ s.conns a, s.Unreferenced a h

instance (s : LoopHost) (act : HostAct) : Decidable (s.pre act) := by
  unfold pre
  split <;> infer_instance

/-- `newConnection`: on the loop of the caller `connectEstablished` comes next, on another loop it
is posted. -/
def newConnection (s : LoopHost) (kind : OwnerKind) (a fd highWaterMark : ℕ)
    (writeCompleteCallback highWaterMarkCallback : Bool) : LoopHost :=
  { s with
    conns := Function.update s.conns a (some {
      conn := .new a fd highWaterMark true writeCompleteCallback highWaterMarkCallback
      owner := { kind := kind, holds := true, posted := 0 } })
    fds := Function.update s.fds fd true
    inside := if kind = .serverOtherLoop then s.inside else some (a, .newConnection)
    pendingFunctors := s.pendingFunctors ++
      if kind = .serverOtherLoop then [.conn a .connectEstablished] else [] }

/-- The next channel of `activeChannels_` has its turn; `none` when it is not there any more. -/
def handleEvent (s : LoopHost) (a : ℕ) (turn : List ℕ) : Option LoopHost :=
  match s.conns a with
  | some h => do
    let r ← (s.view a h).step .handleEvent
    some ({ s with turn := turn }.put a r.1)
  | none => do
    let _ ← s.channels a
    some { s.mapChannel a (·.setEventHandling true) with
      turn := turn
      frame := .event a
      dispatch := { s.dispatch with currentActiveChannel := some a } }

/-- The end of its `handleEvent`. -/
def endEvent (s : LoopHost) : Option LoopHost :=
  match s.inside, s.frame with
  | some p, _ => do
    let h ← s.conns p.1
    let r ← (s.view p.1 h).step .endEvent
    some (s.put p.1 r.1)
  | none, .event a => do
    let _ ← s.channels a
    some { s.mapChannel a (·.setEventHandling false) with
      frame := .loop
      dispatch := { s.dispatch with currentActiveChannel := none } }
  | none, _ => some s

/-- The next functor. -/
def runFunctor (s : LoopHost) (w : WriteResult) : Option LoopHost :=
  match s.functors with
  | [] => some s
  | .user :: functors => some { s with functors := functors, frame := .functor }
  | .conn a _ :: functors => do
    let h ← s.conns a
    let r ← (s.view a h).step (.runTask w)
    some ({ s with functors := functors, frame := .functor }.put a r.1)

/-- The destructors of the connection, its channel and its socket: with the descriptor, what the
kernel knows about it goes. -/
def destroy (s : LoopHost) (a : ℕ) (conn : TcpConnection) : Option LoopHost :=
  if conn.state = .KDisconnected ∧ conn.channel.eventHandling = false ∧
      conn.channel.addedToLoop = false then
    some { s with
      conns := Function.update s.conns a none
      fds := Function.update s.fds conn.channel.fd false
      poller := { s.poller with
        interest := Function.update s.poller.interest conn.channel.fd none } }
  else none

/-- The effect of a step; `none` stands for a failed `assert` and for the use of a channel or a
connection that is gone. -/
def step (s : LoopHost) : HostAct → Option LoopHost
  | .construct k a fd =>
    some { s with
      channels := Function.update s.channels a (some (k, .new a fd))
      fds := Function.update s.fds fd true }
  | .enableReading a => do
    let p ← s.channels a
    let r ← p.2.enableReading s.poller
    some { s with
      poller := r.1
      ptr := s.written a r.1
      channels := Function.update s.channels a (some (p.1, r.2)) }
  | .newConnection kind a fd highWaterMark writeCompleteCallback highWaterMarkCallback =>
    some (s.newConnection kind a fd highWaterMark writeCompleteCallback highWaterMarkCallback)
  | .conn a act => do
    let h ← s.conns a
    let r ← (s.view a h).step act
    some (s.put a r.1)
  | .queueInLoop => some { s with pendingFunctors := s.pendingFunctors ++ [.user] }
  | .timer act => do
    let r ← s.timers.step act
    some { s with timers := r.1 }
  | .poll =>
    some { s with
      stage := .poll
      turn := []
      dispatch := { s.dispatch with activeChannels := [] } }
  | .report fd revents => do
    let a ← s.ptr fd
    let _ ← s.channelAt a
    some { s.mapChannel a (·.setRevents revents) with
      turn := s.turn ++ [a]
      dispatch := { s.dispatch with activeChannels := s.dispatch.activeChannels ++ [a] } }
  | .beginHandling =>
    some { s with stage := .handle, dispatch := { s.dispatch with eventHandling := true } }
  | .handleEvent =>
    match s.turn with
    | [] => some s
    | a :: turn => s.handleEvent a turn
  | .endEvent => s.endEvent
  | .endHandling =>
    some { s with
      stage := .functors
      dispatch := { s.dispatch with eventHandling := false, currentActiveChannel := none }
      functors := s.pendingFunctors
      pendingFunctors := [] }
  | .runFunctor w => s.runFunctor w
  | .endFunctor => some { s with frame := .loop }
  | .endFunctors => some { s with stage := .top }
  | .destroy a => do
    let h ← s.conns a
    s.destroy a h.conn

end LoopHost

/-- All runs of a loop with its channels. -/
def hostMachine : Machine LoopHost HostAct Empty where
  pre s act := s.pre act
  step s act := (s.step act).map fun s' => (s', [])

instance (s : LoopHost) (act : HostAct) : Decidable (hostMachine.pre s act) :=
  inferInstanceAs (Decidable (s.pre act))

end MuduoServer
