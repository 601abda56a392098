import MuduoServer.Channel.Interest
import MuduoServer.Tcp.CrossThread
import MuduoServer.Tcp.ForceClose

/-!
# `startRead` and `stopRead`

The two toggles of `TcpConnection` look at `reading_` and at the events of the channel, but not at
`state_`, and what an update of the channel does depends on what the poller has done with it before.
So there are three ways to put a connection that is down back into the interest list: a `startRead`
that runs too late; a `stopRead` while `reading_` is still set, which asks for no events again; and
closing a connection that has no events because reading was stopped.

`Harmless` excludes them.  `Wire` says what `state_`, `reading_`, the channel and the poller then
have to do with each other, and `ReadInv` adds where the loop thread can be.
-/

namespace MuduoServer

/-! ### The events of a connection -/

/-- The events that the operations of a channel can leave. -/
def IsMask (e : Events) : Prop :=
  e = kNoneEvent ∨ e = kReadEvent ∨ e = kWriteEvent ∨ e = kReadEvent ∪ kWriteEvent

instance (e : Events) : Decidable (IsMask e) := inferInstanceAs (Decidable (_ ∨ _))

namespace IsMask

variable {e : Events}

/-- `enableReading()` leaves a mask. -/
lemma union_read (h : IsMask e) : IsMask (e ∪ kReadEvent) := by
  rcases h with rfl | rfl | rfl | rfl <;> decide

/-- `disableReading()` leaves a mask. -/
lemma sdiff_read (h : IsMask e) : IsMask (e \ kReadEvent) := by
  rcases h with rfl | rfl | rfl | rfl <;> decide

/-- `enableWriting()` leaves a mask. -/
lemma union_write (h : IsMask e) : IsMask (e ∪ kWriteEvent) := by
  rcases h with rfl | rfl | rfl | rfl <;> decide

/-- `disableWriting()` leaves a mask. -/
lemma sdiff_write (h : IsMask e) : IsMask (e \ kWriteEvent) := by
  rcases h with rfl | rfl | rfl | rfl <;> decide

/-- After `enableReading()` the channel reads. -/
lemma union_read_inter (h : IsMask e) : (e ∪ kReadEvent) ∩ kReadEvent ≠ kNoneEvent := by
  rcases h with rfl | rfl | rfl | rfl <;> decide

/-- After `disableReading()` it does not. -/
lemma sdiff_read_inter (h : IsMask e) : (e \ kReadEvent) ∩ kReadEvent = kNoneEvent := by
  rcases h with rfl | rfl | rfl | rfl <;> decide

/-- After `enableReading()` the channel is not without events. -/
lemma union_read_ne (h : IsMask e) : e ∪ kReadEvent ≠ kNoneEvent := by
  rcases h with rfl | rfl | rfl | rfl <;> decide

/-- Nor after `enableWriting()`. -/
lemma union_write_ne (h : IsMask e) : e ∪ kWriteEvent ≠ kNoneEvent := by
  rcases h with rfl | rfl | rfl | rfl <;> decide

/-- Writing has nothing to do with reading. -/
lemma union_write_inter (h : IsMask e) :
    (e ∪ kWriteEvent) ∩ kReadEvent ≠ kNoneEvent ↔ e ∩ kReadEvent ≠ kNoneEvent := by
  rcases h with rfl | rfl | rfl | rfl <;> decide

/-- `disableWriting()` does not change whether the channel reads. -/
lemma sdiff_write_inter (h : IsMask e) :
    (e \ kWriteEvent) ∩ kReadEvent ≠ kNoneEvent ↔ e ∩ kReadEvent ≠ kNoneEvent := by
  rcases h with rfl | rfl | rfl | rfl <;> decide

/-- Without `EPOLLIN` no event of the third test of `handleEventWithGuard` is registered. -/
lemma inter_eq_empty (h : IsMask e) (hin : EpollFlag.EPOLLIN ∉ e) :
    (e ∪ {.EPOLLERR, .EPOLLHUP}) ∩ {.EPOLLIN, .EPOLLPRI, .EPOLLRDHUP} = ∅ := by
  rcases h with rfl | rfl | rfl | rfl
  · decide
  · exact absurd (by decide) hin
  · decide
  · exact absurd (by decide) hin

end IsMask

/-- Consistency looks at four members of the channel. -/
lemma Consistent.congr {p : EPollPoller} {c c' : Channel} (h : Consistent p c)
    (hindex : c'.index = c.index) (hevents : c'.events = c.events) (hfd : c'.fd = c.fd)
    (haddress : c'.address = c.address) : Consistent p c' := by
  rcases h with h | h | h
  · exact Or.inl ⟨hindex.trans h.index, hevents.trans h.events, hfd ▸ h.channels,
      hfd ▸ h.interest⟩
  · refine Or.inr (Or.inl ⟨hindex.trans h.index, hevents ▸ h.events, ?_, ?_⟩)
    · rw [hfd, haddress, h.channels]
    · rw [hfd, hevents, h.interest]
  · refine Or.inr (Or.inr ⟨hindex.trans h.index, hevents.trans h.events, ?_, hfd ▸ h.interest⟩)
    rw [hfd, haddress, h.channels]

/-- A consistent channel without events that the poller has in its table is detached. -/
lemma Consistent.detached {p : EPollPoller} {c : Channel} (h : Consistent p c)
    (hevents : c.events = kNoneEvent) (hchannels : p.channels c.fd ≠ none) : Detached p c := by
  rcases h with h | h | h
  · exact absurd h.channels hchannels
  · exact absurd hevents h.events
  · exact h

/-- The state of a connection is one of the two in which it is up. -/
def StateE.IsUp (state : StateE) : Prop := state = .KConnected ∨ state = .KDisconnecting

/-- A connection that is up is not connecting. -/
lemma StateE.IsUp.ne_connecting {state : StateE} (h : state.IsUp) : state ≠ .KConnecting := by
  rcases h with rfl | rfl <;> decide

/-- Nor is it down. -/
lemma StateE.IsUp.ne_down {state : StateE} (h : state.IsUp) : state ≠ .KDisconnected := by
  rcases h with rfl | rfl <;> decide

/-- There is no other state. -/
lemma StateE.isUp_of_ne {state : StateE} (hconnecting : state ≠ .KConnecting)
    (hdown : state ≠ .KDisconnected) : state.IsUp := by
  cases state with
  | KConnecting => exact absurd rfl hconnecting
  | KDisconnected => exact absurd rfl hdown
  | KConnected => exact Or.inl rfl
  | KDisconnecting => exact Or.inr rfl

/-- What `reading_`, whether `connectDestroyed` has run, `state_`, the poller and the channel have
to do with each other. -/
structure Wire (reading destroyed : Bool) (state : StateE) (p : EPollPoller) (c : Channel) :
    Prop where
  consistent : Consistent p c
  mask : IsMask c.events
  connecting : state = .KConnecting → reading = true ∧ c.events = kNoneEvent
  up : state.IsUp → (reading = true ↔ c.isReading)
  down : state = .KDisconnected → c.events = kNoneEvent
  gone : destroyed = true → state = .KDisconnected ∧ p.channels c.fd = none

namespace Wire

variable {b d : Bool} {state : StateE} {p : EPollPoller} {c c' : Channel}

/-- The members of the channel that `Wire` does not look at may change. -/
lemma congr (h : Wire b d state p c) (hindex : c'.index = c.index) (hevents : c'.events = c.events)
    (hfd : c'.fd = c.fd) (haddress : c'.address = c.address) : Wire b d state p c' where
  consistent := h.consistent.congr hindex hevents hfd haddress
  mask := hevents ▸ h.mask
  connecting hstate := by
    rw [hevents]
    exact h.connecting hstate
  up hstate := by rw [h.up hstate, Channel.isReading, Channel.isReading, hevents]
  down hstate := by rw [hevents, h.down hstate]
  gone hd := by
    rw [hfd]
    exact h.gone hd

/-- Between the two states of a connection that is up. -/
lemma disconnecting (h : Wire b d state p c) (hup : state.IsUp) : Wire b d .KDisconnecting p c where
  consistent := h.consistent
  mask := h.mask
  connecting hstate := by cases hstate
  up _ := h.up hup
  down hstate := by cases hstate
  gone hd := absurd (h.gone hd).1 hup.ne_down

/-- The events are set on a connection that is not down, and this is a change. -/
lemma update {e : Events} {r : EPollPoller × Channel} (h : Wire b d state p c) (b' : Bool)
    (state' : StateE) (hne : state ≠ .KDisconnected)
    (hr : Channel.update { c with events := e } p = some r)
    (hchange : ¬ (c.events = kNoneEvent ∧ e = kNoneEvent)) (hmask : IsMask e)
    (hstate : state' ≠ .KConnecting)
    (hup : state'.IsUp → (b' = true ↔ e ∩ kReadEvent ≠ kNoneEvent))
    (hdown : state' = .KDisconnected → e = kNoneEvent) :
    Wire b' d state' r.1 r.2 ∧ SameChannel c r.2 := by
  obtain ⟨p', c', hc', hupdated⟩ := Channel.update_consistent h.consistent hchange
  obtain rfl : (p', c') = r := Option.some.inj (hc'.symm.trans hr)
  refine ⟨⟨hupdated.consistent, ?_, fun heq => absurd heq hstate, fun hup' => ?_, fun heq => ?_,
    fun hd => absurd (h.gone hd).1 hne⟩, hupdated.same⟩
  · rw [hupdated.events]
    exact hmask
  · rw [hup hup', Channel.isReading, hupdated.events]
  · rw [hupdated.events, hdown heq]

/-- The channel of a connection that is down is removed. -/
lemma remove {dispatch : LoopDispatch} {r : EPollPoller × Channel}
    (h : Wire b d .KDisconnected p c) (d' : Bool) (hr : c.remove dispatch p = some r) :
    Wire b d' .KDisconnected r.1 r.2 ∧ SameChannel c r.2 := by
  have hnone : c.isNoneEvent := h.down rfl
  have hassert : dispatch.eventHandling = true →
      dispatch.currentActiveChannel = some c.address ∨ c.address ∉ dispatch.activeChannels := by
    by_contra hd
    simp only [Channel.remove, if_pos hnone, if_neg hd] at hr
    cases hr
  have hchannels : p.channels c.fd ≠ none := by
    intro hunknown
    simp [Channel.remove, EPollPoller.removeChannel, hunknown] at hr
  have hdetached := h.consistent.detached hnone hchannels
  obtain ⟨p', c', hc', hun, -, hsame, -⟩ := Channel.remove_consistent hdetached hassert
  obtain rfl : (p', c') = r := Option.some.inj (hc'.symm.trans hr)
  refine ⟨⟨Or.inl hun, Or.inl hun.events, fun heq => (by cases heq),
    fun hup => absurd rfl hup.ne_down, fun _ => hun.events, fun _ => ⟨rfl, hun.channels⟩⟩, hsame⟩

end Wire

/-! ### Where the loop thread can be -/

/-- The flags that the third test of `handleEventWithGuard` looks for. -/
def readFlags : Events := {.EPOLLIN, .EPOLLPRI, .EPOLLRDHUP}

/-- What is known where the loop thread stands. -/
def ConnPc.Ok {τ : Type} (state : StateE) (revents : Events) (tasks : List (ConnTask τ)) :
    ConnPc → Prop
  | .newConnection => True
  | .idle => state = .KConnecting → tasks.head? = some .connectEstablished
  | .polled | .phase .close => state.IsUp ∧
      (EpollFlag.EPOLLHUP ∈ revents → EpollFlag.EPOLLIN ∉ revents → revents ∩ readFlags = ∅)
  | .phase .error | .phase .read => state.IsUp ∨
      state = .KDisconnected ∧ revents ∩ readFlags = ∅
  | .closing k => state = .KDisconnected ∧ (k = some .error → revents ∩ readFlags = ∅) ∧
      k ≠ some .close ∧ k ≠ some .read
  | .inUp | .inMessage | .phase .write | .phase .done => state ≠ .KConnecting

namespace ConnPc.Ok

variable {τ : Type} {pc : ConnPc} {state : StateE} {revents : Events} {tasks : List (ConnTask τ)}

/-- Tasks may be queued at any time. -/
lemma append (h : pc.Ok state revents tasks) (l : List (ConnTask τ)) :
    pc.Ok state revents (tasks ++ l) := by
  match pc, h with
  | .idle, h =>
    intro hstate
    rw [List.head?_append, h hstate, Option.some_or]
  | .newConnection, h | .polled, h | .inUp, h | .inMessage, h | .closing _, h => exact h
  | .phase .close, h | .phase .error, h | .phase .read, h | .phase .write, h
  | .phase .done, h => exact h

/-- `forceClose` may be called at any time. -/
lemma disconnecting (h : pc.Ok state revents tasks) (hup : state.IsUp) :
    pc.Ok .KDisconnecting revents tasks := by
  match pc, h with
  | .idle, _ => exact fun heq => by cases heq
  | .newConnection, _ => trivial
  | .polled, h | .phase .close, h => exact ⟨Or.inr rfl, h.2⟩
  | .phase .error, _ | .phase .read, _ => exact Or.inl (Or.inr rfl)
  | .closing _, h => exact absurd h.1 hup.ne_down
  | .inUp, _ | .inMessage, _ | .phase .write, _ | .phase .done, _ => exact fun heq => by cases heq

/-- Only `newConnection` and the queue know a connection that is not yet established. -/
lemma connecting (h : pc.Ok .KConnecting revents tasks) :
    pc = .newConnection ∨ pc = .idle ∧ tasks.head? = some .connectEstablished := by
  match pc, h with
  | .newConnection, _ => exact Or.inl rfl
  | .idle, h => exact Or.inr ⟨rfl, h rfl⟩
  | .polled, h | .phase .close, h => exact absurd rfl h.1.ne_connecting
  | .phase .error, h | .phase .read, h =>
    rcases h with hup | hdown
    · exact absurd rfl hup.ne_connecting
    · cases hdown.1
  | .closing _, h => cases h.1
  | .inUp, h | .inMessage, h | .phase .write, h | .phase .done, h => exact absurd rfl h

/-- After the close callback. -/
lemma ofReturn {k : Option Phase} (h : (ConnPc.closing k).Ok state revents tasks)
    (tasks' : List (ConnTask τ)) : (ConnPc.ofReturn k).Ok state revents tasks' := by
  obtain ⟨rfl, herror, hclose, hread⟩ := h
  match k with
  | none => exact fun heq => by cases heq
  | some .close => exact absurd rfl hclose
  | some .error => exact Or.inr ⟨rfl, herror rfl⟩
  | some .read => exact absurd rfl hread
  | some .write | some .done => exact fun heq => by cases heq

end ConnPc.Ok

namespace ConnLoop

variable {τ : Type} {s s' : ConnLoop τ} {b d : Bool} {out : List (ConnEvent τ)}

/-- The channel is wired as it should be, the loop thread is where it can be, and
`connectDestroyed` is on its way only to a connection that is down. -/
structure ReadInv (b d : Bool) (s : ConnLoop τ) : Prop where
  wire : Wire b d s.conn.state s.poller s.conn.channel
  pc : s.pc.Ok s.conn.state s.conn.channel.revents s.tasks
  destroy : .connectDestroyed ∈ s.tasks ∨ 0 < s.owner.posted → s.conn.state = .KDisconnected

/-- The step calls `handleClose`. -/
def closes (s : ConnLoop τ) : ConnAct τ → Prop
  | .testClose => EpollFlag.EPOLLHUP ∈ s.conn.channel.revents ∧
      EpollFlag.EPOLLIN ∉ s.conn.channel.revents
  | .testRead r => s.conn.channel.revents ∩ readFlags ≠ ∅ ∧ r = .data []
  | .testWrite w => s.conn.state = .KDisconnecting ∧ s.drains w
  | .runTask _ => s.tasks.head? = some .forceCloseInLoop ∧ s.isOpen
  | _ => False

instance [DecidableEq τ] (s : ConnLoop τ) (act : ConnAct τ) : Decidable (s.closes act) := by
  apply ConnAct.casesOn (motive := fun act => Decidable (s.closes act)) act <;>
    intros <;> unfold closes <;> infer_instance

/-- The events that the channel has when the step calls `handleClose`: `handleWrite` stops writing
before. -/
def eventsLeft (s : ConnLoop τ) : ConnAct τ → Events
  | .testWrite _ => s.conn.channel.events \ kWriteEvent
  | _ => s.conn.channel.events

/-- The step runs `connectDestroyed`. -/
def destroys (s : ConnLoop τ) : ConnAct τ → Bool
  | .runTask _ =>
    match s.tasks with
    | .connectDestroyed :: _ => true
    | _ => false
  | .callbackReturns =>
    match s.pc with
    | .closing _ => decide (s.owner.kind = .client)
    | _ => false
  | _ => false

namespace ReadInv

/-- Other tasks than `connectDestroyed` may be queued at any time. -/
lemma append (h : ReadInv b d s) (l : List (ConnTask τ)) (hl : .connectDestroyed ∉ l) :
    ReadInv b d { s with tasks := s.tasks ++ l } where
  wire := h.wire
  pc := h.pc.append l
  destroy hmem := by
    refine h.destroy (hmem.imp_left fun hmem => ?_)
    exact (List.mem_append.mp hmem).resolve_right hl

/-- The loop thread moves on. -/
lemma goto (h : ReadInv b d s) (pc : ConnPc)
    (hpc : pc.Ok s.conn.state s.conn.channel.revents s.tasks) : ReadInv b d { s with pc := pc } :=
  ⟨h.wire, hpc, h.destroy⟩

/-- A change of the connection and of the poller that keeps the state. -/
lemma withConn (h : ReadInv b d s) {b' d' : Bool} {p : EPollPoller} (conn : TcpConnection)
    (hwire : Wire b' d' conn.state p conn.channel) (hstate : conn.state = s.conn.state)
    (hsame : SameChannel s.conn.channel conn.channel) :
    ReadInv b' d' { s with poller := p, conn := conn } where
  wire := hwire
  pc := by
    change s.pc.Ok conn.state conn.channel.revents s.tasks
    rw [hstate, hsame.revents]
    exact h.pc
  destroy hmem := hstate.trans (h.destroy hmem)

/-! ### Sending -/

/-- The direct write keeps the invariant and does not touch the connection. -/
lemma direct (h : ReadInv b d s) (message : List UInt8) (len : ℕ) (w : WriteResult) :
    ReadInv b d (s.direct message len w).1 ∧ (s.direct message len w).1.conn = s.conn := by
  unfold ConnLoop.direct
  split
  · cases w with
    | ok n =>
      simp only [ite_queueInLoop, and_true]
      have hinv := h.append (if len - n = 0 ∧ s.conn.writeCompleteCallback = true then
        [.writeCompleteCallback] else []) (by split <;> simp)
      exact ⟨hinv.wire, hinv.pc, hinv.destroy⟩
    | error errno => exact ⟨h, rfl⟩
  · exact ⟨h, rfl⟩

/-- The backlog of a connection that is up keeps the invariant. -/
lemma backlog (h : ReadInv b d s) (hup : s.conn.state.IsUp) {data : List UInt8}
    (heq : s.backlog data = some s') : ReadInv b d s' := by
  obtain ⟨buffer, s₁, -, rfl, hrest⟩ := backlog_eq_some heq
  have hqueue := h.append (if s.conn.highWaterMark ≤
      s.conn.outputBuffer.readableBytes + data.length ∧
        s.conn.outputBuffer.readableBytes < s.conn.highWaterMark ∧
          s.conn.highWaterMarkCallback = true then
    [.highWaterMarkCallback (s.conn.outputBuffer.readableBytes + data.length)] else [])
    (by split <;> simp)
  rcases hrest with ⟨-, rfl⟩ | ⟨-, r, hr, rfl⟩
  · exact ⟨hqueue.wire, hqueue.pc, hqueue.destroy⟩
  · obtain ⟨hwire, hsame⟩ := h.wire.update b s.conn.state hup.ne_down hr
      (fun hnone => h.wire.mask.union_write_ne hnone.2) h.wire.mask.union_write hup.ne_connecting
      (fun hup => (h.wire.up hup).trans h.wire.mask.union_write_inter.symm)
      fun hdown => absurd hdown hup.ne_down
    exact hqueue.withConn { s.conn with outputBuffer := buffer, channel := r.2 } hwire rfl hsame

/-- `sendInLoop()` keeps it, and does nothing when the connection is down. -/
lemma sendInLoop (h : ReadInv b d s) (hstate : s.conn.state ≠ .KConnecting) {message : List UInt8}
    {len : ℕ} {w : WriteResult} (heq : s.sendInLoop message len w = some s') : ReadInv b d s' := by
  obtain ⟨hdirect, hconn⟩ := h.direct message len w
  obtain ⟨-, ⟨-, rfl⟩ | ⟨hdown, r, rfl, -, ⟨-, -, hrest⟩ | ⟨-, rfl⟩⟩⟩ := sendInLoop_eq_some heq
  · exact h
  · refine hdirect.backlog ?_ hrest
    rw [hconn]
    exact StateE.isUp_of_ne hstate hdown
  · exact hdirect

/-! ### Opening and closing -/

/-- `connectEstablished()` brings the invariant about. -/
lemma connectEstablished (h : Wire b d s.conn.state s.poller s.conn.channel)
    (hdestroy : .connectDestroyed ∈ s.tasks ∨ 0 < s.owner.posted → s.conn.state = .KDisconnected)
    (heq : s.connectEstablished = some (s', out)) : ReadInv b d s' := by
  obtain ⟨hstate, r, hr, rfl, -⟩ := connectEstablished_eq_some heq
  obtain ⟨hb, hevents⟩ := h.connecting hstate
  have htie : Wire b d s.conn.state s.poller s.conn.channel.tie := h.congr rfl rfl rfl rfl
  have he : s.conn.channel.tie.events ∪ kReadEvent = kReadEvent := by
    rw [show s.conn.channel.tie.events = kNoneEvent from hevents]
    decide
  rw [Channel.enableReading, he] at hr
  obtain ⟨hwire, -⟩ := htie.update b .KConnected (by rw [hstate]; decide) hr
    (fun hnone => absurd hnone.2 (by decide)) (by decide) (by decide)
    (fun _ => iff_of_true hb (by decide)) (fun heq => by cases heq)
  refine ⟨hwire, fun heq => (by cases heq), fun hmem => ?_⟩
  rw [hdestroy hmem] at hstate
  cases hstate

/-- `handleClose` of a connection whose channel has events. -/
lemma handleClose (h : ReadInv b d s) {k : Option Phase}
    (hevents : s.conn.channel.events ≠ kNoneEvent)
    (hk : (k = some .error → s.conn.channel.revents ∩ readFlags = ∅) ∧ k ≠ some .close ∧
      k ≠ some .read)
    (heq : s.handleClose k = some (s', out)) : ReadInv b d s' := by
  obtain ⟨hopen, r, hr, rfl, -⟩ := handleClose_eq_some heq
  obtain ⟨hwire, hsame⟩ := h.wire.update b .KDisconnected (StateE.IsUp.ne_down hopen) hr
    (fun hnone => hevents hnone.1) (by decide) (by decide)
    (fun hup => absurd rfl hup.ne_down) fun _ => rfl
  refine ⟨hwire, ⟨rfl, ?_, hk.2⟩, fun _ => rfl⟩
  change k = some .error → r.2.revents ∩ readFlags = ∅
  rw [hsame.revents]
  exact hk.1

/-- `forceCloseInLoop()` of an open connection that has events left is a `handleClose()`. -/
lemma forceCloseInLoop (h : ReadInv b d s) {k : Option Phase} (hopen : s.isOpen)
    (hevents : s.conn.channel.events ≠ kNoneEvent)
    (hk : (k = some .error → s.conn.channel.revents ∩ readFlags = ∅) ∧ k ≠ some .close ∧
      k ≠ some .read)
    (heq : s.forceCloseInLoop k = some (s', out)) : ReadInv b d s' := by
  rcases forceCloseInLoop_eq_some heq with hclose | ⟨hopen', -, -⟩
  · exact h.handleClose hevents hk hclose
  · exact absurd hopen hopen'

/-- `connectDestroyed()` after the close takes the channel out of the poller. -/
lemma connectDestroyed (h : ReadInv b d s) (hdown : s.conn.state = .KDisconnected) (d' : Bool)
    (heq : s.connectDestroyed = some (s', out)) : ReadInv b d' s' := by
  obtain ⟨s₁, r, hs₁, hr, rfl⟩ := connectDestroyed_eq_some heq
  obtain rfl : s₁ = s := by
    rcases takeDown_eq_some hs₁ with ⟨hstate, -⟩ | ⟨-, hs₁, -⟩
    · cases hdown.symm.trans hstate
    · exact hs₁
  have hwire := h.wire
  rw [hdown] at hwire
  obtain ⟨hwire', hsame⟩ := hwire.remove d' hr
  refine h.withConn { s₁.conn with channel := r.2 } ?_ rfl hsame
  rw [show ({ s₁.conn with channel := r.2 } : TcpConnection).state = .KDisconnected from hdown]
  exact hwire'

/-- The server queues `connectDestroyed()` for a connection that is down. -/
lemma removeConnectionInLoop (h : ReadInv b d s) (hdown : s.conn.state = .KDisconnected)
    (heq : s.removeConnectionInLoop = some s') : ReadInv b d s' := by
  obtain ⟨-, rfl⟩ := removeConnectionInLoop_eq_some heq
  exact ⟨h.wire, h.pc.append _, fun _ => hdown⟩

/-- The close callback of each owner keeps the invariant. -/
lemma closeCallback (h : ReadInv b d s) (hdown : s.conn.state = .KDisconnected)
    (heq : s.closeCallback = some (s', out)) :
    ReadInv b (d || decide (s.owner.kind = .client)) s' := by
  rcases closeCallback_eq_some heq with ⟨hkind, hremove, -⟩ | ⟨hkind, rfl, -⟩ | ⟨-, hdestroy⟩
  · simpa [hkind] using h.removeConnectionInLoop hdown hremove
  · have hinv : ReadInv b d { s with owner := { s.owner with posted := s.owner.posted + 1 } } :=
      ⟨h.wire, h.pc, fun _ => hdown⟩
    simpa [hkind] using hinv
  · have howner : ReadInv b d { s with owner := { s.owner with holds := false } } :=
      ⟨h.wire, h.pc, h.destroy⟩
    exact howner.connectDestroyed hdown _ hdestroy

/-! ### The steps -/

/-- `handleRead()` keeps it if the channel has events where the read finds the end of the stream. -/
lemma handleRead (h : ReadInv b d s) (hup : s.conn.state.IsUp) {r : ReadResult}
    (hsafe : r = .data [] → s.conn.channel.events ≠ kNoneEvent)
    (heq : s.handleRead r = some (s', out)) : ReadInv b d s' := by
  obtain ⟨r', hr', hrest⟩ := handleRead_eq_some heq
  have hread : ReadInv b d { s with conn := { s.conn with inputBuffer := r'.1 } } :=
    ⟨h.wire, h.pc, h.destroy⟩
  rcases hrest with ⟨rfl, -⟩ | ⟨hzero, hclose⟩ | ⟨rfl, -⟩
  · exact hread.goto _ hup.ne_connecting
  · have hdata : r = .data [] := by
      by_contra hdata
      exact Buffer.readFd_ne_zero hdata hr' hzero
    exact hread.handleClose (hsafe hdata) ⟨by simp, by simp, by simp⟩ hclose
  · exact hread.goto _ hup.ne_connecting

/-- A write that has sent everything keeps it if a close after it finds events. -/
lemma writeComplete (h : ReadInv b d s) (hup : s.conn.state.IsUp)
    (hwriting : s.conn.channel.isWriting)
    (hsafe : s.conn.state = .KDisconnecting → s.conn.channel.events \ kWriteEvent ≠ kNoneEvent)
    (heq : s.writeComplete = some (s', out)) : ReadInv b d s' := by
  obtain ⟨r, s₁, hr, rfl, hrest⟩ := writeComplete_eq_some heq
  have hevents : s.conn.channel.events ≠ kNoneEvent := by
    intro hnone
    exact Channel.not_isWriting_of_events hnone hwriting
  obtain ⟨hwire, hsame⟩ := h.wire.update b s.conn.state hup.ne_down hr
    (fun hnone => hevents hnone.1) h.wire.mask.sdiff_write hup.ne_connecting
    (fun hup => (h.wire.up hup).trans h.wire.mask.sdiff_write_inter.symm)
    fun hdown => absurd hdown hup.ne_down
  have hleft : r.2.events = s.conn.channel.events \ kWriteEvent := by
    obtain ⟨p', c', hc', hupdated⟩ := Channel.update_consistent h.wire.consistent
      (e := s.conn.channel.events \ kWriteEvent) fun hnone => hevents hnone.1
    obtain rfl : (p', c') = r := Option.some.inj (hc'.symm.trans hr)
    exact hupdated.events
  have hinv := (h.append (if s.conn.writeCompleteCallback = true then [.writeCompleteCallback]
    else []) (by split <;> simp)).withConn { s.conn with channel := r.2 } hwire rfl hsame
  rcases hrest with ⟨hstate, hclose⟩ | ⟨-, rfl, -⟩
  · refine hinv.forceCloseInLoop (Or.inr hstate) ?_ ⟨by simp, by simp, by simp⟩ hclose
    change r.2.events ≠ kNoneEvent
    rw [hleft]
    exact hsafe hstate
  · exact hinv

/-- So `handleWrite()` keeps it, under the same condition. -/
lemma handleWrite (h : ReadInv b d s) (hpc : s.pc = .phase .write) {w : WriteResult}
    (hout : EpollFlag.EPOLLOUT ∈ s.conn.channel.revents)
    (hsafe : s.closes (.testWrite w) → s.conn.channel.events \ kWriteEvent ≠ kNoneEvent)
    (heq : s.handleWrite w = some (s', out)) : ReadInv b d s' := by
  have hstate : s.conn.state ≠ .KConnecting := by
    have hok := h.pc
    rw [hpc] at hok
    exact hok
  rcases handleWrite_eq_some heq with
    ⟨n, buffer, s₁, hwriting, rfl, hpos, hbuffer, rfl, ⟨hempty, hcomplete⟩ | ⟨-, rfl, -⟩⟩ | ⟨rfl, -⟩
  · have hall := Buffer.eq_readableBytes_of_retrieve hbuffer hempty
    have hup : s.conn.state.IsUp := by
      refine StateE.isUp_of_ne hstate fun hdown => ?_
      exact Channel.not_isWriting_of_events (h.wire.down hdown) hwriting
    refine writeComplete ?_ ?_ ?_ ?_ hcomplete
    · exact ⟨h.wire, hstate, h.destroy⟩
    · exact hup
    · exact hwriting
    · exact fun hclosing => hsafe ⟨hclosing, hout, hwriting, by rw [hall], hall ▸ hpos⟩
  · exact ⟨h.wire, hstate, h.destroy⟩
  · exact h.goto _ hstate

/-- Each queued task keeps it, if the channel has events where the task closes. -/
lemma runTask (h : ReadInv b d s) (hpc : s.pc = .idle) {w : WriteResult}
    (hsafe : s.closes (.runTask w) → s.conn.channel.events ≠ kNoneEvent)
    (heq : s.runTask w = some (s', out)) : ReadInv b (d || s.destroys (.runTask w)) s' := by
  unfold ConnLoop.runTask at heq
  split at heq
  · next htasks =>
    cases heq
    simpa [destroys, htasks] using h
  · next task tasks htasks =>
    have hok := h.pc
    rw [hpc] at hok
    have hstate : task ≠ .connectEstablished → s.conn.state ≠ .KConnecting := by
      intro hne hstate
      have hhead := hok hstate
      rw [htasks] at hhead
      exact hne (Option.some.inj hhead)
    have hpop : task ≠ .connectEstablished → ReadInv b d { s with tasks := tasks } := by
      intro hne
      refine ⟨h.wire, ?_, fun hmem => h.destroy (hmem.imp_left fun hmem => ?_)⟩
      · rw [show ({ s with tasks := tasks } : ConnLoop τ).pc = .idle from hpc]
        exact fun hconnecting => absurd hconnecting (hstate hne)
      · rw [htasks]
        exact List.mem_cons_of_mem _ hmem
    cases task with
    | connectEstablished =>
      have hinv := connectEstablished (s := { s with tasks := tasks }) h.wire
        (fun hmem => h.destroy (hmem.imp_left fun hmem => by
          rw [htasks]; exact List.mem_cons_of_mem _ hmem)) heq
      simpa [destroys, htasks] using hinv
    | sendInLoop poster message =>
      obtain ⟨s₁, hs₁, heq⟩ := Option.map_eq_some_iff.mp heq
      cases heq
      rw [sendInLoopString, ConnLoop.send] at hs₁
      simpa [destroys, htasks] using
        (hpop (by simp)).sendInLoop (s := { s with tasks := tasks }) (hstate (by simp)) hs₁
    | forceCloseInLoop =>
      dsimp only at heq
      have hinv := hpop (by simp)
      by_cases hopen : s.isOpen
      · have hevents := hsafe ⟨by rw [htasks]; rfl, hopen⟩
        simpa [destroys, htasks] using
          hinv.forceCloseInLoop hopen hevents ⟨by simp, by simp, by simp⟩ heq
      · rcases forceCloseInLoop_eq_some heq with hclose | ⟨-, rfl, -⟩
        · exact absurd (handleClose_eq_some hclose).1 hopen
        · have hidle := hinv.goto (.ofReturn none) fun hconnecting =>
            absurd hconnecting (hstate (by simp))
          simpa [destroys, htasks] using hidle
    | writeCompleteCallback =>
      cases heq
      simpa [destroys, htasks] using hpop (by simp)
    | highWaterMarkCallback size =>
      cases heq
      simpa [destroys, htasks] using hpop (by simp)
    | connectDestroyed =>
      have hdown := h.destroy (Or.inl (by rw [htasks]; exact List.mem_cons_self))
      exact (hpop (by simp)).connectDestroyed hdown _ heq

/-- What follows a callback of the user keeps it. -/
lemma callbackReturns (h : ReadInv b d s) (heq : s.callbackReturns = some (s', out)) :
    ReadInv b (d || s.destroys .callbackReturns) s' := by
  have hok := h.pc
  rcases callbackReturns_eq_some heq with
    ⟨hpc, rfl, -⟩ | ⟨hpc, rfl, -⟩ | ⟨k, out', hpc, hclose, -⟩ | ⟨hpc, rfl, -⟩
  · rw [hpc] at hok
    have hidle := h.goto .idle fun hconnecting => absurd hconnecting hok
    simpa [destroys, hpc] using hidle
  · rw [hpc] at hok
    have hwrite := h.goto (.phase .write) hok
    simpa [destroys, hpc] using hwrite
  · rw [hpc] at hok
    have hreturn := h.goto _ (hok.ofReturn s.tasks)
    simpa [destroys, hpc] using hreturn.closeCallback hok.1 hclose
  · have hfalse : s'.destroys .callbackReturns = false := by
      cases hpc' : s'.pc with
      | closing k =>
        rw [hpc'] at hpc
        cases hpc
      | _ => simp [destroys, hpc']
    simpa [hfalse] using h

/-- `poll` returns only a connection that is up. -/
lemma poll (h : ReadInv b d s) {events revents : Events}
    (hinterest : s.poller.interest s.conn.channel.fd = some events)
    (hreports : EpollReports events revents) :
    s.conn.state.IsUp ∧ (EpollFlag.EPOLLHUP ∈ revents → EpollFlag.EPOLLIN ∉ revents →
      revents ∩ readFlags = ∅) := by
  have hentry := h.wire.consistent.interest
  rw [hinterest] at hentry
  split at hentry
  · cases hentry
  · next hevents =>
    obtain rfl := Option.some.inj hentry
    refine ⟨StateE.isUp_of_ne (fun hstate => ?_) fun hstate => ?_, fun hhup hin => ?_⟩
    · exact hevents (h.wire.connecting hstate).2
    · exact hevents (h.wire.down hstate)
    · have hnot : EpollFlag.EPOLLIN ∉ s.conn.channel.events :=
        fun hmem => hin (hreports.hup hhup hmem)
      rw [← Finset.subset_empty, ← h.wire.mask.inter_eq_empty hnot]
      exact Finset.inter_subset_inter_right hreports.subset

/-- User code on the loop thread does not know a connection that is not yet established. -/
lemma state_of_inUserCode (h : ReadInv b d s) (huser : s.inUserCode) :
    s.conn.state ≠ .KConnecting := by
  intro hstate
  have hok := h.pc
  rw [hstate] at hok
  rcases hok.connecting with hpc | ⟨hpc, -⟩
  · simp [inUserCode, hpc] at huser
  · simp [inUserCode, hpc, hstate] at huser

/-- The steps that do not run `connectDestroyed`. -/
lemma stepOther (h : ReadInv b d s) {act : ConnAct τ} (htask : ∀ w, act ≠ .runTask w)
    (hcallback : act ≠ .callbackReturns) (hpre : s.pre act)
    (hsafe : s.closes act → s.eventsLeft act ≠ kNoneEvent)
    (hstep : s.step act = some (s', out)) : ReadInv b d s' := by
  cases act with
  | runTask w => exact absurd rfl (htask w)
  | callbackReturns => exact absurd rfl hcallback
  | postSend caller message =>
    cases hstep
    exact h.append [.sendInLoop caller message] (by simp)
  | send message w =>
    obtain ⟨s₁, hs₁, heq⟩ := Option.map_eq_some_iff.mp hstep
    cases heq
    exact h.sendInLoop (h.state_of_inUserCode hpre.1) hs₁
  | forceClose =>
    have heq : s.forceClose = (s', out) := Option.some.inj hstep
    rcases forceClose_eq heq with ⟨hopen, rfl, -⟩ | ⟨-, rfl, -⟩
    · have hclosing : ReadInv b d { s with conn := { s.conn with state := .KDisconnecting } } :=
        ⟨h.wire.disconnecting hopen, h.pc.disconnecting hopen,
          fun hmem => absurd (h.destroy hmem) (StateE.IsUp.ne_down hopen)⟩
      exact hclosing.append [.forceCloseInLoop] (by simp)
    · exact h
  | retrieve len =>
    obtain ⟨buffer, -, heq⟩ := Option.bind_eq_some_iff.mp hstep
    cases heq
    exact ⟨h.wire, h.pc, h.destroy⟩
  | connectEstablished =>
    exact connectEstablished h.wire h.destroy hstep
  | removeConnectionInLoop =>
    obtain ⟨s₁, hs₁, heq⟩ := Option.map_eq_some_iff.mp hstep
    cases heq
    have hdown := h.destroy (Or.inr hpre)
    have howner : ReadInv b d { s with owner := { s.owner with posted := s.owner.posted - 1 } } :=
      ⟨h.wire, h.pc, fun _ => hdown⟩
    exact howner.removeConnectionInLoop hdown hs₁
  | poll revents =>
    obtain ⟨-, -, events, hinterest, hreports⟩ := hpre
    cases hstep
    exact ⟨h.wire.congr rfl rfl rfl rfl, h.poll hinterest hreports, h.destroy⟩
  | pollOther =>
    cases hstep
    exact ⟨h.wire, h.pc, h.destroy⟩
  | endHandling =>
    cases hstep
    exact ⟨h.wire, h.pc, h.destroy⟩
  | handleEvent =>
    have hok := h.pc
    rw [show s.pc = .polled from hpre] at hok
    cases hstep
    exact ⟨h.wire.congr rfl rfl rfl rfl, hok, h.destroy⟩
  | testClose =>
    have hok := h.pc
    rw [show s.pc = .phase .close from hpre] at hok
    simp only [ConnLoop.step] at hstep
    split at hstep
    · next htest =>
      exact h.handleClose (hsafe htest)
        ⟨fun _ => hok.2 htest.1 htest.2, by simp, by simp⟩ hstep
    · cases hstep
      exact h.goto _ (Or.inl hok.1)
  | testError =>
    have hok := h.pc
    rw [show s.pc = .phase .error from hpre] at hok
    cases hstep
    exact h.goto _ hok
  | testRead r =>
    have hok := h.pc
    rw [hpre.1] at hok
    simp only [ConnLoop.step] at hstep
    split at hstep
    · next hread =>
      refine h.handleRead (hok.resolve_right fun hdown => hread hdown.2) (fun hr => ?_) hstep
      exact hsafe ⟨hread, hr⟩
    · cases hstep
      refine h.goto _ ?_
      rcases hok with hup | hdown
      · exact hup.ne_connecting
      · rw [hdown.1]
        exact fun heq => by cases heq
  | testWrite w =>
    have hok := h.pc
    rw [hpre.1] at hok
    simp only [ConnLoop.step] at hstep
    split at hstep
    · next hout => exact h.handleWrite hpre.1 hout hsafe hstep
    · cases hstep
      exact h.goto _ hok
  | endEvent =>
    have hok := h.pc
    rw [show s.pc = .phase .done from hpre] at hok
    cases hstep
    exact ⟨h.wire.congr rfl rfl rfl rfl, fun hstate => absurd hstate hok, h.destroy⟩

/-- Every step that finds events left when it calls `handleClose`. -/
theorem step (h : ReadInv b d s) {act : ConnAct τ} (hpre : s.pre act)
    (hsafe : s.closes act → s.eventsLeft act ≠ kNoneEvent)
    (hstep : s.step act = some (s', out)) : ReadInv b (d || s.destroys act) s' := by
  cases act with
  | runTask w => exact h.runTask hpre.1 hsafe hstep
  | callbackReturns => exact h.callbackReturns hstep
  | _ => simpa [destroys] using h.stepOther (by simp) (by simp) hpre hsafe hstep

/-- `handleClose` is called only on a connection that is up. -/
lemma isOpen_of_closes (h : ReadInv b d s) {act : ConnAct τ} (hpre : s.pre act)
    (hcloses : s.closes act) : s.isOpen := by
  have hok := h.pc
  cases act with
  | testClose =>
    rw [show s.pc = .phase .close from hpre] at hok
    exact hok.1
  | testRead r =>
    rw [hpre.1] at hok
    exact hok.resolve_right fun hdown => hcloses.1 hdown.2
  | testWrite w => exact Or.inr hcloses.1
  | runTask w => exact hcloses.2
  | _ => exact hcloses.elim

/-- `connectDestroyed` is called only on a connection that is down. -/
lemma down_of_destroys (h : ReadInv b d s) {act : ConnAct τ} (hdestroys : s.destroys act = true) :
    s.conn.state = .KDisconnected := by
  cases act with
  | runTask w =>
    simp only [destroys] at hdestroys
    split at hdestroys
    · next htasks => exact h.destroy (Or.inl (by rw [htasks]; exact List.mem_cons_self))
    · cases hdestroys
  | callbackReturns =>
    have hok := h.pc
    simp only [destroys] at hdestroys
    split at hdestroys
    · next hpc =>
      rw [hpc] at hok
      exact hok.1
    · cases hdestroys
  | _ => cases hdestroys

end ReadInv

end ConnLoop

/-! ### The connection with its toggles -/

/-- A connection with `reading_`, and the posted `startRead`s. -/
structure ReadLoop (τ : Type) where
  loop : ConnLoop τ
  /-- `reading_`. -/
  reading : Bool
  /-- For every `startRead` in the queue, how many tasks of the connection are ahead of it. -/
  startReads : List ℕ
  /-- `connectDestroyed` has run. -/
  destroyed : Bool

/-- The steps of the connection, and the toggles. -/
inductive ReadAct (τ : Type) where
  | loop (act : ConnAct τ)
  /-- `startRead` on the loop thread, which runs `stopReadInLoop` at once. -/
  | startRead
  /-- `startRead` on another thread, which posts it. -/
  | postStartRead
  /-- The loop thread runs a posted `stopReadInLoop`. -/
  | runStartRead
  | stopRead

/-- The step takes a task out of the queue. -/
def ConnAct.isTask {τ : Type} : ConnAct τ → Bool
  | .runTask _ => true
  | _ => false

namespace ReadLoop

variable {τ : Type}

/-- A new connection. -/
def new (loop : ConnLoop τ) : ReadLoop τ where
  loop := loop
  reading := true
  startReads := []
  destroyed := false

/-- The channel after an operation on it. -/
def withChannel (s : ReadLoop τ) (r : EPollPoller × Channel) : ReadLoop τ :=
  { s with loop := { s.loop with poller := r.1, conn := { s.loop.conn with channel := r.2 } } }

/-- `stopReadInLoop()`, which starts reading; `startRead` binds it. -/
def stopReadInLoop (s : ReadLoop τ) : Option (ReadLoop τ) :=
  if s.reading = false ∨ ¬ s.loop.conn.channel.isReading then
    (s.loop.conn.channel.enableReading s.loop.poller).map
      fun r => { s.withChannel r with reading := true }
  else some s

/-- `stopRead()`. -/
def stopRead (s : ReadLoop τ) : Option (ReadLoop τ) :=
  if s.reading = true ∨ s.loop.conn.channel.isReading then
    (s.loop.conn.channel.disableReading s.loop.poller).map
      fun r => { s.withChannel r with reading := false }
  else some s

/-- When a step can be taken.  The queue is first in, first out, and nobody knows the connection
before it is established. -/
def pre (s : ReadLoop τ) : ReadAct τ → Prop
  | .loop act => s.loop.pre act ∧ (act.isTask = true → ∀ n ∈ s.startReads, 0 < n)
  | .startRead | .stopRead => s.loop.inUserCode
  | .postStartRead => s.loop.conn.state ≠ .KConnecting
  | .runStartRead => s.startReads.head? = some 0 ∧ s.loop.pc = .idle ∧
      s.loop.dispatch.eventHandling = false

instance (s : ReadLoop τ) (act : ReadAct τ) : Decidable (s.pre act) := by
  unfold pre
  split <;> infer_instance

/-- The effect of a step. -/
def step (s : ReadLoop τ) : ReadAct τ → Option (ReadLoop τ × List (ConnEvent τ))
  | .loop act => (s.loop.step act).map fun r =>
      ({ s with
          loop := r.1
          startReads := if act.isTask then s.startReads.map Nat.pred else s.startReads
          destroyed := s.destroyed || s.loop.destroys act }, r.2)
  | .startRead => s.stopReadInLoop.map fun s' => (s', [])
  | .postStartRead => some ({ s with startReads := s.startReads ++ [s.loop.tasks.length] }, [])
  | .runStartRead =>
    { s with startReads := s.startReads.tail }.stopReadInLoop.map fun s' => (s', [])
  | .stopRead => s.stopRead.map fun s' => (s', [])

/-- All runs. -/
def machine (τ : Type) : Machine (ReadLoop τ) (ReadAct τ) (ConnEvent τ) where
  pre := pre
  step := step

instance (s : ReadLoop τ) (act : ReadAct τ) : Decidable ((machine τ).pre s act) :=
  inferInstanceAs (Decidable (s.pre act))

/-- `handleClose` finds events on the channel; no `startRead` runs on a connection that is down; and
no `stopRead` that has something to do. -/
def Harmless (s : ReadLoop τ) : ReadAct τ → Prop
  | .loop act => s.loop.closes act → s.loop.eventsLeft act ≠ kNoneEvent
  | .startRead | .runStartRead => s.loop.conn.state ≠ .KDisconnected
  | .postStartRead => True
  | .stopRead => s.loop.conn.state = .KDisconnected →
      s.reading = false ∧ ¬ s.loop.conn.channel.isReading

instance [DecidableEq τ] (s : ReadLoop τ) (act : ReadAct τ) : Decidable (s.Harmless act) := by
  unfold Harmless
  split <;> infer_instance

variable {s s' : ReadLoop τ} {act : ReadAct τ} {t out : List (ConnEvent τ)}

/-- The invariant of the connection, and what is known of the posted `startRead`s. -/
structure ToggleInv (s : ReadLoop τ) : Prop where
  loop : ConnLoop.ReadInv s.reading s.destroyed s.loop
  known : s.startReads ≠ [] → s.loop.conn.state ≠ .KConnecting

namespace ToggleInv

/-- A toggle changes the channel and keeps the rest. -/
lemma withChannel (h : ToggleInv s) {r : EPollPoller × Channel} {reading : Bool}
    (hwire : Wire reading s.destroyed s.loop.conn.state r.1 r.2 ∧
      SameChannel s.loop.conn.channel r.2) :
    ToggleInv { s.withChannel r with reading := reading } where
  loop := h.loop.withConn { s.loop.conn with channel := r.2 } hwire.1 rfl hwire.2
  known := h.known

/-- `stopReadInLoop()` keeps the invariant while the connection is up. -/
lemma stopReadInLoop (h : ToggleInv s) (hup : s.loop.conn.state.IsUp)
    (heq : s.stopReadInLoop = some s') : ToggleInv s' := by
  have hwire := h.loop.wire
  unfold ReadLoop.stopReadInLoop at heq
  split at heq
  · obtain ⟨r, hr, heq⟩ := Option.map_eq_some_iff.mp heq
    subst heq
    exact h.withChannel (hwire.update true s.loop.conn.state hup.ne_down hr
      (fun hnone => hwire.mask.union_read_ne hnone.2) hwire.mask.union_read hup.ne_connecting
      (fun _ => iff_of_true rfl hwire.mask.union_read_inter) fun hdown => absurd hdown hup.ne_down)
  · cases heq
    exact h

/-- `stopRead()` keeps it, for on a connection that is down there is nothing to switch off. -/
lemma stopRead (h : ToggleInv s) (hstate : s.loop.conn.state ≠ .KConnecting)
    (hdown : s.loop.conn.state = .KDisconnected →
      s.reading = false ∧ ¬ s.loop.conn.channel.isReading)
    (heq : s.stopRead = some s') : ToggleInv s' := by
  have hwire := h.loop.wire
  unfold ReadLoop.stopRead at heq
  split at heq
  · next hreading =>
    obtain ⟨r, hr, heq⟩ := Option.map_eq_some_iff.mp heq
    subst heq
    have hne : s.loop.conn.state ≠ .KDisconnected := by
      intro heq
      obtain ⟨hoff, hnot⟩ := hdown heq
      rcases hreading with hon | hon
      · rw [hoff] at hon
        cases hon
      · exact hnot hon
    have hup := StateE.isUp_of_ne hstate hne
    have hreads : s.loop.conn.channel.isReading := hreading.elim (hwire.up hup).mp id
    have hevents : s.loop.conn.channel.events ≠ kNoneEvent := by
      intro hnone
      rw [Channel.isReading, hnone] at hreads
      exact hreads (by decide)
    exact h.withChannel (hwire.update false s.loop.conn.state hne hr
      (fun hnone => hevents hnone.1) hwire.mask.sdiff_read hup.ne_connecting
      (fun _ => iff_of_false (by decide) (by simp [hwire.mask.sdiff_read_inter]))
      fun heq => absurd heq hne)
  · cases heq
    exact h

/-- A toggle makes nothing known and keeps `state_`. -/
lemma once_toggle (heq : s.stopReadInLoop = some s' ∨ s.stopRead = some s') :
    ConnLoop.Once s.loop [] s'.loop := by
  rcases heq with heq | heq
  · unfold ReadLoop.stopReadInLoop at heq
    split at heq
    · obtain ⟨r, -, heq⟩ := Option.map_eq_some_iff.mp heq
      subst heq
      exact .quiet rfl le_rfl rfl rfl
    · cases heq
      exact .quiet rfl le_rfl rfl rfl
  · unfold ReadLoop.stopRead at heq
    split at heq
    · obtain ⟨r, -, heq⟩ := Option.map_eq_some_iff.mp heq
      subst heq
      exact .quiet rfl le_rfl rfl rfl
    · cases heq
      exact .quiet rfl le_rfl rfl rfl

/-- Every harmless step. -/
theorem step (h : ToggleInv s) (hpre : s.pre act) (hok : s.Harmless act)
    (hstep : s.step act = some (s', out)) :
    ToggleInv s' ∧ ConnLoop.Once s.loop out s'.loop := by
  cases act with
  | loop act =>
    obtain ⟨r, hr, heq⟩ := Option.map_eq_some_iff.mp hstep
    cases heq
    have honce := ConnLoop.Once.step hr
    refine ⟨⟨h.loop.step hpre.1 hok hr, fun hposted hconnecting => ?_⟩, honce⟩
    refine h.known (fun hnil => hposted ?_) (honce.connecting hconnecting)
    simp [hnil]
  | startRead =>
    obtain ⟨s₁, hs₁, heq⟩ := Option.map_eq_some_iff.mp hstep
    cases heq
    have hup := StateE.isUp_of_ne (h.loop.state_of_inUserCode hpre) hok
    exact ⟨h.stopReadInLoop hup hs₁, once_toggle (Or.inl hs₁)⟩
  | postStartRead =>
    cases hstep
    exact ⟨⟨h.loop, fun _ => hpre⟩, .quiet rfl le_rfl rfl rfl⟩
  | runStartRead =>
    obtain ⟨s₁, hs₁, heq⟩ := Option.map_eq_some_iff.mp hstep
    cases heq
    have hposted : s.startReads ≠ [] := by
      intro hnil
      simp [ReadLoop.pre, hnil] at hpre
    have hpop : ToggleInv { s with startReads := s.startReads.tail } :=
      ⟨h.loop, fun _ => h.known hposted⟩
    have hup := StateE.isUp_of_ne (h.known hposted) hok
    exact ⟨hpop.stopReadInLoop hup hs₁, once_toggle (s := { s with
      startReads := s.startReads.tail }) (Or.inl hs₁)⟩
  | stopRead =>
    obtain ⟨s₁, hs₁, heq⟩ := Option.map_eq_some_iff.mp hstep
    cases heq
    exact ⟨h.stopRead (h.loop.state_of_inUserCode hpre) hok hs₁, once_toggle (Or.inr hs₁)⟩

/-- A new connection whose descriptor the poller does not know. -/
lemma new {kind : OwnerKind} {address fd highWaterMark : ℕ}
    {connectionCallback writeCompleteCallback highWaterMarkCallback handling : Bool}
    {poller : EPollPoller} (hchannels : poller.channels fd = none)
    (hinterest : poller.interest fd = none) :
    ToggleInv (new (.newConnection kind (.new address fd highWaterMark connectionCallback
      writeCompleteCallback highWaterMarkCallback) poller handling) : ReadLoop τ) := by
  refine ⟨⟨⟨Or.inl ⟨rfl, rfl, hchannels, hinterest⟩, Or.inl rfl, fun _ => ⟨rfl, rfl⟩, ?_, ?_, ?_⟩,
    ?_, ?_⟩, fun hposted => absurd rfl hposted⟩
  · exact fun hup => absurd rfl hup.ne_connecting
  · exact fun hdown => by cases hdown
  · exact fun hgone => by cases hgone
  · by_cases hkind : kind = .serverOtherLoop
    · simp [ReadLoop.new, ConnLoop.newConnection, hkind, ConnPc.Ok]
    · simp [ReadLoop.new, ConnLoop.newConnection, hkind, ConnPc.Ok]
  · intro hmem
    by_cases hkind : kind = .serverOtherLoop
    · simp [ReadLoop.new, ConnLoop.newConnection, hkind] at hmem
    · simp [ReadLoop.new, ConnLoop.newConnection, hkind] at hmem

end ToggleInv

/-- What the toggles must leave intact.  Whenever the connection is down the channel has no events
and no entry in the interest list; after `connectDestroyed` it is not in the table of the poller
either; `connectDestroyed` finds no events; no event of a connection that is down is dispatched;
`handleClose` is called only on a connection that is up, and was called at most once. -/
structure Undisturbed (t : List (ConnEvent τ)) (s : ReadLoop τ) : Prop where
  events : s.loop.conn.state = .KDisconnected → s.loop.conn.channel.events = kNoneEvent ∧
    s.loop.poller.interest s.loop.conn.channel.fd = none
  table : s.destroyed = true → s.loop.poller.channels s.loop.conn.channel.fd = none
  remove : ∀ act, s.loop.destroys act = true → s.loop.conn.channel.isNoneEvent
  dispatch : s.loop.conn.state = .KDisconnected → s.loop.pc ≠ .polled ∧
    ∀ revents, ¬ s.loop.pre (.poll revents)
  handleClose : ∀ act, s.loop.pre act → s.loop.closes act → s.loop.isOpen
  once : (ConnLoop.writes t).count .KDisconnected ≤ 1

/-- In every run of a connection all of whose steps are harmless, the toggles disturb nothing. -/
theorem read_toggles_undisturbed {kind : OwnerKind} {address fd highWaterMark : ℕ}
    {connectionCallback writeCompleteCallback highWaterMarkCallback handling : Bool}
    {poller : EPollPoller} (hchannels : poller.channels fd = none)
    (hinterest : poller.interest fd = none)
    (h : ((machine τ).restrict Harmless).Run (new (.newConnection kind (.new address fd
      highWaterMark connectionCallback writeCompleteCallback highWaterMarkCallback) poller
        handling)) t s) : Undisturbed t s := by
  obtain ⟨hinv, honce⟩ : ToggleInv s ∧ ConnLoop.OnceInv t s.loop := by
    refine h.invariant (fun t s => ToggleInv s ∧ ConnLoop.OnceInv t s.loop)
      ⟨.new hchannels hinterest, .newConnection _ _ _ _⟩ fun t s act s' out hinv hpre hstep => ?_
    obtain ⟨hinv', honce'⟩ := hinv.1.step hpre.1 hpre.2 hstep
    exact ⟨hinv', hinv.2.step honce'⟩
  have hwire := hinv.loop.wire
  refine ⟨fun hdown => ?_, fun hgone => (hwire.gone hgone).2, fun act hdestroys => ?_,
    fun hdown => ⟨fun hpc => ?_, fun revents hpre => ?_⟩, fun act => hinv.loop.isOpen_of_closes,
    honce.count_le⟩
  · refine ⟨hwire.down hdown, ?_⟩
    rw [hwire.consistent.interest, if_pos (hwire.down hdown)]
  · exact hwire.down (hinv.loop.down_of_destroys hdestroys)
  · have hok := hinv.loop.pc
    rw [hpc] at hok
    exact hok.1.ne_down hdown
  · obtain ⟨-, -, events, hentry, hreports⟩ := hpre
    exact (hinv.loop.poll hentry hreports).1.ne_down hdown

/-- Reading is stopped in the up callback and started again by another thread; then the connection
is closed and destroyed. -/
theorem read_toggles_undisturbed_restart :
    ∃ t s, ((machine ℕ).restrict Harmless).Run (new (.newConnection .serverSameLoop
        (.new 1 5 64 true true true) ConnLoop.emptyPoller true)) t s ∧
      (s.reading = true ∧ s.destroyed = true ∧ s.loop.conn.state = .KDisconnected) ∧
      Undisturbed t s := by
  obtain ⟨t, s, hrun, hs⟩ := ((machine ℕ).restrict Harmless).exists_run_of_exec
    (new (.newConnection .serverSameLoop (.new 1 5 64 true true true) ConnLoop.emptyPoller true))
    [.loop .connectEstablished, .stopRead, .loop .callbackReturns, .loop .endHandling,
      .postStartRead, .loop .forceClose, .runStartRead, .loop (.runTask (.ok 0)),
      .loop .callbackReturns, .loop (.runTask (.ok 0))]
    (fun s _ => s.reading = true ∧ s.destroyed = true ∧ s.loop.conn.state = .KDisconnected)
    (by decide +kernel)
  exact ⟨t, s, hrun, hs, read_toggles_undisturbed rfl rfl hrun⟩

/-- A `startRead` posted behind `forceClose` runs between `handleClose` and `connectDestroyed`: the
connection is down and monitored again. -/
theorem read_toggles_disturb : ¬ ∀ t s, (machine ℕ).Run (new (.newConnection .serverSameLoop
    (.new 1 5 64 true true true) ConnLoop.emptyPoller true)) t s → Undisturbed t s := by
  intro h
  obtain ⟨t, s, hrun, hdown, hevents⟩ := (machine ℕ).exists_run_of_exec
    (new (.newConnection .serverSameLoop (.new 1 5 64 true true true) ConnLoop.emptyPoller true))
    [.loop .connectEstablished, .loop .callbackReturns, .loop .endHandling, .loop .forceClose,
      .postStartRead, .loop (.runTask (.ok 0)), .loop .callbackReturns, .runStartRead]
    (fun s _ => s.loop.conn.state = .KDisconnected ∧ s.loop.conn.channel.events = kReadEvent)
    (by decide +kernel)
  have hnone := ((h t s hrun).events hdown).1
  rw [hevents] at hnone
  exact absurd hnone (by decide)

/-- A `stopRead` in the down callback puts the descriptor back into the interest list, since
`reading_` is still set. -/
example : (machine ℕ).Reaches (new (.newConnection .serverSameLoop (.new 1 5 64 true true true)
    ConnLoop.emptyPoller true))
    [.loop .connectEstablished, .loop .callbackReturns, .loop .endHandling, .loop .forceClose,
      .loop (.runTask (.ok 0)), .stopRead]
    fun s _ => s.loop.conn.state = .KDisconnected ∧
      s.loop.poller.interest 5 = some kNoneEvent := by
  decide +kernel

/-- So does `handleClose` after a `stopRead`, since the channel has no events any more. -/
example : (machine ℕ).Reaches (new (.newConnection .serverSameLoop (.new 1 5 64 true true true)
    ConnLoop.emptyPoller true))
    [.loop .connectEstablished, .stopRead, .loop .callbackReturns, .loop .endHandling,
      .loop .forceClose, .loop (.runTask (.ok 0))]
    fun s _ => s.loop.conn.state = .KDisconnected ∧
      s.loop.poller.interest 5 = some kNoneEvent := by
  decide +kernel

end ReadLoop

end MuduoServer
