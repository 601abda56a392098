import MuduoServer.Channel.Interest
import MuduoServer.Tcp.Lifecycle

/-!
# What a connection touches

A loop serves many channels, and a function of one connection has to leave the others alone.  All it
can change outside the connection is what the poller knows about its own descriptor, and the end of
the queue.  `Local` says so, and holds of every function of the connection, whatever state it is
called in.  Only `remove()` takes a channel out of the table of the poller; `update()` keeps every
entry.
-/

namespace MuduoServer

/-- A channel that is added to the loop is known to the poller. -/
def Channel.Tidy (c : Channel) : Prop := c.addedToLoop = true → c.index ≠ .kNew

namespace Channel

variable {p p' : EPollPoller} {c c' : Channel} {d : LoopDispatch}

/-- What an operation on a channel leaves alone. -/
structure Touches (p : EPollPoller) (c : Channel) (p' : EPollPoller) (c' : Channel) : Prop where
  elsewhere : SameElsewhere c.fd p p'
  address : c'.address = c.address
  fd : c'.fd = c.fd
  handling : c'.eventHandling = c.eventHandling
  tidy : c.Tidy → c'.Tidy

/-- `update()` changes the entry of its own descriptor, the index and `addedToLoop`. -/
lemma Touches.update (h : c.update p = some (p', c')) : Touches p c p' c' := by
  rcases EPollPoller.updateChannel_eq_some h with ⟨-, -, rfl, rfl⟩ | ⟨-, -, rfl, rfl⟩ |
    ⟨-, -, rfl, rfl⟩ | ⟨hindex, -, rfl, rfl⟩
  · refine ⟨fun fd hfd => ?_, rfl, rfl, rfl, fun _ _ => nofun⟩
    unfold EPollPoller.update
    split <;> simp [Function.update_of_ne hfd]
  · exact ⟨sameElsewhere_update _ rfl, rfl, rfl, rfl, fun _ _ => nofun⟩
  · exact ⟨sameElsewhere_update _ rfl, rfl, rfl, rfl, fun _ _ => nofun⟩
  · refine ⟨sameElsewhere_update _ rfl, rfl, rfl, rfl, fun _ _ hnew => ?_⟩
    cases hindex.symm.trans hnew

/-- `remove()` changes the entry of its own descriptor, the index and `addedToLoop`. -/
lemma Touches.remove (h : c.remove d p = some (p', c')) : Touches p c p' c' := by
  obtain ⟨-, -, h⟩ := remove_eq_some h
  obtain ⟨-, rfl, hchannels, hinterest⟩ := EPollPoller.removeChannel_eq_some h
  refine ⟨fun fd hfd => ⟨?_, ?_⟩, rfl, rfl, rfl, fun _ => nofun⟩
  · rw [hchannels, Function.update_of_ne hfd]
  · rcases hinterest with ⟨-, hinterest⟩ | ⟨-, hinterest⟩
    · rw [hinterest]
      exact (sameElsewhere_update .EPOLL_CTL_DEL rfl fd hfd).2
    · rw [hinterest]

/-- All operations that set events go through `update()`. -/
lemma Touches.apply (op : ChannelOp) {r : EPollPoller × Channel} (h : op.apply c p = some r) :
    Touches p c r.1 r.2 := by
  rw [ChannelOp.apply_eq] at h
  obtain ⟨helsewhere, haddress, hfd, hhandling, htidy⟩ := Touches.update h
  exact ⟨helsewhere, haddress, hfd, hhandling, htidy⟩

/-- `update()` takes no channel out of the table. -/
lemma channels_update (h : c.update p = some (p', c')) {fd a : ℕ} (ha : p.channels fd = some a) :
    p'.channels fd = some a := by
  rcases EPollPoller.updateChannel_eq_some h with ⟨-, hfree, rfl, -⟩ | ⟨-, -, rfl, -⟩ |
    ⟨-, -, rfl, -⟩ | ⟨-, -, rfl, -⟩
  · have hne : fd ≠ c.fd := by
      rintro rfl
      cases hfree.symm.trans ha
    rw [EPollPoller.channels_update]
    simpa only [Function.update_of_ne hne] using ha
  · rwa [EPollPoller.channels_update]
  · rwa [EPollPoller.channels_update]
  · rwa [EPollPoller.channels_update]

end Channel

/-- The step is one of a function of the connection, and not of the loop. -/
def ConnAct.ofConn {τ : Type} : ConnAct τ → Bool
  | .runTask _ | .poll _ | .pollOther | .endHandling | .handleEvent | .endEvent => false
  | _ => true

/-- The step is a call from outside: by user code, by another thread or by the server's loop. -/
def ConnAct.isCall {τ : Type} : ConnAct τ → Bool
  | .postSend _ _ | .send _ _ | .forceClose | .retrieve _ | .removeConnectionInLoop => true
  | _ => false

namespace ConnLoop

variable {τ : Type} {s s' s'' : ConnLoop τ} {out : List (ConnEvent τ)}

/-- When a callback returns, the connection is not left waiting for its turn. -/
lemma ofReturn_ne_polled (k : Option Phase) : ConnPc.ofReturn k ≠ .polled := by
  cases k <;> nofun

/-- What a function of the connection leaves alone outside it. -/
structure Local (s s' : ConnLoop τ) : Prop where
  channel : Channel.Touches s.poller s.conn.channel s'.poller s'.conn.channel
  dispatch : s'.dispatch = s.dispatch
  tasks : s.tasks <+: s'.tasks
  /-- No function of the connection makes it wait for its turn. -/
  polled : s'.pc = .polled → s.pc = .polled

namespace Local

/-- Nothing but the connection and the place of the loop thread has changed. -/
lemma of_eq (hpoller : s'.poller = s.poller) (hchannel : s'.conn.channel = s.conn.channel)
    (hdispatch : s'.dispatch = s.dispatch) (htasks : s.tasks <+: s'.tasks)
    (hpolled : s'.pc = .polled → s.pc = .polled) : Local s s' := by
  refine ⟨?_, hdispatch, htasks, hpolled⟩
  rw [hpoller, hchannel]
  exact ⟨fun _ _ => ⟨rfl, rfl⟩, rfl, rfl, rfl, id⟩

/-- To do nothing is local. -/
lemma refl (s : ConnLoop τ) : Local s s := .of_eq rfl rfl rfl (List.prefix_refl _) id

/-- Local changes compose: the channel keeps its descriptor from one to the next. -/
lemma trans (h : Local s s') (h' : Local s' s'') : Local s s'' := by
  refine ⟨⟨fun fd hfd => ?_, h'.channel.address.trans h.channel.address,
    h'.channel.fd.trans h.channel.fd, h'.channel.handling.trans h.channel.handling,
    h'.channel.tidy ∘ h.channel.tidy⟩,
    h'.dispatch.trans h.dispatch, h.tasks.trans h'.tasks, h.polled ∘ h'.polled⟩
  obtain ⟨hchannels, hinterest⟩ := h.channel.elsewhere fd hfd
  obtain ⟨hchannels', hinterest'⟩ := h'.channel.elsewhere fd (h.channel.fd.symm ▸ hfd)
  exact ⟨hchannels'.trans hchannels, hinterest'.trans hinterest⟩

/-- `Local` looks only at the channel and at what lies outside the connection. -/
lemma of_start {s₁ : ConnLoop τ} (h : Local s₁ s') (hpoller : s₁.poller = s.poller)
    (hchannel : s₁.conn.channel = s.conn.channel) (hdispatch : s₁.dispatch = s.dispatch)
    (htasks : s₁.tasks = s.tasks) (hpolled : s₁.pc = .polled → s.pc = .polled) : Local s s' := by
  refine .trans (.of_eq hpoller hchannel hdispatch ?_ hpolled) h
  rw [htasks]

/-- An operation on the channel. -/
lemma of_touches {p : EPollPoller} {c : Channel}
    (h : Channel.Touches s.poller s.conn.channel p c) :
    Local s { s with poller := p, conn := { s.conn with channel := c } } :=
  ⟨h, rfl, List.prefix_refl _, id⟩

/-- A task goes to the end of the queue, and nothing else changes. -/
lemma queueInLoop (s : ConnLoop τ) (task : ConnTask τ) : Local s (s.queueInLoop task) :=
  .of_eq rfl rfl rfl (List.prefix_append _ _) id

/-- A task that is queued under a condition. -/
lemma queue_ite {c : Prop} [Decidable c] (s : ConnLoop τ) (task : ConnTask τ) :
    Local s (if c then s.queueInLoop task else s) := by
  split
  · exact queueInLoop s task
  · exact refl s

/-! ### Sending -/

/-- The direct write touches neither the channel nor the poller. -/
lemma direct (s : ConnLoop τ) (message : List UInt8) (len : ℕ) (w : WriteResult) :
    Local s (s.direct message len w).1 := by
  unfold ConnLoop.direct
  split
  · cases w with
    | ok n =>
      have hfirst : Local s { s with accepted := s.accepted ++ message.take n } :=
        .of_eq rfl rfl rfl (List.prefix_refl _) id
      exact hfirst.trans (queue_ite _ _)
    | error errno => exact refl s
  · exact refl s

/-- What is left of a message goes to the outputBuffer, and `enableWriting()` is all the poller
sees. -/
lemma backlog {data : List UInt8} (h : s.backlog data = some s') : Local s s' := by
  obtain ⟨b, s₁, -, rfl, ⟨-, rfl⟩ | ⟨-, r, hr, rfl⟩⟩ := backlog_eq_some h
  · exact .of_eq rfl rfl rfl (List.prefix_append _ _) id
  · exact ⟨.apply .enableWriting hr, rfl, List.prefix_append _ _, id⟩

/-- `sendInLoop()` is the direct write and, where some of the message is left, the backlog. -/
lemma sendInLoop {message : List UInt8} {len : ℕ} {w : WriteResult}
    (h : s.sendInLoop message len w = some s') : Local s s' := by
  obtain ⟨-, ⟨-, rfl⟩ | ⟨-, r, rfl, -, ⟨-, -, hrest⟩ | ⟨-, rfl⟩⟩⟩ := sendInLoop_eq_some h
  · exact refl _
  · exact (direct s message len w).trans (backlog hrest)
  · exact direct s message len w

/-! ### Opening and closing -/

/-- `handleClose()` calls `disableAll()` on its own channel. -/
lemma handleClose {k : Option Phase} (h : s.handleClose k = some (s', out)) : Local s s' := by
  obtain ⟨-, r, hr, rfl, -⟩ := handleClose_eq_some h
  exact ⟨.apply .disableAll hr, rfl, List.prefix_refl _, nofun⟩

/-- `forceCloseInLoop()` is `handleClose()` or nothing. -/
lemma forceCloseInLoop {k : Option Phase} (h : s.forceCloseInLoop k = some (s', out)) :
    Local s s' := by
  rcases forceCloseInLoop_eq_some h with hclose | ⟨-, rfl, -⟩
  · exact handleClose hclose
  · exact .of_eq rfl rfl rfl (List.prefix_refl _) fun h => absurd h (ofReturn_ne_polled k)

/-- `forceClose()` only queues. -/
lemma forceClose (h : s.forceClose = (s', out)) : Local s s' := by
  rcases forceClose_eq h with ⟨-, rfl, -⟩ | ⟨-, rfl, -⟩
  · exact .of_eq rfl rfl rfl (List.prefix_append _ _) id
  · exact refl _

/-- `connectEstablished()` calls `enableReading()` on its own channel. -/
lemma connectEstablished (h : s.connectEstablished = some (s', out)) : Local s s' := by
  obtain ⟨-, r, hr, rfl, -⟩ := connectEstablished_eq_some h
  obtain ⟨helsewhere, haddress, hfd, hhandling, htidy⟩ := Channel.Touches.apply .enableReading hr
  exact ⟨⟨helsewhere, haddress, hfd, hhandling, htidy⟩, rfl, List.prefix_refl _, nofun⟩

/-- The part of `connectDestroyed()` under the test of `KConnected` calls `disableAll()` at most. -/
lemma takeDown (h : s.takeDown = some (s', out)) : Local s s' := by
  rcases takeDown_eq_some h with ⟨-, r, hr, rfl, -⟩ | ⟨-, rfl, -⟩
  · exact ⟨.apply .disableAll hr, rfl, List.prefix_refl _, id⟩
  · exact refl _

/-- `connectDestroyed()` also removes its own channel. -/
lemma connectDestroyed (h : s.connectDestroyed = some (s', out)) : Local s s' := by
  obtain ⟨s₁, r, hs₁, hr, rfl⟩ := connectDestroyed_eq_some h
  exact (takeDown hs₁).trans (of_touches (Channel.Touches.remove hr))

/-- What the server does in its loop reaches the connection as one queued task. -/
lemma removeConnectionInLoop (h : s.removeConnectionInLoop = some s') : Local s s' := by
  obtain ⟨-, rfl⟩ := removeConnectionInLoop_eq_some h
  exact .of_eq rfl rfl rfl (List.prefix_append _ _) id

/-- What the close callback does depends on the owner; each of the three is local. -/
lemma closeCallback (h : s.closeCallback = some (s', out)) : Local s s' := by
  rcases closeCallback_eq_some h with ⟨-, hremove, -⟩ | ⟨-, rfl, -⟩ | ⟨-, hdestroy⟩
  · exact removeConnectionInLoop hremove
  · exact .of_eq rfl rfl rfl (List.prefix_refl _) id
  · exact (connectDestroyed hdestroy).of_start rfl rfl rfl rfl id

/-! ### The callbacks of the channel -/

/-- `handleRead()` fills the inputBuffer or closes. -/
lemma handleRead {r : ReadResult} (h : s.handleRead r = some (s', out)) : Local s s' := by
  obtain ⟨r', -, ⟨rfl, -⟩ | ⟨-, hclose⟩ | ⟨rfl, -⟩⟩ := handleRead_eq_some h
  · exact .of_eq rfl rfl rfl (List.prefix_refl _) nofun
  · exact (handleClose hclose).of_start rfl rfl rfl rfl id
  · exact .of_eq rfl rfl rfl (List.prefix_refl _) nofun

/-- A write that has sent everything calls `disableWriting()`, and may close. -/
lemma writeComplete (h : s.writeComplete = some (s', out)) : Local s s' := by
  obtain ⟨r, s₁, hr, hs₁, hrest⟩ := writeComplete_eq_some h
  have hfirst : Local s s₁ := by
    rw [hs₁]
    exact ⟨.apply .disableWriting hr, rfl, List.prefix_append _ _, id⟩
  rcases hrest with ⟨-, hclose⟩ | ⟨-, rfl, -⟩
  · exact hfirst.trans (forceCloseInLoop hclose)
  · exact hfirst

/-- `handleWrite()` retrieves from the outputBuffer or logs. -/
lemma handleWrite {w : WriteResult} (h : s.handleWrite w = some (s', out)) : Local s s' := by
  rcases handleWrite_eq_some h with
    ⟨n, b, s₁, -, -, -, -, rfl, ⟨-, hcomplete⟩ | ⟨-, rfl, -⟩⟩ | ⟨rfl, -⟩
  · exact (writeComplete hcomplete).of_start rfl rfl rfl rfl nofun
  · exact .of_eq rfl rfl rfl (List.prefix_refl _) nofun
  · exact .of_eq rfl rfl rfl (List.prefix_refl _) nofun

/-- What follows a callback of the user is local too. -/
lemma callbackReturns (h : s.callbackReturns = some (s', out)) : Local s s' := by
  rcases callbackReturns_eq_some h with
    ⟨-, rfl, -⟩ | ⟨-, rfl, -⟩ | ⟨k, out', -, hclose, -⟩ | ⟨-, rfl, -⟩
  · exact .of_eq rfl rfl rfl (List.prefix_refl _) nofun
  · exact .of_eq rfl rfl rfl (List.prefix_refl _) nofun
  · exact (closeCallback hclose).of_start rfl rfl rfl rfl fun h => absurd h (ofReturn_ne_polled k)
  · exact refl _

/-- Running a task, which is taken out of the queue first. -/
lemma runTask {w : WriteResult} {task : ConnTask τ} {tasks : List (ConnTask τ)}
    (htasks : s.tasks = task :: tasks) (h : s.runTask w = some (s', out)) :
    Local { s with tasks := tasks } s' := by
  unfold ConnLoop.runTask at h
  simp only [htasks] at h
  cases task with
  | connectEstablished => exact connectEstablished h
  | sendInLoop poster message =>
    obtain ⟨s₁, hs₁, h⟩ := Option.map_eq_some_iff.mp h
    obtain ⟨rfl, -⟩ := Prod.mk.inj h
    rw [sendInLoopString, ConnLoop.send] at hs₁
    exact sendInLoop hs₁
  | forceCloseInLoop => exact forceCloseInLoop h
  | writeCompleteCallback =>
    obtain ⟨rfl, -⟩ := Prod.mk.inj (Option.some.inj h)
    exact refl _
  | highWaterMarkCallback size =>
    obtain ⟨rfl, -⟩ := Prod.mk.inj (Option.some.inj h)
    exact refl _
  | connectDestroyed => exact connectDestroyed h

end Local

/-! ### Functions that remove nothing -/

/-- A function that takes no channel out of the table of the poller. -/
def KeepsTable (s s' : ConnLoop τ) : Prop :=
  ∀ fd a, s.poller.channels fd = some a → s'.poller.channels fd = some a

/-- The first half of `sendInLoop` has nothing to do with the poller, nor with where the loop thread
stands. -/
lemma direct_fst (s : ConnLoop τ) (message : List UInt8) (len : ℕ) (w : WriteResult) :
    (s.direct message len w).1.poller = s.poller ∧ (s.direct message len w).1.pc = s.pc := by
  unfold ConnLoop.direct
  split
  · cases w with
    | ok n =>
      simp only [ite_queueInLoop]
      exact ⟨trivial, trivial⟩
    | error errno => exact ⟨rfl, rfl⟩
  · exact ⟨rfl, rfl⟩

/-- The backlog keeps the entries of the table and the place of the loop thread. -/
lemma backlog_keepsTable {data : List UInt8} (h : s.backlog data = some s') :
    KeepsTable s s' ∧ s'.pc = s.pc := by
  obtain ⟨b, s₁, -, rfl, ⟨-, rfl⟩ | ⟨-, r, hr, rfl⟩⟩ := backlog_eq_some h
  · exact ⟨fun _ _ ha => ha, rfl⟩
  · exact ⟨fun _ _ ha => Channel.channels_update hr ha, rfl⟩

/-- `sendInLoop` removes nothing and returns to where it was called. -/
lemma sendInLoop_keepsTable {message : List UInt8} {len : ℕ} {w : WriteResult}
    (h : s.sendInLoop message len w = some s') : KeepsTable s s' ∧ s'.pc = s.pc := by
  obtain ⟨hpoller, hpc⟩ := direct_fst s message len w
  obtain ⟨-, ⟨-, rfl⟩ | ⟨-, r, rfl, -, ⟨-, -, hrest⟩ | ⟨-, rfl⟩⟩⟩ := sendInLoop_eq_some h
  · exact ⟨fun _ _ ha => ha, rfl⟩
  · obtain ⟨hkeeps, hpc'⟩ := backlog_keepsTable hrest
    refine ⟨fun fd a ha => hkeeps fd a ?_, hpc'.trans hpc⟩
    rw [hpoller]
    exact ha
  · refine ⟨fun fd a ha => ?_, hpc⟩
    rw [hpoller]
    exact ha

/-- `connectEstablished` removes nothing. -/
lemma connectEstablished_keepsTable (h : s.connectEstablished = some (s', out)) :
    KeepsTable s s' := by
  obtain ⟨-, r, hr, rfl, -⟩ := connectEstablished_eq_some h
  exact fun _ _ ha => Channel.channels_update hr ha

/-! ### Steps -/

/-- Every step of a function of the connection is local to it. -/
theorem Local.step {act : ConnAct τ} (hact : act.ofConn = true)
    (h : s.step act = some (s', out)) : Local s s' := by
  cases act with
  | postSend caller message =>
    obtain ⟨rfl, -⟩ := Prod.mk.inj (Option.some.inj h)
    exact queueInLoop s _
  | send message w =>
    obtain ⟨s₁, hs₁, h⟩ := Option.map_eq_some_iff.mp h
    obtain ⟨rfl, -⟩ := Prod.mk.inj h
    rw [ConnLoop.send] at hs₁
    exact sendInLoop hs₁
  | forceClose => exact forceClose (Option.some.inj h)
  | retrieve len =>
    obtain ⟨b, -, h⟩ := Option.bind_eq_some_iff.mp h
    obtain ⟨rfl, -⟩ := Prod.mk.inj (Option.some.inj h)
    exact .of_eq rfl rfl rfl (List.prefix_refl _) id
  | connectEstablished => exact connectEstablished h
  | removeConnectionInLoop =>
    obtain ⟨s₁, hs₁, h⟩ := Option.map_eq_some_iff.mp h
    obtain ⟨rfl, -⟩ := Prod.mk.inj h
    exact (removeConnectionInLoop hs₁).of_start rfl rfl rfl rfl id
  | testClose =>
    simp only [ConnLoop.step] at h
    split at h
    · exact handleClose h
    · obtain ⟨rfl, -⟩ := Prod.mk.inj (Option.some.inj h)
      exact .of_eq rfl rfl rfl (List.prefix_refl _) (by simp)
  | testError =>
    obtain ⟨rfl, -⟩ := Prod.mk.inj (Option.some.inj h)
    exact .of_eq rfl rfl rfl (List.prefix_refl _) (by simp)
  | testRead r =>
    simp only [ConnLoop.step] at h
    split at h
    · exact handleRead h
    · obtain ⟨rfl, -⟩ := Prod.mk.inj (Option.some.inj h)
      exact .of_eq rfl rfl rfl (List.prefix_refl _) (by simp)
  | testWrite w =>
    simp only [ConnLoop.step] at h
    split at h
    · exact handleWrite h
    · obtain ⟨rfl, -⟩ := Prod.mk.inj (Option.some.inj h)
      exact .of_eq rfl rfl rfl (List.prefix_refl _) (by simp)
  | callbackReturns => exact callbackReturns h
  | runTask | poll | pollOther | endHandling | handleEvent | endEvent => cases hact

/-- A call from outside leaves the loop thread where it is, and removes nothing. -/
theorem step_keepsTable {act : ConnAct τ} (hact : act.isCall = true)
    (h : s.step act = some (s', out)) : KeepsTable s s' ∧ s'.pc = s.pc := by
  cases act with
  | postSend caller message =>
    obtain ⟨rfl, -⟩ := Prod.mk.inj (Option.some.inj h)
    exact ⟨fun _ _ ha => ha, rfl⟩
  | send message w =>
    obtain ⟨s₁, hs₁, h⟩ := Option.map_eq_some_iff.mp h
    obtain ⟨rfl, -⟩ := Prod.mk.inj h
    rw [ConnLoop.send] at hs₁
    exact sendInLoop_keepsTable hs₁
  | forceClose =>
    rcases forceClose_eq (Option.some.inj h) with ⟨-, rfl, -⟩ | ⟨-, rfl, -⟩
    · exact ⟨fun _ _ ha => ha, rfl⟩
    · exact ⟨fun _ _ ha => ha, rfl⟩
  | retrieve len =>
    obtain ⟨b, -, h⟩ := Option.bind_eq_some_iff.mp h
    obtain ⟨rfl, -⟩ := Prod.mk.inj (Option.some.inj h)
    exact ⟨fun _ _ ha => ha, rfl⟩
  | removeConnectionInLoop =>
    obtain ⟨s₁, hs₁, h⟩ := Option.map_eq_some_iff.mp h
    obtain ⟨rfl, -⟩ := Prod.mk.inj h
    obtain ⟨-, rfl⟩ := removeConnectionInLoop_eq_some hs₁
    exact ⟨fun _ _ ha => ha, rfl⟩
  | _ => cases hact

/-! ### In the dispatch or not -/

/-- After a return the loop thread is inside `handleEvent()` exactly if it has been before. -/
lemma dispatches_ofReturn (k : Option Phase) : (ConnPc.ofReturn k).dispatches = k.isSome := by
  cases k <;> rfl

/-- `handleClose` stays in the dispatch if it was called there. -/
lemma handleClose_dispatches {k : Option Phase} (h : s.handleClose k = some (s', out)) :
    s'.pc.dispatches = k.isSome := by
  obtain ⟨-, r, -, rfl, -⟩ := handleClose_eq_some h
  cases k <;> rfl

/-- `forceCloseInLoop()` stays inside `handleEvent()` exactly if it was called there. -/
lemma forceCloseInLoop_dispatches {k : Option Phase} (h : s.forceCloseInLoop k = some (s', out)) :
    s'.pc.dispatches = k.isSome := by
  rcases forceCloseInLoop_eq_some h with hclose | ⟨-, rfl, -⟩
  · exact handleClose_dispatches hclose
  · exact dispatches_ofReturn k

/-- `handleRead()` leaves the loop thread inside `handleEvent()`. -/
lemma handleRead_dispatches {r : ReadResult} (h : s.handleRead r = some (s', out)) :
    s'.pc.dispatches = true := by
  obtain ⟨r', -, ⟨rfl, -⟩ | ⟨-, hclose⟩ | ⟨rfl, -⟩⟩ := handleRead_eq_some h
  · rfl
  · exact handleClose_dispatches hclose
  · rfl

/-- So does a write that has sent everything. -/
lemma writeComplete_dispatches (hpc : s.pc = .phase .done)
    (h : s.writeComplete = some (s', out)) : s'.pc.dispatches = true := by
  obtain ⟨r, s₁, -, rfl, ⟨-, hclose⟩ | ⟨-, rfl, -⟩⟩ := writeComplete_eq_some h
  · exact forceCloseInLoop_dispatches hclose
  · rw [show ConnLoop.pc _ = .phase .done from hpc]
    rfl

/-- And so does `handleWrite()`. -/
lemma handleWrite_dispatches {w : WriteResult} (h : s.handleWrite w = some (s', out)) :
    s'.pc.dispatches = true := by
  rcases handleWrite_eq_some h with
    ⟨n, b, s₁, -, -, -, -, rfl, ⟨-, hcomplete⟩ | ⟨-, rfl, -⟩⟩ | ⟨rfl, -⟩
  · exact writeComplete_dispatches rfl hcomplete
  · rfl
  · rfl

/-- `connectDestroyed()` does not move the loop thread. -/
lemma connectDestroyed_pc (h : s.connectDestroyed = some (s', out)) : s'.pc = s.pc := by
  obtain ⟨s₁, r, hs₁, -, rfl⟩ := connectDestroyed_eq_some h
  rcases takeDown_eq_some hs₁ with ⟨-, r', -, rfl, -⟩ | ⟨-, rfl, -⟩
  · rfl
  · rfl

/-- Nor does what the server does. -/
lemma removeConnectionInLoop_pc (h : s.removeConnectionInLoop = some s') : s'.pc = s.pc := by
  obtain ⟨-, rfl⟩ := removeConnectionInLoop_eq_some h
  rfl

/-- Nor does the close callback. -/
lemma closeCallback_pc (h : s.closeCallback = some (s', out)) : s'.pc = s.pc := by
  rcases closeCallback_eq_some h with ⟨-, hremove, -⟩ | ⟨-, rfl, -⟩ | ⟨-, hdestroy⟩
  · exact removeConnectionInLoop_pc hremove
  · rfl
  · have hpc := connectDestroyed_pc hdestroy
    exact hpc

/-- A return from a callback does not take the loop thread out of `handleEvent()` or into it. -/
lemma callbackReturns_dispatches (h : s.callbackReturns = some (s', out)) :
    s'.pc.dispatches = s.pc.dispatches := by
  rcases callbackReturns_eq_some h with
    ⟨hpc, rfl, -⟩ | ⟨hpc, rfl, -⟩ | ⟨k, out', hpc, hclose, -⟩ | ⟨-, rfl, -⟩
  · rw [hpc]
    rfl
  · rw [hpc]
    rfl
  · rw [closeCallback_pc hclose, hpc, dispatches_ofReturn]
    cases k <;> rfl
  · rfl

/-- A function of the connection neither enters its dispatch nor leaves it. -/
theorem step_dispatches {act : ConnAct τ} (hact : act.ofConn = true) (hpre : s.pre act)
    (h : s.step act = some (s', out)) : s'.pc.dispatches = s.pc.dispatches := by
  by_cases hcall : act.isCall = true
  · rw [(step_keepsTable hcall h).2]
  · cases act with
    | postSend | send | forceClose | retrieve | removeConnectionInLoop => exact absurd rfl hcall
    | runTask | poll | pollOther | endHandling | handleEvent | endEvent => cases hact
    | connectEstablished =>
      obtain ⟨-, r, -, rfl, -⟩ := connectEstablished_eq_some h
      rw [show s.pc = .newConnection from hpre]
      rfl
    | testClose =>
      rw [show s.pc = .phase .close from hpre]
      simp only [ConnLoop.step] at h
      split at h
      · exact handleClose_dispatches h
      · obtain ⟨rfl, -⟩ := Prod.mk.inj (Option.some.inj h)
        rfl
    | testError =>
      rw [show s.pc = .phase .error from hpre]
      obtain ⟨rfl, -⟩ := Prod.mk.inj (Option.some.inj h)
      rfl
    | testRead r =>
      rw [hpre.1]
      simp only [ConnLoop.step] at h
      split at h
      · exact handleRead_dispatches h
      · obtain ⟨rfl, -⟩ := Prod.mk.inj (Option.some.inj h)
        rfl
    | testWrite w =>
      rw [hpre.1]
      simp only [ConnLoop.step] at h
      split at h
      · exact handleWrite_dispatches h
      · obtain ⟨rfl, -⟩ := Prod.mk.inj (Option.some.inj h)
        rfl
    | callbackReturns => exact callbackReturns_dispatches h

/-- Outside the dispatch and the task of `forceCloseInLoop` nothing is removed. -/
theorem step_keepsTable_of_quiet {act : ConnAct τ} (hact : act.ofConn = true) (hpre : s.pre act)
    (hdispatches : s.pc.dispatches = false) (hclosing : s.pc ≠ .closing none)
    (h : s.step act = some (s', out)) : KeepsTable s s' := by
  by_cases hcall : act.isCall = true
  · exact (step_keepsTable hcall h).1
  · cases act with
    | postSend | send | forceClose | retrieve | removeConnectionInLoop => exact absurd rfl hcall
    | runTask | poll | pollOther | endHandling | handleEvent | endEvent => cases hact
    | connectEstablished => exact connectEstablished_keepsTable h
    | testClose =>
      rw [show s.pc = .phase .close from hpre] at hdispatches
      cases hdispatches
    | testError =>
      rw [show s.pc = .phase .error from hpre] at hdispatches
      cases hdispatches
    | testRead | testWrite =>
      rw [hpre.1] at hdispatches
      cases hdispatches
    | callbackReturns =>
      rcases callbackReturns_eq_some h with
        ⟨-, rfl, -⟩ | ⟨-, rfl, -⟩ | ⟨k, out', hpc, -, -⟩ | ⟨-, rfl, -⟩
      · exact fun _ _ ha => ha
      · exact fun _ _ ha => ha
      · cases k with
        | none => exact absurd hpc hclosing
        | some p =>
          rw [hpc] at hdispatches
          cases hdispatches
      · exact fun _ _ ha => ha

/-- A task runs outside the dispatch. -/
theorem runTask_dispatches {w : WriteResult} (hpc : s.pc = .idle)
    (h : s.runTask w = some (s', out)) : s'.pc.dispatches = false := by
  have hidle : s'.pc = s.pc → s'.pc.dispatches = false := by
    intro hpc'
    rw [hpc', hpc]
    rfl
  unfold ConnLoop.runTask at h
  split at h
  · obtain ⟨rfl, -⟩ := Prod.mk.inj (Option.some.inj h)
    exact hidle rfl
  · split at h
    · obtain ⟨-, r, -, rfl, -⟩ := connectEstablished_eq_some h
      rfl
    · obtain ⟨s₁, hs₁, h⟩ := Option.map_eq_some_iff.mp h
      obtain ⟨rfl, -⟩ := Prod.mk.inj h
      rw [sendInLoopString, ConnLoop.send] at hs₁
      exact hidle (sendInLoop_keepsTable hs₁).2
    · exact forceCloseInLoop_dispatches h
    · obtain ⟨rfl, -⟩ := Prod.mk.inj (Option.some.inj h)
      exact hidle rfl
    · obtain ⟨rfl, -⟩ := Prod.mk.inj (Option.some.inj h)
      exact hidle rfl
    · have hpc' := connectDestroyed_pc h
      exact hidle hpc'

end ConnLoop

end MuduoServer
