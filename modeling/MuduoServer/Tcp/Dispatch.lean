import MuduoServer.Tcp.HostSteps

/-!
# Dispatch and removed channels

While the loop goes through `activeChannels_`, a list of bare pointers, channels are removed and
their memory and descriptors are used again.  A channel whose turn is still to come is out of reach
of all this: only its own functions disable it, the synchronous removal by a client happens inside
its own dispatch, and the removal by a server waits in the queue until the traversal is over.
-/

namespace MuduoServer

namespace LoopHost

open ConnLoop

variable {s s' : LoopHost} {a : ℕ} {h : Hosted}

/-- A channel is removed only outside the traversal of `activeChannels_` or while it is the one that
is dispatched, and a descriptor is closed only when its channel has been removed. -/
def RemovesSafely (s s' : LoopHost) : Prop :=
  (∀ fd a, s.poller.channels fd = some a → s'.poller.channels fd ≠ some a →
      s.stage ≠ .handle ∨ s.dispatch.currentActiveChannel = some a) ∧
    ∀ fd, s.fds fd = true → s'.fds fd = false → s.poller.channels fd = none

namespace RemovesSafely

/-- A step that removes nothing and closes nothing. -/
lemma of_keeps (hchannels : ∀ fd a, s.poller.channels fd = some a → s'.poller.channels fd = some a)
    (hfds : ∀ fd, s.fds fd = true → s'.fds fd = true) : RemovesSafely s s' := by
  refine ⟨fun fd a ha ha' => absurd (hchannels fd a ha) ha', fun fd hfd hfd' => ?_⟩
  cases hfd'.symm.trans (hfds fd hfd)

/-- A step that does not concern the poller or the descriptors. -/
lemma of_eq (hpoller : s'.poller = s.poller) (hfds : s'.fds = s.fds) : RemovesSafely s s' := by
  refine of_keeps (fun fd a ha => ?_) fun fd hfd => ?_
  · rw [hpoller]
    exact ha
  · rw [hfds]
    exact hfd

/-- A new descriptor is opened. -/
lemma of_open {fd : ℕ} (hpoller : s'.poller = s.poller)
    (hfds : s'.fds = Function.update s.fds fd true) : RemovesSafely s s' := by
  refine of_keeps (fun fd' a ha => ?_) fun fd' hfd' => ?_
  · rw [hpoller]
    exact ha
  · rw [hfds]
    by_cases heq : fd' = fd
    · rw [heq]
      exact Function.update_self ..
    · rw [Function.update_of_ne heq]
      exact hfd'

end RemovesSafely

namespace HostInv

/-- In the table a descriptor of a connection leads to that connection. -/
lemma channels_eq (hinv : HostInv s) (ha : s.conns a = some h) {b : ℕ}
    (hb : s.poller.channels h.conn.channel.fd = some b) : b = a := by
  obtain ⟨haddress, -, -, st, hst⟩ := hinv.sound a h ha
  have hwired : st.Wired s.poller h.conn.channel := hst.conn.wired
  have hentry : s.poller.channels h.conn.channel.fd = some h.conn.channel.address := by
    cases st with
    | created | queued | destroyed => cases hwired.channels.symm.trans hb
    | up => exact hwired.channels
    | down | removing | destroying => exact hwired.channels
  rw [← haddress]
  exact Option.some.inj (hb.symm.trans hentry)

/-- A function of a connection can remove only the channel of the connection, and only in its
dispatch or outside the traversal. -/
lemma conn_removesSafely (hinv : HostInv s) (ha : s.conns a = some h) {act : ConnAct Unit}
    {r : ConnLoop Unit × List (ConnEvent Unit)} (hact : act.ofConn = true)
    (hpre : (s.view a h).pre act) (hr : (s.view a h).step act = some r) :
    RemovesSafely s (s.put a r.1) := by
  refine ⟨fun fd b hb hb' => ?_, fun fd hfd hfd' => by cases hfd.symm.trans hfd'⟩
  have hfd : fd = h.conn.channel.fd := by
    by_contra hne
    exact hb' (((Local.step hact hr).channel.elsewhere fd hne).1.trans hb)
  subst hfd
  obtain rfl := hinv.channels_eq ha hb
  obtain ⟨haddress, -, -, st, hst⟩ := hinv.sound b h ha
  by_cases hdispatches : (s.pcOf b).dispatches = true
  · exact Or.inr ((hst.control.active hdispatches).trans (congrArg some haddress))
  · by_cases hclosing : s.pcOf b = .closing none
    · refine Or.inl fun hstage => ?_
      have htask : s.dispatch.eventHandling = false := hst.control.task hclosing
      cases htask.symm.trans (hinv.shape.handling.mpr hstage)
    · exact absurd (step_keepsTable_of_quiet hact hpre ((Bool.not_eq_true _).mp hdispatches)
        hclosing hr _ b hb) hb'

/-- Every step removes and closes safely. -/
theorem removesSafely (hinv : HostInv s) {act : HostAct} (hpre : s.pre act)
    (hstep : s.step act = some s') : RemovesSafely s s' := by
  cases act with
  | construct k a fd =>
    obtain rfl := Option.some.inj hstep
    exact .of_open rfl rfl
  | newConnection kind a fd highWaterMark w k =>
    obtain rfl := Option.some.inj hstep
    exact .of_open rfl rfl
  | enableReading a =>
    obtain ⟨p, -, hstep⟩ := Option.bind_eq_some_iff.mp hstep
    obtain ⟨r, hr, hstep⟩ := Option.bind_eq_some_iff.mp hstep
    obtain rfl := Option.some.inj hstep
    exact .of_keeps (fun _ _ ha => Channel.channels_update hr ha) fun _ hfd => hfd
  | conn a act =>
    obtain ⟨hcalls, h, ha, hpre⟩ := hpre
    obtain ⟨h', ha', hstep⟩ := Option.bind_eq_some_iff.mp hstep
    obtain rfl := Option.some.inj (ha'.symm.trans ha)
    obtain ⟨r, hr, hstep⟩ := Option.bind_eq_some_iff.mp hstep
    obtain rfl := Option.some.inj hstep
    exact hinv.conn_removesSafely ha (callsConn_ofConn hcalls) hpre hr
  | timer act =>
    obtain ⟨r, -, hstep⟩ := Option.bind_eq_some_iff.mp hstep
    obtain rfl := Option.some.inj hstep
    exact .of_eq rfl rfl
  | report fd revents =>
    obtain ⟨a, -, hstep⟩ := Option.bind_eq_some_iff.mp hstep
    obtain ⟨c, -, hstep⟩ := Option.bind_eq_some_iff.mp hstep
    obtain rfl := Option.some.inj hstep
    exact .of_eq rfl rfl
  | handleEvent =>
    simp only [LoopHost.step] at hstep
    split at hstep
    · obtain rfl := Option.some.inj hstep
      exact .of_eq rfl rfl
    · unfold LoopHost.handleEvent at hstep
      split at hstep
      · obtain ⟨r, hr, hstep⟩ := Option.bind_eq_some_iff.mp hstep
        obtain rfl := Option.some.inj hr
        obtain rfl := Option.some.inj hstep
        exact .of_eq rfl rfl
      · obtain ⟨c, -, hstep⟩ := Option.bind_eq_some_iff.mp hstep
        obtain rfl := Option.some.inj hstep
        exact .of_eq rfl rfl
  | endEvent =>
    simp only [LoopHost.step, LoopHost.endEvent] at hstep
    split at hstep
    · obtain ⟨h, -, hstep⟩ := Option.bind_eq_some_iff.mp hstep
      obtain ⟨r, hr, hstep⟩ := Option.bind_eq_some_iff.mp hstep
      obtain rfl := Option.some.inj hr
      obtain rfl := Option.some.inj hstep
      exact .of_eq rfl rfl
    · obtain ⟨c, -, hstep⟩ := Option.bind_eq_some_iff.mp hstep
      obtain rfl := Option.some.inj hstep
      exact .of_eq rfl rfl
    · obtain rfl := Option.some.inj hstep
      exact .of_eq rfl rfl
  | runFunctor w =>
    -- outside the traversal everything may be removed
    have hstage : s.stage ≠ .handle := by
      rw [hpre.1.2.2]
      decide
    refine ⟨fun _ _ _ _ => Or.inl hstage, fun fd hfd hfd' => ?_⟩
    have hfds : s'.fds = s.fds := by
      simp only [LoopHost.step, LoopHost.runFunctor] at hstep
      split at hstep
      · obtain rfl := Option.some.inj hstep
        rfl
      · obtain rfl := Option.some.inj hstep
        rfl
      · obtain ⟨h, -, hstep⟩ := Option.bind_eq_some_iff.mp hstep
        obtain ⟨r, -, hstep⟩ := Option.bind_eq_some_iff.mp hstep
        obtain rfl := Option.some.inj hstep
        rfl
    rw [hfds] at hfd'
    cases hfd.symm.trans hfd'
  | destroy a =>
    obtain ⟨h, ha, hun⟩ := hpre
    obtain ⟨h', ha', hstep⟩ := Option.bind_eq_some_iff.mp hstep
    obtain rfl := Option.some.inj (ha'.symm.trans ha)
    obtain ⟨-, hstep⟩ := Option.ite_none_right_eq_some.mp hstep
    obtain rfl := Option.some.inj hstep
    refine ⟨fun fd b hb hb' => absurd hb hb', fun fd hfd hfd' => ?_⟩
    have heq : fd = h'.conn.channel.fd := by
      by_contra hne
      cases hfd.symm.trans ((Function.update_of_ne hne ..).symm.trans hfd')
    rw [heq]
    exact (hinv.unreferenced ha hun).2.2.2.1.channels
  | queueInLoop | poll | beginHandling | endHandling | endFunctor | endFunctors =>
    obtain rfl := Option.some.inj hstep
    exact .of_eq rfl rfl

/-- A channel that waits for its turn is registered. -/
lemma registered (hinv : HostInv s) (hmem : a ∈ s.turn) :
    ∃ c, s.channelAt a = some c ∧ c.address = a ∧ Registered s.poller c := by
  cases ha : s.conns a with
  | none =>
    obtain ⟨k, c, hc, hreg⟩ := hinv.shape.turn_known a hmem ha
    exact ⟨c, hinv.shape.channelAt_of_channel hc, (hinv.shape.channel a k c hc).1, hreg⟩
  | some h =>
    obtain ⟨haddress, -, -, st, hst⟩ := hinv.sound a h ha
    have hpc : s.pcOf a = .polled := by
      rw [pcOf_of_outside fun p hp heq => (hinv.shape.inside p hp).2.1 (heq ▸ hmem)]
      exact if_pos hmem
    obtain rfl := hst.fits (show (s.view a h).pc = .polled from hpc)
    exact ⟨_, channelAt_of_conn ha, haddress, hst.conn.wired⟩

/-- A channel that the poller does not know finds its descriptor free. -/
lemma free (hinv : HostInv s) {c : Channel} (hc : s.channelAt a = some c) (hnew : c.index = .kNew) :
    s.poller.channels c.fd = none := by
  cases ha : s.conns a with
  | none =>
    simp only [channelAt, ha] at hc
    obtain ⟨⟨k, c₀⟩, hk, rfl⟩ := Option.map_eq_some_iff.mp hc
    rcases (hinv.shape.channel a k c₀ hk).2 with hun | hreg
    · exact hun.channels
    · cases hreg.index.symm.trans hnew
  | some h =>
    rw [channelAt_of_conn ha] at hc
    obtain rfl := Option.some.inj hc
    obtain ⟨-, -, -, st, hst⟩ := hinv.sound a h ha
    have hwired : st.Wired s.poller h.conn.channel := hst.conn.wired
    cases st with
    | created | queued | destroyed => exact hwired.channels
    | up => cases hwired.index.symm.trans hnew
    | down | removing | destroying => cases hwired.index.symm.trans hnew

end HostInv

/-- Dispatch never touches a removed channel.  In every run of a loop with its channels:
a channel in the part of `activeChannels_` that has not been reached is there and registered;
a descriptor that is not open is not in `channels_`, and a channel that is not registered yet finds
its descriptor free;
no assertion fails, the one in `EventLoop::removeChannel` included, and no step uses a channel or a
connection that is gone;
and channels are removed and descriptors closed safely. -/
theorem dispatch_finds_registered {clk : Timestamp} {t : List Empty}
    (hrun : hostMachine.Run (.new clk) t s) :
    (s.turn <:+ s.dispatch.activeChannels ∧
        ∀ a ∈ s.turn, ∃ c, s.channelAt a = some c ∧ c.address = a ∧ Registered s.poller c) ∧
      (∀ fd, s.fds fd = false → s.poller.channels fd = none) ∧
      (∀ a c, s.channelAt a = some c → c.index = .kNew → s.poller.channels c.fd = none) ∧
      ∀ act, s.pre act → ∃ s', s.step act = some s' ∧ RemovesSafely s s' := by
  have hinv := hostInv_of_run hrun
  refine ⟨⟨hinv.shape.turn_active, fun a => hinv.registered⟩,
    fun fd hfd => (hinv.shape.descriptors.closed hfd).1, fun a c => hinv.free, fun act hpre => ?_⟩
  obtain ⟨s', hstep, -⟩ := hinv.step hpre
  exact ⟨s', hstep, hinv.removesSafely hpre hstep⟩

/-- A client's connection is closed in its own dispatch, and is destroyed before the acceptor, which
`poll` has returned with it, has its turn.  The connection that is accepted there gets its
descriptor and its memory, and is registered while the wakeup channel still waits; yet another
connection has come from the acceptor of another loop. -/
theorem dispatch_finds_registered_reused :
    ∃ t s, hostMachine.Run (.new 0) t s ∧
      (s.turn = [1] ∧ s.dispatch.activeChannels = [10, 2, 1] ∧ s.poller.channels 5 = some 10 ∧
        s.fds 7 = false) ∧
      (∃ c, s.channelAt 1 = some c ∧ c.address = 1 ∧ Registered s.poller c) ∧
      s.poller.channels 6 = none ∧ s.poller.channels 7 = none ∧
      ∃ s', s.step .endEvent = some s' ∧ RemovesSafely s s' := by
  obtain ⟨t, s, hrun, hturn, hactive, hchannels, hfds, hnew, hpre⟩ := hostMachine.exists_run_of_exec
    (.new 0)
    [.construct .wakeup 1 3, .enableReading 1, .construct .acceptor 2 4, .enableReading 2,
      .newConnection .client 10 5 64 true true, .conn 10 .connectEstablished,
      .conn 10 .callbackReturns, .poll, .report 5 {.EPOLLIN}, .report 4 {.EPOLLIN},
      .report 3 {.EPOLLIN}, .beginHandling, .handleEvent, .conn 10 .testClose, .conn 10 .testError,
      .conn 10 (.testRead (.data [])), .conn 10 .callbackReturns, .conn 10 (.testWrite (.ok 0)),
      .endEvent, .destroy 10, .handleEvent, .newConnection .serverSameLoop 10 5 64 true true,
      .conn 10 .connectEstablished, .conn 10 .callbackReturns,
      .newConnection .serverOtherLoop 11 6 64 true true]
    (fun s _ => s.turn = [1] ∧ s.dispatch.activeChannels = [10, 2, 1] ∧
      s.poller.channels 5 = some 10 ∧ s.fds 7 = false ∧
      (s.channelAt 11).map (fun c => (c.fd, c.index)) = some (6, .kNew) ∧ s.pre .endEvent)
    (by decide +kernel)
  obtain ⟨⟨-, hregistered⟩, hfree, hfirst, hsteps⟩ := dispatch_finds_registered hrun
  obtain ⟨c, hc, hnew⟩ := Option.map_eq_some_iff.mp hnew
  obtain ⟨hfd, hindex⟩ := Prod.mk.inj hnew
  refine ⟨t, s, hrun, ⟨hturn, hactive, hchannels, hfds⟩, hregistered 1 ?_, ?_, hfree 7 hfds,
    hsteps .endEvent hpre⟩
  · rw [hturn]
    exact List.mem_cons_self
  · rw [← hfd]
    exact hfirst 11 c hc hindex

end LoopHost

end MuduoServer
