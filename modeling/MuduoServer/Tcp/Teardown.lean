import MuduoServer.Tcp.CrossThread

/-!
# The destructor of the server

`~TcpServer` goes through `connections_` and runs `connectDestroyed` for each of them; without io
threads it does so at once.  A connection that is up has not seen `handleClose` then, and
`connectDestroyed` makes up for it: it takes the connection down, but only in `KConnected`.  In
`KDisconnecting`, between `forceClose` and its task, it goes on to remove a channel that still has
events, and the assert fails (`connectDestroyed_disconnecting`).  And when the destructor runs in
the down callback of the connection, `closeCallback_` comes afterwards and looks for it in a table
that is gone.

`Orphan` is what is left of the connection after the destructor, with what may keep it alive: a
handle of a user, and the functors that hold a `TcpConnectionPtr`.  A `sendInLoop` that another
thread has posted is bound to the bare `this` and needs one of these (`Orphan.Covers`).
`destroyServer_clean_iff` says when all ends well, for every later step and not only for the
destructor.
-/

namespace MuduoServer

namespace ConnLoop

variable {τ : Type} {s s' : ConnLoop τ} {st : Stage} {t out : List (ConnEvent τ)}

/-- `~TcpServer()`, as far as the connection is concerned. -/
def destroyServer (s : ConnLoop τ) : Option (ConnLoop τ × List (ConnEvent τ)) :=
  { s with owner := { s.owner with holds := false } }.connectDestroyed

/-- The connection is in `connections_`, and the loop thread is outside the dispatch of events: in a
pending functor, which may be `forceCloseInLoop` of this connection and then in the callback of the
user, or after `loop()`. -/
structure Destroyable (s : ConnLoop τ) : Prop where
  holds : s.owner.holds = true
  outside : s.dispatch.eventHandling = false
  pc : s.pc = .idle ∨ s.pc = .closing none

/-! ### What the owner still has -/

/-- As long as the owner has a connection that is down, `handleClose` is in progress or
`removeConnectionInLoop` is on its way. -/
def Held (s : ConnLoop τ) : Prop :=
  s.owner.holds = true → s.conn.state = .KDisconnected →
    (∃ k, s.pc = .closing k) ∨ 0 < s.owner.posted

namespace Held

/-- State and owner are as before, and `handleClose` is still in progress if it was. -/
lemma of_eq (h : Held s) (hstate : s'.conn.state = s.conn.state) (howner : s'.owner = s.owner)
    (hpc : ∀ k, s.pc = .closing k → s'.pc = .closing k) : Held s' := by
  intro hholds hdown
  rw [howner] at hholds ⊢
  rw [hstate] at hdown
  refine (h hholds hdown).imp_left fun ⟨k, hk⟩ => ⟨k, hpc k hk⟩

/-- The loop thread was not in `handleClose`. -/
lemma of_idle (h : Held s) (hstate : s'.conn.state = s.conn.state) (howner : s'.owner = s.owner)
    (hpc : ∀ k, s.pc ≠ .closing k) : Held s' :=
  h.of_eq hstate howner fun k hk => absurd hk (hpc k)

/-- A connection that is not down need not be on its way out. -/
lemma of_state (hstate : s'.conn.state ≠ .KDisconnected) : Held s' :=
  fun _ hdown => absurd hdown hstate

/-- Nor need one that its owner has let go. -/
lemma of_holds (hholds : s'.owner.holds = false) : Held s' := by
  intro hholds'
  rw [hholds] at hholds'
  cases hholds'

/-- `handleClose` is in progress when it has stored the state. -/
lemma handleClose {k : Option Phase} (h : s.handleClose k = some (s', out)) : Held s' := by
  obtain ⟨-, r, -, rfl, -⟩ := handleClose_eq_some h
  exact fun _ _ => Or.inl ⟨k, rfl⟩

/-- `connectEstablished` leaves the connection up. -/
lemma connectEstablished (h : s.connectEstablished = some (s', out)) : Held s' := by
  obtain ⟨-, r, -, rfl, -⟩ := connectEstablished_eq_some h
  exact of_state (by simp)

/-- `forceCloseInLoop` is `handleClose` or nothing. -/
lemma forceCloseInLoop (hheld : Held s) {k : Option Phase} (hpc : ∀ k, s.pc ≠ .closing k)
    (h : s.forceCloseInLoop k = some (s', out)) : Held s' := by
  rcases forceCloseInLoop_eq_some h with h | ⟨-, rfl, -⟩
  · exact handleClose h
  · exact hheld.of_idle rfl rfl hpc

/-- `removeConnectionInLoop` lets go of the connection. -/
lemma removeConnectionInLoop (h : s.removeConnectionInLoop = some s') : Held s' := by
  obtain ⟨-, rfl⟩ := removeConnectionInLoop_eq_some h
  exact of_holds rfl

/-- `connectDestroyed` of a connection that is not up changes neither state nor owner. -/
lemma connectDestroyed_same (hstate : s.conn.state ≠ .KConnected)
    (h : s.connectDestroyed = some (s', out)) :
    s'.conn.state = s.conn.state ∧ s'.owner = s.owner ∧ s'.pc = s.pc := by
  obtain ⟨s₁, r, hdown, -, rfl⟩ := connectDestroyed_eq_some h
  rcases takeDown_eq_some hdown with ⟨hup, -⟩ | ⟨-, rfl, -⟩
  · exact absurd hup hstate
  · exact ⟨rfl, rfl, rfl⟩

/-- The close callback lets go of it, or sends `removeConnectionInLoop` on its way. -/
lemma closeCallback (hstate : s.conn.state ≠ .KConnected)
    (h : s.closeCallback = some (s', out)) : Held s' := by
  rcases closeCallback_eq_some h with ⟨-, hremove, -⟩ | ⟨-, rfl, -⟩ | ⟨-, h⟩
  · exact removeConnectionInLoop hremove
  · exact fun _ _ => Or.inr (Nat.succ_pos _)
  · obtain ⟨-, howner, -⟩ := connectDestroyed_same (s := { s with
      owner := { s.owner with holds := false } }) hstate h
    exact of_holds (by rw [howner])

/-- So what follows a callback keeps `Held`. -/
lemma callbackReturns (hinv : StageInv st s) (h : s.callbackReturns = some (s', out))
    (hheld : Held s) : Held s' := by
  rcases callbackReturns_eq_some h with ⟨hpc, rfl, -⟩ | ⟨hpc, rfl, -⟩ | ⟨k, out', hpc, hclose, -⟩ |
    ⟨-, rfl, -⟩
  · exact hheld.of_idle rfl rfl (by simp [hpc])
  · exact hheld.of_idle rfl rfl (by simp [hpc])
  · obtain rfl := (hinv.fits hpc).stage_eq_down
    refine closeCallback (s := { s with pc := .ofReturn k }) ?_ hclose
    rw [show s.conn.state = .KDisconnected from hinv.conn.state]
    decide
  · exact hheld

/-- `handleRead` keeps it. -/
lemma handleRead {r : ReadResult} (hheld : Held s) (hpc : s.pc = .phase .read)
    (h : s.handleRead r = some (s', out)) : Held s' := by
  obtain ⟨r', -, ⟨rfl, -⟩ | ⟨-, h⟩ | ⟨rfl, -⟩⟩ := handleRead_eq_some h
  · exact hheld.of_idle rfl rfl (by simp [hpc])
  · exact handleClose h
  · exact hheld.of_idle rfl rfl (by simp [hpc])

/-- The end of a write keeps it. -/
lemma writeComplete (hheld : Held s) (hpc : ∀ k, s.pc ≠ .closing k)
    (h : s.writeComplete = some (s', out)) : Held s' := by
  obtain ⟨r, s₁, -, rfl, ⟨-, h⟩ | ⟨-, rfl, -⟩⟩ := writeComplete_eq_some h
  · refine forceCloseInLoop ?_ ?_ h
    · exact hheld.of_idle rfl rfl hpc
    · exact hpc
  · exact hheld.of_idle rfl rfl hpc

/-- `handleWrite` keeps it. -/
lemma handleWrite {w : WriteResult} (hheld : Held s) (hpc : s.pc = .phase .write)
    (h : s.handleWrite w = some (s', out)) : Held s' := by
  have hdone : ∀ {s₁ : ConnLoop τ}, s₁.conn.state = s.conn.state → s₁.owner = s.owner → Held s₁ :=
    fun hstate howner => hheld.of_idle hstate howner (by simp [hpc])
  rcases handleWrite_eq_some h with ⟨n, b, s₁, -, -, -, -, rfl, ⟨-, h⟩ | ⟨-, rfl, -⟩⟩ | ⟨rfl, -⟩
  · refine writeComplete ?_ ?_ h
    · exact hdone rfl rfl
    · simp
  · exact hdone rfl rfl
  · exact hdone rfl rfl

/-- Each task keeps it. -/
lemma runTask (hinv : StageInv st s) (hheld : Held s) (hpc : s.pc = .idle) {w : WriteResult}
    (h : s.runTask w = some (s', out)) : Held s' := by
  have hidle : ∀ k, s.pc ≠ .closing k := by simp [hpc]
  unfold ConnLoop.runTask at h
  split at h
  · cases h
    exact hheld
  · next task tasks htasks =>
    have hpop : Held { s with tasks := tasks } := hheld.of_eq rfl rfl fun k hk => hk
    cases task with
    | connectEstablished => exact connectEstablished h
    | sendInLoop poster message =>
      obtain ⟨s₁, hs₁, heq⟩ := Option.map_eq_some_iff.mp h
      cases heq
      rw [sendInLoopString, ConnLoop.send] at hs₁
      have hsame := sendInLoop_sameControl hs₁
      exact hpop.of_idle hsame.state hsame.owner hidle
    | forceCloseInLoop => exact forceCloseInLoop hpop hidle h
    | writeCompleteCallback =>
      cases h
      exact hpop
    | highWaterMarkCallback size =>
      cases h
      exact hpop
    | connectDestroyed =>
      have hqueue := hinv.queue
      rw [htasks] at hqueue
      obtain ⟨rfl, -⟩ := hqueue.destroyed
      have hne : s.conn.state ≠ .KConnected := by
        rw [show s.conn.state = .KDisconnected from hinv.conn.state]
        decide
      obtain ⟨hstate, howner, -⟩ := connectDestroyed_same (s := { s with tasks := tasks }) hne h
      exact hpop.of_idle hstate howner hidle

/-- Every step. -/
theorem step (hinv : StageInv st s) (hheld : Held s) {act : ConnAct τ} (hpre : s.pre act)
    (h : s.step act = some (s', out)) : Held s' := by
  cases act with
  | postSend caller message =>
    cases h
    exact hheld.of_eq rfl rfl fun k hk => hk
  | send message w =>
    obtain ⟨s₁, hs₁, heq⟩ := Option.map_eq_some_iff.mp h
    cases heq
    have hsame := sendInLoop_sameControl hs₁
    exact hheld.of_eq hsame.state hsame.owner fun k hk => hsame.pc.trans hk
  | forceClose =>
    have heq : s.forceClose = (s', out) := Option.some.inj h
    rcases forceClose_eq heq with ⟨-, rfl, -⟩ | ⟨-, rfl, -⟩
    · exact of_state (by simp [queueInLoop])
    · exact hheld
  | retrieve len =>
    obtain ⟨b, -, heq⟩ := Option.bind_eq_some_iff.mp h
    cases heq
    exact hheld.of_eq rfl rfl fun k hk => hk
  | connectEstablished => exact connectEstablished h
  | runTask w => exact runTask hinv hheld hpre.1 h
  | removeConnectionInLoop =>
    obtain ⟨s₁, hs₁, heq⟩ := Option.map_eq_some_iff.mp h
    cases heq
    exact removeConnectionInLoop hs₁
  | testClose =>
    have hpc : s.pc = .phase .close := hpre
    simp only [ConnLoop.step] at h
    split at h
    · exact handleClose h
    · cases h
      exact hheld.of_idle rfl rfl (by simp [hpc])
  | testRead r =>
    simp only [ConnLoop.step] at h
    split at h
    · exact handleRead hheld hpre.1 h
    · cases h
      exact hheld.of_idle rfl rfl (by simp [hpre.1])
  | testWrite w =>
    simp only [ConnLoop.step] at h
    split at h
    · exact handleWrite hheld hpre.1 h
    · cases h
      exact hheld.of_idle rfl rfl (by simp [hpre.1])
  | callbackReturns => exact callbackReturns hinv h hheld
  | poll revents =>
    cases h
    exact hheld.of_idle rfl rfl (by simp [hpre.1])
  | pollOther =>
    cases h
    exact hheld.of_eq rfl rfl fun k hk => hk
  | endHandling =>
    cases h
    exact hheld.of_eq rfl rfl fun k hk => hk
  | handleEvent =>
    have hpc : s.pc = .polled := hpre
    cases h
    exact hheld.of_idle rfl rfl (by simp [hpc])
  | testError =>
    have hpc : s.pc = .phase .error := hpre
    cases h
    exact hheld.of_idle rfl rfl (by simp [hpc])
  | endEvent =>
    have hpc : s.pc = .phase .done := hpre
    cases h
    exact hheld.of_idle rfl rfl (by simp [hpc])

end Held

/-! ### The connection and the destructor -/

/-- Where a connection of a server without io threads is in its life. -/
def ServedInv (t : List (ConnEvent τ)) (s : ConnLoop τ) : Prop :=
  ∃ st : Stage, StageInv st s ∧ st.Shape (life t) ∧ Held s

/-- A step takes the connection on in its life. -/
lemma ServedInv.step {act : ConnAct τ} (h : ServedInv t s) (hpre : s.pre act)
    (hstep : s.step act = some (s', out)) : ServedInv (t ++ out) s' := by
  obtain ⟨st, hinv, hshape, hheld⟩ := h
  obtain ⟨s₁, out₁, st', hs₁, hinv', hlife, -⟩ := hinv.step hpre
  obtain ⟨rfl, rfl⟩ := Prod.mk.inj (Option.some.inj (hs₁.symm.trans hstep))
  refine ⟨st', hinv', ?_, hheld.step hinv hpre hstep⟩
  rw [life_append]
  exact hshape.step hlife

/-- `connectDestroyed` takes a connected connection down and removes its channel. -/
lemma connectDestroyed_connected (hstate : s.conn.state = .KConnected)
    (hreg : Registered s.poller s.conn.channel) (hd : s.dispatch.eventHandling = false) :
    ∃ p' c', s.connectDestroyed = some ({ s with
        poller := p'
        conn := { s.conn with state := .KDisconnected, channel := c' } },
        [.setState .KDisconnected, .connection false]) ∧ Unregistered p' c' := by
  obtain ⟨p₁, c₁, hc₁, hdetached, hsame⟩ := Channel.disableAll_spec hreg
  have hoff : s.dispatch.eventHandling = true →
      s.dispatch.currentActiveChannel = some c₁.address := by
    rw [hd]
    exact fun heq => by cases heq
  obtain ⟨p', c', hc', hun, -⟩ := Channel.remove_spec hdetached hoff
  refine ⟨p', c', ?_, hun⟩
  simp only [connectDestroyed, takeDown, if_pos hstate, hc₁, hc', Option.bind_eq_bind,
    Option.bind_some]

/-- `connectDestroyed` fails on a connection that is up but no longer connected. -/
lemma connectDestroyed_disconnecting (hstate : s.conn.state = .KDisconnecting)
    (hreg : Registered s.poller s.conn.channel) : s.connectDestroyed = none := by
  have hne : s.conn.state ≠ .KConnected := by
    rw [hstate]
    decide
  have hevents : ¬ s.conn.channel.isNoneEvent := Channel.events_ne_none hreg.reading
  simp only [connectDestroyed, takeDown, if_neg hne, Channel.remove, if_neg hevents,
    Option.bind_eq_bind, Option.bind_some, Option.bind_none]

/-- A connection that is destroyed goes on as such: every step succeeds, and none notifies. -/
lemma step_of_destroyed (h : StageInv .destroyed s) {act : ConnAct τ} (hpre : s.pre act) :
    ∃ s' out, s.step act = some (s', out) ∧ StageInv .destroyed s' ∧ life out = [] := by
  obtain ⟨s', out, st', hstep, hinv, hlife, -⟩ := h.step hpre
  generalize hl : life out = l at hlife
  cases hlife with
  | stay => exact ⟨s', out, hstep, hinv, hl⟩
  | establish hst => simp at hst

/-- Outside `doPendingFunctors`, only another thread that calls `send` touches the queue of a
destroyed connection. -/
lemma idle_of_destroyed (h : StageInv .destroyed s) (hpc : s.pc = .idle) {act : ConnAct τ}
    (hpre : s.pre act) (hrun : ∀ w, act ≠ .runTask w) (hstep : s.step act = some (s', out)) :
    s'.pc = .idle ∧ (s'.tasks = s.tasks ∨ ∃ caller message, act = .postSend caller message) := by
  have hstate : s.conn.state = .KDisconnected := h.conn.state
  have hphase : ∀ p, s.pc ≠ .phase p := by simp [hpc]
  cases act with
  | postSend caller message =>
    cases hstep
    exact ⟨hpc, Or.inr ⟨caller, message, rfl⟩⟩
  | send message w =>
    obtain ⟨-, hshort, -⟩ := hpre
    simp only [ConnLoop.step, ConnLoop.send, sizeOfInt_natCast hshort, sendInLoop, lt_irrefl,
      if_false, if_pos hstate, Option.map_some, Option.some.injEq, Prod.mk.injEq] at hstep
    obtain ⟨rfl, -⟩ := hstep
    exact ⟨hpc, Or.inl rfl⟩
  | forceClose =>
    have heq : s.forceClose = (s', out) := Option.some.inj hstep
    rw [forceClose, if_neg (by simp [isOpen, hstate]), Prod.mk.injEq] at heq
    obtain ⟨rfl, -⟩ := heq
    exact ⟨hpc, Or.inl rfl⟩
  | retrieve len =>
    obtain ⟨b, -, heq⟩ := Option.bind_eq_some_iff.mp hstep
    cases heq
    exact ⟨hpc, Or.inl rfl⟩
  | connectEstablished => cases hpc.symm.trans hpre
  | runTask w => exact absurd rfl (hrun w)
  | removeConnectionInLoop =>
    have hposted : 0 < s.owner.posted := hpre
    rw [h.owner.posted] at hposted
    cases hposted
  | poll revents =>
    obtain ⟨-, -, events, hevents, -⟩ := hpre
    have hun : Unregistered s.poller s.conn.channel := h.conn.wired
    rw [hun.interest] at hevents
    cases hevents
  | pollOther =>
    cases hstep
    exact ⟨hpc, Or.inl rfl⟩
  | endHandling =>
    cases hstep
    exact ⟨hpc, Or.inl rfl⟩
  | handleEvent => cases hpc.symm.trans hpre
  | testClose => exact absurd hpre (hphase _)
  | testError => exact absurd hpre (hphase _)
  | testRead r => exact absurd hpre.1 (hphase _)
  | testWrite w => exact absurd hpre.1 (hphase _)
  | endEvent => exact absurd hpre (hphase _)
  | callbackReturns =>
    have hcallback : s.pc.inCallback = true := hpre
    rw [hpc] at hcallback
    cases hcallback

/-- A task of a destroyed connection only leaves the queue. -/
lemma runTask_of_destroyed (h : StageInv .destroyed s) (hpc : s.pc = .idle) {task : ConnTask τ}
    {tasks : List (ConnTask τ)} (htasks : s.tasks = task :: tasks) (w : WriteResult) :
    ∃ out, s.runTask w = some ({ s with tasks := tasks }, out) := by
  have hstate : s.conn.state = .KDisconnected := h.conn.state
  have hhops := h.queue.hops
  have hshort := h.queue.short
  rw [htasks] at hhops hshort
  unfold ConnLoop.runTask
  rw [htasks]
  cases task with
  | connectEstablished => cases hhops
  | connectDestroyed => cases hhops
  | sendInLoop poster message =>
    have hlen := hshort (poster, message) (by simp [queuedSends])
    simp only [sendInLoopString, ConnLoop.send, sizeOfInt_intOfSize hlen, sendInLoop, lt_irrefl,
      if_false, if_pos hstate, Option.map_some]
    exact ⟨_, rfl⟩
  | forceCloseInLoop =>
    have hnot : ¬ ({ s with tasks := tasks } : ConnLoop τ).isOpen := by simp [isOpen, hstate]
    refine ⟨[], ?_⟩
    simp only [forceCloseInLoop, if_neg hnot, ConnPc.ofReturn, ← hpc]
  | writeCompleteCallback => exact ⟨_, rfl⟩
  | highWaterMarkCallback size => exact ⟨_, rfl⟩

end ConnLoop

/-! ### After the destructor -/

/-- The functor holds a `TcpConnectionPtr`; that of a posted `sendInLoop` is bound to the bare
`this`. -/
def ConnTask.bound {τ : Type} : ConnTask τ → Bool
  | .sendInLoop _ _ => false
  | _ => true

/-- What may keep a connection alive that no table has any more, besides the tasks in the queue. -/
structure Holders where
  /-- How many tasks at the front of the queue belong to the pass of `doPendingFunctors` in
  progress. -/
  batch : ℕ
  /-- A functor that the pass has called holds a `TcpConnectionPtr`; it goes with the vector. -/
  called : Bool
  /-- A user keeps a `TcpConnectionPtr` from now on. -/
  kept : Bool
  deriving DecidableEq, Repr

/-- A connection after `~TcpServer`. -/
structure Orphan (τ : Type) where
  loop : ConnLoop τ
  holders : Holders

/-- What can happen to it. -/
inductive OrphanAct (τ : Type) where
  /-- A step that runs none of its tasks. -/
  | act (act : ConnAct τ)
  /-- The pass in progress runs the next task. -/
  | runTask (w : WriteResult)
  /-- The pass ends, its vector goes, and the next pass swaps the queue. -/
  | nextPass

namespace Orphan

variable {τ : Type} {o o' : Orphan τ} {t out : List (ConnEvent τ)}

/-- The connection has not been freed. -/
def Owned (o : Orphan τ) : Prop :=
  o.holders.kept = true ∨ o.holders.called = true ∨ ∃ task ∈ o.loop.tasks, task.bound = true

instance (o : Orphan τ) : Decidable o.Owned := inferInstanceAs (Decidable (_ ∨ _ ∨ _))

/-- Whoever takes the step has what it needs: another thread a handle, the loop thread a callback
with the connection or a handle, and `poll` the end of the pass. -/
def Grants (o : Orphan τ) : ConnAct τ → Prop
  | .runTask _ => False
  | .postSend _ _ => o.holders.kept = true
  | .send _ _ | .forceClose | .retrieve _ => o.Owned
  | .poll _ | .pollOther => o.holders.batch = 0
  | _ => True

/-- When a step can be taken. -/
def pre (o : Orphan τ) : OrphanAct τ → Prop
  | .act act => o.loop.pre act ∧ o.Grants act
  | .runTask w => 0 < o.holders.batch ∧ o.loop.pre (.runTask w)
  | .nextPass => o.holders.batch = 0 ∧ o.loop.pc = .idle ∧ o.loop.dispatch.eventHandling = false

/-- The effect of a step.  A task of a freed connection cannot run. -/
def step (o : Orphan τ) : OrphanAct τ → Option (Orphan τ × List (ConnEvent τ))
  | .act act => (o.loop.step act).map fun r => ({ o with loop := r.1 }, r.2)
  | .runTask w =>
    if o.Owned then
      (o.loop.runTask w).map fun r =>
        ({ loop := r.1
           holders :=
            { o.holders with
              batch := o.holders.batch - 1
              called := o.holders.called || o.loop.tasks.head?.any ConnTask.bound } }, r.2)
    else none
  | .nextPass =>
    some ({ o with
      holders := { o.holders with batch := o.loop.tasks.length, called := false } }, [])

end Orphan

/-- Every run after `~TcpServer`. -/
def orphanMachine (τ : Type) : Machine (Orphan τ) (OrphanAct τ) (ConnEvent τ) where
  pre o act := o.pre act
  step o act := o.step act

namespace Orphan

variable {τ : Type} {o o' : Orphan τ} {t out : List (ConnEvent τ)}

/-- Nothing fails from now on. -/
def Safe (o : Orphan τ) : Prop :=
  ∀ t o', (orphanMachine τ).Run o t o' →
    ∀ act, (orphanMachine τ).pre o' act → ((orphanMachine τ).step o' act).isSome

/-- Every posted `sendInLoop` finds the connection alive: one of the pass in progress through any
other functor, one behind it through another functor behind it. -/
def Covers (h : Holders) (tasks : List (ConnTask τ)) : Prop :=
  h.kept = true ∨
    ((∀ task ∈ tasks.take h.batch, task.bound = true) ∨ h.called = true ∨
      ∃ task ∈ tasks, task.bound = true) ∧
    ((∀ task ∈ tasks.drop h.batch, task.bound = true) ∨
      ∃ task ∈ tasks.drop h.batch, task.bound = true)

instance (h : Holders) (tasks : List (ConnTask τ)) : Decidable (Covers h tasks) :=
  inferInstanceAs (Decidable (_ ∨ _ ∧ _))

/-- The connection is destroyed, its poller has forgotten it, and the loop thread is outside its
callbacks. -/
structure Settled (o : Orphan τ) : Prop where
  inv : ConnLoop.StageInv .destroyed o.loop
  pc : o.loop.pc = .idle

/-- The run of a safe connection goes on safely. -/
lemma Safe.step {a : OrphanAct τ} (h : o.Safe) (hpre : (orphanMachine τ).pre o a)
    (hstep : (orphanMachine τ).step o a = some (o', out)) : o'.Safe :=
  fun _ _ hrun => h _ _ (Machine.Run.cons a hpre hstep hrun)

/-- When a task can run, there is one. -/
lemma exists_task {w : WriteResult} (hpre : o.loop.pre (.runTask w)) :
    ∃ task tasks, o.loop.tasks = task :: tasks := by
  obtain ⟨-, -, hwithin⟩ := hpre
  cases htasks : o.loop.tasks with
  | nil =>
    rw [ConnLoop.taskWithin, htasks] at hwithin
    exact hwithin.elim
  | cons task tasks => exact ⟨task, tasks, rfl⟩

/-- The state after the next task, which has left the queue. -/
def popped (o : Orphan τ) (task : ConnTask τ) (tasks : List (ConnTask τ)) : Orphan τ where
  loop := { o.loop with tasks := tasks }
  holders :=
    { o.holders with
      batch := o.holders.batch - 1
      called := o.holders.called || task.bound }

/-- The next task of an owned connection leaves the queue, and that is all. -/
lemma Settled.runTask (h : o.Settled) (howned : o.Owned) {task : ConnTask τ}
    {tasks : List (ConnTask τ)} (htasks : o.loop.tasks = task :: tasks) {w : WriteResult}
    (hpre : o.loop.pre (.runTask w)) :
    ∃ out, o.step (.runTask w) = some (o.popped task tasks, out) ∧ (o.popped task tasks).Settled ∧
      ConnLoop.life out = [] := by
  obtain ⟨s', out, hstep, hinv, hlife⟩ := ConnLoop.step_of_destroyed h.inv hpre
  obtain ⟨out', hrun⟩ := ConnLoop.runTask_of_destroyed h.inv h.pc htasks w
  obtain ⟨rfl, rfl⟩ := Prod.mk.inj (Option.some.inj (hstep.symm.trans hrun))
  refine ⟨out, ?_, ⟨hinv, h.pc⟩, hlife⟩
  simp only [Orphan.step, if_pos howned, hrun, htasks, Option.map_some, List.head?_cons,
    Option.any_some, popped]

/-- The next task has been run: what covered the queue covers the rest of it. -/
lemma Covers.tail {h : Holders} {task : ConnTask τ} {tasks : List (ConnTask τ)}
    (hcovers : Covers h (task :: tasks)) (hbatch : 0 < h.batch) :
    Covers { h with batch := h.batch - 1, called := h.called || task.bound } tasks := by
  obtain ⟨n, hn⟩ : ∃ n, h.batch = n + 1 := ⟨h.batch - 1, by omega⟩
  rcases hcovers with hkept | ⟨hfront, hback⟩
  · exact Or.inl hkept
  · rw [hn, List.drop_succ_cons] at hback
    rw [hn, List.take_succ_cons] at hfront
    refine Or.inr ⟨?_, by simpa [hn] using hback⟩
    rcases hfront with hall | hcalled | ⟨x, hx, hbound⟩
    · exact Or.inl fun x hx => hall x (List.mem_cons_of_mem _ (by simpa [hn] using hx))
    · exact Or.inr (Or.inl (by simp [hcalled]))
    · rcases List.mem_cons.mp hx with rfl | hx
      · exact Or.inr (Or.inl (by simp [hbound]))
      · exact Or.inr (Or.inr ⟨x, hx, hbound⟩)

/-- The pass is over: what covered the queue covers the next pass. -/
lemma Covers.nextPass {h : Holders} {tasks : List (ConnTask τ)} (hcovers : Covers h tasks)
    (hbatch : h.batch = 0) :
    Covers { h with batch := tasks.length, called := false } tasks := by
  rcases hcovers with hkept | ⟨-, hback⟩
  · exact Or.inl hkept
  · rw [hbatch, List.drop_zero] at hback
    refine Or.inr ⟨?_, Or.inl (by simp)⟩
    rw [List.take_length]
    exact hback.imp_right Or.inr

/-- A task that can run finds the connection alive. -/
lemma Covers.owned (hcovers : Covers o.holders o.loop.tasks) (hbatch : 0 < o.holders.batch)
    {task : ConnTask τ} {tasks : List (ConnTask τ)} (htasks : o.loop.tasks = task :: tasks) :
    o.Owned := by
  rcases hcovers with hkept | ⟨hall | hcalled | hbound, -⟩
  · exact Or.inl hkept
  · have htake : task ∈ o.loop.tasks.take o.holders.batch := by
      obtain ⟨n, hn⟩ : ∃ n, o.holders.batch = n + 1 := ⟨o.holders.batch - 1, by omega⟩
      rw [htasks, hn, List.take_succ_cons]
      exact List.mem_cons_self
    refine Or.inr (Or.inr ⟨task, ?_, hall task htake⟩)
    rw [htasks]
    exact List.mem_cons_self
  · exact Or.inr (Or.inl hcalled)
  · exact Or.inr (Or.inr hbound)

/-- A step of a settled and covered connection succeeds, notifies nobody, and leaves it so. -/
theorem Settled.step (h : o.Settled) (hcovers : Covers o.holders o.loop.tasks) {act : OrphanAct τ}
    (hpre : o.pre act) : ∃ o' out, o.step act = some (o', out) ∧ o'.Settled ∧
      Covers o'.holders o'.loop.tasks ∧ ConnLoop.life out = [] := by
  cases act with
  | act act =>
    obtain ⟨s', out, hstep, hinv, hlife⟩ := ConnLoop.step_of_destroyed h.inv hpre.1
    have hrun : ∀ w, act ≠ .runTask w := by
      rintro w rfl
      exact hpre.2
    obtain ⟨hpc, htasks⟩ := ConnLoop.idle_of_destroyed h.inv h.pc hpre.1 hrun hstep
    refine ⟨{ o with loop := s' }, out, ?_, ⟨hinv, hpc⟩, ?_, hlife⟩
    · simp only [Orphan.step, hstep, Option.map_some]
    · rcases htasks with htasks | ⟨caller, message, rfl⟩
      · change Covers o.holders s'.tasks
        rw [htasks]
        exact hcovers
      · exact Or.inl hpre.2
  | runTask w =>
    obtain ⟨hbatch, hpre⟩ := hpre
    obtain ⟨task, tasks, htasks⟩ := exists_task hpre
    obtain ⟨out, hstep, hsettled, hlife⟩ := h.runTask (hcovers.owned hbatch htasks) htasks hpre
    rw [htasks] at hcovers
    exact ⟨_, out, hstep, hsettled, hcovers.tail hbatch, hlife⟩
  | nextPass =>
    exact ⟨_, [], rfl, ⟨h.inv, h.pc⟩, hcovers.nextPass hpre.1, rfl⟩

/-- Along every run the connection stays settled and covered, and nobody is notified. -/
theorem Settled.run (h : o.Settled) (hcovers : Covers o.holders o.loop.tasks)
    (hrun : (orphanMachine τ).Run o t o') :
    o'.Settled ∧ Covers o'.holders o'.loop.tasks ∧ ConnLoop.life t = [] := by
  refine hrun.invariant (fun t o => o.Settled ∧ Covers o.holders o.loop.tasks ∧
    ConnLoop.life t = []) ⟨h, hcovers, rfl⟩ ?_
  rintro t o act o' out ⟨hsettled, hcovers, hlife⟩ hpre hstep
  obtain ⟨o₁, out₁, heq, hsettled', hcovers', hlife'⟩ := hsettled.step hcovers hpre
  obtain ⟨rfl, rfl⟩ := Prod.mk.inj (Option.some.inj (heq.symm.trans hstep))
  refine ⟨hsettled', hcovers', ?_⟩
  rw [ConnLoop.life_append, hlife, hlife', List.append_nil]

/-- A settled and covered connection is safe. -/
lemma Settled.safe (h : o.Settled) (hcovers : Covers o.holders o.loop.tasks) : o.Safe := by
  intro t o' hrun act hpre
  obtain ⟨hsettled, hcovers', -⟩ := h.run hcovers hrun
  obtain ⟨o'', out, hstep, -⟩ := hsettled.step hcovers' hpre
  exact Option.isSome_iff_exists.mpr ⟨_, hstep⟩

/-- During a pass the next task can run, with a direct write of nothing. -/
lemma Settled.pre_runTask (h : o.Settled) (hd : o.loop.dispatch.eventHandling = false)
    {task : ConnTask τ} {tasks : List (ConnTask τ)} (htasks : o.loop.tasks = task :: tasks) :
    o.loop.pre (.runTask (.ok 0)) := by
  refine ⟨h.pc, hd, ?_⟩
  rw [ConnLoop.taskWithin, htasks]
  cases task with
  | sendInLoop poster message => exact Nat.zero_le _
  | _ => trivial

/-- A safe connection exists as long as a pass has tasks for it. -/
lemma Settled.owned_of_safe (h : o.Settled) (hd : o.loop.dispatch.eventHandling = false)
    (hsafe : o.Safe) (hbatch : 0 < o.holders.batch) {task : ConnTask τ} {tasks : List (ConnTask τ)}
    (htasks : o.loop.tasks = task :: tasks) : o.Owned := by
  by_contra hnot
  have hsome := hsafe [] o .nil (.runTask (.ok 0)) ⟨hbatch, h.pre_runTask hd htasks⟩
  change (o.step (.runTask (.ok 0))).isSome at hsome
  rw [Orphan.step, if_neg hnot] at hsome
  cases hsome

/-- The state at the beginning of the next pass. -/
def atNextPass (o : Orphan τ) : Orphan τ :=
  { o with holders := { o.holders with batch := o.loop.tasks.length, called := false } }

/-- A safe connection covers the tasks behind the pass: when that is over they are the next. -/
lemma Settled.back_of_safe (h : o.Settled) (hd : o.loop.dispatch.eventHandling = false)
    (hsafe : o.Safe) :
    o.holders.kept = true ∨ (∀ task ∈ o.loop.tasks.drop o.holders.batch, task.bound = true) ∨
      ∃ task ∈ o.loop.tasks.drop o.holders.batch, task.bound = true := by
  generalize hn : o.holders.batch = n
  induction n generalizing o with
  | zero =>
    cases htasks : o.loop.tasks with
    | nil => exact Or.inr (Or.inl (by simp))
    | cons task tasks =>
      have hnext : o.atNextPass.Safe := hsafe.step (a := .nextPass) ⟨hn, h.pc, hd⟩ rfl
      have hsettled : o.atNextPass.Settled := ⟨h.inv, h.pc⟩
      have hbatch : 0 < o.atNextPass.holders.batch := by simp [atNextPass, htasks]
      rcases hsettled.owned_of_safe hd hnext hbatch htasks with hkept | hcalled | hbound
      · exact Or.inl hkept
      · cases hcalled
      · rw [← htasks]
        exact Or.inr (Or.inr hbound)
  | succ n ih =>
    cases htasks : o.loop.tasks with
    | nil => exact Or.inr (Or.inl (by simp))
    | cons task tasks =>
      have hbatch : 0 < o.holders.batch := by omega
      have hpre := h.pre_runTask hd htasks
      have howned := h.owned_of_safe hd hsafe hbatch htasks
      obtain ⟨out, hstep, hsettled, -⟩ := h.runTask howned htasks hpre
      have hsafe' : (o.popped task tasks).Safe :=
        hsafe.step (a := .runTask (.ok 0)) ⟨hbatch, hpre⟩ hstep
      exact ih hsettled hd hsafe' (by simp [popped, hn])

/-- A safe connection is covered. -/
theorem Settled.covers_of_safe (h : o.Settled) (hd : o.loop.dispatch.eventHandling = false)
    (hsafe : o.Safe) : Covers o.holders o.loop.tasks := by
  rcases h.back_of_safe hd hsafe with hkept | hback
  · exact Or.inl hkept
  by_cases hfront : o.loop.tasks.take o.holders.batch = []
  · exact Or.inr ⟨Or.inl (by simp [hfront]), hback⟩
  · have hbatch : 0 < o.holders.batch := by
      by_contra hzero
      rw [Nat.eq_zero_of_not_pos hzero, List.take_zero] at hfront
      exact hfront rfl
    cases htasks : o.loop.tasks with
    | nil => simp [htasks] at hfront
    | cons task tasks =>
      rw [← htasks]
      rcases h.owned_of_safe hd hsafe hbatch htasks with hkept | howned
      · exact Or.inl hkept
      · exact Or.inr ⟨Or.inr howned, hback⟩

/-- A posted `removeConnectionInLoop` fails when the table has been emptied. -/
lemma not_safe_of_posted (hholds : o.loop.owner.holds = false) (hposted : 0 < o.loop.owner.posted) :
    ¬ o.Safe := by
  intro hsafe
  have hsome := hsafe [] o .nil (.act .removeConnectionInLoop) ⟨hposted, trivial⟩
  change (o.step (.act .removeConnectionInLoop)).isSome at hsome
  simp [Orphan.step, ConnLoop.step, ConnLoop.removeConnectionInLoop, hholds] at hsome

/-- In the down callback of `handleClose` nothing is safe any more: `closeCallback_`, which follows,
does not find the connection in the table, or a channel to remove. -/
lemma not_safe_of_closing {k : Option Phase} (hpc : o.loop.pc = .closing k)
    (hholds : o.loop.owner.holds = false) (hdown : o.loop.conn.state = .KDisconnected)
    (hun : Unregistered o.loop.poller o.loop.conn.channel) : ¬ o.Safe := by
  intro hsafe
  have hcallback : o.loop.pc.inCallback = true := by
    rw [hpc]
    rfl
  have hpre : (orphanMachine τ).pre o (.act .callbackReturns) := ⟨hcallback, trivial⟩
  obtain ⟨⟨o', out⟩, hstep⟩ := Option.isSome_iff_exists.mp (hsafe [] o .nil _ hpre)
  have hsafe' : o'.Safe := hsafe.step hpre hstep
  obtain ⟨⟨s', out'⟩, hs', heq⟩ := Option.map_eq_some_iff.mp hstep
  obtain ⟨rfl, -⟩ := Prod.mk.inj heq
  rcases ConnLoop.callbackReturns_eq_some hs' with ⟨hpc', -⟩ | ⟨hpc', -⟩ |
    ⟨k', out₁, -, hclose, -⟩ | ⟨hnot, -⟩
  · cases hpc.symm.trans hpc'
  · cases hpc.symm.trans hpc'
  · rcases ConnLoop.closeCallback_eq_some hclose with ⟨-, hremove, -⟩ | ⟨-, rfl, -⟩ |
      ⟨-, hdestroyed⟩
    · obtain ⟨hheld, -⟩ := ConnLoop.removeConnectionInLoop_eq_some hremove
      cases hholds.symm.trans hheld
    · refine not_safe_of_posted ?_ ?_ hsafe'
      · exact hholds
      · exact Nat.succ_pos _
    · obtain ⟨s₁, r, htake, hremove, -⟩ := ConnLoop.connectDestroyed_eq_some hdestroyed
      rcases ConnLoop.takeDown_eq_some htake with ⟨hup, -⟩ | ⟨-, rfl, -⟩
      · cases hdown.symm.trans hup
      · obtain ⟨-, -, hremove⟩ := Channel.remove_eq_some hremove
        obtain ⟨hknown, -⟩ := EPollPoller.removeChannel_eq_some hremove
        cases hun.channels.symm.trans hknown
  · cases hcallback.symm.trans hnot

end Orphan

namespace ConnLoop

/-- A clean end.  The `connectDestroyed` of `~TcpServer` succeeds, leaves the connection down with
its channel unknown to the poller, and however things go on, no later step fails and there is one
down notification in all. -/
def CleanEnd (h : Holders) (t : List (ConnEvent τ)) (s : ConnLoop τ) : Prop :=
  ∃ s' out, s.destroyServer = some (s', out) ∧ s'.conn.state = .KDisconnected ∧
    Unregistered s'.poller s'.conn.channel ∧ Orphan.Safe ⟨s', h⟩ ∧
    ∀ t' o, (orphanMachine τ).Run ⟨s', h⟩ t' o → (life (t ++ out ++ t')).count .down = 1

/-- A clean end is possible only in `KConnected`.  A connection that is down and still in the table
is in its own down callback, or its removal has been posted. -/
lemma CleanEnd.connected {h : Holders} (hclean : CleanEnd h t s) (hheld : Held s)
    (hholds : s.owner.holds = true) : s.conn.state = .KConnected := by
  obtain ⟨s', out, hstep, hdown', hun, hsafe, -⟩ := hclean
  by_contra hne
  obtain ⟨hstate, howner, hpc⟩ := Held.connectDestroyed_same (s := { s with
    owner := { s.owner with holds := false } }) hne hstep
  have hfree : s'.owner.holds = false := by rw [howner]
  rcases hheld hholds (hstate.symm.trans hdown') with ⟨k, hk⟩ | hposted
  · exact Orphan.not_safe_of_closing (o := ⟨s', h⟩) (hpc.trans hk) hfree hdown' hun hsafe
  · refine Orphan.not_safe_of_posted (o := ⟨s', h⟩) hfree ?_ hsafe
    change 0 < s'.owner.posted
    rw [howner]
    exact hposted

/-- What the destructor leaves of a connected connection. -/
lemma destroyServer_connected (hinv : StageInv .up s) (hs : Destroyable s)
    (hstate : s.conn.state = .KConnected) :
    ∃ s', s.destroyServer = some (s', [.setState .KDisconnected, .connection false]) ∧
      s'.tasks = s.tasks ∧ s'.dispatch = s.dispatch ∧ s'.pc = .idle ∧ StageInv .destroyed s' := by
  have hpc : s.pc = .idle := by
    rcases hs.pc with hpc | hpc
    · exact hpc
    · have hfits := (hinv.fits hpc).stage_eq_down
      cases hfits
  obtain ⟨p', c', hstep, hun⟩ := connectDestroyed_connected (s := { s with
    owner := { s.owner with holds := false } }) hstate hinv.conn.wired hs.outside
  refine ⟨_, hstep, rfl, rfl, hpc, hinv.conn.move rfl hun, ⟨fun _ hst => absurd rfl hst,
    hinv.owner.posted⟩, hinv.queue.move rfl (by decide), ?_⟩
  change Stage.destroyed.ControlOk s.pc s.dispatch c'
  rw [hpc]
  refine ⟨⟨by decide, by decide⟩, ?_, ?_, ?_⟩ <;> simp [ConnPc.dispatches]

/-- The server can be destroyed cleanly, in any reachable state of a connection, exactly if the
connection is in `KConnected`, that is, no `forceClose` of it is pending and it is not in its own
down callback, and every posted `sendInLoop` finds it alive. -/
theorem destroyServer_clean_iff {address fd highWaterMark : ℕ}
    {writeCompleteCallback highWaterMarkCallback handling : Bool} {poller : EPollPoller}
    (hchannels : poller.channels fd = none) (hinterest : poller.interest fd = none)
    (h : (connMachine τ).Run (newConnection .serverSameLoop (.new address fd highWaterMark true
      writeCompleteCallback highWaterMarkCallback) poller handling) t s)
    (hs : Destroyable s) (holders : Holders) :
    CleanEnd holders t s ↔ s.conn.state = .KConnected ∧ Orphan.Covers holders s.tasks := by
  obtain ⟨st, hinv, hshape, hheld⟩ : ServedInv t s := by
    refine h.invariant ServedInv ?_ fun _ _ _ _ _ hinv hpre hstep => hinv.step hpre hstep
    refine ⟨.created, .newConnection hchannels hinterest (by decide), rfl, Held.of_state ?_⟩
    simp [newConnection, TcpConnection.new]
  suffices hconnected : s.conn.state = .KConnected →
      (CleanEnd holders t s ↔ Orphan.Covers holders s.tasks) by
    constructor
    · intro hclean
      have hstate := hclean.connected hheld hs.holds
      exact ⟨hstate, (hconnected hstate).mp hclean⟩
    · rintro ⟨hstate, hcovers⟩
      exact (hconnected hstate).mpr hcovers
  intro hstate
  obtain rfl := hinv.stage_eq_up (by rw [hstate]; decide) (by rw [hstate]; decide)
  obtain ⟨s', hstep, htasks, hdispatch, hpc, hdestroyed⟩ := destroyServer_connected hinv hs hstate
  have hsettled : Orphan.Settled ⟨s', holders⟩ := ⟨hdestroyed, hpc⟩
  rw [← htasks]
  constructor
  · rintro ⟨s₁, out, hstep₁, -, -, hsafe, -⟩
    obtain ⟨rfl, -⟩ := Prod.mk.inj (Option.some.inj (hstep₁.symm.trans hstep))
    refine hsettled.covers_of_safe ?_ hsafe
    change s₁.dispatch.eventHandling = false
    rw [hdispatch]
    exact hs.outside
  · intro hcovers
    refine ⟨s', _, hstep, hdestroyed.conn.state, hdestroyed.conn.wired, hsettled.safe hcovers,
      fun t' o hrun => ?_⟩
    obtain ⟨-, -, hlife⟩ := hsettled.run hcovers hrun
    obtain ⟨n, hn⟩ := hshape
    rw [life_append, life_append, hn, hlife]
    simp [life, List.count_replicate]

/-- A connection that has got a message is destroyed with a posted message still in the queue, for
which a user keeps a handle. -/
theorem destroyServer_clean_connected :
    ∃ t s, (connMachine ℕ).Run
        (newConnection .serverSameLoop (.new 1 5 64 true true true) emptyPoller true) t s ∧
      (Destroyable s ∧ s.tasks = [.sendInLoop 7 [3]] ∧ life t = [.up, .message]) ∧
        CleanEnd ⟨0, false, true⟩ t s := by
  obtain ⟨t, s, hrun, hholds, houtside, hpc, hstate, htasks, hlife⟩ :=
    (connMachine ℕ).exists_run_of_exec
      (newConnection .serverSameLoop (.new 1 5 64 true true true) emptyPoller true)
      [.connectEstablished, .callbackReturns, .endHandling, .poll {.EPOLLIN}, .handleEvent,
        .testClose, .testError, .testRead (.data [1, 2]), .callbackReturns, .testWrite (.ok 0),
        .endEvent, .endHandling, .postSend 7 [3]]
      (fun s t => s.owner.holds = true ∧ s.dispatch.eventHandling = false ∧ s.pc = .idle ∧
        s.conn.state = .KConnected ∧ s.tasks = [.sendInLoop 7 [3]] ∧ life t = [.up, .message])
      (by decide +kernel)
  have hs : Destroyable s := ⟨hholds, houtside, Or.inl hpc⟩
  exact ⟨t, s, hrun, ⟨hs, htasks, hlife⟩,
    (destroyServer_clean_iff rfl rfl hrun hs ⟨0, false, true⟩).mpr ⟨hstate, Or.inl rfl⟩⟩

/-- The server is destroyed while `forceCloseInLoop` is in the queue: `Channel::remove` fails. -/
theorem destroyServer_not_clean : ¬ ∀ t s, (connMachine ℕ).Run
    (newConnection .serverSameLoop (.new 1 5 64 true true true) emptyPoller true) t s →
      Destroyable s → CleanEnd ⟨0, false, true⟩ t s := by
  intro h
  obtain ⟨t, s, hrun, hholds, houtside, hpc, hnone⟩ := (connMachine ℕ).exists_run_of_exec
    (newConnection .serverSameLoop (.new 1 5 64 true true true) emptyPoller true)
    [.connectEstablished, .callbackReturns, .endHandling, .forceClose]
    (fun s _ => s.owner.holds = true ∧ s.dispatch.eventHandling = false ∧ s.pc = .idle ∧
      s.destroyServer.isNone = true) (by decide +kernel)
  obtain ⟨s', out, hstep, -⟩ := h t s hrun ⟨hholds, houtside, Or.inl hpc⟩
  rw [hstep] at hnone
  cases hnone

end ConnLoop

end MuduoServer
