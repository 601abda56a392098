import MuduoServer.Tcp.Isolation
import MuduoServer.Tcp.Teardown

/-!
# The release of a connection

The references to a `TcpConnection` are those of its owner, of the posted functions and of the loop
thread.  When the owner has let go of it, nothing is added to the others: the connection is down,
and what still waits for it finds nothing to do and is gone after it has run.  So two returns of
`doPendingFunctors` are enough, one for the functors of the pass that is going on and one for those
that were posted meanwhile, and then the destructors run and the descriptor is closed.

Three things are left out, as in `Host`.  `startRead` and `stopRead` are not among the steps: a late
`startRead` would have the kernel watch the descriptor again.  A `TcpConnectionPtr` kept by a user
is not counted among the references.  And `forceClose` of another thread reads and writes `state_`
in one step.
-/

namespace MuduoServer

namespace ConnLoop

variable {τ : Type} {s s' : ConnLoop τ} {st : Stage} {out : List (ConnEvent τ)}

/-- The owner lets go of a connection only at the end of its life. -/
lemma StageInv.stage_of_released (h : StageInv st s) (hholds : s.owner.holds = false) :
    st = .destroying ∨ st = .destroyed := by
  by_contra hst
  push Not at hst
  cases hholds.symm.trans (h.owner.holds hst.1 hst.2)

/-- Then it is down, no removal is posted, and the loop thread is not in one of its callbacks. -/
lemma StageInv.of_released (h : StageInv st s) (hholds : s.owner.holds = false) :
    s.conn.state = .KDisconnected ∧ s.owner.posted = 0 ∧
      (s.pc = .idle ∨ s.pc = .phase .write ∨ s.pc = .phase .done) := by
  have hstage := h.stage_of_released hholds
  have hearly : st ≠ .created ∧ st ≠ .up ∧ st ≠ .down := by
    rcases hstage with rfl | rfl
    · decide
    · decide
  refine ⟨?_, ?_, ?_⟩
  · rcases hstage with rfl | rfl
    · exact h.conn.state
    · exact h.conn.state
  · rcases hstage with rfl | rfl
    · exact h.owner.posted
    · exact h.owner.posted
  · have hfits := h.control.fits
    cases hpc : s.pc with
    | idle => exact Or.inl rfl
    | phase p =>
      rw [hpc] at hfits
      cases p with
      | write => exact Or.inr (Or.inl rfl)
      | done => exact Or.inr (Or.inr rfl)
      | close | error | read => exact absurd hfits hearly.2.1
    | newConnection =>
      rw [hpc] at hfits
      exact absurd hfits hearly.1
    | polled | inUp | inMessage =>
      rw [hpc] at hfits
      exact absurd hfits hearly.2.1
    | closing k =>
      rw [hpc] at hfits
      exact absurd hfits.stage_eq_down hearly.2.2

/-- A step that does nothing more with the connection than to leave the functions `tasks`. -/
structure WindsDown (tasks : List (ConnTask τ)) (s s' : ConnLoop τ) : Prop where
  holds : s'.owner.holds = s.owner.holds
  fd : s'.conn.channel.fd = s.conn.channel.fd
  tasks : s'.tasks = tasks
  idle : s.pc = .idle → s'.pc = .idle

/-- To do nothing winds down. -/
lemma WindsDown.refl (s : ConnLoop τ) : WindsDown s.tasks s s := ⟨rfl, rfl, rfl, id⟩

/-- A connection that is down gets no more functions posted by its own. -/
lemma StageInv.step_windsDown (h : StageInv st s) (hholds : s.owner.holds = false)
    {act : ConnAct τ} (hact : act.ofConn = true)
    (hpost : ∀ caller message, act ≠ .postSend caller message) (hpre : s.pre act)
    (hstep : s.step act = some (s', out)) : WindsDown s.tasks s s' := by
  obtain ⟨hdown, hposted, hpc⟩ := h.of_released hholds
  have hclosed : ¬ s.isOpen := by
    rintro (hopen | hopen) <;> cases hdown.symm.trans hopen
  cases act with
  | postSend caller message => exact absurd rfl (hpost caller message)
  | send message w =>
    obtain ⟨s₁, hs₁, heq⟩ := Option.map_eq_some_iff.mp hstep
    obtain ⟨rfl, -⟩ := Prod.mk.inj heq
    obtain ⟨-, ⟨-, rfl⟩ | ⟨hup, -⟩⟩ := sendInLoop_eq_some hs₁
    · exact .refl _
    · exact absurd hdown hup
  | forceClose =>
    rcases forceClose_eq (Option.some.inj hstep) with ⟨hopen, -⟩ | ⟨-, rfl, -⟩
    · exact absurd hopen hclosed
    · exact .refl _
  | retrieve len =>
    obtain ⟨b, -, heq⟩ := Option.bind_eq_some_iff.mp hstep
    obtain ⟨rfl, -⟩ := Prod.mk.inj (Option.some.inj heq)
    exact ⟨rfl, rfl, rfl, id⟩
  | removeConnectionInLoop => exact absurd hposted hpre.ne'
  | testWrite w =>
    have hphase : s.pc = .phase .write := hpre.1
    simp only [ConnLoop.step] at hstep
    split at hstep
    · rcases handleWrite_eq_some hstep with ⟨n, b, s₁, hwriting, -⟩ | ⟨rfl, -⟩
      · have hup := h.stage_of_isWriting hwriting
        rcases h.stage_of_released hholds with heq | heq <;> cases hup.symm.trans heq
      · exact ⟨rfl, rfl, rfl, fun hidle => by cases hidle.symm.trans hphase⟩
    · obtain ⟨rfl, -⟩ := Prod.mk.inj (Option.some.inj hstep)
      exact ⟨rfl, rfl, rfl, fun hidle => by cases hidle.symm.trans hphase⟩
  | connectEstablished | testClose | testError =>
    have hphase := hpre
    rcases hpc with heq | heq | heq <;> cases heq.symm.trans hphase
  | testRead r =>
    have hphase := hpre.1
    rcases hpc with heq | heq | heq <;> cases heq.symm.trans hphase
  | callbackReturns =>
    have hcallback : s.pc.inCallback = true := hpre
    rcases hpc with heq | heq | heq <;> rw [heq] at hcallback <;> cases hcallback
  | runTask | poll | pollOther | endHandling | handleEvent | endEvent => cases hact

/-- What is posted finds nothing to do. -/
lemma StageInv.runTask_windsDown (h : StageInv st s) (hholds : s.owner.holds = false)
    {task : ConnTask τ} {tasks : List (ConnTask τ)} (htasks : s.tasks = task :: tasks)
    {w : WriteResult} (hstep : s.runTask w = some (s', out)) :
    WindsDown tasks s s' := by
  obtain ⟨hdown, -, -⟩ := h.of_released hholds
  simp only [ConnLoop.runTask, htasks] at hstep
  cases task with
  | connectEstablished =>
    obtain ⟨hconnecting, -⟩ := connectEstablished_eq_some hstep
    cases hdown.symm.trans hconnecting
  | sendInLoop poster message =>
    obtain ⟨s₁, hs₁, heq⟩ := Option.map_eq_some_iff.mp hstep
    obtain ⟨rfl, -⟩ := Prod.mk.inj heq
    rw [sendInLoopString, ConnLoop.send] at hs₁
    obtain ⟨-, ⟨-, rfl⟩ | ⟨hup, -⟩⟩ := sendInLoop_eq_some hs₁
    · exact ⟨rfl, rfl, rfl, id⟩
    · exact absurd hdown hup
  | forceCloseInLoop =>
    rcases forceCloseInLoop_eq_some hstep with hclose | ⟨-, rfl, -⟩
    · rcases (handleClose_eq_some hclose).1 with hopen | hopen
      · cases hdown.symm.trans hopen
      · cases hdown.symm.trans hopen
    · exact ⟨rfl, rfl, rfl, fun _ => rfl⟩
  | writeCompleteCallback =>
    obtain ⟨rfl, -⟩ := Prod.mk.inj (Option.some.inj hstep)
    exact ⟨rfl, rfl, rfl, id⟩
  | highWaterMarkCallback size =>
    obtain ⟨rfl, -⟩ := Prod.mk.inj (Option.some.inj hstep)
    exact ⟨rfl, rfl, rfl, id⟩
  | connectDestroyed =>
    obtain ⟨s₁, r, hs₁, hr, rfl⟩ := connectDestroyed_eq_some hstep
    rcases takeDown_eq_some hs₁ with ⟨hup, -⟩ | ⟨-, rfl, -⟩
    · cases hdown.symm.trans hup
    · exact ⟨rfl, (Channel.Touches.remove hr).fd, rfl, id⟩

end ConnLoop

/-- Neither is the connection `a` destroyed nor does another thread send to it. -/
def HostAct.leavesAlone (a : ℕ) : HostAct → Bool
  | .destroy b | .conn b (.postSend _ _) => b != a
  | _ => true

/-- `doPendingFunctors` returns. -/
def HostAct.endsPass : HostAct → Bool
  | .endFunctors => true
  | _ => false

namespace LoopHost

open ConnLoop

variable {s s' s'' : LoopHost} {a b fd : ℕ} {h g : Hosted} {v : ConnLoop Unit}

/-- The connection `a` has the descriptor `fd`, and its owner has let go of it. -/
def Released (s : LoopHost) (a fd : ℕ) : Prop :=
  ∃ h, s.conns a = some h ∧ h.conn.channel.fd = fd ∧ h.owner.holds = false

/-- To be released depends on the connection alone. -/
lemma Released.congr (hrel : s.Released a fd) (hconns : s'.conns a = s.conns a) :
    s'.Released a fd := by
  obtain ⟨h, ha, hrest⟩ := hrel
  exact ⟨h, hconns.trans ha, hrest⟩

/-- It does not wait for its turn: it is not up. -/
lemma Released.not_turn (hrel : s.Released a fd) (hinv : HostInv s) : a ∉ s.turn := by
  intro hmem
  obtain ⟨h, ha, -, hholds⟩ := hrel
  obtain ⟨-, -, -, st, hst⟩ := hinv.sound a h ha
  have hpc : (s.view a h).pc = .polled := by
    refine (pcOf_of_outside fun p hp heq => ?_).trans (if_pos hmem)
    exact (hinv.shape.inside p hp).2.1 (heq ▸ hmem)
  obtain ⟨-, -, hidle⟩ := hst.of_released hholds
  rcases hidle with heq | heq | heq
  · cases hpc.symm.trans heq
  · cases hpc.symm.trans heq
  · cases hpc.symm.trans heq

/-- A step that brings a released connection no new references.  What is posted is not posted for
it, and the loop thread does not go into its functions. -/
structure Settles (s s' : LoopHost) (a fd : ℕ) : Prop where
  released : s'.Released a fd
  late : tasksOf a s'.pendingFunctors ≠ [] → s'.stage = .functors →
    tasksOf a s.pendingFunctors ≠ [] ∧ s.stage = .functors
  waiting : tasksOf a s.waiting = [] → tasksOf a s'.waiting = []
  outside : (∀ p ∈ s.inside, p.1 ≠ a) → ∀ p ∈ s'.inside, p.1 ≠ a

namespace Settles

/-- Two such steps bring no new references either. -/
lemma trans (h : Settles s s' a fd) (h' : Settles s' s'' a fd) : Settles s s'' a fd where
  released := h'.released
  late hpending hstage := by
    obtain ⟨hpending', hstage'⟩ := h'.late hpending hstage
    exact h.late hpending' hstage'
  waiting := h'.waiting ∘ h.waiting
  outside := h'.outside ∘ h.outside

/-- The rest of the loop has taken a step. -/
lemma of_elsewhere (hrel : s'.Released a fd)
    (hpending : tasksOf a s'.pendingFunctors = tasksOf a s.pendingFunctors)
    (hfunctors : tasksOf a s.functors = [] → tasksOf a s'.functors = [])
    (hstage : s'.stage = .functors → s.stage = .functors)
    (hinside : ∀ p ∈ s'.inside, p.1 = a → p ∈ s.inside) : Settles s s' a fd where
  released := hrel
  late hlate hstage' := ⟨hpending ▸ hlate, hstage hstage'⟩
  waiting hnone := by
    rw [LoopHost.waiting, tasksOf_append] at hnone
    rw [LoopHost.waiting, tasksOf_append, hpending, hfunctors (List.append_eq_nil_iff.mp hnone).1,
      (List.append_eq_nil_iff.mp hnone).2, List.append_nil]
  outside hout p hp heq := hout p (hinside p hp heq) heq

/-- Another connection is put back. -/
lemma put_of_ne (hrel : s.Released a fd) (hb : a ≠ b) : Settles s (s.put b v) a fd := by
  refine of_elsewhere (hrel.congr (conns_put_of_ne hb)) ?_ id id fun p hp hpa => ?_
  · change tasksOf a (s.pendingFunctors ++ (v.tasks.drop _).map (.conn b)) = _
    rw [tasksOf_append, tasksOf_map_of_ne hb, List.append_nil]
  · unfold put at hp
    dsimp only at hp
    split at hp
    · exact (Option.filter_eq_some_iff.mp hp).1
    · exact (Option.filter_eq_some_iff.mp hp).1
    · obtain rfl := Option.some.inj hp
      exact absurd hpa.symm hb

/-- The connection itself is put back. -/
lemma put_self {u : ConnLoop Unit} (hturn : a ∉ s.turn)
    (hu : WindsDown (tasksOf a s.waiting) u v) (hholds : u.owner.holds = false)
    (hfd : u.conn.channel.fd = fd) (hpc : u.pc = s.pcOf a) : Settles s (s.put a v) a fd where
  released := ⟨_, conns_put_self, hu.fd.trans hfd, hu.holds.trans hholds⟩
  late hlate hstage := by
    refine ⟨?_, hstage⟩
    change tasksOf a (s.pendingFunctors ++ (v.tasks.drop _).map (.conn a)) ≠ [] at hlate
    rw [hu.tasks, List.drop_length, List.map_nil, List.append_nil] at hlate
    exact hlate
  waiting hnone := by
    rw [tasksOf_put_self (by rw [hu.tasks]), hu.tasks, hnone]
  outside hout p hp := by
    have hidle : v.pc = .idle := by
      refine hu.idle (hpc.trans ?_)
      rw [pcOf_of_outside hout]
      exact if_neg hturn
    unfold put at hp
    dsimp only at hp
    rw [hidle] at hp
    exact of_decide_eq_true (Option.filter_eq_some_iff.mp hp).2

end Settles

/-- A step of the connection brings it no new references, nor does a step of another one. -/
lemma Released.settles_conn (hrel : s.Released a fd) (hinv : HostInv s) {act : ConnAct Unit}
    (hpre : s.pre (.conn b act)) (hact : (HostAct.conn b act).leavesAlone a = true)
    (hstep : s.step (.conn b act) = some s') : Settles s s' a fd := by
  obtain ⟨hcalls, g, hg, hpre⟩ := hpre
  have hg : s.conns b = some g := hg
  simp only [LoopHost.step, hg, Option.bind_eq_bind, Option.bind_some] at hstep
  obtain ⟨r, hr, hstep⟩ := Option.bind_eq_some_iff.mp hstep
  obtain rfl := Option.some.inj hstep
  by_cases hb : a = b
  · subst hb
    have hturn := hrel.not_turn hinv
    obtain ⟨h, ha, hfd, hholds⟩ := hrel
    obtain rfl := Option.some.inj (hg.symm.trans ha)
    obtain ⟨-, -, -, st, hst⟩ := hinv.sound a g hg
    have hpost : ∀ caller message, act ≠ .postSend caller message := by
      rintro caller message rfl
      simp [HostAct.leavesAlone] at hact
    exact .put_self hturn (hst.step_windsDown hholds (callsConn_ofConn hcalls) hpost hpre hr)
      hholds hfd rfl
  · exact .put_of_ne hrel hb

/-- The next functor is called: if it is one of the connection, it is one less. -/
lemma Released.settles_runFunctor (hrel : s.Released a fd) (hinv : HostInv s) {w : WriteResult}
    (hpre : s.pre (.runFunctor w)) (hstep : s.step (.runFunctor w) = some s') :
    Settles s s' a fd := by
  obtain ⟨hloop, -⟩ := hpre
  have hpop : ∀ x functors, s.functors = x :: functors →
      Settles s { s with functors := functors, frame := .functor } a fd := by
    intro x functors hx
    refine .of_elsewhere (hrel.congr rfl) rfl (fun hnone => ?_) id fun p hp _ => hp
    rw [hx, ← List.singleton_append, tasksOf_append] at hnone
    exact (List.append_eq_nil_iff.mp hnone).2
  simp only [LoopHost.step, LoopHost.runFunctor] at hstep
  split at hstep
  · obtain rfl := Option.some.inj hstep
    exact .of_elsewhere hrel rfl id id fun p hp _ => hp
  · next functors hx =>
    obtain rfl := Option.some.inj hstep
    exact hpop _ _ hx
  · next b task functors hx =>
    obtain ⟨g, hg, hstep⟩ := Option.bind_eq_some_iff.mp hstep
    obtain ⟨r, hr, hstep⟩ := Option.bind_eq_some_iff.mp hstep
    obtain rfl := Option.some.inj hstep
    refine (hpop _ _ hx).trans ?_
    by_cases hb : a = b
    · subst hb
      have hturn := hrel.not_turn hinv
      obtain ⟨h, ha, hfd, hholds⟩ := hrel
      obtain rfl := Option.some.inj (hg.symm.trans ha)
      obtain ⟨-, -, -, st, hst⟩ := hinv.sound a g hg
      have htasks : (s.view a g).tasks = task :: tasksOf a (functors ++ s.pendingFunctors) := by
        change tasksOf a (s.functors ++ s.pendingFunctors) = _
        rw [hx]
        simp [tasksOf]
      exact .put_self hturn (hst.runTask_windsDown hholds htasks hr) hholds hfd rfl
    · exact .put_of_ne (hrel.congr rfl) hb

/-- A channel is written to through a bare pointer. -/
lemma Released.mapChannel (hrel : s.Released a fd) {f : Channel → Channel} (hf : Harmless f) :
    (s.mapChannel b f).Released a fd := by
  by_cases hb : a = b
  · subst hb
    obtain ⟨h, ha, hfd, hholds⟩ := hrel
    exact ⟨_, conns_mapChannel_self ha, (hf.fd _).trans hfd, hholds⟩
  · exact hrel.congr (conns_mapChannel_of_ne f hb)

/-- The next channel has its turn. -/
lemma Released.settles_handleEvent (hrel : s.Released a fd) (hinv : HostInv s)
    (hstep : s.step .handleEvent = some s') : Settles s s' a fd := by
  simp only [LoopHost.step] at hstep
  split at hstep
  · obtain rfl := Option.some.inj hstep
    exact .of_elsewhere hrel rfl id id fun p hp _ => hp
  · next b turn hturn =>
    have hab : a ≠ b := by
      rintro rfl
      refine hrel.not_turn hinv ?_
      rw [hturn]
      exact List.mem_cons_self
    unfold LoopHost.handleEvent at hstep
    split at hstep
    · obtain ⟨r, -, hstep⟩ := Option.bind_eq_some_iff.mp hstep
      obtain rfl := Option.some.inj hstep
      have hnext : Settles s { s with turn := turn } a fd :=
        .of_elsewhere (hrel.congr rfl) rfl id id fun p hp _ => hp
      exact hnext.trans (.put_of_ne hnext.released hab)
    · obtain ⟨c, -, hstep⟩ := Option.bind_eq_some_iff.mp hstep
      obtain rfl := Option.some.inj hstep
      have hmap : (s.mapChannel b (·.setEventHandling true)).Released a fd :=
        hrel.mapChannel (.setEventHandling true)
      exact .of_elsewhere (hmap.congr rfl) rfl id id fun p hp _ => hp

/-- `handleEvent` of a channel returns. -/
lemma Released.settles_endEvent (hrel : s.Released a fd) (hinv : HostInv s)
    (hstep : s.step .endEvent = some s') : Settles s s' a fd := by
  simp only [LoopHost.step, LoopHost.endEvent] at hstep
  split at hstep
  · next p hinside =>
    obtain ⟨g, hg, hstep⟩ := Option.bind_eq_some_iff.mp hstep
    obtain ⟨r, hr, hstep⟩ := Option.bind_eq_some_iff.mp hstep
    obtain rfl := Option.some.inj hr
    obtain rfl := Option.some.inj hstep
    by_cases hb : a = p.1
    · subst hb
      have hturn := hrel.not_turn hinv
      obtain ⟨h, ha, hfd, hholds⟩ := hrel
      obtain rfl := Option.some.inj (hg.symm.trans ha)
      exact .put_self (u := s.view p.1 g) hturn ⟨rfl, rfl, rfl, fun _ => rfl⟩ hholds hfd rfl
    · exact .put_of_ne hrel hb
  · next b hinside hframe =>
    obtain ⟨c, -, hstep⟩ := Option.bind_eq_some_iff.mp hstep
    obtain rfl := Option.some.inj hstep
    have hmap : (s.mapChannel b (·.setEventHandling false)).Released a fd :=
      hrel.mapChannel (.setEventHandling false)
    exact .of_elsewhere (hmap.congr rfl) rfl id id fun p hp _ => hp
  · obtain rfl := Option.some.inj hstep
    exact .of_elsewhere hrel rfl id id fun p hp _ => hp

/-- As long as a released connection is left alone, no step brings it a reference. -/
theorem Released.settles (hrel : s.Released a fd) (hinv : HostInv s) {act : HostAct}
    (hpre : s.pre act) (hact : act.leavesAlone a = true) (hstep : s.step act = some s') :
    Settles s s' a fd := by
  cases act with
  | conn b act => exact hrel.settles_conn hinv hpre hact hstep
  | runFunctor w => exact hrel.settles_runFunctor hinv hpre hstep
  | handleEvent => exact hrel.settles_handleEvent hinv hstep
  | endEvent => exact hrel.settles_endEvent hinv hstep
  | construct k b fd' =>
    obtain rfl := Option.some.inj hstep
    exact .of_elsewhere (hrel.congr rfl) rfl id id fun p hp _ => hp
  | enableReading b =>
    obtain ⟨p, -, hstep⟩ := Option.bind_eq_some_iff.mp hstep
    obtain ⟨r, -, hstep⟩ := Option.bind_eq_some_iff.mp hstep
    obtain rfl := Option.some.inj hstep
    exact .of_elsewhere (hrel.congr rfl) rfl id id fun p hp _ => hp
  | newConnection kind b fd' highWaterMark w k =>
    obtain ⟨hfresh, -⟩ := hpre
    obtain rfl := Option.some.inj hstep
    have hab : a ≠ b := by
      rintro rfl
      obtain ⟨h, ha, -⟩ := hrel
      cases (hinv.fresh hfresh).1.symm.trans ha
    have hnew : (s.newConnection kind b fd' highWaterMark w k).Released a fd :=
      hrel.congr (Function.update_of_ne hab ..)
    refine .of_elsewhere hnew ?_ id id fun p hp hpa => ?_
    · change tasksOf a (s.pendingFunctors ++ _) = _
      rw [tasksOf_append]
      split
      · simp [tasksOf, Ne.symm hab]
      · exact List.append_nil _
    · simp only [LoopHost.newConnection] at hp
      split at hp
      · exact hp
      · obtain rfl := Option.some.inj hp
        exact absurd hpa.symm hab
  | queueInLoop =>
    obtain rfl := Option.some.inj hstep
    refine .of_elsewhere (hrel.congr rfl) ?_ id id fun p hp _ => hp
    rw [tasksOf_append, tasksOf_user, List.append_nil]
  | timer act =>
    obtain ⟨r, -, hstep⟩ := Option.bind_eq_some_iff.mp hstep
    obtain rfl := Option.some.inj hstep
    exact .of_elsewhere (hrel.congr rfl) rfl id id fun p hp _ => hp
  | report fd' revents =>
    obtain ⟨b, -, hstep⟩ := Option.bind_eq_some_iff.mp hstep
    obtain ⟨c, -, hstep⟩ := Option.bind_eq_some_iff.mp hstep
    obtain rfl := Option.some.inj hstep
    have hmap : (s.mapChannel b (·.setRevents revents)).Released a fd :=
      hrel.mapChannel (.setRevents revents)
    exact .of_elsewhere (hmap.congr rfl) rfl id id fun p hp _ => hp
  | poll | beginHandling | endFunctors =>
    obtain rfl := Option.some.inj hstep
    exact .of_elsewhere (hrel.congr rfl) rfl id (fun heq => by cases heq) fun p hp _ => hp
  | endHandling =>
    obtain rfl := Option.some.inj hstep
    refine ⟨hrel.congr rfl, fun hlate => absurd rfl hlate, fun hnone => ?_, id⟩
    rw [LoopHost.waiting, tasksOf_append] at hnone
    rw [LoopHost.waiting, List.append_nil]
    exact (List.append_eq_nil_iff.mp hnone).2
  | endFunctor =>
    obtain rfl := Option.some.inj hstep
    exact .of_elsewhere (hrel.congr rfl) rfl id id fun p hp _ => hp
  | destroy b =>
    have hab : a ≠ b := by
      rintro rfl
      simp [HostAct.leavesAlone] at hact
    obtain ⟨g, -, hstep⟩ := Option.bind_eq_some_iff.mp hstep
    obtain ⟨-, hstep⟩ := Option.ite_none_right_eq_some.mp hstep
    obtain rfl := Option.some.inj hstep
    exact .of_elsewhere (hrel.congr (Function.update_of_ne hab ..)) rfl id id fun p hp _ => hp

end LoopHost

/-- The loop as long as the connection `a` is left alone. -/
def releaseMachine (a : ℕ) : Machine LoopHost HostAct Empty :=
  hostMachine.restrict fun _ act => act.leavesAlone a = true

instance (a : ℕ) (s : LoopHost) (act : HostAct) : Decidable ((releaseMachine a).pre s act) :=
  inferInstanceAs (Decidable (s.pre act ∧ act.leavesAlone a = true))

namespace LoopHost

open ConnLoop

variable {s s' : LoopHost} {a fd : ℕ} {clk : Timestamp} {t : List Empty}

/-- A step of the loop, seen from the machine. -/
lemma step_of_hostMachine {act : HostAct} {out : List Empty}
    (hstep : hostMachine.step s act = some (s', out)) : s.step act = some s' := by
  obtain ⟨s₁, hs₁, heq⟩ := Option.map_eq_some_iff.mp hstep
  obtain ⟨rfl, -⟩ := Prod.mk.inj heq
  exact hs₁

/-- What holds of a released connection that is left alone. -/
lemma Released.of_run (hrel : s.Released a fd) (hinv : HostInv s)
    (h : (releaseMachine a).Run s t s') : HostInv s' ∧ s'.Released a fd := by
  refine h.stateInvariant (fun s => HostInv s ∧ s.Released a fd) ⟨hinv, hrel⟩ ?_
  rintro s act s' out ⟨hinv, hrel⟩ ⟨hpre, hleaves⟩ hstep
  have hs := step_of_hostMachine hstep
  obtain ⟨s₁, hs₁, hinv₁⟩ := hinv.step hpre
  obtain rfl := Option.some.inj (hs₁.symm.trans hs)
  exact ⟨hinv₁, (hrel.settles hinv hpre hleaves hs).released⟩

/-- Every descriptor that is open is that of a channel. -/
def Owned (s : LoopHost) : Prop := ∀ fd, s.fds fd = true → ∃ a, s.fdAt a = some fd

namespace Owned

/-- The owners of the descriptors depend on the table and the channels alone. -/
lemma congr (h : s.Owned) (hfds : s'.fds = s.fds) (hfdAt : s'.fdAt = s.fdAt) : s'.Owned := by
  intro fd hfd
  rw [hfds] at hfd
  rw [hfdAt]
  exact h fd hfd

/-- A channel is made at a new address, with a new descriptor. -/
lemma create (h : s.Owned) (ha : s.fdAt a = none) (hfds : s'.fds = Function.update s.fds fd true)
    (hfdAt : s'.fdAt = Function.update s.fdAt a (some fd)) : s'.Owned := by
  intro fd' hfd'
  rw [hfdAt]
  by_cases heq : fd' = fd
  · rw [heq]
    exact ⟨a, Function.update_self ..⟩
  · rw [hfds, Function.update_of_ne heq] at hfd'
    obtain ⟨b, hb⟩ := h fd' hfd'
    have hba : b ≠ a := by
      rintro rfl
      cases ha.symm.trans hb
    exact ⟨b, (Function.update_of_ne hba ..).trans hb⟩

/-- A channel goes, with its descriptor. -/
lemma destroy (h : s.Owned) (ha : s.fdAt a = some fd)
    (hfds : s'.fds = Function.update s.fds fd false)
    (hfdAt : ∀ b ≠ a, s'.fdAt b = s.fdAt b) : s'.Owned := by
  intro fd' hfd'
  have hne : fd' ≠ fd := by
    rintro rfl
    rw [hfds, Function.update_self] at hfd'
    cases hfd'
  rw [hfds, Function.update_of_ne hne] at hfd'
  obtain ⟨b, hb⟩ := h fd' hfd'
  have hba : b ≠ a := by
    rintro rfl
    exact hne (Option.some.inj (hb.symm.trans ha))
  exact ⟨b, (hfdAt b hba).trans hb⟩

end Owned

/-- The functions of a connection do not change its descriptor. -/
lemma fdAt_put_of_step {h : Hosted} {r : ConnLoop Unit × List (ConnEvent Unit)}
    (ha : s.conns a = some h) {act : ConnAct Unit} (hact : act.ofConn = true)
    (hr : (s.view a h).step act = some r) : (s.put a r.1).fdAt = s.fdAt :=
  fdAt_put ha (Local.step hact hr).channel.fd

/-- Every step of the loop keeps an owner for every open descriptor. -/
lemma Owned.step (h : s.Owned) (hinv : HostInv s) {act : HostAct} (hpre : s.pre act)
    (hstep : s.step act = some s') : s'.Owned := by
  cases act with
  | construct k b fd' =>
    obtain ⟨hconns, hchannels, hat, -⟩ := hinv.fresh hpre
    obtain rfl := Option.some.inj hstep
    refine h.create hat rfl (funext fun b' => ?_)
    by_cases hb : b' = b
    · subst hb
      simp [fdAt, channelAt, hconns, Channel.new]
    · simp [fdAt, channelAt, Function.update_of_ne hb]
  | newConnection kind b fd' highWaterMark w k =>
    obtain ⟨-, -, hat, -⟩ := hinv.fresh hpre.1
    obtain rfl := Option.some.inj hstep
    refine h.create hat rfl (funext fun b' => ?_)
    by_cases hb : b' = b
    · subst hb
      have hself : (s.newConnection kind b' fd' highWaterMark w k).conns b' = some
          { conn := .new b' fd' highWaterMark true w k
            owner := { kind := kind, holds := true, posted := 0 } } := Function.update_self ..
      rw [Function.update_self, fdAt_of_conn hself]
      rfl
    · simp [fdAt, channelAt, LoopHost.newConnection, Function.update_of_ne hb]
  | enableReading b =>
    obtain ⟨-, ⟨k, c⟩, hc, -⟩ := hpre
    have hc : s.channels b = some (k, c) := hc
    have hconns : s.conns b = none := (hinv.shape.disjoint b).resolve_right (by simp [hc])
    simp only [LoopHost.step, hc, Option.bind_eq_bind, Option.bind_some] at hstep
    obtain ⟨r, hr, hstep⟩ := Option.bind_eq_some_iff.mp hstep
    obtain rfl := Option.some.inj hstep
    refine h.congr rfl (funext fun b' => ?_)
    by_cases hb : b' = b
    · subst hb
      have hfd : r.2.fd = c.fd := (Channel.Touches.apply .enableReading hr).fd
      simp [fdAt, channelAt, hconns, hc, hfd]
    · simp [fdAt, channelAt, Function.update_of_ne hb]
  | conn b act =>
    obtain ⟨hcalls, -⟩ := hpre
    obtain ⟨g, hg, hstep⟩ := Option.bind_eq_some_iff.mp hstep
    obtain ⟨r, hr, hstep⟩ := Option.bind_eq_some_iff.mp hstep
    obtain rfl := Option.some.inj hstep
    exact h.congr rfl (fdAt_put_of_step hg (callsConn_ofConn hcalls) hr)
  | runFunctor w =>
    simp only [LoopHost.step, LoopHost.runFunctor] at hstep
    split at hstep
    · obtain rfl := Option.some.inj hstep
      exact h
    · obtain rfl := Option.some.inj hstep
      exact h
    · next b task functors hx =>
      obtain ⟨g, hg, hstep⟩ := Option.bind_eq_some_iff.mp hstep
      obtain ⟨r, hr, hstep⟩ := Option.bind_eq_some_iff.mp hstep
      obtain rfl := Option.some.inj hstep
      have htasks : (s.view b g).tasks = task :: tasksOf b (functors ++ s.pendingFunctors) := by
        change tasksOf b (s.functors ++ s.pendingFunctors) = _
        rw [hx]
        simp [tasksOf]
      exact h.congr rfl (fdAt_put (s := { s with functors := functors, frame := .functor }) hg
        (Local.runTask htasks hr).channel.fd)
  | handleEvent =>
    simp only [LoopHost.step] at hstep
    split at hstep
    · obtain rfl := Option.some.inj hstep
      exact h
    · next b turn hturn =>
      unfold LoopHost.handleEvent at hstep
      split at hstep
      · next g hg =>
        obtain ⟨r, hr, hstep⟩ := Option.bind_eq_some_iff.mp hstep
        obtain rfl := Option.some.inj hr
        obtain rfl := Option.some.inj hstep
        exact h.congr rfl (fdAt_put (s := { s with turn := turn }) hg rfl)
      · obtain ⟨c, -, hstep⟩ := Option.bind_eq_some_iff.mp hstep
        obtain rfl := Option.some.inj hstep
        exact h.congr rfl (fdAt_mapChannel (.setEventHandling true))
  | endEvent =>
    simp only [LoopHost.step, LoopHost.endEvent] at hstep
    split at hstep
    · obtain ⟨g, hg, hstep⟩ := Option.bind_eq_some_iff.mp hstep
      obtain ⟨r, hr, hstep⟩ := Option.bind_eq_some_iff.mp hstep
      obtain rfl := Option.some.inj hr
      obtain rfl := Option.some.inj hstep
      exact h.congr rfl (fdAt_put hg rfl)
    · obtain ⟨c, -, hstep⟩ := Option.bind_eq_some_iff.mp hstep
      obtain rfl := Option.some.inj hstep
      exact h.congr rfl (fdAt_mapChannel (.setEventHandling false))
    · obtain rfl := Option.some.inj hstep
      exact h
  | report fd' revents =>
    obtain ⟨b, -, hstep⟩ := Option.bind_eq_some_iff.mp hstep
    obtain ⟨c, -, hstep⟩ := Option.bind_eq_some_iff.mp hstep
    obtain rfl := Option.some.inj hstep
    exact h.congr rfl (fdAt_mapChannel (.setRevents revents))
  | timer act =>
    obtain ⟨r, -, hstep⟩ := Option.bind_eq_some_iff.mp hstep
    obtain rfl := Option.some.inj hstep
    exact h
  | queueInLoop | poll | beginHandling | endHandling | endFunctor | endFunctors =>
    obtain rfl := Option.some.inj hstep
    exact h
  | destroy b =>
    obtain ⟨g, hg, hun⟩ := hpre
    have hg : s.conns b = some g := hg
    have hchannels : s.channels b = none := (hinv.shape.disjoint b).resolve_left (by simp [hg])
    simp only [LoopHost.step, hg, Option.bind_eq_bind, Option.bind_some] at hstep
    obtain ⟨-, hstep⟩ := Option.ite_none_right_eq_some.mp hstep
    obtain rfl := Option.some.inj hstep
    exact h.destroy (fdAt_of_conn hg) rfl fun b' hb => by
      simp [fdAt, channelAt, Function.update_of_ne hb]

end LoopHost

end MuduoServer
