import MuduoServer.Tcp.Drain
import MuduoServer.Tcp.Release

/-!
# What is sent arrives

`send` of another thread only posts a function, and `sendInLoop` runs when `doPendingFunctors` comes
to it.  What is in the queue when a pass begins has run when it ends; what is posted during a pass
waits for the next one.  So after two passes everything that had been sent has been handed over to
`sendInLoop`, in the order of each caller, and from there on it goes to the kernel as in `Drain`: in
runs in which no write finds the connection reset, from their beginning on, and in which `startRead`
and `stopRead` are not among the steps and `forceClose` reads and writes `state_` in one step.
-/

namespace MuduoServer

namespace ConnLoop

variable {τ : Type} {s s' : ConnLoop τ} {out : List (ConnEvent τ)}

/-- The next function hands over its message, if it has one. -/
lemma bodies_runTask {w : WriteResult} {task : ConnTask τ} {tasks : List (ConnTask τ)}
    (htasks : s.tasks = task :: tasks) (h : s.runTask w = some (s', out)) :
    bodies out = queuedSends [task] := by
  simp only [runTask, htasks] at h
  cases task with
  | connectEstablished => exact (Frame.connectEstablished h).bodies
  | sendInLoop poster message =>
    obtain ⟨s₁, -, heq⟩ := Option.map_eq_some_iff.mp h
    obtain ⟨-, rfl⟩ := Prod.mk.inj heq
    rfl
  | forceCloseInLoop => exact (Frame.forceCloseInLoop h).bodies
  | writeCompleteCallback | highWaterMarkCallback =>
    obtain ⟨-, rfl⟩ := Prod.mk.inj (Option.some.inj h)
    rfl
  | connectDestroyed => exact (Frame.connectDestroyed h).bodies

end ConnLoop

namespace LoopHost

open ConnLoop

variable {s s' s₀ : LoopHost} {a fd highWaterMark : ℕ} {kind : OwnerKind} {w k : Bool}
  {q q' q₁ : LoopHost × ConnLog} {act : HostAct} {m : List (Option Unit × List UInt8)}

/-- Only `endHandling` begins a pass, and within a pass the functors are taken one by one. -/
lemma functors_of_step (hstep : s.step act = some s') (hact : act ≠ .endHandling) :
    (s'.stage = .functors → s.stage = .functors) ∧
      (s'.functors = s.functors ∨ ∃ w, act = .runFunctor w ∧ s'.functors = s.functors.tail) := by
  cases act with
  | endHandling => exact absurd rfl hact
  | construct | newConnection | queueInLoop | endFunctor =>
    obtain rfl := Option.some.inj hstep
    exact ⟨id, Or.inl rfl⟩
  | poll | beginHandling | endFunctors =>
    obtain rfl := Option.some.inj hstep
    exact ⟨fun heq => (by cases heq), Or.inl rfl⟩
  | enableReading | conn | report =>
    obtain ⟨p, -, hstep⟩ := Option.bind_eq_some_iff.mp hstep
    obtain ⟨r, -, hstep⟩ := Option.bind_eq_some_iff.mp hstep
    obtain rfl := Option.some.inj hstep
    exact ⟨id, Or.inl rfl⟩
  | timer =>
    obtain ⟨r, -, hstep⟩ := Option.bind_eq_some_iff.mp hstep
    obtain rfl := Option.some.inj hstep
    exact ⟨id, Or.inl rfl⟩
  | handleEvent =>
    simp only [step] at hstep
    split at hstep
    · obtain rfl := Option.some.inj hstep
      exact ⟨id, Or.inl rfl⟩
    · simp only [handleEvent] at hstep
      split at hstep
      · obtain ⟨r, -, hstep⟩ := Option.bind_eq_some_iff.mp hstep
        obtain rfl := Option.some.inj hstep
        exact ⟨id, Or.inl rfl⟩
      · obtain ⟨r, -, hstep⟩ := Option.bind_eq_some_iff.mp hstep
        obtain rfl := Option.some.inj hstep
        exact ⟨id, Or.inl rfl⟩
  | endEvent =>
    simp only [step, endEvent] at hstep
    split at hstep
    · obtain ⟨h, -, hstep⟩ := Option.bind_eq_some_iff.mp hstep
      obtain ⟨r, -, hstep⟩ := Option.bind_eq_some_iff.mp hstep
      obtain rfl := Option.some.inj hstep
      exact ⟨id, Or.inl rfl⟩
    · obtain ⟨p, -, hstep⟩ := Option.bind_eq_some_iff.mp hstep
      obtain rfl := Option.some.inj hstep
      exact ⟨id, Or.inl rfl⟩
    · obtain rfl := Option.some.inj hstep
      exact ⟨id, Or.inl rfl⟩
  | runFunctor w =>
    simp only [step, runFunctor] at hstep
    split at hstep
    · obtain rfl := Option.some.inj hstep
      exact ⟨id, Or.inl rfl⟩
    · next functors hx =>
      obtain rfl := Option.some.inj hstep
      exact ⟨id, Or.inr ⟨w, rfl, by rw [hx]; rfl⟩⟩
    · next b task functors hx =>
      obtain ⟨h, -, hstep⟩ := Option.bind_eq_some_iff.mp hstep
      obtain ⟨r, -, hstep⟩ := Option.bind_eq_some_iff.mp hstep
      obtain rfl := Option.some.inj hstep
      exact ⟨id, Or.inr ⟨w, rfl, by rw [hx]; rfl⟩⟩
  | destroy b =>
    obtain ⟨g, -, hstep⟩ := Option.bind_eq_some_iff.mp hstep
    obtain ⟨-, hstep⟩ := Option.ite_none_right_eq_some.mp hstep
    obtain rfl := Option.some.inj hstep
    exact ⟨id, Or.inl rfl⟩

/-- The log only grows. -/
lemma events_record (a : ℕ) (log : ConnLog) (s : LoopHost) (act : HostAct) :
    log.events <+: (record a log s act).events := by
  unfold record
  split
  · split
    · exact List.prefix_append _ _
    · exact List.prefix_refl _
  · exact List.prefix_refl _

/-- So it grows along a run. -/
lemma events_of_run {ok : ConnAct Unit → Prop} {t : List Empty}
    (h : (loggedMachine a ok).Run q₁ t q) : q₁.2.events <+: q.2.events := by
  refine h.stateInvariant (fun q => q₁.2.events <+: q.2.events) (List.prefix_refl _) ?_
  intro q act q' out hlog hpre hstep
  rw [(Machine.withHistory_step hstep).2]
  exact hlog.trans (events_record ..)

/-- As many messages of each caller as there are in `m` have been handed over. -/
def Arrived (m : List (Option Unit × List UInt8)) (q : LoopHost × ConnLog) : Prop :=
  ∀ caller, m.countP (·.1 = caller) ≤ (bodies q.2.events).countP (·.1 = caller)

/-- So many will have been when the pass is over. -/
def Arriving (a : ℕ) (m : List (Option Unit × List UInt8)) (q : LoopHost × ConnLog) : Prop :=
  ∀ caller, m.countP (·.1 = caller) ≤
    (bodies q.2.events ++ queuedSends (tasksOf a q.1.functors)).countP (·.1 = caller)

instance (a : ℕ) (m : List (Option Unit × List UInt8)) (q : LoopHost × ConnLog) :
    Decidable (Arriving a m q) :=
  inferInstanceAs (Decidable (∀ _, _))

/-- The passes that have to end until `m` has been handed over. -/
def passesUntil (a : ℕ) (m : List (Option Unit × List UInt8)) (q : LoopHost × ConnLog) : ℕ :=
  if q.1.stage = .functors ∧ ¬ Arriving a m q then 2 else 1

/-- At least one pass has to end. -/
lemma passesUntil_pos (a : ℕ) (m : List (Option Unit × List UInt8)) (q : LoopHost × ConnLog) :
    0 < passesUntil a m q := by
  unfold passesUntil
  split
  · exact Nat.two_pos
  · exact Nat.one_pos

/-- Two are enough. -/
lemma passesUntil_le (a : ℕ) (m : List (Option Unit × List UInt8)) (q : LoopHost × ConnLog) :
    passesUntil a m q ≤ 2 := by
  unfold passesUntil
  split
  · exact le_refl 2
  · exact Nat.le_succ 1

/-- When the pass is over, what was to arrive in it has arrived. -/
lemma Arriving.arrived (h : Arriving a m q) (hnone : q.1.functors = []) : Arrived m q := by
  intro caller
  have hle := h caller
  rw [hnone] at hle
  exact hle.trans_eq (congrArg _ (List.append_nil _))

/-- Handing over moves a message from the functors to the log. -/
lemma Arriving.step {ok : ConnAct Unit → Prop} {c : ConnLoop Unit} {st : Stage} {out : List Empty}
    (h : Arriving a m q) (hq : Tracked a q c) (hst : StageInv st c)
    (hpre : (loggedMachine a ok).pre q act)
    (hstep : (loggedMachine a ok).step q act = some (q', out)) (hact : act ≠ .endHandling) :
    Arriving a m q' := by
  obtain ⟨hs, hlog⟩ := Machine.withHistory_step hstep
  obtain ⟨s', hs, heq⟩ := Option.map_eq_some_iff.mp hs
  obtain ⟨rfl, -⟩ := Prod.mk.inj heq
  have hbodies : bodies q.2.events <+: bodies q'.2.events := by
    rw [hlog]
    exact (events_record ..).filterMap _
  have hkeep : tasksOf a q'.1.functors = tasksOf a q.1.functors → Arriving a m q' := by
    intro hsame caller
    refine (h caller).trans ?_
    rw [hsame, List.countP_append, List.countP_append]
    exact Nat.add_le_add_right hbodies.sublist.countP_le _
  rcases (functors_of_step hs hact).2 with hsame | ⟨w, rfl, htail⟩
  · exact hkeep (congrArg _ hsame)
  · cases hx : q.1.functors with
    | nil => exact hkeep (by rw [htail, hx]; rfl)
    | cons x functors =>
      rw [hx, List.tail_cons] at htail
      cases x with
      | user => exact hkeep (by rw [htail, hx]; rfl)
      | conn b task =>
        by_cases hb : b = a
        · subst hb
          have hown : q.1.connAct b (.runFunctor w) = some (.runTask w) := by simp [connAct, hx]
          obtain ⟨g, hhosts⟩ := hq.hosts
          rcases hq.step hst hpre hstep with ⟨-, hnone, -⟩ |
            ⟨cact, c', o, hcact, -, hcstep, -, hevents⟩
          · cases hown.symm.trans hnone
          · obtain rfl := Option.some.inj (hown.symm.trans hcact)
            have htasks : c.tasks = task :: tasksOf b (functors ++ q.1.pendingFunctors) := by
              obtain ⟨p, d, rfl, -⟩ := hhosts.same
              change tasksOf b (q.1.functors ++ q.1.pendingFunctors) = _
              rw [hx]
              simp [tasksOf]
            have hhanded : bodies o = queuedSends [task] := bodies_runTask htasks hcstep
            have hsplit : tasksOf b (.conn b task :: functors) = [task] ++ tasksOf b functors := by
              simp [tasksOf]
            intro caller
            refine (h caller).trans_eq ?_
            rw [hx, htail, hevents, hsplit, queuedSends_append, bodies_append, hhanded,
              List.append_assoc]
        · exact hkeep (by rw [htail, hx]; simp [tasksOf, hb])

/-- The functors of a new pass are all that wait, and so everything arrives in it. -/
lemma Arriving.of_endHandling (hs : q.1.step .endHandling = some q'.1)
    (hsent : m <+: calls q'.2.events)
    (horder : ∀ caller, (calls q'.2.events).filter (·.1 = caller) =
      (bodies q'.2.events).filter (·.1 = caller) ++
        (queuedSends (tasksOf a q'.1.waiting)).filter (·.1 = caller)) : Arriving a m q' := by
  have hwaiting : tasksOf a q'.1.waiting = tasksOf a q'.1.functors := by
    rw [← Option.some.inj hs, waiting, List.append_nil]
  intro caller
  refine hsent.sublist.countP_le.trans_eq ?_
  rw [List.countP_append, List.countP_eq_length_filter, horder caller, List.length_append,
    hwaiting, ← List.countP_eq_length_filter, ← List.countP_eq_length_filter]

/-- A step that begins no pass brings no new one. -/
lemma passesUntil_le_of_step (hstage : q'.1.stage = .functors → q.1.stage = .functors)
    (harriving : Arriving a m q → Arriving a m q') : passesUntil a m q' ≤ passesUntil a m q := by
  by_cases hlate : q'.1.stage = .functors ∧ ¬ Arriving a m q'
  · have hbefore : q.1.stage = .functors ∧ ¬ Arriving a m q :=
      ⟨hstage hlate.1, fun hold => hlate.2 (harriving hold)⟩
    rw [passesUntil, passesUntil, if_pos hlate, if_pos hbefore]
  · rw [passesUntil, if_neg hlate]
    exact passesUntil_pos ..

/-- The end of a pass brings the arrival nearer, unless it is there. -/
lemma passesUntil_endFunctors (hpre : q.1.pre .endFunctors)
    (hs : q.1.step .endFunctors = some q'.1) (hm : ¬ Arrived m q) :
    passesUntil a m q' + 1 ≤ passesUntil a m q := by
  obtain ⟨⟨-, -, hfunctors⟩, hempty⟩ := hpre
  have hlate : ¬ Arriving a m q :=
    fun harriving => hm (harriving.arrived (List.isEmpty_iff.mp hempty))
  have htop : q'.1.stage = .top := by rw [← Option.some.inj hs]
  have hover : ¬ (q'.1.stage = .functors ∧ ¬ Arriving a m q') :=
    fun hlate' => by cases htop.symm.trans hlate'.1
  rw [passesUntil, if_neg hover, passesUntil, if_pos ⟨hfunctors, hlate⟩]

/-- What is known along a run. -/
lemma order_of_run {clk : Timestamp} {t t' : List Empty} (hrun : hostMachine.Run (.new clk) t s₀)
    (hpre : s₀.pre (.newConnection kind a fd highWaterMark w k))
    (h : (loggedMachine a ConnAct.NotReset).Run
      (s₀.newConnection kind a fd highWaterMark w k, ⟨[], []⟩) t' q) :
    ∃ c st, Tracked a q c ∧ StageInv st c ∧ ∀ caller, (calls q.2.events).filter (·.1 = caller) =
      (bodies q.2.events).filter (·.1 = caller) ++
        (queuedSends (tasksOf a q.1.waiting)).filter (·.1 = caller) := by
  obtain ⟨c, hc, hq⟩ := runs_alone hrun hpre h
  obtain ⟨st, hst, -⟩ := lifeInv_alone (hostInv_of_run hrun) hpre hc
  obtain ⟨g, hhosts⟩ := hq.hosts
  have horder := (streamInv_alone hc).1.order
  refine ⟨c, st, hq, hst, fun caller => ?_⟩
  rw [horder caller]
  obtain ⟨p, d, rfl, -⟩ := hhosts.same
  rfl

/-- What another thread has sent is handed over within two passes. -/
theorem handed_over_of_two {clk : Timestamp} {t t₁ t₂ : List Empty} {p : (LoopHost × ConnLog) × ℕ}
    (hrun : hostMachine.Run (.new clk) t s₀)
    (hpre : s₀.pre (.newConnection kind a fd highWaterMark w k))
    (hrun₁ : (loggedMachine a ConnAct.NotReset).Run
      (s₀.newConnection kind a fd highWaterMark w k, ⟨[], []⟩) t₁ q₁)
    (hrun₂ : ((loggedMachine a ConnAct.NotReset).counting fun act => act.endsPass = true).Run
      (q₁, 0) t₂ p) (hpasses : 2 ≤ p.2) (caller : Option Unit) :
    (calls q₁.2.events).filter (·.1 = caller) <+: (bodies p.1.2.events).filter (·.1 = caller) := by
  have hprogress := hrun₂.progress (fun _ q => Arrived (calls q₁.2.events) q)
    (fun _ q => passesUntil a (calls q₁.2.events) q) ?_ ?_
  · have harrived : Arrived (calls q₁.2.events) p.1 := by
      refine hprogress.resolve_right fun hle => ?_
      have hpos := passesUntil_pos a (calls q₁.2.events) p.1
      have htwo := passesUntil_le a (calls q₁.2.events) q₁
      omega
    obtain ⟨-, -, -, -, horder⟩ := order_of_run hrun hpre (hrun₁.append hrun₂.forget)
    have hsent : (calls q₁.2.events).filter (·.1 = caller) <+:
        (calls p.1.2.events).filter (·.1 = caller) :=
      ((events_of_run hrun₂.forget).filterMap _).filter _
    have hhanded : (bodies p.1.2.events).filter (·.1 = caller) <+:
        (calls p.1.2.events).filter (·.1 = caller) := by
      rw [horder caller]
      exact List.prefix_append _ _
    refine List.prefix_of_prefix_length_le hsent hhanded ?_
    rw [← List.countP_eq_length_filter, ← List.countP_eq_length_filter]
    exact harrived caller
  · intro t q act q' out hq hgoal hpre hstep caller
    rw [(Machine.withHistory_step hstep).2]
    exact (hgoal caller).trans ((events_record ..).filterMap _).sublist.countP_le
  · intro t q act q' out hq hgoal hpre' hstep
    obtain ⟨c, st, htracked, hst, -⟩ := order_of_run hrun hpre (hrun₁.append hq)
    obtain ⟨hs, -⟩ := Machine.withHistory_step hstep
    obtain ⟨s', hs, heq⟩ := Option.map_eq_some_iff.mp hs
    obtain ⟨rfl, -⟩ := Prod.mk.inj heq
    refine Or.inr ?_
    by_cases hbegins : act = .endHandling
    · subst hbegins
      obtain ⟨-, -, -, -, horder⟩ := order_of_run hrun hpre ((hrun₁.append hq).snoc hpre' hstep)
      have hsent : calls q₁.2.events <+: calls q'.2.events :=
        (events_of_run (hq.snoc hpre' hstep)).filterMap _
      have harriving := Arriving.of_endHandling hs hsent horder
      rw [passesUntil, if_neg fun hlate => hlate.2 harriving, if_neg (by decide)]
      exact passesUntil_pos ..
    · by_cases hends : act.endsPass = true
      · rw [if_pos hends]
        cases act <;> cases hends
        exact passesUntil_endFunctors hpre'.1 hs hgoal
      · rw [if_neg hends]
        exact passesUntil_le_of_step (functors_of_step hs hbegins).1 fun hold =>
          hold.step htracked hst hpre' hstep hbegins

/-- What is sent reaches the kernel, on a loop with any number of other channels.  Take any moment
that has been reached without a write finding the connection reset, and let `doPendingFunctors`
return twice after it: then `sendInLoop` has run for everything that had been sent by that moment,
by whatever thread, in the order of each caller.  And after as many writes that take anything as
there are bytes in `outputBuffer_` then, the kernel has taken all of it, or the connection is down.
No write finds it reset later either, and everything else can happen meanwhile. -/
theorem hosted_sends_reach_kernel {clk : Timestamp} {t t₁ t₂ t₃ : List Empty}
    {s₁ s₂ s₃ : LoopHost} {log₁ log₂ log₃ : ConnLog} {passes n : ℕ}
    (hrun : hostMachine.Run (.new clk) t s₀)
    (hpre : s₀.pre (.newConnection kind a fd highWaterMark w k))
    (hrun₁ : (loggedMachine a ConnAct.NotReset).Run
      (s₀.newConnection kind a fd highWaterMark w k, ⟨[], []⟩) t₁ (s₁, log₁))
    (hrun₂ : ((loggedMachine a ConnAct.NotReset).counting fun act => act.endsPass = true).Run
      ((s₁, log₁), 0) t₂ ((s₂, log₂), passes)) (hpasses : 2 ≤ passes)
    (hrun₃ : ((drainHost a).counting fun act => act.takesBytes a = true).Run
      ((s₂, log₂), 0) t₃ ((s₃, log₃), n)) :
    (∀ caller, (calls log₁.events).filter (·.1 = caller) <+:
      (bodies log₂.events).filter (·.1 = caller)) ∧
      ∃ g₂ g₃, s₂.conns a = some g₂ ∧ s₃.conns a = some g₃ ∧
        (g₂.conn.outputBuffer.readableBytes ≤ n → g₃.conn.state = .KDisconnected ∨
          (bodies log₂.events).flatMap Prod.snd <+: log₃.accepted) := by
  have hrun₁₂ := hrun₁.append hrun₂.forget
  obtain ⟨g₂, g₃, hg₂, hg₃, htaken⟩ := taken_of_hosted_writes hrun hpre hrun₁₂ hrun₃
  refine ⟨handed_over_of_two hrun hpre hrun₁ hrun₂ hpasses, g₂, g₃, hg₂, hg₃, fun hn => ?_⟩
  by_cases hdown : .setState .KDisconnected ∈ log₂.events
  · -- what is down stays down
    have hrest := hrun₃.forget.of_restrict
    obtain ⟨c, hc, hq⟩ := runs_alone hrun hpre (hrun₁₂.append hrest)
    obtain ⟨g, hhosts⟩ := hq.hosts
    obtain rfl : g₃ = g := Option.some.inj (hg₃.symm.trans hhosts.conn)
    have hlife := lifeInv_alone (hostInv_of_run hrun) hpre hc
    have hmem : .setState .KDisconnected ∈ log₃.events := (events_of_run hrest).subset hdown
    refine Or.inl ?_
    rw [← hlife.down_iff.mp hmem, hhosts.seen.1]
    rfl
  · rw [← handedOver_of_notMem hdown]
    exact htaken hn

/-- A message is sent, of which the kernel takes two bytes, and another thread posts the next one
while a pass is going on. -/
def postedInPass : List HostAct :=
  [.conn 10 .connectEstablished, .conn 10 (.send [1, 2, 3] (.ok 2)),
    .conn 10 .callbackReturns, .poll, .beginHandling, .endHandling,
    .conn 10 (.postSend () [4])]

/-- That pass returns, and so does the next one, which runs `sendInLoop` for the posted message. -/
def sentInNextPass : List HostAct :=
  [.endFunctors, .poll, .report 6 {.EPOLLIN}, .beginHandling, .handleEvent,
    .conn 11 .testClose, .conn 11 .testError, .conn 11 (.testRead (.error 11)),
    .conn 11 (.testWrite (.ok 0)), .endEvent, .endHandling, .runFunctor (.ok 0),
    .endFunctor, .endFunctors]

/-- Two traversals take a byte each. -/
def writtenAfterwards : List HostAct :=
  [.poll, .report 5 {.EPOLLOUT}, .beginHandling, .handleEvent, .conn 10 .testClose,
    .conn 10 .testError, .conn 10 (.testRead (.data [])),
    .conn 10 (.testWrite (.ok 1)), .endEvent, .endHandling, .endFunctors, .poll,
    .report 5 {.EPOLLOUT}, .beginHandling, .handleEvent, .conn 10 .testClose,
    .conn 10 .testError, .conn 10 (.testRead (.data [])),
    .conn 10 (.testWrite (.ok 1))]

/-- After the writes the connection is still up. -/
def BothWritten (q : LoopHost × ConnLog) : Prop :=
  ((drainHost 10).counting fun act => act.takesBytes 10 = true).Reaches (q, 0) writtenAfterwards
    fun p _ => p.2 = 2 ∧ (p.1.1.conns 10).map (·.conn.state) = some .KConnected

instance : DecidablePred BothWritten := fun _ =>
  inferInstanceAs (Decidable (Machine.Reaches _ _ _ _))

/-- After the two passes everything sent is in `outputBuffer_` or with the kernel. -/
def BothSent (q : LoopHost × ConnLog) : Prop :=
  ((loggedMachine 10 ConnAct.NotReset).counting fun act => act.endsPass = true).Reaches (q, 0)
    sentInNextPass fun p _ =>
      (p.2 = 2 ∧ (p.1.1.conns 10).map (·.conn.outputBuffer.readableBytes) = some 2 ∧
        (bodies p.1.2.events).flatMap Prod.snd = [1, 2, 3, 4]) ∧ BothWritten p.1

instance : DecidablePred BothSent := fun _ =>
  inferInstanceAs (Decidable (Machine.Reaches _ _ _ _))

/-- Another thread sends while a pass is going on, and a byte of an earlier message is still in
`outputBuffer_`. -/
theorem hosted_sends_reach_kernel_posted :
    ∃ t s₀ t₁ q₁ t₂ q₂ t₃ q₃, hostMachine.Run (.new 0) t s₀ ∧
      (loggedMachine 10 ConnAct.NotReset).Run
        (s₀.newConnection .client 10 5 64 true true, ⟨[], []⟩) t₁ q₁ ∧
      ((loggedMachine 10 ConnAct.NotReset).counting fun act => act.endsPass = true).Run
        (q₁, 0) t₂ (q₂, 2) ∧
      ((drainHost 10).counting fun act => act.takesBytes 10 = true).Run (q₂, 0) t₃ (q₃, 2) ∧
      (q₁.1.stage = .functors ∧ tasksOf 10 q₁.1.pendingFunctors = [.sendInLoop () [4]]) ∧
      (∀ caller, (calls q₁.2.events).filter (·.1 = caller) <+:
        (bodies q₂.2.events).filter (·.1 = caller)) ∧
      [1, 2, 3, 4] <+: q₃.2.accepted := by
  obtain ⟨t, s₀, hrun, hpre, hnext⟩ := hostMachine.exists_run_of_exec (.new 0) otherConnection
    (fun s _ => s.pre (.newConnection .client 10 5 64 true true) ∧
      (loggedMachine 10 ConnAct.NotReset).Reaches
        (s.newConnection .client 10 5 64 true true, ⟨[], []⟩) postedInPass fun q _ =>
          (q.1.stage = .functors ∧ tasksOf 10 q.1.pendingFunctors = [.sendInLoop () [4]]) ∧
            BothSent q)
    (by decide +kernel)
  obtain ⟨t₁, q₁, hrun₁, hposted, hnext₁⟩ := hnext.exists_run
  obtain ⟨t₂, ⟨q₂, passes⟩, hrun₂, ⟨hpasses, hbytes, hbodies⟩, hnext₂⟩ := hnext₁.exists_run
  obtain ⟨t₃, ⟨q₃, n⟩, hrun₃, hn, hstate⟩ := hnext₂.exists_run
  obtain rfl : passes = 2 := hpasses
  obtain rfl : n = 2 := hn
  obtain ⟨horder, g₂, g₃, hg₂, hg₃, htaken⟩ :=
    hosted_sends_reach_kernel hrun hpre hrun₁ hrun₂ (le_refl 2) hrun₃
  have hg₂ : q₂.1.conns 10 = some g₂ := hg₂
  have hg₃ : q₃.1.conns 10 = some g₃ := hg₃
  have hbodies : (bodies q₂.2.events).flatMap Prod.snd = [1, 2, 3, 4] := hbodies
  rw [hg₂, Option.map_some] at hbytes
  rw [hg₃, Option.map_some] at hstate
  refine ⟨t, s₀, t₁, q₁, t₂, q₂, t₃, q₃, hrun, hrun₁, hrun₂, hrun₃, hposted, horder, ?_⟩
  rcases htaken (Option.some.inj hbytes).le with hdown | htaken
  · cases (Option.some.inj hstate).symm.trans hdown
  · rw [hbodies] at htaken
    exact htaken

end LoopHost

end MuduoServer
