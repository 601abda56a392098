import MuduoServer.EventLoop.Basic

/-!
# The order of pending functors

`doPendingFunctors` swaps the queue out and calls the functors of the swapped batch one after the
other, while every thread goes on pushing to the queue.  The law proved here is that nothing is
lost, repeated or overtaken on the way: the functors started so far, then the rest of the batch,
then the queue, are the functors in the order in which they were pushed.

A batch is fixed when it is swapped out.  What is pushed while it is traversed waits for a later
one, so the traversal ends and the loop thread polls again.
-/

namespace MuduoServer

variable {τ F : Type*}

/-- The functors pushed in a trace, in order. -/
def pushedTasks (t : List (LoopEvent τ F)) : List (Functor τ F) :=
  t.filterMap fun
    | .pushed f => some f
    | _ => none

/-- The functors started in a trace, in order. -/
def startedTasks (t : List (LoopEvent τ F)) : List (Functor τ F) :=
  t.filterMap fun
    | .started f => some f
    | _ => none

/-- The tasks queued in two traces. -/
@[simp] lemma pushedTasks_append (t u : List (LoopEvent τ F)) :
    pushedTasks (t ++ u) = pushedTasks t ++ pushedTasks u := List.filterMap_append

/-- The tasks started in two traces. -/
@[simp] lemma startedTasks_append (t u : List (LoopEvent τ F)) :
    startedTasks (t ++ u) = startedTasks t ++ startedTasks u := List.filterMap_append

namespace EventLoop

variable {s s' s₀ : EventLoop τ F} {t : List (LoopEvent τ F)}

/-- The order law, and the fact that the local batch is empty outside its traversal. -/
structure OrderInv (t : List (LoopEvent τ F)) (s : EventLoop τ F) : Prop where
  functors_nil : s.pc ≠ .running → s.functors = []
  order : startedTasks t ++ s.functors ++ s.pendingFunctors = pushedTasks t

/-- The invariant holds before `loop()`. -/
lemma Idle.orderInv (h : s.Idle) : OrderInv [] s where
  functors_nil _ := h.functors
  order := by simp [h.functors, h.pending, startedTasks, pushedTasks]

/-- A step that leaves both parts of the queue alone and emits no task event keeps the order. -/
lemma OrderInv.of_same {out : List (LoopEvent τ F)} (h : OrderInv t s)
    (hf : s'.functors = s.functors) (hp : s'.pendingFunctors = s.pendingFunctors)
    (hpc : s'.pc ≠ .running → s.functors = []) (hstarted : startedTasks out = [])
    (hpushed : pushedTasks out = []) : OrderInv (t ++ out) s' where
  functors_nil hne := by rw [hf, hpc hne]
  order := by simp [hf, hp, hstarted, hpushed, ← h.order]

/-- A step that pushes one functor keeps the order. -/
lemma OrderInv.of_push {out : List (LoopEvent τ F)} {f : Functor τ F} (h : OrderInv t s)
    (hf : s'.functors = s.functors) (hp : s'.pendingFunctors = s.pendingFunctors ++ [f])
    (hpc : s'.pc = s.pc) (hout : out = [.pushed f]) : OrderInv (t ++ out) s' where
  functors_nil hne := by rw [hf, h.functors_nil (hpc ▸ hne)]
  order := by
    subst hout
    have hstarted : startedTasks [LoopEvent.pushed f] = [] := rfl
    have hpushed : pushedTasks [LoopEvent.pushed f] = [f] := rfl
    rw [startedTasks_append, pushedTasks_append, hstarted, hpushed, hf, hp, List.append_nil,
      ← List.append_assoc, h.order]

variable [DecidableEq τ]

/-- The step lemma: every access of every thread keeps the order law. -/
theorem OrderInv.step {act : LoopAct τ F} {out : List (LoopEvent τ F)} (h : OrderInv t s)
    (hpre : s.pre act) (hstep : s.step act = some (s', out)) : OrderInv (t ++ out) s' := by
  cases act with
  | enter =>
    have hpc : s.pc = .outside := hpre
    simp only [EventLoop.step] at hstep
    split at hstep <;> cases hstep
    exact h.of_same rfl rfl (fun _ => h.functors_nil (by simp [hpc])) rfl rfl
  | clearQuit =>
    have hpc : s.pc = .entered := hpre
    cases hstep
    exact h.of_same rfl rfl (fun _ => h.functors_nil (by simp [hpc])) rfl rfl
  | test =>
    have hpc : s.pc = .test := hpre
    simp only [EventLoop.step] at hstep
    split at hstep <;> cases hstep <;>
      exact h.of_same rfl rfl (fun _ => h.functors_nil (by simp [hpc])) rfl rfl
  | poll =>
    have hpc : s.pc = .poll := hpre
    cases hstep
    exact h.of_same rfl rfl (fun _ => h.functors_nil (by simp [hpc])) rfl rfl
  | handleRead =>
    cases hstep
    exact h.of_same rfl rfl h.functors_nil rfl rfl
  | endDispatch =>
    obtain ⟨hpc, -⟩ := hpre
    cases hstep
    exact h.of_same rfl rfl (fun _ => h.functors_nil (by simp [hpc])) rfl rfl
  | setCalling =>
    have hpc : s.pc = .setCalling := hpre
    cases hstep
    exact h.of_same rfl rfl (fun _ => h.functors_nil (by simp [hpc])) rfl rfl
  | swap =>
    have hpc : s.pc = .swap := hpre
    have hnil := h.functors_nil (by simp [hpc])
    cases hstep
    refine ⟨fun hne => absurd rfl hne, ?_⟩
    have horder := h.order
    rw [hnil, List.append_nil] at horder
    simpa using horder
  | call =>
    obtain ⟨hpc, -, hne⟩ := hpre
    simp only [EventLoop.step] at hstep
    split at hstep
    · next hf => simp [hf] at hne
    · next f rest hf =>
      cases hstep
      refine ⟨fun hpc' => absurd hpc hpc', ?_⟩
      have horder := h.order
      rw [hf] at horder
      simpa [startedTasks, pushedTasks] using horder
  | endFunctors =>
    obtain ⟨-, -, hnil⟩ := hpre
    cases hstep
    exact h.of_same rfl rfl (fun _ => List.isEmpty_iff.mp hnil) rfl rfl
  | selfPush f =>
    cases hstep
    exact h.of_push rfl rfl rfl rfl
  | selfWakeup =>
    cases hstep
    exact h.of_same rfl rfl h.functors_nil rfl rfl
  | selfQuit =>
    cases hstep
    exact h.of_same rfl rfl h.functors_nil rfl rfl
  | push a f =>
    cases hstep
    exact h.of_push rfl rfl rfl rfl
  | pushWakeup a =>
    cases hstep
    exact h.of_same rfl rfl h.functors_nil rfl rfl
  | quit a =>
    cases hstep
    exact h.of_same rfl rfl h.functors_nil rfl rfl
  | quitWakeup a =>
    cases hstep
    exact h.of_same rfl rfl h.functors_nil rfl rfl

/-- The run lemma: the order law holds along every interleaving. -/
theorem orderInv_of_run (h₀ : s₀.Idle) (h : (loopMachine τ F).Run s₀ t s) : OrderInv t s :=
  h.invariant OrderInv h₀.orderInv fun _ _ _ _ _ hinv hpre hstep => hinv.step hpre hstep

/-! ### One batch -/

/-- The steps that do not end the traversal of the batch. -/
def InBatch (_ : EventLoop τ F) (act : LoopAct τ F) : Prop := act ≠ .endFunctors

/-- A step within the traversal takes functors only from the front of the batch. -/
lemma batch_step {act : LoopAct τ F} {out : List (LoopEvent τ F)} (hrunning : s.pc = .running)
    (hpre : s.pre act) (hbatch : s.InBatch act) (hstep : s.step act = some (s', out)) :
    s'.pc = .running ∧ startedTasks out ++ s'.functors = s.functors := by
  have hother : ∀ pc, pc ≠ .running → s.pc ≠ pc := fun pc hne heq => hne (heq.symm.trans hrunning)
  cases act with
  | endFunctors => exact absurd rfl hbatch
  | enter => exact absurd hpre (hother _ (by decide))
  | clearQuit => exact absurd hpre (hother _ (by decide))
  | test => exact absurd hpre (hother _ (by decide))
  | poll => exact absurd hpre (hother _ (by decide))
  | handleRead => exact absurd hpre.1 (hother _ (by decide))
  | endDispatch => exact absurd hpre.1 (hother _ (by decide))
  | setCalling => exact absurd hpre (hother _ (by decide))
  | swap => exact absurd hpre (hother _ (by decide))
  | call =>
    simp only [EventLoop.step] at hstep
    split at hstep
    · cases hstep
      exact ⟨hrunning, rfl⟩
    · next f rest hf =>
      cases hstep
      exact ⟨hrunning, hf.symm⟩
  | _ =>
    cases hstep
    exact ⟨hrunning, rfl⟩

/-- As long as the traversal lasts, what was started and what is left are the batch. -/
lemma batch_run (h : ((loopMachine τ F).restrict InBatch).Run s t s') (hrunning : s.pc = .running) :
    s'.pc = .running ∧ startedTasks t ++ s'.functors = s.functors := by
  refine h.invariant (fun t s' => s'.pc = .running ∧ startedTasks t ++ s'.functors = s.functors)
    ⟨hrunning, rfl⟩ fun t s₁ act s₂ out hinv hpre hstep => ?_
  obtain ⟨hpc, hfunctors⟩ := batch_step hinv.1 hpre.1 hpre.2 hstep
  refine ⟨hpc, ?_⟩
  rw [startedTasks_append, List.append_assoc, hfunctors]
  exact hinv.2

/-- The steps of the loop thread that finish the traversal and lead back to `poll`. -/
def Resuming (_ : EventLoop τ F) (act : LoopAct τ F) : Prop :=
  act = .selfWakeup ∨ act = .call ∨ act = .endFunctors ∨ act = .test

/-- The rest of a batch is called, and then the loop thread polls. -/
lemma batch_resumes (hrunning : s.pc = .running) (hwaking : s.selfWaking = false)
    (hquit : s.quit = false) : ∃ t s', ((loopMachine τ F).restrict Resuming).Run s t s' ∧
      s'.pc = .poll ∧ startedTasks t = s.functors := by
  -- by induction on what is left of the batch
  induction hfunctors : s.functors generalizing s with
  | nil =>
    have hend : s.pre .endFunctors := ⟨hrunning, hwaking, by rw [hfunctors]; rfl⟩
    have htest : ({ s with callingPendingFunctors := false, inFunctor := false, pc := .test } :
        EventLoop τ F).step .test = some ({ s with
          callingPendingFunctors := false, inFunctor := false, pc := .poll }, [.tested false]) := by
      simp only [EventLoop.step, hquit]
      rfl
    refine ⟨_, _, .cons LoopAct.endFunctors ⟨hend, by simp [Resuming]⟩ rfl
      (.cons LoopAct.test ⟨rfl, by simp [Resuming]⟩ htest .nil), rfl, rfl⟩
  | cons f rest ih =>
    have hcall : s.pre .call := ⟨hrunning, hwaking, by rw [hfunctors]; rfl⟩
    have hstep : s.step .call =
        some ({ s with functors := rest, inFunctor := true }, [.started f]) := by
      simp only [EventLoop.step, hfunctors]
    obtain ⟨t, s', hrest, hpc, hstarted⟩ :=
      ih (s := { s with functors := rest, inFunctor := true }) hrunning hwaking hquit rfl
    refine ⟨_, s', .cons LoopAct.call ⟨hcall, by simp [Resuming]⟩ hstep hrest, hpc, ?_⟩
    rw [startedTasks_append, hstarted]
    rfl

/-- Pending functors run exactly once and in order.  In every interleaving: the functors started,
then the rest of the batch, then the queue, are the functors in the order of their pushes; whatever
the threads do during the traversal of a batch, only functors of the batch are started; and as long
as `quit` has not been called the loop thread, on its own, finishes the batch and polls again. -/
theorem pending_functors_in_order (h₀ : s₀.Idle) (h : (loopMachine τ F).Run s₀ t s) :
    startedTasks t ++ s.functors ++ s.pendingFunctors = pushedTasks t ∧
      (s.pc = .running → ∀ t' s', ((loopMachine τ F).restrict InBatch).Run s t' s' →
        s'.pc = .running ∧ startedTasks t' ++ s'.functors = s.functors) ∧
      (s.pc = .running → s.quit = false →
        ∃ t' s', ((loopMachine τ F).restrict Resuming).Run s t' s' ∧
          s'.pc = .poll ∧ startedTasks t' = s.functors) := by
  refine ⟨(orderInv_of_run h₀ h).order, fun hpc t' s' hbatch => batch_run hbatch hpc, ?_⟩
  intro hpc hquit
  cases hwaking : s.selfWaking with
  | false => exact batch_resumes hpc hwaking hquit
  | true =>
    obtain ⟨t', s', hrest, hpoll, hstarted⟩ :=
      batch_resumes (s := { s.wakeup with selfWaking := false }) hpc rfl hquit
    exact ⟨_, s', .cons LoopAct.selfWakeup ⟨hwaking, by simp [Resuming]⟩ rfl hrest, hpoll, hstarted⟩

/-- A functor of a batch pushes another one, and a second thread pushes during the traversal:
neither is called before the loop thread polls again. -/
theorem pending_functors_in_order_requeue :
    ∃ (t : List (LoopEvent ℕ ℕ)) (s : EventLoop ℕ ℕ), (loopMachine ℕ ℕ).Run new t s ∧
      (s.pc = .running ∧ s.functors = [⟨some 2, 8⟩] ∧
        s.pendingFunctors = [⟨none, 9⟩, ⟨some 1, 10⟩]) ∧
      startedTasks t ++ s.functors ++ s.pendingFunctors = pushedTasks t := by
  obtain ⟨t, s, hrun, hs⟩ := (loopMachine ℕ ℕ).exists_run_of_exec new
    [.enter, .clearQuit, .test, .poll, .push 1 7, .pushWakeup 1, .push 2 8, .handleRead,
      .endDispatch, .setCalling, .swap, .call, .selfPush 9, .push 1 10, .selfWakeup]
    (fun s _ => s.pc = .running ∧ s.functors = [⟨some 2, 8⟩] ∧
      s.pendingFunctors = [⟨none, 9⟩, ⟨some 1, 10⟩]) (by decide)
  have hidle : (new : EventLoop ℕ ℕ).Idle := ⟨rfl, rfl, rfl, rfl, rfl, rfl⟩
  exact ⟨t, s, hrun, hs, (pending_functors_in_order hidle hrun).1⟩

end EventLoop

end MuduoServer
