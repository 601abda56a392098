import MuduoServer.EventLoop.TaskOrder
import MuduoServer.EventLoop.Wakeup
import MuduoServer.Lib.Compose

/-!
# Pending functors are called

The order law says that a functor is not overtaken; this file says that it is called, and how soon.
What the loop thread does in `loop()` apart from user code are its control steps.  They are counted,
and a bound on their number is a bound on the time to wait, whatever the other threads do and
however often the functors that are called post new ones.

At most one round of the `while` loop is between a functor and the swap that takes it out of the
queue, except when the rest of an older batch has to be called first.  `Pc.distance` counts the
control steps to the next swap; with the functors still to be called it makes the rank that every
control step lowers.  The bound would be worth little if the loop thread could block in `poll`
meanwhile, or be stuck before an assertion: it can do neither.
-/

namespace MuduoServer

variable {τ F : Type*}

/-- The steps of `loop()` and `doPendingFunctors`, as opposed to what callbacks and functors do. -/
def LoopAct.isControl : LoopAct τ F → Prop
  | .enter | .clearQuit | .test | .poll | .endDispatch => True
  | .setCalling | .swap | .call | .endFunctors => True
  | _ => False

instance : DecidablePred (LoopAct.isControl (τ := τ) (F := F)) := fun act => by
  apply LoopAct.casesOn (motive := fun act => Decidable act.isControl) act <;>
    intros <;> unfold LoopAct.isControl <;> infer_instance

/-- How many control steps it takes to swap the queue, or none if what is waited for is in the batch
that is being called. -/
def Pc.distance (inBatch : Prop) [Decidable inBatch] : Pc → ℕ
  | .outside => 7
  | .entered => 6
  | .test => 5
  | .poll => 4
  | .dispatch => 3
  | .setCalling => 2
  | .swap => 1
  | .running => if inBatch then 0 else 6
  | .returned => 0

/-- The loop thread is never further than seven steps away. -/
lemma Pc.distance_le (inBatch : Prop) [Decidable inBatch] (p : Pc) : p.distance inBatch ≤ 7 := by
  cases p <;> simp only [Pc.distance] <;> (try split) <;> omega

namespace EventLoop

variable {s s' s₀ : EventLoop τ F} {t : List (LoopEvent τ F)} {wanted : List (Functor τ F)}

/-- What is waited for: that the functors of `wanted` have been called, first of all and in this
order, unless `loop()` has returned. -/
def Reached (wanted : List (Functor τ F)) (t : List (LoopEvent τ F)) (s : EventLoop τ F) : Prop :=
  wanted <+: startedTasks t ∨ s.pc = .returned

/-- How many of `n` functors have still to be called. -/
def missing (n : ℕ) (t : List (LoopEvent τ F)) : ℕ := n - (startedTasks t).length

/-- The control steps that are left until `n` functors have been called. -/
def rank (n : ℕ) (t : List (LoopEvent τ F)) (s : EventLoop τ F) : ℕ :=
  s.pc.distance (missing n t ≤ s.functors.length) + missing n t

/-- The functors of `wanted` come first, in what has been called and what waits. -/
structure WaitInv (wanted : List (Functor τ F)) (t : List (LoopEvent τ F)) (s : EventLoop τ F) :
    Prop where
  functors_nil : s.pc ≠ .running → s.functors = []
  ahead : wanted <+: startedTasks t ++ s.functors ++ s.pendingFunctors

/-- As long as not all have been called, some are missing. -/
lemma WaitInv.missing_pos (h : WaitInv wanted t s) (hgoal : ¬ Reached wanted t s) :
    0 < missing wanted.length t := by
  by_contra hzero
  have hlen : wanted.length ≤ (startedTasks t).length := by
    unfold missing at hzero
    omega
  have hstarted : startedTasks t <+: startedTasks t ++ s.functors ++ s.pendingFunctors := by
    rw [List.append_assoc]
    exact List.prefix_append _ _
  exact hgoal (Or.inl (List.prefix_of_prefix_length_le h.ahead hstarted hlen))

/-- What is missing is in the batch or in the queue. -/
lemma WaitInv.missing_le (h : WaitInv wanted t s) :
    missing wanted.length t ≤ s.functors.length + s.pendingFunctors.length := by
  have hlen := h.ahead.length_le
  simp only [List.length_append] at hlen
  unfold missing
  omega

/-- What is started in the meantime is not missing any more. -/
lemma missing_append (n : ℕ) (t u : List (LoopEvent τ F)) :
    missing n (t ++ u) = missing n t - (startedTasks u).length := by
  simp only [missing, startedTasks_append, List.length_append]
  omega

/-- A step that moves the loop thread on and calls nothing. -/
lemma rank_move {n : ℕ} {p p' : Pc} {out : List (LoopEvent τ F)} (hpc : s.pc = p)
    (hpc' : s'.pc = p') (hout : startedTasks out = [])
    (hdistance : p'.distance (missing n (t ++ out) ≤ s'.functors.length) + 1 ≤
      p.distance (missing n t ≤ s.functors.length)) :
    rank n (t ++ out) s' + 1 ≤ rank n t s := by
  have hmissing : missing n (t ++ out) = missing n t := by
    rw [missing_append, hout, List.length_nil, Nat.sub_zero]
  simp only [rank, hpc, hpc']
  omega

variable [DecidableEq τ]

/-- Every other step leaves the loop thread where it is. -/
lemma step_aside {act : LoopAct τ F} {out : List (LoopEvent τ F)} (hact : ¬ act.isControl)
    (hstep : s.step act = some (s', out)) :
    s'.pc = s.pc ∧ s'.looping = s.looping ∧ s'.functors = s.functors ∧ startedTasks out = [] := by
  cases act with
  | enter | clearQuit | test | poll | endDispatch => exact absurd trivial hact
  | setCalling | swap | call | endFunctors => exact absurd trivial hact
  | _ =>
    cases hstep
    exact ⟨rfl, rfl, rfl, rfl⟩

/-- The step lemma: a control step lowers the rank, unless `loop()` returns, and no step raises
it. -/
lemma rank_step {act : LoopAct τ F} {out : List (LoopEvent τ F)} (h : WaitInv wanted t s)
    (hgoal : ¬ Reached wanted t s) (hpre : s.pre act) (hstep : s.step act = some (s', out)) :
    Reached wanted (t ++ out) s' ∨
      rank wanted.length (t ++ out) s' + (if act.isControl then 1 else 0) ≤
        rank wanted.length t s := by
  have hpos := h.missing_pos hgoal
  have hle := h.missing_le
  by_cases hact : act.isControl
  · rw [if_pos hact]
    cases act with
    | enter =>
      simp only [EventLoop.step] at hstep
      split at hstep <;> cases hstep
      exact Or.inr (rank_move hpre rfl rfl (le_refl 7))
    | clearQuit =>
      cases hstep
      exact Or.inr (rank_move hpre rfl rfl (le_refl 6))
    | test =>
      simp only [EventLoop.step] at hstep
      split at hstep <;> cases hstep
      · exact Or.inl (Or.inr rfl)
      · exact Or.inr (rank_move hpre rfl rfl (le_refl 5))
    | poll =>
      cases hstep
      exact Or.inr (rank_move hpre rfl rfl (le_refl 4))
    | endDispatch =>
      cases hstep
      exact Or.inr (rank_move hpre.1 rfl rfl (le_refl 3))
    | setCalling =>
      cases hstep
      exact Or.inr (rank_move hpre rfl rfl (le_refl 2))
    | swap =>
      have hpc : s.pc = .swap := hpre
      cases hstep
      refine Or.inr (rank_move hpc rfl rfl ?_)
      -- the batch is the whole queue, so it holds all that is missing
      rw [h.functors_nil (by simp [hpc]), List.length_nil, Nat.zero_add] at hle
      rw [List.append_nil]
      exact (congrArg (· + 1) (if_pos hle)).le
    | call =>
      obtain ⟨hpc, -, hne⟩ := hpre
      simp only [EventLoop.step] at hstep
      split at hstep
      · next hf => simp [hf] at hne
      · next f rest hf =>
        cases hstep
        refine Or.inr ?_
        have hmissing : missing wanted.length (t ++ [.started f]) =
            missing wanted.length t - 1 := missing_append _ _ _
        simp only [rank, hpc, hmissing, hf, List.length_cons, Pc.distance]
        split <;> split <;> omega
    | endFunctors =>
      obtain ⟨hpc, -, hnil⟩ := hpre
      cases hstep
      refine Or.inr (rank_move hpc rfl rfl ?_)
      -- the batch is empty, and something is missing: another round has to come
      have hfunctors : s.functors.length = 0 := by simpa using hnil
      have hmore : ¬ missing wanted.length t ≤ s.functors.length := by omega
      exact (if_neg hmore).ge
    | _ => exact absurd hact (by simp [LoopAct.isControl])
  · rw [if_neg hact]
    obtain ⟨hpc, -, hfunctors, hstarted⟩ := step_aside hact hstep
    refine Or.inr ?_
    simp only [rank, hpc, hfunctors, missing_append, hstarted, List.length_nil, Nat.sub_zero,
      Nat.add_zero, le_refl]

/-- What has been reached stays so. -/
lemma Reached.step {act : LoopAct τ F} {out : List (LoopEvent τ F)} (h : Reached wanted t s)
    (hpre : s.pre act) (hstep : s.step act = some (s', out)) : Reached wanted (t ++ out) s' := by
  rcases h with hstarted | hpc
  · refine Or.inl ?_
    rw [startedTasks_append]
    exact hstarted.trans (List.prefix_append _ _)
  · refine Or.inr ?_
    by_cases hact : act.isControl
    · cases act <;> simp_all [EventLoop.pre, LoopAct.isControl]
    · exact (step_aside hact hstep).1.trans hpc

/-- From any moment on, what waits at this moment comes first. -/
lemma waitInv_of_run {t' : List (LoopEvent τ F)} (h₀ : s₀.Idle)
    (h : (loopMachine τ F).Run s₀ t s) (h' : (loopMachine τ F).Run s t' s') :
    WaitInv (s.functors ++ s.pendingFunctors) t' s' := by
  have horder := (orderInv_of_run h₀ h).order
  have horder' := orderInv_of_run h₀ (h.append h')
  refine ⟨horder'.functors_nil, pushedTasks t', ?_⟩
  have hall := horder'.order
  rw [startedTasks_append, pushedTasks_append, ← horder] at hall
  simpa only [List.append_assoc, List.append_cancel_left_eq] using hall.symm

/-! ### The loop thread is never stuck -/

/-- Nothing leads back to before `loop()`. -/
lemma outside_step {act : LoopAct τ F} {out : List (LoopEvent τ F)} (hpre : s.pre act)
    (hstep : s.step act = some (s', out)) (hpc : s'.pc = .outside) :
    s.pc = .outside ∧ s'.looping = s.looping := by
  by_cases hact : act.isControl
  · cases act with
    | enter | test =>
      simp only [EventLoop.step] at hstep
      split at hstep <;> cases hstep <;> cases hpc
    | call =>
      have hrunning : s.pc = .running := hpre.1
      simp only [EventLoop.step] at hstep
      split at hstep <;> cases hstep <;> cases hrunning.symm.trans hpc
    | clearQuit | poll | endDispatch | setCalling | swap | endFunctors =>
      cases hstep
      cases hpc
    | _ => exact absurd hact (by simp [LoopAct.isControl])
  · obtain ⟨hsame, hlooping, -⟩ := step_aside hact hstep
    exact ⟨hsame.symm.trans hpc, hlooping⟩

/-- Before `loop()` the flag `looping_` is not set. -/
lemma looping_of_run (h₀ : s₀.Idle) (h : (loopMachine τ F).Run s₀ t s) :
    s.pc = .outside → s.looping = false := by
  refine h.stateInvariant (fun s => s.pc = .outside → s.looping = false) (fun _ => h₀.looping) ?_
  intro s act s' out hinv hpre hstep hpc
  obtain ⟨hsame, hlooping⟩ := outside_step hpre hstep hpc
  exact hlooping.trans (hinv hsame)

/-- Inside `loop()` the next control step can be taken, or the `wakeup()` before it. -/
lemma exists_control (h₀ : s₀.Idle) (h : (loopMachine τ F).Run s₀ t s) (hpc : s.pc ≠ .returned)
    (hwaking : s.selfWaking = false) :
    ∃ act : LoopAct τ F, act.isControl ∧ s.pre act ∧ (s.step act).isSome := by
  cases hat : s.pc with
  | outside =>
    refine ⟨.enter, trivial, hat, ?_⟩
    have hlooping := looping_of_run h₀ h hat
    simp [EventLoop.step, hlooping]
  | entered => exact ⟨.clearQuit, trivial, hat, rfl⟩
  | test =>
    refine ⟨.test, trivial, hat, ?_⟩
    simp only [EventLoop.step]
    split <;> rfl
  | poll => exact ⟨.poll, trivial, hat, rfl⟩
  | dispatch => exact ⟨.endDispatch, trivial, ⟨hat, hwaking⟩, rfl⟩
  | setCalling => exact ⟨.setCalling, trivial, hat, rfl⟩
  | swap => exact ⟨.swap, trivial, hat, rfl⟩
  | running =>
    cases hfunctors : s.functors with
    | nil => exact ⟨.endFunctors, trivial, ⟨hat, hwaking, by simp [hfunctors]⟩, rfl⟩
    | cons f rest =>
      refine ⟨.call, trivial, ⟨hat, hwaking, by simp [hfunctors]⟩, ?_⟩
      simp [EventLoop.step, hfunctors]
  | returned => exact absurd hat hpc

/-- Functors that wait at some moment are called.  In every continuation, whatever the other threads
and the functors themselves do: after as many control steps as there are functors and seven more,
they have been called, first of all and in their order, or `loop()` has returned; until then, when
the loop thread is about to block in `poll`, the eventfd is readable or a thread has still to write
to it; and until `loop()` returns the loop thread can take its next step. -/
theorem pending_functors_called {t' : List (LoopEvent τ F)} {n : ℕ} (h₀ : s₀.Idle)
    (h : (loopMachine τ F).Run s₀ t s)
    (h' : ((loopMachine τ F).counting LoopAct.isControl).Run (s, 0) t' (s', n)) :
    (s.functors.length + s.pendingFunctors.length + 7 ≤ n →
      s.functors ++ s.pendingFunctors <+: startedTasks t' ∨ s'.pc = .returned) ∧
    (¬ s.functors ++ s.pendingFunctors <+: startedTasks t' → s'.pc = .poll →
      0 < s'.wakeupFd ∨ ∃ a, a ∈ s'.pushing) ∧
    (s'.pc ≠ .returned → (s'.selfWaking = true ∧ s'.pre .selfWakeup) ∨
      ∃ act : LoopAct τ F, act.isControl ∧ s'.pre act ∧ (s'.step act).isSome) := by
  have hwait : WaitInv (s.functors ++ s.pendingFunctors) t' s' := waitInv_of_run h₀ h h'.forget
  have hrun : (loopMachine τ F).Run s₀ (t ++ t') s' := h.append h'.forget
  refine ⟨fun hn => ?_, fun hwanted hpc => ?_, fun hpc => ?_⟩
  · have hprogress := h'.progress (Reached (s.functors ++ s.pendingFunctors))
      (rank (s.functors ++ s.pendingFunctors).length)
      (fun _ _ _ _ _ _ hgoal hpre hstep => hgoal.step hpre hstep)
      (fun _ _ _ _ _ hrun hgoal hpre hstep =>
        rank_step (waitInv_of_run h₀ h hrun) hgoal hpre hstep)
    by_contra hgoal
    have hpos := hwait.missing_pos hgoal
    have hle := hprogress.resolve_left hgoal
    have hdistance := s.pc.distance_le (missing (s.functors ++ s.pendingFunctors).length
      ([] : List (LoopEvent τ F)) ≤ s.functors.length)
    have hall : missing (s.functors ++ s.pendingFunctors).length ([] : List (LoopEvent τ F)) =
        s.functors.length + s.pendingFunctors.length := List.length_append
    simp only [rank] at hle
    omega
  · have hwakeup := wakeupInv_of_run h₀ hrun
    have hself : s'.selfWaking = false := hwakeup.selfWaking_eq_false (by simp [hpc])
    have hpending : s'.pendingFunctors ≠ [] := by
      intro hnil
      have hpos := hwait.missing_pos (not_or.mpr ⟨hwanted, by simp [hpc]⟩)
      have hle := hwait.missing_le
      rw [hwait.functors_nil (by simp [hpc]), hnil] at hle
      exact absurd (hpos.trans_le hle) (lt_irrefl 0)
    rcases hwakeup.announced (by simp [BeforePoll, hpc]) with hnil | hfd | hpush | hwake
    · exact absurd hnil hpending
    · exact Or.inl hfd
    · exact Or.inr (List.exists_mem_of_ne_nil _ hpush)
    · cases hself.symm.trans hwake
  · cases hwaking : s'.selfWaking with
    | true => exact Or.inl ⟨rfl, hwaking⟩
    | false => exact Or.inr (exists_control h₀ hrun hpc hwaking)

/-- Two functors are posted, and the loop thread is about to swap the queue. -/
def twoPosted : List (LoopAct ℕ ℕ) :=
  [.enter, .clearQuit, .test, .poll, .push 1 7, .pushWakeup 1, .push 1 8, .pushWakeup 1,
    .handleRead, .endDispatch, .setCalling]

/-- The first one posts a third, which waits for the next pass. -/
def twoCalled : List (LoopAct ℕ ℕ) :=
  [.swap, .call, .selfPush 9, .selfWakeup, .call, .endFunctors, .test, .poll, .handleRead,
    .endDispatch, .setCalling, .swap]

/-- Two functors wait when the loop thread is about to swap the queue, and the first one posts a
third.  Nine control steps later both have been called. -/
theorem pending_functors_called_requeue :
    ∃ (t t' : List (LoopEvent ℕ ℕ)) (s s' : EventLoop ℕ ℕ), (loopMachine ℕ ℕ).Run new t s ∧
      ((loopMachine ℕ ℕ).counting LoopAct.isControl).Run (s, 0) t' (s', 9) ∧
      s.pendingFunctors.length = 2 ∧ s'.pc = .running ∧
      s.functors ++ s.pendingFunctors <+: startedTasks t' := by
  obtain ⟨t, s, hrun, hlen, hnext⟩ := (loopMachine ℕ ℕ).exists_run_of_exec new twoPosted
    (fun s _ => (s.functors = [] ∧ s.pendingFunctors.length = 2) ∧
      ((loopMachine ℕ ℕ).counting LoopAct.isControl).Reaches (s, 0) twoCalled fun p _ =>
        p.1.pc = .running ∧ p.2 = 9) (by decide)
  obtain ⟨t', ⟨s', n⟩, hcounted, hpc, rfl⟩ := hnext.exists_run
  have hidle : (new : EventLoop ℕ ℕ).Idle := ⟨rfl, rfl, rfl, rfl, rfl, rfl⟩
  have hcalled := (pending_functors_called hidle hrun hcounted).1 (by simp [hlen])
  exact ⟨t, t', s, s', hrun, hcounted, hlen.2, hpc,
    hcalled.resolve_right fun hret => by cases hpc.symm.trans hret⟩

end EventLoop

end MuduoServer
