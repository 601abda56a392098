import MuduoServer.EventLoop.Basic

/-!
# No lost wakeup

`queueInLoop` wakes the loop thread up only when it is called on another thread or while pending
functors are being called.  This file shows that the decision is safe.  The invariant `WakeupInv`
says that a queue the loop thread will not swap before its next `poll` is `Announced`: the eventfd
is readable, or whoever pushed last has still to write to it.  The eventfd is drained only while
channels are dispatched, and from there every path to `poll` leads through the swap.
-/

namespace MuduoServer

namespace EventLoop

variable {τ F : Type*} {s s' s₀ : EventLoop τ F}

/-- A functor in the queue is announced: the eventfd is readable, or the thread that pushed it, be
it another thread or the loop thread inside a functor, has still to write to it. -/
def Announced (s : EventLoop τ F) : Prop :=
  s.pendingFunctors = [] ∨ 0 < s.wakeupFd ∨ s.pushing ≠ [] ∨ s.selfWaking = true

/-- The program points from which the loop thread reaches `poll` before it swaps the queue. -/
def BeforePoll (p : Pc) : Prop :=
  p = .outside ∨ p = .entered ∨ p = .test ∨ p = .poll ∨ p = .running

/-- The flags the decision in `queueInLoop` rests on, and the announcement itself. -/
structure WakeupInv (s : EventLoop τ F) : Prop where
  /-- `callingPendingFunctors_` is set exactly from its store to the end of the traversal. -/
  calling_iff : s.callingPendingFunctors = true ↔ s.pc = .swap ∨ s.pc = .running
  /-- Only a functor makes the loop thread wake itself up. -/
  running_of_selfWaking : s.selfWaking = true → s.pc = .running
  /-- On the way to `poll` the queue is announced. -/
  announced : BeforePoll s.pc → s.Announced

/-- The invariant holds before `loop()`. -/
lemma Idle.wakeupInv (h : s.Idle) : s.WakeupInv where
  calling_iff := by simp [h.pc, h.calling]
  running_of_selfWaking hw := by simp [h.selfWaking] at hw
  announced _ := Or.inl h.pending

/-- Outside the traversal of `functors` the loop thread owes itself no wakeup. -/
lemma WakeupInv.selfWaking_eq_false (h : s.WakeupInv) (hpc : s.pc ≠ .running) :
    s.selfWaking = false := by
  by_contra hw
  exact hpc (h.running_of_selfWaking (by simpa using hw))

variable [DecidableEq τ]

/-- The step lemma: every access of every thread keeps the wakeup invariant. -/
theorem WakeupInv.step {act : LoopAct τ F} {out : List (LoopEvent τ F)} (h : s.WakeupInv)
    (hpre : s.pre act) (hstep : s.step act = some (s', out)) : s'.WakeupInv := by
  obtain ⟨hcalling, hself, hann⟩ := h
  cases act with
  | enter =>
    have hpc : s.pc = .outside := hpre
    simp only [EventLoop.step] at hstep
    split at hstep <;> cases hstep
    constructor <;> simp_all [BeforePoll, Announced]
  | clearQuit =>
    have hpc : s.pc = .entered := hpre
    cases hstep
    constructor <;> simp_all [BeforePoll, Announced]
  | test =>
    have hpc : s.pc = .test := hpre
    simp only [EventLoop.step] at hstep
    split at hstep <;> cases hstep <;> constructor <;> simp_all [BeforePoll, Announced]
  | poll =>
    have hpc : s.pc = .poll := hpre
    cases hstep
    constructor <;> simp_all [BeforePoll, Announced]
  | handleRead =>
    obtain ⟨hpc, -⟩ := hpre
    cases hstep
    constructor <;> simp_all [BeforePoll, Announced]
  | endDispatch =>
    obtain ⟨hpc, -⟩ := hpre
    cases hstep
    constructor <;> simp_all [BeforePoll, Announced]
  | setCalling =>
    have hpc : s.pc = .setCalling := hpre
    cases hstep
    constructor <;> simp_all [BeforePoll, Announced]
  | swap =>
    have hpc : s.pc = .swap := hpre
    cases hstep
    constructor <;> simp_all [BeforePoll, Announced]
  | call =>
    obtain ⟨hpc, -, -⟩ := hpre
    simp only [EventLoop.step] at hstep
    split at hstep <;> cases hstep <;> constructor <;> simp_all [BeforePoll, Announced]
  | endFunctors =>
    obtain ⟨hpc, hnot, -⟩ := hpre
    cases hstep
    constructor <;> simp_all [BeforePoll, Announced]
  | selfPush f =>
    obtain ⟨huser, hnot⟩ := hpre
    cases hstep
    -- in an event callback the queue is swapped before the next `poll`; in a functor the flag
    -- `callingPendingFunctors_` is set, so the loop thread now owes itself a wakeup
    rcases huser with hpc | ⟨hpc, -⟩
    · constructor <;> simp_all [pushBack, BeforePoll, Announced]
    · constructor <;> simp_all [pushBack, BeforePoll, Announced]
  | selfWakeup =>
    have hpc : s.pc = .running := hself hpre
    cases hstep
    constructor <;> simp_all [wakeup, BeforePoll, Announced]
  | selfQuit =>
    cases hstep
    exact ⟨hcalling, hself, hann⟩
  | push a f =>
    cases hstep
    refine ⟨hcalling, hself, fun _ => ?_⟩
    exact Or.inr (Or.inr (Or.inl (List.cons_ne_nil _ _)))
  | pushWakeup a =>
    cases hstep
    exact ⟨hcalling, hself, fun _ => Or.inr (Or.inl (Nat.succ_pos _))⟩
  | quit a =>
    cases hstep
    exact ⟨hcalling, hself, hann⟩
  | quitWakeup a =>
    cases hstep
    exact ⟨hcalling, hself, fun _ => Or.inr (Or.inl (Nat.succ_pos _))⟩

/-- The run lemma: the wakeup invariant holds along every interleaving. -/
theorem wakeupInv_of_run {t : List (LoopEvent τ F)} (h₀ : s₀.Idle)
    (h : (loopMachine τ F).Run s₀ t s) : s.WakeupInv :=
  h.stateInvariant WakeupInv h₀.wakeupInv fun _ _ _ _ hinv hpre hstep => hinv.step hpre hstep

/-- Whenever the loop thread is about to block in `poll` while functors are pending, the eventfd is
readable or another thread has pushed its functor and has still to write to the eventfd. -/
theorem poll_not_blocking_of_pending {t : List (LoopEvent τ F)} (h₀ : s₀.Idle)
    (h : (loopMachine τ F).Run s₀ t s) (hpc : s.pc = .poll) (hpending : s.pendingFunctors ≠ []) :
    0 < s.wakeupFd ∨ ∃ a, a ∈ s.pushing := by
  have hinv := wakeupInv_of_run h₀ h
  have hself : s.selfWaking = false := hinv.selfWaking_eq_false (by simp [hpc])
  rcases hinv.announced (by simp [BeforePoll, hpc]) with hnil | hfd | hpush | hwake
  · exact absurd hnil hpending
  · exact Or.inl hfd
  · exact Or.inr (List.exists_mem_of_ne_nil _ hpush)
  · rw [hself] at hwake
    cases hwake

/-- A functor posted by another thread during dispatch posts a functor itself, and a second thread
has just pushed one: the loop thread stands before `poll` with two functors pending. -/
theorem poll_not_blocking_of_pending_requeue :
    ∃ (t : List (LoopEvent ℕ ℕ)) (s : EventLoop ℕ ℕ), (loopMachine ℕ ℕ).Run new t s ∧
      s.pc = .poll ∧ s.pendingFunctors.length = 2 ∧ (0 < s.wakeupFd ∨ ∃ a, a ∈ s.pushing) := by
  obtain ⟨t, s, hrun, hpc, hlen⟩ := (loopMachine ℕ ℕ).exists_run_of_exec new
    [.enter, .clearQuit, .test, .poll, .push 1 7, .pushWakeup 1, .handleRead, .endDispatch,
      .setCalling, .swap, .call, .selfPush 8, .selfWakeup, .endFunctors, .test, .push 2 9]
    (fun s _ => s.pc = .poll ∧ s.pendingFunctors.length = 2) (by decide)
  have hpending : s.pendingFunctors ≠ [] := List.ne_nil_of_length_eq_add_one hlen
  have hidle : (new : EventLoop ℕ ℕ).Idle := ⟨rfl, rfl, rfl, rfl, rfl, rfl⟩
  exact ⟨t, s, hrun, hpc, hlen, poll_not_blocking_of_pending hidle hrun hpc hpending⟩

end EventLoop

end MuduoServer
