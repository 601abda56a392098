import MuduoServer.EventLoop.TaskOrder

/-!
# Tasks posted before `quit`

A thread posts functors with `queueInLoop` and then calls `quit`; `~TcpServer` followed by
`~EventLoopThread` is such a thread.  When `loop()` returns, have all its functors been called?

They have not when `quit_` is stored after the swap in `doPendingFunctors` and before the next test
of the `while` condition: functors pushed behind that swap are then still in `pendingFunctors_` and
nothing looks at them any more (`posted_before_quit_dropped`).  Nor have they when it is stored
after `quit_ = false` at the beginning of `loop()` and before the first test: `loop()` then returns
without having swapped the queue at all.  `QuitSafe` excludes these two moments, as far as a functor
of the thread is in the queue, and `posted_before_quit_run` shows that there are no others: along
every interleaving whose `quit` meets the condition, the functors of the thread have been started
once each, in order.
-/

namespace MuduoServer

variable {τ F : Type*} [DecidableEq τ]

/-- The functors that the thread `a` posted. -/
def postedBy (a : τ) (l : List (Functor τ F)) : List (Functor τ F) :=
  l.filter fun f => f.poster = some a

namespace EventLoop

/-- Only the thread `a` calls `quit`, once, and it posts nothing afterwards. -/
def OneQuitter (a : τ) (s : EventLoop τ F) : LoopAct τ F → Prop
  | .selfQuit => False
  | .quit b => b = a ∧ a ∉ s.hasQuit
  | .push b _ => b = a → a ∉ s.hasQuit
  | _ => True

instance (a : τ) (s : EventLoop τ F) (act : LoopAct τ F) : Decidable (OneQuitter a s act) := by
  apply LoopAct.casesOn (motive := fun act => Decidable (OneQuitter a s act)) act <;>
    intros <;> unfold OneQuitter <;> infer_instance

/-- The interleavings of the loop thread with a thread `a` that posts functors and then quits, and
with any number of threads that only post. -/
def quitMachine (F : Type*) (a : τ) : Machine (EventLoop τ F) (LoopAct τ F) (LoopEvent τ F) :=
  (loopMachine τ F).restrict (OneQuitter a)

instance (a : τ) (s : EventLoop τ F) (act : LoopAct τ F) :
    Decidable ((quitMachine F a).pre s act) :=
  inferInstanceAs (Decidable (((loopMachine τ F).restrict (OneQuitter a)).pre s act))

/-- `quit_` is not stored between the swap of the queue and the test of `quit_`, nor between
`quit_ = false` and the first test, while the thread still has a functor in the queue. -/
def QuitSafe (a : τ) (s : EventLoop τ F) : LoopAct τ F → Prop
  | .quit _ => (s.pc = .running ∨ s.pc = .test) → postedBy a s.pendingFunctors = []
  | _ => True

instance (a : τ) (s : EventLoop τ F) (act : LoopAct τ F) : Decidable (QuitSafe a s act) := by
  apply LoopAct.casesOn (motive := fun act => Decidable (QuitSafe a s act)) act <;>
    intros <;> unfold QuitSafe <;> infer_instance

/-- The loop thread tests `quit_` before it swaps the queue again. -/
def PastSwap (p : Pc) : Prop := p = .running ∨ p = .test ∨ p = .returned

/-- What a set `quit_` means once `loop()` has cleared it: the thread has called `quit`, and behind
the swap none of its functors is left in the queue. -/
structure QuitInv (a : τ) (s : EventLoop τ F) : Prop where
  quit_of_returned : s.pc = .returned → s.quit = true
  hasQuit : s.pc ≠ .outside → s.pc ≠ .entered → s.quit = true → a ∈ s.hasQuit
  swapped : PastSwap s.pc → s.quit = true → postedBy a s.pendingFunctors = []

variable {a : τ} {s s' s₀ : EventLoop τ F} {t : List (LoopEvent τ F)}

/-- The invariant holds before `loop()`. -/
lemma Idle.quitInv (h : s.Idle) : QuitInv a s where
  quit_of_returned hpc := by simp [h.pc] at hpc
  hasQuit hout := absurd h.pc hout
  swapped hpast := by simp [PastSwap, h.pc] at hpast

/-- A functor of another thread, or one posted while `quit_` is not set, keeps the invariant. -/
lemma QuitInv.pushBack {f : Functor τ F} {l : List τ} {w : Bool} (h : QuitInv a s)
    (hf : f.poster = some a → PastSwap s.pc → s.quit = false) :
    QuitInv a { s.pushBack f with pushing := l, selfWaking := w } where
  quit_of_returned := h.quit_of_returned
  hasQuit := h.hasQuit
  swapped hpast hquit := by
    have hold := h.swapped hpast hquit
    have hne : f.poster ≠ some a := by
      intro hposter
      exact Bool.false_ne_true ((hf hposter hpast).symm.trans hquit)
    simp only [EventLoop.pushBack, postedBy, List.filter_append] at hold ⊢
    rw [hold]
    simp [hne]

/-- The step lemma: under the condition every access keeps the invariant. -/
theorem QuitInv.step {act : LoopAct τ F} {out : List (LoopEvent τ F)} (h : QuitInv a s)
    (hpre : s.pre act) (hone : OneQuitter a s act) (hsafe : QuitSafe a s act)
    (hstep : s.step act = some (s', out)) : QuitInv a s' := by
  have hinv := h
  obtain ⟨hret, hhas, hswap⟩ := h
  cases act with
  | enter =>
    simp only [EventLoop.step] at hstep
    split at hstep <;> cases hstep
    constructor <;> simp [PastSwap]
  | clearQuit =>
    cases hstep
    constructor <;> simp
  | test =>
    have hpc : s.pc = .test := hpre
    simp only [EventLoop.step] at hstep
    split at hstep <;> cases hstep <;> constructor <;> simp_all [PastSwap]
  | poll =>
    have hpc : s.pc = .poll := hpre
    cases hstep
    constructor <;> simp_all [PastSwap]
  | handleRead =>
    cases hstep
    exact ⟨hret, hhas, hswap⟩
  | endDispatch =>
    obtain ⟨hpc, -⟩ := hpre
    cases hstep
    constructor <;> simp_all [PastSwap]
  | setCalling =>
    have hpc : s.pc = .setCalling := hpre
    cases hstep
    constructor <;> simp_all [PastSwap]
  | swap =>
    have hpc : s.pc = .swap := hpre
    cases hstep
    constructor <;> simp_all [postedBy]
  | call =>
    obtain ⟨hpc, -, -⟩ := hpre
    simp only [EventLoop.step] at hstep
    split at hstep <;> cases hstep <;> exact ⟨hret, hhas, hswap⟩
  | endFunctors =>
    obtain ⟨hpc, -, -⟩ := hpre
    cases hstep
    constructor <;> simp_all [PastSwap]
  | selfPush f =>
    cases hstep
    exact hinv.pushBack fun hposter => by cases hposter
  | selfWakeup =>
    cases hstep
    exact ⟨hret, hhas, hswap⟩
  | selfQuit => exact hone.elim
  | push b f =>
    cases hstep
    refine hinv.pushBack fun hposter hpast => ?_
    -- the thread posts nothing after its own `quit`, so `quit_` cannot be set by it yet
    have hb : b = a := Option.some.inj hposter
    by_contra hquit
    refine hone hb (hhas ?_ ?_ (by simpa using hquit)) <;>
      · rcases hpast with hpc | hpc | hpc <;> simp [hpc]
  | pushWakeup b =>
    cases hstep
    exact ⟨hret, hhas, hswap⟩
  | quit b =>
    obtain ⟨rfl, hfirst⟩ := hone
    cases hstep
    refine ⟨fun _ => rfl, fun _ _ _ => List.mem_cons_self, fun hpast _ => ?_⟩
    rcases hpast with hpc | hpc | hpc
    · exact hsafe (Or.inl hpc)
    · exact hsafe (Or.inr hpc)
    · -- `loop()` cannot have returned before the only thread that quits has done so
      have hmem : b ∈ s.hasQuit := hhas (by simp_all) (by simp_all) (hret hpc)
      exact absurd hmem hfirst
  | quitWakeup b =>
    cases hstep
    exact ⟨hret, hhas, hswap⟩

/-- Along every interleaving in which `quit` meets the condition, the functors that the thread
posted have been started exactly once each, in the order posted, when `loop()` has returned. -/
theorem posted_before_quit_run (h₀ : s₀.Idle)
    (h : ((quitMachine F a).restrict (QuitSafe a)).Run s₀ t s) (hret : s.pc = .returned) :
    postedBy a (startedTasks t) = postedBy a (pushedTasks t) := by
  have hquit : QuitInv a s := h.stateInvariant (QuitInv a) h₀.quitInv
    fun _ _ _ _ hinv hpre hstep => hinv.step hpre.1.1 hpre.1.2 hpre.2 hstep
  have horder : OrderInv t s := orderInv_of_run h₀ h.of_restrict.of_restrict
  have hfunctors : s.functors = [] := horder.functors_nil (by simp [hret])
  have hpending : postedBy a s.pendingFunctors = [] :=
    hquit.swapped (Or.inr (Or.inr hret)) (hquit.quit_of_returned hret)
  have hpushed := horder.order
  rw [hfunctors, List.append_nil] at hpushed
  rw [← hpushed]
  simp only [postedBy, List.filter_append] at hpending ⊢
  rw [hpending, List.append_nil]

/-- A thread posts two functors, one of them while an earlier batch is being called, and quits
while the loop thread is back in `poll`. -/
theorem posted_before_quit_run_two :
    ∃ (t : List (LoopEvent ℕ ℕ)) (s : EventLoop ℕ ℕ),
      ((quitMachine ℕ 1).restrict (QuitSafe 1)).Run new t s ∧ s.pc = .returned ∧
        (postedBy 1 (pushedTasks t)).length = 2 ∧
        postedBy 1 (startedTasks t) = postedBy 1 (pushedTasks t) := by
  obtain ⟨t, s, hrun, hret, hlen⟩ :=
    ((quitMachine ℕ 1).restrict (QuitSafe 1)).exists_run_of_exec new
      [.push 1 7, .pushWakeup 1, .enter, .clearQuit, .test, .poll, .handleRead, .endDispatch,
        .setCalling, .swap, .call, .push 1 8, .pushWakeup 1, .endFunctors, .test, .quit 1, .poll,
        .handleRead, .endDispatch, .setCalling, .swap, .call, .endFunctors, .test]
      (fun s t => s.pc = .returned ∧ (postedBy 1 (pushedTasks t)).length = 2) (by decide)
  have hidle : (new : EventLoop ℕ ℕ).Idle := ⟨rfl, rfl, rfl, rfl, rfl, rfl⟩
  exact ⟨t, s, hrun, hret, hlen, posted_before_quit_run hidle hrun hret⟩

/-- Without the condition a functor is dropped: the thread posts it behind the swap and quits
before the test of `quit_`. -/
theorem posted_before_quit_dropped :
    ¬ ∀ (t : List (LoopEvent ℕ ℕ)) (s : EventLoop ℕ ℕ), (quitMachine ℕ 1).Run new t s →
      s.pc = .returned → postedBy 1 (startedTasks t) = postedBy 1 (pushedTasks t) := by
  intro hall
  obtain ⟨t, s, hrun, hret, hne⟩ := (quitMachine ℕ 1).exists_run_of_exec new
    [.enter, .clearQuit, .test, .poll, .endDispatch, .setCalling, .swap, .push 1 7, .pushWakeup 1,
      .quit 1, .quitWakeup 1, .endFunctors, .test]
    (fun s t => s.pc = .returned ∧ postedBy 1 (startedTasks t) ≠ postedBy 1 (pushedTasks t))
    (by decide)
  exact hne (hall t s hrun hret)

end EventLoop

end MuduoServer
