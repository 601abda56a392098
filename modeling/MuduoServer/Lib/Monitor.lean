import MuduoServer.Lib.Compose

/-!
# Monitors

A value behind a mutex, with one thread that writes it and any number of others that wait for it on
a condition variable.  `Guarded` says how a machine uses the monitor: which of its steps write the
value, and so are taken with the mutex, and what it is for it when the value is copied out.
`monitor` puts the threads that wait beside the machine.  They test the predicate with the mutex,
sleep if there is no value, and can wake up for no reason; the writer notifies all of them before it
unlocks, if it has made a value.

No wakeup is lost (`MonitorInv.awake`): with a value in the monitor a thread sleeps only as long as
the writer is still inside and about to notify.  So it returns with its second own step
(`Run.returns`), unless the value is taken away before.
-/

namespace MuduoServer

universe u v w x y

/-- How a machine uses a monitor for a value of the type `ν`. -/
structure Guarded {σ : Type u} {α : Type v} {ε : Type w} (M : Machine σ α ε) (ν : Type x) where
  /-- The value, if there is one. -/
  val : σ → Option ν
  /-- The step writes the value. -/
  writes : σ → α → Bool
  /-- The step is one of the thread that writes. -/
  ofWriter : α → Bool
  /-- What the machine does when the value is copied out. -/
  copy : ν → α
  keeps : ∀ s a s' out, M.step s a = some (s', out) → writes s a = false → val s' = val s
  copy_reads : ∀ s v, writes s (copy v) = false

/-- Where a thread is in the function that waits for the value. -/
inductive WaiterPc (ν : Type x) where
  /-- Not in it. -/
  | out
  /-- At the lock, after the call or after a wakeup. -/
  | locking
  /-- It has the mutex and tests the predicate. -/
  | testing
  /-- In `wait`. -/
  | asleep
  | returned (v : ν)
  deriving DecidableEq

/-- Who has the mutex. -/
inductive MutexHolder (ι : Type y) where
  | nobody
  | writer
  | waiter (i : ι)
  deriving DecidableEq

/-- A machine and its monitor. -/
structure Monitor (σ : Type u) (ν : Type x) (ι : Type y) where
  inner : σ
  holder : MutexHolder ι
  /-- A value has been written, and `notify_all` has not been called yet. -/
  owes : Bool
  pc : ι → WaiterPc ν

/-- The steps of a machine and of its monitor. -/
inductive MonitorAct (α : Type v) (ι : Type y) where
  | inner (a : α)
  /-- The writer locks the mutex. -/
  | lock
  | notifyAll
  | unlock
  /-- A thread calls the function that waits. -/
  | call (i : ι)
  /-- It gets the mutex. -/
  | acquire (i : ι)
  /-- It tests the predicate, and returns or sleeps; both release the mutex. -/
  | test (i : ι)
  /-- It wakes up for no reason. -/
  | wake (i : ι)

/-- The steps that a thread in the function takes itself. -/
def MonitorAct.isOf {α : Type v} {ι : Type y} [DecidableEq ι] (i : ι) : MonitorAct α ι → Bool
  | .acquire j | .test j => j = i
  | _ => false

namespace WaiterPc

variable {ν : Type x}

/-- In the function. -/
def inside : WaiterPc ν → Bool
  | .locking | .testing | .asleep => true
  | .out | .returned _ => false

/-- After `notify_all`. -/
def notified : WaiterPc ν → WaiterPc ν
  | .asleep => .locking
  | pc => pc

/-- After `notify_all` nobody is asleep. -/
lemma notified_ne_asleep (pc : WaiterPc ν) : pc.notified ≠ .asleep := by
  cases pc <;> simp [notified]

/-- Who is in the critical section has been there before. -/
lemma notified_eq_testing {pc : WaiterPc ν} : pc.notified = .testing ↔ pc = .testing := by
  cases pc <;> simp [notified]

/-- `notify_all` lets nobody into the function or out of it. -/
lemma inside_notified (pc : WaiterPc ν) : pc.notified.inside = pc.inside := by
  cases pc <;> rfl

/-- The steps that a thread has to take until it returns, if there is a value. -/
def stepsLeft : WaiterPc ν → ℕ
  | .locking | .asleep => 2
  | .testing => 1
  | .out | .returned _ => 0

/-- It spares nobody a step. -/
lemma stepsLeft_notified (pc : WaiterPc ν) : pc.notified.stepsLeft = pc.stepsLeft := by
  cases pc <;> rfl

/-- Two steps are enough. -/
lemma stepsLeft_le (pc : WaiterPc ν) : pc.stepsLeft ≤ 2 := by
  cases pc <;> simp [stepsLeft]

/-- Who is in the function has a step to take. -/
lemma stepsLeft_pos {pc : WaiterPc ν} (h : pc.inside = true) : 0 < pc.stepsLeft := by
  cases pc with
  | out | returned => cases h
  | testing => exact Nat.one_pos
  | locking | asleep => exact Nat.two_pos

end WaiterPc

namespace Machine

variable {σ : Type u} {α : Type v} {ε : Type w} {ν : Type x} {ι : Type y} [DecidableEq ι]

/-- The machine with its monitor. -/
def monitor (M : Machine σ α ε) (g : Guarded M ν) :
    Machine (Monitor σ ν ι) (MonitorAct α ι) (ε ⊕ ι × ν) where
  pre s
    | .inner a => M.pre s.inner a ∧
      if g.writes s.inner a = true then s.holder = .writer
      else g.ofWriter a = true → s.holder ≠ .writer
    | .lock => s.holder = .nobody
    | .notifyAll => s.holder = .writer
    | .unlock => s.holder = .writer ∧ s.owes = false
    | .call i => (s.pc i).inside = false
    | .acquire i => s.pc i = .locking ∧ s.holder = .nobody
    | .test i => s.pc i = .testing ∧ ∀ v ∈ g.val s.inner, M.pre s.inner (g.copy v)
    | .wake i => s.pc i = .asleep
  step s
    | .inner a => (M.step s.inner a).map fun r =>
      ({ s with
          inner := r.1
          owes := if g.writes s.inner a = true then (g.val r.1).isSome else s.owes },
        r.2.map .inl)
    | .lock => some ({ s with holder := .writer }, [])
    | .notifyAll => some ({ s with owes := false, pc := fun i => (s.pc i).notified }, [])
    | .unlock => some ({ s with holder := .nobody }, [])
    | .call i => some ({ s with pc := Function.update s.pc i .locking }, [])
    | .acquire i =>
      some ({ s with holder := .waiter i, pc := Function.update s.pc i .testing }, [])
    | .test i =>
      match g.val s.inner with
      | none => some ({ s with holder := .nobody, pc := Function.update s.pc i .asleep }, [])
      | some v => (M.step s.inner (g.copy v)).map fun r =>
        ({ s with
            inner := r.1
            holder := .nobody
            pc := Function.update s.pc i (.returned v) },
          r.2.map .inl ++ [.inr (i, v)])
    | .wake i => some ({ s with pc := Function.update s.pc i .locking }, [])

variable {M : Machine σ α ε} {g : Guarded M ν} {s s' s₀ : Monitor σ ν ι} {t out : List (ε ⊕ ι × ν)}

instance [DecidableEq ν] [∀ s a, Decidable (M.pre s a)] (s : Monitor σ ν ι)
    (act : MonitorAct α ι) : Decidable ((M.monitor g).pre s act) := by
  apply MonitorAct.casesOn (motive := fun act => Decidable ((M.monitor g).pre s act)) act <;>
    intros <;> unfold monitor <;> infer_instance

/-- What a step does to the machine and to the value: it writes it, or it does not change it. -/
lemma monitor_step {act : MonitorAct α ι} (hpre : (M.monitor g).pre s act)
    (h : (M.monitor g).step s act = some (s', out)) :
    (∃ a o, act = .inner a ∧ M.pre s.inner a ∧ M.step s.inner a = some (s'.inner, o) ∧
        out = o.map .inl ∧ s'.holder = s.holder ∧ s'.pc = s.pc ∧
        ((s.holder = .writer ∧ s'.owes = (g.val s'.inner).isSome) ∨
          s'.owes = s.owes ∧ g.val s'.inner = g.val s.inner)) ∨
      (∃ i v o, act = .test i ∧ s.pc i = .testing ∧ g.val s.inner = some v ∧
        M.pre s.inner (g.copy v) ∧ M.step s.inner (g.copy v) = some (s'.inner, o) ∧
        out = o.map .inl ++ [.inr (i, v)] ∧ s'.holder = .nobody ∧ s'.owes = s.owes ∧
        s'.pc = Function.update s.pc i (.returned v) ∧ g.val s'.inner = g.val s.inner) ∨
      s'.inner = s.inner ∧ out = [] ∧ ∀ i, act = .test i → g.val s.inner = none := by
  cases act with
  | inner a =>
    obtain ⟨r, hr, heq⟩ := Option.map_eq_some_iff.mp h
    obtain ⟨rfl, rfl⟩ := Prod.mk.inj heq
    refine Or.inl ⟨a, r.2, rfl, hpre.1, hr, rfl, rfl, rfl, ?_⟩
    have hguard := hpre.2
    by_cases hwrites : g.writes s.inner a = true
    · rw [if_pos hwrites] at hguard
      exact Or.inl ⟨hguard, if_pos hwrites⟩
    · exact Or.inr ⟨if_neg hwrites, g.keeps _ _ _ _ hr (Bool.eq_false_iff.mpr hwrites)⟩
  | test i =>
    obtain ⟨htesting, hcopy⟩ := hpre
    simp only [monitor] at h
    split at h
    · next hnone =>
      obtain ⟨rfl, rfl⟩ := Prod.mk.inj (Option.some.inj h)
      exact Or.inr (Or.inr ⟨rfl, rfl, fun _ _ => hnone⟩)
    · next v hv =>
      obtain ⟨r, hr, heq⟩ := Option.map_eq_some_iff.mp h
      obtain ⟨rfl, rfl⟩ := Prod.mk.inj heq
      exact Or.inr (Or.inl ⟨i, v, r.2, rfl, htesting, hv, hcopy v hv, hr, rfl, rfl, rfl, rfl,
        g.keeps _ _ _ _ hr (g.copy_reads _ _)⟩)
  | lock | notifyAll | unlock | call | acquire | wake =>
    obtain ⟨rfl, rfl⟩ := Prod.mk.inj (Option.some.inj h)
    exact Or.inr (Or.inr ⟨rfl, rfl, fun _ heq => by cases heq⟩)

/-- The machine in a monitor runs as it does without. -/
theorem Run.inner (h : (M.monitor g).Run s₀ t s) : M.Run s₀.inner (lefts t) s.inner := by
  induction h with
  | nil => exact Run.nil
  | snoc _ hpre hs ih =>
    rcases monitor_step hpre hs with ⟨a, o, -, hpre, hstep, rfl, -⟩ |
      ⟨i, v, o, -, -, -, hpre, hstep, rfl, -⟩ | ⟨hinner, rfl, -⟩
    · rw [lefts_append, lefts_map_inl]
      exact ih.snoc hpre hstep
    · rw [lefts_append, lefts_append, lefts_map_inl, show lefts [Sum.inr (i, v)] = ([] : List ε)
        from rfl, List.append_nil]
      exact ih.snoc hpre hstep
    · rw [List.append_nil, hinner]
      exact ih

/-- What holds of the monitor. -/
structure MonitorInv (g : Guarded M ν) (s : Monitor σ ν ι) : Prop where
  holder : ∀ i, s.holder = .waiter i ↔ s.pc i = .testing
  owes : s.owes = true → s.holder = .writer
  /-- No wakeup is lost. -/
  awake : s.owes = false → (g.val s.inner).isSome → ∀ i, s.pc i ≠ .asleep

namespace MonitorInv

/-- The thread `i` goes from one place outside the critical sections to another. -/
lemma move (h : MonitorInv g s) {i : ι} {pc : WaiterPc ν} (hold : s.pc i ≠ .testing)
    (hpc : pc ≠ .testing) (hasleep : pc ≠ .asleep) :
    MonitorInv g { s with pc := Function.update s.pc i pc } where
  holder := by
    refine (Function.forall_update_iff s.pc fun j pc => s.holder = .waiter j ↔ pc = .testing).mpr
      ⟨?_, fun j _ => h.holder j⟩
    exact iff_of_false (fun heq => hold ((h.holder i).mp heq)) hpc
  owes := h.owes
  awake howes hval :=
    (Function.forall_update_iff s.pc fun _ pc => pc ≠ .asleep).mpr
      ⟨hasleep, fun j _ => h.awake howes hval j⟩

/-- The thread `i` leaves its critical section. -/
lemma leave (h : MonitorInv g s) (inner : σ) {i : ι} (hi : s.pc i = .testing) {pc : WaiterPc ν}
    (hpc : pc ≠ .testing) (hval : g.val inner = g.val s.inner)
    (hasleep : (g.val inner).isSome → pc ≠ .asleep) :
    MonitorInv g { s with
      inner := inner, holder := .nobody, pc := Function.update s.pc i pc } where
  holder := by
    have hholder := (h.holder i).mpr hi
    refine (Function.forall_update_iff s.pc
      fun j pc => MutexHolder.nobody = .waiter j ↔ pc = .testing).mpr ⟨?_, fun j hj => ?_⟩
    · exact iff_of_false (fun heq => by cases heq) hpc
    · refine iff_of_false (fun heq => by cases heq) fun htesting => ?_
      exact hj (MutexHolder.waiter.inj (((h.holder j).mpr htesting).symm.trans hholder))
  owes howes := by
    have hwriter := h.owes howes
    rw [(h.holder i).mpr hi] at hwriter
    cases hwriter
  awake howes hsome :=
    (Function.forall_update_iff s.pc fun _ pc => pc ≠ .asleep).mpr
      ⟨hasleep hsome, fun j _ => h.awake howes (by rwa [← hval]) j⟩

/-- Every step keeps the invariant. -/
theorem step (h : MonitorInv g s) {act : MonitorAct α ι} (hpre : (M.monitor g).pre s act)
    (hstep : (M.monitor g).step s act = some (s', out)) : MonitorInv g s' := by
  cases act with
  | inner a =>
    obtain ⟨r, hr, heq⟩ := Option.map_eq_some_iff.mp hstep
    obtain ⟨rfl, -⟩ := Prod.mk.inj heq
    have hguard := hpre.2
    by_cases hwrites : g.writes s.inner a = true
    · rw [if_pos hwrites] at hguard ⊢
      refine ⟨h.holder, fun _ => hguard, fun howes hval => ?_⟩
      cases howes.symm.trans hval
    · rw [if_neg hwrites]
      have hval := g.keeps _ _ _ _ hr (Bool.eq_false_iff.mpr hwrites)
      refine ⟨h.holder, h.owes, fun howes hsome => h.awake howes ?_⟩
      rwa [← hval]
  | lock =>
    obtain ⟨rfl, -⟩ := Prod.mk.inj (Option.some.inj hstep)
    have hfree : s.holder = .nobody := hpre
    refine ⟨fun i => iff_of_false (fun heq => by cases heq) fun htesting => ?_, fun _ => rfl,
      h.awake⟩
    cases hfree.symm.trans ((h.holder i).mpr htesting)
  | notifyAll =>
    obtain ⟨rfl, -⟩ := Prod.mk.inj (Option.some.inj hstep)
    refine ⟨fun i => ?_, fun howes => (by cases howes), fun _ _ i => (s.pc i).notified_ne_asleep⟩
    rw [WaiterPc.notified_eq_testing]
    exact h.holder i
  | unlock =>
    obtain ⟨rfl, -⟩ := Prod.mk.inj (Option.some.inj hstep)
    obtain ⟨hwriter, howes⟩ := hpre
    refine ⟨fun i => iff_of_false (fun heq => by cases heq) fun htesting => ?_,
      fun howes' => ?_, h.awake⟩
    · cases hwriter.symm.trans ((h.holder i).mpr htesting)
    · cases howes.symm.trans howes'
  | call i =>
    obtain ⟨rfl, -⟩ := Prod.mk.inj (Option.some.inj hstep)
    have hout : (s.pc i).inside = false := hpre
    refine h.move (fun htesting => ?_) (fun heq => by cases heq) fun heq => by cases heq
    rw [htesting] at hout
    cases hout
  | acquire i =>
    obtain ⟨rfl, -⟩ := Prod.mk.inj (Option.some.inj hstep)
    obtain ⟨-, hfree⟩ := hpre
    refine ⟨?_, fun howes => ?_, fun howes hval => ?_⟩
    · refine (Function.forall_update_iff s.pc
        fun j pc => MutexHolder.waiter i = .waiter j ↔ pc = .testing).mpr
          ⟨iff_of_true rfl rfl, fun j hj => ?_⟩
      refine iff_of_false (fun heq => hj (MutexHolder.waiter.inj heq).symm) fun htesting => ?_
      cases hfree.symm.trans ((h.holder j).mpr htesting)
    · cases hfree.symm.trans (h.owes howes)
    · exact (Function.forall_update_iff s.pc fun _ pc => pc ≠ .asleep).mpr
        ⟨fun heq => (by cases heq), fun j _ => h.awake howes hval j⟩
  | test i =>
    obtain ⟨hi, -⟩ := hpre
    simp only [monitor] at hstep
    split at hstep
    · next hnone =>
      obtain ⟨rfl, -⟩ := Prod.mk.inj (Option.some.inj hstep)
      refine h.leave s.inner hi (fun heq => by cases heq) rfl fun hsome => ?_
      rw [hnone] at hsome
      cases hsome
    · next v hv =>
      obtain ⟨r, hr, heq⟩ := Option.map_eq_some_iff.mp hstep
      obtain ⟨rfl, -⟩ := Prod.mk.inj heq
      exact h.leave r.1 hi (fun heq => by cases heq) (g.keeps _ _ _ _ hr (g.copy_reads _ _))
        fun _ heq => by cases heq
  | wake i =>
    obtain ⟨rfl, -⟩ := Prod.mk.inj (Option.some.inj hstep)
    have hasleep : s.pc i = .asleep := hpre
    refine h.move (fun htesting => ?_) (fun heq => by cases heq) fun heq => by cases heq
    cases hasleep.symm.trans htesting

end MonitorInv

/-- Nobody is in the monitor at the beginning. -/
def startMonitor (inner : σ) : Monitor σ ν ι where
  inner := inner
  holder := .nobody
  owes := false
  pc _ := .out

omit [DecidableEq ι] in
/-- The invariant holds at the beginning. -/
lemma MonitorInv.start (inner : σ) :
    MonitorInv g (startMonitor inner : Monitor σ ν ι) where
  holder _ := iff_of_false (fun heq => by cases heq) fun heq => by cases heq
  owes heq := by cases heq
  awake _ _ _ heq := by cases heq

/-- It holds in every state that is reached. -/
lemma monitorInv_of_run {inner : σ} (h : (M.monitor g).Run (startMonitor inner) t s) :
    MonitorInv g s :=
  h.stateInvariant (MonitorInv g) (.start inner) fun _ _ _ _ hinv hpre hstep =>
    hinv.step hpre hstep

/-! ### Waiting threads return -/

/-- As long as there is a value, a thread in the function returns with the next step, or comes
nearer to it with each step of its own. -/
lemma monitor_step_pc {i : ι} {act : MonitorAct α ι} (hi : (s.pc i).inside = true)
    (hval : (g.val s.inner).isSome) (hpre : (M.monitor g).pre s act)
    (hstep : (M.monitor g).step s act = some (s', out)) :
    (∃ v, .inr (i, v) ∈ out) ∨ (s'.pc i).inside = true ∧
      (s'.pc i).stepsLeft + (if act.isOf i = true then 1 else 0) ≤ (s.pc i).stepsLeft := by
  cases act with
  | inner a =>
    obtain ⟨r, -, heq⟩ := Option.map_eq_some_iff.mp hstep
    obtain ⟨rfl, -⟩ := Prod.mk.inj heq
    exact Or.inr ⟨hi, le_refl _⟩
  | lock | unlock =>
    obtain ⟨rfl, -⟩ := Prod.mk.inj (Option.some.inj hstep)
    exact Or.inr ⟨hi, le_refl _⟩
  | notifyAll =>
    obtain ⟨rfl, -⟩ := Prod.mk.inj (Option.some.inj hstep)
    refine Or.inr ⟨?_, ?_⟩
    · rw [WaiterPc.inside_notified]
      exact hi
    · rw [WaiterPc.stepsLeft_notified]
      exact le_refl _
  | call j =>
    obtain ⟨rfl, -⟩ := Prod.mk.inj (Option.some.inj hstep)
    have hij : i ≠ j := by
      intro heq
      rw [heq] at hi
      cases hi.symm.trans hpre
    refine Or.inr ?_
    dsimp only
    rw [Function.update_of_ne hij]
    exact ⟨hi, le_refl _⟩
  | acquire j =>
    obtain ⟨rfl, -⟩ := Prod.mk.inj (Option.some.inj hstep)
    refine Or.inr ?_
    by_cases hij : i = j
    · rw [← hij] at hpre ⊢
      rw [hpre.1]
      dsimp only
      rw [Function.update_self]
      exact ⟨rfl, by simp [WaiterPc.stepsLeft, MonitorAct.isOf]⟩
    · dsimp only
      rw [Function.update_of_ne hij]
      exact ⟨hi, by simp [MonitorAct.isOf, Ne.symm hij]⟩
  | test j =>
    obtain ⟨v, hv⟩ := Option.isSome_iff_exists.mp hval
    simp only [monitor, hv] at hstep
    obtain ⟨r, -, heq⟩ := Option.map_eq_some_iff.mp hstep
    obtain ⟨rfl, rfl⟩ := Prod.mk.inj heq
    by_cases hij : i = j
    · rw [hij]
      exact Or.inl ⟨v, List.mem_append_right _ List.mem_cons_self⟩
    · refine Or.inr ?_
      dsimp only
      rw [Function.update_of_ne hij]
      exact ⟨hi, by simp [MonitorAct.isOf, Ne.symm hij]⟩
  | wake j =>
    obtain ⟨rfl, -⟩ := Prod.mk.inj (Option.some.inj hstep)
    refine Or.inr ?_
    by_cases hij : i = j
    · have hasleep : s.pc j = .asleep := hpre
      rw [hij, hasleep]
      dsimp only
      rw [Function.update_self]
      exact ⟨rfl, by simp [WaiterPc.stepsLeft, MonitorAct.isOf]⟩
    · dsimp only
      rw [Function.update_of_ne hij]
      exact ⟨hi, by simp [MonitorAct.isOf]⟩

/-- The machine with its monitor, while there is a value. -/
def monitorWithValue (M : Machine σ α ε) (g : Guarded M ν) :
    Machine (Monitor σ ν ι) (MonitorAct α ι) (ε ⊕ ι × ν) :=
  (M.monitor g).restrict fun s _ => (g.val s.inner).isSome

instance [DecidableEq ν] [∀ s a, Decidable (M.pre s a)] (s : Monitor σ ν ι)
    (act : MonitorAct α ι) : Decidable ((M.monitorWithValue g).pre s act) :=
  inferInstanceAs (Decidable ((M.monitor g).pre s act ∧ (g.val s.inner).isSome = true))

/-- A thread that is in the function while there is a value has returned when it has taken two
steps, whatever the others do. -/
theorem Run.returns {i : ι} {p : Monitor σ ν ι × ℕ} (hi : (s₀.pc i).inside = true)
    (h : ((M.monitorWithValue g).counting fun act => act.isOf i = true).Run (s₀, 0) t p)
    (hsteps : 2 ≤ p.2) : ∃ v, .inr (i, v) ∈ t := by
  have hinside : ∀ {t s}, (M.monitorWithValue g).Run s₀ t s →
      (∃ v, .inr (i, v) ∈ t) ∨ (s.pc i).inside = true := by
    intro t s hrun
    refine hrun.invariant (fun t s => (∃ v, .inr (i, v) ∈ t) ∨ (s.pc i).inside = true)
      (Or.inr hi) ?_
    rintro t s act s' out (⟨v, hv⟩ | hs) hpre hstep
    · exact Or.inl ⟨v, List.mem_append_left _ hv⟩
    · rcases monitor_step_pc hs hpre.2 hpre.1 hstep with ⟨v, hv⟩ | ⟨hs', -⟩
      · exact Or.inl ⟨v, List.mem_append_right _ hv⟩
      · exact Or.inr hs'
  have hprogress := h.progress (fun t _ => ∃ v, .inr (i, v) ∈ t) (fun _ s => (s.pc i).stepsLeft)
    (fun _ _ _ _ _ _ hgoal _ _ => by
      obtain ⟨v, hv⟩ := hgoal
      exact ⟨v, List.mem_append_left _ hv⟩)
    (fun _ _ _ _ _ hrun hgoal hpre hstep => by
      have hs := (hinside hrun).resolve_left hgoal
      rcases monitor_step_pc hs hpre.2 hpre.1 hstep with ⟨v, hv⟩ | ⟨-, hle⟩
      · exact Or.inl ⟨v, List.mem_append_right _ hv⟩
      · exact Or.inr hle)
  refine hprogress.elim id fun hle => ?_
  rcases hinside h.forget with hgoal | hs
  · exact hgoal
  · have hpos := WaiterPc.stepsLeft_pos hs
    have htwo := (s₀.pc i).stepsLeft_le
    omega

end Machine

end MuduoServer
