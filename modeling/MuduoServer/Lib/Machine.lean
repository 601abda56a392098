import Mathlib

/-!
# Machines, runs and invariants

The small theory of state machines the development rests on.  A `Machine` has a guard `pre`, which
says when the environment may take a label, and a partial `step`, which says what the code does
with it: `none` stands for a failed assertion.  Every step emits a finite list of events, and a
`Run` collects them in the order they were emitted.

The rules proved here are the ones every later proof uses.  `Run.invariant` carries a property of
the trace and the state along a run, `Run.simulates` transports a run along a forward simulation,
and `Run.once` is the form "once the event has occurred, nothing of this kind follows".  `restrict`
narrows the guard, so that a run all of whose steps meet a condition is a run of the restricted
machine.  `exec` runs a list of labels and `exists_run_of_exec` turns the computation into a run.
-/

namespace MuduoServer

universe u v w

/-- A state machine over states `σ`, labels `α` and events `ε`.  A label is taken only under its
guard `pre`; `step` is what the code then does, and `none` is a failed assertion. -/
structure Machine (σ : Type u) (α : Type v) (ε : Type w) where
  /-- The environment may take the label in the state. -/
  pre : σ → α → Prop
  /-- The effect of the label: the next state and the events emitted on the way. -/
  step : σ → α → Option (σ × List ε)

namespace Machine

variable {σ : Type u} {α : Type v} {ε : Type w}

/-- `M.Run s₀ t s`: from `s₀` the machine reaches `s`, every step being taken under its guard and
without a failed assertion, and `t` is the list of all events emitted. -/
inductive Run (M : Machine σ α ε) (s₀ : σ) : List ε → σ → Prop
  | nil : Run M s₀ [] s₀
  | snoc {t : List ε} {s : σ} {a : α} {s' : σ} {out : List ε} :
      Run M s₀ t s → M.pre s a → M.step s a = some (s', out) → Run M s₀ (t ++ out) s'

/-- The machine whose guard also asks for `ok`. -/
def restrict (M : Machine σ α ε) (ok : σ → α → Prop) : Machine σ α ε where
  pre s a := M.pre s a ∧ ok s a
  step := M.step

instance (M : Machine σ α ε) (ok : σ → α → Prop) (s : σ) (a : α) [Decidable (M.pre s a)]
    [Decidable (ok s a)] : Decidable ((M.restrict ok).pre s a) :=
  inferInstanceAs (Decidable (M.pre s a ∧ ok s a))

variable {M : Machine σ α ε} {s₀ s : σ} {t : List ε}

/-- A run of the restricted machine is a run of the machine. -/
theorem Run.of_restrict {ok : σ → α → Prop} (h : (M.restrict ok).Run s₀ t s) : M.Run s₀ t s := by
  induction h with
  | nil => exact Run.nil
  | snoc _ hpre hstep ih => exact ih.snoc hpre.1 hstep

/-- Runs compose, and their traces are appended. -/
theorem Run.append {t' : List ε} {s' : σ} (h : M.Run s₀ t s) (h' : M.Run s t' s') :
    M.Run s₀ (t ++ t') s' := by
  induction h' with
  | nil => simpa using h
  | snoc _ hpre hstep ih =>
    rw [← List.append_assoc]
    exact ih.snoc hpre hstep

/-- A first step, and a run from there. -/
theorem Run.cons (a : α) {s' : σ} {out : List ε} (hpre : M.pre s₀ a)
    (hstep : M.step s₀ a = some (s', out)) (h : M.Run s' t s) : M.Run s₀ (out ++ t) s := by
  have hfirst : M.Run s₀ ([] ++ out) s' := Run.nil.snoc hpre hstep
  simpa using hfirst.append h

/-! ### Invariants -/

/-- A property of trace and state that holds at the start and is kept by every guarded step holds
at the end of every run. -/
theorem Run.invariant (I : List ε → σ → Prop) (h : M.Run s₀ t s) (h₀ : I [] s₀)
    (hstep : ∀ t s a s' out, I t s → M.pre s a → M.step s a = some (s', out) → I (t ++ out) s') :
    I t s := by
  induction h with
  | nil => exact h₀
  | snoc _ hpre hs ih => exact hstep _ _ _ _ _ ih hpre hs

/-- The rule for a property of the state alone. -/
theorem Run.stateInvariant (I : σ → Prop) (h : M.Run s₀ t s) (h₀ : I s₀)
    (hstep : ∀ s a s' out, I s → M.pre s a → M.step s a = some (s', out) → I s') : I s :=
  h.invariant (fun _ s => I s) h₀ fun _ s a s' out => hstep s a s' out

/-- If an event `e`, emitted after a trace that satisfies `P`, leaves the machine in `Q`, if `Q` is
kept by every step, and if no step taken in `Q` emits an event of `bad`, then no event of `bad`
follows such an `e` in any run. -/
theorem Run.once (P : List ε → Prop) (Q : σ → Prop) (e : ε) (bad : ε → Prop) (h : M.Run s₀ t s)
    (hest : ∀ t s a s' out, M.Run s₀ t s → M.pre s a → M.step s a = some (s', out) →
      ∀ l r, out = l ++ e :: r → P (t ++ l) → Q s' ∧ ∀ x ∈ r, ¬ bad x)
    (hkeep : ∀ t s a s' out, M.Run s₀ t s → Q s → M.pre s a → M.step s a = some (s', out) →
      Q s' ∧ ∀ x ∈ out, ¬ bad x) :
    ∀ l r, t = l ++ e :: r → P l → Q s ∧ ∀ x ∈ r, ¬ bad x := by
  induction h with
  | nil =>
    intro l r hlr
    simp at hlr
  | @snoc t s a s' out hrun hpre hs ih =>
    intro l r hlr hP
    rcases List.append_eq_append_iff.mp hlr with ⟨l', rfl, hout⟩ | ⟨r', rfl, hr⟩
    · exact hest t s a s' out hrun hpre hs l' r hout hP
    · cases r' with
      | nil =>
        have hout : out = [] ++ e :: r := by simpa using hr.symm
        exact hest _ s a s' out hrun hpre hs [] r hout (by simpa using hP)
      | cons x r' =>
        rw [List.cons_append, List.cons.injEq] at hr
        obtain ⟨rfl, rfl⟩ := hr
        obtain ⟨hQ, hr'⟩ := ih l r' rfl hP
        obtain ⟨hQ', hout⟩ := hkeep _ s a s' out hrun hQ hpre hs
        refine ⟨hQ', fun y hy => ?_⟩
        rcases List.mem_append.mp hy with hy | hy
        · exact hr' y hy
        · exact hout y hy

/-! ### Simulation -/

/-- A forward simulation: related states stay related under every guarded step of `M`, which `A`
answers with the same label and the same events. -/
def Simulates {τ : Type*} (M : Machine σ α ε) (A : Machine τ α ε) (R : σ → τ → Prop) : Prop :=
  ∀ s b a s' out, R s b → M.pre s a → M.step s a = some (s', out) →
    ∃ b', A.pre b a ∧ A.step b a = some (b', out) ∧ R s' b'

/-- A run is matched, event for event, by a run of the machine that simulates it. -/
theorem Run.simulates {τ : Type*} {A : Machine τ α ε} {R : σ → τ → Prop} {b₀ : τ}
    (h : M.Run s₀ t s) (hsim : M.Simulates A R) (h₀ : R s₀ b₀) :
    ∃ b, A.Run b₀ t b ∧ R s b := by
  induction h with
  | nil => exact ⟨b₀, Run.nil, h₀⟩
  | snoc _ hpre hs ih =>
    obtain ⟨b, hb, hR⟩ := ih
    obtain ⟨b', hpre', hs', hR'⟩ := hsim _ _ _ _ _ hR hpre hs
    exact ⟨b', hb.snoc hpre' hs', hR'⟩

/-! ### Executing a list of labels -/

/-- One step under its guard. -/
def guarded (M : Machine σ α ε) [∀ s a, Decidable (M.pre s a)] (s : σ) (a : α) :
    Option (σ × List ε) :=
  if M.pre s a then M.step s a else none

/-- A guarded step that succeeds was allowed. -/
lemma guarded_eq_some [∀ s a, Decidable (M.pre s a)] {a : α} {r : σ × List ε} :
    M.guarded s a = some r ↔ M.pre s a ∧ M.step s a = some r := Option.ite_none_right_eq_some

/-- Run a list of labels from `s`, checking every guard. -/
def exec (M : Machine σ α ε) [∀ s a, Decidable (M.pre s a)] : σ → List α → Option (σ × List ε)
  | s, [] => some (s, [])
  | s, a :: as =>
    if M.pre s a then
      match M.step s a with
      | none => none
      | some (s', out) =>
        match M.exec s' as with
        | none => none
        | some (s'', outs) => some (s'', out ++ outs)
    else none

/-- What `exec` computes is a run. -/
theorem run_of_exec [∀ s a, Decidable (M.pre s a)] {as : List α} {r : σ × List ε}
    (h : M.exec s₀ as = some r) : M.Run s₀ r.2 r.1 := by
  induction as generalizing s₀ r with
  | nil =>
    simp only [exec, Option.some.injEq] at h
    subst h
    exact Run.nil
  | cons a as ih =>
    simp only [exec] at h
    split at h
    next hpre =>
      split at h
      next => cases h
      next s' out hstep =>
        split at h
        next => cases h
        next s'' outs hexec =>
          cases h
          exact Run.cons a hpre hstep (ih hexec)
    next => cases h

/-- `exec` gets through all labels, and its result passes the test `p`. -/
def Reaches (M : Machine σ α ε) [∀ s a, Decidable (M.pre s a)] (s₀ : σ) (as : List α)
    (p : σ → List ε → Prop) : Prop := ∃ r ∈ M.exec s₀ as, p r.1 r.2

instance (M : Machine σ α ε) [∀ s a, Decidable (M.pre s a)] (s₀ : σ) (as : List α)
    (p : σ → List ε → Prop) [∀ s t, Decidable (p s t)] : Decidable (M.Reaches s₀ as p) :=
  inferInstanceAs (Decidable (∃ r ∈ M.exec s₀ as, p r.1 r.2))

/-- Then some run ends in a state and with a trace that satisfy `p`. -/
theorem exists_run_of_exec (M : Machine σ α ε) [∀ s a, Decidable (M.pre s a)] (s₀ : σ)
    (as : List α) (p : σ → List ε → Prop) (h : M.Reaches s₀ as p) :
    ∃ t s, M.Run s₀ t s ∧ p s t := by
  obtain ⟨r, hr, hp⟩ := h
  exact ⟨r.2, r.1, run_of_exec hr, hp⟩

/-- The form for a test inside a test, where one run goes on from the end of another. -/
lemma Reaches.exists_run [∀ s a, Decidable (M.pre s a)] {as : List α} {p : σ → List ε → Prop}
    (h : M.Reaches s₀ as p) : ∃ t s, M.Run s₀ t s ∧ p s t :=
  exists_run_of_exec M s₀ as p h

end Machine

end MuduoServer
