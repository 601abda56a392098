import MuduoServer.Lib.Machine

/-!
# History variables and parallel composition

Two ways to build a machine from others.  `withHistory` adds a component that records what happens
and has no influence on it, so that a run with history is a run (`Run.forget`).  The history that
counts labels gives the rule of bounded progress (`Run.progress`): a rank that every such label
lowers bounds how many of them come before the goal.  `parallel` lets two machines take their steps
in any order, under a condition `sync` that a step may have to meet in the state of the other
machine.  Each side of such a run is a run of its machine (`Run.left`, `Run.right`): what was proved
about one machine alone holds in the composition, and only properties of both states together need
an induction of their own.  What simulates the two sides simulates the composition
(`Run.parallelFollows`).
-/

namespace MuduoServer

universe u v w u' v' w' x y z x' y' z'

namespace Machine

variable {σ : Type u} {α : Type v} {ε : Type w}

/-- The invariant rule for steps from states that a run has reached. -/
theorem Run.reachedInvariant {M : Machine σ α ε} {s₀ s : σ} {t : List ε}
    (I : List ε → σ → Prop) (h : M.Run s₀ t s) (h₀ : I [] s₀)
    (hstep : ∀ t s a s' out, M.Run s₀ t s → I t s → M.pre s a → M.step s a = some (s', out) →
      I (t ++ out) s') : I t s := by
  induction h with
  | nil => exact h₀
  | snoc hrun hpre hs ih => exact hstep _ _ _ _ _ hrun ih hpre hs

/-- A narrower guard has fewer runs. -/
theorem Run.restrict_mono {M : Machine σ α ε} {ok ok' : σ → α → Prop} {s₀ s : σ} {t : List ε}
    (hok : ∀ s a, ok s a → ok' s a) (h : (M.restrict ok).Run s₀ t s) :
    (M.restrict ok').Run s₀ t s := by
  induction h with
  | nil => exact Run.nil
  | snoc _ hpre hs ih => exact ih.snoc ⟨hpre.1, hok _ _ hpre.2⟩ hs

/-- A function of the states that turns steps into steps turns runs into runs. -/
theorem Run.map {ρ : Type x} {M : Machine σ α ε} {N : Machine ρ α ε} {s₀ s : σ} {t : List ε}
    (f : σ → ρ) (h : M.Run s₀ t s)
    (hf : ∀ s a s' out, M.pre s a → M.step s a = some (s', out) →
      N.pre (f s) a ∧ N.step (f s) a = some (f s', out)) : N.Run (f s₀) t (f s) := by
  induction h with
  | nil => exact Run.nil
  | snoc _ hpre hs ih =>
    obtain ⟨hpre', hs'⟩ := hf _ _ _ _ hpre hs
    exact ih.snoc hpre' hs'

/-- Simulation with steps of one side only.  A step of `M` is answered by one step of `A`, under a
label of `A`, or by none at all; `obs` is the trace of `A` as the states of `M` have it. -/
theorem Run.follows {τ : Type u'} {β : Type v'} {δ : Type w'} {M : Machine σ α ε}
    {A : Machine τ β δ} {s₀ s : σ} {t : List ε} {b₀ : τ} (R : σ → τ → Prop) (obs : σ → List δ)
    (h : M.Run s₀ t s) (h₀ : R s₀ b₀) (hobs : obs s₀ = [])
    (hstep : ∀ s a s' out b, A.Run b₀ (obs s) b → R s b → M.pre s a → M.step s a = some (s', out) →
      (R s' b ∧ obs s' = obs s) ∨
        ∃ c b' o, A.pre b c ∧ A.step b c = some (b', o) ∧ R s' b' ∧ obs s' = obs s ++ o) :
    ∃ b, A.Run b₀ (obs s) b ∧ R s b := by
  induction h with
  | nil =>
    rw [hobs]
    exact ⟨b₀, Run.nil, h₀⟩
  | snoc _ hpre hs ih =>
    obtain ⟨b, hb, hR⟩ := ih
    rcases hstep _ _ _ _ b hb hR hpre hs with ⟨hR', hsame⟩ | ⟨c, b', o, hpre', hs', hR', hobs'⟩
    · rw [hsame]
      exact ⟨b, hb, hR'⟩
    · rw [hobs']
      exact ⟨b', hb.snoc hpre' hs', hR'⟩

/-! ### History variables -/

section History

variable {γ : Type x} {M : Machine σ α ε} {record : γ → σ → α → γ} {s₀ s : σ} {t : List ε}

/-- The machine with a history, to which `record` adds what a step does. -/
def withHistory (M : Machine σ α ε) (record : γ → σ → α → γ) : Machine (σ × γ) α ε where
  pre s a := M.pre s.1 a
  step s a := (M.step s.1 a).map fun r => ((r.1, record s.2 s.1 a), r.2)

instance (s : σ × γ) (a : α) [Decidable (M.pre s.1 a)] :
    Decidable ((M.withHistory record).pre s a) :=
  inferInstanceAs (Decidable (M.pre s.1 a))

/-- A step with its history is a step, and the record of it. -/
lemma withHistory_step {p p' : σ × γ} {a : α} {out : List ε}
    (h : (M.withHistory record).step p a = some (p', out)) :
    M.step p.1 a = some (p'.1, out) ∧ p'.2 = record p.2 p.1 a := by
  obtain ⟨r, hr, heq⟩ := Option.map_eq_some_iff.mp h
  obtain ⟨rfl, rfl⟩ := Prod.mk.inj heq
  exact ⟨hr, rfl⟩

/-- The history has no influence. -/
theorem Run.forget {p₀ p : σ × γ} (h : (M.withHistory record).Run p₀ t p) : M.Run p₀.1 t p.1 := by
  induction h with
  | nil => exact Run.nil
  | snoc _ hpre hs ih => exact ih.snoc hpre (withHistory_step hs).1

end History

/-! ### Bounded progress -/

section Counting

variable {M : Machine σ α ε} {k : α → Prop} [DecidablePred k] {s₀ : σ} {t : List ε} {p : σ × ℕ}

/-- The machine that counts the labels of the kind `k`. -/
def counting (M : Machine σ α ε) (k : α → Prop) [DecidablePred k] : Machine (σ × ℕ) α ε :=
  M.withHistory fun n _ a => if k a then n + 1 else n

instance (s : σ × ℕ) (a : α) [Decidable (M.pre s.1 a)] : Decidable ((M.counting k).pre s a) :=
  inferInstanceAs (Decidable (M.pre s.1 a))

/-- As long as the goal `G` has not been reached, no step raises the rank and every label of the
kind `k` lowers it.  Then either the goal has been reached or the labels counted so far and the rank
that is left are at most the rank at the start. -/
theorem Run.progress (G : List ε → σ → Prop) (rank : List ε → σ → ℕ)
    (h : (M.counting k).Run (s₀, 0) t p)
    (hkeep : ∀ t s a s' out, M.Run s₀ t s → G t s → M.pre s a → M.step s a = some (s', out) →
      G (t ++ out) s')
    (hrank : ∀ t s a s' out, M.Run s₀ t s → ¬ G t s → M.pre s a → M.step s a = some (s', out) →
      G (t ++ out) s' ∨ rank (t ++ out) s' + (if k a then 1 else 0) ≤ rank t s) :
    G t p.1 ∨ p.2 + rank t p.1 ≤ rank [] s₀ := by
  refine h.reachedInvariant (fun t p => G t p.1 ∨ p.2 + rank t p.1 ≤ rank [] s₀)
    (Or.inr (Nat.zero_add _).le) ?_
  intro t p a p' out hrun hinv hpre hstep
  obtain ⟨hs, hcount⟩ := withHistory_step hstep
  by_cases hgoal : G t p.1
  · exact Or.inl (hkeep _ _ _ _ _ hrun.forget hgoal hpre hs)
  · refine (hrank _ _ _ _ _ hrun.forget hgoal hpre hs).imp_right fun hle => ?_
    have hold := hinv.resolve_left hgoal
    rw [hcount]
    split at hle
    · next hk =>
      rw [if_pos hk]
      omega
    · next hk =>
      rw [if_neg hk]
      omega

end Counting

/-! ### Parallel composition -/

section Parallel

variable {τ : Type u'} {β : Type v'} {δ : Type w'} {M : Machine σ α ε} {N : Machine τ β δ}
  {sync : σ → τ → α ⊕ β → Prop}

/-- Both machines side by side. -/
def parallel (M : Machine σ α ε) (N : Machine τ β δ) (sync : σ → τ → α ⊕ β → Prop) :
    Machine (σ × τ) (α ⊕ β) (ε ⊕ δ) where
  pre s
    | .inl a => M.pre s.1 a ∧ sync s.1 s.2 (.inl a)
    | .inr b => N.pre s.2 b ∧ sync s.1 s.2 (.inr b)
  step s
    | .inl a => (M.step s.1 a).map fun r => ((r.1, s.2), r.2.map .inl)
    | .inr b => (N.step s.2 b).map fun r => ((s.1, r.1), r.2.map .inr)

instance (s : σ × τ) (c : α ⊕ β) [∀ a, Decidable (M.pre s.1 a)] [∀ b, Decidable (N.pre s.2 b)]
    [Decidable (sync s.1 s.2 c)] : Decidable ((M.parallel N sync).pre s c) := by
  cases c
  · exact instDecidableAnd
  · exact instDecidableAnd

/-- The events of the left machine. -/
def lefts (t : List (ε ⊕ δ)) : List ε := t.filterMap Sum.getLeft?

/-- The events of the right machine. -/
def rights (t : List (ε ⊕ δ)) : List δ := t.filterMap Sum.getRight?

/-- The left events of two traces. -/
@[simp] lemma lefts_append (t t' : List (ε ⊕ δ)) : lefts (t ++ t') = lefts t ++ lefts t' :=
  List.filterMap_append

/-- The right events of two traces. -/
@[simp] lemma rights_append (t t' : List (ε ⊕ δ)) : rights (t ++ t') = rights t ++ rights t' :=
  List.filterMap_append

/-- A trace of the left machine has left events only. -/
@[simp] lemma lefts_map_inl (l : List ε) : lefts (l.map (Sum.inl (β := δ))) = l := by
  induction l with
  | nil => rfl
  | cons e l ih => exact congrArg (e :: ·) ih

/-- A trace of the right machine has none. -/
@[simp] lemma lefts_map_inr (l : List δ) : lefts (l.map (Sum.inr (α := ε))) = [] := by
  induction l with
  | nil => rfl
  | cons e l ih => exact ih

/-- A trace of the left machine has no right events. -/
@[simp] lemma rights_map_inl (l : List ε) : rights (l.map (Sum.inl (β := δ))) = [] := by
  induction l with
  | nil => rfl
  | cons e l ih => exact ih

/-- A trace of the right machine has right events only. -/
@[simp] lemma rights_map_inr (l : List δ) : rights (l.map (Sum.inr (α := ε))) = l := by
  induction l with
  | nil => rfl
  | cons e l ih => exact congrArg (e :: ·) ih

/-- A step of the composition is a step of one machine, and the other one stays where it is. -/
lemma parallel_step {p p' : σ × τ} {c : α ⊕ β} {out : List (ε ⊕ δ)}
    (hpre : (M.parallel N sync).pre p c) (h : (M.parallel N sync).step p c = some (p', out)) :
    (∃ a e, c = .inl a ∧ M.pre p.1 a ∧ sync p.1 p.2 (.inl a) ∧ M.step p.1 a = some (p'.1, e) ∧
        p'.2 = p.2 ∧ out = e.map .inl) ∨
      ∃ b e, c = .inr b ∧ N.pre p.2 b ∧ sync p.1 p.2 (.inr b) ∧ N.step p.2 b = some (p'.2, e) ∧
        p'.1 = p.1 ∧ out = e.map .inr := by
  cases c with
  | inl a =>
    obtain ⟨r, hr, heq⟩ := Option.map_eq_some_iff.mp h
    obtain ⟨rfl, rfl⟩ := Prod.mk.inj heq
    exact Or.inl ⟨a, r.2, rfl, hpre.1, hpre.2, hr, rfl, rfl⟩
  | inr b =>
    obtain ⟨r, hr, heq⟩ := Option.map_eq_some_iff.mp h
    obtain ⟨rfl, rfl⟩ := Prod.mk.inj heq
    exact Or.inr ⟨b, r.2, rfl, hpre.1, hpre.2, hr, rfl, rfl⟩

variable {p₀ p : σ × τ} {t : List (ε ⊕ δ)}

/-- The left side of a run. -/
theorem Run.left (h : (M.parallel N sync).Run p₀ t p) : M.Run p₀.1 (lefts t) p.1 := by
  induction h with
  | nil => exact Run.nil
  | snoc _ hpre hs ih =>
    rcases parallel_step hpre hs with ⟨a, e, -, hpre, -, hstep, -, rfl⟩ |
      ⟨b, e, -, -, -, -, hsame, rfl⟩
    · rw [lefts_append, lefts_map_inl]
      exact ih.snoc hpre hstep
    · rw [lefts_append, lefts_map_inr, List.append_nil, hsame]
      exact ih

/-- The right side of a run. -/
theorem Run.right (h : (M.parallel N sync).Run p₀ t p) : N.Run p₀.2 (rights t) p.2 := by
  induction h with
  | nil => exact Run.nil
  | snoc _ hpre hs ih =>
    rcases parallel_step hpre hs with ⟨a, e, -, -, -, -, hsame, rfl⟩ |
      ⟨b, e, -, hpre, -, hstep, -, rfl⟩
    · rw [rights_append, rights_map_inl, List.append_nil, hsame]
      exact ih
    · rw [rights_append, rights_map_inr]
      exact ih.snoc hpre hstep

/-- An invariant of both states together: each machine keeps it with its own steps. -/
theorem Run.parallelInvariant (I : σ → τ → Prop) (h : (M.parallel N sync).Run p₀ t p)
    (h₀ : I p₀.1 p₀.2)
    (hleft : ∀ t s r a s' out, M.Run p₀.1 t s → I s r → M.pre s a → sync s r (.inl a) →
      M.step s a = some (s', out) → I s' r)
    (hright : ∀ t s r b r' out, N.Run p₀.2 t r → I s r → N.pre r b → sync s r (.inr b) →
      N.step r b = some (r', out) → I s r') : I p.1 p.2 := by
  induction h with
  | nil => exact h₀
  | snoc hrun hpre hs ih =>
    rcases parallel_step hpre hs with ⟨a, e, -, hpre, hsync, hstep, hsame, -⟩ |
      ⟨b, e, -, hpre, hsync, hstep, hsame, -⟩
    · rw [hsame]
      exact hleft _ _ _ _ _ _ hrun.left ih hpre hsync hstep
    · rw [hsame]
      exact hright _ _ _ _ _ _ hrun.right ih hpre hsync hstep

end Parallel

section ParallelFollows

variable {τ : Type u'} {β : Type v'} {δ : Type w'} {ρ : Type x} {γ : Type y} {ζ : Type z}
  {τ' : Type x'} {β' : Type y'} {δ' : Type z'}

/-- `A`, started in `b₀`, answers every step of `M` from related states, with one step or with none;
`obs` is the trace of `A`, and a label and its answer are `matched`. -/
def Answers (M : Machine σ α ε) (A : Machine τ β δ) (b₀ : τ) (R : σ → τ → Prop) (obs : σ → List δ)
    (matched : σ → α → τ → β → Prop) : Prop :=
  ∀ s a s' out b, A.Run b₀ (obs s) b → R s b → M.pre s a → M.step s a = some (s', out) →
    (R s' b ∧ obs s' = obs s) ∨ ∃ c b' o, A.pre b c ∧ A.step b c = some (b', o) ∧
      matched s a b c ∧ R s' b' ∧ obs s' = obs s ++ o

variable {M : Machine σ α ε} {N : Machine ρ γ ζ} {A : Machine τ β δ} {B : Machine τ' β' δ'}
  {sync : σ → ρ → α ⊕ γ → Prop} {sync' : τ → τ' → β ⊕ β' → Prop} {p₀ p : σ × ρ}
  {t : List (ε ⊕ ζ)} {b₀ : τ} {d₀ : τ'} {R : σ → τ → Prop} {Q : ρ → τ' → Prop} {obs : σ → List δ}
  {obs' : ρ → List δ'}

/-- The labels are matched in less. -/
lemma Answers.mono {matched matched' : σ → α → τ → β → Prop} (h : Answers M A b₀ R obs matched)
    (hmatched : ∀ s a b c, R s b → matched s a b c → matched' s a b c) :
    Answers M A b₀ R obs matched' := by
  intro s a s' out b hrun hR hpre hstep
  refine (h s a s' out b hrun hR hpre hstep).imp_right ?_
  rintro ⟨c, b', o, hpre', hs', hc, hrest⟩
  exact ⟨c, b', o, hpre', hs', hmatched s a b c hR hc, hrest⟩

/-- Simulation goes through parallel composition.  If each machine is answered, and whatever the
other side lets pass has an answer that it lets pass, then the composition is answered by the
composition. -/
theorem Run.parallelFollows (h : (M.parallel N sync).Run p₀ t p) (hR : R p₀.1 b₀)
    (hQ : Q p₀.2 d₀) (hobs : obs p₀.1 = []) (hobs' : obs' p₀.2 = [])
    (hleft : Answers M A b₀ R obs fun s a b c =>
      ∀ r d, Q r d → sync s r (.inl a) → sync' b d (.inl c))
    (hright : Answers N B d₀ Q obs' fun r a d c =>
      ∀ s b, R s b → sync s r (.inr a) → sync' b d (.inr c)) :
    ∃ t' b, (A.parallel B sync').Run (b₀, d₀) t' b ∧ (R p.1 b.1 ∧ Q p.2 b.2) ∧
      lefts t' = obs p.1 ∧ rights t' = obs' p.2 := by
  induction h with
  | nil => exact ⟨[], (b₀, d₀), Run.nil, ⟨hR, hQ⟩, hobs.symm, hobs'.symm⟩
  | @snoc t p label p' out _ hpre hs ih =>
    obtain ⟨t', b, hrun, ⟨hRb, hQb⟩, hlefts, hrights⟩ := ih
    rcases parallel_step hpre hs with ⟨a, e, rfl, hpre, hsync, hstep, hsame, -⟩ |
      ⟨a, e, rfl, hpre, hsync, hstep, hsame, -⟩
    · have hb := hrun.left
      rw [hlefts] at hb
      rw [hsame]
      rcases hleft _ _ _ _ _ hb hRb hpre hstep with ⟨hR', hobs'⟩ |
        ⟨c, b', o, hpre', hs', hmatched, hR', hobs'⟩
      · exact ⟨t', b, hrun, ⟨hR', hQb⟩, hlefts.trans hobs'.symm, hrights⟩
      · have hboth : (A.parallel B sync').pre b (.inl c) := ⟨hpre', hmatched _ _ hQb hsync⟩
        have hnext : (A.parallel B sync').step b (.inl c) = some ((b', b.2), o.map .inl) := by
          simp only [parallel, hs', Option.map_some]
        refine ⟨t' ++ o.map .inl, (b', b.2), hrun.snoc hboth hnext, ⟨hR', hQb⟩, ?_, ?_⟩
        · rw [lefts_append, lefts_map_inl, hlefts, hobs']
        · rw [rights_append, rights_map_inl, List.append_nil, hrights]
    · have hb := hrun.right
      rw [hrights] at hb
      rw [hsame]
      rcases hright _ _ _ _ _ hb hQb hpre hstep with ⟨hQ', hobs'⟩ |
        ⟨c, b', o, hpre', hs', hmatched, hQ', hobs'⟩
      · exact ⟨t', b, hrun, ⟨hRb, hQ'⟩, hlefts, hrights.trans hobs'.symm⟩
      · have hboth : (A.parallel B sync').pre b (.inr c) := ⟨hpre', hmatched _ _ hRb hsync⟩
        have hnext : (A.parallel B sync').step b (.inr c) = some ((b.1, b'), o.map .inr) := by
          simp only [parallel, hs', Option.map_some]
        refine ⟨t' ++ o.map .inr, (b.1, b'), hrun.snoc hboth hnext, ⟨hRb, hQ'⟩, ?_, ?_⟩
        · rw [lefts_append, lefts_map_inr, List.append_nil, hlefts]
        · rw [rights_append, rights_map_inr, hrights, hobs']

end ParallelFollows

end Machine

end MuduoServer
