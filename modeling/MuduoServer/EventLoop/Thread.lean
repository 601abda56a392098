import MuduoServer.EventLoop.Basic

/-!
# The thread that owns an event loop

The class `EventLoopThread` of `net/eventloop/EventLoopThread.cc`.  `startLoop` creates the child
thread and waits until `threadFunc` has published the address of its `EventLoop` in `loop_`; the
destructor calls `loop_->quit()` and joins.  The child enters `loop()` after the publication, and
sets `loop_` back to null when `loop()` has returned.

Two moments are dangerous.  A `quit` between the publication and the store `quit_ = false` of
`loop()` is erased by that store, and a destructor that comes after the child has cleared `loop_`
dereferences a null pointer (`quit_forgotten_and_null_deref`).  `StopSafe` excludes these two
moments, and `quit_remembered_run` shows that no other one can go wrong.
-/

namespace MuduoServer

/-- Where the child thread stands in `threadFunc`. -/
inductive ChildPc where
  | notStarted
  | started
  | constructed
  /-- `loop_` points to the loop, and `loop.loop()` is running or about to be called. -/
  | published
  /-- `loop_ = nullptr` has been executed. -/
  | cleared
  | exited
  deriving DecidableEq, Repr

/-- Where the owner stands. -/
inductive OwnerPc where
  | fresh
  /-- In `startLoop`, waiting on `cond_`. -/
  | waiting
  /-- `startLoop` has returned the pointer. -/
  | started
  /-- In the destructor, `loop_` has been read and is not null. -/
  | loaded
  /-- In the destructor, `quit_` has been stored. -/
  | stored
  | joined
  /-- The destructor has dereferenced a null pointer. -/
  | crashed
  deriving DecidableEq, Repr

/-- The members of `EventLoopThread`, the `EventLoop` on the stack of the child, and the program
points of both threads. -/
structure EventLoopThread (τ F : Type*) where
  loop : EventLoop τ F
  /-- `loop_ != nullptr`. -/
  loopPtr : Bool
  child : ChildPc
  owner : OwnerPc

/-- The steps of the owner, the child and every other thread that holds the returned pointer. -/
inductive ThreadAct (τ F : Type*) where
  | startLoop
  | construct
  | publish
  | waitDone
  /-- An access to the `EventLoop`, by the child or by a thread that holds the pointer. -/
  | loop (act : LoopAct τ F)
  | clearLoop
  | destruct
  /-- The destructor reads `loop_`. -/
  | dtorLoad
  /-- The destructor's `quit()`, up to the store to `quit_`. -/
  | dtorQuit
  | join
  deriving DecidableEq, Repr

/-- What an observer of the two threads can see. -/
inductive ThreadEvent (τ F : Type*) where
  | loop (e : LoopEvent τ F)
  /-- The destructor dereferences `loop_`. -/
  | deref (nonNull : Bool)
  deriving DecidableEq, Repr

/-- An access made by a thread other than the loop thread. -/
def LoopAct.external {τ F : Type*} : LoopAct τ F → Bool
  | .push _ _ | .pushWakeup _ | .quit _ | .quitWakeup _ => true
  | _ => false

namespace EventLoopThread

variable {τ F : Type*} [DecidableEq τ]

/-- The constructor. -/
def new : EventLoopThread τ F where
  loop := EventLoop.new
  loopPtr := false
  child := .notStarted
  owner := .fresh

/-- The `EventLoop` on the stack of the child exists. -/
def loopAlive (s : EventLoopThread τ F) : Prop := s.child = .published ∨ s.child = .cleared

instance (s : EventLoopThread τ F) : Decidable s.loopAlive := by
  unfold loopAlive
  infer_instance

/-- When a step can be the next one of its thread; `o` is the thread of the owner. -/
def pre (o : τ) (s : EventLoopThread τ F) : ThreadAct τ F → Prop
  | .startLoop => s.owner = .fresh ∧ s.child = .notStarted
  | .construct => s.child = .started
  | .publish => s.child = .constructed
  | .waitDone => s.owner = .waiting ∧ s.loopPtr = true
  | .loop act =>
    s.loop.pre act ∧
      if act.external then s.loopAlive ∧ s.owner ≠ .fresh ∧ s.owner ≠ .waiting
      else s.child = .published
  | .clearLoop => s.child = .published ∧ s.loop.pc = .returned
  | .destruct => s.child = .cleared
  | .dtorLoad => s.owner = .started
  | .dtorQuit => s.owner = .loaded ∧ s.loop.pre (.quit o)
  | .join => s.owner = .stored ∧ s.child = .exited ∧ o ∉ s.loop.quitting

instance (o : τ) (s : EventLoopThread τ F) (act : ThreadAct τ F) : Decidable (s.pre o act) := by
  unfold pre
  split <;> infer_instance

/-- An access to the `EventLoop` inside this state. -/
def onLoop (s : EventLoopThread τ F) (owner : OwnerPc) (act : LoopAct τ F) :
    Option (EventLoopThread τ F × List (ThreadEvent τ F)) :=
  (s.loop.step act).map fun r => ({ s with loop := r.1, owner := owner }, r.2.map .loop)

/-- The effect of a step.  The destructor's `quit` on a loop that no longer exists is undefined
behaviour and has no result. -/
def step (o : τ) (s : EventLoopThread τ F) :
    ThreadAct τ F → Option (EventLoopThread τ F × List (ThreadEvent τ F))
  | .startLoop => some ({ s with owner := .waiting, child := .started }, [])
  | .construct => some ({ s with loop := EventLoop.new, child := .constructed }, [])
  | .publish => some ({ s with loopPtr := true, child := .published }, [])
  | .waitDone => some ({ s with owner := .started }, [])
  | .loop act => s.onLoop s.owner act
  | .clearLoop => some ({ s with loopPtr := false, child := .cleared }, [])
  | .destruct => some ({ s with child := .exited }, [])
  | .dtorLoad =>
    some ({ s with owner := if s.loopPtr then .loaded else .crashed }, [.deref s.loopPtr])
  | .dtorQuit => if s.loopAlive then s.onLoop .stored (.quit o) else none
  | .join => some ({ s with owner := .joined }, [])

end EventLoopThread

/-- All interleavings of the owner `o` with the child and with every holder of the pointer. -/
def threadMachine {τ : Type*} (F : Type*) [DecidableEq τ] (o : τ) :
    Machine (EventLoopThread τ F) (ThreadAct τ F) (ThreadEvent τ F) where
  pre s act := s.pre o act
  step s act := s.step o act

instance {τ F : Type*} [DecidableEq τ] (o : τ) (s : EventLoopThread τ F) (act : ThreadAct τ F) :
    Decidable ((threadMachine F o).pre s act) :=
  inferInstanceAs (Decidable (s.pre o act))

/-- Once `quit()` has been executed, every later evaluation of the `while` condition sees it. -/
def QuitRemembered {τ F : Type*} (t : List (ThreadEvent τ F)) : Prop :=
  ∀ l r, t = l ++ .loop .quitStored :: r → ∀ b, .loop (.tested b) ∈ r → b = true

/-- Whenever the destructor dereferences `loop_`, it is not null. -/
def DerefNonNull {τ F : Type*} (t : List (ThreadEvent τ F)) : Prop :=
  ∀ b, .deref b ∈ t → b = true

namespace EventLoopThread

variable {τ F : Type*} [DecidableEq τ] {o : τ} {s s' : EventLoopThread τ F}
  {t out : List (ThreadEvent τ F)} {act : ThreadAct τ F}

/-- `loop()` has passed its store `quit_ = false`. -/
def Cleared (s : EventLoopThread τ F) : Prop := s.loop.pc ≠ .outside ∧ s.loop.pc ≠ .entered

instance (s : EventLoopThread τ F) : Decidable s.Cleared := by
  unfold Cleared
  infer_instance

/-- Every `quit` comes after `loop()` has stored `quit_ = false`, and the destructor begins before
`threadFunc` sets `loop_` back to null. -/
def StopSafe (s : EventLoopThread τ F) : ThreadAct τ F → Prop
  | .loop (.quit _) => s.Cleared
  | .dtorQuit => s.Cleared
  | .dtorLoad => s.child ≠ .cleared ∧ s.child ≠ .exited
  | _ => True

instance (s : EventLoopThread τ F) (act : ThreadAct τ F) : Decidable (s.StopSafe act) := by
  unfold StopSafe
  split <;> infer_instance

/-- What an access to the loop does to the whole state. -/
lemma exists_of_onLoop {w : OwnerPc} {a : LoopAct τ F} (h : s.onLoop w a = some (s', out)) :
    ∃ l' es, s.loop.step a = some (l', es) ∧ s' = { s with loop := l', owner := w } ∧
      out = es.map .loop := by
  simp only [onLoop, Option.map_eq_some_iff, Prod.mk.injEq] at h
  obtain ⟨⟨l', es⟩, hl, rfl, rfl⟩ := h
  exact ⟨l', es, hl, rfl, rfl⟩

/-! ### The request is remembered -/

/-- `threadFunc` has published the loop. -/
def Published (s : EventLoopThread τ F) : Prop :=
  s.child = .published ∨ s.child = .cleared ∨ s.child = .exited

/-- A request has been made and nothing will erase it any more. -/
structure Requested (s : EventLoopThread τ F) : Prop where
  quit : s.loop.quit = true
  cleared : s.Cleared
  published : s.Published

/-- An access to a loop that is past its store keeps a pending request, and the `while` condition
tested meanwhile is true. -/
lemma quit_kept {l l' : EventLoop τ F} {a : LoopAct τ F} {es : List (LoopEvent τ F)}
    (hquit : l.quit = true) (hout : l.pc ≠ .outside) (hent : l.pc ≠ .entered) (hpre : l.pre a)
    (hstep : l.step a = some (l', es)) :
    l'.quit = true ∧ l'.pc ≠ .outside ∧ l'.pc ≠ .entered ∧ LoopEvent.tested false ∉ es := by
  cases a with
  | enter => exact absurd hpre hout
  | clearQuit => exact absurd hpre hent
  | test =>
    simp only [EventLoop.step, hquit, if_true, Option.some.injEq, Prod.mk.injEq] at hstep
    obtain ⟨rfl, rfl⟩ := hstep
    simp
  | call =>
    simp only [EventLoop.step] at hstep
    split at hstep <;> cases hstep <;> simp [hquit, hout, hent]
  | _ =>
    cases hstep
    simp [hquit, hout, hent, EventLoop.pushBack, EventLoop.wakeup]

/-- An access that stores `quit_` emits that event alone. -/
lemma quit_of_quitStored {l l' : EventLoop τ F} {a : LoopAct τ F} {es : List (LoopEvent τ F)}
    (hstep : l.step a = some (l', es)) (hes : LoopEvent.quitStored ∈ es) :
    es = [.quitStored] ∧ l'.quit = true ∧ l'.pc = l.pc ∧ (a = .selfQuit ∨ ∃ b, a = .quit b) := by
  cases a with
  | selfQuit =>
    cases hstep
    exact ⟨rfl, rfl, rfl, Or.inl rfl⟩
  | quit b =>
    cases hstep
    exact ⟨rfl, rfl, rfl, Or.inr ⟨b, rfl⟩⟩
  | enter | test | call =>
    simp only [EventLoop.step] at hstep
    split at hstep <;> cases hstep <;> simp at hes
  | _ =>
    cases hstep
    simp at hes

/-- An access to the loop inside a thread with a pending request. -/
lemma Requested.onLoop {w : OwnerPc} {a : LoopAct τ F} (h : s.Requested) (hpre : s.loop.pre a)
    (hstep : s.onLoop w a = some (s', out)) :
    s'.Requested ∧ ThreadEvent.loop (.tested false) ∉ out := by
  obtain ⟨l', es, hl, rfl, rfl⟩ := exists_of_onLoop hstep
  obtain ⟨hquit, hout, hent, hnot⟩ := quit_kept h.quit h.cleared.1 h.cleared.2 hpre hl
  refine ⟨⟨hquit, ⟨hout, hent⟩, h.published⟩, ?_⟩
  simpa using hnot

/-- The step lemma for a pending request: it stays pending, and the `while` condition is not found
false. -/
theorem Requested.step (h : s.Requested) (hpre : s.pre o act)
    (hstep : s.step o act = some (s', out)) :
    s'.Requested ∧ ThreadEvent.loop (.tested false) ∉ out := by
  have hpub := h.published
  cases act with
  | startLoop =>
    obtain ⟨-, hchild⟩ := hpre
    simp [Published, hchild] at hpub
  | construct =>
    have hchild : s.child = .started := hpre
    simp [Published, hchild] at hpub
  | publish =>
    have hchild : s.child = .constructed := hpre
    simp [Published, hchild] at hpub
  | waitDone =>
    cases hstep
    exact ⟨⟨h.quit, h.cleared, hpub⟩, by simp⟩
  | loop a => exact h.onLoop hpre.1 hstep
  | clearLoop =>
    cases hstep
    exact ⟨⟨h.quit, h.cleared, by simp [Published]⟩, by simp⟩
  | destruct =>
    cases hstep
    exact ⟨⟨h.quit, h.cleared, by simp [Published]⟩, by simp⟩
  | dtorLoad =>
    cases hstep
    exact ⟨⟨h.quit, h.cleared, hpub⟩, by simp⟩
  | dtorQuit =>
    simp only [EventLoopThread.step] at hstep
    split at hstep
    · exact h.onLoop hpre.2 hstep
    · cases hstep
  | join =>
    cases hstep
    exact ⟨⟨h.quit, h.cleared, hpub⟩, by simp⟩

/-- Under the condition, a step that stores `quit_` leaves the request pending, and its events end
with the store. -/
theorem Requested.of_quitStored (hpre : s.pre o act) (hsafe : s.StopSafe act)
    (hstep : s.step o act = some (s', out)) {l r : List (ThreadEvent τ F)}
    (hout : out = l ++ .loop .quitStored :: r) : s'.Requested ∧ r = [] := by
  -- only an access to the loop stores `quit_`: what remains is that it was made late enough
  have honLoop : ∀ {w : OwnerPc} {a : LoopAct τ F}, s.onLoop w a = some (s', out) → s.Published →
      (a = .selfQuit ∨ (∃ b, a = .quit b) → s.Cleared) → s'.Requested ∧ r = [] := by
    intro w a hon hpub hclear
    obtain ⟨l', es, hl, rfl, hes⟩ := exists_of_onLoop hon
    rw [hout] at hes
    have hmem : LoopEvent.quitStored ∈ es := by
      have : ThreadEvent.loop LoopEvent.quitStored ∈ es.map ThreadEvent.loop := by simp [← hes]
      simpa using this
    obtain ⟨rfl, hquit, hpc, hact⟩ := quit_of_quitStored hl hmem
    have hcleared := hclear hact
    refine ⟨⟨hquit, ⟨?_, ?_⟩, hpub⟩, ?_⟩
    · simpa [hpc] using hcleared.1
    · simpa [hpc] using hcleared.2
    · have hlen := congrArg List.length hes
      simp only [List.map_cons, List.map_nil, List.length_append, List.length_cons,
        List.length_nil] at hlen
      exact List.eq_nil_of_length_eq_zero (by omega)
  cases act with
  | loop a =>
    obtain ⟨hl, hwho⟩ := hpre
    refine honLoop hstep ?_ ?_
    · split at hwho
      · rcases hwho.1 with hp | hp <;> simp [Published, hp]
      · simp [Published, hwho]
    · rintro (rfl | ⟨b, rfl⟩)
      · obtain ⟨huser, -⟩ := hl
        rcases huser with hpc | ⟨hpc, -⟩ <;> simp [Cleared, hpc]
      · exact hsafe
  | dtorQuit =>
    simp only [EventLoopThread.step] at hstep
    split at hstep
    · next halive =>
      refine honLoop hstep ?_ fun _ => hsafe
      rcases halive with hp | hp <;> simp [Published, hp]
    · cases hstep
  | dtorLoad =>
    cases hstep
    simp [List.singleton_eq_append_iff] at hout
  | _ =>
    cases hstep
    simp at hout

/-! ### The pointer -/

/-- `loop_` is not null exactly between the publication and the last store of `threadFunc`, and the
owner leaves `startLoop` only after the publication. -/
structure PtrInv (s : EventLoopThread τ F) : Prop where
  ptr_of_published : s.child = .published → s.loopPtr = true
  published_of_ptr : s.loopPtr = true → s.child = .published
  published_of_owner : s.owner ≠ .fresh → s.owner ≠ .waiting → s.Published

omit [DecidableEq τ] in
/-- The invariant holds of a new thread. -/
lemma PtrInv.new : (EventLoopThread.new : EventLoopThread τ F).PtrInv := by
  constructor <;> simp [EventLoopThread.new]

/-- The step lemma: the pointer invariant is kept. -/
theorem PtrInv.step (h : s.PtrInv) (hpre : s.pre o act) (hstep : s.step o act = some (s', out)) :
    s'.PtrInv := by
  obtain ⟨hptr, hpub, howner⟩ := h
  cases act with
  | startLoop =>
    obtain ⟨hfresh, hchild⟩ := hpre
    cases hstep
    constructor <;> simp_all
  | construct =>
    have hchild : s.child = .started := hpre
    cases hstep
    constructor <;> simp_all [Published]
  | publish =>
    cases hstep
    constructor <;> simp [Published]
  | waitDone =>
    obtain ⟨-, hnonnull⟩ := hpre
    cases hstep
    exact ⟨hptr, hpub, fun _ _ => Or.inl (hpub hnonnull)⟩
  | loop a =>
    obtain ⟨_, _, -, rfl, -⟩ := exists_of_onLoop hstep
    exact ⟨hptr, hpub, howner⟩
  | clearLoop =>
    cases hstep
    constructor <;> simp [Published]
  | destruct =>
    have hchild : s.child = .cleared := hpre
    cases hstep
    constructor <;> simp_all [Published]
  | dtorLoad =>
    have hstarted : s.owner = .started := hpre
    cases hstep
    exact ⟨hptr, hpub, fun _ _ => howner (by simp [hstarted]) (by simp [hstarted])⟩
  | dtorQuit =>
    obtain ⟨hloaded, -⟩ := hpre
    simp only [EventLoopThread.step] at hstep
    split at hstep
    · obtain ⟨_, _, -, rfl, -⟩ := exists_of_onLoop hstep
      exact ⟨hptr, hpub, fun _ _ => howner (by simp [hloaded]) (by simp [hloaded])⟩
    · cases hstep
  | join =>
    obtain ⟨-, hchild, -⟩ := hpre
    cases hstep
    exact ⟨hptr, hpub, fun _ _ => by simp [Published, hchild]⟩

/-- Under the condition, a dereference of `loop_` finds it set. -/
lemma PtrInv.deref_nonNull (h : s.PtrInv) (hpre : s.pre o act) (hsafe : s.StopSafe act)
    (hstep : s.step o act = some (s', out)) {b : Bool} (hb : ThreadEvent.deref b ∈ out) :
    b = true := by
  cases act with
  | dtorLoad =>
    have hstarted : s.owner = .started := hpre
    have hpub := h.published_of_owner (by simp [hstarted]) (by simp [hstarted])
    have hchild : s.child = .published := by
      rcases hpub with hp | hp | hp
      · exact hp
      · exact absurd hp hsafe.1
      · exact absurd hp hsafe.2
    cases hstep
    simp only [List.mem_singleton, ThreadEvent.deref.injEq] at hb
    rw [hb, h.ptr_of_published hchild]
  | loop a =>
    obtain ⟨_, _, -, -, rfl⟩ := exists_of_onLoop hstep
    simp at hb
  | dtorQuit =>
    simp only [EventLoopThread.step] at hstep
    split at hstep
    · obtain ⟨_, _, -, -, rfl⟩ := exists_of_onLoop hstep
      simp at hb
    · cases hstep
  | _ =>
    cases hstep
    simp at hb

/-- Along every interleaving whose steps meet the condition, a request to quit is seen by every
later test of the `while` condition, and the destructor never dereferences a null pointer. -/
theorem quit_remembered_run (h : ((threadMachine F o).restrict StopSafe).Run new t s) :
    QuitRemembered t ∧ DerefNonNull t := by
  constructor
  · intro l r hlr b hb
    have honce := h.once (fun _ => True) Requested (.loop .quitStored)
      (fun e => e = .loop (.tested false))
      (fun t s a s' out _ hpre hstep l r hout _ => by
        obtain ⟨hreq, rfl⟩ := Requested.of_quitStored hpre.1 hpre.2 hstep hout
        exact ⟨hreq, by simp⟩)
      (fun t s a s' out _ hreq hpre hstep => by
        obtain ⟨hreq', hnot⟩ := hreq.step hpre.1 hstep
        exact ⟨hreq', fun e he hbad => hnot (hbad ▸ he)⟩)
    have hnot := (honce l r hlr trivial).2 _ hb
    cases b with
    | true => rfl
    | false => exact absurd rfl hnot
  · have hinv : DerefNonNull t ∧ s.PtrInv := by
      refine h.invariant (fun t s => DerefNonNull t ∧ s.PtrInv)
        ⟨by simp [DerefNonNull], PtrInv.new⟩ ?_
      intro t s a s' out hI hpre hstep
      refine ⟨fun b hb => ?_, hI.2.step hpre.1 hstep⟩
      rcases List.mem_append.mp hb with hb | hb
      · exact hI.1 b hb
      · exact hI.2.deref_nonNull hpre.1 hpre.2 hstep hb
    exact hinv.1

/-- The owner starts the loop, destroys the object while the child waits in `poll`, and joins. -/
theorem quit_remembered_run_join :
    ∃ (t : List (ThreadEvent ℕ ℕ)) (s : EventLoopThread ℕ ℕ),
      ((threadMachine ℕ 0).restrict StopSafe).Run new t s ∧ s.owner = .joined ∧
        .loop (.tested true) ∈ t ∧ QuitRemembered t ∧ DerefNonNull t := by
  obtain ⟨t, s, hrun, hjoin, htest⟩ :=
    ((threadMachine ℕ 0).restrict StopSafe).exists_run_of_exec new
      [.startLoop, .construct, .publish, .waitDone, .loop .enter, .loop .clearQuit, .loop .test,
        .dtorLoad, .dtorQuit, .loop (.quitWakeup 0), .loop .poll, .loop .handleRead,
        .loop .endDispatch, .loop .setCalling, .loop .swap, .loop .endFunctors, .loop .test,
        .clearLoop, .destruct, .join]
      (fun s t => s.owner = .joined ∧ .loop (.tested true) ∈ t) (by decide)
  exact ⟨t, s, hrun, hjoin, htest, quit_remembered_run hrun⟩

/-- Without the condition both parts fail.  The destructor runs right after `startLoop`, before the
child has entered `loop()`: the `while` condition is found false afterwards.  Or somebody quits the
returned loop first: the destructor then finds `loop_` null. -/
theorem quit_forgotten_and_null_deref :
    (¬ ∀ (t : List (ThreadEvent ℕ ℕ)) (s : EventLoopThread ℕ ℕ),
        (threadMachine ℕ 0).Run new t s → QuitRemembered t) ∧
      ¬ ∀ (t : List (ThreadEvent ℕ ℕ)) (s : EventLoopThread ℕ ℕ),
        (threadMachine ℕ 0).Run new t s → DerefNonNull t := by
  constructor
  · intro hall
    obtain ⟨t, s, hrun, ht⟩ := (threadMachine ℕ 0).exists_run_of_exec new
      [.startLoop, .construct, .publish, .waitDone, .dtorLoad, .dtorQuit, .loop (.quitWakeup 0),
        .loop .enter, .loop .clearQuit, .loop .test]
      (fun _ t => t = [.deref true, .loop .quitStored, .loop (.tested false)]) (by decide)
    subst ht
    have hfalse := hall _ s hrun [.deref true] [.loop (.tested false)] rfl false (by simp)
    exact Bool.false_ne_true hfalse
  · intro hall
    obtain ⟨t, s, hrun, ht⟩ := (threadMachine ℕ 0).exists_run_of_exec new
      [.startLoop, .construct, .publish, .waitDone, .loop .enter, .loop .clearQuit,
        .loop (.quit 1), .loop .test, .clearLoop, .dtorLoad]
      (fun _ t => .deref false ∈ t) (by decide)
    exact Bool.false_ne_true (hall t s hrun false ht)

end EventLoopThread

end MuduoServer
