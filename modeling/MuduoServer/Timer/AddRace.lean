import MuduoServer.Timer.Lifetime

/-!
# `addTimer` on another thread

Off the loop thread `addTimer` takes three steps: it creates the `Timer`, it posts `addTimerInLoop`,
and it reads the sequence number through the pointer to build the `TimerId` it returns.  Between the
last two the timer belongs to the loop thread, which may insert it, let it expire, run it and delete
it.  Then the read hits a freed timer, or a later timer at the same address.

`addRaceMachine` interleaves any number of such calls with the steps of the loop.  The branches of
`cancelInLoop` and `reset` that delete are the only ones that can do harm: in every run in which
they are not taken for a timer whose `addTimer` is still under way, each read finds the timer that
the call created.
-/

namespace MuduoServer

/-- How far a call of `addTimer` has got, with the identity given to its timer at creation. -/
inductive AddCall where
  | idle
  /-- `new Timer` has returned. -/
  | created (id : TimerId)
  /-- `loop_->runInLoop(...)` has posted the task. -/
  | posted (id : TimerId)
  deriving DecidableEq

/-- The timer of a call that is under way. -/
def AddCall.timer : AddCall → Option TimerId
  | .idle => none
  | .created id | .posted id => some id

/-- A timer queue, and the calls of `addTimer` on threads named by `τ`. -/
structure AddRace (τ : Type) where
  loop : TimerLoop
  calls : τ → AddCall

/-- The steps of the threads. -/
inductive AddRaceAct (τ : Type) where
  /-- `new Timer(cb, when, interval)`. -/
  | create (c : τ) (p : Ptr) (when_ : Timestamp) (interval : Interval)
  /-- `loop_->runInLoop(...)`, not on the loop thread. -/
  | post (c : τ)
  /-- `return TimerId(timer, timer->getsequence())`. -/
  | read (c : τ)
  /-- A step of the loop thread, or of `cancel` on another thread. -/
  | loop (a : TimerAct)

/-- `addTimer` has returned `id`, and its timer was created as `created`. -/
inductive AddRaceEvent (τ : Type) where
  | returned (c : τ) (created id : TimerId)
  deriving DecidableEq

/-- `addTimer` on another thread is not one step here. -/
def TimerAct.isPostAdd : TimerAct → Bool
  | .postAddTimer _ _ _ => true
  | _ => false

namespace AddRace

variable {τ : Type}

/-- A new queue, and no call. -/
def new (clk : Timestamp) : AddRace τ := ⟨.new clk, fun _ => .idle⟩

/-- When a step can be taken. -/
def pre (s : AddRace τ) : AddRaceAct τ → Prop
  | .create c p _ _ => s.calls c = .idle ∧ s.loop.Fresh p
  | .post c => ∃ id ∈ (s.calls c).timer, s.calls c = .created id
  | .read c => ∃ id ∈ (s.calls c).timer, s.calls c = .posted id
  | .loop a => a.isPostAdd = false ∧ s.loop.pre a

instance (s : AddRace τ) (act : AddRaceAct τ) : Decidable (s.pre act) := by
  unfold pre
  split <;> infer_instance

variable [DecidableEq τ]

/-- The effect of a step, as the code computes it; a read through the pointer to a freed timer shows
as `none`. -/
def step (s : AddRace τ) : AddRaceAct τ → Option (AddRace τ × List (AddRaceEvent τ))
  | .create c p when_ interval =>
    some ({ loop := { s.loop with queue := s.loop.queue.newTimer p when_ interval }
            calls := Function.update s.calls c (.created ⟨p, s.loop.queue.numCreated⟩) }, [])
  | .post c =>
    match s.calls c with
    | .created id =>
      some ({ loop := { s.loop with tasks := s.loop.tasks ++ [.addTimerInLoop id.timer] }
              calls := Function.update s.calls c (.posted id) }, [])
    | _ => some (s, [])
  | .read c =>
    match s.calls c with
    | .posted id => do
      let t ← s.loop.queue.heap id.timer
      some ({ s with calls := Function.update s.calls c .idle },
        [.returned c id ⟨id.timer, t.sequence⟩])
    | _ => some (s, [])
  | .loop a => do
    let r ← s.loop.step a
    some ({ s with loop := r.1 }, [])

end AddRace

/-- Every interleaving of calls of `addTimer` with the loop thread. -/
def addRaceMachine {τ : Type} [DecidableEq τ] :
    Machine (AddRace τ) (AddRaceAct τ) (AddRaceEvent τ) where
  pre s act := s.pre act
  step s act := s.step act

instance {τ : Type} [DecidableEq τ] (s : AddRace τ) (act : AddRaceAct τ) :
    Decidable (addRaceMachine.pre s act) :=
  inferInstanceAs (Decidable (s.pre act))

/-! ### Which operations delete -/

namespace TimerQueue

variable {q : TimerQueue} {p : Ptr} {id : TimerId} {now clk : Timestamp}

/-- `insert` writes no timer. -/
lemma insert_heap {r : TimerQueue × Bool} (h : q.insert p = some r) :
    r.1.heap = q.heap ∧ r.1.cancelingTimers = q.cancelingTimers := by
  simp only [insert, Option.bind_eq_bind, Option.bind_eq_some_iff] at h
  obtain ⟨-, -, t, -, h⟩ := h
  obtain ⟨-, h⟩ := Option.ite_none_right_eq_some.mp h
  obtain ⟨-, h⟩ := Option.ite_none_right_eq_some.mp h
  obtain ⟨-, -, h⟩ := Option.bind_eq_some_iff.mp h
  obtain rfl := Option.some.inj h
  exact ⟨rfl, rfl⟩

/-- `addTimerInLoop` writes no timer. -/
lemma addTimerInLoop_heap {r : TimerQueue × List Timespec} (h : q.addTimerInLoop p clk = some r) :
    r.1.heap = q.heap := by
  simp only [addTimerInLoop, Option.bind_eq_bind, Option.bind_eq_some_iff] at h
  obtain ⟨r', hr', h⟩ := h
  have hheap := (insert_heap hr').1
  by_cases hchanged : r'.2 = true
  · rw [if_pos hchanged, Option.bind_eq_some_iff] at h
    obtain ⟨t, -, h⟩ := h
    obtain rfl := Option.some.inj h
    exact hheap
  · rw [if_neg hchanged] at h
    obtain rfl := Option.some.inj h
    exact hheap

/-- `getExpired` writes no timer. -/
lemma getExpired_heap {r : TimerQueue × List Entry} (h : q.getExpired now = some r) :
    r.1.heap = q.heap := by
  simp only [getExpired, Option.bind_eq_bind, Option.bind_eq_some_iff] at h
  obtain ⟨-, -, h⟩ := h
  obtain ⟨-, h⟩ := Option.ite_none_right_eq_some.mp h
  obtain ⟨active, -, h⟩ := Option.bind_eq_some_iff.mp h
  obtain ⟨-, -, h⟩ := Option.bind_eq_some_iff.mp h
  obtain rfl := Option.some.inj h
  rfl

/-- The first half of `handleRead` writes no timer. -/
lemma beginHandleRead_heap {r : TimerQueue × List Entry} (h : q.beginHandleRead now = some r) :
    r.1.heap = q.heap := by
  obtain ⟨r', hr', h⟩ := Option.bind_eq_some_iff.mp h
  have hheap := getExpired_heap hr'
  obtain rfl := Option.some.inj h
  exact hheap

/-- `cancelInLoop` deletes the timer of an active identity, and no other. -/
lemma cancelInLoop_idAt {q' : TimerQueue} {id' : TimerId} (h : q.cancelInLoop id' = some q')
    (hid : id' ∈ q.activeTimers → id'.timer ≠ id.timer) : q'.idAt id.timer = q.idAt id.timer := by
  simp only [cancelInLoop, Option.bind_eq_bind, Option.bind_eq_some_iff] at h
  obtain ⟨-, -, h⟩ := h
  have hlast : ∀ {q₁ : TimerQueue}, (q₁.checkSizes.bind fun _ => some q₁) = some q' → q' = q₁ := by
    intro q₁ h₁
    obtain ⟨-, -, h₁⟩ := Option.bind_eq_some_iff.mp h₁
    exact (Option.some.inj h₁).symm
  by_cases hactive : id' ∈ q.activeTimers
  · rw [if_pos hactive] at h
    obtain ⟨t, -, h⟩ := Option.bind_eq_some_iff.mp h
    by_cases herase : (q.timers.erase ⟨t.expiration, id'.timer⟩).2 = 1
    · rw [if_pos herase, Option.bind_some] at h
      have hheap := setHeap_of_ne q none (hid hactive).symm
      rw [hlast h]
      simp only [idAt, hheap]
    · rw [if_neg herase] at h
      cases h
  · rw [if_neg hactive] at h
    by_cases hcalling : q.callingExpiredTimers = true
    · rw [if_pos hcalling, Option.bind_some] at h
      rw [hlast h]
      rfl
    · rw [if_neg hcalling, Option.bind_some] at h
      rw [hlast h]

/-- A timer that `reset` puts back: a repeating one that was not cancelled during the batch. -/
def PutBack (q : TimerQueue) (id : TimerId) : Prop :=
  ∀ t ∈ q.heap id.timer, t.repeated = true ∧ id ∉ q.cancelingTimers

instance (q : TimerQueue) (id : TimerId) : Decidable (q.PutBack id) := by
  unfold PutBack
  infer_instance

/-- The loop of `reset` keeps a timer that it puts back, and those that are not in the batch. -/
lemma resetTimers_idAt {q' : TimerQueue} {es : List Entry} (h : resetTimers now q es = some q')
    (halive : q.idAt id.timer = some id)
    (hput : id.timer ∈ es.map Entry.timer → q.PutBack id) : q'.idAt id.timer = some id := by
  induction es generalizing q with
  | nil =>
    obtain rfl := Option.some.inj h
    exact halive
  | cons e es ih =>
    simp only [resetTimers, Option.bind_eq_bind, Option.bind_eq_some_iff] at h
    obtain ⟨t, ht, h⟩ := h
    by_cases htimer : e.timer = id.timer
    · obtain ⟨t', ht', hseq⟩ := idAt_eq_some_iff.mp halive
      rw [htimer] at ht h
      obtain rfl : t = t' := Option.some.inj (ht.symm.trans ht')
      have hkeep := hput (htimer ▸ List.mem_cons_self) t ht
      have hid : (⟨id.timer, t.sequence⟩ : TimerId) = id := TimerId.ext rfl hseq
      rw [hid, if_pos hkeep, Option.bind_eq_some_iff] at h
      obtain ⟨r, hr, h⟩ := h
      obtain ⟨hheap, hcanceling⟩ := insert_heap hr
      have hself : r.1.heap id.timer = some (t.restart now) := by
        rw [hheap]
        exact setHeap_self q _ _
      refine ih h (idAt_eq_some_iff.mpr ⟨_, hself, by rw [Timer.restart_sequence, hseq]⟩) ?_
      intro _ t' ht'
      obtain rfl := Option.some.inj (hself.symm.trans ht')
      rw [hcanceling]
      exact ⟨by rw [Timer.repeated, Timer.restart_interval]; exact hkeep.1, hkeep.2⟩
    · have hne : id.timer ≠ e.timer := fun heq => htimer heq.symm
      -- one round at another address
      have hround : ∀ {q₁ : TimerQueue} {u : Option Timer},
          q₁.heap = (q.setHeap e.timer u).heap → q₁.cancelingTimers = q.cancelingTimers →
          resetTimers now q₁ es = some q' → q'.idAt id.timer = some id := by
        intro q₁ u hheap hcanceling h
        have hsame : q₁.heap id.timer = q.heap id.timer := by
          rw [hheap]
          exact setHeap_of_ne q u hne
        refine ih h ?_ fun hmem => ?_
        · unfold idAt
          rw [hsame]
          exact halive
        · unfold PutBack
          rw [hsame, hcanceling]
          exact hput (List.mem_cons_of_mem _ hmem)
      by_cases hkeep : t.repeated = true ∧ ⟨e.timer, t.sequence⟩ ∉ q.cancelingTimers
      · rw [if_pos hkeep, Option.bind_eq_some_iff] at h
        obtain ⟨r, hr, h⟩ := h
        obtain ⟨hheap, hcanceling⟩ := insert_heap hr
        exact hround hheap hcanceling h
      · rw [if_neg hkeep] at h
        exact hround (u := none) rfl rfl h

/-- The second half of `handleRead` keeps a timer that `reset` puts back, and those that are not in
the batch. -/
lemma endHandleRead_idAt {r : TimerQueue × List Timespec} {es : List Entry}
    (h : q.endHandleRead es now clk = some r) (halive : q.idAt id.timer = some id)
    (hput : id.timer ∈ es.map Entry.timer → q.PutBack id) : r.1.idAt id.timer = some id := by
  simp only [endHandleRead, reset, Option.bind_eq_bind, Option.bind_eq_some_iff] at h
  obtain ⟨q', hq', h⟩ := h
  have hidAt : q'.idAt id.timer = some id := resetTimers_idAt hq' halive hput
  -- setting the alarm, if at all, is all that follows
  have hlast : ∀ nextExpire : Timestamp, (if nextExpire.valid then
      some (q'.resetTimerfd nextExpire clk) else some (q', [])) = some r →
      r.1.idAt id.timer = some id := by
    intro nextExpire hr
    by_cases hvalid : nextExpire.valid
    · rw [if_pos hvalid] at hr
      obtain rfl := Option.some.inj hr
      exact hidAt
    · rw [if_neg hvalid] at hr
      obtain rfl := Option.some.inj hr
      exact hidAt
  cases hfirst : q'.timers.first with
  | none =>
    rw [hfirst] at h
    exact hlast Timestamp.invalid h
  | some e =>
    rw [hfirst] at h
    obtain ⟨nextExpire, -, h⟩ := Option.bind_eq_some_iff.mp h
    exact hlast nextExpire h

end TimerQueue

/-! ### Steps that leave a timer alive -/

namespace TimerLoop

open TimerQueue

variable {s s' : TimerLoop} {act : TimerAct} {out : List TimerEvent} {id : TimerId}

/-- The branches of the step that delete are not taken for the timer `id`: `cancelInLoop` does not
find it among the active timers, and `reset` puts it back if it is in the batch. -/
def Spares (s : TimerLoop) (id : TimerId) : TimerAct → Prop
  | .finish _ => ∀ b ∈ s.batch, id.timer ∈ b.expired.map Entry.timer → s.queue.PutBack id
  | act => ∀ id' ∈ s.cancels act, id' ∈ s.queue.activeTimers → id'.timer ≠ id.timer

instance (s : TimerLoop) (id : TimerId) (act : TimerAct) : Decidable (s.Spares id act) := by
  apply TimerAct.casesOn (motive := fun act => Decidable (s.Spares id act)) act <;>
    intros <;> unfold Spares <;> infer_instance

/-- A step that takes none of these branches for a living timer leaves it alive. -/
theorem Alive.step (halive : s.Alive id) (hpre : s.pre act) (hspares : s.Spares id act)
    (hstep : s.step act = some (s', out)) : s'.Alive id := by
  cases act with
  | addTimer p w i clk =>
    simp only [TimerLoop.step, Option.bind_eq_bind, Option.bind_eq_some_iff] at hstep
    obtain ⟨r, hr, hstep⟩ := hstep
    obtain ⟨rfl, -⟩ := Prod.mk.inj (Option.some.inj hstep)
    exact (alive_newTimer hpre.1 (addTimerInLoop_heap hr)).mpr (Or.inr halive)
  | postAddTimer p w i =>
    obtain ⟨rfl, -⟩ := Prod.mk.inj (Option.some.inj hstep)
    exact (alive_newTimer hpre rfl).mpr (Or.inr halive)
  | cancel id' =>
    simp only [TimerLoop.step, Option.bind_eq_bind, Option.bind_eq_some_iff] at hstep
    obtain ⟨q, hq, hstep⟩ := hstep
    obtain ⟨rfl, -⟩ := Prod.mk.inj (Option.some.inj hstep)
    exact (cancelInLoop_idAt hq (hspares id' rfl)).trans halive
  | postCancel id' =>
    obtain ⟨rfl, -⟩ := Prod.mk.inj (Option.some.inj hstep)
    exact halive
  | runTask clk =>
    obtain ⟨task, tasks, htasks⟩ := List.exists_cons_of_ne_nil hpre.2
    cases task with
    | addTimerInLoop p =>
      simp only [TimerLoop.step, htasks, Option.bind_eq_bind, Option.bind_eq_some_iff] at hstep
      obtain ⟨r, hr, hstep⟩ := hstep
      obtain ⟨rfl, -⟩ := Prod.mk.inj (Option.some.inj hstep)
      have hheap := addTimerInLoop_heap hr
      unfold Alive idAt
      rw [hheap]
      exact halive
    | cancelInLoop id' =>
      simp only [TimerLoop.step, htasks, Option.bind_eq_bind, Option.bind_eq_some_iff] at hstep
      obtain ⟨q, hq, hstep⟩ := hstep
      obtain ⟨rfl, -⟩ := Prod.mk.inj (Option.some.inj hstep)
      refine (cancelInLoop_idAt hq (hspares id' ?_)).trans halive
      simp [cancels, htasks]
  | handleRead now =>
    simp only [TimerLoop.step, Option.bind_eq_bind, Option.bind_eq_some_iff] at hstep
    obtain ⟨r, hr, hstep⟩ := hstep
    obtain ⟨rfl, -⟩ := Prod.mk.inj (Option.some.inj hstep)
    have hheap := beginHandleRead_heap hr
    unfold Alive idAt
    rw [hheap]
    exact halive
  | runCallback =>
    obtain ⟨b, hb, hne⟩ := hpre
    obtain ⟨e, rest, hrest⟩ := List.exists_cons_of_ne_nil hne
    simp only [TimerLoop.step, Option.mem_def.mp hb, hrest, Option.bind_eq_bind,
      Option.bind_eq_some_iff] at hstep
    obtain ⟨t, -, hstep⟩ := hstep
    obtain ⟨rfl, -⟩ := Prod.mk.inj (Option.some.inj hstep)
    exact halive
  | finish clk =>
    obtain ⟨b, hb, -⟩ := hpre
    simp only [TimerLoop.step, Option.mem_def.mp hb, Option.bind_eq_bind,
      Option.bind_eq_some_iff] at hstep
    obtain ⟨r, hr, hstep⟩ := hstep
    obtain ⟨rfl, -⟩ := Prod.mk.inj (Option.some.inj hstep)
    exact endHandleRead_idAt hr halive (hspares b hb)

end TimerLoop

namespace AddRace

open TimerLoop

variable {τ : Type} {s s' : AddRace τ} {act : AddRaceAct τ} {t out : List (AddRaceEvent τ)}

/-- The loop thread deletes no timer whose `addTimer` has not returned. -/
def SparesCalls (s : AddRace τ) : AddRaceAct τ → Prop
  | .loop a => ∀ c, ∀ id ∈ (s.calls c).timer, s.loop.Spares id a
  | _ => True

instance [Fintype τ] (s : AddRace τ) (act : AddRaceAct τ) : Decidable (s.SparesCalls act) := by
  unfold SparesCalls
  split <;> infer_instance

/-- The timer of every call under way is alive, and every call that has returned has returned the
identity of the timer it created. -/
structure CallsInv (t : List (AddRaceEvent τ)) (s : AddRace τ) : Prop where
  alive : ∀ c, ∀ id ∈ (s.calls c).timer, s.loop.Alive id
  returned : ∀ c created id, .returned c created id ∈ t → id = created

variable [DecidableEq τ]

/-- A call that moves on, while the timers of the others stay alive. -/
lemma alive_update {calls : τ → AddCall} {l : TimerLoop} {c : τ} {call : AddCall}
    (h : ∀ c, ∀ id ∈ (calls c).timer, l.Alive id) (hcall : ∀ id ∈ call.timer, l.Alive id) :
    ∀ c', ∀ id ∈ (Function.update calls c call c').timer, l.Alive id := by
  intro c' id hid
  by_cases hc : c' = c
  · rw [hc, Function.update_self] at hid
    exact hcall id hid
  · rw [Function.update_of_ne hc] at hid
    exact h c' id hid

/-- A step that spares the calls under way keeps the invariant. -/
theorem CallsInv.step (h : CallsInv t s) (hpre : s.pre act) (hspares : s.SparesCalls act)
    (hstep : s.step act = some (s', out)) : CallsInv (t ++ out) s' := by
  cases act with
  | create c p w i =>
    obtain ⟨rfl, rfl⟩ := Prod.mk.inj (Option.some.inj hstep)
    rw [List.append_nil]
    refine ⟨alive_update (fun c' id hid => ?_) ?_, h.returned⟩
    · exact (alive_newTimer hpre.2 rfl).mpr (Or.inr (h.alive c' id hid))
    · rintro id ⟨⟩
      exact (alive_newTimer hpre.2 rfl).mpr (Or.inl rfl)
  | post c =>
    obtain ⟨id, hid, hcall⟩ := hpre
    simp only [AddRace.step, hcall] at hstep
    obtain ⟨rfl, rfl⟩ := Prod.mk.inj (Option.some.inj hstep)
    rw [List.append_nil]
    refine ⟨alive_update h.alive ?_, h.returned⟩
    rintro id' ⟨⟩
    exact h.alive c id hid
  | read c =>
    obtain ⟨id, hid, hcall⟩ := hpre
    simp only [AddRace.step, hcall, Option.bind_eq_bind, Option.bind_eq_some_iff] at hstep
    obtain ⟨t', ht', hstep⟩ := hstep
    obtain ⟨rfl, rfl⟩ := Prod.mk.inj (Option.some.inj hstep)
    refine ⟨alive_update h.alive nofun, fun c' created id' hmem => ?_⟩
    rcases List.mem_append.mp hmem with hmem | hmem
    · exact h.returned c' created id' hmem
    · rw [List.mem_singleton, AddRaceEvent.returned.injEq] at hmem
      obtain ⟨-, rfl, rfl⟩ := hmem
      have halive := h.alive c created hid
      rw [Alive, TimerQueue.idAt_of_heap ht'] at halive
      exact Option.some.inj halive
  | loop a =>
    simp only [AddRace.step, Option.bind_eq_bind, Option.bind_eq_some_iff] at hstep
    obtain ⟨r, hr, hstep⟩ := hstep
    obtain ⟨rfl, rfl⟩ := Prod.mk.inj (Option.some.inj hstep)
    rw [List.append_nil]
    exact ⟨fun c id hid => (h.alive c id hid).step hpre.2 (hspares c id hid) hr, h.returned⟩

/-- In every run in which the loop thread deletes no timer whose `addTimer` is still under way, the
timer of every posted call is alive, so that its read succeeds and gives the identity assigned at
creation, and every call that has returned has returned that identity. -/
theorem addTimer_returns_created {clk : Timestamp}
    (h : (addRaceMachine.restrict SparesCalls).Run (AddRace.new clk) t s) :
    (∀ c id, s.calls c = .posted id → s.loop.Alive id ∧
      ∃ s', addRaceMachine.step s (.read c) = some (s', [.returned c id id])) ∧
      ∀ c created id, .returned c created id ∈ t → id = created := by
  have hinv : CallsInv t s := by
    refine h.invariant CallsInv ⟨by rintro c id ⟨⟩, by simp⟩ ?_
    intro t s act s' out hinv hpre hstep
    exact hinv.step hpre.1 hpre.2 hstep
  refine ⟨fun c id hcall => ?_, hinv.returned⟩
  have halive : s.loop.Alive id := hinv.alive c id (by rw [hcall]; rfl)
  obtain ⟨t', ht', hseq⟩ := alive_iff.mp halive
  refine ⟨halive, { s with calls := Function.update s.calls c .idle }, ?_⟩
  change s.step (.read c) = _
  simp only [AddRace.step, hcall, ht', hseq, Option.bind_eq_bind, Option.bind_some]

/-- Two threads add a one-shot and a repeating timer; the repeating one fires before its call has
returned. -/
theorem addTimer_returns_created_two :
    ∃ t s, ((addRaceMachine (τ := Bool)).restrict SparesCalls).Run (AddRace.new 1) t s ∧
      (t = [.returned true ⟨1, 0⟩ ⟨1, 0⟩] ∧ s.calls false = .posted ⟨2, 1⟩) ∧
      (s.loop.Alive ⟨2, 1⟩ ∧ ∀ c created id, .returned c created id ∈ t → id = created) := by
  obtain ⟨t, s, hrun, hp⟩ :=
    ((addRaceMachine (τ := Bool)).restrict SparesCalls).exists_run_of_exec (AddRace.new 1)
    [.create true 1 10 oneShot, .post true, .create false 2 11 (every 4), .post false,
      .loop (.runTask 2), .read true, .loop (.runTask 3), .loop (.handleRead 12),
      .loop .runCallback, .loop .runCallback, .loop (.finish 13)]
    (fun s t => t = [.returned true ⟨1, 0⟩ ⟨1, 0⟩] ∧ s.calls false = .posted ⟨2, 1⟩)
    (by decide +kernel)
  have hreturns := addTimer_returns_created hrun
  exact ⟨t, s, hrun, hp, (hreturns.1 false _ hp.2).1, hreturns.2⟩

/-- The loop thread can be faster than `addTimer`: a one-shot timer is inserted, expires and is
deleted before its sequence number is read, and the read hits a freed timer; or its address is used
again, and the call returns the identity of another timer. -/
theorem addTimer_reads_freed :
    (∃ t s, (addRaceMachine (τ := Unit)).Run (AddRace.new 1) t s ∧ s.calls () = .posted ⟨1, 0⟩ ∧
      ¬ s.loop.Alive ⟨1, 0⟩ ∧ (addRaceMachine.step s (.read ())).isNone) ∧
    ∃ t s, (addRaceMachine (τ := Unit)).Run (AddRace.new 1) t s ∧
      t = [.returned () ⟨1, 0⟩ ⟨1, 1⟩] := by
  constructor
  · exact (addRaceMachine (τ := Unit)).exists_run_of_exec (AddRace.new 1)
      [.create () 1 10 oneShot, .post (), .loop (.runTask 2), .loop (.handleRead 12),
        .loop .runCallback, .loop (.finish 13)]
      (fun s _ => s.calls () = .posted ⟨1, 0⟩ ∧ ¬ s.loop.Alive ⟨1, 0⟩ ∧
        (addRaceMachine.step s (.read ())).isNone) (by decide +kernel)
  · exact (addRaceMachine (τ := Unit)).exists_run_of_exec (AddRace.new 1)
      [.create () 1 10 oneShot, .post (), .loop (.runTask 2), .loop (.handleRead 12),
        .loop .runCallback, .loop (.finish 13), .loop (.addTimer 1 30 oneShot 14), .read ()]
      (fun _ t => t = [.returned () ⟨1, 0⟩ ⟨1, 1⟩]) (by decide +kernel)

end AddRace

end MuduoServer
