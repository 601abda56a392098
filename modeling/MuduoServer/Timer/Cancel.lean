import MuduoServer.Timer.Loop

/-!
# Cancelling timers

When `cancelInLoop(id)` executes, the timer may be in both sets, in the batch in progress after its
turn, in the batch before its turn, or waiting in a posted `addTimerInLoop`.  The code looks at the
first two only.  A timer that has been cancelled there is `Spent`: it is freed, or it has had its
turn and will be freed at the end of the batch.  This is kept by every step, and no callback of a
spent timer is started.

In the other two places the cancellation gets lost: `cancel_not_final` has a run for each.
-/

namespace MuduoServer

namespace TimerLoop

open TimerQueue

variable {s s' : TimerLoop} {act : TimerAct} {out : List TimerEvent} {id : TimerId} {p : Ptr}
  {t t' : Timer}

/-! ### Identities along a run -/

/-- The timer with the identity `id` has not been freed, and holds `t`. -/
def Live (s : TimerLoop) (id : TimerId) (t : Timer) : Prop :=
  s.queue.heap id.timer = some t ∧ t.sequence = id.sequence

/-- The callback of the timer at `p` has been started in the batch in progress, the one with clock
reading `now`. -/
def HadTurn (s : TimerLoop) (now : Timestamp) (p : Ptr) : Prop :=
  ∃ b ∈ s.batch, b.now = now ∧ p ∈ b.expired.map Entry.timer ∧ p ∉ b.rest.map Entry.timer

/-- Where a live timer comes from: it was there before the step, or the end of a batch has
restarted it. -/
inductive Origin (s : TimerLoop) (act : TimerAct) (s' : TimerLoop) (id : TimerId) (t' : Timer) :
    Prop
  | kept (hlive : Live s id t') (hout : s'.batch = none → id.timer ∉ s.batchEntries.map Entry.timer)
  | restarted {b : Batch} {t : Timer} {clk : Timestamp} (hact : act = .finish clk)
      (hbatch : s.batch = some b)
      (hmem : id.timer ∈ b.expired.map Entry.timer) (hlive : Live s id t)
      (hrepeated : t.repeated = true) (hcanceling : id ∉ s.queue.cancelingTimers)
      (heq : t' = t.restart b.now)

/-- Creating a timer gives it a new identity, so the older ones are as before. -/
lemma live_of_newTimer {q : TimerQueue} {w : Timestamp} {i : Interval}
    (hq : q.heap = (s.queue.newTimer p w i).heap) (hold : id.sequence < s.queue.numCreated)
    (hheap : q.heap id.timer = some t') (hseq : t'.sequence = id.sequence) : Live s id t' := by
  rw [hq] at hheap
  by_cases hp : id.timer = p
  · rw [hp] at hheap
    have hself := (setHeap_self s.queue p (some ⟨w, i, s.queue.numCreated⟩)).symm.trans hheap
    rw [Option.some.injEq] at hself
    subst hself
    exact absurd hseq hold.ne'
  · exact ⟨(setHeap_of_ne s.queue _ hp).symm.trans hheap, hseq⟩

/-- `cancelInLoop` writes no timer. -/
lemma live_of_cancelled {q : TimerQueue} {id' : TimerId} (hq : Cancelled s.queue id' q)
    (hheap : q.heap id.timer = some t') (hseq : t'.sequence = id.sequence) : Live s id t' := by
  rcases hq with ⟨hid, ht⟩ | hid
  · by_cases hp : id.timer = id'.timer
    · rw [hp, removed_heap_self] at hheap
      cases hheap
    · exact ⟨(removed_heap_of_ne hp).symm.trans hheap, hseq⟩
  · unfold TimerQueue.marked at hheap
    split at hheap <;> exact ⟨hheap, hseq⟩

/-- Without a batch there is no batch to be listed in. -/
lemma not_mem_batchEntries (h : s.batch = none) : p ∉ s.batchEntries.map Entry.timer := by
  simp [batchEntries, h]

/-- The origin of a timer that is live after a step. -/
theorem Effect.origin (heff : Effect s act s' out) (hold : id.sequence < s.queue.numCreated)
    (hlive : Live s' id t') : Origin s act s' id t' := by
  obtain ⟨hheap, hseq⟩ := hlive
  cases heff with
  | postAdd hp => exact .kept (live_of_newTimer rfl hold hheap hseq) not_mem_batchEntries
  | postCancel => exact .kept ⟨hheap, hseq⟩ not_mem_batchEntries
  | add hp hr =>
    subst hr
    exact .kept (live_of_newTimer (added_heap _ _ _ _) hold hheap hseq) not_mem_batchEntries
  | runAdd hbatch htasks ht hr =>
    subst hr
    exact .kept ⟨(congrFun (added_heap _ _ _ _) _).symm.trans hheap, hseq⟩ not_mem_batchEntries
  | cancel hq => exact .kept (live_of_cancelled hq hheap hseq) not_mem_batchEntries
  | runCancel hbatch htasks hq =>
    exact .kept (live_of_cancelled hq hheap hseq) not_mem_batchEntries
  | begin hbatch => exact .kept ⟨hheap, hseq⟩ fun _ => not_mem_batchEntries hbatch
  | callback hbatch hrest ht hexp hdue => exact .kept ⟨hheap, hseq⟩ nofun
  | @finish b q clk hbatch hrest hq =>
    have hheap' : q.heap id.timer = some t' := by
      obtain ⟨fd, hfd⟩ := q.rearm_fst clk
      rw [show ({ s with queue := (q.rearm clk).1, batch := none, clock := clk } :
        TimerLoop).queue = { q with timerfd := fd } from hfd] at hheap
      exact hheap
    by_cases hmem : id.timer ∈ b.expired.map Entry.timer
    · rw [hq.heap_mem _ hmem] at hheap'
      obtain ⟨t, ht, hkeep, rfl⟩ := exists_of_rearmed hheap'
      have hid : (⟨id.timer, t.sequence⟩ : TimerId) = id :=
        TimerId.ext rfl ((Timer.restart_sequence t b.now).symm.trans hseq)
      have hlive : Live s id t := ⟨ht, congrArg TimerId.sequence hid⟩
      exact .restarted rfl hbatch hmem hlive hkeep.1 (hid ▸ hkeep.2) rfl
    · rw [hq.heap_not_mem _ hmem] at hheap'
      refine .kept ⟨hheap', hseq⟩ fun _ => ?_
      simpa [batchEntries, hbatch] using hmem

/-- A step creates no timer, or gives the next sequence number to the one it creates. -/
lemma Effect.numCreated (heff : Effect s act s' out) :
    s'.queue.numCreated = s.queue.numCreated ∨
      s'.queue.numCreated = s.queue.numCreated + 1 ∧
        ∃ p w i, TimerEvent.created ⟨p, s.queue.numCreated⟩ w i ∈ out := by
  have hadded : ∀ (q : TimerQueue) (p : Ptr) (t : Timer) (clk : Timestamp),
      (q.added p t clk).1.numCreated = q.numCreated := by
    intro q p t clk
    obtain ⟨fd, hfd⟩ := q.added_fst p t clk
    rw [hfd]
    rfl
  have hcancelled : ∀ {q : TimerQueue} {id : TimerId}, Cancelled s.queue id q →
      q.numCreated = s.queue.numCreated := by
    rintro q id (⟨hid, ht⟩ | hid)
    · rfl
    · unfold TimerQueue.marked
      split <;> rfl
  cases heff with
  | @postAdd p w i hp => exact Or.inr ⟨rfl, p, w, i, List.mem_cons_self⟩
  | postCancel => exact Or.inl rfl
  | @add p w i clk r hp hr =>
    subst hr
    exact Or.inr ⟨hadded (s.queue.newTimer p w i) _ _ _, p, w, i, List.mem_cons_self⟩
  | runAdd hbatch htasks ht hr =>
    subst hr
    exact Or.inl (hadded _ _ _ _)
  | cancel hq => exact Or.inl (hcancelled hq)
  | runCancel hbatch htasks hq => exact Or.inl (hcancelled hq)
  | begin hbatch => exact Or.inl rfl
  | callback hbatch hrest ht hexp hdue => exact Or.inl rfl
  | @finish b q clk hbatch hrest hq =>
    obtain ⟨fd, hfd⟩ := q.rearm_fst clk
    exact Or.inl ((congrArg TimerQueue.numCreated hfd).trans hq.numCreated)

/-- Sequence numbers are given out in increasing order. -/
lemma Effect.numCreated_le (heff : Effect s act s' out) :
    s.queue.numCreated ≤ s'.queue.numCreated := by
  rcases heff.numCreated with heq | ⟨heq, -⟩
  · exact heq.ge
  · exact (Nat.le_succ _).trans heq.ge

/-- A timer that has had its turn is not given another one in the same batch. -/
lemma Effect.hadTurn (heff : Effect s act s' out) {now : Timestamp} (h : s.HadTurn now p) :
    s'.HadTurn now p ∨ s'.batch = none := by
  cases heff with
  | @callback b e rest t hbatch hrest ht hexp hdue =>
    obtain ⟨b', hb', hnow, hmem, hnot⟩ := h
    obtain rfl : b' = b := Option.some.inj (hb'.symm.trans hbatch)
    refine Or.inl ⟨_, rfl, hnow, hmem, fun hp => hnot ?_⟩
    rw [hrest]
    exact List.mem_cons_of_mem _ hp
  | begin hbatch =>
    obtain ⟨b, hb, -⟩ := h
    rw [hbatch] at hb
    cases hb
  | finish hbatch hrest hq => exact Or.inr rfl
  | _ => exact Or.inl h

/-- A mark set during a batch stays until the batch ends. -/
lemma Effect.canceling (heff : Effect s act s' out) (hbatch : s.batch ≠ none)
    (hbatch' : s'.batch ≠ none) (h : id ∈ s.queue.cancelingTimers) :
    id ∈ s'.queue.cancelingTimers := by
  have hcancelled : ∀ {q : TimerQueue} {id' : TimerId}, Cancelled s.queue id' q →
      id ∈ q.cancelingTimers := by
    rintro q id' (⟨hid, ht⟩ | hid)
    · exact h
    · unfold TimerQueue.marked
      split
      · exact OrdSet.mem_insert.mpr (Or.inr h)
      · exact h
  cases heff with
  | @add p w i clk r hp hr =>
    obtain ⟨fd, hfd⟩ := (s.queue.newTimer p w i).added_fst p ⟨w, i, s.queue.numCreated⟩ clk
    change id ∈ r.1.cancelingTimers
    rw [hr, hfd]
    exact h
  | runAdd hnone => exact absurd hnone hbatch
  | cancel hq => exact hcancelled hq
  | runCancel hnone => exact absurd hnone hbatch
  | begin hnone => exact absurd hnone hbatch
  | finish => exact absurd rfl hbatch'
  | _ => exact h

/-- Setting the alarm is seen as nothing else. -/
lemma not_mem_settime {e : TimerEvent} (he : ∀ ts, e ≠ .settime ts) {l : List Timespec} :
    e ∉ l.map .settime := by
  intro hmem
  obtain ⟨ts, -, heq⟩ := List.mem_map.mp hmem
  exact he ts heq.symm

/-- A callback is started for a live timer of the batch, not before its time. -/
lemma Effect.started (heff : Effect s act s' out) {now exp : Timestamp}
    (h : TimerEvent.started id now exp ∈ out) :
    ∃ b e rest t, s.batch = some b ∧ b.rest = e :: rest ∧ e.timer = id.timer ∧ b.now = now ∧
      Live s id t ∧ t.expiration = exp ∧ exp ≤ now ∧ out = [.started id now exp] ∧
      s' = { s with batch := some { b with rest := rest } } := by
  cases heff with
  | @callback b e rest t hbatch hrest ht hexp hdue =>
    rw [List.mem_singleton, TimerEvent.started.injEq] at h
    obtain ⟨rfl, rfl, rfl⟩ := h
    exact ⟨b, e, rest, t, hbatch, hrest, rfl, rfl, ⟨ht, rfl⟩, rfl, hexp.trans_le hdue, rfl, rfl⟩
  | add hp hr =>
    rcases List.mem_cons.mp h with h | h
    · cases h
    · exact absurd h (not_mem_settime (by simp))
  | runAdd hbatch htasks ht hr => exact absurd h (not_mem_settime (by simp))
  | finish hbatch hrest hq => exact absurd h (not_mem_settime (by simp))
  | _ => simp at h

/-- The timers of a batch are distinct, so the one whose callback is started has had its turn. -/
lemma LoopInv.hadTurn_of_started (hinv : LoopInv s) {b : Batch} {e : Entry} {rest : List Entry}
    (hbatch : s.batch = some b) (hrest : b.rest = e :: rest) :
    HadTurn { s with batch := some { b with rest := rest } } b.now e.timer := by
  have hsuffix : e :: rest <:+ b.expired := hrest ▸ hinv.rest b hbatch
  have hnodup : (b.expired.map Entry.timer).Nodup := by
    have hout := hinv.queue.out_nodup
    unfold detachedTimers batchEntries at hout
    rw [hbatch] at hout
    exact (List.nodup_append.mp hout).1
  have hnodup' : ((e :: rest).map Entry.timer).Nodup :=
    hnodup.sublist (hsuffix.sublist.map Entry.timer)
  refine ⟨_, rfl, rfl, List.mem_map_of_mem (hsuffix.mem List.mem_cons_self), ?_⟩
  exact (List.nodup_cons.mp hnodup').1

/-! ### Spent timers -/

/-- The timer `id` was created, and if it is still alive, it has had its turn in the batch in
progress and will be freed at the end. -/
def Spent (s : TimerLoop) (id : TimerId) : Prop :=
  id.sequence < s.queue.numCreated ∧
    ∀ t, Live s id t →
      (t.repeated = false ∨ id ∈ s.queue.cancelingTimers) ∧ ∃ now, s.HadTurn now id.timer

/-- Having had its turn, a timer that is still the same after the step has had it there too. -/
lemma Origin.hadTurn (heff : Effect s act s' out) {now : Timestamp}
    (hout : s'.batch = none → id.timer ∉ s.batchEntries.map Entry.timer)
    (hturn : s.HadTurn now id.timer) :
    s.batch ≠ none ∧ s'.batch ≠ none ∧ s'.HadTurn now id.timer := by
  have hturn' := hturn
  obtain ⟨b, hb, -, hmem, -⟩ := hturn'
  have hbatch' : s'.batch ≠ none := by
    intro hnone
    refine hout hnone ?_
    unfold batchEntries
    rw [Option.mem_def.mp hb]
    exact hmem
  exact ⟨Option.ne_none_iff_exists'.mpr ⟨b, hb⟩, hbatch',
    (heff.hadTurn hturn).resolve_right hbatch'⟩

/-- A timer that has had its turn is not the next one. -/
lemma HadTurn.ne_next {now : Timestamp} (hturn : s.HadTurn now p) {b : Batch} {e : Entry}
    {rest : List Entry} (hbatch : s.batch = some b) (hrest : b.rest = e :: rest) : e.timer ≠ p := by
  rintro rfl
  obtain ⟨b', hb', -, -, hnot⟩ := hturn
  obtain rfl : b' = b := Option.some.inj (hb'.symm.trans hbatch)
  refine hnot ?_
  rw [hrest]
  exact List.mem_cons_self

/-- Spent timers stay spent, and their callbacks are not started. -/
theorem Spent.effect (h : s.Spent id) (heff : Effect s act s' out) :
    s'.Spent id ∧ ∀ now exp, TimerEvent.started id now exp ∉ out := by
  obtain ⟨hold, hspent⟩ := h
  refine ⟨⟨hold.trans_le heff.numCreated_le, fun t' hlive' => ?_⟩, fun now exp hmem => ?_⟩
  · rcases heff.origin hold hlive' with ⟨hlive, hout⟩ |
      ⟨-, hbatch, hmem, hlive, hrepeated, hcanceling, rfl⟩
    · obtain ⟨hdrop, now, hturn⟩ := hspent t' hlive
      obtain ⟨hbatch, hbatch', hturn'⟩ := Origin.hadTurn heff hout hturn
      exact ⟨hdrop.imp_right (heff.canceling hbatch hbatch'), now, hturn'⟩
    · obtain ⟨hdrop, -⟩ := hspent _ hlive
      rcases hdrop with hdrop | hdrop
      · rw [hdrop] at hrepeated
        cases hrepeated
      · exact absurd hdrop hcanceling
  · obtain ⟨b, e, rest, t, hbatch, hrest, htimer, -, hlive, -⟩ := heff.started hmem
    obtain ⟨-, now', hturn⟩ := hspent t hlive
    exact hturn.ne_next hbatch hrest htimer

/-! ### What the trace knows about a timer -/

/-- The sequence numbers in the trace have been given out, and a timer keeps the interval it was
created with. -/
def CreatedInv (t : List TimerEvent) (s : TimerLoop) : Prop :=
  ∀ id w i, TimerEvent.created id w i ∈ t → id.sequence < s.queue.numCreated ∧
    ∀ t', Live s id t' → t'.interval = i

/-- A created timer gets the next sequence number, and is alive. -/
lemma Effect.created (heff : Effect s act s' out) {w : Timestamp} {i : Interval}
    (h : TimerEvent.created id w i ∈ out) :
    id.sequence = s.queue.numCreated ∧ s'.queue.numCreated = s.queue.numCreated + 1 ∧
      s'.queue.heap id.timer = some ⟨w, i, s.queue.numCreated⟩ := by
  cases heff with
  | postAdd hp =>
    rw [List.mem_singleton, TimerEvent.created.injEq] at h
    obtain ⟨rfl, rfl, rfl⟩ := h
    exact ⟨rfl, rfl, setHeap_self s.queue _ _⟩
  | @add p w' i' clk r hp hr =>
    rcases List.mem_cons.mp h with h | h
    · rw [TimerEvent.created.injEq] at h
      obtain ⟨rfl, rfl, rfl⟩ := h
      obtain ⟨fd, hfd⟩ := (s.queue.newTimer p w i).added_fst p ⟨w, i, s.queue.numCreated⟩ clk
      rw [← hr] at hfd
      refine ⟨rfl, congrArg TimerQueue.numCreated hfd, ?_⟩
      exact (congrFun (congrArg TimerQueue.heap hfd) p).trans (setHeap_self s.queue _ _)
    · exact absurd h (not_mem_settime (by simp))
  | runAdd hbatch htasks ht hr => exact absurd h (not_mem_settime (by simp))
  | finish hbatch hrest hq => exact absurd h (not_mem_settime (by simp))
  | _ => simp at h

/-- A step keeps `CreatedInv`. -/
lemma CreatedInv.effect {t : List TimerEvent} (h : CreatedInv t s) (heff : Effect s act s' out) :
    CreatedInv (t ++ out) s' := by
  intro id w i hmem
  rcases List.mem_append.mp hmem with hmem | hmem
  · obtain ⟨hold, hinterval⟩ := h id w i hmem
    refine ⟨hold.trans_le heff.numCreated_le, fun t' hlive' => ?_⟩
    rcases heff.origin hold hlive' with ⟨hlive, -⟩ | ⟨-, -, -, hlive, -, -, rfl⟩
    · exact hinterval t' hlive
    · rw [Timer.restart_interval]
      exact hinterval _ hlive
  · obtain ⟨hseq, hnum, hheap⟩ := heff.created hmem
    refine ⟨by rw [hseq, hnum]; exact Nat.lt_succ_self _, fun t' hlive' => ?_⟩
    obtain rfl : _ = t' := Option.some.inj (hheap.symm.trans hlive'.1)
    rfl

/-- In every run, a timer keeps the interval it was created with. -/
theorem createdInv_of_run {clk : Timestamp} {t : List TimerEvent}
    (h : timerMachine.Run (TimerLoop.new clk) t s) : CreatedInv t s := by
  have hboth : LoopInv s ∧ CreatedInv t s := by
    refine h.invariant (fun t s => LoopInv s ∧ CreatedInv t s) ⟨LoopInv.new clk, ?_⟩ ?_
    · intro id w i hmem
      cases hmem
    · rintro t s act s' out ⟨hinv, hcreated⟩ hpre hstep
      obtain ⟨heff, hinv'⟩ := effect_of_step hinv hpre hstep
      exact ⟨hinv', hcreated.effect heff⟩
  exact hboth.2

/-! ### When a cancellation is final -/

/-- The identity that the step passes to `cancelInLoop`. -/
def cancels (s : TimerLoop) : TimerAct → Option TimerId
  | .cancel id => some id
  | .runTask _ =>
    match s.tasks with
    | .cancelInLoop id :: _ => some id
    | _ => none
  | _ => none

/-- A timer that the step cancels is neither waiting to be added nor waiting for its turn in the
batch. -/
def CancelSafe (s : TimerLoop) (act : TimerAct) : Prop :=
  ∀ id ∈ s.cancels act, ∀ t ∈ s.queue.heap id.timer, t.sequence = id.sequence →
    id.timer ∉ s.pendingAdds ∧ ∀ b ∈ s.batch, id.timer ∉ b.rest.map Entry.timer

instance (s : TimerLoop) (act : TimerAct) : Decidable (s.CancelSafe act) := by
  unfold CancelSafe
  infer_instance

/-- In the trace `t`, the callback of a timer that was created and then cancelled is not started
after the cancellation. -/
def CancelFinal (t : List TimerEvent) : Prop :=
  ∀ id l r, t = l ++ .cancelled id :: r → (∃ w i, TimerEvent.created id w i ∈ l) →
    ∀ now exp, TimerEvent.started id now exp ∉ r

/-- A timer cancelled in one of the two places where the code looks is spent. -/
lemma spent_of_cancelled (hinv : LoopInv s) {q : TimerQueue} {tasks : List TimerTask}
    {clk : Timestamp} (hq : Cancelled s.queue id q) (hold : id.sequence < s.queue.numCreated)
    (hsafe : ∀ t ∈ s.queue.heap id.timer, t.sequence = id.sequence →
      id.timer ∉ s.pendingAdds ∧ ∀ b ∈ s.batch, id.timer ∉ b.rest.map Entry.timer) :
    Spent { s with queue := q, tasks := tasks, clock := clk } id := by
  rcases hq with @⟨t, hid, ht⟩ | hid
  · refine ⟨hold, fun t' hlive => ?_⟩
    have hnone : (s.queue.removed id t).heap id.timer = none := removed_heap_self
    cases hnone.symm.trans hlive.1
  · have hheap : (s.queue.marked id).heap = s.queue.heap := by
      unfold TimerQueue.marked
      split <;> rfl
    have hnum : (s.queue.marked id).numCreated = s.queue.numCreated := by
      unfold TimerQueue.marked
      split <;> rfl
    refine ⟨hold.trans_eq hnum.symm, fun t' hlive => ?_⟩
    have ht' : s.queue.heap id.timer = some t' := (congrFun hheap _).symm.trans hlive.1
    obtain ⟨hpending, hrest⟩ := hsafe t' ht' hlive.2
    have hnot : (⟨id.timer, t'.sequence⟩ : TimerId) ∉ s.queue.activeTimers := by
      rw [hlive.2]
      exact hid
    -- the timer is alive, not active and not about to be added, so it is in the batch
    have hmem : id.timer ∈ s.batchEntries.map Entry.timer := by
      have hout := (hinv.queue.accounted _ _ ht').resolve_left hnot
      exact (List.mem_append.mp hout).resolve_right hpending
    cases hbatch : s.batch with
    | none => exact absurd hmem (not_mem_batchEntries hbatch)
    | some b =>
      have hcalling : s.queue.callingExpiredTimers = true := by
        rw [hinv.calling, hbatch]
        rfl
      refine ⟨Or.inr ?_, b.now, b, rfl, rfl, ?_, hrest b hbatch⟩
      · change id ∈ (s.queue.marked id).cancelingTimers
        unfold TimerQueue.marked
        rw [if_pos hcalling]
        exact OrdSet.mem_insert.mpr (Or.inl rfl)
      · simpa [batchEntries, hbatch] using hmem

/-- A step emits the cancellation of the identity it cancels, and emits nothing else with it. -/
lemma Effect.cancelled (heff : Effect s act s' out) (h : TimerEvent.cancelled id ∈ out) :
    ∃ q tasks clk, Cancelled s.queue id q ∧ id ∈ s.cancels act ∧ out = [.cancelled id] ∧
      s' = { s with queue := q, tasks := tasks, clock := clk } := by
  cases heff with
  | @cancel id' q hq =>
    rw [List.mem_singleton, TimerEvent.cancelled.injEq] at h
    subst h
    exact ⟨q, s.tasks, s.clock, hq, rfl, rfl, rfl⟩
  | @runCancel id' q clk tasks hbatch htasks hq =>
    rw [List.mem_singleton, TimerEvent.cancelled.injEq] at h
    subst h
    refine ⟨q, tasks, clk, hq, ?_, rfl, rfl⟩
    simp [cancels, htasks]
  | add hp hr =>
    rcases List.mem_cons.mp h with h | h
    · cases h
    · exact absurd h (not_mem_settime (by simp))
  | runAdd hbatch htasks ht hr => exact absurd h (not_mem_settime (by simp))
  | finish hbatch hrest hq => exact absurd h (not_mem_settime (by simp))
  | _ => simp at h

/-- In every run in which each cancelled timer is neither waiting to be added nor waiting for its
turn in the batch, cancellation is final. -/
theorem cancel_final_run {clk : Timestamp} {t : List TimerEvent}
    (h : (timerMachine.restrict CancelSafe).Run (TimerLoop.new clk) t s) : CancelFinal t := by
  intro id l r hlr hcreated now exp hmem
  refine (h.once (fun l => ∃ w i, TimerEvent.created id w i ∈ l) (fun s => s.Spent id)
    (.cancelled id) (fun x => ∃ now exp, x = .started id now exp) ?_ ?_ l r hlr hcreated).2 _ hmem
    ⟨now, exp, rfl⟩
  · rintro t s act s' out hrun ⟨hpre, hsafe⟩ hstep l r rfl ⟨w, i, hcreated⟩
    have hinv := loopInv_of_run hrun.of_restrict
    obtain ⟨heff, -⟩ := effect_of_step hinv hpre hstep
    have hmem' : TimerEvent.cancelled id ∈ l ++ .cancelled id :: r := by simp
    obtain ⟨q, tasks, clk', hq, hcancels, hout, rfl⟩ := heff.cancelled hmem'
    obtain ⟨rfl, rfl⟩ : l = [] ∧ r = [] := by
      cases l <;> simp_all
    rw [List.append_nil] at hcreated
    have hold := (createdInv_of_run hrun.of_restrict id w i hcreated).1
    exact ⟨spent_of_cancelled hinv hq hold (hsafe id hcancels), by simp⟩
  · rintro t s act s' out hrun hspent ⟨hpre, -⟩ hstep
    obtain ⟨heff, -⟩ := effect_of_step (loopInv_of_run hrun.of_restrict) hpre hstep
    obtain ⟨hspent', hnot⟩ := hspent.effect heff
    refine ⟨hspent', ?_⟩
    rintro x hx ⟨now, exp, rfl⟩
    exact hnot now exp hx

/-- The interval of a one-shot timer. -/
def oneShot : Interval := ⟨false, some 0⟩

/-- The interval of a timer that repeats every `n` microseconds. -/
def every (n : ℕ) : Interval := ⟨true, some n⟩

/-- A repeating timer cancels itself in its callback, and an active timer is cancelled by a posted
task. -/
theorem cancel_final_run_self :
    ∃ t s, (timerMachine.restrict CancelSafe).Run (TimerLoop.new 1) t s ∧
      (s.queue.timers.elems = [] ∧ s.clock = 31) ∧ CancelFinal t := by
  obtain ⟨t, s, hrun, hp⟩ := (timerMachine.restrict CancelSafe).exists_run_of_exec (TimerLoop.new 1)
    [.addTimer 1 10 (every 4) 1, .addTimer 2 40 oneShot 2, .handleRead 12, .runCallback,
      .cancel ⟨1, 0⟩, .finish 13, .postCancel ⟨2, 1⟩, .runTask 20, .handleRead 30, .finish 31]
    (fun s _ => s.queue.timers.elems = [] ∧ s.clock = 31) (by decide +kernel)
  exact ⟨t, s, hrun, hp, cancel_final_run hrun⟩

/-- A start after the cancellation shows that the cancellation was not final. -/
lemma not_cancelFinal {l r : List TimerEvent} {w : Timestamp} {i : Interval}
    (hcreated : TimerEvent.created id w i ∈ l) (now exp : Timestamp)
    (hstarted : TimerEvent.started id now exp ∈ r) :
    ¬ CancelFinal (l ++ .cancelled id :: r) :=
  fun h => h id l r rfl ⟨w, i, hcreated⟩ now exp hstarted

/-- Cancellation is not final for a timer that waits for its turn in the batch: the callback of the
first timer cancels the second, whose callback is then started.  Nor is it final for a timer that
waits to be added: the cancellation finds nothing, and the timer is added and fires. -/
theorem cancel_not_final :
    (∃ t s, timerMachine.Run (TimerLoop.new 1) t s ∧ ¬ CancelFinal t ∧
      t.getLast? = some (.started ⟨2, 1⟩ 12 11)) ∧
    ∃ t s, timerMachine.Run (TimerLoop.new 1) t s ∧ ¬ CancelFinal t ∧
      t.getLast? = some (.started ⟨1, 0⟩ 12 10) := by
  constructor
  · obtain ⟨t, s, hrun, rfl⟩ := timerMachine.exists_run_of_exec (TimerLoop.new 1)
      [.addTimer 1 10 oneShot 1, .addTimer 2 11 oneShot 2, .handleRead 12, .runCallback,
        .cancel ⟨2, 1⟩, .runCallback]
      (fun _ t => t = [.created ⟨1, 0⟩ 10 oneShot, .settime ⟨0, 100000⟩,
        .created ⟨2, 1⟩ 11 oneShot, .started ⟨1, 0⟩ 12 10] ++
          .cancelled ⟨2, 1⟩ :: [.started ⟨2, 1⟩ 12 11]) (by decide +kernel)
    have hcreated : TimerEvent.created ⟨2, 1⟩ 11 oneShot ∈ [TimerEvent.created ⟨1, 0⟩ 10 oneShot,
        .settime ⟨0, 100000⟩, .created ⟨2, 1⟩ 11 oneShot, .started ⟨1, 0⟩ 12 10] := by simp
    exact ⟨_, s, hrun, not_cancelFinal hcreated 12 11 (by simp), rfl⟩
  · obtain ⟨t, s, hrun, rfl⟩ := timerMachine.exists_run_of_exec (TimerLoop.new 1)
      [.postAddTimer 1 10 oneShot, .cancel ⟨1, 0⟩, .runTask 2, .handleRead 12, .runCallback]
      (fun _ t => t = [.created ⟨1, 0⟩ 10 oneShot] ++
        .cancelled ⟨1, 0⟩ :: [.settime ⟨0, 100000⟩, .started ⟨1, 0⟩ 12 10]) (by decide +kernel)
    have hcreated : TimerEvent.created ⟨1, 0⟩ 10 oneShot ∈
        [TimerEvent.created ⟨1, 0⟩ 10 oneShot] := by simp
    exact ⟨_, s, hrun, not_cancelFinal hcreated 12 10 (by simp), rfl⟩

end TimerLoop

end MuduoServer
