import MuduoServer.Timer.Invariant

/-!
# Runs of the timer queue

`TimerLoop` is a timer queue together with what the loop thread is doing: the tasks that other
threads have posted, and the batch that `handleRead` is working through.  A batch is not one step.
Its callbacks run one after the other, and each of them may add and cancel timers, including timers
of the same batch, while other threads go on posting.

`Effect` describes once and for all what each step does.  `step_effect` shows that no step fails an
`assert` or touches a freed timer, that it has its `Effect`, and that it keeps the invariant
`LoopInv`; every property of runs is then a case analysis of `Effect`.  The first such property is
`timer_indexes_agree`: the two sets of the queue never drift apart.
-/

namespace MuduoServer

/-- A functor of the queue in `pendingFunctors_`. -/
inductive TimerTask where
  | addTimerInLoop (p : Ptr)
  | cancelInLoop (id : TimerId)
  deriving DecidableEq, Repr

/-- The timer that a task is going to add. -/
def TimerTask.adds : TimerTask → Option Ptr
  | .addTimerInLoop p => some p
  | .cancelInLoop _ => none

/-- The local variables of `handleRead` during its loop: the clock reading, the vector `expired`,
and the part of it whose callbacks have not run yet. -/
structure Batch where
  now : Timestamp
  expired : List Entry
  rest : List Entry
  deriving DecidableEq, Repr

/-- A timer queue, the tasks posted to its loop, and the batch in progress. -/
structure TimerLoop where
  queue : TimerQueue
  tasks : List TimerTask
  batch : Option Batch
  /-- The last clock reading. -/
  clock : Timestamp

/-- What the loop thread and the other threads do. -/
inductive TimerAct where
  /-- `addTimer` on the loop thread: the task runs at once. -/
  | addTimer (p : Ptr) (when_ : Timestamp) (interval : Interval) (clk : Timestamp)
  /-- `addTimer` on another thread: the task is posted. -/
  | postAddTimer (p : Ptr) (when_ : Timestamp) (interval : Interval)
  /-- `cancel` on the loop thread. -/
  | cancel (id : TimerId)
  /-- `cancel` on another thread. -/
  | postCancel (id : TimerId)
  /-- The loop thread runs the next posted task. -/
  | runTask (clk : Timestamp)
  /-- `handleRead` begins. -/
  | handleRead (now : Timestamp)
  /-- `handleRead` starts the next callback. -/
  | runCallback
  /-- `handleRead` ends with `reset`. -/
  | finish (clk : Timestamp)

/-- The clock reading that a step makes. -/
def TimerAct.reading : TimerAct → Option Timestamp
  | .addTimer _ _ _ clk | .runTask clk | .handleRead clk | .finish clk => some clk
  | .postAddTimer _ _ _ | .cancel _ | .postCancel _ | .runCallback => none

/-- What an observer of the queue can see. -/
inductive TimerEvent where
  | created (id : TimerId) (when_ : Timestamp) (interval : Interval)
  /-- `cancelInLoop(id)` has executed. -/
  | cancelled (id : TimerId)
  /-- The callback starts, in the batch with clock reading `now`, scheduled for `expiration`. -/
  | started (id : TimerId) (now expiration : Timestamp)
  | settime (ts : Timespec)
  deriving DecidableEq

namespace TimerLoop

/-- A new queue, with the clock at `clk`. -/
def new (clk : Timestamp) : TimerLoop where
  queue := .new
  tasks := []
  batch := none
  clock := clk

/-- The loop thread can run user code: no batch is in progress, or one of its callbacks has been
started. -/
def inUserCode (s : TimerLoop) : Prop :=
  ∀ b ∈ s.batch, b.rest.length < b.expired.length

instance (s : TimerLoop) : Decidable s.inUserCode := by
  unfold inUserCode
  infer_instance

/-- The allocator can return the address `p`. -/
def Fresh (s : TimerLoop) (p : Ptr) : Prop :=
  (s.queue.heap p).isNone ∧ 0 < p ∧ p < uintptrMax

instance (s : TimerLoop) (p : Ptr) : Decidable (s.Fresh p) := by
  unfold Fresh
  infer_instance

/-- When a step can be taken. -/
def pre (s : TimerLoop) : TimerAct → Prop
  | .addTimer p _ _ _ => s.Fresh p ∧ s.inUserCode
  | .postAddTimer p _ _ => s.Fresh p
  | .cancel _ => s.inUserCode
  | .postCancel _ => True
  | .runTask _ => s.batch = none ∧ s.tasks ≠ []
  | .handleRead _ => s.batch = none
  | .runCallback => ∃ b ∈ s.batch, b.rest ≠ []
  | .finish _ => ∃ b ∈ s.batch, b.rest = []

instance (s : TimerLoop) (act : TimerAct) : Decidable (s.pre act) := by
  unfold pre
  split <;> infer_instance

/-- The effect of a step, as the code computes it. -/
def step (s : TimerLoop) : TimerAct → Option (TimerLoop × List TimerEvent)
  | .addTimer p when_ interval clk => do
    let r ← (s.queue.newTimer p when_ interval).addTimerInLoop p clk
    some ({ s with queue := r.1, clock := clk },
      .created ⟨p, s.queue.numCreated⟩ when_ interval :: r.2.map .settime)
  | .postAddTimer p when_ interval =>
    some ({ s with
        queue := s.queue.newTimer p when_ interval
        tasks := s.tasks ++ [.addTimerInLoop p] },
      [.created ⟨p, s.queue.numCreated⟩ when_ interval])
  | .cancel id => do
    let q ← s.queue.cancelInLoop id
    some ({ s with queue := q }, [.cancelled id])
  | .postCancel id => some ({ s with tasks := s.tasks ++ [.cancelInLoop id] }, [])
  | .runTask clk =>
    match s.tasks with
    | [] => some (s, [])
    | .addTimerInLoop p :: tasks => do
      let r ← s.queue.addTimerInLoop p clk
      some ({ s with queue := r.1, tasks := tasks, clock := clk }, r.2.map .settime)
    | .cancelInLoop id :: tasks => do
      let q ← s.queue.cancelInLoop id
      some ({ s with queue := q, tasks := tasks, clock := clk }, [.cancelled id])
  | .handleRead now => do
    let r ← s.queue.beginHandleRead now
    some ({ s with
        queue := r.1
        batch := some { now := now, expired := r.2, rest := r.2 }
        clock := now }, [])
  | .runCallback =>
    match s.batch with
    | none => some (s, [])
    | some b =>
      match b.rest with
      | [] => some (s, [])
      | e :: rest => do
        let t ← s.queue.heap e.timer
        some ({ s with batch := some { b with rest := rest } },
          [.started ⟨e.timer, t.sequence⟩ b.now t.expiration])
  | .finish clk =>
    match s.batch with
    | none => some (s, [])
    | some b => do
      let r ← s.queue.endHandleRead b.expired b.now clk
      some ({ s with queue := r.1, batch := none, clock := clk }, r.2.map .settime)

/-- `addTime` overflows for no timer that the step restarts. -/
def RearmsInRange (s : TimerLoop) : TimerAct → Prop
  | .finish _ => ∀ b ∈ s.batch, ∀ e ∈ b.expired, ∀ u ∈ s.queue.heap e.timer, u.repeated = true →
      ⟨e.timer, u.sequence⟩ ∉ s.queue.cancelingTimers → u.interval.Fits b.now
  | _ => True

instance (s : TimerLoop) (act : TimerAct) : Decidable (s.RearmsInRange act) := by
  unfold RearmsInRange
  split <;> infer_instance

end TimerLoop

/-- Every run of a timer queue, with posted and immediate calls and re-entrant callbacks. -/
def timerMachine : Machine TimerLoop TimerAct TimerEvent where
  pre s act := s.pre act
  step s act := s.step act

instance (s : TimerLoop) (act : TimerAct) : Decidable (timerMachine.pre s act) :=
  inferInstanceAs (Decidable (s.pre act))

namespace TimerQueue

variable {q : TimerQueue} {p : Ptr} {t : Timer} {out : List Ptr} {clk : Timestamp}

/-! ### The operations of the loop -/

/-- The queue after `addTimerInLoop` of the timer `t` at `p`, and the times set on the alarm. -/
def added (q : TimerQueue) (p : Ptr) (t : Timer) (clk : Timestamp) : TimerQueue × List Timespec :=
  if q.earliestChanged t then (q.inserted p t).resetTimerfd t.expiration clk
  else (q.inserted p t, [])

/-- Setting the alarm touches nothing else. -/
lemma added_fst (q : TimerQueue) (p : Ptr) (t : Timer) (clk : Timestamp) :
    ∃ fd, (q.added p t clk).1 = { q.inserted p t with timerfd := fd } := by
  unfold added
  split
  · exact ⟨_, rfl⟩
  · exact ⟨_, rfl⟩

/-- `addTimerInLoop` of a listed timer succeeds. -/
lemma addTimerInLoop_eq (h : QueueInv q (p :: out)) (ht : q.heap p = some t) :
    q.addTimerInLoop p clk = some (q.added p t clk) := by
  have ht' : (q.inserted p t).heap p = some t := ht
  unfold addTimerInLoop added
  rw [insert_eq h ht]
  by_cases hearliest : q.earliestChanged t = true
  · simp [hearliest, ht']
  · simp [hearliest]

/-- After `addTimerInLoop` the timer is in both sets. -/
lemma QueueInv.added (h : QueueInv q (p :: out)) (ht : q.heap p = some t) :
    QueueInv (q.added p t clk).1 out := by
  obtain ⟨fd, hfd⟩ := q.added_fst p t clk
  rw [hfd]
  exact (h.inserted ht).congr rfl rfl rfl rfl

/-- Adding a timer to the sets writes no timer. -/
lemma added_heap (q : TimerQueue) (p : Ptr) (t : Timer) (clk : Timestamp) :
    (q.added p t clk).1.heap = q.heap := by
  obtain ⟨fd, hfd⟩ := q.added_fst p t clk
  rw [hfd]
  rfl

/-- The other live timers stay as they are when one is created. -/
lemma newTimer_heap_of_some {p' : Ptr} {t' : Timer} {w : Timestamp} {i : Interval}
    (hp : q.heap p = none) (ht : q.heap p' = some t') : (q.newTimer p w i).heap p' = some t' := by
  have hne : p' ≠ p := by
    rintro rfl
    rw [hp] at ht
    cases ht
  exact (setHeap_of_ne q _ hne).trans ht

/-- What `cancelInLoop(id)` can do to the queue. -/
inductive Cancelled (q : TimerQueue) (id : TimerId) : TimerQueue → Prop
  | removed {t : Timer} (hid : id ∈ q.activeTimers) (ht : q.heap id.timer = some t) :
      Cancelled q id (q.removed id t)
  | marked (hid : id ∉ q.activeTimers) : Cancelled q id (q.marked id)

/-- `cancelInLoop` succeeds, whatever identity it is given. -/
lemma cancelInLoop_cancelled (h : QueueInv q out) (id : TimerId) :
    ∃ q', q.cancelInLoop id = some q' ∧ Cancelled q id q' ∧ QueueInv q' out := by
  rcases cancelInLoop_spec h id with ⟨t, hid, ht, -, heq, hinv⟩ | ⟨hid, heq, hinv⟩
  · exact ⟨_, heq, .removed hid ht, hinv⟩
  · exact ⟨_, heq, .marked hid, hinv⟩

/-- `cancelInLoop` leaves the timers that are in neither set alone. -/
lemma Cancelled.heap_of_mem {q' : TimerQueue} {id : TimerId} (hq : Cancelled q id q')
    (h : QueueInv q out) (hp : p ∈ out) : q'.heap p = q.heap p := by
  rcases hq with ⟨hid, ht⟩ | hid
  · exact removed_heap_of_ne fun heq => h.not_mem_active hp hid heq.symm
  · unfold TimerQueue.marked
    split <;> rfl

/-- `cancelInLoop` does not touch the flag. -/
lemma Cancelled.calling {q' : TimerQueue} {id : TimerId} (hq : Cancelled q id q') :
    q'.callingExpiredTimers = q.callingExpiredTimers := by
  rcases hq with ⟨hid, ht⟩ | hid
  · rfl
  · unfold TimerQueue.marked
    split <;> rfl

/-- The queue during the batch with clock reading `now`, once `activeTimers_` is `active`. -/
def detached (q : TimerQueue) (now : Timestamp) (active : OrdSet TimerId) : TimerQueue :=
  { q with
    timers := q.timers.above (sentry now)
    activeTimers := active
    cancelingTimers := .empty
    callingExpiredTimers := true
    timerfd := q.timerfd.read now }

/-- The first half of `handleRead` succeeds and moves the expired timers to `out`. -/
lemma beginHandleRead_spec (h : QueueInv q out) (now : Timestamp) :
    ∃ active, q.beginHandleRead now = some (q.detached now active, q.expired now) ∧
      QueueInv (q.detached now active) ((q.expired now).map Entry.timer ++ out) := by
  have hread : QueueInv { q with timerfd := q.timerfd.read now } out := h.congr rfl rfl rfl rfl
  obtain ⟨active, heq, hinv⟩ := getExpired_spec hread now
  refine ⟨active, ?_, hinv.congr rfl rfl rfl rfl⟩
  unfold beginHandleRead
  rw [heq]
  rfl

/-- The end of `reset`: the alarm is set to the earliest expiration, if that is valid. -/
def rearm (q : TimerQueue) (clk : Timestamp) : TimerQueue × List Timespec :=
  match q.timers.first with
  | none => (q, [])
  | some e => if 0 < e.time then q.resetTimerfd e.time clk else (q, [])

/-- Setting the alarm touches nothing else. -/
lemma rearm_fst (q : TimerQueue) (clk : Timestamp) :
    ∃ fd, (q.rearm clk).1 = { q with timerfd := fd } := by
  unfold rearm
  split
  · exact ⟨_, rfl⟩
  · split
    · exact ⟨_, rfl⟩
    · exact ⟨_, rfl⟩

/-- The second half of `handleRead` succeeds and takes the expired timers off `out`. -/
lemma endHandleRead_spec {es : List Entry} (h : QueueInv q (es.map Entry.timer ++ out))
    (now clk : Timestamp) :
    ∃ q', q.endHandleRead es now clk = some (q'.rearm clk) ∧ QueueInv (q'.rearm clk).1 out ∧
      ResetTimers now { q with callingExpiredTimers := false } es q' := by
  have hflag : QueueInv { q with callingExpiredTimers := false } (es.map Entry.timer ++ out) :=
    h.congr rfl rfl rfl rfl
  obtain ⟨q', hq', hinv, heff⟩ := resetTimers_spec now hflag
  refine ⟨q', ?_, ?_, heff⟩
  · unfold endHandleRead reset rearm
    rw [hq']
    cases hfirst : q'.timers.first with
    | none => simp [hfirst, Timestamp.valid, Timestamp.invalid]
    | some e =>
      obtain ⟨t, ht, hexp, -⟩ := hinv.timers_active e (OrdSet.mem_of_first hfirst)
      simp only [Option.bind_eq_bind, Option.bind_some, hfirst, ht, Option.map_some, hexp,
        Timestamp.valid]
      exact (apply_ite some _ _ _).symm
  · obtain ⟨fd, hfd⟩ := q'.rearm_fst clk
    rw [hfd]
    exact hinv.congr rfl rfl rfl rfl

end TimerQueue

/-! ### The invariant of the loop -/

namespace TimerLoop

open TimerQueue

variable {s s' : TimerLoop} {act : TimerAct} {out : List TimerEvent}

/-- The timers that posted tasks are still going to add. -/
def pendingAdds (s : TimerLoop) : List Ptr := s.tasks.filterMap TimerTask.adds

/-- The entries of the batch in progress. -/
def batchEntries (s : TimerLoop) : List Entry := (s.batch.map Batch.expired).getD []

/-- The live timers that are in neither set. -/
def detachedTimers (s : TimerLoop) : List Ptr := s.batchEntries.map Entry.timer ++ s.pendingAdds

/-- The two sets agree, and the batch in progress consists of live timers that are due. -/
structure LoopInv (s : TimerLoop) : Prop where
  queue : QueueInv s.queue s.detachedTimers
  calling : s.queue.callingExpiredTimers = s.batch.isSome
  rest : ∀ b ∈ s.batch, b.rest <:+ b.expired
  due : ∀ b ∈ s.batch, ∀ e ∈ b.expired, e.time ≤ b.now ∧
    ∃ t, s.queue.heap e.timer = some t ∧ t.expiration = e.time

/-- Everything that a step can do. -/
inductive Effect (s : TimerLoop) : TimerAct → TimerLoop → List TimerEvent → Prop
  | postAdd {p : Ptr} {w : Timestamp} {i : Interval} (hp : s.Fresh p) :
      Effect s (.postAddTimer p w i)
        { s with queue := s.queue.newTimer p w i, tasks := s.tasks ++ [.addTimerInLoop p] }
        [.created ⟨p, s.queue.numCreated⟩ w i]
  | postCancel {id : TimerId} :
      Effect s (.postCancel id) { s with tasks := s.tasks ++ [.cancelInLoop id] } []
  | add {p : Ptr} {w : Timestamp} {i : Interval} {clk : Timestamp} {r : TimerQueue × List Timespec}
      (hp : s.Fresh p) (hr : r = (s.queue.newTimer p w i).added p ⟨w, i, s.queue.numCreated⟩ clk) :
      Effect s (.addTimer p w i clk) { s with queue := r.1, clock := clk }
        (.created ⟨p, s.queue.numCreated⟩ w i :: r.2.map .settime)
  | runAdd {p : Ptr} {t : Timer} {clk : Timestamp} {tasks : List TimerTask}
      {r : TimerQueue × List Timespec} (hbatch : s.batch = none)
      (htasks : s.tasks = .addTimerInLoop p :: tasks) (ht : s.queue.heap p = some t)
      (hr : r = s.queue.added p t clk) :
      Effect s (.runTask clk) { s with queue := r.1, tasks := tasks, clock := clk }
        (r.2.map .settime)
  | cancel {id : TimerId} {q : TimerQueue} (hq : Cancelled s.queue id q) :
      Effect s (.cancel id) { s with queue := q } [.cancelled id]
  | runCancel {id : TimerId} {q : TimerQueue} {clk : Timestamp} {tasks : List TimerTask}
      (hbatch : s.batch = none) (htasks : s.tasks = .cancelInLoop id :: tasks)
      (hq : Cancelled s.queue id q) :
      Effect s (.runTask clk) { s with queue := q, tasks := tasks, clock := clk } [.cancelled id]
  | begin {now : Timestamp} {active : OrdSet TimerId} (hbatch : s.batch = none) :
      Effect s (.handleRead now)
        { s with
          queue := s.queue.detached now active
          batch := some ⟨now, s.queue.expired now, s.queue.expired now⟩
          clock := now } []
  | callback {b : Batch} {e : Entry} {rest : List Entry} {t : Timer} (hbatch : s.batch = some b)
      (hrest : b.rest = e :: rest) (ht : s.queue.heap e.timer = some t)
      (hexp : t.expiration = e.time) (hdue : e.time ≤ b.now) :
      Effect s .runCallback { s with batch := some { b with rest := rest } }
        [.started ⟨e.timer, t.sequence⟩ b.now t.expiration]
  | finish {b : Batch} {q : TimerQueue} {clk : Timestamp} (hbatch : s.batch = some b)
      (hrest : b.rest = [])
      (hq : ResetTimers b.now { s.queue with callingExpiredTimers := false } b.expired q) :
      Effect s (.finish clk) { s with queue := (q.rearm clk).1, batch := none, clock := clk }
        ((q.rearm clk).2.map .settime)

/-- What a step has to keep of the batch, when it neither begins nor ends one. -/
lemma LoopInv.of_batch_eq (h : LoopInv s) (hqueue : QueueInv s'.queue s'.detachedTimers)
    (hcalling : s'.queue.callingExpiredTimers = s.queue.callingExpiredTimers)
    (hbatch : s'.batch = s.batch)
    (hheap : ∀ e ∈ s.batchEntries, ∀ t, s.queue.heap e.timer = some t →
      s'.queue.heap e.timer = some t) : LoopInv s' := by
  refine ⟨hqueue, ?_, ?_, ?_⟩
  · rw [hcalling, hbatch]
    exact h.calling
  · rw [hbatch]
    exact h.rest
  · rw [hbatch]
    intro b hb e he
    obtain ⟨hdue, t, ht, hexp⟩ := h.due b hb e he
    have hmem : e ∈ s.batchEntries := by
      rw [Option.mem_def] at hb
      simpa [batchEntries, hb] using he
    exact ⟨hdue, t, hheap e hmem t ht, hexp⟩

/-- A timer of the batch in progress is in neither set. -/
lemma mem_detachedTimers_of_batch {e : Entry} (he : e ∈ s.batchEntries) :
    e.timer ∈ s.detachedTimers := List.mem_append_left _ (List.mem_map_of_mem he)

/-- A step of a posted `addTimer`. -/
lemma step_postAddTimer (h : LoopInv s) {p : Ptr} (hp : s.Fresh p) (w : Timestamp) (i : Interval) :
    LoopInv { s with
      queue := s.queue.newTimer p w i
      tasks := s.tasks ++ [.addTimerInLoop p] } := by
  have hnone : s.queue.heap p = none := Option.isNone_iff_eq_none.mp hp.1
  refine h.of_batch_eq ?_ rfl rfl fun e _ t ht => newTimer_heap_of_some hnone ht
  refine (h.queue.newTimer hnone hp.2.2 w i).perm ?_
  have hperm : (p :: s.detachedTimers).Perm (s.detachedTimers ++ [p]) := by
    simpa using (List.perm_append_singleton p s.detachedTimers).symm
  simpa [detachedTimers, pendingAdds, TimerTask.adds, batchEntries] using hperm

/-- A step of `addTimer` on the loop thread. -/
lemma step_addTimer (h : LoopInv s) {p : Ptr} (hp : s.Fresh p) (w : Timestamp) (i : Interval)
    (clk : Timestamp) :
    (s.queue.newTimer p w i).addTimerInLoop p clk =
        some ((s.queue.newTimer p w i).added p ⟨w, i, s.queue.numCreated⟩ clk) ∧
      LoopInv { s with
        queue := ((s.queue.newTimer p w i).added p ⟨w, i, s.queue.numCreated⟩ clk).1
        clock := clk } := by
  have hnone : s.queue.heap p = none := Option.isNone_iff_eq_none.mp hp.1
  have hself : (s.queue.newTimer p w i).heap p = some ⟨w, i, s.queue.numCreated⟩ :=
    setHeap_self s.queue _ _
  have hnew := h.queue.newTimer hnone hp.2.2 w i
  refine ⟨addTimerInLoop_eq hnew hself, h.of_batch_eq (hnew.added hself) ?_ rfl ?_⟩
  · obtain ⟨fd, hfd⟩ := (s.queue.newTimer p w i).added_fst p ⟨w, i, s.queue.numCreated⟩ clk
    rw [hfd]
    rfl
  · intro e _ t ht
    rw [added_heap]
    exact newTimer_heap_of_some hnone ht

/-- A step of `runTask` that runs `addTimerInLoop`. -/
lemma step_runAdd (h : LoopInv s) {p : Ptr} {tasks : List TimerTask} (hbatch : s.batch = none)
    (htasks : s.tasks = .addTimerInLoop p :: tasks) (clk : Timestamp) :
    ∃ t, s.queue.heap p = some t ∧ s.queue.addTimerInLoop p clk = some (s.queue.added p t clk) ∧
      LoopInv { s with queue := (s.queue.added p t clk).1, tasks := tasks, clock := clk } := by
  have hout : s.detachedTimers = p :: tasks.filterMap TimerTask.adds := by
    simp [detachedTimers, pendingAdds, batchEntries, hbatch, htasks, TimerTask.adds]
  have hqueue := h.queue
  rw [hout] at hqueue
  obtain ⟨t, ht, -⟩ := hqueue.out_live p List.mem_cons_self
  refine ⟨t, ht, addTimerInLoop_eq hqueue ht, h.of_batch_eq ?_ ?_ rfl ?_⟩
  · have hout' : ({ s with queue := (s.queue.added p t clk).1, tasks := tasks, clock := clk } :
        TimerLoop).detachedTimers = tasks.filterMap TimerTask.adds := by
      simp [detachedTimers, pendingAdds, batchEntries, hbatch]
    rw [hout']
    exact hqueue.added ht
  · obtain ⟨fd, hfd⟩ := s.queue.added_fst p t clk
    rw [hfd]
    rfl
  · intro e _ t' ht'
    rw [added_heap]
    exact ht'

/-- A step that runs `cancelInLoop`. -/
lemma step_cancel (h : LoopInv s) (id : TimerId) (clk : Timestamp) {tasks : List TimerTask}
    (hout : tasks.filterMap TimerTask.adds = s.pendingAdds) :
    ∃ q, s.queue.cancelInLoop id = some q ∧ Cancelled s.queue id q ∧
      LoopInv { s with queue := q, tasks := tasks, clock := clk } := by
  obtain ⟨q, heq, hq, hinv⟩ := cancelInLoop_cancelled h.queue id
  refine ⟨q, heq, hq, h.of_batch_eq ?_ hq.calling rfl fun e he t ht => ?_⟩
  · have hout' : ({ s with queue := q, tasks := tasks, clock := clk } : TimerLoop).detachedTimers =
        s.detachedTimers := by
      unfold detachedTimers
      exact congrArg₂ _ rfl hout
    rw [hout']
    exact hinv
  · exact (hq.heap_of_mem h.queue (mem_detachedTimers_of_batch he)).trans ht

/-- A step that begins a batch. -/
lemma step_handleRead (h : LoopInv s) (hbatch : s.batch = none) (now : Timestamp) :
    ∃ active,
      s.queue.beginHandleRead now = some (s.queue.detached now active, s.queue.expired now) ∧
      LoopInv { s with
        queue := s.queue.detached now active
        batch := some ⟨now, s.queue.expired now, s.queue.expired now⟩
        clock := now } := by
  obtain ⟨active, heq, hinv⟩ := beginHandleRead_spec h.queue now
  refine ⟨active, heq, ?_, rfl, ?_, ?_⟩
  · have hout : s.detachedTimers = s.pendingAdds := by
      simp [detachedTimers, batchEntries, hbatch]
    rw [hout] at hinv
    exact hinv
  · rintro b ⟨rfl⟩
    exact List.suffix_refl _
  · rintro b ⟨rfl⟩ e he
    obtain ⟨hmem, hle⟩ := (mem_expired h.queue).mp he
    obtain ⟨t, ht, hexp, -⟩ := h.queue.timers_active e hmem
    exact ⟨hle, t, ht, hexp⟩

/-- A step that ends a batch. -/
lemma step_finish (h : LoopInv s) {b : Batch} (hbatch : s.batch = some b) (clk : Timestamp) :
    ∃ q, s.queue.endHandleRead b.expired b.now clk = some (q.rearm clk) ∧
      ResetTimers b.now { s.queue with callingExpiredTimers := false } b.expired q ∧
      LoopInv { s with queue := (q.rearm clk).1, batch := none, clock := clk } := by
  have hqueue := h.queue
  unfold detachedTimers batchEntries at hqueue
  rw [hbatch] at hqueue
  obtain ⟨q, heq, hinv, hq⟩ := endHandleRead_spec hqueue b.now clk
  refine ⟨q, heq, hq, hinv, ?_, ?_, ?_⟩
  · obtain ⟨fd, hfd⟩ := q.rearm_fst clk
    rw [hfd]
    exact hq.callingExpiredTimers
  · rintro b' ⟨⟩
  · rintro b' ⟨⟩

/-- No step fails an assertion or uses a freed timer; every step has one of the listed effects, and
keeps the invariant. -/
theorem step_effect (h : LoopInv s) (hpre : s.pre act) :
    ∃ s' out, s.step act = some (s', out) ∧ Effect s act s' out ∧ LoopInv s' := by
  cases act with
  | addTimer p w i clk =>
    obtain ⟨heq, hinv⟩ := step_addTimer h hpre.1 w i clk
    exact ⟨_, _, by simp only [step, heq, Option.bind_eq_bind, Option.bind_some],
      .add hpre.1 rfl, hinv⟩
  | postAddTimer p w i => exact ⟨_, _, rfl, .postAdd hpre, step_postAddTimer h hpre w i⟩
  | cancel id =>
    obtain ⟨q, heq, hq, hinv⟩ := step_cancel h id s.clock (rfl : _ = s.pendingAdds)
    exact ⟨_, _, by simp only [step, heq, Option.bind_eq_bind, Option.bind_some], .cancel hq, hinv⟩
  | postCancel id =>
    refine ⟨_, _, rfl, .postCancel, h.of_batch_eq ?_ rfl rfl fun e _ t ht => ht⟩
    simpa [detachedTimers, pendingAdds, batchEntries, List.filterMap_cons, TimerTask.adds]
      using h.queue
  | runTask clk =>
    obtain ⟨hbatch, hne⟩ := hpre
    obtain ⟨task, tasks, htasks⟩ := List.exists_cons_of_ne_nil hne
    cases task with
    | addTimerInLoop p =>
      obtain ⟨t, ht, heq, hinv⟩ := step_runAdd h hbatch htasks clk
      exact ⟨_, _, by simp only [step, htasks, heq, Option.bind_eq_bind, Option.bind_some],
        .runAdd hbatch htasks ht rfl, hinv⟩
    | cancelInLoop id =>
      have hout : tasks.filterMap TimerTask.adds = s.pendingAdds := by
        simp [pendingAdds, htasks, List.filterMap_cons, TimerTask.adds]
      obtain ⟨q, heq, hq, hinv⟩ := step_cancel h id clk hout
      exact ⟨_, _, by simp only [step, htasks, heq, Option.bind_eq_bind, Option.bind_some],
        .runCancel hbatch htasks hq, hinv⟩
  | handleRead now =>
    obtain ⟨active, heq, hinv⟩ := step_handleRead h hpre now
    exact ⟨_, _, by simp only [step, heq, Option.bind_eq_bind, Option.bind_some], .begin hpre, hinv⟩
  | runCallback =>
    obtain ⟨b, hb, hne⟩ := hpre
    obtain ⟨e, rest, hrest⟩ := List.exists_cons_of_ne_nil hne
    have hsuffix : e :: rest <:+ b.expired := hrest ▸ h.rest b hb
    obtain ⟨hdue, t, ht, hexp⟩ := h.due b hb e (hsuffix.mem List.mem_cons_self)
    refine ⟨_, _, by simp only [step, Option.mem_def.mp hb, hrest, ht, Option.bind_eq_bind,
      Option.bind_some], .callback hb hrest ht hexp hdue, ?_, ?_, ?_, ?_⟩
    · have hqueue := h.queue
      unfold detachedTimers batchEntries at hqueue ⊢
      rw [Option.mem_def.mp hb] at hqueue
      exact hqueue
    · rw [h.calling, Option.mem_def.mp hb]
      rfl
    · rintro b' ⟨rfl⟩
      exact (List.suffix_cons e rest).trans hsuffix
    · rintro b' ⟨rfl⟩
      exact h.due b hb
  | finish clk =>
    obtain ⟨b, hb, hrest⟩ := hpre
    obtain ⟨q, heq, hq, hinv⟩ := step_finish h hb clk
    exact ⟨_, _, by simp only [step, Option.mem_def.mp hb, heq, Option.bind_eq_bind,
      Option.bind_some], .finish hb hrest hq, hinv⟩

/-- A new queue satisfies the invariant. -/
lemma LoopInv.new (clk : Timestamp) : LoopInv (TimerLoop.new clk) where
  queue := QueueInv.new
  calling := rfl
  rest := by rintro b ⟨⟩
  due := by rintro b ⟨⟩

/-- Every step of a run has its effect, and keeps the invariant. -/
lemma effect_of_step (h : LoopInv s) (hpre : timerMachine.pre s act)
    (hstep : timerMachine.step s act = some (s', out)) : Effect s act s' out ∧ LoopInv s' := by
  obtain ⟨s'', out', heq, heff, hinv'⟩ := step_effect h hpre
  obtain ⟨rfl, rfl⟩ : s'' = s' ∧ out' = out := by
    simpa using heq.symm.trans hstep
  exact ⟨heff, hinv'⟩

/-- Every reachable state satisfies the invariant. -/
theorem loopInv_of_run {clk : Timestamp} {t : List TimerEvent}
    (h : timerMachine.Run (TimerLoop.new clk) t s) : LoopInv s := by
  refine h.stateInvariant LoopInv (LoopInv.new clk) ?_
  intro s act s' out hinv hpre hstep
  exact (effect_of_step hinv hpre hstep).2

/-- One set `S` of live timers is indexed by `timers_` under expirations and by `activeTimers_`
under sequence numbers, and has no timer of the batch in progress. -/
def IndexesAgree (s : TimerLoop) : Prop :=
  ∃ S : Set Ptr, (∀ p ∈ S, (s.queue.heap p).isSome) ∧
    (∀ e, e ∈ s.queue.timers ↔
      e.timer ∈ S ∧ ∃ t, s.queue.heap e.timer = some t ∧ e.time = t.expiration) ∧
    (∀ id, id ∈ s.queue.activeTimers ↔
      id.timer ∈ S ∧ ∃ t, s.queue.heap id.timer = some t ∧ id.sequence = t.sequence) ∧
    ∀ e ∈ s.batchEntries, e.timer ∉ S

/-- The invariant makes the two sets agree. -/
lemma LoopInv.indexesAgree (h : LoopInv s) : s.IndexesAgree := by
  refine ⟨{p | ∃ e ∈ s.queue.timers, e.timer = p}, ?_, ?_, ?_, ?_⟩
  · rintro p ⟨e, he, rfl⟩
    obtain ⟨t, ht, -⟩ := h.queue.timers_active e he
    rw [ht]
    rfl
  · intro e
    constructor
    · intro he
      obtain ⟨t, ht, hexp, -⟩ := h.queue.timers_active e he
      exact ⟨⟨e, he, rfl⟩, t, ht, hexp.symm⟩
    · rintro ⟨⟨e', he', hp⟩, t, ht, hexp⟩
      have hexp' := (h.queue.active_of_timers he' (hp ▸ ht)).1
      have heq : e' = e := Entry.ext (by rw [hexp, hexp']) hp
      exact heq ▸ he'
  · intro id
    constructor
    · intro hid
      obtain ⟨t, ht, hseq, htim⟩ := h.queue.active_timers id hid
      exact ⟨⟨_, htim, rfl⟩, t, ht, hseq.symm⟩
    · rintro ⟨⟨e, he, hp⟩, t, ht, hseq⟩
      have hact := (h.queue.active_of_timers he (hp ▸ ht)).2
      have heq : (⟨e.timer, t.sequence⟩ : TimerId) = id := TimerId.ext hp hseq.symm
      exact heq ▸ hact
  · rintro e he ⟨e', he', hp⟩
    exact h.queue.not_mem_timers (mem_detachedTimers_of_batch he) he' hp

/-- In every run, whatever the callbacks add and cancel, `timers_` and `activeTimers_` range over
the same timers, none of them of the batch in progress, and the next step, whichever it is, fails
no assertion. -/
theorem timer_indexes_agree {clk : Timestamp} {t : List TimerEvent}
    (h : timerMachine.Run (TimerLoop.new clk) t s) :
    s.IndexesAgree ∧ ∀ act, timerMachine.pre s act → (timerMachine.step s act).isSome := by
  have hinv := loopInv_of_run h
  refine ⟨hinv.indexesAgree, fun act hpre => ?_⟩
  obtain ⟨s', out, heq, -⟩ := step_effect hinv hpre
  exact Option.isSome_iff_exists.mpr ⟨(s', out), heq⟩

/-- A repeating timer cancels itself and a later timer of its batch, and adds one. -/
theorem timer_indexes_agree_reentrant :
    ∃ t s, timerMachine.Run (TimerLoop.new 1) t s ∧
      (s.batchEntries = [⟨10, 1⟩, ⟨12, 2⟩] ∧ s.queue.timers.elems = [⟨5, 3⟩]) ∧
      s.IndexesAgree ∧ ∀ act, timerMachine.pre s act → (timerMachine.step s act).isSome := by
  obtain ⟨t, s, hrun, hp⟩ := timerMachine.exists_run_of_exec (TimerLoop.new 1)
    [.addTimer 1 10 ⟨true, some 4⟩ 1, .postAddTimer 2 12 ⟨false, some 0⟩, .runTask 2,
      .handleRead 12, .runCallback, .cancel ⟨1, 0⟩, .cancel ⟨2, 1⟩, .cancel ⟨0, 0⟩,
      .addTimer 3 5 ⟨false, some 0⟩ 13]
    (fun s _ => s.batchEntries = [⟨10, 1⟩, ⟨12, 2⟩] ∧ s.queue.timers.elems = [⟨5, 3⟩])
    (by decide +kernel)
  exact ⟨t, s, hrun, hp, timer_indexes_agree hrun⟩

end TimerLoop

end MuduoServer
