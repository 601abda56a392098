import MuduoServer.Timer.Cancel

/-!
# The owner of a timer

A `Timer` is created by `new` and freed by `delete`, and the code has three places with a `delete`:
`cancelInLoop`, `reset` and the destructor of the queue.  Here the deletions are computed along the
code of these functions, so that a run of `timerLifeMachine` records which timers were handed to the
queue and which were freed.  An address may be used again by a later timer, so the record names
timers by address and sequence number.

From its insertion on, a timer is in the two sets, or in the batch in progress, or freed.  The
invariant `LifeInv` says so for a whole history: the timers that the queue owns are exactly those
that were inserted and have not been freed.
-/

namespace MuduoServer

namespace TimerQueue

variable {q q' : TimerQueue} {out : List Ptr} {now : Timestamp}

/-- The identity of the timer at the address `p`. -/
def idAt (q : TimerQueue) (p : Ptr) : Option TimerId := (q.heap p).map fun t => ⟨p, t.sequence⟩

/-- The timers that `cancelInLoop(id)` deletes. -/
def cancelFrees (q : TimerQueue) (id : TimerId) : List TimerId :=
  if id ∈ q.activeTimers then (q.idAt id.timer).toList else []

/-- The timers that the loop of `reset` deletes. -/
def resetFrees (now : Timestamp) : TimerQueue → List Entry → List TimerId
  | _, [] => []
  | q, e :: es =>
    match q.heap e.timer with
    | none => []
    | some t =>
      if t.repeated = true ∧ ⟨e.timer, t.sequence⟩ ∉ q.cancelingTimers then
        match (q.setHeap e.timer (some (t.restart now))).insert e.timer with
        | none => []
        | some r => resetFrees now r.1 es
      else ⟨e.timer, t.sequence⟩ :: resetFrees now (q.setHeap e.timer none) es

/-- The loop of the destructor over `timers_`.  A second `delete` of the same timer shows as
`none`. -/
def deleteTimers : TimerQueue → List Entry → Option (TimerQueue × List TimerId)
  | q, [] => some (q, [])
  | q, e :: es => do
    let id ← q.idAt e.timer
    let r ← deleteTimers (q.setHeap e.timer none) es
    some (r.1, id :: r.2)

/-- `~TimerQueue()`: the timers still waiting are deleted, and the sets go with the object. -/
def destruct (q : TimerQueue) : Option (TimerQueue × List TimerId) := do
  let r ← q.deleteTimers q.timers.elems
  some ({ r.1 with timers := .empty, activeTimers := .empty, cancelingTimers := .empty }, r.2)

end TimerQueue

/-- A timer queue until its destruction. -/
structure TimerLife where
  loop : TimerLoop
  destroyed : Bool

/-- What happens to a timer queue. -/
inductive TimerLifeAct where
  | act (a : TimerAct)
  /-- `~TimerQueue()`, outside `handleRead`. -/
  | destroy

/-- What happens to a timer. -/
inductive TimerFate where
  /-- `addTimerInLoop` has put the timer into the sets. -/
  | inserted (id : TimerId)
  /-- The timer has been deleted. -/
  | freed (id : TimerId)
  deriving DecidableEq

namespace TimerLoop

/-- The timer that the step hands to `addTimerInLoop`. -/
def inserts (s : TimerLoop) : TimerAct → List TimerId
  | .addTimer p _ _ _ => [⟨p, s.queue.numCreated⟩]
  | .runTask _ =>
    match s.tasks with
    | .addTimerInLoop p :: _ => (s.queue.idAt p).toList
    | _ => []
  | _ => []

/-- The timers that the step deletes. -/
def frees (s : TimerLoop) : TimerAct → List TimerId
  | .cancel id => s.queue.cancelFrees id
  | .runTask _ =>
    match s.tasks with
    | .cancelInLoop id :: _ => s.queue.cancelFrees id
    | _ => []
  | .finish _ =>
    match s.batch with
    | none => []
    | some b =>
      TimerQueue.resetFrees b.now { s.queue with callingExpiredTimers := false } b.expired
  | _ => []

end TimerLoop

namespace TimerLife

/-- A new queue, with the clock at `clk`. -/
def new (clk : Timestamp) : TimerLife := ⟨.new clk, false⟩

/-- When a step can be taken. -/
def pre (s : TimerLife) : TimerLifeAct → Prop
  | .act a => s.destroyed = false ∧ s.loop.pre a
  | .destroy => s.destroyed = false ∧ s.loop.batch = none

instance (s : TimerLife) (act : TimerLifeAct) : Decidable (s.pre act) := by
  unfold pre
  split <;> infer_instance

/-- The effect of a step, with the timers inserted and freed on the way. -/
def step (s : TimerLife) : TimerLifeAct → Option (TimerLife × List TimerFate)
  | .act a => do
    let r ← s.loop.step a
    some ({ s with loop := r.1 }, (s.loop.inserts a).map .inserted ++ (s.loop.frees a).map .freed)
  | .destroy => do
    let r ← s.loop.queue.destruct
    some ({ loop := { s.loop with queue := r.1 }, destroyed := true }, r.2.map .freed)

end TimerLife

/-- Every run of a timer queue up to its destruction. -/
def timerLifeMachine : Machine TimerLife TimerLifeAct TimerFate where
  pre s act := s.pre act
  step s act := s.step act

instance (s : TimerLife) (act : TimerLifeAct) : Decidable (timerLifeMachine.pre s act) :=
  inferInstanceAs (Decidable (s.pre act))

/-! ### What the loops delete -/

namespace TimerQueue

variable {q q' : TimerQueue} {out : List Ptr} {now : Timestamp} {id : TimerId} {p : Ptr} {t : Timer}

/-- The identity of the timer at an address. -/
lemma idAt_of_heap (ht : q.heap p = some t) : q.idAt p = some ⟨p, t.sequence⟩ := by
  unfold idAt
  rw [ht]
  rfl

/-- The address of an identity is where it was looked up. -/
lemma timer_of_idAt (h : q.idAt p = some id) : id.timer = p := by
  obtain ⟨t, -, rfl⟩ := Option.map_eq_some_iff.mp h
  rfl

/-- An identity is found at its address when its timer is there. -/
lemma idAt_eq_some_iff :
    q.idAt id.timer = some id ↔ ∃ t, q.heap id.timer = some t ∧ t.sequence = id.sequence := by
  constructor
  · intro h
    obtain ⟨t, ht, heq⟩ := Option.map_eq_some_iff.mp h
    exact ⟨t, ht, congrArg TimerId.sequence heq⟩
  · rintro ⟨t, ht, hseq⟩
    rw [idAt_of_heap ht, hseq]

/-- The identity of the expired timer of the entry `e`, if `reset` deletes it. -/
def dropped (q : TimerQueue) (e : Entry) : Option TimerId :=
  match q.heap e.timer with
  | none => none
  | some t =>
    if t.repeated = true ∧ ⟨e.timer, t.sequence⟩ ∉ q.cancelingTimers then none
    else some ⟨e.timer, t.sequence⟩

/-- Whether an entry is dropped depends on its timer and on `cancelingTimers_`. -/
lemma dropped_congr {e : Entry} (hheap : q'.heap e.timer = q.heap e.timer)
    (hcanceling : q'.cancelingTimers = q.cancelingTimers) : q'.dropped e = q.dropped e := by
  unfold dropped
  rw [hheap, hcanceling]

/-- The loop of `reset` deletes the timers it does not put back. -/
lemma resetFrees_eq {es : List Entry} (h : QueueInv q (es.map Entry.timer ++ out)) :
    resetFrees now q es = es.filterMap q.dropped := by
  induction es generalizing q with
  | nil => rfl
  | cons e es ih =>
    rw [List.map_cons, List.cons_append] at h
    have hne : ∀ e' ∈ es, e'.timer ≠ e.timer := by
      intro e' he' heq
      refine (List.nodup_cons.mp h.out_nodup).1 (List.mem_append_left _ ?_)
      exact heq ▸ List.mem_map_of_mem he'
    obtain ⟨t, ht, -⟩ := h.out_live e.timer List.mem_cons_self
    -- the rounds that follow see the same timers, at other addresses
    have hrest : ∀ t' : Option Timer,
        es.filterMap (q.setHeap e.timer t').dropped = es.filterMap q.dropped := by
      intro t'
      refine List.filterMap_congr fun e' he' => ?_
      exact dropped_congr (setHeap_of_ne q t' (hne e' he')) rfl
    by_cases hkeep : t.repeated = true ∧ ⟨e.timer, t.sequence⟩ ∉ q.cancelingTimers
    · have hset := h.setHeap_some List.mem_cons_self ht (Timer.restart_sequence t now)
      have hself : (q.setHeap e.timer (some (t.restart now))).heap e.timer =
          some (t.restart now) := setHeap_self q _ _
      have hdropped : q.dropped e = none := by
        simp only [dropped, ht, if_pos hkeep]
      rw [List.filterMap_cons_none hdropped, ← hrest (some (t.restart now))]
      simp only [resetFrees, ht, if_pos hkeep, insert_eq hset hself]
      exact ih (hset.inserted hself)
    · have hdropped : q.dropped e = some ⟨e.timer, t.sequence⟩ := by
        simp only [dropped, ht, if_neg hkeep]
      rw [List.filterMap_cons_some hdropped, ← hrest none]
      simp only [resetFrees, ht, if_neg hkeep]
      rw [ih h.setHeap_none]

/-- Which timers `reset` deletes. -/
lemma dropped_eq_some_iff {e : Entry} :
    q.dropped e = some id ↔ e.timer = id.timer ∧ ∃ t, q.heap id.timer = some t ∧
      t.sequence = id.sequence ∧ ¬ (t.repeated = true ∧ id ∉ q.cancelingTimers) := by
  constructor
  · intro h
    cases ht : q.heap e.timer with
    | none => simp [dropped, ht] at h
    | some t =>
      simp only [dropped, ht] at h
      obtain ⟨hdrop, heq⟩ := Option.ite_none_left_eq_some.mp h
      obtain rfl := Option.some.inj heq
      exact ⟨rfl, t, ht, rfl, hdrop⟩
  · rintro ⟨htimer, t, ht, hseq, hdrop⟩
    obtain ⟨p, n⟩ := id
    obtain ⟨rfl, rfl⟩ : e.timer = p ∧ t.sequence = n := ⟨htimer, hseq⟩
    simp only [dropped, ht, if_neg hdrop]

/-- The loop of the destructor deletes distinct live timers, each once, and no other. -/
lemma deleteTimers_spec {es : List Entry} (hnodup : (es.map Entry.timer).Nodup)
    (hlive : ∀ e ∈ es, (q.idAt e.timer).isSome) :
    ∃ q', q.deleteTimers es = some (q', es.filterMap fun e => q.idAt e.timer) ∧
      q'.numCreated = q.numCreated ∧ (∀ p ∈ es.map Entry.timer, q'.heap p = none) ∧
      ∀ p, p ∉ es.map Entry.timer → q'.heap p = q.heap p := by
  induction es generalizing q with
  | nil => exact ⟨q, rfl, rfl, by simp, fun _ _ => rfl⟩
  | cons e es ih =>
    rw [List.map_cons, List.nodup_cons] at hnodup
    obtain ⟨id, hid⟩ := Option.isSome_iff_exists.mp (hlive e List.mem_cons_self)
    have hrest : ∀ e' ∈ es, (q.setHeap e.timer none).idAt e'.timer = q.idAt e'.timer := by
      intro e' he'
      have hne : e'.timer ≠ e.timer := fun heq => hnodup.1 (heq ▸ List.mem_map_of_mem he')
      unfold idAt
      rw [setHeap_of_ne q none hne]
    obtain ⟨q', heq, hnum, hmem, hnot⟩ := ih (q := q.setHeap e.timer none) hnodup.2
      fun e' he' => by
        rw [hrest e' he']
        exact hlive e' (List.mem_cons_of_mem _ he')
    refine ⟨q', ?_, hnum, ?_, ?_⟩
    · have hcons : (e :: es).filterMap (fun e => q.idAt e.timer) =
          id :: es.filterMap fun e => q.idAt e.timer := List.filterMap_cons_some hid
      rw [hcons, ← List.filterMap_congr hrest]
      simp only [deleteTimers, hid, heq, Option.bind_eq_bind, Option.bind_some]
    · intro p hp
      by_cases hp' : p ∈ es.map Entry.timer
      · exact hmem p hp'
      · obtain rfl := (List.mem_cons.mp hp).resolve_right hp'
        rw [hnot _ hp', setHeap_self]
    · intro p hp
      rw [List.map_cons, List.mem_cons, not_or] at hp
      rw [hnot p hp.2, setHeap_of_ne q none hp.1]

end TimerQueue

/-! ### One step -/

namespace TimerLoop

open TimerQueue

variable {s s' : TimerLoop} {act : TimerAct} {out : List TimerEvent} {id : TimerId}

/-- The timer `id` has not been freed. -/
def Alive (s : TimerLoop) (id : TimerId) : Prop := s.queue.idAt id.timer = some id

instance (s : TimerLoop) (id : TimerId) : Decidable (s.Alive id) :=
  inferInstanceAs (Decidable (s.queue.idAt id.timer = some id))

/-- The timer `id` is alive and has been handed to the queue. -/
def Owned (s : TimerLoop) (id : TimerId) : Prop := s.Alive id ∧ id.timer ∉ s.pendingAdds

/-- A timer is alive exactly if it is in memory under its identity. -/
lemma alive_iff : s.Alive id ↔ ∃ t, Live s id t := idAt_eq_some_iff

/-- A timer that is in memory is alive. -/
lemma Live.alive {t : Timer} (h : Live s id t) : s.Alive id := alive_iff.mpr ⟨t, h⟩

/-- What a step does to the timers of the queue, when it inserts `ins` and frees `del`. -/
structure FateStep (s s' : TimerLoop) (ins del : List TimerId) : Prop where
  del_nodup : del.Nodup
  del_owned : ∀ id ∈ del, s.Owned id
  del_dead : ∀ id ∈ del, ¬ s'.Alive id
  ins_owned : ∀ id ∈ ins, s'.Owned id ∧ ¬ s.Owned id
  kept : ∀ id, s.Owned id → id ∉ del → s'.Owned id
  source : ∀ id, s'.Owned id → s.Owned id ∨ id ∈ ins
  /-- Only a new timer comes to life. -/
  alive : ∀ id, id.sequence < s.queue.numCreated → s'.Alive id → s.Alive id

/-- A step that deletes timers of the queue. -/
lemma FateStep.of_delete {del : List TimerId} (hnodup : del.Nodup)
    (hdel : ∀ id ∈ del, s.Owned id) (hpending : s'.pendingAdds = s.pendingAdds)
    (halive : ∀ id, s'.Alive id ↔ s.Alive id ∧ id ∉ del) : FateStep s s' [] del := by
  refine ⟨hnodup, hdel, fun id hid h => ((halive id).mp h).2 hid, by simp, ?_, ?_,
    fun id _ h => ((halive id).mp h).1⟩
  · intro id howned hid
    refine ⟨(halive id).mpr ⟨howned.1, hid⟩, ?_⟩
    rw [hpending]
    exact howned.2
  · intro id howned
    refine Or.inl ⟨((halive id).mp howned.1).1, ?_⟩
    rw [← hpending]
    exact howned.2

/-- A step that leaves the timers and the posted tasks alone. -/
lemma FateStep.of_eq (hheap : s'.queue.heap = s.queue.heap)
    (hpending : s'.pendingAdds = s.pendingAdds) : FateStep s s' [] [] := by
  refine FateStep.of_delete List.nodup_nil (by simp) hpending fun id => ?_
  unfold Alive idAt
  rw [hheap]
  simp

/-- A timer that is waiting to be added is not an active one. -/
lemma LoopInv.owned_of_active (hinv : LoopInv s) (hid : id ∈ s.queue.activeTimers) :
    s.Owned id := by
  obtain ⟨t, ht, hseq, -⟩ := hinv.queue.active_timers id hid
  refine ⟨Live.alive ⟨ht, hseq⟩, fun hmem => ?_⟩
  exact hinv.queue.not_mem_active (List.mem_append_right _ hmem) hid rfl

/-- The timers of the batch in progress belong to the queue. -/
lemma LoopInv.owned_of_batch (hinv : LoopInv s) (halive : s.Alive id)
    (hmem : id.timer ∈ s.batchEntries.map Entry.timer) : s.Owned id := by
  refine ⟨halive, fun hpending => ?_⟩
  exact (List.nodup_append.mp hinv.queue.out_nodup).2.2 _ hmem _ hpending rfl

/-- A step that runs `cancelInLoop`. -/
lemma FateStep.of_cancelled (hinv : LoopInv s) {q : TimerQueue} {id : TimerId}
    (hq : Cancelled s.queue id q) (hheap : s'.queue.heap = q.heap)
    (hpending : s'.pendingAdds = s.pendingAdds) :
    FateStep s s' [] (s.queue.cancelFrees id) := by
  rcases hq with @⟨t, hid, ht⟩ | hid
  · have hseq := (hinv.queue.timers_of_active hid ht).1
    have hidAt : s.queue.idAt id.timer = some id := idAt_eq_some_iff.mpr ⟨t, ht, hseq⟩
    have hfrees : s.queue.cancelFrees id = [id] := by
      simp only [cancelFrees, if_pos hid, hidAt, Option.toList_some]
    rw [hfrees]
    refine FateStep.of_delete (List.nodup_singleton id) ?_ hpending fun id' => ?_
    · intro id' hid'
      obtain rfl := List.mem_singleton.mp hid'
      exact hinv.owned_of_active hid
    · unfold Alive
      by_cases hp : id'.timer = id.timer
      · -- the address of the cancelled timer held that timer, and holds none now
        have hnone : s'.queue.idAt id.timer = none := by
          simp only [idAt, hheap, removed_heap_self, Option.map_none]
        rw [hp, hnone, hidAt]
        simp [eq_comm]
      · have hsame : s'.queue.idAt id'.timer = s.queue.idAt id'.timer := by
          simp only [idAt, hheap, removed_heap_of_ne hp]
        have hne : id' ∉ [id] := fun hmem =>
          hp (congrArg TimerId.timer (List.mem_singleton.mp hmem))
        rw [hsame]
        exact (and_iff_left hne).symm
  · have hfrees : s.queue.cancelFrees id = [] := if_neg hid
    rw [hfrees]
    refine FateStep.of_eq (hheap.trans ?_) hpending
    unfold TimerQueue.marked
    split <;> rfl

/-- The timers named by distinct addresses are distinct. -/
lemma nodup_filterMap_entries {f : Entry → Option TimerId} {es : List Entry}
    (hf : ∀ e id, f e = some id → id.timer = e.timer) (h : (es.map Entry.timer).Nodup) :
    (es.filterMap f).Nodup := by
  rw [List.Nodup, List.pairwise_filterMap]
  rw [List.Nodup, List.pairwise_map] at h
  refine h.imp fun hne id hid id' hid' heq => hne ?_
  rw [← hf _ _ hid, ← hf _ _ hid', heq]

/-- A step that ends a batch. -/
lemma FateStep.of_reset (hinv : LoopInv s) {b : Batch} (hbatch : s.batch = some b) {q : TimerQueue}
    (hq : ResetTimers b.now { s.queue with callingExpiredTimers := false } b.expired q)
    (hheap : s'.queue.heap = q.heap) (hpending : s'.pendingAdds = s.pendingAdds) :
    FateStep s s' []
      (resetFrees b.now { s.queue with callingExpiredTimers := false } b.expired) := by
  have hqueue := hinv.queue
  have hentries : s.batchEntries = b.expired := by
    simp [batchEntries, hbatch]
  unfold detachedTimers at hqueue
  rw [hentries] at hqueue
  have hflag : QueueInv { s.queue with callingExpiredTimers := false }
      (b.expired.map Entry.timer ++ s.pendingAdds) := hqueue.congr rfl rfl rfl rfl
  rw [resetFrees_eq hflag]
  change FateStep s s' [] (b.expired.filterMap s.queue.dropped)
  have hmem : ∀ id, id ∈ b.expired.filterMap s.queue.dropped ↔
      id.timer ∈ b.expired.map Entry.timer ∧ ∃ t, Live s id t ∧
        ¬ (t.repeated = true ∧ id ∉ s.queue.cancelingTimers) := by
    intro id
    simp only [List.mem_filterMap, dropped_eq_some_iff, List.mem_map, Live, and_assoc]
    constructor
    · rintro ⟨e, he, htimer, hrest⟩
      exact ⟨⟨e, he, htimer⟩, hrest⟩
    · rintro ⟨⟨e, he, htimer⟩, hrest⟩
      exact ⟨e, he, htimer, hrest⟩
  refine FateStep.of_delete ?_ ?_ hpending fun id => ?_
  · exact nodup_filterMap_entries (fun e id h => (dropped_eq_some_iff.mp h).1.symm)
      (List.nodup_append.mp hqueue.out_nodup).1
  · intro id hid
    obtain ⟨htimer, t, hlive, -⟩ := (hmem id).mp hid
    refine hinv.owned_of_batch hlive.alive ?_
    rw [hentries]
    exact htimer
  · rw [alive_iff, alive_iff, hmem]
    by_cases hexpired : id.timer ∈ b.expired.map Entry.timer
    · have hrearmed : s'.queue.heap id.timer = s.queue.rearmed b.now id.timer := by
        rw [hheap]
        exact hq.heap_mem _ hexpired
      constructor
      · rintro ⟨t', ht', hseq⟩
        rw [hrearmed] at ht'
        obtain ⟨t, ht, hkeep, rfl⟩ := exists_of_rearmed ht'
        rw [Timer.restart_sequence] at hseq
        refine ⟨⟨t, ht, hseq⟩, ?_⟩
        rintro ⟨-, t₁, hlive₁, hdrop⟩
        refine hdrop ?_
        obtain rfl : t = t₁ := Option.some.inj (ht.symm.trans hlive₁.1)
        rw [hseq] at hkeep
        exact hkeep
      · rintro ⟨⟨t, ht, hseq⟩, hnot⟩
        have hkeep : t.repeated = true ∧ id ∉ s.queue.cancelingTimers :=
          not_not.mp fun hdrop => hnot ⟨hexpired, t, ⟨ht, hseq⟩, hdrop⟩
        rw [← show (⟨id.timer, t.sequence⟩ : TimerId) = id from TimerId.ext rfl hseq] at hkeep
        refine ⟨t.restart b.now, ?_, (Timer.restart_sequence t b.now).trans hseq⟩
        rw [hrearmed]
        simp only [rearmed, ht, if_pos hkeep]
    · have hsame : s'.queue.heap id.timer = s.queue.heap id.timer := by
        rw [hheap]
        exact hq.heap_not_mem _ hexpired
      unfold Live
      rw [hsame]
      exact (and_iff_left fun h => hexpired h.1).symm

/-- Creating a timer at a free address adds its identity to the living ones. -/
lemma alive_newTimer {p : Ptr} {w : Timestamp} {i : Interval} (hp : s.Fresh p)
    (hheap : s'.queue.heap = (s.queue.newTimer p w i).heap) :
    s'.Alive id ↔ id = ⟨p, s.queue.numCreated⟩ ∨ s.Alive id := by
  unfold Alive
  by_cases htimer : id.timer = p
  · have hnone : s.queue.idAt p = none := by
      simp only [idAt, Option.isNone_iff_eq_none.mp hp.1, Option.map_none]
    have hnew : s'.queue.idAt p = some ⟨p, s.queue.numCreated⟩ := by
      refine idAt_of_heap (t := ⟨w, i, s.queue.numCreated⟩) ?_
      rw [hheap]
      exact setHeap_self s.queue _ _
    rw [htimer, hnone, hnew]
    simp [eq_comm]
  · have hsame : s'.queue.idAt id.timer = s.queue.idAt id.timer := by
      unfold idAt
      rw [hheap]
      exact congrArg _ (setHeap_of_ne s.queue _ htimer)
    have hne : id ≠ ⟨p, s.queue.numCreated⟩ := fun heq => htimer (congrArg TimerId.timer heq)
    rw [hsame]
    exact (or_iff_right hne).symm

/-- The timers that wait to be added are alive. -/
lemma LoopInv.ne_of_fresh (hinv : LoopInv s) {p : Ptr} (hp : s.Fresh p) : p ∉ s.pendingAdds := by
  intro hmem
  obtain ⟨t, ht, -⟩ := hinv.queue.out_live p (List.mem_append_right _ hmem)
  rw [Option.isNone_iff_eq_none.mp hp.1] at ht
  cases ht

/-- A free address has no timer. -/
lemma Alive.ne_of_fresh {p : Ptr} (h : s.Alive id) (hp : s.Fresh p) : id.timer ≠ p := by
  rintro rfl
  obtain ⟨t, ht, -⟩ := alive_iff.mp h
  rw [Option.isNone_iff_eq_none.mp hp.1] at ht
  cases ht

/-- Only the new timer comes to life when one is created. -/
lemma alive_of_newTimer {p : Ptr} {w : Timestamp} {i : Interval} (hp : s.Fresh p)
    (hheap : s'.queue.heap = (s.queue.newTimer p w i).heap)
    (hold : id.sequence < s.queue.numCreated) (halive : s'.Alive id) : s.Alive id := by
  rcases (alive_newTimer hp hheap).mp halive with rfl | halive
  · exact absurd hold (lt_irrefl _)
  · exact halive

/-- `addTimer` on the loop thread. -/
lemma FateStep.of_add (hinv : LoopInv s) {p : Ptr} {w : Timestamp} {i : Interval} (hp : s.Fresh p)
    (hheap : s'.queue.heap = (s.queue.newTimer p w i).heap)
    (hpending : s'.pendingAdds = s.pendingAdds) :
    FateStep s s' [⟨p, s.queue.numCreated⟩] [] := by
  refine ⟨List.nodup_nil, by simp, by simp, ?_, ?_, ?_,
    fun id hold halive => alive_of_newTimer hp hheap hold halive⟩
  · intro id hid
    obtain rfl := List.mem_singleton.mp hid
    refine ⟨⟨(alive_newTimer hp hheap).mpr (Or.inl rfl), ?_⟩, fun howned => ?_⟩
    · rw [hpending]
      exact hinv.ne_of_fresh hp
    · exact howned.1.ne_of_fresh hp rfl
  · intro id howned _
    refine ⟨(alive_newTimer hp hheap).mpr (Or.inr howned.1), ?_⟩
    rw [hpending]
    exact howned.2
  · intro id howned
    have hpend := howned.2
    rw [hpending] at hpend
    rcases (alive_newTimer hp hheap).mp howned.1 with rfl | halive
    · exact Or.inr List.mem_cons_self
    · exact Or.inl ⟨halive, hpend⟩

/-- `addTimer` on another thread: the timer is not handed over yet. -/
lemma FateStep.of_postAdd {p : Ptr} {w : Timestamp} {i : Interval} (hp : s.Fresh p)
    (hheap : s'.queue.heap = (s.queue.newTimer p w i).heap)
    (hpending : s'.pendingAdds = s.pendingAdds ++ [p]) : FateStep s s' [] [] := by
  refine ⟨List.nodup_nil, by simp, by simp, by simp, ?_, ?_,
    fun id hold halive => alive_of_newTimer hp hheap hold halive⟩
  · intro id howned _
    refine ⟨(alive_newTimer hp hheap).mpr (Or.inr howned.1), ?_⟩
    rw [hpending, List.mem_append, List.mem_singleton, not_or]
    exact ⟨howned.2, howned.1.ne_of_fresh hp⟩
  · intro id howned
    have hpend := howned.2
    rw [hpending, List.mem_append, List.mem_singleton, not_or] at hpend
    rcases (alive_newTimer hp hheap).mp howned.1 with rfl | halive
    · exact absurd rfl hpend.2
    · exact Or.inl ⟨halive, hpend.1⟩

/-- A posted `addTimerInLoop` runs. -/
lemma FateStep.of_runAdd (hinv : LoopInv s) {p : Ptr} {t : Timer} (ht : s.queue.heap p = some t)
    (hheap : s'.queue.heap = s.queue.heap) (hpending : s.pendingAdds = p :: s'.pendingAdds) :
    FateStep s s' (s.queue.idAt p).toList [] := by
  have hidAt : s.queue.idAt p = some ⟨p, t.sequence⟩ := idAt_of_heap ht
  have halive : ∀ id, s'.Alive id ↔ s.Alive id := by
    intro id
    unfold Alive idAt
    rw [hheap]
  have hnodup : (p :: s'.pendingAdds).Nodup := by
    rw [← hpending]
    exact (List.nodup_append.mp hinv.queue.out_nodup).2.1
  rw [hidAt, Option.toList_some]
  refine ⟨List.nodup_nil, by simp, by simp, ?_, ?_, ?_, fun id _ h => (halive id).mp h⟩
  · intro id hid
    obtain rfl := List.mem_singleton.mp hid
    refine ⟨⟨(halive _).mpr hidAt, (List.nodup_cons.mp hnodup).1⟩, fun howned => howned.2 ?_⟩
    rw [hpending]
    exact List.mem_cons_self
  · intro id howned _
    have hpend := howned.2
    rw [hpending, List.mem_cons, not_or] at hpend
    exact ⟨(halive id).mpr howned.1, hpend.2⟩
  · intro id howned
    have hid := (halive id).mp howned.1
    by_cases htimer : id.timer = p
    · have heq : id = ⟨p, t.sequence⟩ := by
        rw [← htimer] at hidAt
        rw [← htimer]
        exact Option.some.inj (hid.symm.trans hidAt)
      exact Or.inr (List.mem_singleton.mpr heq)
    · refine Or.inl ⟨hid, ?_⟩
      rw [hpending, List.mem_cons, not_or]
      exact ⟨htimer, howned.2⟩

/-- Every step moves timers as recorded. -/
theorem Effect.lifeStep (hinv : LoopInv s) (heff : Effect s act s' out) :
    FateStep s s' (s.inserts act) (s.frees act) := by
  cases heff with
  | @postAdd p w i hp =>
    refine FateStep.of_postAdd hp rfl ?_
    simp [pendingAdds, TimerTask.adds]
  | postCancel =>
    refine FateStep.of_eq rfl ?_
    simp [pendingAdds, TimerTask.adds, List.filterMap_cons]
  | @add p w i clk r hp hr =>
    refine FateStep.of_add (w := w) (i := i) hinv hp ?_ rfl
    rw [hr]
    exact added_heap _ _ _ _
  | @runAdd p t clk tasks r hbatch htasks ht hr =>
    simp only [inserts, frees, htasks]
    refine FateStep.of_runAdd hinv ht ?_ ?_
    · rw [hr]
      exact added_heap _ _ _ _
    · simp [pendingAdds, htasks, TimerTask.adds]
  | cancel hq => exact FateStep.of_cancelled hinv hq rfl rfl
  | @runCancel id q clk tasks hbatch htasks hq =>
    simp only [inserts, frees, htasks]
    refine FateStep.of_cancelled hinv hq rfl ?_
    simp [pendingAdds, htasks, TimerTask.adds, List.filterMap_cons]
  | begin hbatch => exact FateStep.of_eq rfl rfl
  | callback hbatch hrest ht hexp hdue => exact FateStep.of_eq rfl rfl
  | @finish b q clk hbatch hrest hq =>
    simp only [inserts, frees, hbatch]
    refine FateStep.of_reset hinv hbatch hq ?_ rfl
    obtain ⟨fd, hfd⟩ := q.rearm_fst clk
    have hheap := congrArg TimerQueue.heap hfd
    exact hheap

/-- A timer that the queue owns is in the sets, or in the batch in progress. -/
lemma LoopInv.owned_iff (hinv : LoopInv s) :
    s.Owned id ↔ id ∈ s.queue.activeTimers ∨
      s.Alive id ∧ id.timer ∈ s.batchEntries.map Entry.timer := by
  constructor
  · rintro ⟨halive, hpending⟩
    obtain ⟨t, ht, hseq⟩ := alive_iff.mp halive
    rcases hinv.queue.accounted _ _ ht with hactive | hout
    · rw [hseq] at hactive
      exact Or.inl hactive
    · exact Or.inr ⟨halive, (List.mem_append.mp hout).resolve_right hpending⟩
  · rintro (hactive | ⟨halive, hbatch⟩)
    · exact hinv.owned_of_active hactive
    · exact hinv.owned_of_batch halive hbatch

/-- The destructor deletes the timers of the sets. -/
lemma LoopInv.destruct_eq (hinv : LoopInv s) :
    ∃ q' del, s.queue.destruct = some (q', del) ∧ q'.numCreated = s.queue.numCreated ∧
      (q'.timers = .empty ∧ q'.activeTimers = .empty) ∧ del.Nodup ∧
      (∀ id, id ∈ del ↔ id ∈ s.queue.activeTimers) ∧
      (∀ e ∈ s.queue.timers, q'.heap e.timer = none) ∧
      ∀ p, (∀ e ∈ s.queue.timers, e.timer ≠ p) → q'.heap p = s.queue.heap p := by
  have hnodup : (s.queue.timers.elems.map Entry.timer).Nodup :=
    List.Nodup.map_on (fun e he e' he' => hinv.queue.timers_inj he he') s.queue.timers.nodup_elems
  have hidAt : ∀ e ∈ s.queue.timers, ∃ id, s.queue.idAt e.timer = some id ∧
      id ∈ s.queue.activeTimers := by
    intro e he
    obtain ⟨t, ht, -, hactive⟩ := hinv.queue.timers_active e he
    exact ⟨_, idAt_of_heap ht, hactive⟩
  obtain ⟨q', heq, hnum, hgone, hkept⟩ := deleteTimers_spec hnodup fun e he => by
    obtain ⟨id, hid, -⟩ := hidAt e he
    rw [hid]
    rfl
  have hdestruct : s.queue.destruct = some (
      { q' with timers := .empty, activeTimers := .empty, cancelingTimers := .empty },
      s.queue.timers.elems.filterMap fun e => s.queue.idAt e.timer) := by
    simp only [destruct, heq, Option.bind_eq_bind, Option.bind_some]
  refine ⟨_, _, hdestruct, hnum, ⟨rfl, rfl⟩,
    nodup_filterMap_entries (fun e id h => timer_of_idAt h) hnodup, fun id => ?_,
    fun e he => hgone _ (List.mem_map_of_mem he), fun p hp => hkept p ?_⟩
  · rw [List.mem_filterMap]
    constructor
    · rintro ⟨e, he, hid⟩
      obtain ⟨id', hid', hactive⟩ := hidAt e he
      obtain rfl := Option.some.inj (hid.symm.trans hid')
      exact hactive
    · intro hactive
      obtain ⟨t, ht, hseq, htimer⟩ := hinv.queue.active_timers id hactive
      exact ⟨_, htimer, idAt_eq_some_iff.mpr ⟨t, ht, hseq⟩⟩
  · intro hmem
    obtain ⟨e, he, htimer⟩ := List.mem_map.mp hmem
    exact hp e he htimer

/-- The destructor deletes every timer that the queue owns. -/
theorem LoopInv.destruct_spec (hinv : LoopInv s) (hbatch : s.batch = none) :
    ∃ q' del, s.queue.destruct = some (q', del) ∧ q'.numCreated = s.queue.numCreated ∧
      (q'.timers = .empty ∧ q'.activeTimers = .empty) ∧
      FateStep s { s with queue := q' } [] del ∧ ∀ id, ¬ Owned { s with queue := q' } id := by
  obtain ⟨q', del, heq, hnum, hempty, hnodup, hdel, hgone, hkept⟩ := hinv.destruct_eq
  have hstep : FateStep s { s with queue := q' } [] del := by
    refine FateStep.of_delete hnodup (fun id hid => hinv.owned_of_active ((hdel id).mp hid)) rfl ?_
    intro id
    rw [alive_iff, alive_iff, hdel]
    unfold Live
    by_cases hmem : ∃ e ∈ s.queue.timers, e.timer = id.timer
    · obtain ⟨e, he, htimer⟩ := hmem
      have hnone : q'.heap id.timer = none := htimer ▸ hgone e he
      obtain ⟨t, ht, -, hactive⟩ := hinv.queue.timers_active e he
      rw [htimer] at ht hactive
      constructor
      · rintro ⟨t', ht', -⟩
        cases hnone.symm.trans ht'
      · rintro ⟨⟨t', ht', hseq⟩, hnot⟩
        obtain rfl : t = t' := Option.some.inj (ht.symm.trans ht')
        rw [hseq] at hactive
        exact absurd hactive hnot
    · have hsame : q'.heap id.timer = s.queue.heap id.timer :=
        hkept _ fun e he htimer => hmem ⟨e, he, htimer⟩
      have hnot : id ∉ s.queue.activeTimers := by
        intro hactive
        obtain ⟨t, -, -, htimer⟩ := hinv.queue.active_timers id hactive
        exact hmem ⟨_, htimer, rfl⟩
      rw [hsame]
      exact (and_iff_left hnot).symm
  refine ⟨q', del, heq, hnum, hempty, hstep, fun id howned => ?_⟩
  have hsource := (hstep.source id howned).resolve_right List.not_mem_nil
  rcases hinv.owned_iff.mp hsource with hactive | ⟨-, hmem⟩
  · exact hstep.del_dead id ((hdel id).mpr hactive) howned.1
  · exact not_mem_batchEntries hbatch hmem

end TimerLoop

/-! ### Whole histories -/

namespace TimerLife

open TimerLoop

variable {s s' : TimerLife} {act : TimerLifeAct} {t out : List TimerFate} {id : TimerId}

/-- The addresses that the queue holds: those in its two sets and in the vector `expired`. -/
def held (s : TimerLife) : List Ptr :=
  s.loop.queue.timers.elems.map Entry.timer ++ s.loop.queue.activeTimers.elems.map TimerId.timer ++
    s.loop.batchEntries.map Entry.timer

/-- The queue owns the timers that were inserted and have not been freed; a freed one was inserted,
was freed once, and is dead. -/
structure LifeInv (t : List TimerFate) (s : TimerLife) : Prop where
  loop : s.destroyed = false → LoopInv s.loop
  destroyed : s.destroyed = true → s.held = [] ∧ ∀ id, ¬ s.loop.Owned id
  owned : ∀ id, s.loop.Owned id ↔ .inserted id ∈ t ∧ .freed id ∉ t
  freed : ∀ id, .freed id ∈ t → .inserted id ∈ t ∧ ¬ s.loop.Alive id ∧ t.count (.freed id) = 1
  bound : ∀ id, .inserted id ∈ t → id.sequence < s.loop.queue.numCreated

/-- A timer is recorded as freed when it is among those deleted. -/
lemma mem_freed {ins del : List TimerId} :
    .freed id ∈ t ++ (ins.map TimerFate.inserted ++ del.map TimerFate.freed) ↔
      .freed id ∈ t ∨ id ∈ del := by
  simp

/-- A timer is recorded as inserted when it is among those inserted. -/
lemma mem_inserted {ins del : List TimerId} :
    .inserted id ∈ t ++ (ins.map TimerFate.inserted ++ del.map TimerFate.freed) ↔
      .inserted id ∈ t ∨ id ∈ ins := by
  simp

/-- How often a step frees a timer. -/
lemma count_freed {ins del : List TimerId} :
    (ins.map TimerFate.inserted ++ del.map TimerFate.freed).count (.freed id) = del.count id := by
  rw [List.count_append, List.count_eq_zero_of_not_mem (by simp), zero_add]
  exact List.count_map_of_injective _ _ (fun _ _ h => TimerFate.freed.inj h) _

/-- A step that moves timers as recorded keeps the history true. -/
theorem LifeInv.step (h : LifeInv t s) {ins del : List TimerId}
    (hstep : FateStep s.loop s'.loop ins del) (hloop : s'.destroyed = false → LoopInv s'.loop)
    (hdestroyed : s'.destroyed = true → s'.held = [] ∧ ∀ id, ¬ s'.loop.Owned id)
    (hnum : s.loop.queue.numCreated ≤ s'.loop.queue.numCreated)
    (hins : ∀ id ∈ ins, id.sequence < s'.loop.queue.numCreated) :
    LifeInv (t ++ (ins.map .inserted ++ del.map .freed)) s' := by
  refine ⟨hloop, hdestroyed, fun id => ?_, fun id hid => ?_, fun id hid => ?_⟩
  · rw [mem_freed, mem_inserted, not_or]
    constructor
    · intro howned
      have hdel : id ∉ del := fun hmem => hstep.del_dead id hmem howned.1
      rcases hstep.source id howned with hold | hnew
      · exact ⟨Or.inl ((h.owned id).mp hold).1, ((h.owned id).mp hold).2, hdel⟩
      · refine ⟨Or.inr hnew, fun hfreed => ?_, hdel⟩
        -- a freed timer cannot be inserted, since it is dead and stays dead
        obtain ⟨hold, hdead, -⟩ := h.freed id hfreed
        exact hdead (hstep.alive id (h.bound id hold) howned.1)
    · rintro ⟨hold | hnew, hfreed, hdel⟩
      · exact hstep.kept id ((h.owned id).mpr ⟨hold, hfreed⟩) hdel
      · exact (hstep.ins_owned id hnew).1
  · rw [List.count_append, count_freed, mem_inserted]
    rcases mem_freed.mp hid with hid | hdel
    · obtain ⟨hold, hdead, hcount⟩ := h.freed id hid
      have hdel : id ∉ del := fun hmem => hdead (hstep.del_owned id hmem).1
      refine ⟨Or.inl hold, fun halive' => hdead (hstep.alive id (h.bound id hold) halive'), ?_⟩
      rw [hcount, List.count_eq_zero_of_not_mem hdel]
    · obtain ⟨hold, hfreed⟩ := (h.owned id).mp (hstep.del_owned id hdel)
      refine ⟨Or.inl hold, hstep.del_dead id hdel, ?_⟩
      rw [List.count_eq_zero_of_not_mem hfreed, List.count_eq_one_of_mem hstep.del_nodup hdel]
  · rcases mem_inserted.mp hid with hid | hid
    · exact (h.bound id hid).trans_le hnum
    · exact hins id hid

/-- No step fails, and every step keeps the history true. -/
theorem step_lifeInv (h : LifeInv t s) (hpre : s.pre act) :
    ∃ s' out, s.step act = some (s', out) ∧ LifeInv (t ++ out) s' := by
  cases act with
  | act a =>
    obtain ⟨hdestroyed, hpre⟩ := hpre
    have hloop := h.loop hdestroyed
    obtain ⟨l', out, heq, heff, hinv⟩ := step_effect hloop hpre
    have hstep := heff.lifeStep hloop
    refine ⟨{ s with loop := l' }, _, by simp only [step, heq, Option.bind_eq_bind,
      Option.bind_some], h.step hstep (fun _ => hinv) ?_ heff.numCreated_le ?_⟩
    · intro htrue
      rw [show s.destroyed = true from htrue] at hdestroyed
      cases hdestroyed
    · intro id hid
      obtain ⟨t', ht', hseq⟩ := alive_iff.mp (hstep.ins_owned id hid).1.1
      rw [← hseq]
      exact (hinv.queue.bound _ _ ht').2
  | destroy =>
    obtain ⟨hdestroyed, hbatch⟩ := hpre
    obtain ⟨q', del, heq, hnum, hempty, hstep, hnone⟩ := (h.loop hdestroyed).destruct_spec hbatch
    refine ⟨⟨{ s.loop with queue := q' }, true⟩, del.map .freed, by simp only [step, heq,
      Option.bind_eq_bind, Option.bind_some], ?_⟩
    have hheld : held ⟨{ s.loop with queue := q' }, true⟩ = [] := by
      simp [held, hempty.1, hempty.2, batchEntries, hbatch, OrdSet.empty]
    change LifeInv (t ++ (([] : List TimerId).map .inserted ++ del.map .freed)) _
    exact h.step hstep (by simp) (fun _ => ⟨hheld, hnone⟩) hnum.ge (by simp)

/-- A new queue owns nothing. -/
lemma LifeInv.new (clk : Timestamp) : LifeInv [] (TimerLife.new clk) := by
  refine ⟨fun _ => LoopInv.new clk, nofun, fun id => ?_, by simp, by simp⟩
  have hnone : ¬ (TimerLife.new clk).loop.Owned id := by
    rintro ⟨halive, -⟩
    cases halive
  simp [hnone]

/-- The history of every run is true of its state. -/
theorem lifeInv_of_run {clk : Timestamp} (h : timerLifeMachine.Run (TimerLife.new clk) t s) :
    LifeInv t s := by
  refine h.invariant LifeInv (LifeInv.new clk) ?_
  intro t s act s' out hinv hpre hstep
  obtain ⟨s'', out', heq, hinv'⟩ := step_lifeInv hinv hpre
  obtain ⟨rfl, rfl⟩ : s'' = s' ∧ out' = out := by
    simpa using heq.symm.trans hstep
  exact hinv'

/-! ### One owner -/

/-- The timer `id` is in `timers_`, under its expiration, and in `activeTimers_`. -/
def InSets (s : TimerLife) (id : TimerId) : Prop :=
  id ∈ s.loop.queue.activeTimers ∧
    ∃ t, Live s.loop id t ∧ ⟨t.expiration, id.timer⟩ ∈ s.loop.queue.timers

/-- The timer `id` is in the batch in progress. -/
def InBatch (s : TimerLife) (id : TimerId) : Prop :=
  s.loop.Alive id ∧ id.timer ∈ s.loop.batchEntries.map Entry.timer

/-- The timer `id` is in exactly one of the places it can be in, and in the two sets together. -/
inductive OneOwner (t : List TimerFate) (s : TimerLife) (id : TimerId) : Prop
  | sets (hsets : s.InSets id) (hbatch : ¬ s.InBatch id) (hfreed : .freed id ∉ t)
  | batch (hbatch : s.InBatch id) (hactive : id ∉ s.loop.queue.activeTimers)
      (htimers : ∀ e ∈ s.loop.queue.timers, e.timer ≠ id.timer) (hfreed : .freed id ∉ t)
  | freed (hfreed : .freed id ∈ t) (hdead : ¬ s.loop.Alive id)
      (hactive : id ∉ s.loop.queue.activeTimers)

/-- A timer that was inserted is in one place. -/
lemma LifeInv.oneOwner (h : LifeInv t s) (hid : .inserted id ∈ t) : OneOwner t s id := by
  by_cases hfreed : .freed id ∈ t
  · obtain ⟨-, hdead, -⟩ := h.freed id hfreed
    refine .freed hfreed hdead fun hactive => ?_
    cases hdestroyed : s.destroyed with
    | true =>
      have hheld := (h.destroyed hdestroyed).1
      simp only [held, List.append_eq_nil_iff, List.map_eq_nil_iff] at hheld
      change id ∈ s.loop.queue.activeTimers.elems at hactive
      rw [hheld.1.2] at hactive
      cases hactive
    | false => exact hdead ((h.loop hdestroyed).owned_of_active hactive).1
  · have howned := (h.owned id).mpr ⟨hid, hfreed⟩
    have hloop : LoopInv s.loop := by
      refine h.loop ((Bool.not_eq_true _).mp fun hdestroyed => ?_)
      exact (h.destroyed hdestroyed).2 id howned
    rcases hloop.owned_iff.mp howned with hactive | ⟨halive, hmem⟩
    · obtain ⟨t', ht', hseq, htimer⟩ := hloop.queue.active_timers id hactive
      refine .sets ⟨hactive, t', ⟨ht', hseq⟩, htimer⟩ (fun hbatch => ?_) hfreed
      exact hloop.queue.not_mem_active (List.mem_append_left _ hbatch.2) hactive rfl
    · have hout : id.timer ∈ s.loop.detachedTimers := List.mem_append_left _ hmem
      exact .batch ⟨halive, hmem⟩ (fun hactive => hloop.queue.not_mem_active hout hactive rfl)
        (fun e he => hloop.queue.not_mem_timers hout he) hfreed

/-- Every address that the queue holds is that of a timer which was inserted and has not been
freed. -/
lemma LifeInv.held_alive (h : LifeInv t s) {p : Ptr} (hp : p ∈ s.held) :
    ∃ id : TimerId, id.timer = p ∧ s.loop.Alive id ∧ .inserted id ∈ t ∧ .freed id ∉ t := by
  have hloop : LoopInv s.loop := by
    refine h.loop ((Bool.not_eq_true _).mp fun hdestroyed => ?_)
    rw [(h.destroyed hdestroyed).1] at hp
    cases hp
  have howned : ∃ id : TimerId, id.timer = p ∧ s.loop.Owned id := by
    unfold held at hp
    rw [List.mem_append, List.mem_append, List.mem_map, List.mem_map] at hp
    rcases hp with (⟨e, he, rfl⟩ | ⟨id, hid, rfl⟩) | hmem
    · obtain ⟨t', -, -, hactive⟩ := hloop.queue.timers_active e he
      exact ⟨_, rfl, hloop.owned_of_active hactive⟩
    · exact ⟨id, rfl, hloop.owned_of_active hid⟩
    · obtain ⟨t', ht', -⟩ := hloop.queue.out_live p (List.mem_append_left _ hmem)
      exact ⟨⟨p, t'.sequence⟩, rfl, hloop.owned_of_batch (Live.alive ⟨ht', rfl⟩) hmem⟩
  obtain ⟨id, rfl, howned⟩ := howned
  exact ⟨id, rfl, howned.1, (h.owned id).mp howned⟩

/-- In every run of a timer queue, each timer that was inserted is in the two sets, or in the batch
in progress, or freed, and in one of these places only.  No timer is freed twice, only inserted
timers are freed, and after the destructor each of them has been freed exactly once.  Every address
that the queue holds is that of a timer not yet freed, and no step uses a freed timer or fails an
assertion. -/
theorem timer_one_owner {clk : Timestamp} (h : timerLifeMachine.Run (TimerLife.new clk) t s) :
    (∀ id, .inserted id ∈ t → OneOwner t s id) ∧
      (∀ id, t.count (.freed id) ≤ 1 ∧ (.freed id ∈ t → .inserted id ∈ t)) ∧
      (s.destroyed = true → ∀ id, .inserted id ∈ t → t.count (.freed id) = 1) ∧
      (∀ p ∈ s.held, ∃ id : TimerId, id.timer = p ∧ s.loop.Alive id ∧ .inserted id ∈ t ∧
        .freed id ∉ t) ∧
      ∀ act, timerLifeMachine.pre s act → (timerLifeMachine.step s act).isSome := by
  have hinv := lifeInv_of_run h
  refine ⟨fun id hid => hinv.oneOwner hid, fun id => ⟨?_, fun hid => (hinv.freed id hid).1⟩,
    fun hdestroyed id hid => ?_, fun p hp => hinv.held_alive hp, fun act hpre => ?_⟩
  · by_cases hfreed : .freed id ∈ t
    · exact (hinv.freed id hfreed).2.2.le
    · rw [List.count_eq_zero_of_not_mem hfreed]
      exact Nat.zero_le 1
  · have hfreed : .freed id ∈ t := by
      by_contra hnot
      exact (hinv.destroyed hdestroyed).2 id ((hinv.owned id).mpr ⟨hid, hnot⟩)
    exact (hinv.freed id hfreed).2.2
  · obtain ⟨s', out, heq, -⟩ := step_lifeInv hinv hpre
    exact Option.isSome_iff_exists.mpr ⟨(s', out), heq⟩

/-- The callback of a repeating timer cancels a waiting timer, whose address is used again and whose
identity is then cancelled once more; a one-shot timer of the same batch is freed at its end, and
the destructor frees the rest. -/
theorem timer_one_owner_reused :
    ∃ t s, timerLifeMachine.Run (TimerLife.new 1) t s ∧
      (s.destroyed = true ∧ t = [.inserted ⟨1, 0⟩, .inserted ⟨2, 1⟩, .inserted ⟨3, 2⟩,
        .freed ⟨3, 2⟩, .inserted ⟨3, 3⟩, .freed ⟨2, 1⟩, .freed ⟨1, 0⟩, .freed ⟨3, 3⟩]) ∧
      (∀ id, .inserted id ∈ t → OneOwner t s id) ∧ ∀ id, t.count (.freed id) ≤ 1 := by
  obtain ⟨t, s, hrun, hp⟩ := timerLifeMachine.exists_run_of_exec (TimerLife.new 1)
    [.act (.addTimer 1 10 (every 4) 1), .act (.addTimer 2 11 oneShot 2),
      .act (.postAddTimer 3 50 oneShot), .act (.runTask 3), .act (.handleRead 12),
      .act .runCallback, .act (.cancel ⟨3, 2⟩), .act (.addTimer 3 60 oneShot 13),
      .act (.cancel ⟨3, 2⟩), .act .runCallback, .act (.finish 14), .destroy]
    (fun s t => s.destroyed = true ∧ t = [.inserted ⟨1, 0⟩, .inserted ⟨2, 1⟩, .inserted ⟨3, 2⟩,
      .freed ⟨3, 2⟩, .inserted ⟨3, 3⟩, .freed ⟨2, 1⟩, .freed ⟨1, 0⟩, .freed ⟨3, 3⟩])
    (by decide +kernel)
  have hone := timer_one_owner hrun
  exact ⟨t, s, hrun, hp, hone.1, fun id => (hone.2.1 id).1⟩

end TimerLife

end MuduoServer
