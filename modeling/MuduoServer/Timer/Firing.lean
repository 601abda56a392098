import MuduoServer.Timer.Cancel

/-!
# Timers fire when due

`HandleRead s now t s'` is one whole `handleRead`: it takes the due timers out, runs their callbacks
one after the other, with everything the callbacks and the other threads do in between, and puts
the repeating ones back.  `BatchInv` is the invariant of the loop over the callbacks: what has been
started and what is still to be started make up the due timers in order, and the marks in
`cancelingTimers_` are the cancellations of the trace.

`FiringLaws` are the laws of a whole run: no callback is early, and one-shot timers fire once.

That a repeating timer comes back for the reading plus its interval (`BatchRearms`), and that its
starts keep their distance (`StartsSpaced`), hold where `addTime` does not overflow.  `BatchFits`
says this of a whole batch and `RearmsInRange` of the step that ends it, and the two agree
(`BatchInv.rearmsInRange_iff`).  `timer_put_back_in_the_past` is a run in which it does overflow.
-/

namespace MuduoServer

namespace TimerLoop

open TimerQueue

variable {s s' : TimerLoop} {act : TimerAct} {out : List TimerEvent} {id : TimerId}

/-! ### Timers that are gone -/

/-- The timer `id` was created and has been freed. -/
def Dead (s : TimerLoop) (id : TimerId) : Prop :=
  id.sequence < s.queue.numCreated ∧ ∀ t, ¬ Live s id t

/-- A step does not bring a freed timer back. -/
lemma Dead.effect (h : s.Dead id) (heff : Effect s act s' out) :
    s'.Dead id ∧ ∀ now exp, TimerEvent.started id now exp ∉ out := by
  obtain ⟨hold, hdead⟩ := h
  refine ⟨⟨hold.trans_le heff.numCreated_le, fun t' hlive' => ?_⟩, fun now exp hmem => ?_⟩
  · rcases heff.origin hold hlive' with ⟨hlive, -⟩ | ⟨-, -, -, hlive, -⟩
    · exact hdead _ hlive
    · exact hdead _ hlive
  · obtain ⟨b, e, rest, t, -, -, -, -, hlive, -⟩ := heff.started hmem
    exact hdead t hlive

/-- The timer `id` is never seen again, whatever happens. -/
def Gone (s : TimerLoop) (id : TimerId) : Prop :=
  ∀ t s', timerMachine.Run s t s' →
    (∀ t', ¬ Live s' id t') ∧ ∀ now exp, TimerEvent.started id now exp ∉ t

/-- A freed timer is gone for good. -/
theorem Dead.gone (h : s.Dead id) (hinv : LoopInv s) : s.Gone id := by
  intro t s' hrun
  have hall : LoopInv s' ∧ s'.Dead id ∧ ∀ now exp, TimerEvent.started id now exp ∉ t := by
    refine hrun.invariant (fun t s => LoopInv s ∧ s.Dead id ∧
      ∀ now exp, TimerEvent.started id now exp ∉ t) ⟨hinv, h, by simp⟩ ?_
    rintro t s act s' out ⟨hinv, hdead, hnot⟩ hpre hstep
    obtain ⟨heff, hinv'⟩ := effect_of_step hinv hpre hstep
    obtain ⟨hdead', hnot'⟩ := hdead.effect heff
    refine ⟨hinv', hdead', fun now exp hmem => ?_⟩
    rcases List.mem_append.mp hmem with hmem | hmem
    · exact hnot now exp hmem
    · exact hnot' now exp hmem
  exact ⟨hall.2.1.2, hall.2.2⟩

/-! ### One batch -/

/-- A step other than the end of the batch. -/
def Inside (_ : TimerLoop) : TimerAct → Prop
  | .finish _ => False
  | _ => True

instance (s : TimerLoop) (act : TimerAct) : Decidable (s.Inside act) := by
  apply TimerAct.casesOn (motive := fun act => Decidable (s.Inside act)) act <;>
    intros <;> unfold Inside <;> infer_instance

/-- One whole `handleRead` with clock reading `now`, from the state `s`, and its trace. -/
inductive HandleRead (s : TimerLoop) (now : Timestamp) : List TimerEvent → TimerLoop → Prop
  | intro {s₁ s₂ s' : TimerLoop} {out t out' : List TimerEvent} {clk : Timestamp}
      (hpre : timerMachine.pre s (.handleRead now))
      (hbegin : timerMachine.step s (.handleRead now) = some (s₁, out))
      (hrun : (timerMachine.restrict Inside).Run s₁ t s₂)
      (hpre' : timerMachine.pre s₂ (.finish clk))
      (hfinish : timerMachine.step s₂ (.finish clk) = some (s', out')) :
      HandleRead s now (out ++ t ++ out') s'

/-- The timer `id` is in `timers_` with the expiration `exp`, and that is not after `now`. -/
def Due (s : TimerLoop) (now : Timestamp) (id : TimerId) (exp : Timestamp) : Prop :=
  (∃ t, Live s id t ∧ t.expiration = exp) ∧ ⟨exp, id.timer⟩ ∈ s.queue.timers ∧ exp ≤ now

/-- The identity, batch reading and expiration of a started callback. -/
def startOf : TimerEvent → Option (TimerId × Timestamp × Timestamp)
  | .started id now exp => some (id, now, exp)
  | _ => none

/-- The starts of a trace, in order. -/
def starts (t : List TimerEvent) : List (TimerId × Timestamp × Timestamp) := t.filterMap startOf

/-- The starts are those that the trace records. -/
lemma mem_starts {t : List TimerEvent} {now exp : Timestamp} :
    (id, now, exp) ∈ starts t ↔ .started id now exp ∈ t := by
  unfold starts
  rw [List.mem_filterMap]
  constructor
  · rintro ⟨x, hx, hstart⟩
    cases x <;> simp_all [startOf]
  · intro h
    exact ⟨_, h, rfl⟩

/-- The starts of two traces. -/
@[simp] lemma starts_append (t t' : List TimerEvent) : starts (t ++ t') = starts t ++ starts t' :=
  List.filterMap_append

/-- A trace without starts. -/
lemma starts_eq_nil {t : List TimerEvent}
    (h : ∀ id now exp, TimerEvent.started id now exp ∉ t) : starts t = [] := by
  rw [List.eq_nil_iff_forall_not_mem]
  rintro ⟨id, now, exp⟩ hmem
  exact h id now exp (mem_starts.mp hmem)

/-- What a batch starts: each due timer once, in the order of the expirations, and nothing else. -/
structure BatchFires (s : TimerLoop) (now : Timestamp) (t : List TimerEvent) : Prop where
  started_iff : ∀ id now' exp, .started id now' exp ∈ t ↔ now' = now ∧ s.Due now id exp
  once : ((starts t).map Prod.fst).Nodup
  ordered : (starts t).Pairwise fun a b => a.2.2 ≤ b.2.2

/-- What a batch frees of the due timers. -/
structure BatchFrees (s : TimerLoop) (now : Timestamp) (t : List TimerEvent) (s' : TimerLoop) :
    Prop where
  one_shot : ∀ id u, Live s id u → s.Due now id u.expiration → u.repeated = false → s'.Gone id
  cancelled : ∀ id exp, s.Due now id exp → .cancelled id ∈ t → s'.Gone id

/-- The batch is to put the timer `id`, which holds `u`, back: it is due and repeats, and it is not
cancelled during the batch. -/
def PutsBack (s : TimerLoop) (now : Timestamp) (t : List TimerEvent) (id : TimerId) (u : Timer) :
    Prop :=
  Live s id u ∧ s.Due now id u.expiration ∧ u.repeated = true ∧ .cancelled id ∉ t

/-- The timer `id` is back in `timers_`, with the expiration `exp` and otherwise as `u` was. -/
def BackAt (s' : TimerLoop) (id : TimerId) (u : Timer) (exp : Timestamp) : Prop :=
  ⟨exp, id.timer⟩ ∈ s'.queue.timers ∧ Live s' id { u with expiration := exp }

/-- The batch puts the repeating timers back for its clock reading plus their interval. -/
def BatchRearms (s : TimerLoop) (now : Timestamp) (t : List TimerEvent) (s' : TimerLoop) : Prop :=
  ∀ id u, s.PutsBack now t id u → ∃ D ∈ u.interval.micros, s'.BackAt id u (now + D)

/-- For no timer that the batch is to put back does `addTime` overflow. -/
def BatchFits (s : TimerLoop) (now : Timestamp) (t : List TimerEvent) : Prop :=
  ∀ id u, s.PutsBack now t id u → u.interval.Fits now

/-- The start of the callback of a due entry. -/
def firing (s : TimerLoop) (now : Timestamp) (e : Entry) : TimerId × Timestamp × Timestamp :=
  (⟨e.timer, ((s.queue.heap e.timer).map Timer.sequence).getD 0⟩, now, e.time)

/-- What the call of an entry's timer is recorded as. -/
lemma firing_of_heap {now : Timestamp} {e : Entry} {u : Timer} (h : s.queue.heap e.timer = some u) :
    s.firing now e = (⟨e.timer, u.sequence⟩, now, e.time) := by
  simp [firing, h]

/-- The loop over the callbacks, in the state `s₂` after the trace `t`. -/
structure BatchInv (s : TimerLoop) (now : Timestamp) (t : List TimerEvent) (s₂ : TimerLoop) :
    Prop where
  inv : LoopInv s₂
  numCreated : s.queue.numCreated ≤ s₂.queue.numCreated
  /-- What has been started and what is to be started make up the due timers. -/
  batch : ∃ rest, s₂.batch = some ⟨now, s.queue.expired now, rest⟩ ∧
    starts t ++ rest.map (s.firing now) = (s.queue.expired now).map (s.firing now)
  heap : ∀ e ∈ s.queue.expired now, s₂.queue.heap e.timer = s.queue.heap e.timer
  /-- The marks on due timers are the cancellations of the trace. -/
  canceling : ∀ id u, id.timer ∈ (s.queue.expired now).map Entry.timer → Live s id u →
    (id ∈ s₂.queue.cancelingTimers ↔ .cancelled id ∈ t)

/-- The loop begins. -/
lemma BatchInv.begin {now : Timestamp} (hinv : LoopInv s)
    (hpre : timerMachine.pre s (.handleRead now))
    (hstep : timerMachine.step s (.handleRead now) = some (s', out)) :
    out = [] ∧ BatchInv s now [] s' := by
  obtain ⟨heff, hinv'⟩ := effect_of_step hinv hpre hstep
  cases heff with
  | begin hbatch =>
    refine ⟨rfl, hinv', le_rfl, ⟨s.queue.expired now, rfl, rfl⟩, fun e _ => rfl, ?_⟩
    intro id u _ _
    exact iff_of_false OrdSet.not_mem_empty List.not_mem_nil

section Inside

variable {s₂ s₃ : TimerLoop} {now : Timestamp} {t : List TimerEvent}

/-- The entries of the batch are the due ones. -/
lemma BatchInv.batchEntries_eq (h : BatchInv s now t s₂) :
    s₂.batchEntries = s.queue.expired now := by
  obtain ⟨rest, hbatch, -⟩ := h.batch
  simp [batchEntries, hbatch]

/-- A step that starts and cancels nothing. -/
lemma BatchInv.of_quiet (h : BatchInv s now t s₂) (hinv : LoopInv s₃)
    (hnum : s₂.queue.numCreated ≤ s₃.queue.numCreated) (hbatch : s₃.batch = s₂.batch)
    (hheap : ∀ e ∈ s₂.batchEntries, s₃.queue.heap e.timer = s₂.queue.heap e.timer)
    (hcanceling : s₃.queue.cancelingTimers = s₂.queue.cancelingTimers)
    (hcancelled : ∀ id, .cancelled id ∉ out)
    (hstarted : ∀ id now exp, .started id now exp ∉ out) : BatchInv s now (t ++ out) s₃ := by
  refine ⟨hinv, h.numCreated.trans hnum, ?_, ?_, ?_⟩
  · rw [hbatch, starts_append, starts_eq_nil hstarted, List.append_nil]
    exact h.batch
  · intro e he
    rw [hheap e (h.batchEntries_eq ▸ he)]
    exact h.heap e he
  · intro id u hid hlive
    rw [hcanceling, h.canceling id u hid hlive, List.mem_append]
    exact (or_iff_left (hcancelled id)).symm

/-- A step that cancels. -/
lemma BatchInv.cancel (h : BatchInv s now t s₂) {id' : TimerId} {q : TimerQueue}
    (hq : Cancelled s₂.queue id' q) (hinv : LoopInv { s₂ with queue := q })
    (hnum : s₂.queue.numCreated ≤ q.numCreated) :
    BatchInv s now (t ++ [.cancelled id']) { s₂ with queue := q } := by
  have hdetached : ∀ e ∈ s.queue.expired now, e.timer ∈ s₂.detachedTimers := by
    intro e he
    exact mem_detachedTimers_of_batch (h.batchEntries_eq ▸ he)
  refine ⟨hinv, h.numCreated.trans hnum, ?_, ?_, ?_⟩
  · have hnil : starts [TimerEvent.cancelled id'] = [] := rfl
    rw [starts_append, hnil, List.append_nil]
    exact h.batch
  · intro e he
    rw [← h.heap e he]
    exact hq.heap_of_mem h.inv.queue (hdetached e he)
  · intro id u hid hlive
    have hold := h.canceling id u hid hlive
    rw [List.mem_append, List.mem_singleton, TimerEvent.cancelled.injEq, ← hold]
    rcases hq with @⟨t', hid', ht'⟩ | hid'
    · -- an active timer is not of the batch
      have hne : id ≠ id' := by
        rintro rfl
        obtain ⟨e, he, hp⟩ := List.mem_map.mp hid
        exact h.inv.queue.not_mem_active (hdetached e he) hid' hp.symm
      exact (or_iff_left hne).symm
    · have hcalling : s₂.queue.callingExpiredTimers = true := by
        obtain ⟨rest, hbatch, -⟩ := h.batch
        rw [h.inv.calling, hbatch]
        rfl
      change id ∈ (s₂.queue.marked id').cancelingTimers ↔ _
      unfold TimerQueue.marked
      rw [if_pos hcalling]
      exact OrdSet.mem_insert.trans or_comm

/-- A step that starts a callback. -/
lemma BatchInv.callback (h : BatchInv s now t s₂) {b : Batch} {e : Entry} {rest : List Entry}
    {u : Timer} (hbatch : s₂.batch = some b) (hrest : b.rest = e :: rest)
    (hu : s₂.queue.heap e.timer = some u) (hexp : u.expiration = e.time)
    (hinv : LoopInv { s₂ with batch := some { b with rest := rest } }) :
    BatchInv s now (t ++ [.started ⟨e.timer, u.sequence⟩ b.now u.expiration])
      { s₂ with batch := some { b with rest := rest } } := by
  obtain ⟨rest', hbatch', hstarts⟩ := h.batch
  obtain rfl : b = ⟨now, s.queue.expired now, rest'⟩ := Option.some.inj (hbatch.symm.trans hbatch')
  have hmem : e ∈ s.queue.expired now := by
    have hsuffix : e :: rest <:+ s.queue.expired now := hrest ▸ h.inv.rest _ hbatch
    exact hsuffix.mem List.mem_cons_self
  have hfiring : s.firing now e = (⟨e.timer, u.sequence⟩, now, e.time) :=
    firing_of_heap ((h.heap e hmem).symm.trans hu)
  refine ⟨hinv, h.numCreated, ⟨rest, rfl, ?_⟩, h.heap, ?_⟩
  · change rest' = e :: rest at hrest
    rw [hrest, List.map_cons, hfiring] at hstarts
    rw [starts_append, ← hstarts]
    simp [starts, startOf, hexp]
  · intro id u' hid hlive
    rw [List.mem_append, List.mem_singleton]
    simpa using h.canceling id u' hid hlive

/-- A step inside the loop keeps the invariant. -/
theorem BatchInv.effect (h : BatchInv s now t s₂) (hinside : s₂.Inside act)
    (heff : Effect s₂ act s₃ out) (hinv : LoopInv s₃) : BatchInv s now (t ++ out) s₃ := by
  obtain ⟨rest, hsome, -⟩ := h.batch
  have hbusy : s₂.batch ≠ none := by
    rw [hsome]
    exact Option.some_ne_none _
  have hnum := heff.numCreated_le
  have hlive : ∀ e ∈ s₂.batchEntries, ∃ u, s₂.queue.heap e.timer = some u := by
    intro e he
    obtain ⟨u, hu, -⟩ := h.inv.queue.out_live _ (mem_detachedTimers_of_batch he)
    exact ⟨u, hu⟩
  cases heff with
  | @postAdd p w i hp =>
    refine h.of_quiet hinv hnum rfl (fun e he => ?_) rfl (by simp) (by simp)
    obtain ⟨u, hu⟩ := hlive e he
    exact (newTimer_heap_of_some (Option.isNone_iff_eq_none.mp hp.1) hu).trans hu.symm
  | postCancel => exact h.of_quiet hinv hnum rfl (fun e _ => rfl) rfl (by simp) (by simp)
  | @add p w i clk r hp hr =>
    obtain ⟨fd, hfd⟩ := (s₂.queue.newTimer p w i).added_fst p ⟨w, i, s₂.queue.numCreated⟩ clk
    rw [← hr] at hfd
    refine h.of_quiet hinv hnum rfl (fun e he => ?_) ?_ (by simp) (by simp)
    · obtain ⟨u, hu⟩ := hlive e he
      refine (congrFun (congrArg TimerQueue.heap hfd) e.timer).trans ?_
      exact (newTimer_heap_of_some (Option.isNone_iff_eq_none.mp hp.1) hu).trans hu.symm
    · change r.1.cancelingTimers = _
      rw [hfd]
      rfl
  | runAdd hnone => exact absurd hnone hbusy
  | cancel hq => exact h.cancel hq hinv hnum
  | runCancel hnone => exact absurd hnone hbusy
  | begin hnone => exact absurd hnone hbusy
  | callback hbatch hrest hu hexp hdue => exact h.callback hbatch hrest hu hexp hinv
  | finish => exact hinside.elim

/-- The invariant holds throughout the loop. -/
lemma BatchInv.run (h : BatchInv s now [] s₂) (hrun : (timerMachine.restrict Inside).Run s₂ t s₃) :
    BatchInv s now t s₃ := by
  refine hrun.invariant (fun t s₃ => BatchInv s now t s₃) h ?_
  rintro t s₃ act s₄ out hbatch ⟨hpre, hinside⟩ hstep
  obtain ⟨heff, hinv⟩ := effect_of_step hbatch.inv hpre hstep
  exact hbatch.effect hinside heff hinv

/-- A due timer is one of the batch. -/
lemma Due.mem_expired {exp : Timestamp} (h : s.Due now id exp) (hinv : LoopInv s) :
    ⟨exp, id.timer⟩ ∈ s.queue.expired now := (TimerQueue.mem_expired hinv.queue).mpr h.2

/-- A batch fits when the step that ends it overflows for no timer. -/
theorem BatchInv.rearmsInRange_iff (h : BatchInv s now t s₂) (hinv : LoopInv s) {clk : Timestamp} :
    s₂.RearmsInRange (.finish clk) ↔ BatchFits s now t := by
  obtain ⟨rest, hbatch, -⟩ := h.batch
  constructor
  · rintro hrange id u ⟨hlive, hdue, hrepeated, hcancelled⟩
    have he := hdue.mem_expired hinv
    have hcanceling := h.canceling id u (List.mem_map_of_mem he) hlive
    have hid : (⟨id.timer, u.sequence⟩ : TimerId) = id := TimerId.ext rfl hlive.2
    refine hrange _ hbatch _ he u ((h.heap _ he).trans hlive.1) hrepeated ?_
    rw [hid, hcanceling]
    exact hcancelled
  · rintro hfits b hb e he u hu hrepeated hnot
    obtain rfl : b = ⟨now, s.queue.expired now, rest⟩ := Option.some.inj (hb.symm.trans hbatch)
    change e ∈ s.queue.expired now at he
    have hlive : Live s ⟨e.timer, u.sequence⟩ u := ⟨(h.heap e he).symm.trans hu, rfl⟩
    obtain ⟨htimers, hle⟩ := (TimerQueue.mem_expired hinv.queue).mp he
    obtain ⟨u', hu', hexp, -⟩ := hinv.queue.timers_active e htimers
    obtain rfl : u' = u := Option.some.inj (hu'.symm.trans hlive.1)
    have hcanceling := h.canceling _ u' (List.mem_map_of_mem he) hlive
    have hdue : s.Due now ⟨e.timer, u'.sequence⟩ u'.expiration := by
      refine ⟨⟨u', hlive, rfl⟩, ?_⟩
      rw [hexp]
      exact ⟨htimers, hle⟩
    exact hfits _ u' ⟨hlive, hdue, hrepeated, fun hmem => hnot (hcanceling.mpr hmem)⟩

/-- The starts of a batch are those of the due timers, in the order of `timers_`. -/
lemma batchFires_of_starts (hinv : LoopInv s)
    (h : starts t = (s.queue.expired now).map (s.firing now)) : BatchFires s now t := by
  have hlive : ∀ e ∈ s.queue.expired now, ∃ u, s.queue.heap e.timer = some u ∧
      u.expiration = e.time := by
    intro e he
    have htimers := ((TimerQueue.mem_expired hinv.queue).mp he).1
    obtain ⟨u, hu, hexp, -⟩ := hinv.queue.timers_active e htimers
    exact ⟨u, hu, hexp⟩
  constructor
  · intro id now' exp
    rw [← mem_starts, h, List.mem_map]
    constructor
    · rintro ⟨e, he, heq⟩
      obtain ⟨u, hu, hexp⟩ := hlive e he
      rw [firing_of_heap hu, Prod.mk.injEq, Prod.mk.injEq] at heq
      obtain ⟨rfl, rfl, rfl⟩ := heq
      exact ⟨rfl, ⟨u, ⟨hu, rfl⟩, hexp⟩, (TimerQueue.mem_expired hinv.queue).mp he⟩
    · rintro ⟨rfl, hdue⟩
      refine ⟨_, hdue.mem_expired hinv, ?_⟩
      obtain ⟨⟨u, ⟨hu, hseq⟩, -⟩, -⟩ := hdue
      rw [firing_of_heap hu]
      exact Prod.ext (TimerId.ext rfl hseq) rfl
  · rw [h]
    refine List.Nodup.of_map TimerId.timer ?_
    rw [List.map_map, List.map_map]
    exact nodup_expired hinv.queue now
  · rw [h, List.pairwise_map]
    exact (s.queue.timers.pairwise_below (sentry now)).imp fun hlt => Entry.time_le_of_le hlt.le

/-- What `reset` leaves at the address of a due timer. -/
lemma BatchInv.rearmed (h : BatchInv s now t s₂) {u : Timer} (hlive : Live s id u)
    (hmem : id.timer ∈ (s.queue.expired now).map Entry.timer) :
    TimerQueue.rearmed { s₂.queue with callingExpiredTimers := false } now id.timer =
      if u.repeated = true ∧ .cancelled id ∉ t then some (u.restart now) else none := by
  have hheap : s₂.queue.heap id.timer = some u := by
    obtain ⟨e, he, hp⟩ := List.mem_map.mp hmem
    rw [← hp, h.heap e he, hp]
    exact hlive.1
  have hid : (⟨id.timer, u.sequence⟩ : TimerId) = id := TimerId.ext rfl hlive.2
  simp only [TimerQueue.rearmed, hheap, hid, h.canceling id u hmem hlive]

/-- The end of the batch frees the due timers that do not repeat or were cancelled, and puts the
others back for what `addTime` computes. -/
lemma BatchInv.leaves (h : BatchInv s now t s₂) (hinv : LoopInv s) (hinv' : LoopInv s')
    {q : TimerQueue} {clk : Timestamp}
    (hq : ResetTimers now { s₂.queue with callingExpiredTimers := false } (s.queue.expired now) q)
    (hs' : s'.queue = (q.rearm clk).1) :
    BatchFrees s now t s' ∧
      ∀ id u, s.PutsBack now t id u → s'.BackAt id u (addTime now u.interval) := by
  obtain ⟨fd, hfd⟩ := q.rearm_fst clk
  rw [hfd] at hs'
  have hheap : ∀ {id : TimerId} {u : Timer}, Live s id u → s.Due now id u.expiration →
      s'.queue.heap id.timer =
        if u.repeated = true ∧ .cancelled id ∉ t then some (u.restart now) else none := by
    intro id u hlive hdue
    have hmem : id.timer ∈ (s.queue.expired now).map Entry.timer :=
      List.mem_map.mpr ⟨_, hdue.mem_expired hinv, rfl⟩
    rw [hs', ← h.rearmed hlive hmem]
    exact hq.heap_mem _ hmem
  have hgone : ∀ {id : TimerId} {u : Timer}, Live s id u → s.Due now id u.expiration →
      ¬ (u.repeated = true ∧ .cancelled id ∉ t) → s'.Gone id := by
    intro id u hlive hdue hnot
    refine Dead.gone ⟨?_, fun t' hlive' => ?_⟩ hinv'
    · have hnum : s'.queue.numCreated = s₂.queue.numCreated :=
        (congrArg TimerQueue.numCreated hs').trans hq.numCreated
      rw [hnum, ← hlive.2]
      exact (hinv.queue.bound _ _ hlive.1).2.trans_le h.numCreated
    · have hnone := hheap hlive hdue
      rw [if_neg hnot] at hnone
      cases hnone.symm.trans hlive'.1
  refine ⟨⟨?_, ?_⟩, ?_⟩
  · intro id u hlive hdue hrepeated
    refine hgone hlive hdue fun hkeep => ?_
    rw [hrepeated] at hkeep
    cases hkeep.1
  · rintro id exp hdue hcancelled
    obtain ⟨u, hlive, rfl⟩ := hdue.1
    exact hgone hlive hdue fun hkeep => hkeep.2 hcancelled
  · rintro id u ⟨hlive, hdue, hrepeated, hcancelled⟩
    have hmem : id.timer ∈ (s.queue.expired now).map Entry.timer :=
      List.mem_map.mpr ⟨_, hdue.mem_expired hinv, rfl⟩
    have hrestart : u.restart now = { u with expiration := addTime now u.interval } :=
      if_pos hrepeated
    have hrearmed := h.rearmed hlive hmem
    have hself := hheap hlive hdue
    rw [if_pos ⟨hrepeated, hcancelled⟩, hrestart] at hrearmed hself
    refine ⟨?_, hself, hlive.2⟩
    rw [hs']
    exact (hq.timers _).mpr (Or.inr ⟨_, hmem, _, hrearmed, rfl⟩)

/-- One whole `handleRead` starts the due timers, frees what it should, and puts the others back for
what `addTime` computes. -/
theorem HandleRead.fires (h : HandleRead s now t s') (hinv : LoopInv s) :
    BatchFires s now t ∧ BatchFrees s now t s' ∧
      ∀ id u, s.PutsBack now t id u → s'.BackAt id u (addTime now u.interval) := by
  obtain @⟨s₁, s₂, s', out, t, out', clk, hpre, hbegin, hrun, hpre', hfinish⟩ := h
  obtain ⟨rfl, hbatch⟩ := BatchInv.begin hinv hpre hbegin
  have hend := hbatch.run hrun
  obtain ⟨heff, hinv'⟩ := effect_of_step hend.inv hpre' hfinish
  obtain ⟨rest, hsome, hstarts⟩ := hend.batch
  cases heff with
  | @finish b q _ hb hrest hq =>
    obtain rfl : b = ⟨now, s.queue.expired now, rest⟩ := Option.some.inj (hb.symm.trans hsome)
    change rest = [] at hrest
    subst hrest
    have hnot : ∀ id now exp,
        TimerEvent.started id now exp ∉ (q.rearm clk).2.map TimerEvent.settime := by simp
    obtain ⟨hfrees, hback⟩ := hend.leaves hinv hinv' hq rfl
    rw [List.nil_append]
    refine ⟨batchFires_of_starts hinv ?_, ⟨hfrees.one_shot, ?_⟩, ?_⟩
    · rw [starts_append, starts_eq_nil hnot]
      simpa using hstarts
    · intro id exp hdue hcancelled
      refine hfrees.cancelled id exp hdue ?_
      simpa using hcancelled
    · rintro id u ⟨hlive, hdue, hrepeated, hcancelled⟩
      refine hback id u ⟨hlive, hdue, hrepeated, fun hmem => hcancelled ?_⟩
      exact List.mem_append_left _ hmem

/-- Where `addTime` does not overflow, the repeating timers are back for the reading plus their
interval. -/
lemma HandleRead.rearms (h : HandleRead s now t s') (hinv : LoopInv s) (hfits : BatchFits s now t) :
    BatchRearms s now t s' := by
  intro id u hputs
  obtain ⟨D, hD, heq⟩ := (hfits id u hputs).addTime_eq
  have hback := (h.fires hinv).2.2 id u hputs
  rw [heq] at hback
  exact ⟨D, hD, hback⟩

/-- From a reading that is not negative, they are back there only if `addTime` does not overflow. -/
lemma HandleRead.fits (h : HandleRead s now t s') (hinv : LoopInv s) (hnow : 0 ≤ now)
    (hrearms : BatchRearms s now t s') : BatchFits s now t := by
  intro id u hputs
  obtain ⟨D, hD, -, hlive⟩ := hrearms id u hputs
  obtain ⟨-, hlive'⟩ := (h.fires hinv).2.2 id u hputs
  have htimer := Option.some.inj (hlive'.1.symm.trans hlive.1)
  exact Interval.fits_of_addTime_eq hnow hputs.2.2.1 hD (congrArg Timer.expiration htimer)

end Inside

/-! ### Whole runs -/

/-- Every live timer was created, with the interval it has. -/
def LiveCreated (t : List TimerEvent) (s : TimerLoop) : Prop :=
  ∀ id u, Live s id u → ∃ w, TimerEvent.created id w u.interval ∈ t

/-- A live timer is an old one, or it was created by the step. -/
lemma Effect.live (heff : Effect s act s' out) (hinv' : LoopInv s') {u : Timer}
    (hlive : Live s' id u) :
    id.sequence < s.queue.numCreated ∨ ∃ w, TimerEvent.created id w u.interval ∈ out := by
  have hbound := (hinv'.queue.bound _ _ hlive.1).2
  rw [hlive.2] at hbound
  rcases heff.numCreated with heq | ⟨heq, p, w, i, hmem⟩
  · exact Or.inl (hbound.trans_eq heq)
  · by_cases hold : id.sequence < s.queue.numCreated
    · exact Or.inl hold
    · have hseq : id.sequence = s.queue.numCreated := by omega
      obtain ⟨-, -, hheap⟩ := heff.created hmem
      have hp : id.timer = p :=
        hinv'.queue.sequence_inj _ _ _ _ hlive.1 hheap (hlive.2.trans hseq)
      obtain rfl : (⟨p, s.queue.numCreated⟩ : TimerId) = id := TimerId.ext hp.symm hseq.symm
      obtain rfl : _ = u := Option.some.inj (hheap.symm.trans hlive.1)
      exact Or.inr ⟨w, hmem⟩

/-- In every run, the live timers were created in it. -/
theorem liveCreated_of_run {clk : Timestamp} {t : List TimerEvent}
    (h : timerMachine.Run (TimerLoop.new clk) t s) : LiveCreated t s := by
  have hall : LoopInv s ∧ LiveCreated t s := by
    refine h.invariant (fun t s => LoopInv s ∧ LiveCreated t s) ⟨LoopInv.new clk, ?_⟩ ?_
    · rintro id u ⟨⟨⟩, -⟩
    · rintro t s act s' out ⟨hinv, hcreated⟩ hpre hstep
      obtain ⟨heff, hinv'⟩ := effect_of_step hinv hpre hstep
      refine ⟨hinv', fun id u hlive => ?_⟩
      rcases heff.live hinv' hlive with hold | ⟨w, hmem⟩
      · rcases heff.origin hold hlive with ⟨hlive', -⟩ | ⟨-, -, -, hlive', -, -, rfl⟩
        · obtain ⟨w, hmem⟩ := hcreated id u hlive'
          exact ⟨w, List.mem_append_left _ hmem⟩
        · rw [Timer.restart_interval]
          obtain ⟨w, hmem⟩ := hcreated id _ hlive'
          exact ⟨w, List.mem_append_left _ hmem⟩
      · exact ⟨w, List.mem_append_right _ hmem⟩
  exact hall.2

/-- The time `y` is at least the interval `i` after `x`. -/
def ApartBy (i : Interval) (x y : Timestamp) : Prop := ∃ D ∈ i.micros, x + D ≤ y

/-- A later time is apart as well. -/
lemma ApartBy.trans_le {i : Interval} {x y z : Timestamp} (h : ApartBy i x y) (hle : y ≤ z) :
    ApartBy i x z := by
  obtain ⟨D, hD, hy⟩ := h
  exact ⟨D, hD, hy.trans hle⟩

/-- After a start in the batch `x`: if the timer is still alive, it waits for the end of that batch,
or it has been restarted for `x` plus its interval at the earliest. -/
def Spaced (x : Timestamp) (i : Interval) (id : TimerId) (s : TimerLoop) : Prop :=
  id.sequence < s.queue.numCreated ∧ ∀ u, Live s id u → u.interval = i ∧
    (ApartBy i x u.expiration ∨ s.HadTurn x id.timer)

/-- A step in which `addTime` does not overflow keeps the distance, and it starts the callback only
after it. -/
lemma Spaced.effect {x : Timestamp} {i : Interval} (h : Spaced x i id s) (hinv : LoopInv s)
    (hrange : s.RearmsInRange act) (heff : Effect s act s' out) :
    Spaced x i id s' ∧ ∀ now exp, .started id now exp ∈ out → ApartBy i x exp := by
  obtain ⟨hold, hspaced⟩ := h
  refine ⟨⟨hold.trans_le heff.numCreated_le, fun u' hlive' => ?_⟩, fun now exp hmem => ?_⟩
  · rcases heff.origin hold hlive' with ⟨hlive, hout⟩ |
      @⟨b, u, clk, rfl, hbatch, hmem, hlive, hrepeated, hcanceling, rfl⟩
    · obtain ⟨hinterval, hturn⟩ := hspaced u' hlive
      refine ⟨hinterval, hturn.imp_right fun hturn => ?_⟩
      exact (Origin.hadTurn heff hout hturn).2.2
    · obtain ⟨hinterval, hturn⟩ := hspaced u hlive
      rw [Timer.restart_interval]
      refine ⟨hinterval, Or.inl ?_⟩
      obtain ⟨e, he, hp⟩ := List.mem_map.mp hmem
      have hheap : s.queue.heap e.timer = some u := hp ▸ hlive.1
      have hid : (⟨e.timer, u.sequence⟩ : TimerId) = id := TimerId.ext hp hlive.2
      obtain ⟨D, hD, hadd⟩ :=
        (hrange b hbatch e he u hheap hrepeated (hid ▸ hcanceling)).addTime_eq
      have hnonneg := Interval.micros_nonneg hrepeated hD
      rw [hinterval] at hD
      refine ⟨D, hD, ?_⟩
      rw [Timer.restart, if_pos hrepeated, hadd]
      rcases hturn with ⟨D', hD', hle⟩ | ⟨b', hb', rfl, -⟩
      · -- the timer was due in this batch, so its expiration is not after the reading
        obtain rfl : D' = D := Option.some.inj (hD'.symm.trans hD)
        obtain ⟨hdue, u', hu', hexp'⟩ := hinv.due b hbatch e he
        obtain rfl : u = u' := Option.some.inj (hheap.symm.trans hu')
        calc x + D' ≤ u.expiration := hle
          _ = e.time := hexp'
          _ ≤ b.now := hdue
          _ ≤ b.now + D' := le_add_of_nonneg_right hnonneg
      · obtain rfl : b' = b := Option.some.inj (hb'.symm.trans hbatch)
        exact le_rfl
  · obtain ⟨b, e, rest, u, hbatch, hrest, htimer, -, hlive, rfl, -⟩ := heff.started hmem
    rcases (hspaced u hlive).2 with hle | hturn
    · exact hle
    · exact absurd htimer (hturn.ne_next hbatch hrest)

/-- The laws of the starts in a whole trace. -/
structure FiringLaws (t : List TimerEvent) : Prop where
  /-- No callback is started in a batch whose clock reading is before its time. -/
  not_early : ∀ id now exp, .started id now exp ∈ t → exp ≤ now
  /-- Every started timer was created before. -/
  created : ∀ l r id now exp, t = l ++ .started id now exp :: r →
    ∃ w i, TimerEvent.created id w i ∈ l
  /-- A one-shot callback is started at most once. -/
  one_shot : ∀ l r id now exp w i, t = l ++ .started id now exp :: r → .created id w i ∈ l →
    i.positive = false → ∀ now' exp', .started id now' exp' ∉ r

/-- After a start, a repeating timer is scheduled, and started, an interval later at the
earliest. -/
def StartsSpaced (t : List TimerEvent) : Prop :=
  ∀ l r id now exp w i, t = l ++ .started id now exp :: r → .created id w i ∈ l →
    ∀ now' exp', .started id now' exp' ∈ r → ApartBy i now exp' ∧ ApartBy i now now'

section Laws

variable {clk : Timestamp} {t : List TimerEvent}

/-- No callback starts before the expiration. -/
lemma not_early_of_run (h : timerMachine.Run (TimerLoop.new clk) t s) {now exp : Timestamp}
    (hmem : .started id now exp ∈ t) : exp ≤ now := by
  have hall : LoopInv s ∧ ∀ id now exp, .started id now exp ∈ t → exp ≤ now := by
    refine h.invariant (fun t s => LoopInv s ∧ ∀ id now exp, .started id now exp ∈ t → exp ≤ now)
      ⟨LoopInv.new clk, fun id now exp hmem => by cases hmem⟩ ?_
    rintro t s act s' out ⟨hinv, hearly⟩ hpre hstep
    obtain ⟨heff, hinv'⟩ := effect_of_step hinv hpre hstep
    refine ⟨hinv', fun id now exp hmem => ?_⟩
    rcases List.mem_append.mp hmem with hmem | hmem
    · exact hearly id now exp hmem
    · obtain ⟨b, e, rest, u, -, -, -, -, -, -, hle, -⟩ := heff.started hmem
      exact hle
  exact hall.2 id now exp hmem

/-- A step that starts the callback of `id` emits nothing else, and `id` has had its turn. -/
lemma exists_of_started (hinv : LoopInv s) (hpre : timerMachine.pre s act)
    {l r : List TimerEvent} {now exp : Timestamp}
    (hstep : timerMachine.step s act = some (s', l ++ .started id now exp :: r)) :
    l = [] ∧ r = [] ∧ (∃ u, Live s id u) ∧ s'.HadTurn now id.timer ∧ s'.queue = s.queue := by
  obtain ⟨heff, -⟩ := effect_of_step hinv hpre hstep
  have hmem : TimerEvent.started id now exp ∈ l ++ .started id now exp :: r := by simp
  obtain ⟨b, e, rest, u, hbatch, hrest, htimer, rfl, hlive, -, -, hout, rfl⟩ := heff.started hmem
  obtain ⟨rfl, rfl⟩ : l = [] ∧ r = [] := by
    cases l <;> simp_all
  exact ⟨rfl, rfl, ⟨u, hlive⟩, htimer ▸ hinv.hadTurn_of_started hbatch hrest, rfl⟩

/-- A callback is that of a timer that has been created before. -/
lemma created_of_run (h : timerMachine.Run (TimerLoop.new clk) t s) {l r : List TimerEvent}
    {now exp : Timestamp} (ht : t = l ++ .started id now exp :: r) :
    ∃ w i, TimerEvent.created id w i ∈ l := by
  by_contra hnot
  refine (h.once (fun l => ¬ ∃ w i, TimerEvent.created id w i ∈ l) (fun _ => False)
    (.started id now exp) (fun _ => False) ?_ ?_ l r ht hnot).1
  · rintro t s act s' out hrun hpre hstep l r rfl hnot
    obtain ⟨rfl, -, ⟨u, hlive⟩, -⟩ := exists_of_started (loopInv_of_run hrun) hpre hstep
    obtain ⟨w, hmem⟩ := liveCreated_of_run hrun id u hlive
    exact absurd ⟨w, u.interval, by simpa using hmem⟩ hnot
  · rintro t s act s' out - ⟨⟩

/-- A timer without an interval starts once. -/
lemma one_shot_of_run (h : timerMachine.Run (TimerLoop.new clk) t s) {l r : List TimerEvent}
    {now exp w : Timestamp} {i : Interval} (ht : t = l ++ .started id now exp :: r)
    (hcreated : .created id w i ∈ l) (hi : i.positive = false) (now' exp' : Timestamp) :
    .started id now' exp' ∉ r := by
  intro hmem
  refine (h.once (fun l => .created id w i ∈ l) (fun s => s.Spent id) (.started id now exp)
    (fun x => ∃ now exp, x = .started id now exp) ?_ ?_ l r ht hcreated).2 _ hmem ⟨now', exp', rfl⟩
  · rintro t s act s' out hrun hpre hstep l r rfl hcreated
    obtain ⟨rfl, rfl, -, hturn, hqueue⟩ := exists_of_started (loopInv_of_run hrun) hpre hstep
    rw [List.append_nil] at hcreated
    obtain ⟨hold, hinterval⟩ := createdInv_of_run hrun id w i hcreated
    refine ⟨⟨hqueue ▸ hold, fun u hlive => ⟨Or.inl ?_, now, hturn⟩⟩, by simp⟩
    unfold Live at hlive
    rw [hqueue] at hlive
    unfold Timer.repeated
    rw [hinterval u hlive]
    exact hi
  · rintro t s act s' out hrun hspent hpre hstep
    obtain ⟨heff, -⟩ := effect_of_step (loopInv_of_run hrun) hpre hstep
    obtain ⟨hspent', hnot⟩ := hspent.effect heff
    refine ⟨hspent', ?_⟩
    rintro x hx ⟨now, exp, rfl⟩
    exact hnot now exp hx

/-- Where `addTime` does not overflow, the next start is due an interval after the last one. -/
lemma spaced_of_run (h : (timerMachine.restrict RearmsInRange).Run (TimerLoop.new clk) t s)
    {l r : List TimerEvent} {now exp w : Timestamp} {i : Interval}
    (ht : t = l ++ .started id now exp :: r) (hcreated : .created id w i ∈ l)
    {now' exp' : Timestamp} (hmem : .started id now' exp' ∈ r) : ApartBy i now exp' := by
  by_contra hnot
  refine (h.once (fun l => .created id w i ∈ l) (Spaced now i id) (.started id now exp)
    (fun x => ∃ now' exp', x = .started id now' exp' ∧ ¬ ApartBy i now exp') ?_ ?_ l r ht
    hcreated).2 _ hmem ⟨now', exp', rfl, hnot⟩
  · rintro t s act s' out hrun ⟨hpre, -⟩ hstep l r rfl hcreated
    have hrun' := hrun.of_restrict
    obtain ⟨rfl, rfl, -, hturn, hqueue⟩ := exists_of_started (loopInv_of_run hrun') hpre hstep
    rw [List.append_nil] at hcreated
    obtain ⟨hold, hinterval⟩ := createdInv_of_run hrun' id w i hcreated
    refine ⟨⟨hqueue ▸ hold, fun u hlive => ⟨?_, Or.inr hturn⟩⟩, by simp⟩
    unfold Live at hlive
    rw [hqueue] at hlive
    exact hinterval u hlive
  · rintro t s act s' out hrun hspaced ⟨hpre, hrange⟩ hstep
    have hinv := loopInv_of_run hrun.of_restrict
    obtain ⟨heff, -⟩ := effect_of_step hinv hpre hstep
    obtain ⟨hspaced', hapart⟩ := hspaced.effect hinv hrange heff
    refine ⟨hspaced', ?_⟩
    rintro x hx ⟨now', exp', rfl, hnot⟩
    exact hnot (hapart now' exp' hx)

/-- In every run the starts obey the laws. -/
lemma firingLaws_of_run (h : timerMachine.Run (TimerLoop.new clk) t s) : FiringLaws t where
  not_early _ _ _ hmem := not_early_of_run h hmem
  created _ _ _ _ _ ht := created_of_run h ht
  one_shot _ _ _ _ _ _ _ ht hcreated hi := one_shot_of_run h ht hcreated hi

/-- In every run in which `addTime` does not overflow the starts keep their distance. -/
lemma startsSpaced_of_run (h : (timerMachine.restrict RearmsInRange).Run (TimerLoop.new clk) t s) :
    StartsSpaced t := by
  intro l r id now exp w i ht hcreated now' exp' hmem
  have hapart := spaced_of_run h ht hcreated hmem
  have hmem' : .started id now' exp' ∈ t := by
    rw [ht]
    exact List.mem_append_right _ (List.mem_cons_of_mem _ hmem)
  exact ⟨hapart, hapart.trans_le (not_early_of_run h.of_restrict hmem')⟩

end Laws

/-- From every reachable state, every `handleRead` starts each due timer exactly once, in the order
of the expirations, and nothing else, and it frees the one-shot and the cancelled ones for good.  It
puts the other repeating ones back at the reading plus their interval if `addTime` overflows for
none of them, and from a reading that is not negative only then.  In every run no callback is early
and one-shot callbacks are started once; and if in every step `addTime` does not overflow, the
starts keep their distance. -/
theorem timers_fire_when_due {clk : Timestamp} {t₀ : List TimerEvent}
    (h : timerMachine.Run (TimerLoop.new clk) t₀ s) :
    (∀ now t s', HandleRead s now t s' →
      BatchFires s now t ∧ BatchFrees s now t s' ∧
        (BatchFits s now t → BatchRearms s now t s') ∧
          (0 ≤ now → BatchRearms s now t s' → BatchFits s now t)) ∧
      FiringLaws t₀ ∧
        ((timerMachine.restrict RearmsInRange).Run (TimerLoop.new clk) t₀ s → StartsSpaced t₀) := by
  have hinv := loopInv_of_run h
  refine ⟨fun now t s' hbatch => ?_, firingLaws_of_run h, startsSpaced_of_run⟩
  obtain ⟨hfires, hfrees, -⟩ := hbatch.fires hinv
  exact ⟨hfires, hfrees, hbatch.rearms hinv, hbatch.fits hinv⟩

/-- One whole `handleRead` with the clock reading `now`, with the steps `acts` between its beginning
and its end. -/
def execBatch (s : TimerLoop) (now : Timestamp) (acts : List TimerAct) (clk : Timestamp) :
    Option (TimerLoop × List TimerEvent) := do
  let r₁ ← timerMachine.guarded s (.handleRead now)
  let r₂ ← (timerMachine.restrict Inside).exec r₁.1 acts
  let r₃ ← timerMachine.guarded r₂.1 (.finish clk)
  some (r₃.1, r₁.2 ++ r₂.2 ++ r₃.2)

/-- What `execBatch` computes is a `handleRead`. -/
lemma handleRead_of_execBatch {now clk : Timestamp} {acts : List TimerAct}
    {r : TimerLoop × List TimerEvent} (h : s.execBatch now acts clk = some r) :
    HandleRead s now r.2 r.1 := by
  simp only [execBatch, Option.bind_eq_bind, Option.bind_eq_some_iff, Machine.guarded_eq_some,
    Option.some.injEq] at h
  obtain ⟨r₁, ⟨hpre, hbegin⟩, r₂, hexec, r₃, ⟨hpre', hfinish⟩, rfl⟩ := h
  exact .intro hpre hbegin (Machine.run_of_exec hexec) hpre' hfinish

/-- The interval of a timer that has been created. -/
def createdInterval : TimerEvent → Option Interval
  | .created _ _ i => some i
  | _ => none

/-- A batch fits if all repeating timers of the run were created with intervals that fit. -/
lemma batchFits_of_created {clk now : Timestamp} {t₀ t : List TimerEvent}
    (h : timerMachine.Run (TimerLoop.new clk) t₀ s)
    (hfits : ∀ x ∈ t₀, ∀ i ∈ createdInterval x, i.positive = true → i.Fits now) :
    BatchFits s now t := by
  rintro id u ⟨hlive, -, hrepeated, -⟩
  obtain ⟨w, hmem⟩ := liveCreated_of_run h id u hlive
  exact hfits _ hmem _ rfl hrepeated

/-- Before the batch a repeating timer has fired once. -/
def tiesBefore : List TimerAct :=
  [.addTimer 1 8 (every 4) 1, .handleRead 8, .runCallback, .finish 8, .addTimer 2 10 (every 4) 8,
    .postAddTimer 3 12 oneShot, .runTask 9]

/-- In the batch the first callback adds a timer that is already due and cancels a timer of the
batch. -/
def tiesInside : List TimerAct :=
  [.runCallback, .addTimer 4 5 oneShot 13, .cancel ⟨1, 0⟩, .runCallback, .runCallback]

/-- Two timers expire at the reading of the batch and one before it; the first callback adds a timer
that is already due and cancels a repeating timer of the batch. -/
theorem timers_fire_when_due_ties :
    ∃ t₀ s, timerMachine.Run (TimerLoop.new 1) t₀ s ∧ FiringLaws t₀ ∧ StartsSpaced t₀ ∧
      ∃ t s', HandleRead s 12 t s' ∧ BatchFires s 12 t ∧ BatchFrees s 12 t s' ∧
        BatchRearms s 12 t s' ∧
          starts t = [(⟨2, 1⟩, 12, 10), (⟨1, 0⟩, 12, 12), (⟨3, 2⟩, 12, 12)] := by
  obtain ⟨t₀, s, hrun, hfits, hbatch⟩ :=
    (timerMachine.restrict RearmsInRange).exists_run_of_exec (TimerLoop.new 1) tiesBefore
      (fun s t₀ => (∀ x ∈ t₀, ∀ i ∈ createdInterval x, i.positive = true → i.Fits 12) ∧
        (s.execBatch 12 tiesInside 14).map (fun r => starts r.2) =
          some [(⟨2, 1⟩, 12, 10), (⟨1, 0⟩, 12, 12), (⟨3, 2⟩, 12, 12)])
      (by decide +kernel)
  obtain ⟨r, hr, hstarts⟩ := Option.map_eq_some_iff.mp hbatch
  have hhandle := handleRead_of_execBatch hr
  obtain ⟨hbatches, hlaws, hspaced⟩ := timers_fire_when_due hrun.of_restrict
  obtain ⟨hfires, hfrees, hrearms, -⟩ := hbatches _ _ _ hhandle
  exact ⟨t₀, s, hrun.of_restrict, hlaws, hspaced hrun, r.2, r.1, hhandle, hfires, hfrees,
    hrearms (batchFits_of_created hrun.of_restrict hfits), hstarts⟩

/-- The interval of ten million million seconds. -/
def tenTrillionSeconds : Interval := every (10 ^ 19)

/-- A timer that repeats after ten million million seconds fires once and is put back for a moment
long past, so that the next `handleRead` starts it again. -/
theorem timer_put_back_in_the_past :
    (∃ t₀ s t s', timerMachine.Run (TimerLoop.new 1) t₀ s ∧ HandleRead s 12 t s' ∧
      ¬ BatchRearms s 12 t s') ∧
      ∃ t s, timerMachine.Run (TimerLoop.new 1) t s ∧ ¬ StartsSpaced t := by
  constructor
  · obtain ⟨t₀, s, hrun, hheap, hmem, hbatch⟩ := timerMachine.exists_run_of_exec (TimerLoop.new 1)
      [.addTimer 1 12 tenTrillionSeconds 1]
      (fun s _ => s.queue.heap 1 = some ⟨12, tenTrillionSeconds, 0⟩ ∧ ⟨12, 1⟩ ∈ s.queue.timers ∧
        (s.execBatch 12 [.runCallback] 13).any fun r => .cancelled ⟨1, 0⟩ ∉ r.2)
      (by decide +kernel)
    obtain ⟨r, hr, hcancelled⟩ := (Option.any_eq_true _ _).mp hbatch
    have hhandle := handleRead_of_execBatch hr
    refine ⟨t₀, s, r.2, r.1, hrun, hhandle, fun hrearms => ?_⟩
    have hlive : Live s ⟨1, 0⟩ ⟨12, tenTrillionSeconds, 0⟩ := ⟨hheap, rfl⟩
    have hfits := hhandle.fits (loopInv_of_run hrun) (by decide) hrearms ⟨1, 0⟩ _
      ⟨hlive, ⟨⟨_, hlive, rfl⟩, hmem, le_rfl⟩, rfl, of_decide_eq_true hcancelled⟩
    exact absurd hfits (by decide)
  · obtain ⟨t, s, hrun, rfl⟩ := timerMachine.exists_run_of_exec (TimerLoop.new 1)
      [.addTimer 1 12 tenTrillionSeconds 1, .handleRead 12, .runCallback, .finish 13,
        .handleRead 13, .runCallback]
      (fun _ t => t = [.created ⟨1, 0⟩ 12 tenTrillionSeconds, .settime ⟨0, 100000⟩] ++
        .started ⟨1, 0⟩ 12 12 :: [.started ⟨1, 0⟩ 13 (12 - 2 ^ 63)])
      (by decide +kernel)
    refine ⟨_, s, hrun, fun hspaced => ?_⟩
    obtain ⟨⟨D, hD, hle⟩, -⟩ := hspaced _ _ _ _ _ _ _ rfl List.mem_cons_self _ _ List.mem_cons_self
    obtain rfl : D = 10 ^ 19 := (Option.some.inj hD).symm
    exact absurd hle (by decide)

end TimerLoop

end MuduoServer
