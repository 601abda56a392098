import MuduoServer.Timer.Basic

/-!
# The two indexes of the timer queue

`QueueInv q out` says that `timers_` and `activeTimers_` index the same live timers, each once, and
that `out` lists the live timers that are in neither: those of the batch being processed and those
whose `addTimerInLoop` is still to run.  Every operation of the queue moves timers between the sets
and `out`; there is one specification lemma per operation, which says that no `assert` fails, what
the new queue is, and that the invariant holds again.
-/

namespace MuduoServer

/-- `restart()` keeps the sequence number. -/
@[simp] lemma Timer.restart_sequence (t : Timer) (now : Timestamp) :
    (t.restart now).sequence = t.sequence := by
  unfold Timer.restart
  split <;> rfl

/-- `restart()` keeps the interval. -/
lemma Timer.restart_interval (t : Timer) (now : Timestamp) :
    (t.restart now).interval = t.interval := by
  unfold Timer.restart
  split <;> rfl

namespace TimerQueue

variable {q q' : TimerQueue} {out : List Ptr} {p : Ptr} {t : Timer} {id : TimerId}

/-- The two sets index the same live timers, and `out` lists the live timers that are in neither. -/
structure QueueInv (q : TimerQueue) (out : List Ptr) : Prop where
  /-- Live timers lie below the sentry address, and their sequence numbers have been given out. -/
  bound : ∀ p t, q.heap p = some t → p < uintptrMax ∧ t.sequence < q.numCreated
  /-- A sequence number names one live timer. -/
  sequence_inj : ∀ p p' t t', q.heap p = some t → q.heap p' = some t' →
    t.sequence = t'.sequence → p = p'
  timers_active : ∀ e ∈ q.timers, ∃ t, q.heap e.timer = some t ∧ t.expiration = e.time ∧
    ⟨e.timer, t.sequence⟩ ∈ q.activeTimers
  active_timers : ∀ id ∈ q.activeTimers, ∃ t, q.heap id.timer = some t ∧
    t.sequence = id.sequence ∧ ⟨t.expiration, id.timer⟩ ∈ q.timers
  out_nodup : out.Nodup
  out_live : ∀ p ∈ out, ∃ t, q.heap p = some t ∧ ⟨p, t.sequence⟩ ∉ q.activeTimers
  /-- Every live timer is in the sets or listed in `out`. -/
  accounted : ∀ p t, q.heap p = some t → ⟨p, t.sequence⟩ ∈ q.activeTimers ∨ p ∈ out

namespace QueueInv

/-- The constructor establishes the invariant. -/
lemma new : QueueInv TimerQueue.new [] := by
  constructor <;> simp [TimerQueue.new]

/-- An entry of `timers_` is live and active, with the key under which it is stored. -/
lemma active_of_timers (h : QueueInv q out) {e : Entry} (he : e ∈ q.timers)
    (ht : q.heap e.timer = some t) :
    t.expiration = e.time ∧ ⟨e.timer, t.sequence⟩ ∈ q.activeTimers := by
  obtain ⟨t', ht', hexp, hact⟩ := h.timers_active e he
  rw [ht, Option.some.injEq] at ht'
  subst ht'
  exact ⟨hexp, hact⟩

/-- An entry of `activeTimers_` is the current identity of its timer. -/
lemma timers_of_active (h : QueueInv q out) (hid : id ∈ q.activeTimers)
    (ht : q.heap id.timer = some t) :
    t.sequence = id.sequence ∧ ⟨t.expiration, id.timer⟩ ∈ q.timers := by
  obtain ⟨t', ht', hseq, htim⟩ := h.active_timers id hid
  rw [ht, Option.some.injEq] at ht'
  subst ht'
  exact ⟨hseq, htim⟩

/-- A timer listed in `out` has no entry in `timers_`. -/
lemma not_mem_timers (h : QueueInv q out) (hp : p ∈ out) {e : Entry} (he : e ∈ q.timers) :
    e.timer ≠ p := by
  rintro rfl
  obtain ⟨t, ht, hnot⟩ := h.out_live _ hp
  exact hnot (h.active_of_timers he ht).2

/-- A timer listed in `out` has no entry in `activeTimers_`. -/
lemma not_mem_active (h : QueueInv q out) (hp : p ∈ out) (hid : id ∈ q.activeTimers) :
    id.timer ≠ p := by
  rintro rfl
  obtain ⟨t, ht, hnot⟩ := h.out_live _ hp
  have hseq := (h.timers_of_active hid ht).1
  exact hnot (by rw [hseq]; exact hid)

/-- An address has one entry in `timers_`. -/
lemma timers_inj (h : QueueInv q out) {e e' : Entry} (he : e ∈ q.timers) (he' : e' ∈ q.timers)
    (hp : e.timer = e'.timer) : e = e' := by
  obtain ⟨t, ht, hexp, -⟩ := h.timers_active e he
  have hexp' := (h.active_of_timers he' (hp ▸ ht)).1
  exact Entry.ext (hexp.symm.trans hexp') hp

/-- An address has one entry in `activeTimers_`. -/
lemma active_inj (h : QueueInv q out) {i j : TimerId} (hi : i ∈ q.activeTimers)
    (hj : j ∈ q.activeTimers) (hp : i.timer = j.timer) : i = j := by
  obtain ⟨t, ht, hseq, -⟩ := h.active_timers i hi
  have hseq' := (h.timers_of_active hj (hp ▸ ht)).1
  exact TimerId.ext hp (hseq.symm.trans hseq')

/-- The two sets have the same addresses, each once, hence the same size. -/
theorem size_eq (h : QueueInv q out) : q.timers.size = q.activeTimers.size := by
  have hnodup : (q.timers.elems.map Entry.timer).Nodup :=
    List.Nodup.map_on (fun e he e' he' => h.timers_inj he he') q.timers.nodup_elems
  have hnodup' : (q.activeTimers.elems.map TimerId.timer).Nodup :=
    List.Nodup.map_on (fun i hi j hj => h.active_inj hi hj) q.activeTimers.nodup_elems
  have hperm : (q.timers.elems.map Entry.timer).Perm (q.activeTimers.elems.map TimerId.timer) := by
    rw [List.perm_ext_iff_of_nodup hnodup hnodup']
    intro p
    simp only [List.mem_map]
    constructor
    · rintro ⟨e, he, rfl⟩
      obtain ⟨t, -, -, hact⟩ := h.timers_active e he
      exact ⟨_, hact, rfl⟩
    · rintro ⟨i, hi, rfl⟩
      obtain ⟨t, -, -, htim⟩ := h.active_timers i hi
      exact ⟨_, htim, rfl⟩
  simpa [OrdSet.size] using hperm.length_eq

/-- The assertion on the sizes holds. -/
lemma checkSizes (h : QueueInv q out) : q.checkSizes = some () := if_pos h.size_eq

/-- The order of `out` does not matter. -/
lemma perm {out' : List Ptr} (h : QueueInv q out) (hp : out.Perm out') : QueueInv q out' where
  bound := h.bound
  sequence_inj := h.sequence_inj
  timers_active := h.timers_active
  active_timers := h.active_timers
  out_nodup := hp.nodup_iff.mp h.out_nodup
  out_live p hmem := h.out_live p (hp.mem_iff.mpr hmem)
  accounted p t ht := (h.accounted p t ht).imp_right hp.mem_iff.mp

/-- The flags, the pool of cancelled timers and the alarm do not enter the invariant. -/
lemma congr (h : QueueInv q out) (hheap : q'.heap = q.heap) (hnum : q'.numCreated = q.numCreated)
    (htimers : q'.timers = q.timers) (hactive : q'.activeTimers = q.activeTimers) :
    QueueInv q' out := by
  obtain ⟨h₁, h₂, h₃, h₄, h₅, h₆, h₇⟩ := h
  constructor <;> simpa only [hheap, hnum, htimers, hactive]

end QueueInv

/-! ### Creating and inserting -/

/-- A new timer is listed in `out` until it is inserted. -/
theorem QueueInv.newTimer (h : QueueInv q out) (hp : q.heap p = none) (hmax : p < uintptrMax)
    (w : Timestamp) (i : Interval) : QueueInv (q.newTimer p w i) (p :: out) := by
  have hne : ∀ {p' : Ptr} {t : Timer}, q.heap p' = some t → p' ≠ p := by
    rintro p' t ht rfl
    rw [hp] at ht
    cases ht
  have hold : ∀ {p' : Ptr}, p' ≠ p → (q.newTimer p w i).heap p' = q.heap p' := by
    intro p' hp'
    exact setHeap_of_ne q _ hp'
  have hnew : (q.newTimer p w i).heap p = some ⟨w, i, q.numCreated⟩ := setHeap_self q _ _
  have hcases : ∀ {p' : Ptr} {t : Timer}, (q.newTimer p w i).heap p' = some t →
      (p' = p ∧ t.sequence = q.numCreated) ∨ (p' ≠ p ∧ q.heap p' = some t) := by
    intro p' t ht
    by_cases hp' : p' = p
    · subst hp'
      rw [hnew, Option.some.injEq] at ht
      exact Or.inl ⟨rfl, ht ▸ rfl⟩
    · exact Or.inr ⟨hp', hold hp' ▸ ht⟩
  constructor
  · intro p' t ht
    change _ ∧ _ < q.numCreated + 1
    rcases hcases ht with ⟨rfl, hseq⟩ | ⟨-, ht⟩
    · exact ⟨hmax, by omega⟩
    · have := h.bound p' t ht
      exact ⟨this.1, by omega⟩
  · intro p₁ p₂ t₁ t₂ h₁ h₂ hseq
    rcases hcases h₁ with ⟨hp₁, hs₁⟩ | ⟨-, hl₁⟩ <;> rcases hcases h₂ with ⟨hp₂, hs₂⟩ | ⟨-, hl₂⟩
    · rw [hp₁, hp₂]
    · have := (h.bound p₂ t₂ hl₂).2
      omega
    · have := (h.bound p₁ t₁ hl₁).2
      omega
    · exact h.sequence_inj p₁ p₂ t₁ t₂ hl₁ hl₂ hseq
  · intro e he
    obtain ⟨t, ht, hrest⟩ := h.timers_active e he
    exact ⟨t, by rw [hold (hne ht), ht], hrest⟩
  · intro i hi
    obtain ⟨t, ht, hrest⟩ := h.active_timers i hi
    exact ⟨t, by rw [hold (hne ht), ht], hrest⟩
  · refine List.nodup_cons.mpr ⟨fun hmem => ?_, h.out_nodup⟩
    obtain ⟨t, ht, -⟩ := h.out_live p hmem
    exact hne ht rfl
  · intro p' hmem
    rcases List.mem_cons.mp hmem with rfl | hmem
    · refine ⟨_, hnew, fun hact => ?_⟩
      obtain ⟨t, ht, -⟩ := h.active_timers _ hact
      exact hne ht rfl
    · obtain ⟨t, ht, hnot⟩ := h.out_live p' hmem
      exact ⟨t, by rw [hold (hne ht), ht], hnot⟩
  · intro p' t ht
    rcases hcases ht with ⟨rfl, -⟩ | ⟨-, ht⟩
    · exact Or.inr List.mem_cons_self
    · exact (h.accounted p' t ht).imp_right (List.mem_cons_of_mem _)

/-- The queue after the timer `t` at `p` has been put into both sets. -/
def inserted (q : TimerQueue) (p : Ptr) (t : Timer) : TimerQueue :=
  { q with
    timers := (q.timers.insert ⟨t.expiration, p⟩).1
    activeTimers := (q.activeTimers.insert ⟨p, t.sequence⟩).1 }

/-- What `insert` returns: whether the new expiration is earlier than all others. -/
def earliestChanged (q : TimerQueue) (t : Timer) : Bool :=
  match q.timers.first with
  | none => true
  | some e => decide (t.expiration < e.time)

/-- Putting a listed timer into both sets. -/
lemma QueueInv.inserted (h : QueueInv q (p :: out)) (ht : q.heap p = some t) :
    QueueInv (q.inserted p t) out := by
  have hnodup := List.nodup_cons.mp h.out_nodup
  constructor
  · exact h.bound
  · exact h.sequence_inj
  · intro e he
    rcases OrdSet.mem_insert.mp he with rfl | he
    · exact ⟨t, ht, rfl, OrdSet.mem_insert.mpr (Or.inl rfl)⟩
    · obtain ⟨t', ht', hexp, hact⟩ := h.timers_active e he
      exact ⟨t', ht', hexp, OrdSet.mem_insert.mpr (Or.inr hact)⟩
  · intro i hi
    rcases OrdSet.mem_insert.mp hi with rfl | hi
    · exact ⟨t, ht, rfl, OrdSet.mem_insert.mpr (Or.inl rfl)⟩
    · obtain ⟨t', ht', hseq, htim⟩ := h.active_timers i hi
      exact ⟨t', ht', hseq, OrdSet.mem_insert.mpr (Or.inr htim)⟩
  · exact hnodup.2
  · intro p' hp'
    obtain ⟨t', ht', hnot⟩ := h.out_live p' (List.mem_cons_of_mem _ hp')
    refine ⟨t', ht', fun hmem => ?_⟩
    rcases OrdSet.mem_insert.mp hmem with heq | hmem
    · rw [TimerId.mk.injEq] at heq
      exact hnodup.1 (heq.1 ▸ hp')
    · exact hnot hmem
  · intro p' t' ht'
    rcases h.accounted p' t' ht' with hact | hmem
    · exact Or.inl (OrdSet.mem_insert.mpr (Or.inr hact))
    · rcases List.mem_cons.mp hmem with rfl | hmem
      · have heq : t = t' := Option.some.inj (ht.symm.trans ht')
        exact Or.inl (OrdSet.mem_insert.mpr (Or.inl (by rw [heq])))
      · exact Or.inr hmem

/-- `insert` of a listed timer succeeds. -/
theorem insert_eq (h : QueueInv q (p :: out)) (ht : q.heap p = some t) :
    q.insert p = some (q.inserted p t, q.earliestChanged t) := by
  have hmem : p ∈ p :: out := List.mem_cons_self
  have htim : (q.timers.insert ⟨t.expiration, p⟩).2 = true :=
    OrdSet.insert_snd fun he => h.not_mem_timers hmem he rfl
  have hact : (q.activeTimers.insert ⟨p, t.sequence⟩).2 = true :=
    OrdSet.insert_snd fun hi => h.not_mem_active hmem hi rfl
  have hsizes : (q.inserted p t).checkSizes = some () := (h.inserted ht).checkSizes
  rw [TimerQueue.inserted] at hsizes
  simp only [insert, h.checkSizes, ht, htim, hact, hsizes, if_true, Option.bind_eq_bind,
    Option.bind_some]
  rfl

/-! ### Cancelling -/

/-- The queue after the active timer `id`, with contents `t`, has been removed and freed. -/
def removed (q : TimerQueue) (id : TimerId) (t : Timer) : TimerQueue :=
  { q.setHeap id.timer none with
    timers := (q.timers.erase ⟨t.expiration, id.timer⟩).1
    activeTimers := (q.activeTimers.erase id).1 }

/-- The queue after `cancelInLoop` has not found `id` among the active timers. -/
def marked (q : TimerQueue) (id : TimerId) : TimerQueue :=
  if q.callingExpiredTimers then
    { q with cancelingTimers := (q.cancelingTimers.insert id).1 }
  else q

/-- The other addresses stay as they are. -/
lemma removed_heap_of_ne {p' : Ptr} (hp : p' ≠ id.timer) : (q.removed id t).heap p' = q.heap p' :=
  setHeap_of_ne q _ hp

/-- The address of the removed timer is free. -/
lemma removed_heap_self : (q.removed id t).heap id.timer = none := setHeap_self q _ _

/-- Removing and freeing an active timer. -/
lemma QueueInv.removed (h : QueueInv q out) (hid : id ∈ q.activeTimers)
    (ht : q.heap id.timer = some t) : QueueInv (q.removed id t) out := by
  have hseq := (h.timers_of_active hid ht).1
  have hcases : ∀ {p' : Ptr} {t' : Timer}, (q.removed id t).heap p' = some t' →
      p' ≠ id.timer ∧ q.heap p' = some t' := by
    intro p' t' ht'
    by_cases hp : p' = id.timer
    · rw [hp, removed_heap_self] at ht'
      cases ht'
    · exact ⟨hp, removed_heap_of_ne hp ▸ ht'⟩
  constructor
  · intro p' t' ht'
    exact h.bound p' t' (hcases ht').2
  · intro p₁ p₂ t₁ t₂ h₁ h₂
    exact h.sequence_inj p₁ p₂ t₁ t₂ (hcases h₁).2 (hcases h₂).2
  · intro e he
    obtain ⟨hne, he⟩ := OrdSet.mem_erase.mp he
    obtain ⟨t', ht', hexp, hact⟩ := h.timers_active e he
    have hp : e.timer ≠ id.timer := by
      intro hp
      refine hne (Entry.ext ?_ hp)
      rw [hp, ht, Option.some.injEq] at ht'
      rw [← hexp, ht']
    refine ⟨t', by rw [removed_heap_of_ne hp, ht'], hexp, OrdSet.mem_erase.mpr ⟨?_, hact⟩⟩
    intro heq
    exact hp (congrArg TimerId.timer heq)
  · intro i hi
    obtain ⟨hne, hi⟩ := OrdSet.mem_erase.mp hi
    obtain ⟨t', ht', hseq', htim⟩ := h.active_timers i hi
    have hp : i.timer ≠ id.timer := fun hp => hne (h.active_inj hi hid hp)
    refine ⟨t', by rw [removed_heap_of_ne hp, ht'], hseq', OrdSet.mem_erase.mpr ⟨?_, htim⟩⟩
    intro heq
    exact hp (congrArg Entry.timer heq)
  · exact h.out_nodup
  · intro p' hp'
    obtain ⟨t', ht', hnot⟩ := h.out_live p' hp'
    have hp : p' ≠ id.timer := fun hp => h.not_mem_active hp' hid hp.symm
    exact ⟨t', by rw [removed_heap_of_ne hp, ht'], fun hmem => hnot (OrdSet.mem_erase.mp hmem).2⟩
  · intro p' t' ht'
    obtain ⟨hp, ht'⟩ := hcases ht'
    refine (h.accounted p' t' ht').imp_left fun hact => OrdSet.mem_erase.mpr ⟨?_, hact⟩
    intro heq
    exact hp (congrArg TimerId.timer heq)

/-- Marking a timer as cancelled changes neither set. -/
lemma QueueInv.marked (h : QueueInv q out) (id : TimerId) : QueueInv (q.marked id) out := by
  unfold TimerQueue.marked
  split
  · exact h.congr rfl rfl rfl rfl
  · exact h

/-- `cancelInLoop` succeeds: it removes and frees an active timer, and otherwise at most marks the
identity it was given. -/
theorem cancelInLoop_spec (h : QueueInv q out) (id : TimerId) :
    (∃ t, id ∈ q.activeTimers ∧ q.heap id.timer = some t ∧ t.sequence = id.sequence ∧
        q.cancelInLoop id = some (q.removed id t) ∧ QueueInv (q.removed id t) out) ∨
      (id ∉ q.activeTimers ∧ q.cancelInLoop id = some (q.marked id) ∧
        QueueInv (q.marked id) out) := by
  by_cases hid : id ∈ q.activeTimers
  · obtain ⟨t, ht, hseq, htim⟩ := h.active_timers id hid
    have hinv := h.removed hid ht
    refine Or.inl ⟨t, hid, ht, hseq, ?_, hinv⟩
    have hsizes := hinv.checkSizes
    rw [TimerQueue.removed] at hsizes
    simp only [cancelInLoop, h.checkSizes, hid, ht, OrdSet.erase_snd htim, hsizes, if_true,
      Option.bind_eq_bind, Option.bind_some]
    rfl
  · have hinv := h.marked id
    refine Or.inr ⟨hid, ?_, hinv⟩
    have hsizes := hinv.checkSizes
    unfold TimerQueue.marked at hsizes ⊢
    by_cases hcalling : q.callingExpiredTimers = true
    · simp only [hcalling, if_true] at hsizes ⊢
      simp only [cancelInLoop, h.checkSizes, hid, hcalling, hsizes, if_true, if_false,
        Option.bind_eq_bind, Option.bind_some]
    · simp only [hcalling] at hsizes ⊢
      simp only [cancelInLoop, h.checkSizes, hid, hcalling, if_false, Option.bind_eq_bind,
        Option.bind_some]
      rfl

/-! ### Taking the expired timers out -/

/-- The sentry of `getExpired`. -/
def sentry (now : Timestamp) : Entry := ⟨now, uintptrMax⟩

/-- The entries `getExpired` takes out. -/
def expired (q : TimerQueue) (now : Timestamp) : List Entry := q.timers.below (sentry now)

/-- The loop of `getExpired` erases the expired identities, and nothing else. -/
lemma eraseActive_spec (heap : Ptr → Option Timer) {es : List Entry} {active : OrdSet TimerId}
    (hnodup : (es.map Entry.timer).Nodup)
    (hes : ∀ e ∈ es, ∃ t, heap e.timer = some t ∧ ⟨e.timer, t.sequence⟩ ∈ active)
    (huniq : ∀ i ∈ active, ∀ t, heap i.timer = some t → t.sequence = i.sequence) :
    ∃ active', eraseActive heap es active = some active' ∧
      ∀ i, i ∈ active' ↔ i ∈ active ∧ i.timer ∉ es.map Entry.timer := by
  induction es generalizing active with
  | nil => exact ⟨active, rfl, by simp⟩
  | cons e es ih =>
    rw [List.map_cons, List.nodup_cons] at hnodup
    obtain ⟨t, ht, hact⟩ := hes e List.mem_cons_self
    have hes' : ∀ e' ∈ es, ∃ t', heap e'.timer = some t' ∧
        ⟨e'.timer, t'.sequence⟩ ∈ (active.erase ⟨e.timer, t.sequence⟩).1 := by
      intro e' he'
      obtain ⟨t', ht', hact'⟩ := hes e' (List.mem_cons_of_mem _ he')
      refine ⟨t', ht', OrdSet.mem_erase.mpr ⟨fun heq => ?_, hact'⟩⟩
      have hp : e'.timer = e.timer := congrArg TimerId.timer heq
      exact hnodup.1 (hp ▸ List.mem_map_of_mem he')
    obtain ⟨active', hactive', hmem⟩ := ih hnodup.2 hes' fun i hi t' ht' =>
      huniq i (OrdSet.mem_erase.mp hi).2 t' ht'
    refine ⟨active', ?_, fun i => ?_⟩
    · simp only [eraseActive, ht, OrdSet.erase_snd hact, if_true, Option.bind_eq_bind,
        Option.bind_some, hactive']
    · rw [hmem i, OrdSet.mem_erase, List.map_cons, List.mem_cons, not_or]
      constructor
      · rintro ⟨⟨hne, hi⟩, hnot⟩
        refine ⟨hi, fun hp => hne ?_, hnot⟩
        exact TimerId.ext hp (huniq i hi t (hp ▸ ht)).symm
      · rintro ⟨hi, hp, hnot⟩
        exact ⟨⟨fun heq => hp (congrArg TimerId.timer heq), hi⟩, hnot⟩

/-- An entry of a live timer is taken out exactly when it has expired, ties included. -/
lemma mem_expired (h : QueueInv q out) {now : Timestamp} {e : Entry} :
    e ∈ q.expired now ↔ e ∈ q.timers ∧ e.time ≤ now := by
  unfold expired
  rw [OrdSet.mem_below]
  constructor
  · rintro ⟨he, hlt⟩
    refine ⟨he, ?_⟩
    rcases Entry.lt_iff.mp hlt with hlt | ⟨heq, -⟩
    · exact hlt.le
    · exact heq.le
  · rintro ⟨he, hle⟩
    refine ⟨he, Entry.lt_iff.mpr ?_⟩
    rcases lt_or_eq_of_le hle with hlt | heq
    · exact Or.inl hlt
    · obtain ⟨t, ht, -⟩ := h.timers_active e he
      exact Or.inr ⟨heq, (h.bound _ _ ht).1⟩

/-- An entry stays behind exactly when its time has not come. -/
lemma mem_above_sentry (h : QueueInv q out) {now : Timestamp} {e : Entry} :
    e ∈ q.timers.above (sentry now) ↔ e ∈ q.timers ∧ now < e.time := by
  rw [OrdSet.mem_above]
  constructor
  · rintro ⟨he, hle⟩
    refine ⟨he, not_le.mp fun hle' => ?_⟩
    have hmem : e ∈ q.expired now := (mem_expired h).mpr ⟨he, hle'⟩
    exact not_lt.mpr hle (OrdSet.mem_below.mp hmem).2
  · rintro ⟨he, hlt⟩
    exact ⟨he, (Entry.lt_iff.mpr (Or.inl hlt)).le⟩

/-- The expired timers have distinct addresses. -/
lemma nodup_expired (h : QueueInv q out) (now : Timestamp) :
    ((q.expired now).map Entry.timer).Nodup :=
  List.Nodup.map_on
    (fun _ he _ he' => h.timers_inj ((mem_expired h).mp he).1 ((mem_expired h).mp he').1)
    ((q.timers.pairwise_below (sentry now)).imp fun hlt => ne_of_lt hlt)

/-- `getExpired` succeeds and moves the expired timers from both sets to `out`. -/
theorem getExpired_spec (h : QueueInv q out) (now : Timestamp) :
    ∃ active, q.getExpired now =
        some ({ q with timers := q.timers.above (sentry now), activeTimers := active },
          q.expired now) ∧
      QueueInv { q with timers := q.timers.above (sentry now), activeTimers := active }
        ((q.expired now).map Entry.timer ++ out) := by
  have hsub : ∀ e ∈ q.expired now, e ∈ q.timers := fun e he => ((mem_expired h).mp he).1
  have hnodup := nodup_expired h now
  obtain ⟨active, hactive, hmem⟩ := eraseActive_spec q.heap hnodup
    (fun e he => by
      obtain ⟨t, ht, -, hact⟩ := h.timers_active e (hsub e he)
      exact ⟨t, ht, hact⟩)
    (fun i hi t ht => (h.timers_of_active hi ht).1)
  -- an entry that stays behind has an address of its own
  have hrest : ∀ e ∈ q.timers, now < e.time → e.timer ∉ (q.expired now).map Entry.timer := by
    intro e he hlt hp
    obtain ⟨e', he', hp'⟩ := List.mem_map.mp hp
    have heq := h.timers_inj (hsub e' he') he hp'
    have hle := ((mem_expired h).mp he').2
    rw [heq] at hle
    exact not_lt.mpr hle hlt
  have hinv : QueueInv { q with timers := q.timers.above (sentry now), activeTimers := active }
      ((q.expired now).map Entry.timer ++ out) := by
    constructor
    · exact h.bound
    · exact h.sequence_inj
    · intro e he
      obtain ⟨he, hlt⟩ := (mem_above_sentry h).mp he
      obtain ⟨t, ht, hexp, hact⟩ := h.timers_active e he
      exact ⟨t, ht, hexp, (hmem _).mpr ⟨hact, hrest e he hlt⟩⟩
    · intro i hi
      obtain ⟨hi, hnot⟩ := (hmem i).mp hi
      obtain ⟨t, ht, hseq, htim⟩ := h.active_timers i hi
      refine ⟨t, ht, hseq, (mem_above_sentry h).mpr ⟨htim, not_le.mp fun hle => ?_⟩⟩
      exact hnot (List.mem_map.mpr ⟨_, (mem_expired h).mpr ⟨htim, hle⟩, rfl⟩)
    · refine List.nodup_append.mpr ⟨hnodup, h.out_nodup, ?_⟩
      rintro p hp p' hp' rfl
      obtain ⟨e, he, rfl⟩ := List.mem_map.mp hp
      exact h.not_mem_timers hp' (hsub e he) rfl
    · intro p hp
      rcases List.mem_append.mp hp with hp | hp
      · obtain ⟨e, he, rfl⟩ := List.mem_map.mp hp
        obtain ⟨t, ht, -⟩ := h.timers_active e (hsub e he)
        exact ⟨t, ht, fun hact => ((hmem _).mp hact).2 hp⟩
      · obtain ⟨t, ht, hnot⟩ := h.out_live p hp
        exact ⟨t, ht, fun hact => hnot ((hmem _).mp hact).1⟩
    · intro p t ht
      rcases h.accounted p t ht with hact | hp
      · by_cases hp : p ∈ (q.expired now).map Entry.timer
        · exact Or.inr (List.mem_append_left _ hp)
        · exact Or.inl ((hmem _).mpr ⟨hact, hp⟩)
      · exact Or.inr (List.mem_append_right _ hp)
  refine ⟨active, ?_, hinv⟩
  have hassert :
      ((q.timers.above (sentry now)).first.all fun e => decide (now < e.time)) = true := by
    rw [Option.all_eq_true]
    intro e he
    exact decide_eq_true ((mem_above_sentry h).mp (OrdSet.mem_of_first he)).2
  have hsizes := hinv.checkSizes
  simp only [expired, sentry] at hassert hsizes hactive ⊢
  simp only [getExpired, h.checkSizes, hassert, hactive, hsizes, if_true, Option.bind_eq_bind,
    Option.bind_some]

/-! ### Putting the expired timers back, or freeing them -/

/-- Writing a listed timer without changing its sequence number. -/
lemma QueueInv.setHeap_some (h : QueueInv q out) (hp : p ∈ out) (ht : q.heap p = some t)
    {t' : Timer} (hseq : t'.sequence = t.sequence) : QueueInv (q.setHeap p (some t')) out := by
  have hcases : ∀ {p' : Ptr} {u : Timer}, (q.setHeap p (some t')).heap p' = some u →
      ∃ u', q.heap p' = some u' ∧ u.sequence = u'.sequence := by
    intro p' u hu
    by_cases hp' : p' = p
    · subst hp'
      rw [setHeap_self, Option.some.injEq] at hu
      exact ⟨t, ht, hu ▸ hseq⟩
    · rw [setHeap_of_ne _ _ hp'] at hu
      exact ⟨u, hu, rfl⟩
  have hold : ∀ {p' : Ptr}, p' ≠ p → (q.setHeap p (some t')).heap p' = q.heap p' :=
    fun hp' => setHeap_of_ne _ _ hp'
  constructor
  · intro p' u hu
    obtain ⟨u', hu', heq⟩ := hcases hu
    rw [heq]
    exact h.bound p' u' hu'
  · intro p₁ p₂ u₁ u₂ h₁ h₂ heq
    obtain ⟨v₁, hv₁, hs₁⟩ := hcases h₁
    obtain ⟨v₂, hv₂, hs₂⟩ := hcases h₂
    exact h.sequence_inj p₁ p₂ v₁ v₂ hv₁ hv₂ (by rw [← hs₁, ← hs₂, heq])
  · intro e he
    obtain ⟨u, hu, hrest⟩ := h.timers_active e he
    exact ⟨u, by rw [hold (h.not_mem_timers hp he), hu], hrest⟩
  · intro i hi
    obtain ⟨u, hu, hrest⟩ := h.active_timers i hi
    exact ⟨u, by rw [hold (h.not_mem_active hp hi), hu], hrest⟩
  · exact h.out_nodup
  · intro p' hp'
    obtain ⟨u, hu, hnot⟩ := h.out_live p' hp'
    by_cases heq : p' = p
    · subst heq
      have htu : t = u := Option.some.inj (ht.symm.trans hu)
      exact ⟨t', setHeap_self _ _ _, by rwa [hseq, htu]⟩
    · exact ⟨u, by rw [hold heq, hu], hnot⟩
  · intro p' u hu
    obtain ⟨u', hu', heq⟩ := hcases hu
    rw [heq]
    exact h.accounted p' u' hu'

/-- Freeing a listed timer. -/
lemma QueueInv.setHeap_none (h : QueueInv q (p :: out)) : QueueInv (q.setHeap p none) out := by
  have hmem : p ∈ p :: out := List.mem_cons_self
  have hnodup := List.nodup_cons.mp h.out_nodup
  have hcases : ∀ {p' : Ptr} {u : Timer}, (q.setHeap p none).heap p' = some u →
      p' ≠ p ∧ q.heap p' = some u := by
    intro p' u hu
    by_cases hp' : p' = p
    · rw [hp', setHeap_self] at hu
      cases hu
    · exact ⟨hp', setHeap_of_ne q none hp' ▸ hu⟩
  have hold : ∀ {p' : Ptr}, p' ≠ p → (q.setHeap p none).heap p' = q.heap p' :=
    fun hp' => setHeap_of_ne _ _ hp'
  constructor
  · intro p' u hu
    exact h.bound p' u (hcases hu).2
  · intro p₁ p₂ u₁ u₂ h₁ h₂
    exact h.sequence_inj p₁ p₂ u₁ u₂ (hcases h₁).2 (hcases h₂).2
  · intro e he
    obtain ⟨u, hu, hrest⟩ := h.timers_active e he
    exact ⟨u, by rw [hold (h.not_mem_timers hmem he), hu], hrest⟩
  · intro i hi
    obtain ⟨u, hu, hrest⟩ := h.active_timers i hi
    exact ⟨u, by rw [hold (h.not_mem_active hmem hi), hu], hrest⟩
  · exact hnodup.2
  · intro p' hp'
    obtain ⟨u, hu, hnot⟩ := h.out_live p' (List.mem_cons_of_mem _ hp')
    have hne : p' ≠ p := by
      rintro rfl
      exact hnodup.1 hp'
    exact ⟨u, by rw [hold hne, hu], hnot⟩
  · intro p' u hu
    obtain ⟨hne, hu⟩ := hcases hu
    rcases h.accounted p' u hu with hact | hout
    · exact Or.inl hact
    · exact Or.inr ((List.mem_cons.mp hout).resolve_left hne)

/-- What `reset` leaves at the address of an expired timer: the restarted timer when it repeats and
has not been cancelled, and nothing otherwise. -/
def rearmed (q : TimerQueue) (now : Timestamp) (p : Ptr) : Option Timer :=
  match q.heap p with
  | none => none
  | some t =>
    if t.repeated = true ∧ ⟨p, t.sequence⟩ ∉ q.cancelingTimers then some (t.restart now) else none

/-- A timer that `reset` leaves alive is a repeating one, not cancelled, restarted. -/
lemma exists_of_rearmed {now : Timestamp} {t' : Timer} (h : q.rearmed now p = some t') :
    ∃ t, q.heap p = some t ∧ (t.repeated = true ∧ ⟨p, t.sequence⟩ ∉ q.cancelingTimers) ∧
      t' = t.restart now := by
  unfold rearmed at h
  split at h
  · cases h
  · next t ht =>
    split at h
    · next hkeep => exact ⟨t, ht, hkeep, (Option.some.inj h).symm⟩
    · cases h

/-- What the loop of `reset` over the entries `es` does to the queue. -/
structure ResetTimers (now : Timestamp) (q : TimerQueue) (es : List Entry) (q' : TimerQueue) :
    Prop where
  numCreated : q'.numCreated = q.numCreated
  cancelingTimers : q'.cancelingTimers = q.cancelingTimers
  callingExpiredTimers : q'.callingExpiredTimers = q.callingExpiredTimers
  timerfd : q'.timerfd = q.timerfd
  heap_mem : ∀ p ∈ es.map Entry.timer, q'.heap p = q.rearmed now p
  heap_not_mem : ∀ p, p ∉ es.map Entry.timer → q'.heap p = q.heap p
  timers : ∀ x, x ∈ q'.timers ↔
    x ∈ q.timers ∨ ∃ p ∈ es.map Entry.timer, ∃ t, q.rearmed now p = some t ∧ x = ⟨t.expiration, p⟩

/-- The effect of one round of the loop, and of the rounds that follow it. -/
lemma ResetTimers.cons {now : Timestamp} {q₁ : TimerQueue} {e : Entry} {es : List Entry}
    (h₁ : ResetTimers now q [e] q₁) (h : ResetTimers now q₁ es q')
    (hne : e.timer ∉ es.map Entry.timer) : ResetTimers now q (e :: es) q' := by
  have hrearmed : ∀ p ∈ es.map Entry.timer, q₁.rearmed now p = q.rearmed now p := by
    intro p hp
    have hpe : p ∉ [e].map Entry.timer := by
      rw [List.map_singleton, List.mem_singleton]
      rintro rfl
      exact hne hp
    simp only [rearmed, h₁.heap_not_mem p hpe, h₁.cancelingTimers]
  constructor
  · rw [h.numCreated, h₁.numCreated]
  · rw [h.cancelingTimers, h₁.cancelingTimers]
  · rw [h.callingExpiredTimers, h₁.callingExpiredTimers]
  · rw [h.timerfd, h₁.timerfd]
  · intro p hp
    rcases List.mem_cons.mp hp with rfl | hp
    · rw [h.heap_not_mem _ hne, h₁.heap_mem _ (by simp)]
    · rw [h.heap_mem p hp, hrearmed p hp]
  · intro p hp
    rw [List.map_cons, List.mem_cons, not_or] at hp
    rw [h.heap_not_mem p hp.2, h₁.heap_not_mem p (by simpa using hp.1)]
  · intro x
    rw [h.timers, h₁.timers]
    constructor
    · rintro ((hx | ⟨p, hp, hx⟩) | ⟨p, hp, t, ht, rfl⟩)
      · exact Or.inl hx
      · exact Or.inr ⟨p, by simpa using Or.inl (by simpa using hp), hx⟩
      · exact Or.inr ⟨p, List.mem_cons_of_mem _ hp, t, hrearmed p hp ▸ ht, rfl⟩
    · rintro (hx | ⟨p, hp, t, ht, rfl⟩)
      · exact Or.inl (Or.inl hx)
      · rcases List.mem_cons.mp hp with rfl | hp
        · exact Or.inl (Or.inr ⟨_, by simp, t, ht, rfl⟩)
        · exact Or.inr ⟨p, hp, t, (hrearmed p hp).trans ht, rfl⟩

/-- The loop of `reset` succeeds: it puts the repeating timers that were not cancelled back into
both sets, restarted, and frees the others. -/
theorem resetTimers_spec (now : Timestamp) {es : List Entry}
    (h : QueueInv q (es.map Entry.timer ++ out)) :
    ∃ q', resetTimers now q es = some q' ∧ QueueInv q' out ∧ ResetTimers now q es q' := by
  induction es generalizing q with
  | nil => exact ⟨q, rfl, h, by constructor <;> simp⟩
  | cons e es ih =>
    rw [List.map_cons, List.cons_append] at h
    have hne : e.timer ∉ es.map Entry.timer := fun hmem =>
      (List.nodup_cons.mp h.out_nodup).1 (List.mem_append_left _ hmem)
    obtain ⟨t, ht, -⟩ := h.out_live e.timer List.mem_cons_self
    by_cases hkeep : t.repeated = true ∧ ⟨e.timer, t.sequence⟩ ∉ q.cancelingTimers
    · have hre : q.rearmed now e.timer = some (t.restart now) := by
        simp only [rearmed, ht, if_pos hkeep]
      have hset := h.setHeap_some List.mem_cons_self ht (Timer.restart_sequence t now)
      have hself : (q.setHeap e.timer (some (t.restart now))).heap e.timer =
          some (t.restart now) := setHeap_self q _ _
      have hfirst : ResetTimers now q [e]
          ((q.setHeap e.timer (some (t.restart now))).inserted e.timer (t.restart now)) := by
        refine ⟨rfl, rfl, rfl, rfl, ?_, ?_, ?_⟩
        · intro p hp
          rw [List.map_singleton, List.mem_singleton] at hp
          rw [hp, hre]
          exact hself
        · intro p hp
          exact setHeap_of_ne q _ (by simpa using hp)
        · intro x
          refine OrdSet.mem_insert.trans ?_
          simp [hre, setHeap, or_comm]
      obtain ⟨q', hq', hinv, heff⟩ := ih (hset.inserted hself)
      refine ⟨q', ?_, hinv, hfirst.cons heff hne⟩
      simp only [resetTimers, ht, insert_eq hset hself, Option.bind_eq_bind, Option.bind_some]
      rw [if_pos hkeep]
      exact hq'
    · have hre : q.rearmed now e.timer = none := by
        simp only [rearmed, ht, if_neg hkeep]
      have hfirst : ResetTimers now q [e] (q.setHeap e.timer none) := by
        refine ⟨rfl, rfl, rfl, rfl, ?_, ?_, ?_⟩
        · simp [hre]
        · intro p hp
          exact setHeap_of_ne q _ (by simpa using hp)
        · simp [hre, setHeap]
      obtain ⟨q', hq', hinv, heff⟩ := ih h.setHeap_none
      refine ⟨q', ?_, hinv, hfirst.cons heff hne⟩
      simp only [resetTimers, ht, Option.bind_eq_bind, Option.bind_some]
      rw [if_neg hkeep]
      exact hq'

end TimerQueue

end MuduoServer
