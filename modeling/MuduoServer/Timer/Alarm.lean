import MuduoServer.Timer.Loop

/-!
# The alarm covers the earliest timer

One relative alarm serves all timers, and the code sets it on some paths only: when an inserted
timer is earlier than all others, and at the end of a batch when the earliest expiration is valid.
`AlarmInv` says why this is enough.  Outside a batch every timer is covered by the alarm.  During a
batch the alarm may have been used up, but a timer that the end of the batch will not set it for,
one with a nonpositive expiration, was added by a callback and is covered already.
-/

namespace MuduoServer

/-! ### Setting the alarm -/

/-- The relative time that is set is at least 100 microseconds, in normal form. -/
lemma howMuchTimeFromNow_spec (w clk : Timestamp) :
    0 ≤ (howMuchTimeFromNow w clk).tv_nsec ∧ (howMuchTimeFromNow w clk).tv_nsec < 10 ^ 9 ∧
      (howMuchTimeFromNow w clk).tv_sec * 1000000000 + (howMuchTimeFromNow w clk).tv_nsec =
        1000 * max (int64.wrap (w - clk)) 100 := by
  unfold howMuchTimeFromNow
  generalize int64.wrap (w - clk) = m
  have hmicros : (if m < 100 then 100 else m) = max m 100 := by
    rcases lt_or_ge m 100 with hlt | hge
    · rw [if_pos hlt, max_eq_right hlt.le]
    · rw [if_neg hge.not_gt, max_eq_left hge]
  have hnonneg : 0 ≤ max m 100 := le_max_of_le_right (by norm_num)
  have hpos : 0 < kMicroSecondsPerSecond := by norm_num [kMicroSecondsPerSecond]
  have hdiv := Int.mul_ediv_add_emod (max m 100) kMicroSecondsPerSecond
  have hmod := Int.emod_nonneg (max m 100) hpos.ne'
  have hmod' := Int.emod_lt_of_pos (max m 100) hpos
  simp only [hmicros, Int.tdiv_eq_ediv_of_nonneg hnonneg, Int.tmod_eq_emod_of_nonneg hnonneg]
  generalize max m 100 / kMicroSecondsPerSecond = sec at hdiv ⊢
  generalize max m 100 % kMicroSecondsPerSecond = rem at hdiv hmod hmod' ⊢
  rw [kMicroSecondsPerSecond] at hdiv hmod'
  refine ⟨by omega, by omega, ?_⟩
  rw [← hdiv]
  ring

/-- The time that is set is never the zero that disarms the alarm. -/
lemma howMuchTimeFromNow_ne_zero (w clk : Timestamp) :
    ¬ ((howMuchTimeFromNow w clk).tv_sec = 0 ∧ (howMuchTimeFromNow w clk).tv_nsec = 0) := by
  rintro ⟨hsec, hnsec⟩
  have hspec := (howMuchTimeFromNow_spec w clk).2.2
  have hmax := le_max_right (int64.wrap (w - clk)) 100
  rw [hsec, hnsec] at hspec
  omega

/-- The alarm is pending, and goes off no later than `x` or 100 microseconds after the last
arming. -/
def Timerfd.Covers (fd : Timerfd) (x : Timestamp) : Prop :=
  ∃ d, fd.deadline = some d ∧ d ≤ 1000 * max x (fd.lastArming + 100)

/-- An alarm for an early time is in time for a later one. -/
lemma Timerfd.Covers.mono {fd : Timerfd} {x y : Timestamp} (h : fd.Covers x) (hxy : x ≤ y) :
    fd.Covers y := by
  obtain ⟨d, hd, hle⟩ := h
  have hmax : max x (fd.lastArming + 100) ≤ max y (fd.lastArming + 100) := max_le_max_right _ hxy
  exact ⟨d, hd, hle.trans (mul_le_mul_of_nonneg_left hmax (by norm_num))⟩

namespace TimerQueue

variable {q : TimerQueue} {p : Ptr} {t : Timer} {clk : Timestamp}

/-- `resetTimerfd(expiration)` covers `expiration`, if the difference does not overflow. -/
lemma covers_resetTimerfd (q : TimerQueue) {w : Timestamp} (hrange : int64.InRange (w - clk)) :
    (q.resetTimerfd w clk).1.timerfd.Covers w := by
  have hspec := (howMuchTimeFromNow_spec w clk).2.2
  rw [IntType.wrap_of_inRange (by decide) rfl hrange] at hspec
  refine ⟨_, if_neg (howMuchTimeFromNow_ne_zero w clk), ?_⟩
  have hmax : max w (clk + 100) = clk + max (w - clk) 100 := by
    rw [← max_add_add_left, add_sub_cancel]
  change clk * 1000 + _ + _ ≤ 1000 * max w (clk + 100)
  rw [hmax, mul_add, ← hspec]
  exact (by ring : _ = _).le

/-- The timers that satisfy `P` are covered by the alarm. -/
def CoversAll (q : TimerQueue) (P : Timestamp → Prop) : Prop :=
  ∀ e ∈ q.timers, P e.time → q.timerfd.Covers e.time

/-- Adding a timer keeps the timers covered.  When the new one is not the earliest, the alarm for
the earliest serves it too; `P` has to hold of earlier times for that. -/
lemma CoversAll.added {P : Timestamp → Prop} (hP : ∀ x y, x ≤ y → P y → P x)
    (h : q.CoversAll P) (hrange : int64.InRange (t.expiration - clk)) :
    (q.added p t clk).1.CoversAll P := by
  have hmem : ∀ {e : Entry}, e ∈ (q.inserted p t).timers → e = ⟨t.expiration, p⟩ ∨ e ∈ q.timers :=
    fun he => OrdSet.mem_insert.mp he
  unfold TimerQueue.added
  by_cases hearliest : q.earliestChanged t = true
  · rw [if_pos hearliest]
    intro e he _
    refine (covers_resetTimerfd (q.inserted p t) hrange).mono ?_
    rcases hmem he with rfl | he
    · exact le_rfl
    · obtain ⟨e₀, hfirst, hle⟩ := OrdSet.exists_first he
      have hlt : t.expiration < e₀.time := by
        simpa [earliestChanged, hfirst] using hearliest
      exact hlt.le.trans (Entry.time_le_of_le hle)
  · rw [if_neg hearliest]
    intro e he hPe
    rcases hmem he with rfl | he
    · cases hfirst : q.timers.first with
      | none => simp [earliestChanged, hfirst] at hearliest
      | some e₀ =>
        have hle : e₀.time ≤ t.expiration := by
          simpa [earliestChanged, hfirst] using hearliest
        exact (h e₀ (OrdSet.mem_of_first hfirst) (hP _ _ hle hPe)).mono hle
    · exact h e he hPe

/-- The end of `reset` covers all timers, if those with nonpositive expirations were covered. -/
lemma CoversAll.rearm (h : q.CoversAll (· ≤ 0))
    (hrange : ∀ e ∈ q.timers, int64.InRange (e.time - clk)) :
    (q.rearm clk).1.CoversAll fun _ => True := by
  unfold TimerQueue.rearm
  cases hfirst : q.timers.first with
  | none =>
    intro e he
    exact absurd he (OrdSet.first_eq_none.mp hfirst e)
  | some e₀ =>
    have hle : ∀ e ∈ q.timers, e₀.time ≤ e.time := fun e he =>
      Entry.time_le_of_le (OrdSet.first_le hfirst he)
    by_cases hpos : 0 < e₀.time
    · simp only [if_pos hpos]
      intro e he _
      have hmem := OrdSet.mem_of_first hfirst
      exact (covers_resetTimerfd q (hrange e₀ hmem)).mono (hle e he)
    · simp only [if_neg hpos]
      intro e he _
      exact (h e₀ (OrdSet.mem_of_first hfirst) (not_lt.mp hpos)).mono (hle e he)

end TimerQueue

/-! ### The alarm along a run -/

namespace TimerLoop

open TimerQueue

variable {s s' : TimerLoop} {act : TimerAct} {out : List TimerEvent}

/-- The clock never goes back. -/
def Advancing (s : TimerLoop) (act : TimerAct) : Prop := ∀ clk ∈ act.reading, s.clock ≤ clk

instance (s : TimerLoop) (act : TimerAct) : Decidable (s.Advancing act) := by
  unfold Advancing
  infer_instance

/-- The expirations for which the step may set the alarm. -/
def alarmTimes (s : TimerLoop) : TimerAct → List Timestamp
  | .addTimer _ when_ _ _ => [when_]
  | .runTask _ =>
    match s.tasks with
    | .addTimerInLoop p :: _ => (s.queue.heap p).toList.map Timer.expiration
    | _ => []
  | .finish _ =>
    s.queue.timers.elems.map Entry.time ++ s.batch.toList.flatMap fun b =>
      b.expired.flatMap fun e => (s.queue.rearmed b.now e.timer).toList.map Timer.expiration
  | _ => []

/-- No expiration overflows in the step, neither when it is computed nor in `when - now`. -/
def NoOverflow (s : TimerLoop) (act : TimerAct) : Prop :=
  s.RearmsInRange act ∧
    ∀ clk ∈ act.reading, ∀ w ∈ s.alarmTimes act, int64.InRange (w - clk)

instance (s : TimerLoop) (act : TimerAct) : Decidable (s.NoOverflow act) :=
  inferInstanceAs (Decidable (_ ∧ _))

/-- The clock readings are positive.  Outside a batch the alarm covers all timers, and inside a
batch those for which `reset` is not going to set it. -/
structure AlarmInv (s : TimerLoop) : Prop where
  clock_pos : 0 < s.clock
  now_pos : ∀ b ∈ s.batch, 0 < b.now
  covers : s.queue.CoversAll fun x => s.batch = none ∨ x ≤ 0

/-- Cancelling a timer does not touch the alarm. -/
lemma CoversAll.cancelled {q q' : TimerQueue} {id : TimerId} {P : Timestamp → Prop}
    (h : q.CoversAll P) (hq : Cancelled q id q') : q'.CoversAll P := by
  rcases hq with @⟨t, hid, ht⟩ | hid
  · intro e he
    exact h e (OrdSet.mem_erase.mp he).2
  · unfold TimerQueue.marked
    split <;> exact h

/-- A step keeps the alarm invariant. -/
theorem AlarmInv.effect (h : AlarmInv s) (hinv : LoopInv s) (hadv : s.Advancing act)
    (hno : s.NoOverflow act) (heff : Effect s act s' out) : AlarmInv s' := by
  obtain ⟨hclock, hnow, hcovers⟩ := h
  have hP : ∀ x y : Timestamp, x ≤ y → (s.batch = none ∨ y ≤ 0) → s.batch = none ∨ x ≤ 0 :=
    fun x y hxy hy => hy.imp_right hxy.trans
  cases heff with
  | postAdd hp => exact ⟨hclock, hnow, hcovers⟩
  | postCancel => exact ⟨hclock, hnow, hcovers⟩
  | @add p w i clk r hp hr =>
    subst hr
    have hrange := hno.2 clk rfl w List.mem_cons_self
    exact ⟨hclock.trans_le (hadv clk rfl), hnow, CoversAll.added hP hcovers hrange⟩
  | @runAdd p t clk tasks r hbatch htasks ht hr =>
    subst hr
    have hrange := hno.2 clk rfl t.expiration (by simp [alarmTimes, htasks, ht])
    exact ⟨hclock.trans_le (hadv clk rfl), hnow, CoversAll.added hP hcovers hrange⟩
  | cancel hq => exact ⟨hclock, hnow, CoversAll.cancelled hcovers hq⟩
  | @runCancel id q clk tasks hbatch htasks hq =>
    exact ⟨hclock.trans_le (hadv clk rfl), hnow, CoversAll.cancelled hcovers hq⟩
  | @begin now active hbatch =>
    have hpos : 0 < now := hclock.trans_le (hadv now rfl)
    refine ⟨hpos, ?_, ?_⟩
    · rintro b ⟨rfl⟩
      exact hpos
    · -- every timer that stays behind expires after `now`
      intro e he hle
      have hlt : now < e.time := ((mem_above_sentry hinv.queue).mp he).2
      rcases hle with hnone | hle
      · cases hnone
      · exact absurd (hpos.trans hlt) (not_lt.mpr hle)
  | @callback b e rest t hbatch hrest ht hexp hdue =>
    refine ⟨hclock, ?_, fun e he hle => hcovers e he (Or.inr ?_)⟩
    · rintro b' ⟨rfl⟩
      exact hnow b hbatch
    · rcases hle with hnone | hle
      · cases hnone
      · exact hle
  | @finish b q clk hbatch hrest hq =>
    have hold : q.CoversAll (· ≤ 0) := by
      intro e he hle
      rw [hq.timerfd]
      rcases (hq.timers e).mp he with he | ⟨p, hp, t', ht', rfl⟩
      · exact hcovers e he (Or.inr hle)
      · -- a restarted timer expires after `now`
        obtain ⟨e, hmem, rfl⟩ := List.mem_map.mp hp
        obtain ⟨t, ht, hkeep, rfl⟩ := exists_of_rearmed ht'
        obtain ⟨D, hD, hexp⟩ := (hno.1 b hbatch e hmem t ht hkeep.1 hkeep.2).addTime_eq
        have hnonneg := Interval.micros_nonneg hkeep.1 hD
        have hpos := hnow b hbatch
        rw [Timer.restart, if_pos hkeep.1, hexp] at hle
        exact absurd (add_pos_of_pos_of_nonneg hpos hnonneg) (not_lt.mpr hle)
    have hrange : ∀ e ∈ q.timers, int64.InRange (e.time - clk) := by
      intro e he
      refine hno.2 clk rfl e.time (List.mem_append.mpr ?_)
      rcases (hq.timers e).mp he with he | ⟨p, hp, t', ht', rfl⟩
      · exact Or.inl (List.mem_map_of_mem he)
      · obtain ⟨e, hmem, rfl⟩ := List.mem_map.mp hp
        have hb : b ∈ s.batch.toList := Option.mem_toList.mpr hbatch
        refine Or.inr (List.mem_flatMap.mpr ⟨b, hb, List.mem_flatMap.mpr ⟨e, hmem, ?_⟩⟩)
        exact List.mem_map_of_mem (Option.mem_toList.mpr ht')
    refine ⟨hclock.trans_le (hadv clk rfl), ?_, fun e he _ => hold.rearm hrange e he trivial⟩
    rintro b' ⟨⟩

/-- Every time that is set was computed by `howMuchTimeFromNow`. -/
lemma Effect.settime (heff : Effect s act s' out) {ts : Timespec} (h : .settime ts ∈ out) :
    ∃ w clk, ts = howMuchTimeFromNow w clk := by
  have hadded : ∀ (q : TimerQueue) (p : Ptr) (t : Timer) (clk : Timestamp),
      TimerEvent.settime ts ∈ (q.added p t clk).2.map .settime →
        ∃ w clk, ts = howMuchTimeFromNow w clk := by
    intro q p t clk hmem
    unfold TimerQueue.added at hmem
    split at hmem
    · exact ⟨t.expiration, clk, by simpa [resetTimerfd] using hmem⟩
    · simp at hmem
  cases heff with
  | add hp hr =>
    subst hr
    rcases List.mem_cons.mp h with h | h
    · cases h
    · exact hadded _ _ _ _ h
  | runAdd hbatch htasks ht hr =>
    subst hr
    exact hadded _ _ _ _ h
  | @finish b q clk hbatch hrest hq =>
    unfold TimerQueue.rearm at h
    split at h
    · simp at h
    · next e _ =>
      split at h
      · exact ⟨e.time, clk, by simpa [resetTimerfd] using h⟩
      · simp at h
  | _ => simp at h

/-- The clock advances and no expiration overflows. -/
def Measured (s : TimerLoop) (act : TimerAct) : Prop := s.Advancing act ∧ s.NoOverflow act

instance (s : TimerLoop) (act : TimerAct) : Decidable (s.Measured act) :=
  inferInstanceAs (Decidable (_ ∧ _))

/-- Along every run with an advancing, positive clock in which no expiration overflows: outside a
batch, if there are timers, the alarm is pending and goes off no later than the earliest expiration
or 100 microseconds after it was last armed; and every time ever set is well formed and not zero. -/
theorem alarm_covers_earliest {clk : Timestamp} {t : List TimerEvent} (hclk : 0 < clk)
    (h : (timerMachine.restrict Measured).Run (TimerLoop.new clk) t s) :
    (s.batch = none → ∀ e, s.queue.timers.first = some e → s.queue.timerfd.Covers e.time) ∧
      ∀ ts, .settime ts ∈ t → 0 ≤ ts.tv_nsec ∧ ts.tv_nsec < 10 ^ 9 ∧
        ¬ (ts.tv_sec = 0 ∧ ts.tv_nsec = 0) := by
  have hall : LoopInv s ∧ AlarmInv s ∧
      ∀ ts, .settime ts ∈ t → ∃ w clk, ts = howMuchTimeFromNow w clk := by
    refine h.invariant (fun t s => LoopInv s ∧ AlarmInv s ∧
      ∀ ts, .settime ts ∈ t → ∃ w clk, ts = howMuchTimeFromNow w clk) ⟨LoopInv.new clk, ?_, ?_⟩ ?_
    · refine ⟨hclk, ?_, ?_⟩
      · rintro b ⟨⟩
      · intro e he
        exact absurd he OrdSet.not_mem_empty
    · intro ts hmem
      cases hmem
    · rintro t s act s' out ⟨hinv, halarm, hset⟩ ⟨hpre, hadv, hno⟩ hstep
      obtain ⟨heff, hinv'⟩ := effect_of_step hinv hpre hstep
      refine ⟨hinv', halarm.effect hinv hadv hno heff, fun ts hmem => ?_⟩
      rcases List.mem_append.mp hmem with hmem | hmem
      · exact hset ts hmem
      · exact heff.settime hmem
  obtain ⟨-, halarm, hset⟩ := hall
  refine ⟨fun hbatch e he => halarm.covers e (OrdSet.mem_of_first he) (Or.inl hbatch), ?_⟩
  intro ts hmem
  obtain ⟨w, clk', rfl⟩ := hset ts hmem
  obtain ⟨hnonneg, hlt, -⟩ := howMuchTimeFromNow_spec w clk'
  exact ⟨hnonneg, hlt, howMuchTimeFromNow_ne_zero w clk'⟩

/-- A callback adds a timer with a negative expiration and one for later; `reset` then leaves the
alarm alone, which is pending already. -/
theorem alarm_covers_earliest_negative :
    ∃ t s, (timerMachine.restrict Measured).Run (TimerLoop.new 1) t s ∧
      s.queue.timers.first = some ⟨-5, 2⟩ ∧ s.queue.timerfd.Covers (-5) := by
  obtain ⟨t, s, hrun, hbatch, hfirst⟩ :=
    (timerMachine.restrict Measured).exists_run_of_exec (TimerLoop.new 1)
      [.addTimer 1 300 ⟨true, some 40⟩ 1, .handleRead 310, .runCallback,
        .addTimer 2 (-5) ⟨false, some 0⟩ 311, .addTimer 3 900 ⟨false, some 0⟩ 312,
        .finish 313]
      (fun s _ => s.batch = none ∧ s.queue.timers.first = some ⟨-5, 2⟩) (by decide +kernel)
  exact ⟨t, s, hrun, hfirst, (alarm_covers_earliest (by decide) hrun).1 hbatch _ hfirst⟩

end TimerLoop

end MuduoServer
