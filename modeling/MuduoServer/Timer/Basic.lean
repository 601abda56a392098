import MuduoServer.Lib.Machine
import MuduoServer.Lib.MachineInt
import MuduoServer.Lib.OrdSet

/-!
# Timers and the timer queue

The classes `Timestamp`, `Timer`, `TimerId` and `TimerQueue` of `base/time` and `net/timer`.  Timers
are heap objects named by address; `heap` holds those not yet freed, so that a use of a freed timer
shows as `none`, like a failed `assert`.  `timers_` and `activeTimers_` are the two ordered sets of
the source, and `timerfd_` is one relative one-shot alarm.

Calls of `Timestamp::now()` take their reading from the caller.  Time is counted in microseconds
and the alarm in nanoseconds, on one clock.  An `interval_` is represented by what the code reads
off it: its sign test, and the whole part of the number of microseconds.  `addTime` converts that
number to `int64_t` and adds, `howMuchTimeFromNow` subtracts, and all three can leave the range of
the type.
-/

namespace MuduoServer

/-! ### Time stamps and timers -/

/-- `Timestamp`: microseconds since the epoch. -/
abbrev Timestamp := ℤ

/-- `Timestamp::invalid()`, which is also the default constructor. -/
def Timestamp.invalid : Timestamp := 0

/-- `Timestamp::valid()`. -/
def Timestamp.valid (t : Timestamp) : Prop := 0 < t

instance (t : Timestamp) : Decidable t.valid := inferInstanceAs (Decidable (0 < t))

/-- `Timestamp::kMicroSecondsPerSecond`. -/
def kMicroSecondsPerSecond : ℤ := 1000 * 1000

/-- `int64_t`, which holds the microseconds. -/
def int64 : IntType := ⟨64, true⟩

/-- What the code reads off the `double interval_`. -/
structure Interval where
  /-- `interval > 0.0`. -/
  positive : Bool
  /-- The whole part of `interval * kMicroSecondsPerSecond` without its sign; an infinity and a NaN
  have none. -/
  magnitude : Option ℕ
  deriving DecidableEq

/-- The interval in whole microseconds. -/
def Interval.micros (i : Interval) : Option ℤ :=
  i.magnitude.map fun n : ℕ => if i.positive then (n : ℤ) else -n

/-- `addTime(timestamp, interval)`: a conversion to `int64_t` and an addition there. -/
def addTime (t : Timestamp) (interval : Interval) : Timestamp :=
  int64.wrap (t + int64.truncate interval.micros)

/-- Neither the conversion nor the addition of `addTime` leaves the range of `int64_t`. -/
def Interval.Fits (i : Interval) (t : Timestamp) : Prop :=
  ∃ D ∈ i.micros, int64.InRange D ∧ int64.InRange (t + D)

instance (i : Interval) (t : Timestamp) : Decidable (i.Fits t) :=
  inferInstanceAs (Decidable (∃ D ∈ i.micros, _))

/-- The whole microseconds of a positive interval are not negative. -/
lemma Interval.micros_nonneg {i : Interval} (h : i.positive = true) {D : ℤ} (hD : D ∈ i.micros) :
    0 ≤ D := by
  obtain ⟨n, -, rfl⟩ := Option.map_eq_some_iff.mp hD
  rw [if_pos h]
  exact Int.natCast_nonneg n

/-- Within the range `addTime` adds the whole microseconds. -/
lemma Interval.Fits.addTime_eq {i : Interval} {t : Timestamp} (h : i.Fits t) :
    ∃ D ∈ i.micros, addTime t i = t + D := by
  obtain ⟨D, hD, hrange, hsum⟩ := h
  refine ⟨D, hD, ?_⟩
  rw [addTime, Option.mem_def.mp hD, IntType.truncate, if_pos hrange]
  exact IntType.wrap_of_inRange (by decide) rfl hsum

/-- From a moment that is not negative, `addTime` adds the whole microseconds of a positive interval
only within the range. -/
lemma Interval.fits_of_addTime_eq {i : Interval} {t : Timestamp} (ht : 0 ≤ t)
    (hpositive : i.positive = true) {D : ℤ} (hD : D ∈ i.micros) (h : addTime t i = t + D) :
    i.Fits t := by
  have hnonneg := Interval.micros_nonneg hpositive hD
  have hbound : t + D < int64.bound := by
    rw [← h]
    exact IntType.wrap_lt_bound (by decide) rfl _
  have hmin : int64.minimum ≤ 0 := by decide
  exact ⟨D, hD, ⟨hmin.trans hnonneg, (le_add_of_nonneg_left ht).trans_lt hbound⟩,
    hmin.trans (add_nonneg ht hnonneg), hbound⟩

/-- An address of a `Timer`. -/
abbrev Ptr := ℕ

/-- `UINTPTR_MAX`. -/
def uintptrMax : ℕ := 2 ^ 64 - 1

/-- The data members of `Timer` that the queue reads. -/
structure Timer where
  expiration : Timestamp
  interval : Interval
  sequence : ℕ
  deriving DecidableEq

/-- `Timer::repeated()`; `repeat_` is set to `interval > 0.0` by the constructor. -/
def Timer.repeated (t : Timer) : Bool := t.interval.positive

/-- `Timer::restart(now)`. -/
def Timer.restart (t : Timer) (now : Timestamp) : Timer :=
  if t.repeated then { t with expiration := addTime now t.interval }
  else { t with expiration := .invalid }

/-- `TimerId`, and the pair `ActiveTimer` made from it. -/
@[ext] structure TimerId where
  timer : Ptr
  sequence : ℕ
  deriving DecidableEq, Repr

/-- `Entry`: a pair of expiration and address. -/
@[ext] structure Entry where
  time : Timestamp
  timer : Ptr
  deriving DecidableEq, Repr

/-- Pairs are compared lexicographically, time first. -/
instance : LinearOrder Entry :=
  LinearOrder.lift' (fun e => toLex (e.time, e.timer)) fun a b h => by
    have := toLex_inj.mp h
    rw [Prod.mk.injEq] at this
    exact Entry.ext this.1 this.2

/-- Pairs are compared lexicographically, address first. -/
instance : LinearOrder TimerId :=
  LinearOrder.lift' (fun e => toLex (e.timer, e.sequence)) fun a b h => by
    have := toLex_inj.mp h
    rw [Prod.mk.injEq] at this
    exact TimerId.ext this.1 this.2

/-- Entries are ordered by the expiration, and by the address where these are equal. -/
lemma Entry.lt_iff {a b : Entry} :
    a < b ↔ a.time < b.time ∨ a.time = b.time ∧ a.timer < b.timer :=
  Prod.Lex.toLex_lt_toLex

/-- The expiration does not decrease along the order. -/
lemma Entry.time_le_of_le {a b : Entry} (h : a ≤ b) : a.time ≤ b.time := by
  rcases Prod.Lex.toLex_le_toLex.mp h with h | h
  · exact h.le
  · exact h.1.le

/-! ### The alarm -/

/-- `struct timespec`. -/
structure Timespec where
  tv_sec : ℤ
  tv_nsec : ℤ
  deriving DecidableEq, Repr

/-- `timerfd_`: the time in nanoseconds at which the alarm goes off or went off, until it is read,
and the last moment at which it was armed. -/
structure Timerfd where
  deadline : Option ℤ
  lastArming : Timestamp
  deriving DecidableEq, Repr

/-- `howMuchTimeFromNow(when)` at the clock reading `clk`. -/
def howMuchTimeFromNow (when_ clk : Timestamp) : Timespec :=
  let microseconds := int64.wrap (when_ - clk)
  let microseconds := if microseconds < 100 then 100 else microseconds
  { tv_sec := microseconds.tdiv kMicroSecondsPerSecond
    tv_nsec := microseconds.tmod kMicroSecondsPerSecond * 1000 }

/-- `timerfd_settime` with a relative time, at the moment `clk`; a zero time disarms the alarm. -/
def Timerfd.settime (ts : Timespec) (clk : Timestamp) : Timerfd where
  deadline :=
    if ts.tv_sec = 0 ∧ ts.tv_nsec = 0 then none
    else some (clk * 1000 + ts.tv_sec * 1000000000 + ts.tv_nsec)
  lastArming := clk

/-- `read` of the descriptor at the moment `clk`: an alarm that has gone off is used up. -/
def Timerfd.read (fd : Timerfd) (clk : Timestamp) : Timerfd :=
  match fd.deadline with
  | none => fd
  | some d => if d ≤ clk * 1000 then { fd with deadline := none } else fd

/-! ### The queue -/

/-- The data members of `TimerQueue`, the live `Timer` objects, and `Timer::s_numCreated_`. -/
structure TimerQueue where
  heap : Ptr → Option Timer
  numCreated : ℕ
  timers : OrdSet Entry
  activeTimers : OrdSet TimerId
  cancelingTimers : OrdSet TimerId
  callingExpiredTimers : Bool
  timerfd : Timerfd

namespace TimerQueue

/-- The constructor. -/
def new : TimerQueue where
  heap _ := none
  numCreated := 0
  timers := .empty
  activeTimers := .empty
  cancelingTimers := .empty
  callingExpiredTimers := false
  timerfd := { deadline := none, lastArming := 0 }

/-- The store of one `Timer` object: `new` and `restart` write one, `delete` removes it. -/
def setHeap (q : TimerQueue) (p : Ptr) (t : Option Timer) : TimerQueue :=
  { q with heap := Function.update q.heap p t }

/-- What has been stored at an address is there. -/
@[simp] lemma setHeap_self (q : TimerQueue) (p : Ptr) (t : Option Timer) :
    (q.setHeap p t).heap p = t := Function.update_self _ _ _

/-- The other addresses stay as they are. -/
lemma setHeap_of_ne (q : TimerQueue) {p p' : Ptr} (t : Option Timer) (h : p' ≠ p) :
    (q.setHeap p t).heap p' = q.heap p' := Function.update_of_ne h _ _

/-- `assert(timers_.size() == activeTimers_.size())`. -/
def checkSizes (q : TimerQueue) : Option Unit :=
  if q.timers.size = q.activeTimers.size then some () else none

/-- `new Timer(cb, when, interval)` at the address `p`. -/
def newTimer (q : TimerQueue) (p : Ptr) (when_ : Timestamp) (interval : Interval) : TimerQueue :=
  { q.setHeap p (some { expiration := when_, interval := interval, sequence := q.numCreated }) with
    numCreated := q.numCreated + 1 }

/-- `insert(timer)`: the new queue, and whether the earliest expiration changed. -/
def insert (q : TimerQueue) (p : Ptr) : Option (TimerQueue × Bool) := do
  q.checkSizes
  let t ← q.heap p
  let earliestChanged := match q.timers.first with
    | none => true
    | some e => decide (t.expiration < e.time)
  let result := q.timers.insert ⟨t.expiration, p⟩
  if result.2 then
    let result' := q.activeTimers.insert ⟨p, t.sequence⟩
    if result'.2 then
      let q' : TimerQueue := { q with timers := result.1, activeTimers := result'.1 }
      q'.checkSizes
      some (q', earliestChanged)
    else none
  else none

/-- `resetTimerfd(timerfd_, expiration)` at the moment `clk`, and the time it sets. -/
def resetTimerfd (q : TimerQueue) (expiration clk : Timestamp) : TimerQueue × List Timespec :=
  let ts := howMuchTimeFromNow expiration clk
  ({ q with timerfd := .settime ts clk }, [ts])

/-- `addTimerInLoop(timer)`, and the times set on the alarm. -/
def addTimerInLoop (q : TimerQueue) (p : Ptr) (clk : Timestamp) :
    Option (TimerQueue × List Timespec) := do
  let r ← q.insert p
  if r.2 then
    let t ← r.1.heap p
    some (r.1.resetTimerfd t.expiration clk)
  else some (r.1, [])

/-- `cancelInLoop(timerId)`. -/
def cancelInLoop (q : TimerQueue) (id : TimerId) : Option TimerQueue := do
  q.checkSizes
  let q' ←
    if id ∈ q.activeTimers then do
      let t ← q.heap id.timer
      let r := q.timers.erase ⟨t.expiration, id.timer⟩
      if r.2 = 1 then
        some { q.setHeap id.timer none with
          timers := r.1
          activeTimers := (q.activeTimers.erase id).1 }
      else none
    else if q.callingExpiredTimers then
      some { q with cancelingTimers := (q.cancelingTimers.insert id).1 }
    else some q
  q'.checkSizes
  some q'

/-- The loop of `getExpired` over the expired entries. -/
def eraseActive (heap : Ptr → Option Timer) : List Entry → OrdSet TimerId → Option (OrdSet TimerId)
  | [], active => some active
  | e :: es, active => do
    let t ← heap e.timer
    let r := active.erase ⟨e.timer, t.sequence⟩
    if r.2 = 1 then eraseActive heap es r.1 else none

/-- `getExpired(now)`: the new queue and the expired entries. -/
def getExpired (q : TimerQueue) (now : Timestamp) : Option (TimerQueue × List Entry) := do
  q.checkSizes
  let sentry : Entry := ⟨now, uintptrMax⟩
  let expired := q.timers.below sentry
  let rest := q.timers.above sentry
  if rest.first.all fun e => decide (now < e.time) then
    let active ← eraseActive q.heap expired q.activeTimers
    let q' : TimerQueue := { q with timers := rest, activeTimers := active }
    q'.checkSizes
    some (q', expired)
  else none

/-- The loop of `reset` over the expired entries. -/
def resetTimers (now : Timestamp) : TimerQueue → List Entry → Option TimerQueue
  | q, [] => some q
  | q, e :: es => do
    let t ← q.heap e.timer
    if t.repeated = true ∧ ⟨e.timer, t.sequence⟩ ∉ q.cancelingTimers then
      let r ← (q.setHeap e.timer (some (t.restart now))).insert e.timer
      resetTimers now r.1 es
    else resetTimers now (q.setHeap e.timer none) es

/-- `reset(expired, now)`, and the times set on the alarm at the moment `clk`. -/
def reset (q : TimerQueue) (expired : List Entry) (now clk : Timestamp) :
    Option (TimerQueue × List Timespec) := do
  let q' ← resetTimers now q expired
  let nextExpire ← match q'.timers.first with
    | none => some Timestamp.invalid
    | some e => (q'.heap e.timer).map Timer.expiration
  if nextExpire.valid then some (q'.resetTimerfd nextExpire clk) else some (q', [])

/-- The first half of `handleRead`, up to the loop over the callbacks. -/
def beginHandleRead (q : TimerQueue) (now : Timestamp) : Option (TimerQueue × List Entry) := do
  let r ← { q with timerfd := q.timerfd.read now }.getExpired now
  some ({ r.1 with callingExpiredTimers := true, cancelingTimers := .empty }, r.2)

/-- The second half of `handleRead`, after the loop over the callbacks. -/
def endHandleRead (q : TimerQueue) (expired : List Entry) (now clk : Timestamp) :
    Option (TimerQueue × List Timespec) :=
  { q with callingExpiredTimers := false }.reset expired now clk

end TimerQueue

end MuduoServer
