import MuduoServer.Tcp.SendLength

/-!
# The backlog and what depends on it

`outputBuffer_` holds what the kernel has not taken yet.  Three things depend on it: the channel
monitors `EPOLLOUT` exactly while there is a backlog, `writeCompleteCallback_` is queued when
everything handed to `sendInLoop` has been taken, and `highWaterMarkCallback_` is queued when the
backlog reaches the mark.  `sendInLoop` and `handleWrite` alone change any of this; all other
functions are `Calm`.
-/

namespace MuduoServer

namespace Channel

variable {p p' : EPollPoller} {c c' : Channel}

/-- Whatever `updateChannel` does, it leaves `events_` as they have been set. -/
lemma events_update (h : c.update p = some (p', c')) : c'.events = c.events := by
  rcases EPollPoller.updateChannel_eq_some h with ⟨-, -, -, rfl⟩ | ⟨-, -, -, rfl⟩ |
    ⟨-, -, -, rfl⟩ | ⟨-, -, -, rfl⟩ <;> rfl

/-- `remove()` leaves the events of the channel as they are. -/
lemma events_remove {d : LoopDispatch} (h : c.remove d p = some (p', c')) :
    c'.events = c.events := by
  obtain ⟨-, -, h⟩ := remove_eq_some h
  obtain ⟨-, rfl, -⟩ := EPollPoller.removeChannel_eq_some h
  rfl

/-- `isWriting()` looks at `EPOLLOUT`. -/
lemma isWriting_iff : c.isWriting ↔ .EPOLLOUT ∈ c.events := by
  simp [isWriting, kWriteEvent, kNoneEvent, Finset.eq_empty_iff_forall_notMem]

/-- After `enableWriting()` the channel writes. -/
lemma isWriting_enableWriting (h : c.enableWriting p = some (p', c')) : c'.isWriting := by
  rw [isWriting_iff, events_update h]
  simp [kWriteEvent]

/-- After `disableWriting()` it does not. -/
lemma not_isWriting_disableWriting (h : c.disableWriting p = some (p', c')) :
    ¬ c'.isWriting := by
  rw [isWriting_iff, events_update h]
  simp [kWriteEvent]

/-- Reading has nothing to do with it. -/
lemma isWriting_enableReading (h : c.enableReading p = some (p', c')) :
    c'.isWriting ↔ c.isWriting := by
  rw [isWriting_iff, isWriting_iff, events_update h]
  simp [kReadEvent]

end Channel

/-- The task is one of the two notifications. -/
def ConnTask.Notifies {τ : Type} : ConnTask τ → Prop
  | .writeCompleteCallback => True
  | .highWaterMarkCallback _ => True
  | _ => False

/-- The `write` has taken all of `len` bytes. -/
def WriteResult.TakesAll (len : ℕ) : WriteResult → Prop
  | .ok n => len ≤ n
  | .error _ => False

instance (len : ℕ) (w : WriteResult) : Decidable (w.TakesAll len) := by
  apply WriteResult.casesOn (motive := fun w => Decidable (w.TakesAll len)) w <;>
    intros <;> unfold WriteResult.TakesAll <;> infer_instance

namespace ConnLoop

variable {τ : Type} {s s' : ConnLoop τ} {out : List (ConnEvent τ)}

/-- What a function does that leaves the backlog alone: the write interest stays as it is unless the
connection goes down, and no notification is queued. -/
structure Calm (s s' : ConnLoop τ) : Prop where
  writing : s'.conn.state ≠ .KDisconnected →
    (s'.conn.channel.isWriting ↔ s.conn.channel.isWriting)
  tasks : ∃ added, s'.tasks = s.tasks ++ added ∧ ∀ task ∈ added, ¬ task.Notifies
  highWaterMark : s'.conn.highWaterMark = s.conn.highWaterMark
  writeCompleteCallback : s'.conn.writeCompleteCallback = s.conn.writeCompleteCallback
  highWaterMarkCallback : s'.conn.highWaterMarkCallback = s.conn.highWaterMarkCallback

namespace Calm

/-- To do nothing is calm. -/
lemma refl (s : ConnLoop τ) : Calm s s :=
  ⟨fun _ => Iff.rfl, ⟨[], by simp, by simp⟩, rfl, rfl, rfl⟩

/-- Queueing another task. -/
lemma queueInLoop (s : ConnLoop τ) {task : ConnTask τ} (h : ¬ task.Notifies) :
    Calm s (s.queueInLoop task) :=
  ⟨fun _ => Iff.rfl, ⟨[task], rfl, by simpa using h⟩, rfl, rfl, rfl⟩

/-- `handleClose()` withdraws the interest only as the connection goes down. -/
lemma handleClose {k : Option Phase} (h : s.handleClose k = some (s', out)) : Calm s s' := by
  obtain ⟨-, r, -, rfl, -⟩ := handleClose_eq_some h
  exact ⟨fun hup => absurd rfl hup, ⟨[], by simp, by simp⟩, rfl, rfl, rfl⟩

/-- So does `forceCloseInLoop()`. -/
lemma forceCloseInLoop {k : Option Phase} (h : s.forceCloseInLoop k = some (s', out)) :
    Calm s s' := by
  rcases forceCloseInLoop_eq_some h with hclose | ⟨-, rfl, -⟩
  · exact handleClose hclose
  · exact ⟨fun _ => Iff.rfl, ⟨[], by simp, by simp⟩, rfl, rfl, rfl⟩

/-- `forceClose()` leaves the backlog and the interest alone. -/
lemma forceClose (h : s.forceClose = (s', out)) : Calm s s' := by
  rcases forceClose_eq h with ⟨-, rfl, -⟩ | ⟨-, rfl, -⟩
  · exact ⟨fun _ => Iff.rfl, ⟨[.forceCloseInLoop], rfl, by simp [ConnTask.Notifies]⟩, rfl, rfl,
      rfl⟩
  · exact refl _

/-- `connectEstablished()` only adds the interest in reading. -/
lemma connectEstablished (h : s.connectEstablished = some (s', out)) : Calm s s' := by
  obtain ⟨-, r, hr, rfl, -⟩ := connectEstablished_eq_some h
  have hwriting := Channel.isWriting_enableReading hr
  exact ⟨fun _ => hwriting, ⟨[], by simp, by simp⟩, rfl, rfl, rfl⟩

/-- `connectDestroyed()` withdraws the interest only as the connection goes down. -/
lemma connectDestroyed (h : s.connectDestroyed = some (s', out)) : Calm s s' := by
  obtain ⟨s₁, r, hs₁, hr, rfl⟩ := connectDestroyed_eq_some h
  have hfirst : Calm s s₁ := by
    rcases takeDown_eq_some hs₁ with ⟨-, r', -, rfl, -⟩ | ⟨-, rfl, -⟩
    · exact ⟨fun hup => absurd rfl hup, ⟨[], by simp, by simp⟩, rfl, rfl, rfl⟩
    · exact refl _
  refine ⟨fun hup => ?_, hfirst.tasks, hfirst.highWaterMark, hfirst.writeCompleteCallback,
    hfirst.highWaterMarkCallback⟩
  rw [← hfirst.writing hup, Channel.isWriting_iff, Channel.isWriting_iff, Channel.events_remove hr]

/-- What the server does leaves the backlog and the interest alone. -/
lemma removeConnectionInLoop (h : s.removeConnectionInLoop = some s') : Calm s s' := by
  obtain ⟨-, rfl⟩ := removeConnectionInLoop_eq_some h
  exact ⟨fun _ => Iff.rfl, ⟨[.connectDestroyed], rfl, by simp [ConnTask.Notifies]⟩, rfl, rfl, rfl⟩

/-- The close callback of each owner is calm. -/
lemma closeCallback (h : s.closeCallback = some (s', out)) : Calm s s' := by
  rcases closeCallback_eq_some h with ⟨-, hremove, -⟩ | ⟨-, rfl, -⟩ | ⟨-, hdestroy⟩
  · exact removeConnectionInLoop hremove
  · exact ⟨fun _ => Iff.rfl, ⟨[], by simp, by simp⟩, rfl, rfl, rfl⟩
  · obtain ⟨hwriting, htasks, hmark, hcomplete, hhigh⟩ := connectDestroyed hdestroy
    exact ⟨hwriting, htasks, hmark, hcomplete, hhigh⟩

/-- `handleRead()` is calm, for it changes the `inputBuffer_` or closes. -/
lemma handleRead {r : ReadResult} (h : s.handleRead r = some (s', out)) : Calm s s' := by
  obtain ⟨r', -, ⟨rfl, -⟩ | ⟨-, hclose⟩ | ⟨rfl, -⟩⟩ := handleRead_eq_some h
  · exact ⟨fun _ => Iff.rfl, ⟨[], by simp, by simp⟩, rfl, rfl, rfl⟩
  · obtain ⟨hwriting, htasks, hmark, hcomplete, hhigh⟩ := handleClose hclose
    exact ⟨hwriting, htasks, hmark, hcomplete, hhigh⟩
  · exact ⟨fun _ => Iff.rfl, ⟨[], by simp, by simp⟩, rfl, rfl, rfl⟩

/-- What follows a callback of the user is calm. -/
lemma callbackReturns (h : s.callbackReturns = some (s', out)) : Calm s s' := by
  rcases callbackReturns_eq_some h with
    ⟨-, rfl, -⟩ | ⟨-, rfl, -⟩ | ⟨k, out', -, hclose, -⟩ | ⟨-, rfl, -⟩
  · exact ⟨fun _ => Iff.rfl, ⟨[], by simp, by simp⟩, rfl, rfl, rfl⟩
  · exact ⟨fun _ => Iff.rfl, ⟨[], by simp, by simp⟩, rfl, rfl, rfl⟩
  · obtain ⟨hwriting, htasks, hmark, hcomplete, hhigh⟩ := closeCallback hclose
    exact ⟨hwriting, htasks, hmark, hcomplete, hhigh⟩
  · exact refl _

end Calm

/-! ### The two functions that change the backlog -/

/-- The number of bytes in `outputBuffer_`. -/
def backlogBytes (s : ConnLoop τ) : ℕ := s.conn.outputBuffer.readableBytes

/-- The write interest is the one the backlog asks for. -/
def InterestTracks (s : ConnLoop τ) : Prop := s.conn.channel.isWriting ↔ 0 < s.backlogBytes

/-- The members that neither function changes. -/
structure SameSettings (s s' : ConnLoop τ) : Prop where
  state : s'.conn.state = s.conn.state
  highWaterMark : s'.conn.highWaterMark = s.conn.highWaterMark
  writeCompleteCallback : s'.conn.writeCompleteCallback = s.conn.writeCompleteCallback
  highWaterMarkCallback : s'.conn.highWaterMarkCallback = s.conn.highWaterMarkCallback

/-- `highWaterMarkCallback_` with the new backlog, if it has come up to the mark. -/
def highWaterTasks (s s' : ConnLoop τ) : List (ConnTask τ) :=
  if s.backlogBytes < s.conn.highWaterMark ∧ s.conn.highWaterMark ≤ s'.backlogBytes ∧
      s.conn.highWaterMarkCallback then
    [.highWaterMarkCallback s'.backlogBytes]
  else []

/-- A backlog that has not changed does not come up to the mark. -/
lemma highWaterTasks_eq_nil (h : s'.backlogBytes ≤ s.backlogBytes) : highWaterTasks s s' = [] := by
  unfold highWaterTasks
  rw [if_neg]
  omega

/-- What the second half of `sendInLoop` does to the backlog. -/
structure Extended (s : ConnLoop τ) (data : List UInt8) (s' : ConnLoop τ) : Prop where
  settings : SameSettings s s'
  valid : s'.conn.outputBuffer.Valid
  backlog : s'.backlogBytes = s.backlogBytes + data.length
  writing : s'.conn.channel.isWriting
  tasks : s'.tasks = s.tasks ++ highWaterTasks s s'

/-- The backlog of a message is appended to `outputBuffer_`, and the writing interest is on. -/
lemma backlog_extended {data : List UInt8} (hvalid : s.conn.outputBuffer.Valid)
    (h : s.backlog data = some s') : Extended s data s' := by
  obtain ⟨b, s₁, hb, hs₁, hrest⟩ := backlog_eq_some h
  obtain ⟨b', hb', hvalid', hread⟩ := Buffer.append_spec hvalid data
  rw [hb', Option.some.injEq] at hb
  subst hb
  have hbytes : b'.readableBytes = s.conn.outputBuffer.readableBytes + data.length := by
    rw [← hvalid'.length_readable, hread, List.length_append, hvalid.length_readable]
  have htasks : ∀ s₁ : ConnLoop τ, s₁.conn.outputBuffer = b' →
      (if s.conn.highWaterMark ≤ s.conn.outputBuffer.readableBytes + data.length ∧
          s.conn.outputBuffer.readableBytes < s.conn.highWaterMark ∧
          s.conn.highWaterMarkCallback = true then
        [ConnTask.highWaterMarkCallback (s.conn.outputBuffer.readableBytes + data.length)]
      else []) = highWaterTasks s s₁ := by
    rintro s₁ rfl
    unfold highWaterTasks backlogBytes
    rw [hbytes]
    exact if_congr (by tauto) rfl rfl
  subst hs₁
  rcases hrest with ⟨hwriting, rfl⟩ | ⟨-, r, hr, rfl⟩
  · exact ⟨⟨rfl, rfl, rfl, rfl⟩, hvalid', hbytes, hwriting, congrArg _ (htasks _ rfl)⟩
  · exact ⟨⟨rfl, rfl, rfl, rfl⟩, hvalid', hbytes, Channel.isWriting_enableWriting hr,
      congrArg _ (htasks _ rfl)⟩

/-- `writeCompleteCallback_`, if the direct write takes the whole message. -/
def completeTasks (s : ConnLoop τ) (len : ℕ) (w : WriteResult) : List (ConnTask τ) :=
  if s.writesDirectly ∧ w.TakesAll len ∧ s.conn.writeCompleteCallback then
    [.writeCompleteCallback]
  else []

/-- The first half of `sendInLoop` changes nothing but the queue and what the kernel has taken. -/
lemma direct_backlog (s : ConnLoop τ) (message : List UInt8) (len : ℕ) (w : WriteResult) :
    (s.direct message len w).1.conn = s.conn ∧
      (s.direct message len w).1.tasks = s.tasks ++ completeTasks s len w ∧
      (s.direct message len w).2.nwrote + (s.direct message len w).2.remaining ≤
        max len (s.direct message len w).2.nwrote ∧
      (s.writesDirectly → w.TakesAll len → (s.direct message len w).2.remaining = 0) := by
  unfold direct completeTasks
  by_cases hdirect : s.writesDirectly
  · cases w with
    | ok n =>
      have hall : len - n = 0 ↔ len ≤ n := Nat.sub_eq_zero_iff_le
      simp only [hdirect, true_and, if_true, ite_queueInLoop, hall, WriteResult.TakesAll]
      omega
    | error errno => simp [hdirect, WriteResult.TakesAll]
  · simp [hdirect]

/-- What `sendInLoop` does to the backlog of a connection that is not down. -/
structure Sends (s : ConnLoop τ) (len : ℕ) (w : WriteResult) (s' : ConnLoop τ) : Prop where
  settings : SameSettings s s'
  valid : s'.conn.outputBuffer.Valid
  tracks : s.InterestTracks → s'.InterestTracks
  /-- A message that is taken whole adds nothing to the backlog. -/
  whole : s.writesDirectly → w.TakesAll len → s'.backlogBytes = s.backlogBytes
  tasks : s'.tasks = s.tasks ++ completeTasks s len w ++ highWaterTasks s s'

/-- What `sendInLoop` does to a connection that is not down. -/
theorem sendInLoop_sends {message : List UInt8} {len : ℕ} {w : WriteResult}
    (hvalid : s.conn.outputBuffer.Valid) (hup : s.conn.state ≠ .KDisconnected)
    (h : s.sendInLoop message len w = some s') : Sends s len w s' := by
  obtain ⟨hlen, ⟨hdown, -⟩ | ⟨-, r, hr, -, hrest⟩⟩ := sendInLoop_eq_some h
  · exact absurd hdown hup
  obtain ⟨hconn, htasks, hsum, hwhole⟩ := direct_backlog s message len w
  rw [hr] at hconn htasks hsum hwhole
  have hsame : r.1.backlogBytes = s.backlogBytes := by rw [backlogBytes, hconn, backlogBytes]
  rcases hrest with ⟨-, hremaining, hbacklog⟩ | ⟨-, rfl⟩
  · -- what is left is a part of the message, and not empty
    have hdata : ((message.drop r.2.nwrote).take r.2.remaining).length = r.2.remaining := by
      rw [List.length_take, List.length_drop]
      omega
    obtain ⟨hset, hvalid', hbytes, hwriting, hhigh⟩ :=
      backlog_extended (hconn ▸ hvalid) hbacklog
    obtain ⟨hstate, hmark, hcomplete, hhighWater⟩ := hset
    rw [hconn] at hstate hmark hcomplete hhighWater
    refine ⟨⟨hstate, hmark, hcomplete, hhighWater⟩, hvalid', fun _ => ?_, fun hd hall => ?_, ?_⟩
    · have hpos : 0 < s'.backlogBytes := by omega
      exact iff_of_true hwriting hpos
    · exact absurd (hwhole hd hall) hremaining.ne'
    · rw [hhigh, htasks]
      unfold highWaterTasks
      rw [hsame, hconn]
  · refine ⟨?_, hconn ▸ hvalid, fun htracks => ?_, fun _ _ => hsame, ?_⟩
    · exact ⟨by rw [hconn], by rw [hconn], by rw [hconn], by rw [hconn]⟩
    · unfold InterestTracks
      rw [hsame, hconn]
      exact htracks
    · rw [htasks, highWaterTasks_eq_nil hsame.le, List.append_nil]

/-- What `handleWrite` does to the backlog. -/
structure Writes (s s' : ConnLoop τ) : Prop where
  valid : s'.conn.outputBuffer.Valid
  backlog : s'.backlogBytes ≤ s.backlogBytes
  tracks : s'.conn.state ≠ .KDisconnected → s.InterestTracks → s'.InterestTracks
  tasks : s'.tasks = s.tasks ++
    if 0 < s.backlogBytes ∧ s'.backlogBytes = 0 ∧ s.conn.writeCompleteCallback then
      [.writeCompleteCallback]
    else []
  down : s.conn.state = .KDisconnected → s'.conn.state = .KDisconnected
  highWaterMark : s'.conn.highWaterMark = s.conn.highWaterMark
  writeCompleteCallback : s'.conn.writeCompleteCallback = s.conn.writeCompleteCallback
  highWaterMarkCallback : s'.conn.highWaterMarkCallback = s.conn.highWaterMarkCallback

/-- A write that takes nothing. -/
lemma Writes.refl_phase (hvalid : s.conn.outputBuffer.Valid) :
    Writes s { s with pc := .phase .done } := by
  refine ⟨hvalid, le_rfl, fun _ => id, ?_, id, rfl, rfl, rfl⟩
  rw [if_neg, List.append_nil]
  rintro ⟨hpos, hzero, -⟩
  exact absurd hzero hpos.ne'

/-- `forceCloseInLoop` queues nothing itself, and leaves the channel of a connection alone that it
does not take down. -/
lemma forceCloseInLoop_keeps {k : Option Phase} (h : s.forceCloseInLoop k = some (s', out)) :
    (s'.conn.state ≠ .KDisconnected → s'.conn.channel = s.conn.channel) ∧ s'.tasks = s.tasks := by
  rcases forceCloseInLoop_eq_some h with hclose | ⟨-, rfl, -⟩
  · obtain ⟨-, r, -, rfl, -⟩ := handleClose_eq_some hclose
    exact ⟨fun hup => absurd rfl hup, rfl⟩
  · exact ⟨fun _ => rfl, rfl⟩

/-- The end of `handleWrite` when the backlog has been emptied. -/
structure Completed (s s' : ConnLoop τ) : Prop where
  outputBuffer : s'.conn.outputBuffer = s.conn.outputBuffer
  writing : s'.conn.state ≠ .KDisconnected → ¬ s'.conn.channel.isWriting
  tasks : s'.tasks = s.tasks ++
    if s.conn.writeCompleteCallback then [.writeCompleteCallback] else []
  highWaterMark : s'.conn.highWaterMark = s.conn.highWaterMark
  writeCompleteCallback : s'.conn.writeCompleteCallback = s.conn.writeCompleteCallback
  highWaterMarkCallback : s'.conn.highWaterMarkCallback = s.conn.highWaterMarkCallback

/-- What follows when the last byte of the backlog has been written. -/
lemma writeComplete_completed (h : s.writeComplete = some (s', out)) : Completed s s' := by
  obtain ⟨r, s₁, hr, rfl, hrest⟩ := writeComplete_eq_some h
  have hwriting := Channel.not_isWriting_disableWriting hr
  rcases hrest with ⟨-, hclose⟩ | ⟨-, rfl, -⟩
  · obtain ⟨hchannel, htasks⟩ := forceCloseInLoop_keeps hclose
    have hcalm := Calm.forceCloseInLoop hclose
    have hframe := Frame.forceCloseInLoop hclose
    refine ⟨hframe.outputBuffer, fun hup => ?_, htasks, hcalm.highWaterMark,
      hcalm.writeCompleteCallback, hcalm.highWaterMarkCallback⟩
    rw [hchannel hup]
    exact hwriting
  · exact ⟨rfl, fun _ => hwriting, rfl, rfl, rfl, rfl⟩

/-- What `handleWrite` does, if the kernel takes no more than it has been given. -/
theorem handleWrite_writes {w : WriteResult} (hvalid : s.conn.outputBuffer.Valid)
    (hw : w.Within s.backlogBytes) (h : s.handleWrite w = some (s', out)) : Writes s s' := by
  have hdown := (handleWrite_drained hvalid hw h).down
  rcases handleWrite_eq_some h with ⟨n, b, s₁, hwriting, rfl, hpos, hb, rfl, hrest⟩ | ⟨rfl, -⟩
  · have hn : n ≤ s.conn.outputBuffer.readableBytes := hw
    obtain ⟨b', hb', hvalid', hread⟩ := Buffer.retrieve_spec hvalid hn
    rw [hb', Option.some.injEq] at hb
    subst hb
    have hbytes : b'.readableBytes = s.backlogBytes - n := by
      rw [← hvalid'.length_readable, hread, List.length_drop, hvalid.length_readable, backlogBytes]
    have hold : 0 < s.backlogBytes := lt_of_lt_of_le hpos hn
    rcases hrest with ⟨hzero, hcompleted⟩ | ⟨hrest, rfl, -⟩
    · obtain ⟨hbuffer, hoff, htasks, hmark, hcomplete, hhigh⟩ := writeComplete_completed hcompleted
      have hbuffer' : s'.conn.outputBuffer = b' := hbuffer
      have hempty : s'.backlogBytes = 0 := by rw [backlogBytes, hbuffer', hzero]
      refine ⟨hbuffer' ▸ hvalid', by omega, fun hup _ => ?_, ?_, hdown, hmark, hcomplete, hhigh⟩
      · exact iff_of_false (hoff hup) (by omega)
      · rw [htasks]
        simp only [hold, hempty, true_and]
    · refine ⟨hvalid', ?_, fun _ _ => ?_, ?_, hdown, rfl, rfl, rfl⟩
      · simp only [backlogBytes] at hbytes ⊢
        omega
      · exact iff_of_true hwriting (Nat.pos_of_ne_zero hrest)
      · rw [if_neg, List.append_nil]
        exact fun hempty => hrest hempty.2.1
  · exact .refl_phase hvalid

/-! ### The steps -/

/-- The queue as the step finds it: the loop thread has taken the task that it runs. -/
def tasksLeft (s : ConnLoop τ) : ConnAct τ → List (ConnTask τ)
  | .runTask _ => s.tasks.tail
  | _ => s.tasks

/-- The step runs `sendInLoop(const void*, size_t)` with `len` bytes of the message. -/
def Sending (s : ConnLoop τ) (act : ConnAct τ) (message : List UInt8) (len : ℕ) (w : WriteResult) :
    Prop :=
  (act = .send message w ∧ len = sizeOfInt message.length) ∨
    (act = .runTask w ∧ (∃ poster, s.tasks.head? = some (.sendInLoop poster message)) ∧
      len = sizeOfInt (intOfSize message.length))

/-- A step that leaves the backlog alone. -/
structure Leaves (s : ConnLoop τ) (act : ConnAct τ) (s' : ConnLoop τ) : Prop where
  calm : Calm { s with tasks := s.tasksLeft act } s'
  outputBuffer : s'.conn.outputBuffer = s.conn.outputBuffer
  down : s.conn.state = .KDisconnected → s'.conn.state = .KDisconnected
  notSending : ∀ message len w, ¬ s.Sending act message len w

/-- The steps other than `send` and `runTask` do not send. -/
lemma not_sending {act : ConnAct τ} (hsend : ∀ message w, act ≠ .send message w)
    (htask : ∀ w, act ≠ .runTask w) (message : List UInt8) (len : ℕ) (w : WriteResult) :
    ¬ s.Sending act message len w := by
  rintro (⟨hact, -⟩ | ⟨hact, -⟩)
  · exact hsend message w hact
  · exact htask w hact

/-- A task other than `sendInLoop` does not send. -/
lemma not_sending_runTask {w' : WriteResult} {task : ConnTask τ} {tasks : List (ConnTask τ)}
    (htasks : s.tasks = task :: tasks)
    (hother : ∀ poster message, task ≠ .sendInLoop poster message)
    (message : List UInt8) (len : ℕ) (w : WriteResult) :
    ¬ s.Sending (.runTask w') message len w := by
  rintro (⟨hact, -⟩ | ⟨-, ⟨poster, hhead⟩, -⟩)
  · cases hact
  · rw [htasks, List.head?_cons, Option.some.injEq] at hhead
    exact hother poster message hhead

/-- A step that changes neither the connection's channel nor its backlog nor the queue. -/
lemma Leaves.of_same {act : ConnAct τ} (hsend : ∀ message w, act ≠ .send message w)
    (htask : ∀ w, act ≠ .runTask w) (htasks : s'.tasks = s.tasksLeft act)
    (hevents : s'.conn.channel.events = s.conn.channel.events)
    (hbuffer : s'.conn.outputBuffer = s.conn.outputBuffer)
    (hsettings : SameSettings s s') : Leaves s act s' := by
  obtain ⟨hstate, hmark, hcomplete, hhigh⟩ := hsettings
  refine ⟨⟨fun _ => ?_, ⟨[], by simp [htasks], by simp⟩, hmark, hcomplete, hhigh⟩, hbuffer,
    fun hdown => hstate.trans hdown, not_sending hsend htask⟩
  rw [Channel.isWriting_iff, Channel.isWriting_iff, hevents]

/-- A task. -/
lemma runTask_backlog_cases {w : WriteResult} (hstep : s.runTask w = some (s', out)) :
    (∃ message len w', s.Sending (.runTask w) message len w' ∧
      { s with tasks := s.tasksLeft (.runTask w) }.sendInLoop message len w' = some s') ∨
    Leaves s (.runTask w) s' := by
  unfold ConnLoop.runTask at hstep
  split at hstep
  next hnil =>
    cases hstep
    refine Or.inr ⟨?_, rfl, id, ?_⟩
    · simp only [tasksLeft, hnil, List.tail_nil]
      rw [← hnil]
      exact Calm.refl s
    · rintro message len w' (⟨hact, -⟩ | ⟨-, ⟨poster, hhead⟩, -⟩)
      · cases hact
      · simp [hnil] at hhead
  next task tasks htasks =>
    have hleft : s.tasksLeft (.runTask w) = tasks := by simp [tasksLeft, htasks]
    cases task with
    | sendInLoop poster message =>
      obtain ⟨s₁, hs₁, heq⟩ := Option.map_eq_some_iff.mp hstep
      cases heq
      refine Or.inl ⟨message, _, w, Or.inr ⟨rfl, ⟨poster, by simp [htasks]⟩, rfl⟩, ?_⟩
      rw [hleft]
      exact hs₁
    | connectEstablished =>
      have hframe := Frame.connectEstablished hstep
      exact Or.inr ⟨hleft ▸ Calm.connectEstablished hstep, hframe.outputBuffer, hframe.down,
        not_sending_runTask htasks nofun⟩
    | forceCloseInLoop =>
      have hframe := Frame.forceCloseInLoop hstep
      exact Or.inr ⟨hleft ▸ Calm.forceCloseInLoop hstep, hframe.outputBuffer, hframe.down,
        not_sending_runTask htasks nofun⟩
    | connectDestroyed =>
      have hframe := Frame.connectDestroyed hstep
      exact Or.inr ⟨hleft ▸ Calm.connectDestroyed hstep, hframe.outputBuffer, hframe.down,
        not_sending_runTask htasks nofun⟩
    | writeCompleteCallback =>
      cases hstep
      exact Or.inr ⟨hleft ▸ Calm.refl _, rfl, id, not_sending_runTask htasks nofun⟩
    | highWaterMarkCallback size =>
      cases hstep
      exact Or.inr ⟨hleft ▸ Calm.refl _, rfl, id, not_sending_runTask htasks nofun⟩

/-- Every step runs `sendInLoop`, runs `handleWrite`, or leaves the backlog alone. -/
theorem step_backlog_cases {act : ConnAct τ} (hstep : s.step act = some (s', out)) :
    (∃ message len w, s.Sending act message len w ∧
      { s with tasks := s.tasksLeft act }.sendInLoop message len w = some s') ∨
    (∃ w, act = .testWrite w ∧ s.handleWrite w = some (s', out)) ∨ Leaves s act s' := by
  cases act with
  | postSend caller message =>
    cases hstep
    exact Or.inr (Or.inr ⟨Calm.queueInLoop s id, rfl, id, not_sending (by simp) (by simp)⟩)
  | send message w =>
    obtain ⟨s₁, hs₁, heq⟩ := Option.map_eq_some_iff.mp hstep
    cases heq
    exact Or.inl ⟨message, _, w, Or.inl ⟨rfl, rfl⟩, hs₁⟩
  | forceClose =>
    have hforce := Option.some.inj hstep
    have hframe := Frame.forceClose hforce
    exact Or.inr (Or.inr ⟨Calm.forceClose hforce, hframe.outputBuffer, hframe.down,
      not_sending (by simp) (by simp)⟩)
  | retrieve len =>
    obtain ⟨b, -, heq⟩ := Option.bind_eq_some_iff.mp hstep
    cases heq
    exact Or.inr (Or.inr (.of_same (by simp) (by simp) rfl rfl rfl ⟨rfl, rfl, rfl, rfl⟩))
  | connectEstablished =>
    have hframe := Frame.connectEstablished hstep
    exact Or.inr (Or.inr ⟨Calm.connectEstablished hstep, hframe.outputBuffer, hframe.down,
      not_sending (by simp) (by simp)⟩)
  | runTask w =>
    rcases runTask_backlog_cases hstep with hsend | hleaves
    · exact Or.inl hsend
    · exact Or.inr (Or.inr hleaves)
  | removeConnectionInLoop =>
    obtain ⟨s₁, hs₁, heq⟩ := Option.map_eq_some_iff.mp hstep
    cases heq
    have hframe := Frame.removeConnectionInLoop hs₁
    obtain ⟨hwriting, htasks, hmark, hcomplete, hhigh⟩ := Calm.removeConnectionInLoop hs₁
    exact Or.inr (Or.inr ⟨⟨hwriting, htasks, hmark, hcomplete, hhigh⟩, hframe.outputBuffer,
      hframe.down, not_sending (by simp) (by simp)⟩)
  | testClose =>
    simp only [ConnLoop.step] at hstep
    split at hstep
    · have hframe := Frame.handleClose hstep
      exact Or.inr (Or.inr ⟨Calm.handleClose hstep, hframe.outputBuffer, hframe.down,
        not_sending (by simp) (by simp)⟩)
    · cases hstep
      exact Or.inr (Or.inr (.of_same (by simp) (by simp) rfl rfl rfl ⟨rfl, rfl, rfl, rfl⟩))
  | testRead r =>
    simp only [ConnLoop.step] at hstep
    split at hstep
    · have hframe := Frame.handleRead hstep
      exact Or.inr (Or.inr ⟨Calm.handleRead hstep, hframe.outputBuffer, hframe.down,
        not_sending (by simp) (by simp)⟩)
    · cases hstep
      exact Or.inr (Or.inr (.of_same (by simp) (by simp) rfl rfl rfl ⟨rfl, rfl, rfl, rfl⟩))
  | testWrite w =>
    simp only [ConnLoop.step] at hstep
    split at hstep
    · exact Or.inr (Or.inl ⟨w, rfl, hstep⟩)
    · cases hstep
      exact Or.inr (Or.inr (.of_same (by simp) (by simp) rfl rfl rfl ⟨rfl, rfl, rfl, rfl⟩))
  | callbackReturns =>
    have hframe := Frame.callbackReturns hstep
    exact Or.inr (Or.inr ⟨Calm.callbackReturns hstep, hframe.outputBuffer, hframe.down,
      not_sending (by simp) (by simp)⟩)
  | _ =>
    cases hstep
    exact Or.inr (Or.inr (.of_same (by simp) (by simp) rfl rfl rfl ⟨rfl, rfl, rfl, rfl⟩))

/-! ### Whole runs -/

/-- What is kept along a run that starts in `s₀`. -/
structure BacklogInv (s₀ s : ConnLoop τ) : Prop where
  valid : s.conn.outputBuffer.Valid
  tracks : s.conn.state ≠ .KDisconnected → s.InterestTracks
  highWaterMark : s.conn.highWaterMark = s₀.conn.highWaterMark
  writeCompleteCallback : s.conn.writeCompleteCallback = s₀.conn.writeCompleteCallback
  highWaterMarkCallback : s.conn.highWaterMarkCallback = s₀.conn.highWaterMarkCallback

namespace BacklogInv

variable {s₀ : ConnLoop τ}

/-- A step that leaves the two functions out keeps the invariant. -/
lemma leaves (h : BacklogInv s₀ s) {act : ConnAct τ} (hleaves : Leaves s act s') :
    BacklogInv s₀ s' := by
  obtain ⟨hcalm, hbuffer, hdown, -⟩ := hleaves
  refine ⟨hbuffer ▸ h.valid, fun hup => ?_, hcalm.highWaterMark.trans h.highWaterMark,
    hcalm.writeCompleteCallback.trans h.writeCompleteCallback,
    hcalm.highWaterMarkCallback.trans h.highWaterMarkCallback⟩
  have hup' : s.conn.state ≠ .KDisconnected := fun hs => hup (hdown hs)
  have hbytes : s'.backlogBytes = s.backlogBytes := congrArg Buffer.readableBytes hbuffer
  rw [InterestTracks, hbytes]
  exact (hcalm.writing hup).trans (h.tracks hup')

/-- `sendInLoop` keeps it, called directly or as a task. -/
lemma sendInLoop (h : BacklogInv s₀ s) {tasks : List (ConnTask τ)} {message : List UInt8} {len : ℕ}
    {w : WriteResult} (hsend : { s with tasks := tasks }.sendInLoop message len w = some s') :
    BacklogInv s₀ s' := by
  by_cases hup : s.conn.state = .KDisconnected
  · obtain ⟨-, ⟨-, rfl⟩ | ⟨hdown, -⟩⟩ := sendInLoop_eq_some hsend
    · exact ⟨h.valid, h.tracks, h.highWaterMark, h.writeCompleteCallback, h.highWaterMarkCallback⟩
    · exact absurd hup hdown
  · obtain ⟨hset, hvalid, htracks, -, -⟩ :=
      sendInLoop_sends (s := { s with tasks := tasks }) h.valid hup hsend
    exact ⟨hvalid, fun _ => htracks (h.tracks hup), hset.highWaterMark.trans h.highWaterMark,
      hset.writeCompleteCallback.trans h.writeCompleteCallback,
      hset.highWaterMarkCallback.trans h.highWaterMarkCallback⟩

/-- `handleWrite` keeps it. -/
lemma handleWrite (h : BacklogInv s₀ s) {w : WriteResult} (hw : w.Within s.backlogBytes)
    (hwrite : s.handleWrite w = some (s', out)) : BacklogInv s₀ s' := by
  have hwrites := handleWrite_writes h.valid hw hwrite
  refine ⟨hwrites.valid, fun hup => ?_, hwrites.highWaterMark.trans h.highWaterMark,
    hwrites.writeCompleteCallback.trans h.writeCompleteCallback,
    hwrites.highWaterMarkCallback.trans h.highWaterMarkCallback⟩
  exact hwrites.tracks hup (h.tracks fun hs => hup (hwrites.down hs))

/-- Every step keeps the interest on the backlog, whatever its write finds. -/
theorem step (h : BacklogInv s₀ s) {act : ConnAct τ}
    (hw : ∀ w, act = .testWrite w → w.Within s.backlogBytes)
    (hstep : s.step act = some (s', out)) : BacklogInv s₀ s' := by
  rcases step_backlog_cases hstep with ⟨message, len, w, -, hsend⟩ | ⟨w, hact, hwrite⟩ | hleaves
  · exact h.sendInLoop hsend
  · exact h.handleWrite (hw w hact) hwrite
  · exact h.leaves hleaves

/-- It holds of a new connection, whose buffers are empty. -/
lemma newConnection {kind : OwnerKind} {address fd highWaterMark : ℕ}
    {connectionCallback writeCompleteCallback highWaterMarkCallback handling : Bool}
    {poller : EPollPoller} :
    BacklogInv (ConnLoop.newConnection kind (.new address fd highWaterMark connectionCallback
        writeCompleteCallback highWaterMarkCallback) poller handling : ConnLoop τ)
      (ConnLoop.newConnection kind (.new address fd highWaterMark connectionCallback
        writeCompleteCallback highWaterMarkCallback) poller handling) := by
  refine ⟨Buffer.new_valid, fun _ => iff_of_false ?_ ?_, rfl, rfl, rfl⟩
  · exact Channel.not_isWriting_of_events rfl
  · exact Nat.lt_irrefl _

end BacklogInv

/-- The guard of `connMachine`, whatever events `epoll_wait` reports. -/
def freePre (s : ConnLoop τ) : ConnAct τ → Prop
  | .poll _ => s.pc = .idle ∧ s.dispatch.eventHandling = false
  | act => s.pre act

instance (s : ConnLoop τ) (act : ConnAct τ) : Decidable (s.freePre act) := by
  apply ConnAct.casesOn (motive := fun act => Decidable (s.freePre act)) act <;>
    intros <;> unfold freePre <;> infer_instance

/-- The kernel takes no more than it has been given. -/
lemma freePre.within {act : ConnAct τ} (h : s.freePre act) {w : WriteResult}
    (hact : act = .testWrite w) : w.Within s.backlogBytes := by
  subst hact
  exact h.2

end ConnLoop

/-- The steps of a connection, and `send(Buffer*)` with a buffer of any size. -/
inductive SendAct (τ : Type) where
  | act (act : ConnAct τ)
  /-- The loop thread sends a buffer. -/
  | sendBuffer (b : Buffer) (w : WriteResult)
  /-- Another thread sends a buffer, which posts a copy. -/
  | postBuffer (caller : τ) (b : Buffer)

/-- All runs of a connection, whatever events are reported and whatever is sent. -/
def sendMachine (τ : Type) : Machine (ConnLoop τ) (SendAct τ) (ConnEvent τ) where
  pre s
    | .act act => s.freePre act
    | .sendBuffer b w => s.inUserCode ∧ b.Valid ∧ w.Within (SendCall.sendBuffer b).len
    | .postBuffer _ b => b.Valid
  step s
    | .act act => s.step act
    | .sendBuffer b w =>
      (s.send (SendCall.peekMemory b) (intOfSize b.readableBytes) w).map fun s' => (s', [])
    | .postBuffer caller b =>
      (SendCall.copy (SendCall.peekMemory b) (intOfSize b.readableBytes)).map fun message =>
        (s.queueInLoop (.sendInLoop caller message), [])

instance {τ : Type} (s : ConnLoop τ) (act : SendAct τ) : Decidable ((sendMachine τ).pre s act) :=
  match act with
  | .act act => inferInstanceAs (Decidable (s.freePre act))
  | .sendBuffer b w =>
    inferInstanceAs (Decidable (s.inUserCode ∧ b.Valid ∧ w.Within (SendCall.sendBuffer b).len))
  | .postBuffer _ b => inferInstanceAs (Decidable b.Valid)

namespace ConnLoop

variable {τ : Type} {s s₀ : ConnLoop τ} {t : List (ConnEvent τ)}

/-- So it holds throughout every run. -/
lemma BacklogInv.of_run (h₀ : BacklogInv s₀ s₀) (h : (sendMachine τ).Run s₀ t s) :
    BacklogInv s₀ s := by
  refine h.stateInvariant (BacklogInv s₀) h₀ ?_
  intro s act s' out hinv hpre hstep
  cases act with
  | act act => exact hinv.step (fun w hact => freePre.within hpre hact) hstep
  | sendBuffer b w =>
    simp only [sendMachine] at hstep
    obtain ⟨s₁, hs₁, heq⟩ := Option.map_eq_some_iff.mp hstep
    cases heq
    rw [ConnLoop.send] at hs₁
    exact hinv.sendInLoop hs₁
  | postBuffer caller b =>
    simp only [sendMachine] at hstep
    obtain ⟨message, -, heq⟩ := Option.map_eq_some_iff.mp hstep
    cases heq
    exact ⟨hinv.valid, hinv.tracks, hinv.highWaterMark, hinv.writeCompleteCallback,
      hinv.highWaterMarkCallback⟩

/-- In every run of a connection, whatever is sent, whatever its writes find and whatever events are
reported: as long as it is not down, its channel monitors `EPOLLOUT` if and only if there is
something in `outputBuffer_`. -/
theorem writing_iff_backlog {kind : OwnerKind} {address fd highWaterMark : ℕ}
    {connectionCallback writeCompleteCallback highWaterMarkCallback handling : Bool}
    {poller : EPollPoller}
    (h : (sendMachine τ).Run
      (newConnection kind (.new address fd highWaterMark connectionCallback writeCompleteCallback
        highWaterMarkCallback) poller handling) t s)
    (hup : s.conn.state ≠ .KDisconnected) :
    s.conn.channel.isWriting ↔ 0 < s.conn.outputBuffer.readableBytes :=
  (BacklogInv.of_run .newConnection h).tracks hup

/-- A message lost to a reset, one that leaves a backlog, an empty one behind it and a buffer. -/
theorem writing_iff_backlog_partial :
    ∃ t s, (sendMachine ℕ).Run
        (newConnection .serverSameLoop (.new 1 5 64 true true true) emptyPoller true) t s ∧
      (s.conn.state = .KConnected ∧ s.conn.outputBuffer.readableBytes = 4) ∧
      (s.conn.channel.isWriting ↔ 0 < s.conn.outputBuffer.readableBytes) := by
  obtain ⟨t, s, hrun, hstate, hbytes⟩ := (sendMachine ℕ).exists_run_of_exec
    (newConnection .serverSameLoop (.new 1 5 64 true true true) emptyPoller true)
    [.act .connectEstablished, .act (.send [9] (.error .EPIPE)), .act (.send [1, 2, 3] (.ok 1)),
      .act (.send [] (.ok 0)), .sendBuffer ⟨List.replicate 12 7, 8, 10⟩ (.ok 0)]
    (fun s _ => s.conn.state = .KConnected ∧ s.conn.outputBuffer.readableBytes = 4)
    (by decide +kernel)
  have hup : s.conn.state ≠ .KDisconnected := by
    rw [hstate]
    decide
  exact ⟨t, s, hrun, ⟨hstate, hbytes⟩, writing_iff_backlog hrun hup⟩

end ConnLoop

end MuduoServer
