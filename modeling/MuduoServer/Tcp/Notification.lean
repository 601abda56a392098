import MuduoServer.Tcp.Backlog

/-!
# The write notifications

`writeCompleteCallback_` and `highWaterMarkCallback_` are decided by local counts, in `sendInLoop`
and in `handleWrite`, but what they report is about everything that was ever sent.  The stream law
says that what the kernel has taken and the backlog are together all messages, so an empty backlog
means that the kernel has taken everything; and since the write interest tracks the backlog, a send
without a backlog always tries to write directly.
-/

namespace MuduoServer

/-- All runs of a connection, whatever events are reported. -/
def freeMachine (τ : Type) : Machine (ConnLoop τ) (ConnAct τ) (ConnEvent τ) where
  pre s act := s.freePre act
  step s act := s.step act

instance {τ : Type} (s : ConnLoop τ) (act : ConnAct τ) : Decidable ((freeMachine τ).pre s act) :=
  inferInstanceAs (Decidable (s.freePre act))

instance {τ : Type} (task : ConnTask τ) : Decidable task.Notifies := by
  unfold ConnTask.Notifies
  split <;> infer_instance

namespace ConnLoop

variable {τ : Type} {s s' s₀ : ConnLoop τ} {out t : List (ConnEvent τ)} {act : ConnAct τ}

/-- The notifications among the tasks. -/
def notifications (tasks : List (ConnTask τ)) : List (ConnTask τ) :=
  tasks.filter fun task => task.Notifies

/-- The step empties a backlog, or sends a message without a backlog that the kernel takes whole. -/
def Completes (s : ConnLoop τ) (act : ConnAct τ) (s' : ConnLoop τ) : Prop :=
  match act with
  | .testWrite _ => 0 < s.backlogBytes ∧ s'.backlogBytes = 0
  | .send message w => s.backlogBytes = 0 ∧ w = .ok message.length
  | .runTask w =>
    match s.tasks with
    | .sendInLoop _ message :: _ => s.backlogBytes = 0 ∧ w = .ok message.length
    | _ => False
  | _ => False

instance (s : ConnLoop τ) (act : ConnAct τ) (s' : ConnLoop τ) : Decidable (s.Completes act s') := by
  apply ConnAct.casesOn (motive := fun act => Decidable (s.Completes act s')) act <;>
    intros <;> unfold Completes <;> try infer_instance
  generalize s.tasks = tasks
  refine List.casesOn tasks inferInstance fun task _ => ?_
  refine ConnTask.casesOn task ?_ ?_ ?_ ?_ ?_ ?_ <;> intros <;> infer_instance

/-- The step takes the backlog from below the mark to the mark or above it. -/
def Crosses (s s' : ConnLoop τ) : Prop :=
  s.backlogBytes < s.conn.highWaterMark ∧ s.conn.highWaterMark ≤ s'.backlogBytes

instance (s s' : ConnLoop τ) : Decidable (Crosses s s') := inferInstanceAs (Decidable (_ ∧ _))

/-- The notifications that a step has to queue. -/
def dueNotifications (s : ConnLoop τ) (act : ConnAct τ) (s' : ConnLoop τ) : List (ConnTask τ) :=
  (if s.Completes act s' then [.writeCompleteCallback] else []) ++
    if Crosses s s' then [.highWaterMarkCallback s'.backlogBytes] else []

/-! ### One step -/

/-- Tasks that are no notifications leave nothing in the list. -/
lemma notifications_eq_nil {added : List (ConnTask τ)} (h : ∀ task ∈ added, ¬ task.Notifies) :
    notifications added = [] := by
  rw [notifications, List.filter_eq_nil_iff]
  simpa using h

/-- A sending step completes if and only if it finds no backlog and the kernel takes the message. -/
lemma completes_iff_of_sending {message : List UInt8} {len : ℕ} {w : WriteResult}
    (h : s.Sending act message len w) :
    s.Completes act s' ↔ s.backlogBytes = 0 ∧ w = .ok message.length := by
  rcases h with ⟨rfl, -⟩ | ⟨rfl, ⟨poster, hhead⟩, -⟩
  · exact Iff.rfl
  · obtain ⟨tasks, htasks⟩ := List.head?_eq_some_iff.mp hhead
    simp only [Completes, htasks]

/-- A step that leaves the backlog alone completes nothing. -/
lemma Leaves.not_completes (h : Leaves s act s') : ¬ s.Completes act s' := by
  intro hcompletes
  have hbytes : s'.backlogBytes = s.backlogBytes := congrArg Buffer.readableBytes h.outputBuffer
  cases act with
  | testWrite w =>
    obtain ⟨hpos, hzero⟩ := hcompletes
    omega
  | send message w => exact h.notSending message _ w (Or.inl ⟨rfl, rfl⟩)
  | runTask w =>
    simp only [Completes] at hcompletes
    split at hcompletes
    next poster message tasks htasks =>
      exact h.notSending message _ w (Or.inr ⟨rfl, ⟨poster, by simp [htasks]⟩, rfl⟩)
    next => exact hcompletes
  | _ => exact hcompletes

/-- A result of a write of the whole message takes all if and only if it says so. -/
lemma takesAll_iff {len : ℕ} {w : WriteResult} (hw : w.Within len) :
    w.TakesAll len ↔ w = .ok len := by
  cases w with
  | ok n =>
    have hn : n ≤ len := hw
    simp only [WriteResult.TakesAll, WriteResult.ok.injEq]
    omega
  | error errno => simp [WriteResult.TakesAll]

/-- While the interest tracks the backlog, a message without a backlog is written directly. -/
lemma writesDirectly_iff (h : s.InterestTracks) : s.writesDirectly ↔ s.backlogBytes = 0 := by
  have htracks : s.conn.channel.isWriting ↔ 0 < s.backlogBytes := h
  unfold writesDirectly
  rw [htracks]
  simp [backlogBytes]

/-- A sending step hands over a whole message. -/
lemma StreamInv.sending_len [DecidableEq τ] (h : StreamInv t s) (hpre : s.freePre act)
    {message : List UInt8} {len : ℕ} {w : WriteResult} (hsending : s.Sending act message len w) :
    len = message.length ∧ w.Within message.length := by
  rcases hsending with ⟨rfl, hlen⟩ | ⟨rfl, ⟨poster, hhead⟩, hlen⟩
  · obtain ⟨-, hshort, hw⟩ := hpre
    exact ⟨hlen.trans (sizeOfInt_natCast hshort), hw⟩
  · obtain ⟨tasks, htasks⟩ := List.head?_eq_some_iff.mp hhead
    obtain ⟨-, -, hw⟩ := hpre
    rw [taskWithin, htasks] at hw
    have hshort : message.length < 2 ^ 31 := by
      refine h.short (some poster, message) ?_
      rw [htasks]
      exact List.mem_cons_self
    exact ⟨hlen.trans (sizeOfInt_intOfSize hshort), hw⟩

/-- A sending step queues the notifications that are due. -/
lemma Sends.notifies {message : List UInt8} {len : ℕ} {w : WriteResult}
    (hsends : Sends { s with tasks := s.tasksLeft act } len w s')
    (hsending : s.Sending act message len w) (hlen : len = message.length)
    (hw : w.Within message.length) (htracks : s.InterestTracks)
    (hcomplete : s.conn.writeCompleteCallback = true)
    (hhigh : s.conn.highWaterMarkCallback = true) :
    ∃ added, s'.tasks = s.tasksLeft act ++ added ∧
      notifications added = dueNotifications s act s' := by
  have hdirect : ({ s with tasks := s.tasksLeft act } : ConnLoop τ).writesDirectly ↔
      s.backlogBytes = 0 := writesDirectly_iff htracks
  have hfirst : completeTasks { s with tasks := s.tasksLeft act } len w =
      if s.Completes act s' then [.writeCompleteCallback] else [] := by
    unfold completeTasks
    refine if_congr ?_ rfl rfl
    rw [hdirect, completes_iff_of_sending hsending, hlen, takesAll_iff hw]
    simp [hcomplete]
  have hsecond : highWaterTasks { s with tasks := s.tasksLeft act } s' =
      if Crosses s s' then [.highWaterMarkCallback s'.backlogBytes] else [] := by
    unfold highWaterTasks Crosses
    refine if_congr ?_ rfl rfl
    simp [hhigh, backlogBytes]
  refine ⟨_, by rw [hsends.tasks, List.append_assoc], ?_⟩
  rw [hfirst, hsecond, dueNotifications, notifications, List.filter_eq_self]
  intro task htask
  rcases List.mem_append.mp htask with htask | htask
  · obtain ⟨-, rfl⟩ : s.Completes act s' ∧ task = .writeCompleteCallback := by
      simpa using htask
    rfl
  · obtain ⟨-, rfl⟩ : Crosses s s' ∧ task = .highWaterMarkCallback s'.backlogBytes := by
      simpa using htask
    rfl

/-- `handleWrite` queues the notifications that are due. -/
lemma Writes.notifies {w : WriteResult} (h : Writes s s')
    (hcomplete : s.conn.writeCompleteCallback = true) :
    ∃ added, s'.tasks = s.tasksLeft (.testWrite w) ++ added ∧
      notifications added = dueNotifications s (.testWrite w) s' := by
  refine ⟨_, h.tasks, ?_⟩
  have hcross : ¬ Crosses s s' := by
    have := h.backlog
    unfold Crosses
    omega
  rw [dueNotifications, if_neg hcross, List.append_nil]
  by_cases hdone : 0 < s.backlogBytes ∧ s'.backlogBytes = 0
  · rw [if_pos ⟨hdone.1, hdone.2, hcomplete⟩,
      if_pos (show s.Completes (.testWrite w) s' from hdone)]
    rfl
  · rw [if_neg fun hall => hdone ⟨hall.1, hall.2.1⟩,
      if_neg (show ¬ s.Completes (.testWrite w) s' from hdone)]
    rfl

/-- A step that leaves the backlog alone has no notification due and queues none. -/
lemma Leaves.notifies (h : Leaves s act s') :
    ∃ added, s'.tasks = s.tasksLeft act ++ added ∧
      notifications added = dueNotifications s act s' := by
  obtain ⟨added, htasks, hcalm⟩ := h.calm.tasks
  refine ⟨added, htasks, ?_⟩
  have hbytes : s'.backlogBytes = s.backlogBytes := congrArg Buffer.readableBytes h.outputBuffer
  have hcross : ¬ Crosses s s' := by
    unfold Crosses
    omega
  rw [notifications_eq_nil hcalm, dueNotifications, if_neg h.not_completes, if_neg hcross,
    List.append_nil]

/-! ### Whole runs -/

/-- Apart from `poll` the guards are those of `connMachine`. -/
lemma freePre.pre (h : s.freePre act) (hpoll : ∀ revents, act ≠ .poll revents) : s.pre act := by
  cases act with
  | poll revents => exact absurd rfl (hpoll revents)
  | _ => exact h

/-- An empty backlog has no readable bytes. -/
lemma readable_eq_nil (hvalid : s.conn.outputBuffer.Valid) (h : s.backlogBytes = 0) :
    s.conn.outputBuffer.readable = [] := by
  rw [← List.length_eq_zero_iff, hvalid.length_readable]
  exact h

section Run

variable [DecidableEq τ]

/-- Every step keeps the stream law. -/
lemma StreamInv.freeStep (h : StreamInv t s) (hpre : s.freePre act) (hreset : s.NoReset act)
    (hstep : s.step act = some (s', out)) : StreamInv (t ++ out) s' := by
  cases act with
  | poll revents =>
    cases hstep
    exact h.of_frame ⟨rfl, rfl, rfl, id, rfl, rfl⟩
  | _ => exact h.step (hpre.pre nofun) hreset hstep

/-- All notifications of a step, of a connection whose callbacks are set. -/
theorem step_notifies (hinv : BacklogInv s₀ s) (hstream : StreamInv t s)
    (hcomplete : s₀.conn.writeCompleteCallback = true)
    (hhigh : s₀.conn.highWaterMarkCallback = true) (hpre : s.freePre act)
    (hup : s.conn.state ≠ .KDisconnected) (hstep : s.step act = some (s', out)) :
    ∃ added, s'.tasks = s.tasksLeft act ++ added ∧
      notifications added = dueNotifications s act s' := by
  have hcomplete' := hinv.writeCompleteCallback.trans hcomplete
  have hhigh' := hinv.highWaterMarkCallback.trans hhigh
  rcases step_backlog_cases hstep with ⟨message, len, w, hsending, hsend⟩ | ⟨w, rfl, hwrite⟩ |
    hleaves
  · obtain ⟨hlen, hw⟩ := hstream.sending_len hpre hsending
    have hsends := sendInLoop_sends (s := { s with tasks := s.tasksLeft act }) hinv.valid hup hsend
    exact hsends.notifies hsending hlen hw (hinv.tracks hup) hcomplete' hhigh'
  · exact (handleWrite_writes hinv.valid hpre.2 hwrite).notifies hcomplete'
  · exact hleaves.notifies

/-- A step that completes leaves everything that was ever handed to `sendInLoop` with the
kernel. -/
theorem accepted_of_completes (hinv : BacklogInv s₀ s) (hstream : StreamInv t s)
    (hpre : s.freePre act) (hreset : s.NoReset act) (hup : s.conn.state ≠ .KDisconnected)
    (hstep : s.step act = some (s', out)) (hcompletes : s.Completes act s') :
    s'.accepted = (bodies (t ++ out)).flatMap Prod.snd := by
  rcases step_backlog_cases hstep with ⟨message, len, w, hsending, hsend⟩ | ⟨w, rfl, hwrite⟩ |
    hleaves
  · obtain ⟨hlen, hw⟩ := hstream.sending_len hpre hsending
    obtain ⟨hzero, hall⟩ := (completes_iff_of_sending hsending).mp hcompletes
    have hsends := sendInLoop_sends (s := { s with tasks := s.tasksLeft act }) hinv.valid hup hsend
    have htakes : w.TakesAll len := by
      rw [hlen, takesAll_iff hw]
      exact hall
    have hempty : s'.backlogBytes = 0 :=
      (hsends.whole ((writesDirectly_iff (hinv.tracks hup)).mpr hzero) htakes).trans hzero
    have hup' : s'.conn.state ≠ .KDisconnected := by
      rw [hsends.settings.state]
      exact hup
    have hlaw := (hstream.freeStep hpre hreset hstep).stream hup'
    rwa [readable_eq_nil hsends.valid hempty, List.append_nil] at hlaw
  · -- the connection may be down after the step, so the law is taken from before it
    have hdrained := handleWrite_drained hinv.valid hpre.2 hwrite
    have hlaw := hdrained.stream.trans (hstream.stream hup)
    rw [readable_eq_nil hdrained.valid hcompletes.2, List.append_nil] at hlaw
    rw [hlaw, bodies_append, hdrained.bodies, List.append_nil]
  · exact absurd hcompletes hleaves.not_completes

/-- A run keeps both laws. -/
lemma notification_invariants
    (h : ((freeMachine τ).restrict NoReset).Run s₀ t s) (h₀ : BacklogInv s₀ s₀)
    (hstream₀ : StreamInv [] s₀) : BacklogInv s₀ s ∧ StreamInv t s := by
  refine h.invariant (fun t s => BacklogInv s₀ s ∧ StreamInv t s) ⟨h₀, hstream₀⟩ ?_
  rintro t s act s' out ⟨hinv, hstream⟩ ⟨hpre, hreset⟩ hstep
  exact ⟨hinv.step (fun w hact => freePre.within hpre hact) hstep,
    hstream.freeStep hpre hreset hstep⟩

/-- In every run of a connection with both callbacks set, as long as it is not down and no write
finds it reset: every step queues exactly the notifications that are due, `writeCompleteCallback_`
once when it empties a backlog or the kernel takes a whole message that finds none, and
`highWaterMarkCallback_` once, with the new backlog, when the backlog comes up to the mark; whenever
`writeCompleteCallback_` is queued the kernel has taken every byte of every message handed to
`sendInLoop` so far; and when a later step queues `highWaterMarkCallback_` again, the backlog has
been below the mark in between. -/
theorem write_notifications_exact {kind : OwnerKind} {address fd highWaterMark : ℕ}
    {connectionCallback handling : Bool} {poller : EPollPoller}
    (h : ((freeMachine τ).restrict NoReset).Run
      (newConnection kind (.new address fd highWaterMark connectionCallback true true) poller
        handling) t s)
    (hpre : ((freeMachine τ).restrict NoReset).pre s act) (hup : s.conn.state ≠ .KDisconnected)
    (hstep : (freeMachine τ).step s act = some (s', out)) :
    (∃ added, s'.tasks = s.tasksLeft act ++ added ∧
      notifications added =
        (if s.Completes act s' then [.writeCompleteCallback] else []) ++
          if s.backlogBytes < highWaterMark ∧ highWaterMark ≤ s'.backlogBytes then
            [.highWaterMarkCallback s'.backlogBytes]
          else []) ∧
      (s.Completes act s' → s'.accepted = (bodies (t ++ out)).flatMap Prod.snd) ∧
      (∀ t₂ s₂ act₂ s₂' out₂ added₂,
        ((freeMachine τ).restrict NoReset).Run s' t₂ s₂ →
        ((freeMachine τ).restrict NoReset).pre s₂ act₂ → s₂.conn.state ≠ .KDisconnected →
        (freeMachine τ).step s₂ act₂ = some (s₂', out₂) →
        s₂'.tasks = s₂.tasksLeft act₂ ++ added₂ →
        (∃ size, .highWaterMarkCallback size ∈ added₂) → s₂.backlogBytes < highWaterMark) := by
  obtain ⟨hinv, hstream⟩ := notification_invariants h .newConnection .newConnection
  refine ⟨?_, accepted_of_completes hinv hstream hpre.1 hpre.2 hup hstep, ?_⟩
  · obtain ⟨added, htasks, hdue⟩ := step_notifies hinv hstream rfl rfl hpre.1 hup hstep
    refine ⟨added, htasks, hdue.trans ?_⟩
    simp only [dueNotifications, Crosses, hinv.highWaterMark]
    rfl
  · rintro t₂ s₂ act₂ s₂' out₂ added₂ hrun₂ hpre₂ hup₂ hstep₂ htasks₂ ⟨size, hsize⟩
    obtain ⟨hinv₂, hstream₂⟩ :=
      notification_invariants ((h.snoc hpre hstep).append hrun₂) .newConnection .newConnection
    obtain ⟨added, htasks, hdue⟩ := step_notifies hinv₂ hstream₂ rfl rfl hpre₂.1 hup₂ hstep₂
    obtain rfl : added₂ = added := List.append_cancel_left (htasks₂.symm.trans htasks)
    have hmem : .highWaterMarkCallback size ∈ dueNotifications s₂ act₂ s₂' := by
      rw [← hdue, notifications, List.mem_filter]
      exact ⟨hsize, rfl⟩
    by_cases hcross : Crosses s₂ s₂'
    · have hmark : s₂.conn.highWaterMark = highWaterMark := hinv₂.highWaterMark
      rw [← hmark]
      exact hcross.1
    · rw [dueNotifications, if_neg hcross, List.append_nil] at hmem
      split at hmem <;> simp at hmem

end Run

/-- A message that leaves a backlog at the mark, and the dispatch that empties it. -/
theorem write_notifications_exact_drained :
    ∃ (t : List (ConnEvent ℕ)) (s s' : ConnLoop ℕ) (out : List (ConnEvent ℕ)),
      (freeMachine ℕ).step s (.testWrite (.ok 2)) = some (s', out) ∧
      s.tasks = [.highWaterMarkCallback 2] ∧ s'.accepted = [1, 2, 3] ∧
      s'.accepted = (bodies (t ++ out)).flatMap Prod.snd := by
  obtain ⟨t, s, hrun, hstate, htasks, hpre, hstep⟩ :=
    ((freeMachine ℕ).restrict NoReset).exists_run_of_exec
      (newConnection .serverSameLoop (.new 1 5 2 true true true) emptyPoller true)
      [.connectEstablished, .send [1, 2, 3] (.ok 1), .callbackReturns, .endHandling,
        .poll {.EPOLLOUT}, .handleEvent, .testClose, .testError, .testRead (.data [])]
      (fun s _ => s.conn.state = .KConnected ∧ s.tasks = [.highWaterMarkCallback 2] ∧
        ((freeMachine ℕ).restrict NoReset).pre s (.testWrite (.ok 2)) ∧
        ((freeMachine ℕ).step s (.testWrite (.ok 2))).any (fun r =>
          decide (r.1.accepted = [1, 2, 3] ∧ s.Completes (.testWrite (.ok 2)) r.1)) = true)
      (by decide +kernel)
  obtain ⟨⟨s', out⟩, hstep, hs'⟩ := (Option.any_eq_true _ _).mp hstep
  obtain ⟨haccepted, hcompletes⟩ := of_decide_eq_true hs'
  have hup : s.conn.state ≠ .KDisconnected := by
    rw [hstate]
    decide
  exact ⟨t, s, s', out, hstep, htasks, haccepted,
    (write_notifications_exact hrun hpre hup hstep).2.1 hcompletes⟩

end ConnLoop

end MuduoServer
