import MuduoServer.Tcp.Stream

/-!
# What `forceClose` does with the data

`forceClose` goes through the queue of the loop, so that the messages posted before it are handed to
`sendInLoop` first.  That is only half of the way to the kernel.  A message may still be in
`outputBuffer_` when `forceCloseInLoop` runs, which does not look there; and `handleWrite`, which
closes the connection once it has drained the backlog, does not look into the queue.

`CloseSafe` excludes these two situations, and `CloseInv` says what then holds between the call of
`forceClose` and the end of the connection.
-/

namespace MuduoServer

/-- A write that takes a part of the bytes, or would block. -/
def WriteResult.Partial : WriteResult → Prop
  | .ok _ => True
  | .error errno => errno = .EWOULDBLOCK

instance (w : WriteResult) : Decidable w.Partial := by
  apply WriteResult.casesOn (motive := fun w => Decidable (w.Partial)) w <;>
    intros <;> unfold WriteResult.Partial <;> infer_instance

/-- A partial write does not find the connection reset. -/
lemma WriteResult.Partial.notReset {w : WriteResult} (h : w.Partial) : w.NotReset := by
  cases w with
  | ok n => exact ⟨by simp, by simp⟩
  | error errno =>
    obtain rfl : errno = .EWOULDBLOCK := h
    decide

/-- `readFd` returns zero only at the end of the stream. -/
lemma Buffer.readFd_ne_zero {b : Buffer} {result : ReadResult} {r : Buffer × ℤ × Option ℕ}
    (hresult : result ≠ .data []) (h : b.readFd result = some r) : r.2.1 ≠ 0 := by
  unfold Buffer.readFd at h
  split at h
  · cases h
    simp
  · next bytes =>
    have hbytes : (bytes.length : ℤ) ≠ 0 := by
      have hnil : bytes ≠ [] := fun hnil => hresult (by rw [hnil])
      simpa using hnil
    dsimp only at h
    split at h
    · cases h
      exact hbytes
    · obtain ⟨b', -, heq⟩ := Option.map_eq_some_iff.mp h
      cases heq
      exact hbytes

/-- `retrieve` empties the buffer only if everything is taken. -/
lemma Buffer.eq_readableBytes_of_retrieve {b b' : Buffer} {n : ℕ} (h : b.retrieve n = some b')
    (hempty : b'.readableBytes = 0) : n = b.readableBytes := by
  unfold Buffer.retrieve at h
  split at h
  · split at h
    · cases h
      simp only [Buffer.readableBytes] at *
      omega
    · omega
  · cases h

namespace ConnLoop

variable {τ : Type} {s s' : ConnLoop τ} {out : List (ConnEvent τ)}

/-- The steps of a connection whose writes are partial or block and whose peer neither closes nor
resets it. -/
def Quiet (s : ConnLoop τ) : ConnAct τ → Prop
  | .send _ w | .runTask w | .testWrite w => w.Partial
  | .testClose => ¬ (EpollFlag.EPOLLHUP ∈ s.conn.channel.revents ∧
      EpollFlag.EPOLLIN ∉ s.conn.channel.revents)
  | .testRead r => s.conn.channel.revents ∩ {.EPOLLIN, .EPOLLPRI, .EPOLLRDHUP} ≠ ∅ → r ≠ .data []
  | _ => True

instance (s : ConnLoop τ) (act : ConnAct τ) : Decidable (s.Quiet act) := by
  apply ConnAct.casesOn (motive := fun act => Decidable (s.Quiet act)) act <;>
    intros <;> unfold Quiet <;> infer_instance

/-- Nor does any other step of a quiet run. -/
lemma Quiet.noReset {act : ConnAct τ} (h : s.Quiet act) : s.NoReset act := by
  cases act with
  | send message w => exact WriteResult.Partial.notReset h
  | runTask w => exact WriteResult.Partial.notReset h
  | testWrite w => exact WriteResult.Partial.notReset h
  | _ => trivial

/-! ### The queue -/

/-- The messages that are queued ahead of the first `forceCloseInLoop`. -/
def sendsAhead : List (ConnTask τ) → List (Option τ × List UInt8)
  | [] => []
  | .forceCloseInLoop :: _ => []
  | .sendInLoop poster message :: tasks => (some poster, message) :: sendsAhead tasks
  | .connectEstablished :: tasks | .writeCompleteCallback :: tasks
  | .highWaterMarkCallback _ :: tasks | .connectDestroyed :: tasks => sendsAhead tasks

/-- Without `forceCloseInLoop`, these are all messages. -/
lemma sendsAhead_append_forceCloseInLoop {tasks : List (ConnTask τ)}
    (h : .forceCloseInLoop ∉ tasks) :
    sendsAhead (tasks ++ [.forceCloseInLoop]) = queuedSends tasks := by
  induction tasks with
  | nil => rfl
  | cons task tasks ih =>
    obtain ⟨hne, htail⟩ := List.ne_and_not_mem_of_not_mem_cons h
    cases task with
    | forceCloseInLoop => exact absurd rfl hne
    | sendInLoop poster message => exact congrArg (List.cons _) (ih htail)
    | _ => exact ih htail

/-- What is queued behind `forceCloseInLoop` does not matter. -/
lemma sendsAhead_append_of_mem {tasks : List (ConnTask τ)} (l : List (ConnTask τ))
    (h : .forceCloseInLoop ∈ tasks) : sendsAhead (tasks ++ l) = sendsAhead tasks := by
  induction tasks with
  | nil => cases h
  | cons task tasks ih =>
    cases task with
    | forceCloseInLoop => rfl
    | sendInLoop poster message =>
      exact congrArg (List.cons _) (ih ((List.mem_cons.mp h).resolve_left (by simp)))
    | _ => exact ih ((List.mem_cons.mp h).resolve_left (by simp))

/-- They were posted by other threads. -/
lemma fst_ne_none_of_mem_sendsAhead {tasks : List (ConnTask τ)} {m : Option τ × List UInt8}
    (h : m ∈ sendsAhead tasks) : m.1 ≠ none := by
  induction tasks with
  | nil => cases h
  | cons task tasks ih =>
    cases task with
    | forceCloseInLoop => cases h
    | sendInLoop poster message =>
      rcases List.mem_cons.mp h with rfl | h
      · simp
      · exact ih h
    | _ => exact ih h

/-! ### The functions that do not close the connection -/

/-- What a function does that neither calls `forceClose` nor takes down a connection that is being
closed. -/
structure Stays (s : ConnLoop τ) (out : List (ConnEvent τ)) (s' : ConnLoop τ) : Prop where
  tasks : ∃ l, s'.tasks = s.tasks ++ l ∧ .forceCloseInLoop ∉ l
  accepted : s.accepted <+: s'.accepted
  closing : s'.conn.state = .KDisconnecting ↔ s.conn.state = .KDisconnecting
  down : s.conn.state = .KDisconnected → s'.conn.state = .KDisconnected
  events : .setState .KDisconnecting ∉ out

namespace Stays

/-- Queue, bytes and state are as before. -/
lemma of_eq (htasks : s'.tasks = s.tasks) (haccepted : s'.accepted = s.accepted)
    (hstate : s'.conn.state = s.conn.state) (hout : .setState .KDisconnecting ∉ out) :
    Stays s out s' where
  tasks := ⟨[], by simp [htasks]⟩
  accepted := by rw [haccepted]
  closing := by rw [hstate]
  down := by rw [hstate]; exact id
  events := hout

/-- First a change without events, then the rest. -/
lemma trans {s'' : ConnLoop τ} (h : Stays s [] s') (h' : Stays s' out s'') : Stays s out s'' where
  tasks := by
    obtain ⟨l, hl, hnot⟩ := h.tasks
    obtain ⟨l', hl', hnot'⟩ := h'.tasks
    refine ⟨l ++ l', by rw [hl', hl, List.append_assoc], fun hmem => ?_⟩
    rcases List.mem_append.mp hmem with hmem | hmem
    · exact hnot hmem
    · exact hnot' hmem
  accepted := h.accepted.trans h'.accepted
  closing := h'.closing.trans h.closing
  down hdown := h'.down (h.down hdown)
  events := h'.events

/-- The events do not matter as long as `forceClose` is not among them. -/
lemma emit (h : Stays s [] s') (hout : .setState .KDisconnecting ∉ out) : Stays s out s' :=
  ⟨h.tasks, h.accepted, h.closing, h.down, hout⟩

/-- Another task is queued. -/
lemma queueInLoop (s : ConnLoop τ) {task : ConnTask τ} (h : task ≠ .forceCloseInLoop) :
    Stays s [] (s.queueInLoop task) where
  tasks := ⟨[task], rfl, by simpa using h.symm⟩
  accepted := List.prefix_rfl
  closing := Iff.rfl
  down := id
  events := by simp

/-- Another task is queued under a condition. -/
lemma queueInLoop_ite (s : ConnLoop τ) (c : Prop) [Decidable c] {task : ConnTask τ}
    (h : task ≠ .forceCloseInLoop) :
    Stays s [] { s with tasks := s.tasks ++ if c then [task] else [] } := by
  rw [← ite_queueInLoop]
  split
  · exact queueInLoop s h
  · exact .of_eq rfl rfl rfl (by simp)

/-- `connectEstablished` starts from `KConnecting`. -/
lemma connectEstablished (h : s.connectEstablished = some (s', out)) : Stays s out s' := by
  obtain ⟨hstate, r, -, rfl, rfl⟩ := connectEstablished_eq_some h
  refine ⟨⟨[], by simp⟩, List.prefix_rfl, by simp [hstate], fun hdown => ?_, by simp⟩
  rw [hdown] at hstate
  cases hstate

/-- `connectDestroyed` takes down only what is not being closed. -/
lemma connectDestroyed (h : s.connectDestroyed = some (s', out)) : Stays s out s' := by
  obtain ⟨s₁, r, h₁, -, rfl⟩ := connectDestroyed_eq_some h
  have hfirst : Stays s out s₁ := by
    rcases takeDown_eq_some h₁ with ⟨hstate, r', -, rfl, rfl⟩ | ⟨-, rfl, rfl⟩
    · exact ⟨⟨[], by simp⟩, List.prefix_rfl, by simp [hstate], fun _ => rfl, by simp⟩
    · exact .of_eq rfl rfl rfl (by simp)
  exact ⟨hfirst.tasks, hfirst.accepted, hfirst.closing, hfirst.down, hfirst.events⟩

/-- `removeConnectionInLoop` queues another task. -/
lemma removeConnectionInLoop (h : s.removeConnectionInLoop = some s') : Stays s [] s' := by
  obtain ⟨-, rfl⟩ := removeConnectionInLoop_eq_some h
  have howner : Stays s [] { s with owner := { s.owner with holds := false } } :=
    .of_eq rfl rfl rfl (by simp)
  exact howner.trans (queueInLoop _ (by simp))

/-- The close callback of each owner. -/
lemma closeCallback (h : s.closeCallback = some (s', out)) : Stays s out s' := by
  have howner : ∀ owner : ConnOwner, Stays s [] { s with owner := owner } :=
    fun owner => .of_eq rfl rfl rfl (by simp)
  rcases closeCallback_eq_some h with ⟨-, hremove, rfl⟩ | ⟨-, rfl, rfl⟩ | ⟨-, h⟩
  · exact removeConnectionInLoop hremove
  · exact howner _
  · exact (howner _).trans (connectDestroyed h)

/-- What follows a callback of the user. -/
lemma callbackReturns (h : s.callbackReturns = some (s', out)) : Stays s out s' := by
  have hpc : ∀ pc : ConnPc, Stays s [] { s with pc := pc } :=
    fun pc => .of_eq rfl rfl rfl (by simp)
  rcases callbackReturns_eq_some h with ⟨-, rfl, rfl⟩ | ⟨-, rfl, rfl⟩ |
    ⟨k, out', -, hclose, rfl⟩ | ⟨-, rfl, rfl⟩
  · exact hpc _
  · exact hpc _
  · have hrest := (hpc _).trans (closeCallback hclose)
    exact ⟨hrest.tasks, hrest.accepted, hrest.closing, hrest.down,
      by simpa using hrest.events⟩
  · exact .of_eq rfl rfl rfl (by simp)

/-- The direct write may queue a notification. -/
lemma direct (s : ConnLoop τ) (message : List UInt8) (len : ℕ) (w : WriteResult) :
    Stays s [] (s.direct message len w).1 := by
  have hsame : Stays s [] s := .of_eq rfl rfl rfl (by simp)
  unfold ConnLoop.direct
  split
  · cases w with
    | ok n =>
      have htaken : Stays s [] { s with accepted := s.accepted ++ message.take n } :=
        ⟨⟨[], by simp⟩, List.prefix_append _ _, Iff.rfl, id, by simp⟩
      dsimp only
      split
      · exact htaken.trans (queueInLoop _ (by simp))
      · exact htaken
    | error errno => exact hsame
  · exact hsame

/-- So may the backlog. -/
lemma backlog {data : List UInt8} (h : s.backlog data = some s') : Stays s [] s' := by
  obtain ⟨b, s₁, -, rfl, ⟨-, rfl⟩ | ⟨-, r, -, rfl⟩⟩ := backlog_eq_some h
  · exact (queueInLoop_ite s _ (by simp)).trans (.of_eq rfl rfl rfl (by simp))
  · exact (queueInLoop_ite s _ (by simp)).trans (.of_eq rfl rfl rfl (by simp))

/-- `sendInLoop` as a whole. -/
lemma sendInLoop {message : List UInt8} {len : ℕ} {w : WriteResult}
    (h : s.sendInLoop message len w = some s') : Stays s [] s' := by
  have hdirect := direct s message len w
  obtain ⟨-, ⟨-, rfl⟩ | ⟨-, r, rfl, -, ⟨-, -, h⟩ | ⟨-, rfl⟩⟩⟩ := sendInLoop_eq_some h
  · exact .of_eq rfl rfl rfl (by simp)
  · exact hdirect.trans (backlog h)
  · exact hdirect

/-- `handleRead`, unless it finds the end of the stream. -/
lemma handleRead {r : ReadResult} (hr : r ≠ .data []) (h : s.handleRead r = some (s', out)) :
    Stays s out s' := by
  obtain ⟨r', hr', ⟨rfl, rfl⟩ | ⟨hzero, -⟩ | ⟨rfl, rfl⟩⟩ := handleRead_eq_some h
  · exact .of_eq rfl rfl rfl (by simp)
  · exact absurd hzero (Buffer.readFd_ne_zero hr hr')
  · exact .of_eq rfl rfl rfl (by simp)

end Stays

/-! ### The functions that close the connection -/

/-- The connection goes down. -/
structure Closes (out : List (ConnEvent τ)) (s' : ConnLoop τ) : Prop where
  down : s'.conn.state = .KDisconnected
  events : .setState .KDisconnecting ∉ out

/-- `handleClose` closes. -/
lemma handleClose_closes {k : Option Phase} (h : s.handleClose k = some (s', out)) :
    Closes out s' := by
  obtain ⟨-, r, -, rfl, rfl⟩ := handleClose_eq_some h
  exact ⟨rfl, by simp⟩

/-- `forceCloseInLoop` of an open connection closes. -/
lemma forceCloseInLoop_closes {k : Option Phase} (hopen : s.isOpen)
    (h : s.forceCloseInLoop k = some (s', out)) : Closes out s' := by
  rcases forceCloseInLoop_eq_some h with h | ⟨hclosed, -⟩
  · exact handleClose_closes h
  · exact absurd hopen hclosed

/-- The result `w` lets `handleWrite` send the rest of the backlog. -/
def drains (s : ConnLoop τ) (w : WriteResult) : Prop :=
  EpollFlag.EPOLLOUT ∈ s.conn.channel.revents ∧ s.conn.channel.isWriting ∧
    w = .ok s.conn.outputBuffer.readableBytes ∧ 0 < s.conn.outputBuffer.readableBytes

instance (s : ConnLoop τ) (w : WriteResult) : Decidable (s.drains w) :=
  inferInstanceAs (Decidable (_ ∧ _))

/-- The end of `handleWrite` closes a connection in `KDisconnecting`. -/
lemma writeComplete_cases (h : s.writeComplete = some (s', out)) :
    Stays s out s' ∨ s.conn.state = .KDisconnecting ∧ Closes out s' := by
  obtain ⟨r, s₁, -, rfl, ⟨hstate, h⟩ | ⟨-, rfl, rfl⟩⟩ := writeComplete_eq_some h
  · refine Or.inr ⟨hstate, forceCloseInLoop_closes ?_ h⟩
    exact Or.inr hstate
  · exact Or.inl ((Stays.queueInLoop_ite s _ (by simp)).trans (.of_eq rfl rfl rfl (by simp)))

/-- `handleWrite` closes a connection only after the last byte of the backlog. -/
lemma handleWrite_cases {w : WriteResult} (hvalid : s.conn.outputBuffer.Valid)
    (hw : w.Within s.conn.outputBuffer.readableBytes)
    (hout : EpollFlag.EPOLLOUT ∈ s.conn.channel.revents)
    (h : s.handleWrite w = some (s', out)) :
    Stays s out s' ∨ s.conn.state = .KDisconnecting ∧ s.drains w ∧ Closes out s' ∧
      s'.conn.outputBuffer.readable = [] := by
  have hsame : Stays s [] { s with pc := .phase .done } := .of_eq rfl rfl rfl (by simp)
  rcases handleWrite_eq_some h with ⟨n, b, s₁, hwriting, rfl, hpos, hb, hs₁, h⟩ | ⟨rfl, rfl⟩
  · have hn : n ≤ s.conn.outputBuffer.readableBytes := hw
    obtain ⟨b', hb', hvalid', -⟩ := Buffer.retrieve_spec hvalid hn
    rw [hb', Option.some.injEq] at hb
    subst hb
    have htaken : Stays s [] s₁ := by
      rw [hs₁]
      exact ⟨⟨[], by simp⟩, List.prefix_append _ _, Iff.rfl, id, by simp⟩
    rcases h with ⟨hempty, h⟩ | ⟨-, rfl, rfl⟩
    · have hnil : b'.readable = [] := by
        rw [← List.length_eq_zero_iff, hvalid'.length_readable, hempty]
      have hall : n = s.conn.outputBuffer.readableBytes :=
        Buffer.eq_readableBytes_of_retrieve hb' hempty
      refine (writeComplete_cases h).imp htaken.trans fun ⟨hstate, hcloses⟩ => ?_
      rw [hs₁] at hstate
      refine ⟨hstate, ⟨hout, hwriting, by rw [hall], hall ▸ hpos⟩, hcloses, ?_⟩
      rw [(Frame.writeComplete h).outputBuffer, hs₁]
      exact hnil
    · exact Or.inl htaken
  · exact Or.inl hsame

/-! ### Between `forceClose` and the end -/

section Run

variable [DecidableEq τ] {t : List (ConnEvent τ)} {act : ConnAct τ}

/-- The calls of `send` before `forceClose` was called on the connected connection, that is, before
`state_` became `KDisconnecting`. -/
def sentBefore (t : List (ConnEvent τ)) : List (Option τ × List UInt8) :=
  calls (t.takeWhile (· ≠ .setState .KDisconnecting))

/-- What is sent after the call of `forceClose` is not sent before it. -/
lemma sentBefore_append_of_mem (t' : List (ConnEvent τ)) (h : .setState .KDisconnecting ∈ t) :
    sentBefore (t ++ t') = sentBefore t := by
  unfold sentBefore
  rw [List.takeWhile_append, if_neg]
  intro hlen
  have hall : t.takeWhile (· ≠ .setState .KDisconnecting) = t :=
    (List.takeWhile_prefix _).eq_of_length hlen
  rw [List.takeWhile_eq_self_iff] at hall
  simpa using hall _ h

/-- Everything sent so far is sent before it. -/
lemma sentBefore_append_forceClose (h : .setState .KDisconnecting ∉ t) :
    sentBefore (t ++ [.setState .KDisconnecting]) = calls t := by
  unfold sentBefore
  have hall : t.takeWhile (· ≠ .setState .KDisconnecting) = t := by
    rw [List.takeWhile_eq_self_iff]
    intro x hx
    have hne : x ≠ .setState .KDisconnecting := by
      rintro rfl
      exact h hx
    simpa using hne
  rw [List.takeWhile_append, if_pos (by rw [hall])]
  simp

/-- The kernel has taken every byte of what the caller had sent before `forceClose`. -/
def SentAccepted (t : List (ConnEvent τ)) (s : ConnLoop τ) (caller : Option τ) : Prop :=
  ∃ ms, ms <+: bodies t ∧ ms.flatMap Prod.snd <+: s.accepted ∧
    (sentBefore t).filter (·.1 = caller) <+: ms.filter (·.1 = caller)

/-- `forceCloseInLoop` finds no backlog, and `handleWrite` does not close the connection while a
message is still queued ahead of `forceCloseInLoop`. -/
def CloseSafe (s : ConnLoop τ) : ConnAct τ → Prop
  | .runTask _ => s.tasks.head? = some .forceCloseInLoop → s.isOpen →
      s.conn.outputBuffer.readableBytes = 0
  | .testWrite w => s.conn.state = .KDisconnecting → s.drains w → sendsAhead s.tasks = []
  | _ => True

instance (t : List (ConnEvent τ)) (s : ConnLoop τ) (caller : Option τ) :
    Decidable (SentAccepted t s caller) :=
  decidable_of_iff (∃ ms ∈ (bodies t).inits, ms.flatMap Prod.snd <+: s.accepted ∧
    (sentBefore t).filter (·.1 = caller) <+: ms.filter (·.1 = caller))
    (by simp only [SentAccepted, List.mem_inits])

instance (s : ConnLoop τ) (act : ConnAct τ) : Decidable (s.CloseSafe act) := by
  apply ConnAct.casesOn (motive := fun act => Decidable (s.CloseSafe act)) act <;>
    intros <;> unfold CloseSafe <;> infer_instance

/-- What holds before `forceClose`, after it, and when the connection is down. -/
structure CloseInv (t : List (ConnEvent τ)) (s : ConnLoop τ) : Prop where
  before : .setState .KDisconnecting ∉ t → s.conn.state ≠ .KDisconnecting ∧
    (s.conn.state ≠ .KDisconnected → .forceCloseInLoop ∉ s.tasks)
  after : .setState .KDisconnecting ∈ t → s.conn.state = .KDisconnected ∨
    s.conn.state = .KDisconnecting ∧ .forceCloseInLoop ∈ s.tasks ∧ ∀ caller,
      (sentBefore t).filter (·.1 = caller) <+:
        (bodies t).filter (·.1 = caller) ++ (sendsAhead s.tasks).filter (·.1 = caller)
  down : .setState .KDisconnecting ∈ t → s.conn.state = .KDisconnected →
    ∀ caller, SentAccepted t s caller

namespace CloseInv

/-- A connection that is down stays as it is. -/
lemma of_down (h : CloseInv t s) (hdown : s.conn.state = .KDisconnected)
    (hdown' : s'.conn.state = .KDisconnected) (haccepted : s.accepted <+: s'.accepted)
    (hout : .setState .KDisconnecting ∉ out) : CloseInv (t ++ out) s' := by
  refine ⟨fun _ => ⟨by rw [hdown']; decide, fun hne => absurd hdown' hne⟩,
    fun _ => Or.inl hdown', fun hmem _ caller => ?_⟩
  have hmem' : .setState .KDisconnecting ∈ t := (List.mem_append.mp hmem).resolve_right hout
  obtain ⟨ms, hms, hbytes, hsent⟩ := h.down hmem' hdown caller
  rw [SentAccepted, sentBefore_append_of_mem out hmem', bodies_append]
  exact ⟨ms, hms.trans (List.prefix_append _ _), hbytes.trans haccepted, hsent⟩

/-- A function that does not close the connection has run, perhaps after its task was taken out of
the queue.  A message that was ahead of `forceCloseInLoop` is still there, or was handed to
`sendInLoop`. -/
lemma keeps (h : CloseInv t s) {tasks : List (ConnTask τ)}
    (hstays : Stays { s with tasks := tasks } out s')
    (hqueue : .forceCloseInLoop ∈ tasks ↔ .forceCloseInLoop ∈ s.tasks)
    (hahead : ∀ caller, (sendsAhead s.tasks).filter (·.1 = caller) <+:
      (bodies out).filter (·.1 = caller) ++ (sendsAhead tasks).filter (·.1 = caller)) :
    CloseInv (t ++ out) s' := by
  by_cases hdown : s.conn.state = .KDisconnected
  · exact h.of_down hdown (hstays.down hdown) hstays.accepted hstays.events
  obtain ⟨l, htasks, hl⟩ := hstays.tasks
  have hmem : .setState .KDisconnecting ∈ t ++ out → .setState .KDisconnecting ∈ t :=
    fun hmem => (List.mem_append.mp hmem).resolve_right hstays.events
  refine ⟨fun hnot => ?_, fun hmem' => ?_, fun hmem' hdown' => ?_⟩
  · obtain ⟨hstate, hnone⟩ := h.before fun hmem' => hnot (List.mem_append_left _ hmem')
    refine ⟨fun hclosing => hstate (hstays.closing.mp hclosing), fun _ hmem' => ?_⟩
    rw [htasks] at hmem'
    exact (List.mem_append.mp hmem').elim (fun hmem' => hnone hdown (hqueue.mp hmem')) hl
  · obtain ⟨hstate, hqueued, hsent⟩ := (h.after (hmem hmem')).resolve_left hdown
    refine Or.inr ⟨hstays.closing.mpr hstate, ?_, fun caller => ?_⟩
    · rw [htasks]
      exact List.mem_append_left _ (hqueue.mpr hqueued)
    · rw [sentBefore_append_of_mem out (hmem hmem'), htasks,
        sendsAhead_append_of_mem l (hqueue.mpr hqueued), bodies_append, List.filter_append,
        List.append_assoc]
      exact (hsent caller).trans ((List.prefix_append_right_inj _).mpr (hahead caller))
  · obtain ⟨hstate, -, -⟩ := (h.after (hmem hmem')).resolve_left hdown
    rw [hstays.closing.mpr hstate] at hdown'
    cases hdown'

/-- A step that does not close the connection, when only the loop thread sends in it. -/
lemma stays (h : CloseInv t s) (hstays : Stays s out s') (hbodies : ∀ m ∈ bodies out, m.1 = none) :
    CloseInv (t ++ out) s' := by
  refine h.keeps hstays Iff.rfl fun caller => ?_
  by_cases hcaller : caller = none
  · have hnone : (sendsAhead s.tasks).filter (·.1 = caller) = [] := by
      rw [List.filter_eq_nil_iff]
      intro m hm
      simpa [hcaller] using fst_ne_none_of_mem_sendsAhead hm
    rw [hnone]
    exact List.nil_prefix
  · have hnone : (bodies out).filter (·.1 = caller) = [] := by
      rw [List.filter_eq_nil_iff]
      intro m hm
      simpa [hbodies m hm] using fun heq => hcaller heq.symm
    rw [hnone, List.nil_append]

/-- A task other than `forceCloseInLoop` and the messages is run. -/
lemma runOther (h : CloseInv t s) {task : ConnTask τ} {tasks : List (ConnTask τ)}
    (htasks : s.tasks = task :: tasks) (hne : task ≠ .forceCloseInLoop)
    (hsends : queuedSends [task] = []) (hstays : Stays { s with tasks := tasks } out s')
    (hbodies : bodies out = []) : CloseInv (t ++ out) s' := by
  have hahead : sendsAhead s.tasks = sendsAhead tasks := by
    rw [htasks]
    cases task with
    | forceCloseInLoop => exact absurd rfl hne
    | sendInLoop poster message => cases hsends
    | _ => rfl
  refine h.keeps hstays ?_ fun caller => ?_
  · rw [htasks, List.mem_cons, or_iff_right hne.symm]
  · rw [hahead, hbodies, List.filter_nil, List.nil_append]

/-- The next task sends a posted message. -/
lemma runSend (h : CloseInv t s) {poster : τ} {message : List UInt8} {tasks : List (ConnTask τ)}
    (htasks : s.tasks = .sendInLoop poster message :: tasks)
    (hstays : Stays { s with tasks := tasks } [] s') :
    CloseInv (t ++ [.bodyRan (some poster) message]) s' := by
  refine h.keeps (hstays.emit (by simp)) ?_ fun caller => ?_
  · rw [htasks, List.mem_cons, or_iff_right (by simp)]
  · have hbodies : bodies [ConnEvent.bodyRan (some poster) message] =
        [(some poster, message)] := rfl
    have hahead : sendsAhead s.tasks = [(some poster, message)] ++ sendsAhead tasks := by
      rw [htasks]
      rfl
    rw [hbodies, hahead, List.filter_append]

/-- The connection is closed when nothing is left in the backlog and ahead of
`forceCloseInLoop`. -/
lemma closes (h : CloseInv t s) (hstate : s.conn.state = .KDisconnecting)
    (hahead : sendsAhead s.tasks = []) (hcloses : Closes out s')
    (haccepted : s'.accepted = (bodies t).flatMap Prod.snd) : CloseInv (t ++ out) s' := by
  have hmem : .setState .KDisconnecting ∈ t := by
    by_contra hnot
    exact (h.before hnot).1 hstate
  refine ⟨fun hnot => absurd (List.mem_append_left _ hmem) hnot, fun _ => Or.inl hcloses.down,
    fun _ _ caller => ?_⟩
  obtain ⟨-, -, hsent⟩ := (h.after hmem).resolve_left (by rw [hstate]; decide)
  have hprefix := hsent caller
  rw [hahead, List.filter_nil, List.append_nil] at hprefix
  rw [SentAccepted, sentBefore_append_of_mem out hmem, bodies_append]
  exact ⟨bodies t, List.prefix_append _ _, haccepted ▸ List.prefix_rfl, hprefix⟩

/-- `forceClose` is called. -/
lemma forceClose (h : CloseInv t s) (hstream : StreamInv t s) :
    CloseInv (t ++ s.forceClose.2) s.forceClose.1 := by
  unfold ConnLoop.forceClose
  split
  · next hopen =>
    have hstate : s.conn.state ≠ .KDisconnected := by
      rcases hopen with hstate | hstate <;> rw [hstate] <;> decide
    refine ⟨fun hnot => absurd (List.mem_append_right _ List.mem_cons_self) hnot,
      fun _ => Or.inr ⟨rfl, List.mem_append_right _ List.mem_cons_self, fun caller => ?_⟩,
      fun _ hdown => by cases hdown⟩
    have hbodies : bodies ([.setState .KDisconnecting] : List (ConnEvent τ)) = [] := rfl
    rw [bodies_append, hbodies, List.append_nil]
    by_cases hmem : .setState .KDisconnecting ∈ t
    · -- not the first one
      obtain ⟨-, hqueue, hsent⟩ := (h.after hmem).resolve_left hstate
      rw [sentBefore_append_of_mem _ hmem]
      simp only [queueInLoop, sendsAhead_append_of_mem _ hqueue]
      exact hsent caller
    · rw [sentBefore_append_forceClose hmem]
      simp only [queueInLoop, sendsAhead_append_forceCloseInLoop ((h.before hmem).2 hstate)]
      rw [hstream.order caller]
  · rw [List.append_nil]
    exact h

/-- A task is run. -/
lemma runTask (h : CloseInv t s) (hstream : StreamInv t s) {w : WriteResult}
    (hsafe : s.CloseSafe (.runTask w)) (hstep : s.runTask w = some (s', out)) :
    CloseInv (t ++ out) s' := by
  unfold ConnLoop.runTask at hstep
  split at hstep
  · cases hstep
    exact h.stays (.of_eq rfl rfl rfl (by simp)) (by simp [bodies])
  · next task tasks htasks =>
    cases task with
    | sendInLoop poster message =>
      obtain ⟨s₁, hs₁, heq⟩ := Option.map_eq_some_iff.mp hstep
      cases heq
      rw [sendInLoopString, ConnLoop.send] at hs₁
      exact h.runSend htasks (.sendInLoop hs₁)
    | connectEstablished =>
      exact h.runOther htasks (by simp) rfl (.connectEstablished hstep)
        (Frame.connectEstablished hstep).bodies
    | connectDestroyed =>
      exact h.runOther htasks (by simp) rfl (.connectDestroyed hstep)
        (Frame.connectDestroyed hstep).bodies
    | writeCompleteCallback =>
      cases hstep
      exact h.runOther htasks (by simp) rfl (.of_eq rfl rfl rfl (by simp)) rfl
    | highWaterMarkCallback size =>
      cases hstep
      exact h.runOther htasks (by simp) rfl (.of_eq rfl rfl rfl (by simp)) rfl
    | forceCloseInLoop =>
      dsimp only at hstep
      have hqueued : .forceCloseInLoop ∈ s.tasks := by
        rw [htasks]
        exact List.mem_cons_self
      have hstate : s.conn.state = .KDisconnected ∨ s.conn.state = .KDisconnecting := by
        by_cases hmem : .setState .KDisconnecting ∈ t
        · exact (h.after hmem).imp_right And.left
        · left
          by_contra hdown
          exact (h.before hmem).2 hdown hqueued
      rcases hstate with hdown | hclosing
      · rcases forceCloseInLoop_eq_some hstep with hclose | ⟨-, rfl, rfl⟩
        · exact absurd (handleClose_eq_some hclose).1 (by simp [isOpen, hdown])
        · exact h.of_down hdown hdown List.prefix_rfl (by simp)
      · have hempty := hsafe (by rw [htasks]; rfl) (Or.inr hclosing)
        have hopen : ({ s with tasks := tasks } : ConnLoop τ).isOpen := Or.inr hclosing
        refine h.closes hclosing (by rw [htasks]; rfl) (forceCloseInLoop_closes hopen hstep) ?_
        have hnil : s.conn.outputBuffer.readable = [] := by
          rw [← List.length_eq_zero_iff, hstream.valid.length_readable, hempty]
        have hbytes := hstream.stream (by rw [hclosing]; decide)
        rw [hnil, List.append_nil] at hbytes
        exact (Frame.forceCloseInLoop hstep).accepted.trans hbytes

/-- A step keeps the invariant. -/
theorem step (h : CloseInv t s) (hstream : StreamInv t s) (hpre : s.pre act) (hquiet : s.Quiet act)
    (hsafe : s.CloseSafe act) (hstep : s.step act = some (s', out)) : CloseInv (t ++ out) s' := by
  cases act with
  | postSend caller message =>
    cases hstep
    exact h.stays ((Stays.queueInLoop s (by simp)).emit (by simp)) (by simp [bodies])
  | send message w =>
    obtain ⟨s₁, hs₁, heq⟩ := Option.map_eq_some_iff.mp hstep
    cases heq
    exact h.stays ((Stays.sendInLoop hs₁).emit (by simp)) (by simp [bodies])
  | forceClose =>
    have heq : s.forceClose = (s', out) := Option.some.inj hstep
    have hinv := h.forceClose hstream
    rwa [heq] at hinv
  | retrieve len =>
    obtain ⟨b, -, heq⟩ := Option.bind_eq_some_iff.mp hstep
    cases heq
    exact h.stays (.of_eq rfl rfl rfl (by simp)) (by simp [bodies])
  | connectEstablished =>
    exact h.stays (.connectEstablished hstep) (by simp [(Frame.connectEstablished hstep).bodies])
  | runTask w => exact h.runTask hstream hsafe hstep
  | removeConnectionInLoop =>
    obtain ⟨s₁, hs₁, heq⟩ := Option.map_eq_some_iff.mp hstep
    cases heq
    have howner : Stays s [] { s with owner := { s.owner with posted := s.owner.posted - 1 } } :=
      .of_eq rfl rfl rfl (by simp)
    exact h.stays (howner.trans (.removeConnectionInLoop hs₁)) (by simp [bodies])
  | testClose =>
    simp only [ConnLoop.step, if_neg hquiet] at hstep
    cases hstep
    exact h.stays (.of_eq rfl rfl rfl (by simp)) (by simp [bodies])
  | testRead r =>
    simp only [ConnLoop.step] at hstep
    split at hstep
    · next hread =>
      exact h.stays (.handleRead (hquiet hread) hstep) (by simp [(Frame.handleRead hstep).bodies])
    · cases hstep
      exact h.stays (.of_eq rfl rfl rfl (by simp)) (by simp [bodies])
  | testWrite w =>
    simp only [ConnLoop.step] at hstep
    split at hstep
    · next hout =>
      have hdrained := handleWrite_drained hstream.valid hpre.2 hstep
      rcases handleWrite_cases hstream.valid hpre.2 hout hstep with
        hstays | ⟨hstate, hdrains, hcloses, hempty⟩
      · exact h.stays hstays (by simp [hdrained.bodies])
      · refine h.closes hstate (hsafe hstate hdrains) hcloses ?_
        rw [← hstream.stream (by rw [hstate]; decide), ← hdrained.stream, hempty, List.append_nil]
    · cases hstep
      exact h.stays (.of_eq rfl rfl rfl (by simp)) (by simp [bodies])
  | callbackReturns =>
    exact h.stays (.callbackReturns hstep) (by simp [(Frame.callbackReturns hstep).bodies])
  | _ =>
    cases hstep
    exact h.stays (.of_eq rfl rfl rfl (by simp)) (by simp [bodies])

end CloseInv

/-- In every run of a connection whose writes are partial or block, whose peer neither closes nor
resets it, and all of whose steps are `CloseSafe`: once `forceClose` has been called on the
connected connection and it is down, the kernel has taken every byte that any caller had sent
before. -/
theorem forceClose_keeps_data {kind : OwnerKind} {address fd highWaterMark : ℕ}
    {connectionCallback writeCompleteCallback highWaterMarkCallback handling : Bool}
    {poller : EPollPoller}
    (h : (((connMachine τ).restrict Quiet).restrict CloseSafe).Run
      (newConnection kind (.new address fd highWaterMark connectionCallback writeCompleteCallback
        highWaterMarkCallback) poller handling) t s)
    (hclose : .setState .KDisconnecting ∈ t) (hdown : s.conn.state = .KDisconnected)
    (caller : Option τ) : SentAccepted t s caller := by
  have hinv : StreamInv t s ∧ CloseInv t s := by
    refine h.invariant (fun t s => StreamInv t s ∧ CloseInv t s) ⟨?_, ?_⟩
      fun t s act s' out hinv hpre hstep => ⟨hinv.1.step hpre.1.1 hpre.1.2.noReset hstep,
        hinv.2.step hinv.1 hpre.1.1 hpre.1.2 hpre.2 hstep⟩
    · exact .newConnection
    · refine ⟨fun _ => ⟨by simp [newConnection, TcpConnection.new], fun _ => ?_⟩,
        fun hmem => absurd hmem List.not_mem_nil, fun hmem => absurd hmem List.not_mem_nil⟩
      simp only [newConnection]
      split <;> simp
  exact hinv.2.down hclose hdown caller

/-- The loop thread sends and the kernel takes a part, another thread sends, and when the backlog
has been drained it calls `forceClose`. -/
theorem forceClose_keeps_data_two :
    ∃ t s, (((connMachine ℕ).restrict Quiet).restrict CloseSafe).Run
        (newConnection .serverSameLoop (.new 1 5 64 true true true) emptyPoller true) t s ∧
      (sentBefore t = [(none, [1, 2]), (some 7, [3])] ∧ s.accepted = [1, 2, 3]) ∧
      SentAccepted t s (some 7) := by
  obtain ⟨t, s, hrun, hmem, hdown, hs⟩ :=
    (((connMachine ℕ).restrict Quiet).restrict CloseSafe).exists_run_of_exec
      (newConnection .serverSameLoop (.new 1 5 64 true true true) emptyPoller true)
      [.connectEstablished, .send [1, 2] (.ok 1), .callbackReturns, .endHandling, .postSend 7 [3],
        .poll {.EPOLLOUT}, .handleEvent, .testClose, .testError, .testRead (.error 0),
        .testWrite (.ok 1), .forceClose, .endEvent, .endHandling, .runTask (.ok 1),
        .runTask (.ok 0), .runTask (.ok 0)]
      (fun s t => .setState .KDisconnecting ∈ t ∧ s.conn.state = .KDisconnected ∧
        sentBefore t = [(none, [1, 2]), (some 7, [3])] ∧ s.accepted = [1, 2, 3])
      (by decide +kernel)
  exact ⟨t, s, hrun, hs, forceClose_keeps_data hrun hmem hdown (some 7)⟩

/-- Data is lost in two ways.  The loop thread sends three bytes, of which the kernel takes one,
and calls `forceClose`; and a thread posts a message and calls `forceClose`, and before the loop
comes to the queue `handleWrite` drains a backlog. -/
theorem forceClose_loses_data :
    (∃ t s, ((connMachine ℕ).restrict Quiet).Run
        (newConnection .serverSameLoop (.new 1 5 64 true true true) emptyPoller true) t s ∧
      .setState .KDisconnecting ∈ t ∧ s.conn.state = .KDisconnected ∧
      ¬ SentAccepted t s none) ∧
    ∃ t s, ((connMachine ℕ).restrict Quiet).Run
        (newConnection .serverSameLoop (.new 1 5 64 true true true) emptyPoller true) t s ∧
      .setState .KDisconnecting ∈ t ∧ s.conn.state = .KDisconnected ∧
      ¬ SentAccepted t s (some 7) := by
  refine ⟨((connMachine ℕ).restrict Quiet).exists_run_of_exec _
    [.connectEstablished, .send [1, 2, 3] (.ok 1), .forceClose, .callbackReturns, .endHandling,
      .runTask (.ok 0)] _ (by decide +kernel), ?_⟩
  exact ((connMachine ℕ).restrict Quiet).exists_run_of_exec _
    [.connectEstablished, .send [1, 2] (.ok 1), .callbackReturns, .endHandling, .postSend 7 [3],
      .forceClose, .poll {.EPOLLOUT}, .handleEvent, .testClose, .testError, .testRead (.error 0),
      .testWrite (.ok 1)] _ (by decide +kernel)

end Run

end ConnLoop

end MuduoServer
