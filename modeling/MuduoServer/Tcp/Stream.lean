import MuduoServer.Tcp.Basic

/-!
# The output stream

What has been handed to `sendInLoop` leaves the process in order and complete: before the connection
is down, the bytes that the kernel has taken followed by those in `outputBuffer_` are the messages,
one after the other.  Only two functions move bytes, `sendInLoop` and `handleWrite`; all others are
covered by `Frame`.

The messages of one thread are sent in the order of its calls, since its posted copies go through
the queue of the loop and a call on the loop thread runs at once.
-/

namespace MuduoServer

/-- A `size_t` below `2 ^ 31` survives the conversions to `int` and back. -/
lemma sizeOfInt_intOfSize {n : ℕ} (h : n < 2 ^ 31) : sizeOfInt (intOfSize n) = n := by
  have hint : intOfSize n = n := by
    unfold intOfSize
    rw [Int.bmod_eq_of_le (by omega) (by omega)]
  rw [hint]
  unfold sizeOfInt
  omega

/-- An `int` that is not negative survives the conversion to `size_t`. -/
lemma sizeOfInt_natCast {n : ℕ} (h : n < 2 ^ 31) : sizeOfInt n = n := by
  unfold sizeOfInt
  omega

/-- A write that does not find the connection reset. -/
def WriteResult.NotReset (w : WriteResult) : Prop := w ≠ .error .EPIPE ∧ w ≠ .error .ECONNRESET

instance (w : WriteResult) : Decidable w.NotReset := inferInstanceAs (Decidable (_ ∧ _))

namespace ConnLoop

variable {τ : Type} {s s' : ConnLoop τ} {out : List (ConnEvent τ)}

/-- The messages whose posted `sendInLoop` is in the queue, with their posters. -/
def queuedSends (tasks : List (ConnTask τ)) : List (Option τ × List UInt8) :=
  tasks.filterMap fun
    | .sendInLoop poster message => some (some poster, message)
    | _ => none

/-- The messages in two queues. -/
@[simp] lemma queuedSends_append (l l' : List (ConnTask τ)) :
    queuedSends (l ++ l') = queuedSends l ++ queuedSends l' := List.filterMap_append

/-- A task that is not a message may be queued. -/
lemma queuedSends_append_ite (c : Prop) [Decidable c] (l : List (ConnTask τ)) {task : ConnTask τ}
    (h : queuedSends [task] = []) :
    queuedSends (l ++ if c then [task] else []) = queuedSends l := by
  split
  · rw [queuedSends_append, h, List.append_nil]
  · rw [List.append_nil]

/-- The calls of `send` in a trace, with their callers. -/
def calls (t : List (ConnEvent τ)) : List (Option τ × List UInt8) :=
  t.filterMap fun
    | .called caller message => some (caller, message)
    | _ => none

/-- The messages for which `sendInLoop(const void*, size_t)` ran, with their callers. -/
def bodies (t : List (ConnEvent τ)) : List (Option τ × List UInt8) :=
  t.filterMap fun
    | .bodyRan caller message => some (caller, message)
    | _ => none

/-- The calls in two traces. -/
@[simp] lemma calls_append (t t' : List (ConnEvent τ)) : calls (t ++ t') = calls t ++ calls t' :=
  List.filterMap_append

/-- The bodies that ran in two traces. -/
@[simp] lemma bodies_append (t t' : List (ConnEvent τ)) :
    bodies (t ++ t') = bodies t ++ bodies t' := List.filterMap_append

/-- What a function keeps that moves no bytes and neither calls, posts nor runs `send`. -/
structure Frame (s : ConnLoop τ) (out : List (ConnEvent τ)) (s' : ConnLoop τ) : Prop where
  accepted : s'.accepted = s.accepted
  outputBuffer : s'.conn.outputBuffer = s.conn.outputBuffer
  sends : queuedSends s'.tasks = queuedSends s.tasks
  down : s.conn.state = .KDisconnected → s'.conn.state = .KDisconnected
  calls : calls out = []
  bodies : bodies out = []

namespace Frame

/-- To do nothing moves no bytes. -/
lemma refl (s : ConnLoop τ) : Frame s [] s := ⟨rfl, rfl, rfl, id, rfl, rfl⟩

/-- First a change without events, then the rest. -/
lemma trans {s'' : ConnLoop τ} (h : Frame s [] s') (h' : Frame s' out s'') : Frame s out s'' where
  accepted := h'.accepted.trans h.accepted
  outputBuffer := h'.outputBuffer.trans h.outputBuffer
  sends := h'.sends.trans h.sends
  down hdown := h'.down (h.down hdown)
  calls := h'.calls
  bodies := h'.bodies

/-- Queueing a task that is not a message. -/
lemma queueInLoop (s : ConnLoop τ) {task : ConnTask τ} (h : queuedSends [task] = []) :
    Frame s [] (s.queueInLoop task) where
  accepted := rfl
  outputBuffer := rfl
  sends := by
    simp only [ConnLoop.queueInLoop, queuedSends_append, h, List.append_nil]
  down := id
  calls := rfl
  bodies := rfl

/-- `handleClose` moves no bytes: what is in `outputBuffer_` stays there. -/
lemma handleClose {k : Option Phase} (h : s.handleClose k = some (s', out)) : Frame s out s' := by
  obtain ⟨-, r, -, rfl, rfl⟩ := handleClose_eq_some h
  refine ⟨rfl, rfl, rfl, fun _ => rfl, ?_, ?_⟩
  · split <;> rfl
  · split <;> rfl

/-- Nor does `forceCloseInLoop`. -/
lemma forceCloseInLoop {k : Option Phase} (h : s.forceCloseInLoop k = some (s', out)) :
    Frame s out s' := by
  rcases forceCloseInLoop_eq_some h with h | ⟨-, rfl, rfl⟩
  · exact handleClose h
  · exact ⟨rfl, rfl, rfl, id, rfl, rfl⟩

/-- Nor does `forceClose`. -/
lemma forceClose (h : s.forceClose = (s', out)) : Frame s out s' := by
  rcases forceClose_eq h with ⟨hopen, rfl, rfl⟩ | ⟨-, rfl, rfl⟩
  · refine ⟨rfl, rfl, (queueInLoop _ rfl).sends, fun hdown => ?_, rfl, rfl⟩
    rcases hopen with hstate | hstate <;> rw [hdown] at hstate <;> cases hstate
  · exact refl _

/-- Nor does `connectEstablished`. -/
lemma connectEstablished (h : s.connectEstablished = some (s', out)) : Frame s out s' := by
  obtain ⟨hstate, r, -, rfl, rfl⟩ := connectEstablished_eq_some h
  refine ⟨rfl, rfl, rfl, fun hdown => ?_, ?_, ?_⟩
  · rw [hdown] at hstate
    cases hstate
  · split <;> rfl
  · split <;> rfl

/-- Nor does `connectDestroyed`. -/
lemma connectDestroyed (h : s.connectDestroyed = some (s', out)) : Frame s out s' := by
  obtain ⟨s₁, r, h₁, -, rfl⟩ := connectDestroyed_eq_some h
  have hfirst : Frame s out s₁ := by
    rcases takeDown_eq_some h₁ with ⟨-, r', -, rfl, rfl⟩ | ⟨-, rfl, rfl⟩
    · exact ⟨rfl, rfl, rfl, fun _ => rfl, rfl, rfl⟩
    · exact refl _
  exact ⟨hfirst.accepted, hfirst.outputBuffer, hfirst.sends, hfirst.down, hfirst.calls,
    hfirst.bodies⟩

/-- Nor does what the server does. -/
lemma removeConnectionInLoop (h : s.removeConnectionInLoop = some s') : Frame s [] s' := by
  obtain ⟨-, rfl⟩ := removeConnectionInLoop_eq_some h
  exact ⟨rfl, rfl, (queueInLoop _ rfl).sends, id, rfl, rfl⟩

/-- Nor does the close callback. -/
lemma closeCallback (h : s.closeCallback = some (s', out)) : Frame s out s' := by
  have howner : ∀ owner : ConnOwner, Frame s [] { s with owner := owner } :=
    fun owner => ⟨rfl, rfl, rfl, id, rfl, rfl⟩
  rcases closeCallback_eq_some h with ⟨-, hremove, rfl⟩ | ⟨-, rfl, rfl⟩ | ⟨-, h⟩
  · exact removeConnectionInLoop hremove
  · exact howner _
  · exact (howner _).trans (connectDestroyed h)

/-- `handleRead` moves bytes in the other direction only. -/
lemma handleRead {r : ReadResult} (h : s.handleRead r = some (s', out)) : Frame s out s' := by
  obtain ⟨r', -, ⟨rfl, rfl⟩ | ⟨-, h⟩ | ⟨rfl, rfl⟩⟩ := handleRead_eq_some h
  · exact ⟨rfl, rfl, rfl, id, rfl, rfl⟩
  · have hread : Frame s [] { s with conn := { s.conn with inputBuffer := r'.1 } } :=
      ⟨rfl, rfl, rfl, id, rfl, rfl⟩
    exact hread.trans (handleClose h)
  · exact ⟨rfl, rfl, rfl, id, rfl, rfl⟩

/-- The end of a write finds nothing to move. -/
lemma writeComplete (h : s.writeComplete = some (s', out)) : Frame s out s' := by
  obtain ⟨r, s₁, -, hs₁, h⟩ := writeComplete_eq_some h
  have hframe : Frame s [] s₁ := by
    rw [hs₁]
    exact ⟨rfl, rfl, queuedSends_append_ite _ _ rfl, id, rfl, rfl⟩
  rcases h with ⟨-, h⟩ | ⟨-, rfl, rfl⟩
  · exact hframe.trans (forceCloseInLoop h)
  · exact hframe

/-- What follows a callback of the user moves no bytes. -/
lemma callbackReturns (h : s.callbackReturns = some (s', out)) : Frame s out s' := by
  have hpc : ∀ pc : ConnPc, Frame s [] { s with pc := pc } :=
    fun pc => ⟨rfl, rfl, rfl, id, rfl, rfl⟩
  rcases callbackReturns_eq_some h with ⟨-, rfl, rfl⟩ | ⟨-, rfl, rfl⟩ |
    ⟨k, out', -, hclose, rfl⟩ | ⟨-, rfl, rfl⟩
  · exact hpc _
  · exact hpc _
  · have hrest := (hpc _).trans (closeCallback hclose)
    exact ⟨hrest.accepted, hrest.outputBuffer, hrest.sends, hrest.down, hrest.calls, hrest.bodies⟩
  · exact refl _

end Frame

/-! ### The functions that move bytes -/

/-- What the first half of `sendInLoop` does with a whole message, when the write does not find the
connection reset. -/
structure DirectSpec (s : ConnLoop τ) (message : List UInt8) (r : ConnLoop τ × Direct) : Prop where
  conn : r.1.conn = s.conn
  sends : queuedSends r.1.tasks = queuedSends s.tasks
  nwrote_le : r.2.nwrote ≤ message.length
  remaining : r.2.remaining = message.length - r.2.nwrote
  faultError : r.2.faultError = false
  accepted : r.1.accepted = s.accepted ++ message.take r.2.nwrote
  /-- Nothing is written past a backlog. -/
  backlog : r.2.nwrote = 0 ∨ s.conn.outputBuffer.readableBytes = 0

/-- The direct write takes a part from the front of the message. -/
lemma direct_spec {message : List UInt8} {w : WriteResult} (hw : w.Within message.length)
    (hreset : w.NotReset) : DirectSpec s message (s.direct message message.length w) := by
  unfold direct
  split
  · next hdirect =>
    cases w with
    | ok n =>
      have hn : n ≤ message.length := hw
      simp only [ite_queueInLoop]
      exact ⟨rfl, queuedSends_append_ite _ _ rfl, hn, rfl, rfl, rfl, Or.inr hdirect.2⟩
    | error errno =>
      refine ⟨rfl, rfl, Nat.zero_le _, rfl, ?_, by simp, Or.inl rfl⟩
      simpa [WriteResult.NotReset] using hreset
  · exact ⟨rfl, rfl, Nat.zero_le _, rfl, rfl, by simp, Or.inl rfl⟩

/-- What the second half of `sendInLoop` does. -/
structure Backlogged (s : ConnLoop τ) (data : List UInt8) (s' : ConnLoop τ) : Prop where
  state : s'.conn.state = s.conn.state
  sends : queuedSends s'.tasks = queuedSends s.tasks
  accepted : s'.accepted = s.accepted
  valid : s'.conn.outputBuffer.Valid
  readable : s'.conn.outputBuffer.readable = s.conn.outputBuffer.readable ++ data

/-- The backlog appends the rest. -/
lemma backlog_spec {data : List UInt8} (hvalid : s.conn.outputBuffer.Valid)
    (h : s.backlog data = some s') : Backlogged s data s' := by
  obtain ⟨b, s₁, hb, rfl, hrest⟩ := backlog_eq_some h
  obtain ⟨b', hb', hvalid', hread⟩ := Buffer.append_spec hvalid data
  rw [hb', Option.some.injEq] at hb
  subst hb
  rcases hrest with ⟨-, rfl⟩ | ⟨-, r, -, rfl⟩
  · exact ⟨rfl, queuedSends_append_ite _ _ rfl, rfl, hvalid', hread⟩
  · exact ⟨rfl, queuedSends_append_ite _ _ rfl, rfl, hvalid', hread⟩

/-- What `sendInLoop` does with a whole message. -/
structure Sent (s : ConnLoop τ) (message : List UInt8) (s' : ConnLoop τ) : Prop where
  state : s'.conn.state = s.conn.state
  sends : queuedSends s'.tasks = queuedSends s.tasks
  valid : s'.conn.outputBuffer.Valid
  stream : s.conn.state ≠ .KDisconnected → s'.accepted ++ s'.conn.outputBuffer.readable =
    s.accepted ++ s.conn.outputBuffer.readable ++ message

/-- `sendInLoop` adds the message to the stream, be it to the kernel, to the backlog, or a part to
each. -/
theorem sendInLoop_sent {message : List UInt8} {w : WriteResult}
    (hvalid : s.conn.outputBuffer.Valid) (hw : w.Within message.length) (hreset : w.NotReset)
    (h : s.sendInLoop message message.length w = some s') : Sent s message s' := by
  obtain ⟨-, ⟨hdown, rfl⟩ | ⟨-, r, hr, -, hrest⟩⟩ := sendInLoop_eq_some h
  · exact ⟨rfl, rfl, hvalid, fun hup => absurd hdown hup⟩
  · have hdirect := direct_spec (s := s) hw hreset
    rw [hr] at hdirect
    obtain ⟨hconn, hsends, hle, hremaining, hfault, haccepted, hbacklog⟩ := hdirect
    have hempty : r.2.nwrote = 0 ∨ s.conn.outputBuffer.readable = [] := by
      refine hbacklog.imp_right fun hzero => ?_
      rw [← List.length_eq_zero_iff, hvalid.length_readable, hzero]
    rcases hrest with ⟨-, -, hdelayed⟩ | ⟨hzero, rfl⟩
    · have hdata : (message.drop r.2.nwrote).take r.2.remaining = message.drop r.2.nwrote := by
        rw [hremaining]
        exact List.take_of_length_le (by simp)
      rw [hdata] at hdelayed
      obtain ⟨hstate, hsends', haccepted', hvalid', hread⟩ :=
        backlog_spec (hconn ▸ hvalid) hdelayed
      refine ⟨hstate.trans (congrArg _ hconn), hsends'.trans hsends, hvalid', fun _ => ?_⟩
      rw [haccepted', haccepted, hread, hconn]
      rcases hempty with hzero | hnil
      · simp [hzero]
      · simp [hnil]
    · refine ⟨congrArg _ hconn, hsends, hconn ▸ hvalid, fun _ => ?_⟩
      have hall : r.2.nwrote = message.length := by
        simp only [hfault, true_and] at hzero
        omega
      rw [haccepted, hconn, hall, List.take_length]
      rcases hempty with hnone | hnil
      · have hmessage : message = [] := List.length_eq_zero_iff.mp (hall.symm.trans hnone)
        simp [hmessage]
      · simp [hnil]

/-- What `handleWrite` does to the stream: bytes go from the front of the backlog to the kernel. -/
structure Drained (s : ConnLoop τ) (out : List (ConnEvent τ)) (s' : ConnLoop τ) : Prop where
  sends : queuedSends s'.tasks = queuedSends s.tasks
  down : s.conn.state = .KDisconnected → s'.conn.state = .KDisconnected
  valid : s'.conn.outputBuffer.Valid
  stream : s'.accepted ++ s'.conn.outputBuffer.readable =
    s.accepted ++ s.conn.outputBuffer.readable
  calls : calls out = []
  bodies : bodies out = []

/-- A function that moves no bytes drains nothing. -/
lemma Frame.drained (h : Frame s out s') (hvalid : s.conn.outputBuffer.Valid) :
    Drained s out s' where
  sends := h.sends
  down := h.down
  valid := by
    rw [h.outputBuffer]
    exact hvalid
  stream := by rw [h.accepted, h.outputBuffer]
  calls := h.calls
  bodies := h.bodies

/-- `handleWrite` keeps the stream. -/
theorem handleWrite_drained {w : WriteResult} (hvalid : s.conn.outputBuffer.Valid)
    (hw : w.Within s.conn.outputBuffer.readableBytes) (h : s.handleWrite w = some (s', out)) :
    Drained s out s' := by
  have hsame : Drained s [] { s with pc := .phase .done } := ⟨rfl, id, hvalid, rfl, rfl, rfl⟩
  rcases handleWrite_eq_some h with ⟨n, b, s₁, -, rfl, -, hb, rfl, h⟩ | ⟨rfl, rfl⟩
  · have hn : n ≤ s.conn.outputBuffer.readableBytes := hw
    obtain ⟨b', hb', hvalid', hread⟩ := Buffer.retrieve_spec hvalid hn
    rw [hb', Option.some.injEq] at hb
    subst hb
    have hstream : s.accepted ++
        (s.conn.outputBuffer.peek s.conn.outputBuffer.readableBytes).take n ++ b'.readable =
          s.accepted ++ s.conn.outputBuffer.readable := by
      rw [Buffer.peek_readableBytes hvalid, hread, List.append_assoc, List.take_append_drop]
    rcases h with ⟨-, h⟩ | ⟨-, rfl, rfl⟩
    · have hrest := Frame.writeComplete h
      refine ⟨hrest.sends, hrest.down, ?_, ?_, hrest.calls, hrest.bodies⟩
      · rw [hrest.outputBuffer]
        exact hvalid'
      · rw [hrest.accepted, hrest.outputBuffer]
        exact hstream
    · exact ⟨rfl, id, hvalid', hstream, rfl, rfl⟩
  · exact hsame

/-! ### Whole runs -/

/-- The write results of the step do not find the connection reset. -/
def NoReset (_ : ConnLoop τ) : ConnAct τ → Prop
  | .send _ w | .runTask w | .testWrite w => w.NotReset
  | _ => True

instance (s : ConnLoop τ) (act : ConnAct τ) : Decidable (s.NoReset act) := by
  apply ConnAct.casesOn (motive := fun act => Decidable (s.NoReset act)) act <;>
    intros <;> unfold NoReset <;> infer_instance

/-- The stream law, and the order law of every caller. -/
structure StreamInv [DecidableEq τ] (t : List (ConnEvent τ)) (s : ConnLoop τ) : Prop where
  valid : s.conn.outputBuffer.Valid
  stream : s.conn.state ≠ .KDisconnected →
    s.accepted ++ s.conn.outputBuffer.readable = (bodies t).flatMap Prod.snd
  order : ∀ caller, (calls t).filter (·.1 = caller) =
    (bodies t).filter (·.1 = caller) ++ (queuedSends s.tasks).filter (·.1 = caller)
  /-- Posted messages fit into an `int`. -/
  short : ∀ m ∈ queuedSends s.tasks, m.2.length < 2 ^ 31

/-- No message of the loop thread is ever queued. -/
lemma queuedSends_filter_none (tasks : List (ConnTask τ)) :
    (queuedSends tasks).filter (·.1 = none) = [] := by
  rw [List.filter_eq_nil_iff]
  rintro ⟨caller, message⟩ hmem
  obtain ⟨task, -, htask⟩ := List.mem_filterMap.mp hmem
  cases task <;> simp_all
  rintro rfl
  simp at htask

section Run

variable [DecidableEq τ] {t : List (ConnEvent τ)} {act : ConnAct τ}

/-- A step that drains the backlog. -/
lemma StreamInv.of_drained (h : StreamInv t s) (hdrained : Drained s out s') :
    StreamInv (t ++ out) s' where
  valid := hdrained.valid
  stream hup := by
    have hup' : s.conn.state ≠ .KDisconnected := fun hdown => hup (hdrained.down hdown)
    rw [hdrained.stream, bodies_append, hdrained.bodies, List.append_nil]
    exact h.stream hup'
  order caller := by
    rw [hdrained.sends, calls_append, bodies_append, hdrained.calls, hdrained.bodies,
      List.append_nil, List.append_nil]
    exact h.order caller
  short := by
    rw [hdrained.sends]
    exact h.short

/-- A step that moves no bytes and neither calls nor runs `send`. -/
lemma StreamInv.of_frame (h : StreamInv t s) (hframe : Frame s out s') :
    StreamInv (t ++ out) s' :=
  h.of_drained (hframe.drained h.valid)

/-- The loop thread sends. -/
lemma StreamInv.send (h : StreamInv t s) {message : List UInt8} (hsent : Sent s message s') :
    StreamInv (t ++ [.called none message, .bodyRan none message]) s' where
  valid := hsent.valid
  stream hup := by
    rw [hsent.stream (hsent.state ▸ hup), h.stream (hsent.state ▸ hup), bodies_append]
    simp [bodies]
  order caller := by
    have hcalls : calls [ConnEvent.called none message, .bodyRan none message] =
        [((none : Option τ), message)] := rfl
    have hbodies : bodies [ConnEvent.called none message, .bodyRan none message] =
        [((none : Option τ), message)] := rfl
    rw [calls_append, bodies_append, hcalls, hbodies, hsent.sends, List.filter_append,
      List.filter_append, h.order caller]
    by_cases hcaller : caller = none
    · subst hcaller
      rw [queuedSends_filter_none, List.append_nil, List.append_nil]
    · have hne : [((none : Option τ), message)].filter (·.1 = caller) = [] := by
        simpa using Ne.symm hcaller
      rw [hne, List.append_nil, List.append_nil]
  short := by
    rw [hsent.sends]
    exact h.short

/-- The next task sends a posted message. -/
lemma StreamInv.runSend (h : StreamInv t s) {poster : τ} {message : List UInt8}
    {tasks : List (ConnTask τ)} (htasks : s.tasks = .sendInLoop poster message :: tasks)
    (hsent : Sent { s with tasks := tasks } message s') :
    StreamInv (t ++ [.bodyRan (some poster) message]) s' where
  valid := hsent.valid
  stream hup := by
    have hup' : s.conn.state ≠ .KDisconnected := hsent.state ▸ hup
    rw [hsent.stream hup', h.stream hup', bodies_append]
    simp [bodies]
  order caller := by
    have hqueue : queuedSends s.tasks = (some poster, message) :: queuedSends tasks := by
      rw [htasks]
      rfl
    have hcalls : calls [ConnEvent.bodyRan (some poster) message] = [] := rfl
    have hbodies : bodies [ConnEvent.bodyRan (some poster) message] =
        [(some poster, message)] := rfl
    rw [calls_append, bodies_append, hcalls, hbodies, List.append_nil, hsent.sends, h.order caller,
      hqueue, List.filter_append, List.append_assoc, ← List.singleton_append, List.filter_append]
  short := by
    rw [hsent.sends]
    intro m hm
    refine h.short m ?_
    rw [htasks]
    exact List.mem_cons_of_mem _ hm

/-- Another thread posts a message. -/
lemma StreamInv.post (h : StreamInv t s) {caller : τ} {message : List UInt8}
    (hshort : message.length < 2 ^ 31) :
    StreamInv (t ++ [.called (some caller) message])
      (s.queueInLoop (.sendInLoop caller message)) where
  valid := h.valid
  stream hup := by
    have hbodies : bodies [ConnEvent.called (some caller) message] = [] := rfl
    rw [bodies_append, hbodies, List.append_nil]
    exact h.stream hup
  order a := by
    have hcalls : calls [ConnEvent.called (some caller) message] = [(some caller, message)] := rfl
    have hbodies : bodies [ConnEvent.called (some caller) message] = [] := rfl
    have hqueue : queuedSends (s.queueInLoop (.sendInLoop caller message)).tasks =
        queuedSends s.tasks ++ [(some caller, message)] := queuedSends_append _ _
    rw [calls_append, bodies_append, hcalls, hbodies, List.append_nil, hqueue, List.filter_append,
      List.filter_append, h.order a, List.append_assoc]
  short m hm := by
    have hqueue : queuedSends (s.queueInLoop (.sendInLoop caller message)).tasks =
        queuedSends s.tasks ++ [(some caller, message)] := queuedSends_append _ _
    rw [hqueue] at hm
    rcases List.mem_append.mp hm with hm | hm
    · exact h.short m hm
    · rw [List.mem_singleton.mp hm]
      exact hshort

/-- A task is run. -/
lemma StreamInv.runTask (h : StreamInv t s) {w : WriteResult} (hw : s.taskWithin w)
    (hreset : w.NotReset) (hstep : s.runTask w = some (s', out)) : StreamInv (t ++ out) s' := by
  unfold ConnLoop.runTask at hstep
  unfold taskWithin at hw
  split at hstep
  · cases hstep
    exact h.of_frame (Frame.refl s)
  · next task tasks htasks =>
    have hpop : queuedSends [task] = [] → Frame s [] { s with tasks := tasks } := by
      intro hnone
      refine ⟨rfl, rfl, ?_, id, rfl, rfl⟩
      rw [htasks, ← List.singleton_append, queuedSends_append, hnone, List.nil_append]
    cases task with
    | sendInLoop poster message =>
      rw [htasks] at hw
      obtain ⟨s₁, hs₁, heq⟩ := Option.map_eq_some_iff.mp hstep
      cases heq
      have hshort : message.length < 2 ^ 31 := by
        refine h.short (some poster, message) ?_
        rw [htasks]
        exact List.mem_cons_self
      rw [sendInLoopString, ConnLoop.send, sizeOfInt_intOfSize hshort] at hs₁
      exact h.runSend htasks (sendInLoop_sent h.valid hw hreset hs₁)
    | connectEstablished => exact h.of_frame ((hpop rfl).trans (Frame.connectEstablished hstep))
    | forceCloseInLoop => exact h.of_frame ((hpop rfl).trans (Frame.forceCloseInLoop hstep))
    | writeCompleteCallback =>
      cases hstep
      have hrest := hpop rfl
      exact h.of_frame ⟨rfl, rfl, hrest.sends, id, rfl, rfl⟩
    | highWaterMarkCallback size =>
      cases hstep
      have hrest := hpop rfl
      exact h.of_frame ⟨rfl, rfl, hrest.sends, id, rfl, rfl⟩
    | connectDestroyed => exact h.of_frame ((hpop rfl).trans (Frame.connectDestroyed hstep))

/-- A step keeps both laws. -/
theorem StreamInv.step (h : StreamInv t s) (hpre : s.pre act) (hreset : s.NoReset act)
    (hstep : s.step act = some (s', out)) : StreamInv (t ++ out) s' := by
  cases act with
  | postSend caller message =>
    cases hstep
    exact h.post hpre
  | send message w =>
    obtain ⟨-, hshort, hw⟩ := hpre
    obtain ⟨s₁, hs₁, heq⟩ := Option.map_eq_some_iff.mp hstep
    cases heq
    rw [ConnLoop.send, sizeOfInt_natCast hshort] at hs₁
    exact h.send (sendInLoop_sent h.valid hw hreset hs₁)
  | forceClose => exact h.of_frame (Frame.forceClose (Option.some.inj hstep))
  | retrieve len =>
    obtain ⟨b, -, heq⟩ := Option.bind_eq_some_iff.mp hstep
    cases heq
    exact h.of_frame ⟨rfl, rfl, rfl, id, rfl, rfl⟩
  | connectEstablished => exact h.of_frame (Frame.connectEstablished hstep)
  | runTask w => exact h.runTask hpre.2.2 hreset hstep
  | removeConnectionInLoop =>
    obtain ⟨s₁, hs₁, heq⟩ := Option.map_eq_some_iff.mp hstep
    cases heq
    have hrest := Frame.removeConnectionInLoop hs₁
    exact h.of_frame ⟨hrest.accepted, hrest.outputBuffer, hrest.sends, hrest.down, rfl, rfl⟩
  | testClose =>
    simp only [ConnLoop.step] at hstep
    split at hstep
    · exact h.of_frame (Frame.handleClose hstep)
    · cases hstep
      exact h.of_frame ⟨rfl, rfl, rfl, id, rfl, rfl⟩
  | testRead r =>
    simp only [ConnLoop.step] at hstep
    split at hstep
    · exact h.of_frame (Frame.handleRead hstep)
    · cases hstep
      exact h.of_frame ⟨rfl, rfl, rfl, id, rfl, rfl⟩
  | testWrite w =>
    simp only [ConnLoop.step] at hstep
    split at hstep
    · exact h.of_drained (handleWrite_drained h.valid hpre.2 hstep)
    · cases hstep
      exact h.of_frame ⟨rfl, rfl, rfl, id, rfl, rfl⟩
  | callbackReturns => exact h.of_frame (Frame.callbackReturns hstep)
  | _ =>
    cases hstep
    exact h.of_frame ⟨rfl, rfl, rfl, id, rfl, rfl⟩

/-- A new connection has sent nothing. -/
lemma StreamInv.newConnection {kind : OwnerKind} {address fd highWaterMark : ℕ}
    {connectionCallback writeCompleteCallback highWaterMarkCallback handling : Bool}
    {poller : EPollPoller} :
    StreamInv [] (ConnLoop.newConnection kind (.new address fd highWaterMark connectionCallback
      writeCompleteCallback highWaterMarkCallback) poller handling : ConnLoop τ) := by
  have htasks : queuedSends (if kind = .serverOtherLoop then [ConnTask.connectEstablished]
      else ([] : List (ConnTask τ))) = [] := by
    split <;> rfl
  exact ⟨Buffer.new_valid, fun _ => Buffer.readable_new,
    fun caller => by simp [ConnLoop.newConnection, htasks, calls, bodies],
    fun m hm => by simp [ConnLoop.newConnection, htasks] at hm⟩

/-- In every run of a connection whose writes do not find it reset: before it is down, what the
kernel has taken and what is in `outputBuffer_` are together the messages in the order in which
`sendInLoop` ran for them; and the messages of every caller are, in this order, those it sent, less
those still in the queue. -/
theorem output_stream_integrity {kind : OwnerKind} {address fd highWaterMark : ℕ}
    {connectionCallback writeCompleteCallback highWaterMarkCallback handling : Bool}
    {poller : EPollPoller}
    (h : ((connMachine τ).restrict NoReset).Run
      (newConnection kind (.new address fd highWaterMark connectionCallback writeCompleteCallback
        highWaterMarkCallback) poller handling) t s) :
    (s.conn.state ≠ .KDisconnected →
        s.accepted ++ s.conn.outputBuffer.readable = (bodies t).flatMap Prod.snd) ∧
      ∀ caller, (calls t).filter (·.1 = caller) =
        (bodies t).filter (·.1 = caller) ++ (queuedSends s.tasks).filter (·.1 = caller) := by
  have hinv : StreamInv t s :=
    h.invariant StreamInv .newConnection fun t s act s' out hinv hpre hstep =>
      hinv.step hpre.1 hpre.2 hstep
  exact ⟨hinv.stream, hinv.order⟩

end Run

/-- A poller without channels. -/
def emptyPoller : EPollPoller := ⟨fun _ => none, fun _ => none⟩

/-- The first message is written in part, two threads post behind it, and a dispatch drains a part
of the backlog. -/
theorem output_stream_integrity_partial :
    ∃ t s, ((connMachine ℕ).restrict NoReset).Run
        (newConnection .serverSameLoop (.new 1 5 64 true true true) emptyPoller true) t s ∧
      (s.accepted = [1, 2, 3, 4, 5] ∧ s.conn.state = .KConnected) ∧
      s.accepted ++ s.conn.outputBuffer.readable = (bodies t).flatMap Prod.snd := by
  obtain ⟨t, s, hrun, haccepted, hstate⟩ := ((connMachine ℕ).restrict NoReset).exists_run_of_exec
    (newConnection .serverSameLoop (.new 1 5 64 true true true) emptyPoller true)
    [.connectEstablished, .send [1, 2, 3] (.ok 1), .postSend 7 [4, 5, 6], .callbackReturns,
      .postSend 8 [7], .endHandling, .runTask (.error .EWOULDBLOCK), .poll {.EPOLLOUT},
      .handleEvent, .testClose, .testError, .testRead (.data []), .testWrite (.ok 4), .endEvent,
      .endHandling, .runTask (.ok 0)]
    (fun s _ => s.accepted = [1, 2, 3, 4, 5] ∧ s.conn.state = .KConnected) (by decide +kernel)
  have hup : s.conn.state ≠ .KDisconnected := by
    rw [hstate]
    decide
  exact ⟨t, s, hrun, ⟨haccepted, hstate⟩, (output_stream_integrity hrun).1 hup⟩

end ConnLoop

end MuduoServer
