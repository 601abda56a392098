import MuduoServer.Lib.Compose
import MuduoServer.Tcp.Lifecycle

/-!
# What goes in and what goes out

The two streams of a connection over its whole life, the time after `handleClose` included.  What
the kernel has taken only grows, and it stops growing when the connection goes down: the messages
whose `sendInLoop` ran before that moment, `handedOver`, are what has been taken and what is left in
`outputBuffer_` for ever.  On the other side stands a history of what `readv` has delivered and what
user code has taken out again.

`startRead` and `stopRead` are not among the steps of these runs: that a connection which is down
never reads again is true without them only (`ReadToggle` has them).  And `forceClose` of another
thread reads and writes `state_` in one step (`CrossThread` has it in three).
-/

namespace MuduoServer

/-- The bytes that `readv` has delivered. -/
def ReadResult.bytes : ReadResult → List UInt8
  | .data bytes => bytes
  | .error _ => []

/-- The event after which the connection is down. -/
def ConnEvent.setsDown {τ : Type} : ConnEvent τ → Bool
  | .setState .KDisconnected => true
  | _ => false

/-- No state that has been written is behind the last one. -/
lemma Forward.rank_le_of_mem {a b x : StateE} {ws : List StateE} (h : Forward a ws b)
    (hx : x ∈ a :: ws) : x.rank ≤ b.rank := by
  induction h generalizing x with
  | nil => rw [List.mem_singleton.mp hx]
  | cons hle hrest ih =>
    rcases List.mem_cons.mp hx with rfl | hx
    · exact hle.trans (ih List.mem_cons_self)
    · exact ih hx

namespace ConnLoop

variable {τ : Type} {s s' : ConnLoop τ} {out : List (ConnEvent τ)}

/-! ### Which bytes move -/

/-- How often `messageCallback_` has been called. -/
def messages (t : List (ConnEvent τ)) : ℕ := (life t).count .message

/-- The messages of a trace are those of its parts. -/
@[simp] lemma messages_append (t t' : List (ConnEvent τ)) :
    messages (t ++ t') = messages t + messages t' := by
  rw [messages, life_append, List.count_append, messages, messages]

/-- What all functions but `handleRead` have in common: the kernel gives nothing back that it has
taken from `write`, `inputBuffer_` stays as it is, and `messageCallback_` is not called. -/
structure Onward (s : ConnLoop τ) (out : List (ConnEvent τ)) (s' : ConnLoop τ) : Prop where
  accepted : s.accepted <+: s'.accepted
  inputBuffer : s'.conn.inputBuffer = s.conn.inputBuffer
  messages : messages out = 0

namespace Onward

/-- A step that has written nothing, read nothing and called no message callback. -/
lemma of_eq (haccepted : s'.accepted = s.accepted)
    (hinput : s'.conn.inputBuffer = s.conn.inputBuffer) (hout : ConnLoop.messages out = 0) :
    Onward s out s' :=
  ⟨by rw [haccepted], hinput, hout⟩

/-- To do nothing is such a step. -/
lemma refl (s : ConnLoop τ) : Onward s [] s := of_eq rfl rfl rfl

/-- First a change without events, then the rest. -/
lemma trans {s'' : ConnLoop τ} (h : Onward s [] s') (h' : Onward s' out s'') : Onward s out s'' :=
  ⟨h.accepted.trans h'.accepted, h'.inputBuffer.trans h.inputBuffer, h'.messages⟩

/-- The direct write only adds to what the kernel has taken. -/
lemma direct (s : ConnLoop τ) (message : List UInt8) (len : ℕ) (w : WriteResult) :
    Onward s [] (s.direct message len w).1 := by
  unfold ConnLoop.direct
  split
  · cases w with
    | ok n =>
      simp only [ite_queueInLoop]
      exact ⟨List.prefix_append _ _, rfl, rfl⟩
    | error errno => exact refl s
  · exact refl s

/-- The backlog changes nothing that has been read or taken. -/
lemma backlog {data : List UInt8} (h : s.backlog data = some s') : Onward s [] s' := by
  obtain ⟨b, s₁, -, rfl, ⟨-, rfl⟩ | ⟨-, r, -, rfl⟩⟩ := backlog_eq_some h
  · exact of_eq rfl rfl rfl
  · exact of_eq rfl rfl rfl

/-- `sendInLoop()` is the direct write and the backlog. -/
lemma sendInLoop {message : List UInt8} {len : ℕ} {w : WriteResult}
    (h : s.sendInLoop message len w = some s') : Onward s [] s' := by
  obtain ⟨-, ⟨-, rfl⟩ | ⟨-, r, rfl, -, ⟨-, -, hrest⟩ | ⟨-, rfl⟩⟩⟩ := sendInLoop_eq_some h
  · exact refl _
  · exact (direct s message len w).trans (backlog hrest)
  · exact direct s message len w

/-- `handleClose()` reads nothing and writes nothing. -/
lemma handleClose {k : Option Phase} (h : s.handleClose k = some (s', out)) : Onward s out s' := by
  obtain ⟨-, r, -, rfl, rfl⟩ := handleClose_eq_some h
  refine of_eq rfl rfl ?_
  split <;> rfl

/-- Nor does `forceCloseInLoop()`. -/
lemma forceCloseInLoop {k : Option Phase} (h : s.forceCloseInLoop k = some (s', out)) :
    Onward s out s' := by
  rcases forceCloseInLoop_eq_some h with h | ⟨-, rfl, rfl⟩
  · exact handleClose h
  · exact of_eq rfl rfl rfl

/-- Nor does `forceClose()`. -/
lemma forceClose (h : s.forceClose = (s', out)) : Onward s out s' := by
  rcases forceClose_eq h with ⟨-, rfl, rfl⟩ | ⟨-, rfl, rfl⟩
  · exact of_eq rfl rfl rfl
  · exact refl _

/-- Nor does `connectEstablished()`. -/
lemma connectEstablished (h : s.connectEstablished = some (s', out)) : Onward s out s' := by
  obtain ⟨-, r, -, rfl, rfl⟩ := connectEstablished_eq_some h
  refine of_eq rfl rfl ?_
  split <;> rfl

/-- Nor does `connectDestroyed()`. -/
lemma connectDestroyed (h : s.connectDestroyed = some (s', out)) : Onward s out s' := by
  obtain ⟨s₁, r, hs₁, -, rfl⟩ := connectDestroyed_eq_some h
  rcases takeDown_eq_some hs₁ with ⟨-, r', -, rfl, rfl⟩ | ⟨-, rfl, rfl⟩
  · exact of_eq rfl rfl rfl
  · exact of_eq rfl rfl rfl

/-- Nor does what the server does. -/
lemma removeConnectionInLoop (h : s.removeConnectionInLoop = some s') : Onward s [] s' := by
  obtain ⟨-, rfl⟩ := removeConnectionInLoop_eq_some h
  exact of_eq rfl rfl rfl

/-- Nor does the close callback. -/
lemma closeCallback (h : s.closeCallback = some (s', out)) : Onward s out s' := by
  rcases closeCallback_eq_some h with ⟨-, hremove, rfl⟩ | ⟨-, rfl, rfl⟩ | ⟨-, h⟩
  · exact removeConnectionInLoop hremove
  · exact of_eq rfl rfl rfl
  · have hreleased : Onward s [] { s with owner := { s.owner with holds := false } } :=
      of_eq rfl rfl rfl
    exact hreleased.trans (connectDestroyed h)

/-- Nor does the end of a write. -/
lemma writeComplete (h : s.writeComplete = some (s', out)) : Onward s out s' := by
  obtain ⟨r, s₁, -, rfl, h⟩ := writeComplete_eq_some h
  rcases h with ⟨-, h⟩ | ⟨-, rfl, rfl⟩
  · obtain ⟨haccepted, hinput, hout⟩ := forceCloseInLoop h
    exact ⟨haccepted, hinput, hout⟩
  · exact of_eq rfl rfl rfl

/-- `handleWrite()` only adds to what the kernel has taken. -/
lemma handleWrite {w : WriteResult} (h : s.handleWrite w = some (s', out)) : Onward s out s' := by
  rcases handleWrite_eq_some h with ⟨n, b, s₁, -, -, -, -, rfl, h⟩ | ⟨rfl, rfl⟩
  · rcases h with ⟨-, h⟩ | ⟨-, rfl, rfl⟩
    · obtain ⟨haccepted, hinput, hout⟩ := writeComplete h
      exact ⟨(List.prefix_append _ _).trans haccepted, hinput, hout⟩
    · exact ⟨List.prefix_append _ _, rfl, rfl⟩
  · exact of_eq rfl rfl rfl

/-- What follows a callback of the user reads nothing and writes nothing. -/
lemma callbackReturns (h : s.callbackReturns = some (s', out)) : Onward s out s' := by
  rcases callbackReturns_eq_some h with
    ⟨-, rfl, rfl⟩ | ⟨-, rfl, rfl⟩ | ⟨k, out', -, hclose, rfl⟩ | ⟨-, rfl, rfl⟩
  · exact of_eq rfl rfl rfl
  · exact of_eq rfl rfl rfl
  · obtain ⟨haccepted, hinput, hout⟩ := closeCallback hclose
    exact ⟨haccepted, hinput, hout⟩
  · exact refl _

/-- So every queued task is such a step. -/
lemma runTask {w : WriteResult} (h : s.runTask w = some (s', out)) : Onward s out s' := by
  unfold ConnLoop.runTask at h
  split at h
  · obtain ⟨rfl, rfl⟩ := Prod.mk.inj (Option.some.inj h)
    exact refl _
  · next task tasks _ =>
    have hpop : Onward s [] { s with tasks := tasks } := of_eq rfl rfl rfl
    refine hpop.trans ?_
    cases task with
    | connectEstablished => exact connectEstablished h
    | sendInLoop poster message =>
      obtain ⟨s₁, hs₁, heq⟩ := Option.map_eq_some_iff.mp h
      obtain ⟨rfl, rfl⟩ := Prod.mk.inj heq
      rw [sendInLoopString, send] at hs₁
      obtain ⟨haccepted, hinput, -⟩ := sendInLoop hs₁
      exact ⟨haccepted, hinput, rfl⟩
    | forceCloseInLoop => exact forceCloseInLoop h
    | connectDestroyed => exact connectDestroyed h
    | writeCompleteCallback | highWaterMarkCallback size =>
      obtain ⟨rfl, rfl⟩ := Prod.mk.inj (Option.some.inj h)
      exact of_eq rfl rfl rfl

end Onward

/-- The dispatch is going to call `handleRead`. -/
def reads (s : ConnLoop τ) : Prop :=
  s.conn.channel.revents ∩ {.EPOLLIN, .EPOLLPRI, .EPOLLRDHUP} ≠ ∅

instance (s : ConnLoop τ) : Decidable s.reads := inferInstanceAs (Decidable (_ ≠ _))

/-- What `handleRead` does to the input. -/
structure ReadStep (s : ConnLoop τ) (r : ReadResult) (out : List (ConnEvent τ))
    (s' : ConnLoop τ) : Prop where
  accepted : s'.accepted = s.accepted
  valid : s'.conn.inputBuffer.Valid
  readable : s'.conn.inputBuffer.readable = s.conn.inputBuffer.readable ++ r.bytes
  /-- `messageCallback_` is called once if anything has come, and else it is not called. -/
  messages : messages out = if r.bytes = [] then 0 else 1
  /-- The end of the stream closes the connection. -/
  closed : r = .data [] → s'.conn.state = .KDisconnected

/-- What `handleRead()` appends to the inputBuffer is what the read has returned. -/
lemma handleRead_input {r : ReadResult} (hvalid : s.conn.inputBuffer.Valid)
    (h : s.handleRead r = some (s', out)) : ReadStep s r out s' := by
  cases r with
  | error errno =>
    obtain ⟨rfl, rfl⟩ := Prod.mk.inj (Option.some.inj h)
    exact ⟨rfl, hvalid, (List.append_nil _).symm, rfl, by simp⟩
  | data bytes =>
    obtain ⟨b, hb, hvalid', hread⟩ := Buffer.readFd_data_spec hvalid bytes
    obtain ⟨r, hr, h⟩ := Option.bind_eq_some_iff.mp h
    rw [hb, Option.some.injEq] at hr
    subst hr
    cases bytes with
    | nil =>
      obtain ⟨-, r, -, rfl, rfl⟩ := handleClose_eq_some h
      refine ⟨rfl, hvalid', hread, ?_, fun _ => rfl⟩
      split <;> rfl
    | cons byte bytes =>
      have hpos : (0 : ℤ) < ((byte :: bytes).length : ℤ) := by simp
      dsimp only at h
      rw [if_pos hpos] at h
      obtain ⟨rfl, rfl⟩ := Prod.mk.inj (Option.some.inj h)
      exact ⟨rfl, hvalid', hread, rfl, by simp⟩

/-- Every step takes bytes out of `inputBuffer_`, reads, or leaves the input alone. -/
theorem step_input_cases {act : ConnAct τ} (hvalid : s.conn.inputBuffer.Valid)
    (h : s.step act = some (s', out)) :
    (∃ len b, act = .retrieve len ∧ s.conn.inputBuffer.retrieve len = some b ∧
        s' = { s with conn := { s.conn with inputBuffer := b } } ∧ out = []) ∨
      (∃ r, act = .testRead r ∧ s.reads ∧ ReadStep s r out s') ∨
      ((∀ len, act ≠ .retrieve len) ∧ (∀ r, act = .testRead r → ¬ s.reads) ∧
        Onward s out s') := by
  cases act with
  | retrieve len =>
    obtain ⟨b, hb, heq⟩ := Option.bind_eq_some_iff.mp h
    obtain ⟨rfl, rfl⟩ := Prod.mk.inj (Option.some.inj heq)
    exact Or.inl ⟨len, b, rfl, hb, rfl, rfl⟩
  | testRead r =>
    simp only [step] at h
    split at h
    · next hreads => exact Or.inr (Or.inl ⟨r, rfl, hreads, handleRead_input hvalid h⟩)
    · next hreads =>
      obtain ⟨rfl, rfl⟩ := Prod.mk.inj (Option.some.inj h)
      exact Or.inr (Or.inr ⟨by simp, fun _ _ => hreads, .of_eq rfl rfl rfl⟩)
  | send message w =>
    obtain ⟨s₁, hs₁, heq⟩ := Option.map_eq_some_iff.mp h
    obtain ⟨rfl, rfl⟩ := Prod.mk.inj heq
    obtain ⟨haccepted, hinput, -⟩ := Onward.sendInLoop hs₁
    exact Or.inr (Or.inr ⟨by simp, by simp, haccepted, hinput, rfl⟩)
  | removeConnectionInLoop =>
    obtain ⟨s₁, hs₁, heq⟩ := Option.map_eq_some_iff.mp h
    obtain ⟨rfl, rfl⟩ := Prod.mk.inj heq
    obtain ⟨haccepted, hinput, -⟩ := Onward.removeConnectionInLoop hs₁
    exact Or.inr (Or.inr ⟨by simp, by simp, haccepted, hinput, rfl⟩)
  | testClose =>
    simp only [step] at h
    split at h
    · exact Or.inr (Or.inr ⟨by simp, by simp, .handleClose h⟩)
    · obtain ⟨rfl, rfl⟩ := Prod.mk.inj (Option.some.inj h)
      exact Or.inr (Or.inr ⟨by simp, by simp, .of_eq rfl rfl rfl⟩)
  | testWrite w =>
    simp only [step] at h
    split at h
    · exact Or.inr (Or.inr ⟨by simp, by simp, .handleWrite h⟩)
    · obtain ⟨rfl, rfl⟩ := Prod.mk.inj (Option.some.inj h)
      exact Or.inr (Or.inr ⟨by simp, by simp, .of_eq rfl rfl rfl⟩)
  | forceClose => exact Or.inr (Or.inr ⟨by simp, by simp, .forceClose (Option.some.inj h)⟩)
  | connectEstablished => exact Or.inr (Or.inr ⟨by simp, by simp, .connectEstablished h⟩)
  | runTask w => exact Or.inr (Or.inr ⟨by simp, by simp, .runTask h⟩)
  | callbackReturns => exact Or.inr (Or.inr ⟨by simp, by simp, .callbackReturns h⟩)
  | _ =>
    obtain ⟨rfl, rfl⟩ := Prod.mk.inj (Option.some.inj h)
    exact Or.inr (Or.inr ⟨by simp, by simp, .of_eq rfl rfl rfl⟩)

/-- The kernel gives nothing back. -/
lemma step_accepted {act : ConnAct τ} (hvalid : s.conn.inputBuffer.Valid)
    (h : s.step act = some (s', out)) : s.accepted <+: s'.accepted := by
  rcases step_input_cases hvalid h with ⟨len, b, -, -, rfl, -⟩ | ⟨r, -, -, hread⟩ | ⟨-, -, honward⟩
  · exact List.prefix_refl _
  · rw [hread.accepted]
  · exact honward.accepted

/-! ### The output over the whole life -/

/-- The call of `send` that a step is. -/
def calledBy : ConnAct τ → List (Option τ × List UInt8)
  | .postSend caller message => [(some caller, message)]
  | .send message _ => [(none, message)]
  | _ => []

/-- What a step does to the output that neither sends nor writes. -/
structure Aside (s : ConnLoop τ) (out : List (ConnEvent τ)) (s' : ConnLoop τ) : Prop where
  accepted : s'.accepted = s.accepted
  outputBuffer : s'.conn.outputBuffer = s.conn.outputBuffer
  down : s.conn.state = .KDisconnected → s'.conn.state = .KDisconnected
  bodies : bodies out = []

/-- A step that leaves the output alone leaves the input alone too. -/
lemma Frame.aside (h : Frame s out s') : Aside s out s' :=
  ⟨h.accepted, h.outputBuffer, h.down, h.bodies⟩

/-- The step runs `sendInLoop` for a whole message of the caller. -/
structure SendStep (s : ConnLoop τ) (act : ConnAct τ) (out : List (ConnEvent τ)) (s' : ConnLoop τ)
    (caller : Option τ) (message : List UInt8) (w : WriteResult) : Prop where
  act : act = .send message w ∨ act = .runTask w
  within : w.Within message.length
  bodies : bodies out = [(caller, message)]
  send : ∃ tasks, { s with tasks := tasks }.sendInLoop message message.length w = some s'

/-- What a step does with the output, and whose call it is. -/
structure OutputStep (s : ConnLoop τ) (act : ConnAct τ) (out : List (ConnEvent τ))
    (s' : ConnLoop τ) : Prop where
  calls : calls out = calledBy act
  moves : (∃ caller message w, SendStep s act out s' caller message w) ∨
    (∃ w, act = .testWrite w ∧ w.Within s.conn.outputBuffer.readableBytes ∧
      s.handleWrite w = some (s', out)) ∨ Aside s out s'

/-- And as far as the output goes it is an output step without a call. -/
lemma Frame.outputStep {act : ConnAct τ} (h : Frame s out s') (hact : calledBy act = []) :
    OutputStep s act out s' :=
  ⟨h.calls.trans hact.symm, Or.inr (Or.inr h.aside)⟩

/-- A step that changes nothing of what has been sent. -/
lemma OutputStep.still {act : ConnAct τ} (haccepted : s'.accepted = s.accepted)
    (hbuffer : s'.conn.outputBuffer = s.conn.outputBuffer)
    (hstate : s'.conn.state = s.conn.state) (hbodies : ConnLoop.bodies out = [])
    (hcalls : ConnLoop.calls out = calledBy act) : OutputStep s act out s' :=
  ⟨hcalls, Or.inr (Or.inr ⟨haccepted, hbuffer, fun hdown => hstate.trans hdown, hbodies⟩)⟩

/-- `handleWrite` is no call of `send`. -/
lemma handleWrite_calls {w : WriteResult} (h : s.handleWrite w = some (s', out)) :
    calls out = [] := by
  rcases handleWrite_eq_some h with ⟨n, b, s₁, -, -, -, -, rfl, h⟩ | ⟨-, rfl⟩
  · rcases h with ⟨-, h⟩ | ⟨-, -, rfl⟩
    · exact (Frame.writeComplete h).calls
    · rfl
  · rfl

/-- A task, when the posted messages fit into an `int`. -/
lemma runTask_outputStep {w : WriteResult}
    (hshort : ∀ m ∈ queuedSends s.tasks, m.2.length < 2 ^ 31) (hw : s.taskWithin w)
    (h : s.runTask w = some (s', out)) : OutputStep s (.runTask w) out s' := by
  unfold ConnLoop.runTask at h
  unfold taskWithin at hw
  split at h
  · obtain ⟨rfl, rfl⟩ := Prod.mk.inj (Option.some.inj h)
    exact (Frame.refl _).outputStep rfl
  · next task tasks htasks =>
    have hrest : Frame { s with tasks := tasks } out s' → OutputStep s (.runTask w) out s' :=
      fun hframe => ⟨hframe.calls, Or.inr (Or.inr
        ⟨hframe.accepted, hframe.outputBuffer, hframe.down, hframe.bodies⟩)⟩
    cases task with
    | sendInLoop poster message =>
      rw [htasks] at hw hshort
      obtain ⟨s₁, hs₁, heq⟩ := Option.map_eq_some_iff.mp h
      obtain ⟨rfl, rfl⟩ := Prod.mk.inj heq
      rw [sendInLoopString, send,
        sizeOfInt_intOfSize (hshort (some poster, message) List.mem_cons_self)] at hs₁
      exact ⟨rfl, Or.inl ⟨some poster, message, w, Or.inr rfl, hw, rfl, tasks, hs₁⟩⟩
    | connectEstablished => exact hrest (Frame.connectEstablished h)
    | forceCloseInLoop => exact hrest (Frame.forceCloseInLoop h)
    | connectDestroyed => exact hrest (Frame.connectDestroyed h)
    | writeCompleteCallback | highWaterMarkCallback size =>
      obtain ⟨rfl, rfl⟩ := Prod.mk.inj (Option.some.inj h)
      exact .still rfl rfl rfl rfl rfl

/-- Every step sends a message, writes from the backlog, or leaves the output alone. -/
theorem step_outputStep {act : ConnAct τ}
    (hshort : ∀ m ∈ queuedSends s.tasks, m.2.length < 2 ^ 31) (hpre : s.pre act)
    (h : s.step act = some (s', out)) : OutputStep s act out s' := by
  cases act with
  | postSend caller message =>
    obtain ⟨rfl, rfl⟩ := Prod.mk.inj (Option.some.inj h)
    exact .still rfl rfl rfl rfl rfl
  | send message w =>
    obtain ⟨-, hlen, hw⟩ := hpre
    obtain ⟨s₁, hs₁, heq⟩ := Option.map_eq_some_iff.mp h
    obtain ⟨rfl, rfl⟩ := Prod.mk.inj heq
    rw [send, sizeOfInt_natCast hlen] at hs₁
    exact ⟨rfl, Or.inl ⟨none, message, w, Or.inl rfl, hw, rfl, s.tasks, hs₁⟩⟩
  | runTask w => exact runTask_outputStep hshort hpre.2.2 h
  | forceClose => exact (Frame.forceClose (Option.some.inj h)).outputStep rfl
  | retrieve len =>
    obtain ⟨b, -, heq⟩ := Option.bind_eq_some_iff.mp h
    obtain ⟨rfl, rfl⟩ := Prod.mk.inj (Option.some.inj heq)
    exact .still rfl rfl rfl rfl rfl
  | connectEstablished => exact (Frame.connectEstablished h).outputStep rfl
  | removeConnectionInLoop =>
    obtain ⟨s₁, hs₁, heq⟩ := Option.map_eq_some_iff.mp h
    obtain ⟨rfl, rfl⟩ := Prod.mk.inj heq
    have hframe := Frame.removeConnectionInLoop hs₁
    exact ⟨rfl, Or.inr (Or.inr ⟨hframe.accepted, hframe.outputBuffer, hframe.down, rfl⟩)⟩
  | testClose =>
    simp only [step] at h
    split at h
    · exact (Frame.handleClose h).outputStep rfl
    · obtain ⟨rfl, rfl⟩ := Prod.mk.inj (Option.some.inj h)
      exact .still rfl rfl rfl rfl rfl
  | testRead r =>
    simp only [step] at h
    split at h
    · exact (Frame.handleRead h).outputStep rfl
    · obtain ⟨rfl, rfl⟩ := Prod.mk.inj (Option.some.inj h)
      exact .still rfl rfl rfl rfl rfl
  | testWrite w =>
    simp only [step] at h
    split at h
    · exact ⟨handleWrite_calls h, Or.inr (Or.inl ⟨w, rfl, hpre.2, h⟩)⟩
    · obtain ⟨rfl, rfl⟩ := Prod.mk.inj (Option.some.inj h)
      exact .still rfl rfl rfl rfl rfl
  | callbackReturns => exact (Frame.callbackReturns h).outputStep rfl
  | _ =>
    obtain ⟨rfl, rfl⟩ := Prod.mk.inj (Option.some.inj h)
    exact .still rfl rfl rfl rfl rfl

/-- A connection that is down writes nothing more: its channel monitors nothing. -/
lemma StageInv.not_isWriting {st : Stage} (h : StageInv st s)
    (hdown : s.conn.state = .KDisconnected) : ¬ s.conn.channel.isWriting := by
  intro hwriting
  obtain rfl := h.stage_of_isWriting hwriting
  rcases h.conn.state with hstate | hstate <;> cases hstate.symm.trans hdown

/-- Once the connection is down, the output is what it is. -/
theorem step_of_down {st : Stage} {act : ConnAct τ} (hinv : StageInv st s)
    (hdown : s.conn.state = .KDisconnected) (hpre : s.pre act)
    (h : s.step act = some (s', out)) :
    s'.accepted = s.accepted ∧ s'.conn.outputBuffer = s.conn.outputBuffer ∧
      s'.conn.state = .KDisconnected := by
  rcases (step_outputStep hinv.queue.short hpre h).moves with
    ⟨caller, message, w, -, -, -, tasks, hsend⟩ | ⟨w, -, -, hwrite⟩ | haside
  · obtain ⟨-, ⟨-, rfl⟩ | ⟨hup, -⟩⟩ := sendInLoop_eq_some hsend
    · exact ⟨rfl, rfl, hdown⟩
    · exact absurd hdown hup
  · rcases handleWrite_eq_some hwrite with ⟨n, b, s₁, hwriting, -⟩ | ⟨rfl, -⟩
    · exact absurd hwriting (hinv.not_isWriting hdown)
    · exact ⟨rfl, rfl, hdown⟩
  · exact ⟨haside.accepted, haside.outputBuffer, haside.down hdown⟩

/-- The part of a trace before the connection goes down. -/
def beforeDown (t : List (ConnEvent τ)) : List (ConnEvent τ) := t.takeWhile fun e => !e.setsDown

/-- The messages whose `sendInLoop` ran before the connection went down. -/
def handedOver (t : List (ConnEvent τ)) : List (Option τ × List UInt8) := bodies (beforeDown t)

/-- Only the store of `KDisconnected` sets the connection down. -/
lemma setsDown_iff {e : ConnEvent τ} : e.setsDown = true ↔ e = .setState .KDisconnected := by
  refine ⟨fun h => ?_, fun h => by rw [h]; rfl⟩
  unfold ConnEvent.setsDown at h
  split at h
  · rfl
  · cases h

section Trace

variable {t : List (ConnEvent τ)}

/-- Once the connection is down, what comes later is not before. -/
lemma beforeDown_append_of_mem (h : .setState .KDisconnected ∈ t) (t' : List (ConnEvent τ)) :
    beforeDown (t ++ t') = beforeDown t := by
  rw [beforeDown, List.takeWhile_append, if_neg, beforeDown]
  intro hlen
  have hall := List.takeWhile_eq_self_iff.mp ((List.takeWhile_prefix _).eq_of_length hlen)
  have hkept := hall _ h
  simp [ConnEvent.setsDown] at hkept

/-- Until the connection is down, everything is before. -/
lemma beforeDown_append_of_notMem (h : .setState .KDisconnected ∉ t) (t' : List (ConnEvent τ)) :
    beforeDown (t ++ t') = t ++ beforeDown t' := by
  refine List.takeWhile_append_of_pos fun e he => ?_
  rw [Bool.not_eq_true', Bool.eq_false_iff]
  intro hdown
  rw [setsDown_iff.mp hdown] at he
  exact h he

/-- Before the connection is down, everything is handed over. -/
lemma handedOver_of_notMem (hup : .setState .KDisconnected ∉ t) : handedOver t = bodies t := by
  have hall := beforeDown_append_of_notMem hup []
  rw [List.append_nil] at hall
  rw [handedOver, hall]
  exact congrArg bodies (List.append_nil t)

/-- The messages are a beginning of those for which `sendInLoop` has run at all. -/
lemma handedOver_isInitial (t : List (ConnEvent τ)) : handedOver t <+: bodies t :=
  (List.takeWhile_prefix _).filterMap _

/-- `state_` and the trace agree on whether the connection is down. -/
lemma LifeInv.down_iff (h : LifeInv t s) :
    .setState .KDisconnected ∈ t ↔ s.conn.state = .KDisconnected := by
  obtain ⟨-, -, -, hforward⟩ := h
  have hlast := hforward.getLast?
  have hmem : ConnEvent.setState .KDisconnected ∈ t ↔ .KDisconnected ∈ writes t := by
    simp only [writes, List.mem_filterMap]
    refine ⟨fun h => ⟨_, h, rfl⟩, fun ⟨e, he, hwrites⟩ => ?_⟩
    cases e <;> simp_all
  rw [hmem]
  constructor
  · intro hdown
    have hrank := hforward.rank_le_of_mem (List.mem_cons_of_mem _ hdown)
    cases hstate : s.conn.state with
    | KDisconnected => rfl
    | KConnecting | KConnected | KDisconnecting =>
      rw [hstate] at hrank
      exact absurd hrank (by decide)
  · intro hdown
    rw [hdown] at hlast
    have hlast := List.mem_of_getLast? hlast
    simpa using hlast

/-- The law of the output, in every state. -/
structure OutputInv (t : List (ConnEvent τ)) (s : ConnLoop τ) : Prop where
  life : LifeInv t s
  stream : s.accepted ++ s.conn.outputBuffer.readable = (handedOver t).flatMap Prod.snd

/-- A step keeps the law, unless it finds the connection reset. -/
theorem OutputInv.step {act : ConnAct τ} (h : OutputInv t s) (hpre : s.pre act)
    (hreset : s.NoReset act) (hstep : s.step act = some (s', out)) : OutputInv (t ++ out) s' := by
  have hlife := h.life.step hpre hstep
  refine ⟨hlife, ?_⟩
  obtain ⟨st, hinv, -⟩ := h.life
  by_cases hdown : s.conn.state = .KDisconnected
  · obtain ⟨haccepted, hbuffer, -⟩ := step_of_down hinv hdown hpre hstep
    rw [haccepted, hbuffer, handedOver, beforeDown_append_of_mem (h.life.down_iff.mpr hdown)]
    exact h.stream
  · have hup : .setState .KDisconnected ∉ t := fun hmem => hdown (h.life.down_iff.mp hmem)
    have hold := handedOver_of_notMem hup
    have hnew : handedOver (t ++ out) = bodies t ++ handedOver out := by
      rw [handedOver, beforeDown_append_of_notMem hup, bodies_append, handedOver]
    have hstream := h.stream
    rw [hold] at hstream
    rw [hnew, List.flatMap_append, ← hstream]
    -- a step that does not run `sendInLoop` has nothing to hand over, down or not
    have hnone : bodies out = [] → handedOver out = [] := fun hbodies =>
      List.prefix_nil.mp (hbodies ▸ handedOver_isInitial out)
    rcases (step_outputStep hinv.queue.short hpre hstep).moves with
      ⟨caller, message, w, hact, hw, hbodies, tasks, hsend⟩ | ⟨w, -, hw, hwrite⟩ | haside
    · have hwreset : w.NotReset := by
        rcases hact with rfl | rfl
        · exact hreset
        · exact hreset
      have hsent := sendInLoop_sent (s := { s with tasks := tasks }) hinv.conn.output hw hwreset
        hsend
      have hstate : s'.conn.state = s.conn.state := hsent.state
      have hup' : .setState .KDisconnected ∉ out := fun hmem =>
        hdown (hstate ▸ hlife.down_iff.mp (List.mem_append_right t hmem))
      rw [handedOver_of_notMem hup', hbodies, hsent.stream hdown]
      simp
    · have hdrained := handleWrite_drained hinv.conn.output hw hwrite
      rw [hdrained.stream, hnone hdrained.bodies]
      simp
    · rw [haside.accepted, haside.outputBuffer, hnone haside.bodies]
      simp

/-- A new connection has nothing to say. -/
lemma OutputInv.newConnection {kind : OwnerKind} {address fd highWaterMark : ℕ}
    {writeCompleteCallback highWaterMarkCallback handling : Bool} {poller : EPollPoller}
    (hchannels : poller.channels fd = none) (hinterest : poller.interest fd = none) :
    OutputInv [] (ConnLoop.newConnection kind (.new address fd highWaterMark true
      writeCompleteCallback highWaterMarkCallback) poller handling : ConnLoop τ) :=
  ⟨.newConnection hchannels hinterest, Buffer.readable_new⟩

end Trace

end ConnLoop

/-! ### The input over the whole life -/

/-- What has come in at a connection, and what user code has taken. -/
structure Traffic where
  /-- What each `readv` has delivered, when it delivered anything. -/
  chunks : List (List UInt8)
  /-- What each `retrieve` has taken out of `inputBuffer_`. -/
  taken : List (List UInt8)
  /-- `readv` has returned 0. -/
  ended : Bool

namespace Traffic

variable {τ : Type}

/-- Before anything has come in. -/
def new : Traffic := ⟨[], [], false⟩

/-- All bytes that have come in. -/
def received (h : Traffic) : List UInt8 := h.chunks.flatten

/-- What `handleRead` adds. -/
def read (h : Traffic) : ReadResult → Traffic
  | .error _ => h
  | .data [] => { h with ended := true }
  | .data bytes => { h with chunks := h.chunks ++ [bytes] }

/-- What a step of the connection adds. -/
def record (h : Traffic) (s : ConnLoop τ) : ConnAct τ → Traffic
  | .retrieve len => { h with taken := h.taken ++ [s.conn.inputBuffer.peek len] }
  | .testRead r => if s.reads then h.read r else h
  | _ => h

/-- A read adds its bytes to what has been received. -/
lemma received_read (h : Traffic) (r : ReadResult) :
    (h.read r).received = h.received ++ r.bytes := by
  unfold read
  split
  · exact (List.append_nil _).symm
  · exact (List.append_nil _).symm
  · simp [received, ReadResult.bytes]

/-- A read takes nothing out of the buffer. -/
@[simp] lemma taken_read (h : Traffic) (r : ReadResult) : (h.read r).taken = h.taken := by
  unfold read
  split <;> rfl

/-- A read is one more chunk if it has brought bytes. -/
lemma length_chunks_read (h : Traffic) (r : ReadResult) :
    (h.read r).chunks.length = h.chunks.length + if r.bytes = [] then 0 else 1 := by
  unfold read
  split
  · rfl
  · rfl
  · next bytes hne =>
    have hbytes : (ReadResult.data bytes).bytes ≠ [] := hne
    rw [if_neg hbytes, List.length_append, List.length_singleton]

/-- No chunk is empty. -/
lemma chunk_ne_nil_read {h : Traffic} {r : ReadResult} (hne : ∀ chunk ∈ h.chunks, chunk ≠ []) :
    ∀ chunk ∈ (h.read r).chunks, chunk ≠ [] := by
  unfold read
  split
  · exact hne
  · exact hne
  · next bytes hbytes =>
    intro chunk hchunk
    rcases List.mem_append.mp hchunk with hchunk | hchunk
    · exact hne chunk hchunk
    · rw [List.mem_singleton.mp hchunk]
      exact hbytes

/-- The end of the stream is a read of no bytes. -/
lemma ended_read {h : Traffic} {r : ReadResult} (hended : (h.read r).ended = true) :
    h.ended = true ∨ r = .data [] := by
  unfold read at hended
  split at hended
  · exact Or.inl hended
  · exact Or.inr rfl
  · exact Or.inl hended

/-- What is neither a read nor a retrieve is not recorded. -/
lemma record_of_other (h : Traffic) (s : ConnLoop τ) {act : ConnAct τ}
    (hretrieve : ∀ len, act ≠ .retrieve len) (hread : ∀ r, act = .testRead r → ¬ s.reads) :
    h.record s act = h := by
  cases act with
  | retrieve len => exact absurd rfl (hretrieve len)
  | testRead r => exact if_neg (hread r rfl)
  | _ => rfl

end Traffic

/-- All runs of a connection whose steps are `ok`, with what has come in. -/
def trafficMachine {τ : Type} (ok : ConnLoop τ → ConnAct τ → Prop) :
    Machine (ConnLoop τ × Traffic) (ConnAct τ) (ConnEvent τ) :=
  ((connMachine τ).restrict ok).withHistory Traffic.record

instance {τ : Type} (ok : ConnLoop τ → ConnAct τ → Prop) (p : ConnLoop τ × Traffic)
    (act : ConnAct τ) [Decidable (ok p.1 act)] : Decidable ((trafficMachine ok).pre p act) :=
  inferInstanceAs (Decidable (p.1.pre act ∧ ok p.1 act))

namespace ConnLoop

variable {τ : Type} {ok : ConnLoop τ → ConnAct τ → Prop} {t : List (ConnEvent τ)}
  {p p' : ConnLoop τ × Traffic} {out : List (ConnEvent τ)}

/-- The law of the input. -/
structure InputInv (t : List (ConnEvent τ)) (p : ConnLoop τ × Traffic) : Prop where
  life : LifeInv t p.1
  stream : p.2.taken.flatten ++ p.1.conn.inputBuffer.readable = p.2.received
  messages : messages t = p.2.chunks.length
  chunk_ne_nil : ∀ chunk ∈ p.2.chunks, chunk ≠ []
  ended : p.2.ended = true → p.1.conn.state = .KDisconnected

/-- One step keeps the law of the input. -/
lemma InputInv.step {act : ConnAct τ} (h : InputInv t p) (hpre : p.1.pre act)
    (hstep : p.1.step act = some (p'.1, out)) (hrecord : p'.2 = p.2.record p.1 act) :
    InputInv (t ++ out) p' := by
  have hlife := h.life.step hpre hstep
  obtain ⟨st, hinv, -⟩ := h.life
  rcases step_input_cases hinv.conn.input hstep with
    ⟨len, b, rfl, hb, hs', rfl⟩ | ⟨r, rfl, hreads, hread⟩ | ⟨hretrieve, hread, honward⟩
  · have hlen : len ≤ p.1.conn.inputBuffer.readableBytes := hpre.2
    obtain ⟨b', hb', -, hrest⟩ := Buffer.retrieve_spec hinv.conn.input hlen
    rw [hb', Option.some.injEq] at hb
    subst hb
    have htraffic : p'.2 = { p.2 with
        taken := p.2.taken ++ [p.1.conn.inputBuffer.readable.take len] } := by
      rw [hrecord, ← Buffer.peek_eq_take hinv.conn.input hlen]
      rfl
    refine ⟨hlife, ?_, ?_, ?_, ?_⟩
    · rw [htraffic, hs', List.flatten_append, List.append_assoc]
      simp only [List.flatten_cons, List.flatten_nil, List.append_nil, hrest,
        List.take_append_drop]
      exact h.stream
    · rw [htraffic, messages_append, h.messages]
      rfl
    · rw [htraffic]
      exact h.chunk_ne_nil
    · rw [htraffic, hs']
      exact h.ended
  · have htraffic : p'.2 = p.2.read r := by
      rw [hrecord]
      exact if_pos hreads
    refine ⟨hlife, ?_, ?_, ?_, fun hended => ?_⟩
    · rw [htraffic, hread.readable, Traffic.taken_read, Traffic.received_read, ← List.append_assoc,
        h.stream]
    · rw [htraffic, messages_append, h.messages, hread.messages, Traffic.length_chunks_read]
    · rw [htraffic]
      exact Traffic.chunk_ne_nil_read h.chunk_ne_nil
    · rw [htraffic] at hended
      rcases Traffic.ended_read hended with hold | hnew
      · exact (step_of_down hinv (h.ended hold) hpre hstep).2.2
      · exact hread.closed hnew
  · rw [Traffic.record_of_other p.2 p.1 hretrieve hread] at hrecord
    refine ⟨hlife, ?_, ?_, ?_, fun hended => ?_⟩
    · rw [hrecord, honward.inputBuffer]
      exact h.stream
    · rw [hrecord, messages_append, honward.messages, Nat.add_zero]
      exact h.messages
    · rw [hrecord]
      exact h.chunk_ne_nil
    · rw [hrecord] at hended
      exact (step_of_down hinv (h.ended hended) hpre hstep).2.2

/-- Nothing has come in yet. -/
lemma InputInv.newConnection {kind : OwnerKind} {address fd highWaterMark : ℕ}
    {writeCompleteCallback highWaterMarkCallback handling : Bool} {poller : EPollPoller}
    (hchannels : poller.channels fd = none) (hinterest : poller.interest fd = none) :
    InputInv [] ((ConnLoop.newConnection kind (.new address fd highWaterMark true
      writeCompleteCallback highWaterMarkCallback) poller handling, .new) :
        ConnLoop τ × Traffic) :=
  ⟨.newConnection hchannels hinterest, Buffer.readable_new, rfl,
    fun _ h => (List.not_mem_nil h).elim, fun h => by cases h⟩

/-- So the law of the input holds throughout every run. -/
lemma InputInv.of_run {p₀ : ConnLoop τ × Traffic} (h₀ : InputInv [] p₀)
    (h : (trafficMachine ok).Run p₀ t p) : InputInv t p :=
  h.invariant InputInv h₀ fun _ _ _ _ _ hinv hpre hstep =>
    let hsteps := Machine.withHistory_step hstep
    hinv.step hpre.1 hsteps.1 hsteps.2

/-- A connection that is down reads nothing. -/
lemma chunks_of_down {st : Stage} {act : ConnAct τ} (hinv : StageInv st p.1)
    (hdown : p.1.conn.state = .KDisconnected) (hpre : p.1.pre act) :
    (p.2.record p.1 act).chunks = p.2.chunks := by
  cases act with
  | testRead r =>
    obtain rfl := hinv.fits hpre.1
    rcases hinv.conn.state with hstate | hstate <;> cases hstate.symm.trans hdown
  | _ => rfl

/-- The input of a connection.  In every run:
what user code has taken out of `inputBuffer_`, followed by what is still in it, is what `readv` has
delivered, in the order of delivery;
`messageCallback_` has been called once for each `readv` that delivered anything;
the end of the stream closes the connection, and whatever has closed it, nothing is read any more.
`startRead` and `stopRead` are not among the steps. -/
theorem input_stream_integrity {kind : OwnerKind} {address fd highWaterMark : ℕ}
    {writeCompleteCallback highWaterMarkCallback handling : Bool} {poller : EPollPoller}
    (hchannels : poller.channels fd = none) (hinterest : poller.interest fd = none)
    (h : (trafficMachine ok).Run (newConnection kind (.new address fd highWaterMark true
      writeCompleteCallback highWaterMarkCallback) poller handling, .new) t p) :
    p.2.taken.flatten ++ p.1.conn.inputBuffer.readable = p.2.received ∧
      (messages t = p.2.chunks.length ∧ ∀ chunk ∈ p.2.chunks, chunk ≠ []) ∧
      (p.2.ended = true → p.1.conn.state = .KDisconnected) ∧
      (p.1.conn.state = .KDisconnected →
        ∀ t' p', (trafficMachine ok).Run p t' p' → p'.2.chunks = p.2.chunks) := by
  have hinv := InputInv.of_run (.newConnection hchannels hinterest) h
  refine ⟨hinv.stream, ⟨hinv.messages, hinv.chunk_ne_nil⟩, hinv.ended, fun hdown t' p' h' => ?_⟩
  have hboth : p'.1.conn.state = .KDisconnected ∧ p'.2.chunks = p.2.chunks := by
    refine h'.reachedInvariant
      (fun _ p' => p'.1.conn.state = .KDisconnected ∧ p'.2.chunks = p.2.chunks) ⟨hdown, rfl⟩ ?_
    rintro t₁ p₁ act p₂ out hrun ⟨hdown₁, hchunks⟩ hpre hstep
    obtain ⟨hs, hrecord⟩ := Machine.withHistory_step hstep
    obtain ⟨st, hst, -⟩ := (InputInv.of_run (.newConnection hchannels hinterest)
      (h.append hrun)).life
    refine ⟨(step_of_down hst hdown₁ hpre.1 hs).2.2, ?_⟩
    rw [hrecord, chunks_of_down hst hdown₁ hpre.1, hchunks]
  exact hboth.2

/-- Two reads, of which the user takes the first byte and later two more, a failed one and the end
of the stream, after which a byte is left. -/
theorem input_stream_integrity_end :
    ∃ t p, (trafficMachine (τ := ℕ) fun _ _ => True).Run
        (newConnection .serverSameLoop (.new 1 5 64 true true true) emptyPoller true, .new) t p ∧
      (p.2.chunks = [[1, 2], [3, 4]] ∧ p.2.taken = [[1], [2, 3]] ∧ p.2.ended = true) ∧
      p.2.taken.flatten ++ p.1.conn.inputBuffer.readable = p.2.received ∧ messages t = 2 ∧
      p.1.conn.state = .KDisconnected := by
  obtain ⟨t, p, hrun, hchunks, htaken, hended⟩ :=
    (trafficMachine (τ := ℕ) fun _ _ => True).exists_run_of_exec
    (newConnection .serverSameLoop (.new 1 5 64 true true true) emptyPoller true, .new)
    [.connectEstablished, .callbackReturns, .endHandling,
      .poll {.EPOLLIN}, .handleEvent, .testClose, .testError, .testRead (.data [1, 2]),
      .retrieve 1, .callbackReturns, .testWrite (.ok 0), .endEvent, .endHandling,
      .poll {.EPOLLIN}, .handleEvent, .testClose, .testError, .testRead (.error 11),
      .testWrite (.ok 0), .endEvent, .endHandling,
      .poll {.EPOLLIN}, .handleEvent, .testClose, .testError, .testRead (.data [3, 4]),
      .callbackReturns, .testWrite (.ok 0), .endEvent, .endHandling, .retrieve 2,
      .poll {.EPOLLIN}, .handleEvent, .testClose, .testError, .testRead (.data [])]
    (fun p _ => p.2.chunks = [[1, 2], [3, 4]] ∧ p.2.taken = [[1], [2, 3]] ∧ p.2.ended = true)
    (by decide +kernel)
  obtain ⟨hstream, ⟨hmessages, -⟩, hdown, -⟩ := input_stream_integrity rfl rfl hrun
  rw [hchunks] at hmessages
  exact ⟨t, p, hrun, ⟨hchunks, htaken, hended⟩, hstream, hmessages, hdown hended⟩

end ConnLoop

end MuduoServer
