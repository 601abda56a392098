import MuduoServer.Tcp.Footprint
import MuduoServer.Tcp.Link

/-!
# The echo server

The program `examples/ser.cc`: a `TcpServer` whose `onMessage` takes everything out of the buffer,
sends it back and calls `forceClose`.  The connection that it serves is one end of a link; at the
other end is any client.

`forceClose` only posts `forceCloseInLoop`, and between the callback and the task the loop thread
goes on.  That `onMessage` is nevertheless called only once for a connection rests on
`EventLoop::loop`, which empties the queue after every dispatch: the functors that are there when
`doPendingFunctors` begins are called before the next `poll`.
-/

namespace MuduoServer

/-- Where `onMessage` of `ser.cc` stands. -/
inductive MessagePc where
  /-- Before `buf->retrieveAllString()`. -/
  | entered
  /-- Before `conn->send(res.data(), res.size())`. -/
  | retrieved
  /-- Before `conn->forceClose()`. -/
  | sent
  /-- At its end. -/
  | closed
  deriving DecidableEq, Repr

/-- What the server's loop and the user code on it have to remember. -/
structure EchoCtl where
  user : MessagePc
  /-- How many tasks of the connection are left of the batch of `doPendingFunctors`. -/
  batch : ℕ

namespace EchoCtl

variable {τ : Type}

/-- Before the first iteration of the loop. -/
def new : EchoCtl := ⟨.entered, 0⟩

/-- What a step of the server's connection changes. -/
def record (h : EchoCtl) (s : ConnLoop τ) : ConnAct τ → EchoCtl
  | .testRead _ => { h with user := .entered }
  | .retrieve _ => { h with user := .retrieved }
  | .send _ _ => { h with user := .sent }
  | .forceClose => { h with user := .closed }
  | .endHandling => { h with batch := s.tasks.length }
  | .runTask _ => { h with batch := h.batch - 1 }
  | _ => h

end EchoCtl

namespace ConnLoop

variable {τ : Type}

/-- The steps of a connection that `ser.cc` serves.  No other thread knows the connection, and its
`onConnection` does nothing with it; what `onMessage` sends is the string that it has taken; and the
loop polls when the batch has been called. -/
def Echoes (q : ConnLoop τ × Traffic) (h : EchoCtl) : ConnAct τ → Prop
  | .postSend _ _ => False
  | .retrieve len => q.1.pc = .inMessage ∧ h.user = .entered ∧
      len = q.1.conn.inputBuffer.readableBytes
  | .send message _ => q.1.pc = .inMessage ∧ h.user = .retrieved ∧
      q.2.taken.getLast? = some message
  | .forceClose => q.1.pc = .inMessage ∧ h.user = .sent
  | .callbackReturns => q.1.pc = .inMessage → h.user = .closed
  | .poll _ | .pollOther => h.batch = 0
  | _ => True

instance (q : ConnLoop τ × Traffic) (h : EchoCtl) (act : ConnAct τ) :
    Decidable (Echoes q h act) := by
  apply ConnAct.casesOn (motive := fun act => Decidable (Echoes q h act)) act <;>
    intros <;> unfold Echoes <;> infer_instance

end ConnLoop

open ConnLoop

/-- A connection that `ser.cc` serves. -/
def echoMachine (τ : Type) :
    Machine ((ConnLoop τ × Traffic) × EchoCtl) (ConnAct τ) (ConnEvent τ) :=
  ((trafficMachine fun _ _ => True).withHistory fun h q act => h.record q.1 act).restrict
    fun q act => Echoes q.1 q.2 act

instance {τ : Type} (q : (ConnLoop τ × Traffic) × EchoCtl) (act : ConnAct τ) :
    Decidable ((echoMachine τ).pre q act) :=
  inferInstanceAs (Decidable ((q.1.1.pre act ∧ True) ∧ Echoes q.1 q.2 act))

/-- A client, whose steps are `okA`, and the connection that the server has with it. -/
def echoLink {τ : Type} (okA : ConnLoop τ → ConnAct τ → Prop) (τ' : Type) :
    Machine ((ConnLoop τ × Traffic) × (ConnLoop τ' × Traffic) × EchoCtl) (ConnAct τ ⊕ ConnAct τ')
      (ConnEvent τ ⊕ ConnEvent τ') :=
  (trafficMachine okA).parallel (echoMachine τ') fun p q act => LinkSync p q.1 act

instance {τ τ' : Type} (okA : ConnLoop τ → ConnAct τ → Prop)
    (p : (ConnLoop τ × Traffic) × (ConnLoop τ' × Traffic) × EchoCtl) (act : ConnAct τ ⊕ ConnAct τ')
    [∀ s act, Decidable (okA s act)] : Decidable ((echoLink okA τ').pre p act) :=
  match act with
  | .inl act => inferInstanceAs (Decidable
      ((trafficMachine okA).pre p.1 act ∧ LinkSync p.1 p.2.1 (.inl act)))
  | .inr act => inferInstanceAs (Decidable
      ((echoMachine τ').pre p.2 act ∧ LinkSync p.1 p.2.1 (.inr act)))

/-! ### Where the loop thread goes -/

namespace ConnLoop

variable {τ : Type} {s s' : ConnLoop τ} {out : List (ConnEvent τ)} {st : Stage}

/-- While the channel is being dispatched, `eventHandling_` of the loop is set. -/
def Handling (s : ConnLoop τ) : Prop :=
  s.pc = .polled ∨ s.pc.dispatches = true → s.dispatch.eventHandling = true

/-- Every step keeps the flag of the dispatch. -/
lemma Handling.step {act : ConnAct τ} (h : s.Handling) (hpre : s.pre act)
    (hstep : s.step act = some (s', out)) : s'.Handling := by
  by_cases hact : act.ofConn = true
  · have hlocal := Local.step hact hstep
    have hsame := step_dispatches hact hpre hstep
    intro hpc
    rw [hlocal.dispatch]
    exact h (hpc.imp hlocal.polled fun hin => hsame ▸ hin)
  · cases act with
    | runTask w =>
      intro hpc
      have hout := runTask_dispatches hpre.1 hstep
      rcases hpc with hpolled | hin
      · cases htasks : s.tasks with
        | nil =>
          simp only [ConnLoop.step, ConnLoop.runTask, htasks] at hstep
          cases hstep
          cases hpre.1.symm.trans hpolled
        | cons task tasks =>
          have hwas := (Local.runTask htasks hstep).polled hpolled
          cases hpre.1.symm.trans hwas
      · rw [hout] at hin
        cases hin
    | poll revents =>
      cases hstep
      exact fun _ => rfl
    | pollOther =>
      cases hstep
      exact fun _ => rfl
    | endHandling =>
      cases hstep
      intro hpc
      rw [show ConnLoop.pc _ = .idle from hpre.1] at hpc
      rcases hpc with hpc | hpc <;> cases hpc
    | handleEvent =>
      cases hstep
      exact fun _ => h (Or.inl hpre)
    | endEvent =>
      cases hstep
      intro hpc
      rcases hpc with hpc | hpc <;> cases hpc
    | _ => exact absurd rfl hact

/-- What `forceCloseInLoop` leaves the loop thread in. -/
lemma forceCloseInLoop_pc {k : Option Phase} (h : s.forceCloseInLoop k = some (s', out)) :
    s'.pc ≠ .inMessage := by
  rcases forceCloseInLoop_eq_some h with hclose | ⟨-, rfl, -⟩
  · obtain ⟨-, r, -, rfl, -⟩ := handleClose_eq_some hclose
    nofun
  · cases k <;> nofun

/-- `handleWrite` does not call `messageCallback_`. -/
lemma handleWrite_pc {w : WriteResult} (h : s.handleWrite w = some (s', out)) :
    s'.pc ≠ .inMessage := by
  rcases handleWrite_eq_some h with
    ⟨n, b, s₁, -, -, -, -, rfl, ⟨-, hcomplete⟩ | ⟨-, rfl, -⟩⟩ | ⟨rfl, -⟩
  · obtain ⟨r, s₁, -, rfl, ⟨-, hclose⟩ | ⟨-, rfl, -⟩⟩ := writeComplete_eq_some hcomplete
    · exact forceCloseInLoop_pc hclose
    · nofun
  · nofun
  · nofun

/-- `handleRead` calls `messageCallback_` exactly if it has read something. -/
lemma handleRead_pc {r : ReadResult} (hvalid : s.conn.inputBuffer.Valid)
    (h : s.handleRead r = some (s', out)) :
    (∃ bytes, bytes ≠ [] ∧ r = .data bytes ∧ s'.pc = .inMessage) ∨
      (∀ traffic : Traffic, (traffic.read r).chunks = traffic.chunks) ∧ s'.pc ≠ .inMessage := by
  cases r with
  | error errno =>
    obtain ⟨rfl, rfl⟩ := Prod.mk.inj (Option.some.inj h)
    exact Or.inr ⟨fun _ => rfl, nofun⟩
  | data bytes =>
    obtain ⟨b, hb, -, -⟩ := Buffer.readFd_data_spec hvalid bytes
    obtain ⟨r, hr, h⟩ := Option.bind_eq_some_iff.mp h
    rw [hb, Option.some.injEq] at hr
    subst hr
    cases bytes with
    | nil =>
      obtain ⟨-, r, -, rfl, -⟩ := handleClose_eq_some h
      exact Or.inr ⟨fun _ => rfl, nofun⟩
    | cons byte bytes =>
      have hpos : (0 : ℤ) < ((byte :: bytes).length : ℤ) := by simp
      dsimp only at h
      rw [if_pos hpos] at h
      obtain ⟨rfl, rfl⟩ := Prod.mk.inj (Option.some.inj h)
      exact Or.inl ⟨byte :: bytes, List.cons_ne_nil _ _, rfl, rfl⟩

/-- `messageCallback_` is called by the step that reads something, and by no other; no other step
adds a chunk either. -/
theorem message_step {act : ConnAct τ} (hvalid : s.conn.inputBuffer.Valid) (hpre : s.pre act)
    (h : s.step act = some (s', out)) :
    (∃ bytes, bytes ≠ [] ∧ act = .testRead (.data bytes) ∧ s.reads ∧ s'.pc = .inMessage) ∨
      (∀ traffic : Traffic, (traffic.record s act).chunks = traffic.chunks) ∧
        (s'.pc = .inMessage → s.pc = .inMessage ∧ act.isCall = true) := by
  by_cases hcall : act.isCall = true
  · refine Or.inr ⟨fun traffic => ?_, fun hpc => ⟨(step_keepsTable hcall h).2 ▸ hpc, hcall⟩⟩
    cases act <;> first | rfl | cases hcall
  · cases act with
    | postSend | send | forceClose | retrieve | removeConnectionInLoop => exact absurd rfl hcall
    | testRead r =>
      simp only [ConnLoop.step] at h
      split at h
      · next hreads =>
        have hrecord : ∀ traffic : Traffic, traffic.record s (.testRead r) = traffic.read r :=
          fun _ => if_pos hreads
        rcases handleRead_pc hvalid h with ⟨bytes, hbytes, rfl, hpc⟩ | ⟨hread, hpc⟩
        · exact Or.inl ⟨bytes, hbytes, rfl, hreads, hpc⟩
        · exact Or.inr ⟨fun traffic => (congrArg Traffic.chunks (hrecord traffic)).trans
            (hread traffic), fun hin => absurd hin hpc⟩
      · next hreads =>
        obtain ⟨rfl, -⟩ := Prod.mk.inj (Option.some.inj h)
        exact Or.inr ⟨fun traffic => congrArg Traffic.chunks (if_neg hreads),
          fun hpc => by cases hpc⟩
    | testClose =>
      simp only [ConnLoop.step] at h
      split at h
      · obtain ⟨-, r, -, rfl, -⟩ := handleClose_eq_some h
        exact Or.inr ⟨fun _ => rfl, fun hpc => by cases hpc⟩
      · obtain ⟨rfl, -⟩ := Prod.mk.inj (Option.some.inj h)
        exact Or.inr ⟨fun _ => rfl, fun hpc => by cases hpc⟩
    | testWrite w =>
      simp only [ConnLoop.step] at h
      split at h
      · exact Or.inr ⟨fun _ => rfl, fun hpc => absurd hpc (handleWrite_pc h)⟩
      · obtain ⟨rfl, -⟩ := Prod.mk.inj (Option.some.inj h)
        exact Or.inr ⟨fun _ => rfl, fun hpc => by cases hpc⟩
    | runTask w =>
      refine Or.inr ⟨fun _ => rfl, fun hpc => ?_⟩
      have hout := runTask_dispatches hpre.1 h
      rw [hpc] at hout
      cases hout
    | callbackReturns =>
      refine Or.inr ⟨fun _ => rfl, fun hpc => ?_⟩
      rcases callbackReturns_eq_some h with
        ⟨-, rfl, -⟩ | ⟨-, rfl, -⟩ | ⟨k, out', -, hclose, -⟩ | ⟨hnone, -, -⟩
      · cases hpc
      · cases hpc
      · rw [closeCallback_pc hclose] at hpc
        cases k <;> cases hpc
      · rw [show s.pc.inCallback = true from hpre] at hnone
        cases hnone
    | connectEstablished =>
      obtain ⟨-, r, -, rfl, -⟩ := connectEstablished_eq_some h
      exact Or.inr ⟨fun _ => rfl, fun hpc => by cases hpc⟩
    | pollOther | endHandling =>
      obtain ⟨rfl, -⟩ := Prod.mk.inj (Option.some.inj h)
      refine Or.inr ⟨fun _ => rfl, fun hpc => ?_⟩
      cases hpre.1.symm.trans hpc
    | _ =>
      obtain ⟨rfl, -⟩ := Prod.mk.inj (Option.some.inj h)
      exact Or.inr ⟨fun _ => rfl, fun hpc => by cases hpc⟩

/-! ### What has been written -/

/-- What the kernel has taken, and what is to follow. -/
def written (s : ConnLoop τ) : List UInt8 := s.accepted ++ s.conn.outputBuffer.readable

/-- A message is written as a whole, or dropped as a whole when the connection is reset. -/
lemma sendInLoop_written {message : List UInt8} {w : WriteResult}
    (hvalid : s.conn.outputBuffer.Valid) (hw : w.Within message.length)
    (hup : s.conn.state ≠ .KDisconnected)
    (h : s.sendInLoop message message.length w = some s') :
    (s'.written = s.written ∨ s'.written = s.written ++ message) ∧
      queuedSends s'.tasks = queuedSends s.tasks := by
  by_cases hreset : w.NotReset
  · have hsent := sendInLoop_sent hvalid hw hreset h
    exact ⟨Or.inr (hsent.stream hup), hsent.sends⟩
  · obtain ⟨errno, rfl, hfault⟩ : ∃ errno, w = .error errno ∧
        (errno = .EPIPE ∨ errno = .ECONNRESET) := by
      cases w with
      | ok n => exact absurd ⟨nofun, nofun⟩ hreset
      | error errno =>
        refine ⟨errno, rfl, ?_⟩
        by_contra hother
        rw [not_or] at hother
        exact hreset ⟨fun h => hother.1 (WriteResult.error.inj h),
          fun h => hother.2 (WriteResult.error.inj h)⟩
    by_cases hdirect : s.writesDirectly
    · -- the direct write finds the connection reset
      have hresult : s.sendInLoop message message.length (.error errno) = some s := by
        simp [sendInLoop, direct, hdirect, hup, hfault]
      obtain rfl := Option.some.inj (hresult.symm.trans h)
      exact ⟨Or.inl rfl, rfl⟩
    · -- nothing is written directly, and `w` plays no part
      have hsame : s.sendInLoop message message.length (.error .EWOULDBLOCK) = some s' := by
        rw [← h]
        simp only [sendInLoop, direct, if_neg hdirect]
      have hwithin : (WriteResult.error .EWOULDBLOCK).Within message.length := trivial
      have hsent := sendInLoop_sent hvalid hwithin (by decide) hsame
      exact ⟨Or.inr (hsent.stream hup), hsent.sends⟩

/-- A task other than `sendInLoop`. -/
lemma runTask_frame {w : WriteResult} (hsends : queuedSends s.tasks = [])
    (h : s.runTask w = some (s', out)) : Frame s out s' := by
  unfold ConnLoop.runTask at h
  split at h
  · obtain ⟨rfl, rfl⟩ := Prod.mk.inj (Option.some.inj h)
    exact Frame.refl s
  · next task tasks htasks =>
    rw [htasks, ← List.singleton_append, queuedSends_append, List.append_eq_nil_iff] at hsends
    have hpop : Frame s [] { s with tasks := tasks } := by
      refine ⟨rfl, rfl, ?_, id, rfl, rfl⟩
      rw [htasks, ← List.singleton_append, queuedSends_append, hsends.1, List.nil_append]
    cases task with
    | sendInLoop poster message => cases hsends.1
    | connectEstablished => exact hpop.trans (Frame.connectEstablished h)
    | forceCloseInLoop => exact hpop.trans (Frame.forceCloseInLoop h)
    | connectDestroyed => exact hpop.trans (Frame.connectDestroyed h)
    | writeCompleteCallback | highWaterMarkCallback size =>
      obtain ⟨rfl, rfl⟩ := Prod.mk.inj (Option.some.inj h)
      exact ⟨rfl, rfl, hpop.sends, id, rfl, rfl⟩

/-- Nothing is written but by `send`, and nothing dropped. -/
theorem step_written {act : ConnAct τ} (hvalid : s.conn.outputBuffer.Valid)
    (hsends : queuedSends s.tasks = []) (hact : calledBy act = []) (hpre : s.pre act)
    (h : s.step act = some (s', out)) :
    s'.written = s.written ∧ queuedSends s'.tasks = [] := by
  have hframe : Frame s out s' → s'.written = s.written ∧ queuedSends s'.tasks = [] :=
    fun hframe => ⟨congrArg₂ (· ++ ·) hframe.accepted (congrArg _ hframe.outputBuffer),
      hframe.sends.trans hsends⟩
  cases act with
  | postSend | send => cases hact
  | runTask w => exact hframe (runTask_frame hsends h)
  | forceClose => exact hframe (Frame.forceClose (Option.some.inj h))
  | retrieve len =>
    obtain ⟨b, -, heq⟩ := Option.bind_eq_some_iff.mp h
    obtain ⟨rfl, rfl⟩ := Prod.mk.inj (Option.some.inj heq)
    exact ⟨rfl, hsends⟩
  | connectEstablished => exact hframe (Frame.connectEstablished h)
  | removeConnectionInLoop =>
    obtain ⟨s₁, hs₁, heq⟩ := Option.map_eq_some_iff.mp h
    obtain ⟨rfl, rfl⟩ := Prod.mk.inj heq
    obtain ⟨haccepted, hbuffer, hqueued, -, -, -⟩ := Frame.removeConnectionInLoop hs₁
    exact ⟨congrArg₂ (· ++ ·) haccepted (congrArg _ hbuffer), hqueued.trans hsends⟩
  | testClose =>
    simp only [ConnLoop.step] at h
    split at h
    · exact hframe (Frame.handleClose h)
    · obtain ⟨rfl, rfl⟩ := Prod.mk.inj (Option.some.inj h)
      exact ⟨rfl, hsends⟩
  | testRead r =>
    simp only [ConnLoop.step] at h
    split at h
    · exact hframe (Frame.handleRead h)
    · obtain ⟨rfl, rfl⟩ := Prod.mk.inj (Option.some.inj h)
      exact ⟨rfl, hsends⟩
  | testWrite w =>
    simp only [ConnLoop.step] at h
    split at h
    · have hdrained := handleWrite_drained hvalid hpre.2 h
      exact ⟨hdrained.stream, hdrained.sends.trans hsends⟩
    · obtain ⟨rfl, rfl⟩ := Prod.mk.inj (Option.some.inj h)
      exact ⟨rfl, hsends⟩
  | callbackReturns => exact hframe (Frame.callbackReturns h)
  | _ =>
    obtain ⟨rfl, rfl⟩ := Prod.mk.inj (Option.some.inj h)
    exact ⟨rfl, hsends⟩

/-! ### The phases of an echo -/

/-- What has happened to a connection that `ser.cc` serves. -/
inductive EchoPhase (q : ConnLoop τ × Traffic) (h : EchoCtl) : Prop
  | silent (hchunks : q.2.chunks = []) (htaken : q.2.taken = []) (hwritten : q.1.written = [])
      (hpc : q.1.pc ≠ .inMessage)
  | entered (chunk : List UInt8) (hchunks : q.2.chunks = [chunk]) (htaken : q.2.taken = [])
      (hwritten : q.1.written = []) (hpc : q.1.pc = .inMessage) (huser : h.user = .entered)
  | retrieved (chunk : List UInt8) (hchunks : q.2.chunks = [chunk]) (htaken : q.2.taken = [chunk])
      (hwritten : q.1.written = []) (hpc : q.1.pc = .inMessage) (huser : h.user = .retrieved)
  | sent (chunk : List UInt8) (hchunks : q.2.chunks = [chunk]) (hwritten : q.1.written <+: chunk)
      (hpc : q.1.pc = .inMessage) (huser : h.user = .sent)
  | closed (chunk : List UInt8) (hchunks : q.2.chunks = [chunk]) (hwritten : q.1.written <+: chunk)
      (hpc : q.1.pc = .inMessage) (huser : h.user = .closed)
      (hstate : q.1.conn.state = .KDisconnecting) (htask : .forceCloseInLoop ∈ q.1.tasks)
  /-- The rest of the dispatch. -/
  | leaving (chunk : List UInt8) (hchunks : q.2.chunks = [chunk]) (hwritten : q.1.written <+: chunk)
      (hpc : q.1.pc = .phase .write ∨ q.1.pc = .phase .done ∨ q.1.pc = .idle)
      (hhandling : q.1.dispatch.eventHandling = true)
      (hstate : q.1.conn.state = .KDisconnecting) (htask : .forceCloseInLoop ∈ q.1.tasks)
  /-- `doPendingFunctors` has the task in its batch. -/
  | batched (chunk : List UInt8) (hchunks : q.2.chunks = [chunk]) (hwritten : q.1.written <+: chunk)
      (hpc : q.1.pc = .idle) (hhandling : q.1.dispatch.eventHandling = false)
      (hstate : q.1.conn.state = .KDisconnecting)
      (htask : .forceCloseInLoop ∈ q.1.tasks.take h.batch)
  | down (chunk : List UInt8) (hchunks : q.2.chunks = [chunk]) (hwritten : q.1.written <+: chunk)
      (hstate : q.1.conn.state = .KDisconnected)

/-- The law of a connection that `ser.cc` serves. -/
structure EchoInv (t : List (ConnEvent τ)) (q : ConnLoop τ × Traffic) (h : EchoCtl) : Prop where
  input : InputInv t q
  sends : queuedSends q.1.tasks = []
  handling : q.1.Handling
  phase : EchoPhase q h

section Step

variable {t : List (ConnEvent τ)} {q q' : ConnLoop τ × Traffic} {h : EchoCtl} {act : ConnAct τ}

/-- What all steps of the loop thread and its user code have in common. -/
structure EchoStep (q : ConnLoop τ × Traffic) (h : EchoCtl) (act : ConnAct τ)
    (out : List (ConnEvent τ)) (q' : ConnLoop τ × Traffic) : Prop where
  pre : q.1.pre act
  echoes : Echoes q h act
  step : q.1.step act = some (q'.1, out)
  record : q'.2 = q.2.record q.1 act

/-- In `messageCallback_` only user code and other threads take steps. -/
lemma act_of_inMessage (hst : StageInv st s) (hpc : s.pc = .inMessage) (hpre : s.pre act) :
    (∃ caller message, act = .postSend caller message) ∨ (∃ message w, act = .send message w) ∨
      act = .forceClose ∨ (∃ len, act = .retrieve len) ∨ act = .callbackReturns := by
  obtain rfl : st = .up := hst.fits hpc
  cases act with
  | postSend caller message => exact Or.inl ⟨caller, message, rfl⟩
  | send message w => exact Or.inr (Or.inl ⟨message, w, rfl⟩)
  | forceClose => exact Or.inr (Or.inr (Or.inl rfl))
  | retrieve len => exact Or.inr (Or.inr (Or.inr (Or.inl ⟨len, rfl⟩)))
  | callbackReturns => exact Or.inr (Or.inr (Or.inr (Or.inr rfl)))
  | removeConnectionInLoop =>
    have hposted : 0 < s.owner.posted := hpre
    rw [hst.owner.posted] at hposted
    exact absurd hposted (by decide)
  | connectEstablished | handleEvent | testClose | testError | endEvent =>
    cases hpc.symm.trans hpre
  | _ => cases hpc.symm.trans hpre.1

/-- Behind the test for reading, a connection of `ser.cc` takes only these steps until it is
down. -/
lemma act_of_leaving (hst : StageInv .up q.1)
    (hpc : q.1.pc = .phase .write ∨ q.1.pc = .phase .done ∨ q.1.pc = .idle)
    (hpre : q.1.pre act) (hechoes : Echoes q h act) :
    (∃ w, act = .testWrite w) ∨ act = .endEvent ∨ act = .endHandling ∨ (∃ w, act = .runTask w) ∨
      (∃ revents, act = .poll revents) ∨ act = .pollOther := by
  have hne : ∀ {pc}, q.1.pc = pc → pc = .phase .write ∨ pc = .phase .done ∨ pc = .idle :=
    fun heq => heq ▸ hpc
  cases act with
  | testWrite w => exact Or.inl ⟨w, rfl⟩
  | endEvent => exact Or.inr (Or.inl rfl)
  | endHandling => exact Or.inr (Or.inr (Or.inl rfl))
  | runTask w => exact Or.inr (Or.inr (Or.inr (Or.inl ⟨w, rfl⟩)))
  | poll revents => exact Or.inr (Or.inr (Or.inr (Or.inr (Or.inl ⟨revents, rfl⟩))))
  | pollOther => exact Or.inr (Or.inr (Or.inr (Or.inr (Or.inr rfl))))
  | postSend caller message => exact hechoes.elim
  | send | retrieve | forceClose => exact absurd (hne hechoes.1) (by decide)
  | connectEstablished | handleEvent | testClose | testError => exact absurd (hne hpre) (by decide)
  | testRead r => exact absurd (hne hpre.1) (by decide)
  | callbackReturns =>
    have hcallback : q.1.pc.inCallback = true := hpre
    rcases hpc with hpc | hpc | hpc <;> rw [hpc] at hcallback <;> cases hcallback
  | removeConnectionInLoop =>
    have hposted : 0 < q.1.owner.posted := hpre
    rw [hst.owner.posted] at hposted
    exact absurd hposted (by decide)

/-- `handleWrite` takes a connection that is closing down, or leaves it as it is. -/
lemma handleWrite_closing {w : WriteResult} (hstate : s.conn.state = .KDisconnecting)
    (h : s.handleWrite w = some (s', out)) :
    s'.conn.state = .KDisconnected ∨
      s'.conn.state = .KDisconnecting ∧ s'.pc = .phase .done := by
  rcases handleWrite_eq_some h with
    ⟨n, b, s₁, -, -, -, -, rfl, ⟨-, hcomplete⟩ | ⟨-, rfl, -⟩⟩ | ⟨rfl, -⟩
  · obtain ⟨r, s₁, -, rfl, ⟨-, hclose⟩ | ⟨hne, -, -⟩⟩ := writeComplete_eq_some hcomplete
    · rcases forceCloseInLoop_eq_some hclose with hclose | ⟨hopen, -, -⟩
      · obtain ⟨-, r, -, rfl, -⟩ := handleClose_eq_some hclose
        exact Or.inl rfl
      · exact absurd (Or.inr hstate) hopen
    · exact absurd hstate hne
  · exact Or.inr ⟨hstate, rfl⟩
  · exact Or.inr ⟨hstate, rfl⟩

/-- A task takes a connection that is closing down, if it is `forceCloseInLoop`, or leaves it as it
is. -/
lemma runTask_closing {w : WriteResult} {task : ConnTask τ} {tasks : List (ConnTask τ)}
    (hst : StageInv .up s) (hstate : s.conn.state = .KDisconnecting)
    (hsends : queuedSends s.tasks = []) (htasks : s.tasks = task :: tasks)
    (h : s.runTask w = some (s', out)) :
    s'.conn.state = .KDisconnected ∨ task ≠ .forceCloseInLoop ∧
      s'.conn.state = .KDisconnecting ∧ s'.pc = s.pc := by
  have hqueue := hst.queue
  rw [htasks] at hqueue hsends
  unfold ConnLoop.runTask at h
  simp only [htasks] at h
  cases task with
  | connectEstablished =>
    cases hqueue.establish.1
  | sendInLoop poster message => cases hsends
  | forceCloseInLoop =>
    rcases forceCloseInLoop_eq_some h with hclose | ⟨hopen, -, -⟩
    · obtain ⟨-, r, -, rfl, -⟩ := handleClose_eq_some hclose
      exact Or.inl rfl
    · exact absurd (Or.inr hstate) hopen
  | writeCompleteCallback | highWaterMarkCallback size =>
    obtain ⟨rfl, -⟩ := Prod.mk.inj (Option.some.inj h)
    exact Or.inr ⟨nofun, hstate, rfl⟩
  | connectDestroyed => cases hqueue.destroyed.1

/-- What `send` does in `onMessage`. -/
lemma EchoStep.send {message : List UInt8} {w : WriteResult} (hst : StageInv st q.1)
    (hs : EchoStep q h (.send message w) out q') :
    (q'.1.written = q.1.written ∨ q'.1.written = q.1.written ++ message) ∧
      queuedSends q'.1.tasks = queuedSends q.1.tasks := by
  obtain rfl : st = .up := hst.fits hs.echoes.1
  obtain ⟨-, hlen, hw⟩ := hs.pre
  obtain ⟨s₁, hs₁, heq⟩ := Option.map_eq_some_iff.mp hs.step
  obtain ⟨rfl, -⟩ := Prod.mk.inj heq
  rw [ConnLoop.send, sizeOfInt_natCast hlen] at hs₁
  refine sendInLoop_written hst.conn.output hw (fun hdown => ?_) hs₁
  rcases hst.conn.state with hstate | hstate <;> cases hstate.symm.trans hdown

/-- Every other step writes nothing new. -/
lemma EchoStep.still (hst : StageInv st q.1) (hsends : queuedSends q.1.tasks = [])
    (hs : EchoStep q h act out q') (hact : ∀ message w, act ≠ .send message w) :
    q'.1.written = q.1.written ∧ queuedSends q'.1.tasks = [] := by
  refine step_written hst.conn.output hsends ?_ hs.pre hs.step
  cases act with
  | postSend caller message => exact hs.echoes.elim
  | send message w => exact absurd rfl (hact message w)
  | _ => rfl

/-- Only `retrieve` takes anything. -/
lemma taken_record (traffic : Traffic) (hact : ∀ len, act ≠ .retrieve len) :
    (traffic.record s act).taken = traffic.taken := by
  cases act with
  | retrieve len => exact absurd rfl (hact len)
  | testRead r =>
    simp only [Traffic.record]
    split
    · exact Traffic.taken_read _ _
    · rfl
  | _ => rfl

/-- Nothing has been read yet. -/
lemma EchoPhase.silent_step (hst : StageInv st q.1) (hsends : queuedSends q.1.tasks = [])
    (hchunks : q.2.chunks = []) (htaken : q.2.taken = []) (hwritten : q.1.written = [])
    (hpc : q.1.pc ≠ .inMessage) (hs : EchoStep q h act out q') :
    EchoPhase q' (h.record q.1 act) := by
  have hsend : ∀ message w, act ≠ .send message w := by
    rintro message w rfl
    exact hpc hs.echoes.1
  have hretrieve : ∀ len, act ≠ .retrieve len := by
    rintro len rfl
    exact hpc hs.echoes.1
  have hwritten' := (hs.still hst hsends hsend).1.trans hwritten
  have htaken' : q'.2.taken = [] := by
    rw [hs.record, taken_record _ hretrieve, htaken]
  rcases message_step hst.conn.input hs.pre hs.step with
    ⟨bytes, hbytes, rfl, hreads, hpc'⟩ | ⟨hrecord, hpc'⟩
  · refine .entered bytes ?_ htaken' hwritten' hpc' rfl
    have hread : q'.2 = q.2.read (.data bytes) := hs.record.trans (if_pos hreads)
    rw [hread, Traffic.read, hchunks]
    · rfl
    · exact hbytes
  · refine .silent ?_ htaken' hwritten' fun hin => hpc (hpc' hin).1
    rw [hs.record, hrecord, hchunks]

/-- `onMessage`, from its call to its end. -/
lemma EchoPhase.inMessage_step {chunk : List UInt8} (hinput : InputInv t q)
    (hst : StageInv st q.1) (hsends : queuedSends q.1.tasks = []) (hhandling : q.1.Handling)
    (hchunks : q.2.chunks = [chunk]) (hpc : q.1.pc = .inMessage)
    (huser : (h.user = .entered ∧ q.2.taken = [] ∧ q.1.written = []) ∨
      (h.user = .retrieved ∧ q.2.taken = [chunk] ∧ q.1.written = []) ∨
      (h.user = .sent ∧ q.1.written <+: chunk) ∨
      (h.user = .closed ∧ q.1.written <+: chunk ∧ q.1.conn.state = .KDisconnecting ∧
        .forceCloseInLoop ∈ q.1.tasks))
    (hs : EchoStep q h act out q') : EchoPhase q' (h.record q.1 act) := by
  obtain ⟨hpre, hechoes, hstep, hrecord⟩ := hs
  have hs : EchoStep q h act out q' := ⟨hpre, hechoes, hstep, hrecord⟩
  obtain rfl : st = .up := hst.fits hpc
  have hcall : act.isCall = true → q'.1.pc = .inMessage := fun hact =>
    (step_keepsTable hact hstep).2.trans hpc
  rcases act_of_inMessage hst hpc hpre with ⟨caller, message, rfl⟩ | ⟨message, w, rfl⟩ | rfl |
    ⟨len, rfl⟩ | rfl
  · exact hechoes.elim
  · obtain ⟨-, hretrieved, hlast⟩ := hechoes
    rcases huser with ⟨hat, -⟩ | ⟨hat, htaken, hwritten⟩ | ⟨hat, -⟩ | ⟨hat, -⟩
    · cases hat.symm.trans hretrieved
    · rw [htaken] at hlast
      obtain rfl : chunk = message := Option.some.inj hlast
      refine .sent chunk ?_ ?_ (hcall rfl) rfl
      · rw [hrecord]
        exact hchunks
      · rcases (hs.send hst).1 with hsame | hall
        · rw [hsame, hwritten]
          exact List.nil_prefix
        · rw [hall, hwritten]
          exact List.prefix_rfl
    · cases hat.symm.trans hretrieved
    · cases hat.symm.trans hretrieved
  · obtain ⟨-, hsent⟩ := hechoes
    rcases huser with ⟨hat, -⟩ | ⟨hat, -⟩ | ⟨hat, hwritten⟩ | ⟨hat, -⟩
    · cases hat.symm.trans hsent
    · cases hat.symm.trans hsent
    · have hstill := (hs.still hst hsends (by simp)).1
      have hopen : q.1.isOpen := hst.conn.state
      rcases forceClose_eq (Option.some.inj hstep) with ⟨-, hq, -⟩ | ⟨hclosed, -⟩
      · refine .closed chunk ?_ (hstill.symm ▸ hwritten) (hcall rfl) rfl ?_ ?_
        · rw [hrecord]
          exact hchunks
        · rw [hq]
          rfl
        · rw [hq]
          exact List.mem_append_right _ List.mem_cons_self
      · exact absurd hopen hclosed
    · cases hat.symm.trans hsent
  · obtain ⟨-, hentered, rfl⟩ := hechoes
    rcases huser with ⟨-, htaken, hwritten⟩ | ⟨hat, -⟩ | ⟨hat, -⟩ | ⟨hat, -⟩
    · have hstill := (hs.still hst hsends (by simp)).1
      refine .retrieved chunk ?_ ?_ (hstill.trans hwritten) (hcall rfl) rfl
      · rw [hrecord]
        exact hchunks
      · -- all that has come in is in the buffer, and all of it is taken
        have hstream := hinput.stream
        rw [htaken, Traffic.received, hchunks] at hstream
        have hall : q.1.conn.inputBuffer.peek q.1.conn.inputBuffer.readableBytes = chunk := by
          rw [Buffer.peek_eq_take hst.conn.input (le_refl _), ← hst.conn.input.length_readable,
            List.take_length]
          simpa using hstream
        rw [hrecord]
        show q.2.taken ++ [_] = [chunk]
        rw [htaken, hall, List.nil_append]
    · cases hat.symm.trans hentered
    · cases hat.symm.trans hentered
    · cases hat.symm.trans hentered
  · have hclosed := hechoes hpc
    rcases huser with ⟨hat, -⟩ | ⟨hat, -⟩ | ⟨hat, -⟩ | ⟨-, hwritten, hstate, htask⟩
    · cases hat.symm.trans hclosed
    · cases hat.symm.trans hclosed
    · cases hat.symm.trans hclosed
    · have hstill := (hs.still hst hsends (by simp)).1
      have hhandling' : q.1.dispatch.eventHandling = true :=
        hhandling (Or.inr (by rw [hpc]; rfl))
      simp only [ConnLoop.step, ConnLoop.callbackReturns, hpc, Option.some.injEq,
        Prod.mk.injEq] at hstep
      obtain ⟨hq, -⟩ := hstep
      refine .leaving chunk ?_ (hstill.symm ▸ hwritten) ?_ ?_ ?_ ?_
      · rw [hrecord]
        exact hchunks
      · exact Or.inl (congrArg ConnLoop.pc hq.symm)
      · rw [← hq]
        exact hhandling'
      · rw [← hq]
        exact hstate
      · rw [← hq]
        exact htask

/-- A connection that is closing down reads nothing, wherever it stands behind the test for
reading. -/
lemma EchoStep.chunks_of_leaving (hst : StageInv .up q.1)
    (hpc : q.1.pc = .phase .write ∨ q.1.pc = .phase .done ∨ q.1.pc = .idle)
    (hs : EchoStep q h act out q') : q'.2.chunks = q.2.chunks := by
  rcases act_of_leaving hst hpc hs.pre hs.echoes with ⟨w, rfl⟩ | rfl | rfl | ⟨w, rfl⟩ |
    ⟨revents, rfl⟩ | rfl
  all_goals exact congrArg Traffic.chunks hs.record

/-- The rest of the dispatch of the only message. -/
lemma EchoPhase.leaving_step {chunk : List UInt8} (hst : StageInv st q.1)
    (hsends : queuedSends q.1.tasks = []) (hchunks : q.2.chunks = [chunk])
    (hwritten : q.1.written <+: chunk)
    (hpc : q.1.pc = .phase .write ∨ q.1.pc = .phase .done ∨ q.1.pc = .idle)
    (hhandling : q.1.dispatch.eventHandling = true) (hstate : q.1.conn.state = .KDisconnecting)
    (htask : .forceCloseInLoop ∈ q.1.tasks) (hs : EchoStep q h act out q') :
    EchoPhase q' (h.record q.1 act) := by
  obtain rfl : st = .up := hst.stage_eq_up (by simp [hstate]) (by simp [hstate])
  have hchunks' := (hs.chunks_of_leaving hst hpc).trans hchunks
  rcases act_of_leaving hst hpc hs.pre hs.echoes with ⟨w, rfl⟩ | rfl | rfl | ⟨w, rfl⟩ |
    ⟨revents, rfl⟩ | rfl
  · have hwritten' := (hs.still hst hsends (by simp)).1 ▸ hwritten
    have hlocal := Local.step rfl hs.step
    have hcases : q'.1.conn.state = .KDisconnected ∨
        q'.1.conn.state = .KDisconnecting ∧ q'.1.pc = .phase .done := by
      have hstep := hs.step
      simp only [ConnLoop.step] at hstep
      split at hstep
      · exact handleWrite_closing hstate hstep
      · obtain ⟨hq, -⟩ := Prod.mk.inj (Option.some.inj hstep)
        rw [← hq]
        exact Or.inr ⟨hstate, rfl⟩
    rcases hcases with hdown | ⟨hstate', hpc'⟩
    · exact .down chunk hchunks' hwritten' hdown
    · exact .leaving chunk hchunks' hwritten' (Or.inr (Or.inl hpc'))
        (hlocal.dispatch ▸ hhandling) hstate' (hlocal.tasks.subset htask)
  · have hwritten' := (hs.still hst hsends (by simp)).1 ▸ hwritten
    obtain ⟨hq, -⟩ := Prod.mk.inj (Option.some.inj hs.step)
    refine .leaving chunk hchunks' hwritten' ?_ ?_ ?_ ?_
    · rw [← hq]
      exact Or.inr (Or.inr rfl)
    · rw [← hq]
      exact hhandling
    · rw [← hq]
      exact hstate
    · rw [← hq]
      exact htask
  · have hwritten' := (hs.still hst hsends (by simp)).1 ▸ hwritten
    obtain ⟨hq, -⟩ := Prod.mk.inj (Option.some.inj hs.step)
    refine .batched chunk hchunks' hwritten' ?_ ?_ ?_ ?_
    · rw [← hq]
      exact hs.pre.1
    · rw [← hq]
    · rw [← hq]
      exact hstate
    · rw [← hq]
      show .forceCloseInLoop ∈ q.1.tasks.take q.1.tasks.length
      rw [List.take_length]
      exact htask
  · exact absurd (hs.pre.2.1.symm.trans hhandling) (by decide)
  · exact absurd (hs.pre.2.1.symm.trans hhandling) (by decide)
  · exact absurd (hs.pre.2.symm.trans hhandling) (by decide)

/-- The batch with the task. -/
lemma EchoPhase.batched_step {chunk : List UInt8} (hst : StageInv st q.1)
    (hsends : queuedSends q.1.tasks = []) (hchunks : q.2.chunks = [chunk])
    (hwritten : q.1.written <+: chunk) (hpc : q.1.pc = .idle)
    (hhandling : q.1.dispatch.eventHandling = false) (hstate : q.1.conn.state = .KDisconnecting)
    (htask : .forceCloseInLoop ∈ q.1.tasks.take h.batch) (hs : EchoStep q h act out q') :
    EchoPhase q' (h.record q.1 act) := by
  obtain rfl : st = .up := hst.stage_eq_up (by simp [hstate]) (by simp [hstate])
  have hleaving : q.1.pc = .phase .write ∨ q.1.pc = .phase .done ∨ q.1.pc = .idle :=
    Or.inr (Or.inr hpc)
  have hchunks' := (hs.chunks_of_leaving hst hleaving).trans hchunks
  -- as long as the task is in the batch, the loop does not poll
  have hbatch : h.batch ≠ 0 := by
    intro hzero
    rw [hzero, List.take_zero] at htask
    cases htask
  rcases act_of_leaving hst hleaving hs.pre hs.echoes with ⟨w, rfl⟩ | rfl | rfl | ⟨w, rfl⟩ |
    ⟨revents, rfl⟩ | rfl
  · cases hpc.symm.trans hs.pre.1
  · cases hpc.symm.trans hs.pre
  · exact absurd (hhandling.symm.trans hs.pre.2) (by decide)
  · have hwritten' := (hs.still hst hsends (by simp)).1 ▸ hwritten
    obtain ⟨n, hn⟩ := Nat.exists_eq_succ_of_ne_zero hbatch
    cases htasks : q.1.tasks with
    | nil =>
      rw [htasks, List.take_nil] at htask
      cases htask
    | cons task tasks =>
      rcases runTask_closing hst hstate hsends htasks hs.step with hdown | ⟨hother, hstate', hpc'⟩
      · exact .down chunk hchunks' hwritten' hdown
      · have hlocal := Local.runTask htasks hs.step
        refine .batched chunk hchunks' hwritten' (hpc'.trans hpc)
          ((congrArg LoopDispatch.eventHandling hlocal.dispatch).trans hhandling) hstate' ?_
        rw [htasks, hn, List.take_succ_cons] at htask
        have hrest : .forceCloseInLoop ∈ tasks.take n :=
          (List.mem_cons.mp htask).resolve_left fun heq => hother heq.symm
        have hrecord : (h.record q.1 (.runTask w)).batch = n := by
          show h.batch - 1 = n
          omega
        rw [hrecord]
        exact (hlocal.tasks.take n).subset hrest
  · exact absurd hs.echoes hbatch
  · exact absurd hs.echoes hbatch

/-- A connection that is down stays so. -/
lemma EchoPhase.down_step {chunk : List UInt8} (hst : StageInv st q.1)
    (hchunks : q.2.chunks = [chunk]) (hwritten : q.1.written <+: chunk)
    (hstate : q.1.conn.state = .KDisconnected) (hs : EchoStep q h act out q') :
    EchoPhase q' (h.record q.1 act) := by
  obtain ⟨haccepted, hbuffer, hdown⟩ := step_of_down hst hstate hs.pre hs.step
  refine .down chunk ?_ ?_ hdown
  · rw [hs.record, chunks_of_down hst hstate hs.pre, hchunks]
  · rw [written, haccepted, hbuffer]
    exact hwritten

/-- Every step keeps the law. -/
theorem EchoInv.step (hinv : EchoInv t q h) (hs : EchoStep q h act out q') :
    EchoInv (t ++ out) q' (h.record q.1 act) := by
  obtain ⟨hinput, hsends, hhandling, hphase⟩ := hinv
  obtain ⟨st, hst, -⟩ := hinput.life
  refine ⟨hinput.step hs.pre hs.step hs.record, ?_, hhandling.step hs.pre hs.step, ?_⟩
  · by_cases hact : ∃ message w, act = .send message w
    · obtain ⟨message, w, rfl⟩ := hact
      exact (hs.send hst).2.trans hsends
    · exact (hs.still hst hsends fun message w heq => hact ⟨message, w, heq⟩).2
  · cases hphase with
    | silent hchunks htaken hwritten hpc =>
      exact .silent_step hst hsends hchunks htaken hwritten hpc hs
    | entered chunk hchunks htaken hwritten hpc huser =>
      exact .inMessage_step hinput hst hsends hhandling hchunks hpc
        (Or.inl ⟨huser, htaken, hwritten⟩) hs
    | retrieved chunk hchunks htaken hwritten hpc huser =>
      exact .inMessage_step hinput hst hsends hhandling hchunks hpc
        (Or.inr (Or.inl ⟨huser, htaken, hwritten⟩)) hs
    | sent chunk hchunks hwritten hpc huser =>
      exact .inMessage_step hinput hst hsends hhandling hchunks hpc
        (Or.inr (Or.inr (Or.inl ⟨huser, hwritten⟩))) hs
    | closed chunk hchunks hwritten hpc huser hstate htask =>
      exact .inMessage_step hinput hst hsends hhandling hchunks hpc
        (Or.inr (Or.inr (Or.inr ⟨huser, hwritten, hstate, htask⟩))) hs
    | leaving chunk hchunks hwritten hpc hhandling' hstate htask =>
      exact .leaving_step hst hsends hchunks hwritten hpc hhandling' hstate htask hs
    | batched chunk hchunks hwritten hpc hhandling' hstate htask =>
      exact .batched_step hst hsends hchunks hwritten hpc hhandling' hstate htask hs
    | down chunk hchunks hwritten hstate => exact .down_step hst hchunks hwritten hstate hs

end Step

/-! ### Whole runs -/

section Run

variable {τ' : Type} {okA : ConnLoop τ' → ConnAct τ' → Prop}

/-- A connection that has just been made has read nothing. -/
lemma EchoInv.start (c : EndConfig) : EchoInv [] (c.start : ConnLoop τ × Traffic) .new := by
  have hpc : (c.start : ConnLoop τ × Traffic).1.pc = .idle ∨
      (c.start : ConnLoop τ × Traffic).1.pc = .newConnection := by
    cases hkind : c.kind <;> simp [EndConfig.start, newConnection, hkind]
  refine ⟨.start c, ?_, fun hin => ?_, .silent rfl rfl Buffer.readable_new fun hin => ?_⟩
  · cases hkind : c.kind <;> simp [EndConfig.start, newConnection, hkind, queuedSends]
  · rcases hpc with hpc | hpc <;> rw [hpc] at hin <;> rcases hin with hin | hin <;> cases hin
  · rcases hpc with hpc | hpc <;> cases hpc.symm.trans hin

/-- The invariant holds along every run of the server. -/
lemma EchoInv.of_run {c : EndConfig} {t : List (ConnEvent τ)}
    {q : (ConnLoop τ × Traffic) × EchoCtl} (h : (echoMachine τ).Run (c.start, .new) t q) :
    EchoInv t q.1 q.2 := by
  refine h.invariant (fun t q => EchoInv t q.1 q.2) (.start c) ?_
  intro t q act q' out hinv hpre hstep
  have hwith : ((trafficMachine fun _ _ => True).withHistory fun h q act =>
      EchoCtl.record h q.1 act).step q act = some (q', out) := hstep
  obtain ⟨hs, hctl⟩ := Machine.withHistory_step hwith
  obtain ⟨hs, hrecord⟩ := Machine.withHistory_step hs
  have hs : q.1.1.step act = some (q'.1.1, out) := hs
  rw [hctl]
  exact hinv.step ⟨hpre.1.1, hpre.2, hs, hrecord⟩

/-- In every phase at most one chunk has been read, and what has been written is a beginning of
it. -/
lemma EchoPhase.written_isInitial {q : ConnLoop τ × Traffic} {h : EchoCtl}
    (hphase : EchoPhase q h) :
    q.2.chunks.length ≤ 1 ∧ q.1.written <+: q.2.chunks.flatten := by
  have hone : ∀ {chunk}, q.2.chunks = [chunk] → q.1.written <+: chunk →
      q.2.chunks.length ≤ 1 ∧ q.1.written <+: q.2.chunks.flatten := by
    intro chunk hchunks hwritten
    rw [hchunks, List.flatten_singleton]
    exact ⟨le_refl 1, hwritten⟩
  have hnone : q.1.written = [] → ∀ chunk, q.1.written <+: chunk := by
    intro hwritten chunk
    rw [hwritten]
    exact List.nil_prefix
  cases hphase with
  | silent hchunks htaken hwritten hpc =>
    rw [hchunks]
    exact ⟨Nat.zero_le 1, hnone hwritten _⟩
  | entered chunk hchunks htaken hwritten => exact hone hchunks (hnone hwritten _)
  | retrieved chunk hchunks htaken hwritten => exact hone hchunks (hnone hwritten _)
  | sent chunk hchunks hwritten => exact hone hchunks hwritten
  | closed chunk hchunks hwritten => exact hone hchunks hwritten
  | leaving chunk hchunks hwritten => exact hone hchunks hwritten
  | batched chunk hchunks hwritten => exact hone hchunks hwritten
  | down chunk hchunks hwritten => exact hone hchunks hwritten

/-- When the loop is about to poll behind the batch, a connection that has read is down. -/
lemma EchoPhase.down_of_poll {q : ConnLoop τ × Traffic} {h : EchoCtl} (hphase : EchoPhase q h)
    (hread : q.2.chunks ≠ []) (hidle : q.1.pc = .idle)
    (hnot : q.1.dispatch.eventHandling = false) (hbatch : h.batch = 0) :
    q.1.conn.state = .KDisconnected := by
  cases hphase with
  | silent hchunks => exact absurd hchunks hread
  | entered chunk hchunks htaken hwritten hpc => cases hpc.symm.trans hidle
  | retrieved chunk hchunks htaken hwritten hpc => cases hpc.symm.trans hidle
  | sent chunk hchunks hwritten hpc => cases hpc.symm.trans hidle
  | closed chunk hchunks hwritten hpc => cases hpc.symm.trans hidle
  | leaving chunk hchunks hwritten hpc hhandling => cases hhandling.symm.trans hnot
  | batched chunk hchunks hwritten hpc hhandling hstate htask =>
    rw [hbatch, List.take_zero] at htask
    cases htask
  | down chunk hchunks hwritten hstate => exact hstate

/-- The link of an echo is a link. -/
lemma linkRun_of_echo {p₀ p : ConnLoop τ' × Traffic} {q₀ q : (ConnLoop τ × Traffic) × EchoCtl}
    {t : List (ConnEvent τ' ⊕ ConnEvent τ)} (h : (echoLink okA τ).Run (p₀, q₀) t (p, q)) :
    (linkMachine okA fun _ _ => True).Run (p₀, q₀.1) t (p, q.1) := by
  refine h.map (fun r => (r.1, r.2.1)) ?_
  rintro ⟨p, q⟩ act ⟨p', q'⟩ out hpre hstep
  cases act with
  | inl act =>
    obtain ⟨r, hr, heq⟩ := Option.map_eq_some_iff.mp hstep
    cases heq
    refine ⟨hpre, ?_⟩
    show ((trafficMachine okA).step p act).map _ = _
    rw [hr]
    rfl
  | inr act =>
    obtain ⟨r, hr, heq⟩ := Option.map_eq_some_iff.mp hstep
    cases heq
    obtain ⟨r', hr', heq'⟩ := Option.map_eq_some_iff.mp hr
    cases heq'
    refine ⟨⟨hpre.1.1, hpre.2⟩, ?_⟩
    show ((trafficMachine fun _ _ => True).step q.1 act).map _ = _
    rw [hr']
    rfl

/-- The echo server and any client, joined by TCP.  In every run: the server calls `onMessage` at
most once for the connection; what the client gets back is a beginning of what this call has taken,
and that is a beginning of what the client has sent; and when the server's loop polls again after
the call, the connection is down. -/
theorem echo_replies_once {c c' : EndConfig} {t : List (ConnEvent τ' ⊕ ConnEvent τ)}
    {p : ConnLoop τ' × Traffic} {q : ConnLoop τ × Traffic} {h : EchoCtl}
    (hrun : (echoLink okA τ).Run (c.start, (c'.start, .new)) t (p, (q, h))) :
    (messages (Machine.rights t) ≤ 1 ∧ messages (Machine.rights t) = q.2.chunks.length) ∧
      (p.2.received <+: q.2.chunks.flatten ∧ q.2.chunks.flatten <+: p.1.accepted) ∧
      (q.2.chunks ≠ [] → q.1.pc = .idle → q.1.dispatch.eventHandling = false → h.batch = 0 →
        q.1.conn.state = .KDisconnected) := by
  have hecho := EchoInv.of_run hrun.right
  obtain ⟨hright, hleft⟩ := pipeInv_of_run (linkRun_of_echo hrun)
  have hmessages : messages (Machine.rights t) = q.2.chunks.length := hecho.input.messages
  obtain ⟨hlen, hwritten⟩ := hecho.phase.written_isInitial
  refine ⟨⟨hmessages.trans_le hlen, hmessages⟩, ⟨?_, hright.received⟩, hecho.phase.down_of_poll⟩
  exact hleft.received.trans ((List.prefix_append _ _).trans hwritten)

/-- The client sends three bytes; the server reads two of them, and the kernel takes one of the two
that are sent back before the connection is closed. -/
theorem echo_replies_once_cut :
    ∃ t p q h, (echoLink (fun _ _ => True) ℕ).Run
        ((plainEnd .client 5).start (τ := ℕ), ((plainEnd .serverSameLoop 7).start, .new)) t
        (p, (q, h)) ∧
      (q.2.chunks = [[1, 2]] ∧ p.2.received = [1] ∧ p.1.accepted = [1, 2, 3]) ∧
      messages (Machine.rights t) ≤ 1 ∧ p.2.received <+: q.2.chunks.flatten ∧
      q.1.conn.state = .KDisconnected := by
  obtain ⟨t, ⟨p, q, h⟩, hrun, hdata, hidle, hnot, hbatch⟩ :=
    (echoLink (τ := ℕ) (fun _ _ => True) ℕ).exists_run_of_exec
    ((plainEnd .client 5).start, ((plainEnd .serverSameLoop 7).start, .new))
    [.inl .connectEstablished, .inr .connectEstablished, .inl .callbackReturns,
      .inr .callbackReturns, .inl (.send [1, 2, 3] (.ok 3)), .inr (.poll {.EPOLLIN}),
      .inr .handleEvent, .inr .testClose, .inr .testError, .inr (.testRead (.data [1, 2])),
      .inr (.retrieve 2), .inr (.send [1, 2] (.ok 1)), .inr .forceClose, .inr .callbackReturns,
      .inr (.testWrite (.ok 0)), .inr .endEvent, .inr .endHandling, .inl (.poll {.EPOLLIN}),
      .inl .handleEvent, .inl .testClose, .inl .testError, .inl (.testRead (.data [1])),
      .inr (.runTask (.ok 0)), .inr .callbackReturns, .inr (.runTask (.ok 0))]
    (fun r _ => (r.2.1.2.chunks = [[1, 2]] ∧ r.1.2.received = [1] ∧ r.1.1.accepted = [1, 2, 3]) ∧
      r.2.1.1.pc = .idle ∧ r.2.1.1.dispatch.eventHandling = false ∧ r.2.2.batch = 0)
    (by decide +kernel)
  obtain ⟨⟨honce, -⟩, ⟨hback, -⟩, hdown⟩ := echo_replies_once hrun
  have hread : q.2.chunks ≠ [] := by
    rw [show q.2.chunks = [[1, 2]] from hdata.1]
    exact List.cons_ne_nil _ _
  exact ⟨t, p, q, h, hrun, hdata, honce, hback, hdown hread hidle hnot hbatch⟩

end Run

end ConnLoop

end MuduoServer
