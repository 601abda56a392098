import MuduoServer.Buffer.Lines
import MuduoServer.Tcp.Traffic

/-!
# Two connections joined by TCP

Two `TcpConnection` objects, each on the loop of its own process, are the two ends of one TCP
connection.  Of the network only this is used: `readv` delivers at one end the bytes that the kernel
has taken from `write` at the other end, in order, in pieces of any size; and it returns 0 only
behind the last of them, when the other connection has been removed from its loop, so that its
socket can have been closed.  Everything else is left open: how the steps of the two loops and of
all other threads interleave, and how long bytes are under way.

What is handed to `send` at one end is then, at any moment, in one of five places: taken by the user
at the other end, in `inputBuffer_` there, under way, in `outputBuffer_` here, or still posted.  It
is so in a direction in which no write finds the connection reset, since `sendInLoop` then drops the
rest of its message.  `startRead` and `stopRead` are not among the steps, and `forceClose` reads and
writes `state_` in one step.
-/

namespace MuduoServer

namespace ConnLoop

variable {τ : Type}

/-- The connection has been removed from its loop, and its socket may have been closed. -/
def HasLeft (s : ConnLoop τ) : Prop :=
  s.conn.state = .KDisconnected ∧ s.conn.channel.index = .kNew

instance (s : ConnLoop τ) : Decidable s.HasLeft := inferInstanceAs (Decidable (_ ∧ _))

/-- What TCP lets `readv` deliver at the end `p`, when `peer` is the other one. -/
def Delivers {τ' : Type} (peer : ConnLoop τ') (p : ConnLoop τ × Traffic) : ConnAct τ → Prop
  | .testRead r => p.1.reads → p.2.received ++ r.bytes <+: peer.accepted ∧
      (r = .data [] → p.2.received = peer.accepted ∧ peer.HasLeft)
  | _ => True

instance {τ' : Type} (peer : ConnLoop τ') (p : ConnLoop τ × Traffic) (act : ConnAct τ) :
    Decidable (Delivers peer p act) := by
  apply ConnAct.casesOn (motive := fun act => Decidable (Delivers peer p act)) act <;>
    intros <;> unfold Delivers <;> infer_instance

end ConnLoop

section Link

open ConnLoop

variable {τ τ' : Type} {okA : ConnLoop τ → ConnAct τ → Prop} {okB : ConnLoop τ' → ConnAct τ' → Prop}

/-- What TCP asks of a step at either end. -/
def LinkSync (p : ConnLoop τ × Traffic) (q : ConnLoop τ' × Traffic) :
    ConnAct τ ⊕ ConnAct τ' → Prop
  | .inl act => Delivers q.1 p act
  | .inr act => Delivers p.1 q act

instance (p : ConnLoop τ × Traffic) (q : ConnLoop τ' × Traffic) (act : ConnAct τ ⊕ ConnAct τ') :
    Decidable (LinkSync p q act) :=
  match act with
  | .inl act => inferInstanceAs (Decidable (Delivers q.1 p act))
  | .inr act => inferInstanceAs (Decidable (Delivers p.1 q act))

/-- All runs of the two ends, whose steps are `okA` and `okB`. -/
def linkMachine (okA : ConnLoop τ → ConnAct τ → Prop) (okB : ConnLoop τ' → ConnAct τ' → Prop) :
    Machine ((ConnLoop τ × Traffic) × ConnLoop τ' × Traffic) (ConnAct τ ⊕ ConnAct τ')
      (ConnEvent τ ⊕ ConnEvent τ') :=
  (trafficMachine okA).parallel (trafficMachine okB) LinkSync

instance (p : (ConnLoop τ × Traffic) × ConnLoop τ' × Traffic) (act : ConnAct τ ⊕ ConnAct τ')
    [∀ s act, Decidable (okA s act)] [∀ s act, Decidable (okB s act)] :
    Decidable ((linkMachine okA okB).pre p act) :=
  inferInstanceAs
    (Decidable (((trafficMachine okA).parallel (trafficMachine okB) LinkSync).pre p act))

/-- A connection that `newConnection` has just made, with `connectionCallback_` set. -/
structure EndConfig where
  kind : OwnerKind
  address : ℕ
  fd : ℕ
  highWaterMark : ℕ
  writeCompleteCallback : Bool
  highWaterMarkCallback : Bool
  poller : EPollPoller
  handling : Bool
  /-- The poller does not know the descriptor yet. -/
  channels : poller.channels fd = none
  interest : poller.interest fd = none

/-- The end as it starts. -/
def EndConfig.start (c : EndConfig) : ConnLoop τ × Traffic :=
  (newConnection c.kind (.new c.address c.fd c.highWaterMark true c.writeCompleteCallback
    c.highWaterMarkCallback) c.poller c.handling, .new)

end Link

namespace ConnLoop

variable {τ τ' : Type} {okA : ConnLoop τ → ConnAct τ → Prop} {okB : ConnLoop τ' → ConnAct τ' → Prop}

/-! ### One direction -/

/-- What the two ends know of each other, in the direction from `peer` to `p`. -/
structure PipeInv (peer : ConnLoop τ) (p : ConnLoop τ' × Traffic) : Prop where
  received : p.2.received <+: peer.accepted
  ended : p.2.ended = true → p.2.received = peer.accepted ∧ peer.conn.state = .KDisconnected

/-- A step of the sending end. -/
lemma PipeInv.send {peer peer' : ConnLoop τ} {p : ConnLoop τ' × Traffic} {act : ConnAct τ}
    {out : List (ConnEvent τ)} {st : Stage} (h : PipeInv peer p) (hinv : StageInv st peer)
    (hpre : peer.pre act) (hstep : peer.step act = some (peer', out)) : PipeInv peer' p where
  received := h.received.trans (step_accepted hinv.conn.input hstep)
  ended hended := by
    obtain ⟨hall, hdown⟩ := h.ended hended
    obtain ⟨haccepted, -, hdown'⟩ := step_of_down hinv hdown hpre hstep
    exact ⟨hall.trans haccepted.symm, hdown'⟩

/-- A step of the receiving end. -/
lemma PipeInv.receive {peer : ConnLoop τ} {p p' : ConnLoop τ' × Traffic} {act : ConnAct τ'}
    (h : PipeInv peer p) (hdelivers : Delivers peer p act)
    (hrecord : p'.2 = p.2.record p.1 act) : PipeInv peer p' := by
  have hsame : p'.2.received = p.2.received → p'.2.ended = p.2.ended → PipeInv peer p' :=
    fun hreceived hended => ⟨hreceived ▸ h.received, hreceived ▸ hended ▸ h.ended⟩
  cases act with
  | testRead r =>
    by_cases hreads : p.1.reads
    · obtain ⟨hinitial, hend⟩ := hdelivers hreads
      have hread : p'.2 = p.2.read r := hrecord.trans (if_pos hreads)
      rw [← Traffic.received_read, ← hread] at hinitial
      refine ⟨hinitial, fun hended => ?_⟩
      rw [hread] at hended
      rcases Traffic.ended_read hended with hold | rfl
      · obtain ⟨hall, hdown⟩ := h.ended hold
        refine ⟨List.IsPrefix.eq_of_length_le hinitial ?_, hdown⟩
        rw [← hall, hread, Traffic.received_read, List.length_append]
        exact Nat.le_add_right _ _
      · obtain ⟨hall, hleft⟩ := hend rfl
        rw [hread, Traffic.received_read]
        exact ⟨(List.append_nil _).trans hall, hleft.1⟩
    · have hread : p'.2 = p.2 := hrecord.trans (if_neg hreads)
      exact hsame (congrArg _ hread) (congrArg _ hread)
  | retrieve len =>
    exact hsame ((congrArg Traffic.received hrecord).trans rfl)
      ((congrArg Traffic.ended hrecord).trans rfl)
  | _ =>
    have hread : p'.2 = p.2 := hrecord
    exact hsame (congrArg _ hread) (congrArg _ hread)

/-- One direction of a link: `peer`, with trace `t`, sends and `p` receives. -/
structure EndToEnd [DecidableEq τ] (t : List (ConnEvent τ)) (peer : ConnLoop τ)
    (p : ConnLoop τ' × Traffic) : Prop where
  /-- Every byte that was handed over is in one place, and they stand in order. -/
  conserved : ∃ underWay, p.2.taken.flatten ++ p.1.conn.inputBuffer.readable ++ underWay ++
    peer.conn.outputBuffer.readable = (handedOver t).flatMap Prod.snd
  /-- The messages of one caller were handed over in the order of its calls. -/
  order : ∀ caller, (handedOver t).filter (·.1 = caller) <+: (calls t).filter (·.1 = caller)
  /-- When the stream has ended, all that is missing is what `outputBuffer_` was closed with. -/
  ended : p.2.ended = true → peer.conn.state = .KDisconnected ∧
    p.2.taken.flatten ++ p.1.conn.inputBuffer.readable ++ peer.conn.outputBuffer.readable =
      (handedOver t).flatMap Prod.snd

/-- The stream law along a run with its traffic. -/
lemma StreamInv.of_traffic [DecidableEq τ] {t : List (ConnEvent τ)} {p₀ p : ConnLoop τ × Traffic}
    (hok : ∀ s act, okA s act → s.NoReset act) (h₀ : StreamInv [] p₀.1)
    (h : (trafficMachine okA).Run p₀ t p) : StreamInv t p.1 :=
  (h.forget.restrict_mono hok).invariant StreamInv h₀ fun _ _ _ _ _ hinv hpre hstep =>
    hinv.step hpre.1 hpre.2 hstep

/-- The output law along a run with its traffic. -/
lemma OutputInv.of_traffic {t : List (ConnEvent τ)} {p₀ p : ConnLoop τ × Traffic}
    (hok : ∀ s act, okA s act → s.NoReset act) (h₀ : OutputInv [] p₀.1)
    (h : (trafficMachine okA).Run p₀ t p) : OutputInv t p.1 :=
  (h.forget.restrict_mono hok).invariant OutputInv h₀ fun _ _ _ _ _ hinv hpre hstep =>
    hinv.step hpre.1 hpre.2 hstep

/-- The laws of the two ends and of the pipe between them, put together. -/
lemma EndToEnd.of_laws [DecidableEq τ] {t : List (ConnEvent τ)} {t' : List (ConnEvent τ')}
    {peer : ConnLoop τ} {p : ConnLoop τ' × Traffic} (hstream : StreamInv t peer)
    (houtput : OutputInv t peer) (hinput : InputInv t' p) (hpipe : PipeInv peer p) :
    EndToEnd t peer p where
  conserved := by
    obtain ⟨underWay, hunderWay⟩ := hpipe.received
    refine ⟨underWay, ?_⟩
    rw [hinput.stream, hunderWay]
    exact houtput.stream
  order caller := by
    rw [hstream.order caller]
    exact ((handedOver_isInitial t).filter _).trans (List.prefix_append _ _)
  ended hended := by
    obtain ⟨hall, hdown⟩ := hpipe.ended hended
    refine ⟨hdown, ?_⟩
    rw [hinput.stream, hall]
    exact houtput.stream

/-- The input law holds of a new connection. -/
lemma InputInv.start (c : EndConfig) : InputInv [] (c.start : ConnLoop τ × Traffic) :=
  .newConnection c.channels c.interest

/-- What holds at the start of a link. -/
lemma PipeInv.start (c c' : EndConfig) :
    PipeInv (c.start : ConnLoop τ × Traffic).1 (c'.start : ConnLoop τ' × Traffic) :=
  ⟨List.prefix_refl _, fun h => by cases h⟩

/-- The pipes of both directions, over a whole run. -/
lemma pipeInv_of_run {c c' : EndConfig} {t : List (ConnEvent τ ⊕ ConnEvent τ')}
    {p : (ConnLoop τ × Traffic) × ConnLoop τ' × Traffic}
    (h : (linkMachine okA okB).Run (c.start, c'.start) t p) :
    PipeInv p.1.1 p.2 ∧ PipeInv p.2.1 p.1 := by
  refine h.parallelInvariant (fun p q => PipeInv p.1 q ∧ PipeInv q.1 p)
    ⟨.start c c', .start c' c⟩ ?_ ?_
  · rintro t p q act p' out hrun ⟨hright, hleft⟩ hpre hsync hstep
    obtain ⟨hs, hrecord⟩ := Machine.withHistory_step hstep
    obtain ⟨st, hst, -⟩ := (InputInv.of_run (.start c) hrun).life
    exact ⟨hright.send hst hpre.1 hs, hleft.receive hsync hrecord⟩
  · rintro t p q act q' out hrun ⟨hright, hleft⟩ hpre hsync hstep
    obtain ⟨hs, hrecord⟩ := Machine.withHistory_step hstep
    obtain ⟨st, hst, -⟩ := (InputInv.of_run (.start c') hrun).life
    exact ⟨hright.receive hsync hrecord, hleft.send hst hpre.1 hs⟩

/-- Two connections joined by TCP.  In every run, however the two loops and all other threads
interleave, and in each direction in which no write finds the connection reset: the messages handed
over at one end are, byte for byte and in order, what the user has taken at the other end, what is
in `inputBuffer_` there, what is under way, and what is in `outputBuffer_`; the messages of each
caller are among them in the order of its calls; and when `readv` has returned 0, nothing is under
way any more. -/
theorem link_conserves_bytes [DecidableEq τ] [DecidableEq τ'] {c c' : EndConfig}
    {t : List (ConnEvent τ ⊕ ConnEvent τ')} {p : (ConnLoop τ × Traffic) × ConnLoop τ' × Traffic}
    (h : (linkMachine okA okB).Run (c.start, c'.start) t p) :
    ((∀ s act, okA s act → s.NoReset act) → EndToEnd (Machine.lefts t) p.1.1 p.2) ∧
      ((∀ s act, okB s act → s.NoReset act) → EndToEnd (Machine.rights t) p.2.1 p.1) := by
  obtain ⟨hright, hleft⟩ := pipeInv_of_run h
  have hinput := InputInv.of_run (.start c) h.left
  have hinput' := InputInv.of_run (.start c') h.right
  refine ⟨fun hok => ?_, fun hok => ?_⟩
  · exact .of_laws (.of_traffic hok .newConnection h.left)
      (.of_traffic hok (.newConnection c.channels c.interest) h.left) hinput' hright
  · exact .of_laws (.of_traffic hok .newConnection h.right)
      (.of_traffic hok (.newConnection c'.channels c'.interest) h.right) hinput hleft

/-- A connection on a loop of its own, of a server or of a client. -/
def plainEnd (kind : OwnerKind) (fd : ℕ) : EndConfig where
  kind := kind
  address := 1
  fd := fd
  highWaterMark := 64
  writeCompleteCallback := true
  highWaterMarkCallback := true
  poller := emptyPoller
  handling := false
  channels := rfl
  interest := rfl

/-- The client's message leaves in two pieces and arrives in other ones; while the last byte is
still in `outputBuffer_`, the client is closed, and the server reads the end of the stream. -/
theorem link_conserves_bytes_closed :
    ∃ t p, (linkMachine (NoReset (τ := ℕ)) (NoReset (τ := ℕ))).Run
        ((plainEnd .client 5).start, (plainEnd .serverSameLoop 7).start) t p ∧
      (p.2.2.chunks = [[1], [2, 3]] ∧ p.2.2.taken = [[1, 2]] ∧ p.2.2.ended = true) ∧
      p.1.1.conn.state = .KDisconnected ∧
      p.2.2.taken.flatten ++ p.2.1.conn.inputBuffer.readable ++ p.1.1.conn.outputBuffer.readable =
        (handedOver (Machine.lefts t)).flatMap Prod.snd := by
  obtain ⟨t, p, hrun, hchunks, htaken, hended⟩ :=
    (linkMachine (NoReset (τ := ℕ)) (NoReset (τ := ℕ))).exists_run_of_exec
    ((plainEnd .client 5).start, (plainEnd .serverSameLoop 7).start)
    [.inl .connectEstablished, .inr .connectEstablished, .inl (.send [1, 2] (.ok 1)),
      .inr .callbackReturns, .inl .callbackReturns, .inl (.postSend 3 [3, 4]),
      .inr (.poll {.EPOLLIN}), .inr .handleEvent, .inr .testClose, .inr .testError,
      .inr (.testRead (.data [1])), .inr .callbackReturns, .inr (.testWrite (.ok 0)),
      .inr .endEvent, .inr .endHandling, .inl (.runTask (.ok 0)), .inl (.poll {.EPOLLOUT}),
      .inl .handleEvent, .inl .testClose, .inl .testError, .inl (.testRead (.data [])),
      .inl (.testWrite (.ok 2)), .inl .endEvent, .inl .endHandling, .inl .forceClose,
      .inr (.poll {.EPOLLIN}), .inr .handleEvent, .inr .testClose, .inr .testError,
      .inr (.testRead (.data [2, 3])), .inr (.retrieve 2), .inr .callbackReturns,
      .inr (.testWrite (.ok 0)), .inr .endEvent, .inr .endHandling, .inl (.runTask (.ok 0)),
      .inl .callbackReturns, .inr (.poll {.EPOLLIN}), .inr .handleEvent, .inr .testClose,
      .inr .testError, .inr (.testRead (.data []))]
    (fun p _ => p.2.2.chunks = [[1], [2, 3]] ∧ p.2.2.taken = [[1, 2]] ∧ p.2.2.ended = true)
    (by decide +kernel)
  obtain ⟨hdown, hconserved⟩ := ((link_conserves_bytes hrun).1 fun _ _ h => h).ended hended
  exact ⟨t, p, hrun, ⟨hchunks, htaken, hended⟩, hdown, hconserved⟩

/-! ### Lines -/

/-- Whatever is sent is a line. -/
def SendsLines (_ : ConnLoop τ) (act : ConnAct τ) : Prop :=
  ∀ m ∈ calledBy act, IsFrame newline m.2

/-- User code takes bytes out only with `getLine()`. -/
def TakesLines (s : ConnLoop τ) : ConnAct τ → Prop
  | .retrieve len => ∃ r ∈ s.conn.inputBuffer.getLine, r.2.map List.length = some len
  | _ => True

instance (s : ConnLoop τ) (act : ConnAct τ) : Decidable (s.SendsLines act) :=
  inferInstanceAs (Decidable (∀ m ∈ calledBy act, _))

instance (s : ConnLoop τ) (act : ConnAct τ) : Decidable (s.TakesLines act) := by
  apply ConnAct.casesOn (motive := fun act => Decidable (s.TakesLines act)) act <;>
    intros <;> unfold TakesLines <;> infer_instance

/-- What `getLine()` takes is the first line. -/
lemma isFrame_peek_of_getLine {b b' : Buffer} {line : List UInt8} (hvalid : b.Valid)
    (h : b.getLine = some (b', some line)) : IsFrame newline (b.peek line.length) := by
  obtain ⟨b₁, -, hline⟩ := Buffer.getLine_spec hvalid
  cases hpos : b.readable.findIdx? (· == newline) with
  | none =>
    rw [hpos] at hline
    cases hline.1.symm.trans h
  | some pos =>
    rw [hpos] at hline
    obtain ⟨hlt, hframe⟩ := Buffer.isFrame_take_of_findIdx? hpos
    have hsome := hline.1.symm.trans h
    rw [Option.some.injEq, Prod.mk.injEq, Option.some.injEq] at hsome
    have hlen : line.length = pos + 1 := by
      rw [← hsome.2, List.length_take]
      omega
    rw [hlen, Buffer.peek_eq_take hvalid (by rw [← hvalid.length_readable]; exact hlt)]
    exact hframe

/-- All that is taken with `getLine()` are lines. -/
lemma isFrame_of_takesLines {c : EndConfig} {t : List (ConnEvent τ)} {p : ConnLoop τ × Traffic}
    (h : (trafficMachine TakesLines).Run c.start t p) :
    ∀ line ∈ p.2.taken, IsFrame newline line := by
  refine h.reachedInvariant (fun _ p => ∀ line ∈ p.2.taken, IsFrame newline line)
    (fun line hline => (List.not_mem_nil hline).elim) ?_
  intro t p act p' out hrun hlines hpre hstep
  obtain ⟨hs, hrecord⟩ := Machine.withHistory_step hstep
  obtain ⟨st, hst, -⟩ := (InputInv.of_run (.start c) hrun).life
  cases act with
  | retrieve len =>
    obtain ⟨r, hr, hlen⟩ := hpre.2
    obtain ⟨line, hline, rfl⟩ := Option.map_eq_some_iff.mp hlen
    have hframe := isFrame_peek_of_getLine hst.conn.input
      (hr.trans (congrArg some (Prod.ext rfl hline)))
    intro line' hline'
    rw [hrecord] at hline'
    rcases List.mem_append.mp hline' with hline' | hline'
    · exact hlines line' hline'
    · rw [List.mem_singleton.mp hline']
      exact hframe
  | testRead r =>
    have htaken : p'.2.taken = p.2.taken := by
      rw [hrecord]
      simp only [Traffic.record]
      split
      · exact Traffic.taken_read _ _
      · rfl
    rw [htaken]
    exact hlines
  | _ =>
    have htaken : p'.2 = p.2 := hrecord
    rw [htaken]
    exact hlines

/-- All that is sent are lines. -/
lemma isFrame_of_sendsLines {ok : ConnLoop τ → ConnAct τ → Prop} {c : EndConfig}
    {t : List (ConnEvent τ)} {p : ConnLoop τ × Traffic}
    (hok : ∀ s act, ok s act → s.SendsLines act) (h : (trafficMachine ok).Run c.start t p) :
    ∀ m ∈ calls t, IsFrame newline m.2 := by
  refine h.reachedInvariant (fun t _ => ∀ m ∈ calls t, IsFrame newline m.2)
    (fun m hm => (List.not_mem_nil hm).elim) ?_
  intro t p act p' out hrun hlines hpre hstep m hm
  obtain ⟨hs, -⟩ := Machine.withHistory_step hstep
  obtain ⟨st, hst, -⟩ := (InputInv.of_run (.start c) hrun).life
  rw [calls_append, (step_outputStep hst.queue.short hpre.1 hs).calls] at hm
  rcases List.mem_append.mp hm with hm | hm
  · exact hlines m hm
  · exact hok _ _ hpre.2 m hm

/-- A message that was handed over has been sent. -/
lemma EndToEnd.mem_calls [DecidableEq τ] {t : List (ConnEvent τ)} {peer : ConnLoop τ}
    {p : ConnLoop τ' × Traffic} (h : EndToEnd t peer p) {m : Option τ × List UInt8}
    (hm : m ∈ handedOver t) : m ∈ calls t := by
  have hmem : m ∈ (handedOver t).filter (·.1 = m.1) := by simpa using hm
  have hcalls := (h.order m.1).subset hmem
  exact (List.mem_filter.mp hcalls).1

/-- Line by line.  When one end sends only lines, none of its writes finds the connection reset, and
the other end takes only lines, the lines taken are the messages handed over, in this order and from
the first one on, however the stream has been cut on its way; and all of them have been taken when
the stream has ended, nothing was left in `outputBuffer_`, and `getLine()` finds no more. -/
theorem link_delivers_lines [DecidableEq τ] {c c' : EndConfig}
    {t : List (ConnEvent τ ⊕ ConnEvent τ')} {p : (ConnLoop τ × Traffic) × ConnLoop τ' × Traffic}
    (h : (linkMachine (fun s act => s.NoReset act ∧ s.SendsLines act) TakesLines).Run
      (c.start, c'.start) t p) :
    p.2.2.taken <+: (handedOver (Machine.lefts t)).map Prod.snd ∧
      (p.2.2.ended = true → p.1.1.conn.outputBuffer.readable = [] →
        newline ∉ p.2.1.conn.inputBuffer.readable →
        p.2.2.taken = (handedOver (Machine.lefts t)).map Prod.snd) := by
  have hinput := InputInv.of_run (.start c') h.right
  have hend : EndToEnd (Machine.lefts t) p.1.1 p.2 :=
    .of_laws (.of_traffic (fun _ _ hok => hok.1) .newConnection h.left)
      (.of_traffic (fun _ _ hok => hok.1) (.newConnection c.channels c.interest) h.left) hinput
      (pipeInv_of_run h).1
  have htaken := isFrame_of_takesLines h.right
  have hsent : ∀ m ∈ (handedOver (Machine.lefts t)).map Prod.snd, IsFrame newline m := by
    intro line hline
    obtain ⟨m, hm, rfl⟩ := List.mem_map.mp hline
    exact isFrame_of_sendsLines (fun _ _ hok => hok.2) h.left m (hend.mem_calls hm)
  have hlines : p.2.2.taken <+: (handedOver (Machine.lefts t)).map Prod.snd := by
    obtain ⟨underWay, hunderWay⟩ := hend.conserved
    refine isPrefix_of_flatten htaken hsent ?_
    rw [← List.flatMap_def, ← hunderWay, List.append_assoc, List.append_assoc]
    exact List.prefix_append _ _
  refine ⟨hlines, fun hended hempty hopen => ?_⟩
  obtain ⟨rest, hrest⟩ := hlines
  have hall := (hend.ended hended).2
  rw [hempty, List.append_nil, List.flatMap_def, ← hrest, List.flatten_append,
    List.append_cancel_left_eq] at hall
  cases rest with
  | nil => rw [← hrest, List.append_nil]
  | cons line rest =>
    have hline : IsFrame newline line := hsent line (hrest ▸ by simp)
    exact absurd (hall ▸ by simp [hline.sep_mem]) hopen

/-- Two lines that leave in three pieces and arrive in two; the second one straddles the reads. -/
theorem link_delivers_lines_straddling :
    ∃ t p, (linkMachine (fun (s : ConnLoop ℕ) act => s.NoReset act ∧ s.SendsLines act)
        (TakesLines (τ := ℕ))).Run
        ((plainEnd .client 5).start, (plainEnd .serverSameLoop 7).start) t p ∧
      (p.2.2.chunks = [[97, 10, 98], [99, 10]] ∧ p.2.2.taken = [[97, 10], [98, 99, 10]]) ∧
      p.2.2.taken <+: (handedOver (Machine.lefts t)).map Prod.snd := by
  obtain ⟨t, p, hrun, hchunks, htaken⟩ :=
    (linkMachine (fun (s : ConnLoop ℕ) act => s.NoReset act ∧ s.SendsLines act)
      (TakesLines (τ := ℕ))).exists_run_of_exec
    ((plainEnd .client 5).start, (plainEnd .serverSameLoop 7).start)
    [.inl .connectEstablished, .inr .connectEstablished, .inl (.send [97, 10] (.ok 1)),
      .inr .callbackReturns, .inl .callbackReturns, .inl (.postSend 3 [98, 99, 10]),
      .inl (.runTask (.ok 0)), .inl (.poll {.EPOLLOUT}), .inl .handleEvent, .inl .testClose,
      .inl .testError, .inl (.testRead (.data [])), .inl (.testWrite (.ok 2)), .inl .endEvent,
      .inl .endHandling, .inr (.poll {.EPOLLIN}), .inr .handleEvent, .inr .testClose,
      .inr .testError, .inr (.testRead (.data [97, 10, 98])), .inr (.retrieve 2),
      .inr .callbackReturns, .inr (.testWrite (.ok 0)), .inr .endEvent, .inr .endHandling,
      .inl (.poll {.EPOLLOUT}), .inl .handleEvent, .inl .testClose,
      .inl .testError, .inl (.testRead (.data [])), .inl (.testWrite (.ok 2)),
      .inr (.poll {.EPOLLIN}), .inr .handleEvent, .inr .testClose, .inr .testError,
      .inr (.testRead (.data [99, 10])), .inr (.retrieve 3)]
    (fun p _ => p.2.2.chunks = [[97, 10, 98], [99, 10]] ∧
      p.2.2.taken = [[97, 10], [98, 99, 10]]) (by decide +kernel)
  exact ⟨t, p, hrun, ⟨hchunks, htaken⟩, (link_delivers_lines hrun).1⟩

end ConnLoop

end MuduoServer
