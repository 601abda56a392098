import MuduoServer.Tcp.Isolation
import MuduoServer.Tcp.Link

/-!
# Two loops joined by TCP

The system as it is deployed: two processes, each with an event loop that has any number of other
connections, its timers and its acceptor, and one TCP connection between them.  On both loops
everything is as in `LoopHost`; between them only the promise of TCP is used, as in `Link`.

A connection on a loop is the connection alone (`Isolation`), and so the two ends on their loops are
two ends alone: `linked_alone`.  What was proved about a link holds between the loops.  The run ends
for one of the loops when it destroys its connection; the other loop may still read what is under
way.  `startRead` and `stopRead` are not among the steps of either loop, and `forceClose` reads and
writes `state_` in one step.
-/

namespace MuduoServer

namespace ConnLoop

variable {τ τ' : Type}

/-- TCP looks at the connections and at the bytes that the kernel has. -/
lemma Delivers.congr {peer peer' : ConnLoop τ'} {p p' : ConnLoop τ × Traffic} {act : ConnAct τ}
    (hpeer : peer'.conn = peer.conn) (haccepted : peer'.accepted = peer.accepted)
    (hconn : p'.1.conn = p.1.conn) (htraffic : p'.2 = p.2) (h : Delivers peer p act) :
    Delivers peer' p' act := by
  cases act with
  | testRead r =>
    unfold Delivers reads HasLeft at *
    rw [hpeer, haccepted, hconn, htraffic]
    exact h
  | _ => trivial

/-- So does the law of a direction. -/
lemma EndToEnd.congr [DecidableEq τ] {t : List (ConnEvent τ)} {peer peer' : ConnLoop τ}
    {p p' : ConnLoop τ' × Traffic} (hpeer : peer'.conn = peer.conn) (hconn : p'.1.conn = p.1.conn)
    (htraffic : p'.2 = p.2) (h : EndToEnd t peer p) : EndToEnd t peer' p' where
  conserved := by
    rw [hpeer, hconn, htraffic]
    exact h.conserved
  order := h.order
  ended := by
    rw [hpeer, hconn, htraffic]
    exact h.ended

/-- The condition on a step looks at nothing but the connection. -/
def OfConn (ok : ConnLoop τ → ConnAct τ → Prop) : Prop :=
  ∀ s s' act, s'.conn = s.conn → ok s act → ok s' act

/-- A condition on the step alone is one of the connection. -/
lemma ofConn_act (ok : ConnAct τ → Prop) : OfConn fun (_ : ConnLoop τ) act => ok act :=
  fun _ _ _ _ h => h

/-- Two such conditions together. -/
lemma OfConn.and {ok ok' : ConnLoop τ → ConnAct τ → Prop} (h : OfConn ok) (h' : OfConn ok') :
    OfConn fun s act => ok s act ∧ ok' s act :=
  fun s s' act hconn hok => ⟨h s s' act hconn hok.1, h' s s' act hconn hok.2⟩

/-- Whether a write finds the connection reset is in the step. -/
lemma ofConn_noReset : OfConn (NoReset (τ := τ)) := by
  intro s s' act _ h
  cases act <;> exact h

/-- What is sent is in the step. -/
lemma ofConn_sendsLines : OfConn (SendsLines (τ := τ)) := fun _ _ _ _ h => h

/-- So is `TakesLines`. -/
lemma ofConn_takesLines : OfConn (TakesLines (τ := τ)) := by
  intro s s' act hconn h
  cases act with
  | retrieve len =>
    unfold TakesLines at *
    rw [hconn]
    exact h
  | _ => trivial

end ConnLoop

/-- A loop with the log of one of its connections, and what has come in there. -/
abbrev HostEnd := (LoopHost × ConnLog) × Traffic

namespace LoopHost

open ConnLoop

variable {a b : ℕ} {h : Hosted} {q : LoopHost × ConnLog} {c : ConnLoop Unit}

/-- The connection `a` as it can be seen, with all the bytes that the kernel has taken. -/
def seen (q : LoopHost × ConnLog) (a : ℕ) (h : Hosted) : ConnLoop Unit :=
  { q.1.view a h with accepted := q.2.accepted }

/-- What comes in at the connection `a` in a step of the loop. -/
def carry (a : ℕ) (traffic : Traffic) (q : LoopHost × ConnLog) (act : HostAct) : Traffic :=
  match q.1.conns a, q.1.connAct a act with
  | some h, some cact => traffic.record (seen q a h) cact
  | _, _ => traffic

/-- The connection `a` takes only steps of the kind `ok`. -/
def StepsOk (a : ℕ) (ok : ConnLoop Unit → ConnAct Unit → Prop) (q : LoopHost × ConnLog)
    (act : HostAct) : Prop :=
  ∀ h ∈ q.1.conns a, ∀ cact ∈ q.1.connAct a act, ok (seen q a h) cact

/-- What TCP lets the loop do, when the other end is the connection `b` of `peer`. -/
def HostDelivers (b : ℕ) (peer : LoopHost × ConnLog) (a : ℕ) (p : HostEnd) (act : HostAct) : Prop :=
  ∀ g ∈ peer.1.conns b, ∀ h ∈ p.1.1.conns a, ∀ cact ∈ p.1.1.connAct a act,
    Delivers (seen peer b g) (seen p.1 a h, p.2) cact

instance (a : ℕ) (ok : ConnLoop Unit → ConnAct Unit → Prop) [∀ s act, Decidable (ok s act)]
    (q : LoopHost × ConnLog) (act : HostAct) : Decidable (StepsOk a ok q act) :=
  inferInstanceAs (Decidable (∀ h ∈ q.1.conns a, ∀ cact ∈ q.1.connAct a act, _))

instance (b : ℕ) (peer : LoopHost × ConnLog) (a : ℕ) (p : HostEnd) (act : HostAct) :
    Decidable (HostDelivers b peer a p act) :=
  inferInstanceAs (Decidable (∀ g ∈ peer.1.conns b, ∀ h ∈ p.1.1.conns a,
    ∀ cact ∈ p.1.1.connAct a act, _))

/-- What TCP asks of a step of either loop. -/
def HostLinkSync (a b : ℕ) (p q : HostEnd) : HostAct ⊕ HostAct → Prop
  | .inl act => HostDelivers b q.1 a p act
  | .inr act => HostDelivers a p.1 b q act

instance (a b : ℕ) (p q : HostEnd) (act : HostAct ⊕ HostAct) :
    Decidable (HostLinkSync a b p q act) :=
  match act with
  | .inl act => inferInstanceAs (Decidable (HostDelivers b q.1 a p act))
  | .inr act => inferInstanceAs (Decidable (HostDelivers a p.1 b q act))

end LoopHost

/-- A loop as long as the connection `a` is not destroyed, with what goes out and what comes in
there. -/
def endMachine (a : ℕ) (ok : ConnLoop Unit → ConnAct Unit → Prop) : Machine HostEnd HostAct Empty :=
  ((loggedMachine a fun _ => True).restrict (LoopHost.StepsOk a ok)).withHistory (LoopHost.carry a)

instance (a : ℕ) (ok : ConnLoop Unit → ConnAct Unit → Prop) [∀ s act, Decidable (ok s act)]
    (p : HostEnd) (act : HostAct) : Decidable ((endMachine a ok).pre p act) :=
  inferInstanceAs (Decidable ((loggedMachine a fun _ => True).pre p.1 act ∧
    LoopHost.StepsOk a ok p.1 act))

/-- All runs of the two loops, whose connections `a` and `b` are the two ends. -/
def hostLinkMachine (a b : ℕ) (okA okB : ConnLoop Unit → ConnAct Unit → Prop) :
    Machine (HostEnd × HostEnd) (HostAct ⊕ HostAct) (Empty ⊕ Empty) :=
  (endMachine a okA).parallel (endMachine b okB) (LoopHost.HostLinkSync a b)

instance (a b : ℕ) (okA okB : ConnLoop Unit → ConnAct Unit → Prop)
    [∀ s act, Decidable (okA s act)] [∀ s act, Decidable (okB s act)] (p : HostEnd × HostEnd)
    (act : HostAct ⊕ HostAct) : Decidable ((hostLinkMachine a b okA okB).pre p act) :=
  inferInstanceAs (Decidable
    (((endMachine a okA).parallel (endMachine b okB) (LoopHost.HostLinkSync a b)).pre p act))

/-- A loop that has come to the moment when `newConnection` makes the connection. -/
structure HostConfig where
  clock : Timestamp
  trace : List Empty
  host : LoopHost
  run : hostMachine.Run (.new clock) trace host
  kind : OwnerKind
  address : ℕ
  fd : ℕ
  highWaterMark : ℕ
  writeCompleteCallback : Bool
  highWaterMarkCallback : Bool
  pre : host.pre (.newConnection kind address fd highWaterMark writeCompleteCallback
    highWaterMarkCallback)

namespace HostConfig

open LoopHost

variable (c : HostConfig)

/-- The loop when the connection has been made. -/
def start : HostEnd :=
  ((c.host.newConnection c.kind c.address c.fd c.highWaterMark c.writeCompleteCallback
    c.highWaterMarkCallback, ⟨[], []⟩), .new)

/-- The invariant holds when the connection is made. -/
lemma inv : HostInv c.host := hostInv_of_run c.run

/-- And when it has been made. -/
lemma inv_start : HostInv c.start.1.1 := by
  obtain ⟨s, hs, hinv⟩ := c.inv.step_newConnection c.pre
  obtain rfl := Option.some.inj hs
  exact hinv

/-- The connection alone. -/
def alone : EndConfig where
  kind := c.kind
  address := c.address
  fd := c.fd
  highWaterMark := c.highWaterMark
  writeCompleteCallback := c.writeCompleteCallback
  highWaterMarkCallback := c.highWaterMarkCallback
  poller := c.host.poller
  handling := decide (c.host.stage = .handle)
  channels := (c.inv.shape.descriptors.closed (c.inv.fresh c.pre.1).2.2.2.1).1
  interest := (c.inv.shape.descriptors.closed (c.inv.fresh c.pre.1).2.2.2.1).2

end HostConfig

namespace LoopHost

open ConnLoop

variable {a b : ℕ} {h : Hosted} {q : LoopHost × ConnLog} {v : ConnLoop Unit} {traffic : Traffic}

/-- The connection on the loop is as its view has it. -/
lemma Hosts.seen (hc : Hosts q.1 a h q.2 v) :
    v.conn = (seen q a h).conn ∧ v.accepted = (seen q a h).accepted := by
  obtain ⟨p, d, rfl, -⟩ := hc.same
  exact ⟨rfl, List.append_nil _⟩

/-- A step that is none of the connection carries nothing. -/
lemma carry_of_none {act : HostAct} (hact : q.1.connAct a act = none) :
    carry a traffic q act = traffic := by
  unfold carry
  rw [hact]
  split
  · next heq => cases heq
  · rfl

/-- A step of the connection is recorded as for the connection alone. -/
lemma carry_of_some {act : HostAct} {cact : ConnAct Unit} (ha : q.1.conns a = some h)
    (hact : q.1.connAct a act = some cact) :
    carry a traffic q act = traffic.record (LoopHost.seen q a h) cact := by
  simp only [carry, ha, hact]

/-- What comes in is read off the connection. -/
lemma record_congr {s s' : ConnLoop Unit} (hconn : s'.conn = s.conn) (act : ConnAct Unit) :
    traffic.record s' act = traffic.record s act := by
  cases act with
  | testRead r =>
    have hreads : s'.reads ↔ s.reads := by
      unfold reads
      rw [hconn]
    exact if_congr hreads rfl rfl
  | retrieve len => simp only [Traffic.record, hconn]
  | _ => rfl

/-- An end on its loop, and the same end alone. -/
def EndOf (a : ℕ) (p : HostEnd) (v : ConnLoop Unit × Traffic) : Prop :=
  Tracked a p.1 v.1 ∧ v.2 = p.2

/-- The two ends start alike. -/
lemma EndOf.start (c : HostConfig) : EndOf c.address c.start c.alone.start :=
  ⟨⟨c.inv_start, _, .start c.inv c.pre⟩, rfl⟩

/-- The end alone answers every step of the loop with the step that the connection takes in it. -/
lemma EndOf.answers {ok : ConnLoop Unit → ConnAct Unit → Prop} (hok : OfConn ok) (c : HostConfig) :
    Machine.Answers (endMachine c.address ok) (trafficMachine ok) c.alone.start (EndOf c.address)
      (fun p => p.1.2.events) fun p act _ cact => p.1.1.connAct c.address act = some cact := by
  rintro p act p' out v hrun ⟨htracked, htraffic⟩ hpre hstep
  obtain ⟨hs, hcarry⟩ := Machine.withHistory_step hstep
  obtain ⟨st, hst, -⟩ := (InputInv.of_run (.start c.alone) hrun).life
  obtain ⟨h, hhosts⟩ := htracked.hosts
  obtain ⟨hconn, -⟩ := hhosts.seen
  rcases htracked.step hst hpre.1 hs with ⟨htracked', hnone, hevents⟩ |
    ⟨cact, v', o, hact, hvpre, hvstep, htracked', hevents⟩
  · rw [carry_of_none hnone] at hcarry
    exact Or.inl ⟨⟨htracked', htraffic.trans hcarry.symm⟩, hevents⟩
  · rw [carry_of_some hhosts.conn hact, ← record_congr hconn, ← htraffic] at hcarry
    have hnext : (trafficMachine ok).step v cact = some ((v', p'.2), o) := by
      rw [hcarry]
      exact congrArg (Option.map _) hvstep
    exact Or.inr ⟨cact, (v', p'.2), o, ⟨hvpre.1, hok _ _ _ hconn (hpre.2 h hhosts.conn cact hact)⟩,
      hnext, hact, ⟨htracked', rfl⟩, hevents⟩

/-- What TCP lets the loop do, it lets the connection alone do. -/
lemma EndOf.delivers {p r : HostEnd} {v d : ConnLoop Unit × Traffic} {act : HostAct}
    {cact : ConnAct Unit} (hv : EndOf a p v) (hd : EndOf b r d)
    (hact : p.1.1.connAct a act = some cact) (h : HostDelivers b r.1 a p act) :
    Delivers d.1 v cact := by
  obtain ⟨⟨-, h₁, hhosts₁⟩, htraffic⟩ := hv
  obtain ⟨⟨-, h₂, hhosts₂⟩, -⟩ := hd
  obtain ⟨hconn₂, haccepted₂⟩ := hhosts₂.seen
  have hseen := h h₂ hhosts₂.conn h₁ hhosts₁.conn cact hact
  exact hseen.congr hconn₂ haccepted₂ hhosts₁.seen.1 htraffic

variable {okA okB : ConnLoop Unit → ConnAct Unit → Prop} {c c' : HostConfig}
  {t : List (Empty ⊕ Empty)} {p : HostEnd × HostEnd}

/-- Two loops joined by TCP are, for the two connections, two connections joined by TCP. -/
theorem linked_alone (hokA : OfConn okA) (hokB : OfConn okB)
    (h : (hostLinkMachine c.address c'.address okA okB).Run (c.start, c'.start) t p) :
    ∃ t' v, (linkMachine okA okB).Run (c.alone.start, c'.alone.start) t' v ∧
      (EndOf c.address p.1 v.1 ∧ EndOf c'.address p.2 v.2) ∧
      Machine.lefts t' = p.1.1.2.events ∧ Machine.rights t' = p.2.1.2.events := by
  have hleft : Machine.Answers (endMachine c.address okA) (trafficMachine okA) c.alone.start
      (EndOf c.address) (fun p => p.1.2.events) fun p act v cact => ∀ r d, EndOf c'.address r d →
        HostLinkSync c.address c'.address p r (.inl act) → LinkSync v d (.inl cact) :=
    (EndOf.answers hokA c).mono fun _ _ _ _ hv hact _ _ hd hsync => hv.delivers hd hact hsync
  have hright : Machine.Answers (endMachine c'.address okB) (trafficMachine okB) c'.alone.start
      (EndOf c'.address) (fun p => p.1.2.events) fun r act d cact => ∀ p v, EndOf c.address p v →
        HostLinkSync c.address c'.address p r (.inr act) → LinkSync v d (.inr cact) :=
    (EndOf.answers hokB c').mono fun _ _ _ _ hd hact _ _ hv hsync => hd.delivers hv hact hsync
  exact h.parallelFollows (.start c) (.start c') rfl rfl hleft hright

/-- What is seen of an end is what it is alone. -/
lemma EndOf.seen {p : HostEnd} {v : ConnLoop Unit × Traffic} (hv : EndOf a p v) :
    ∃ h, p.1.1.conns a = some h ∧ (LoopHost.seen p.1 a h).conn = v.1.conn := by
  obtain ⟨⟨-, h, hhosts⟩, -⟩ := hv
  exact ⟨h, hhosts.conn, hhosts.seen.1.symm⟩

/-- No byte is lost between loops with any number of other channels.  Two loops, whatever they have
come to, make a connection each, and TCP joins the two.  In every run from there, in which the two
loops, what else they serve and all other threads interleave in any way, and in each direction in
which no write finds the connection reset: the messages handed over at one end are, byte for byte
and in order, what the user has taken at the other end, what is in `inputBuffer_` there, what is
under way, and what is in `outputBuffer_`; the messages of each caller are among them in the order
of its calls; and when `readv` has returned 0, nothing is under way any more. -/
theorem hosted_link_conserves_bytes {okA okB : ConnAct Unit → Prop}
    (h : (hostLinkMachine c.address c'.address (fun _ => okA) fun _ => okB).Run
      (c.start, c'.start) t p) :
    ∃ g g', p.1.1.1.conns c.address = some g ∧ p.2.1.1.conns c'.address = some g' ∧
      ((∀ act, okA act → act.NotReset) → EndToEnd p.1.1.2.events (seen p.1.1 c.address g)
        (seen p.2.1 c'.address g', p.2.2)) ∧
      ((∀ act, okB act → act.NotReset) → EndToEnd p.2.1.2.events (seen p.2.1 c'.address g')
        (seen p.1.1 c.address g, p.1.2)) := by
  obtain ⟨t', v, hrun, ⟨hv, hv'⟩, hlefts, hrights⟩ := linked_alone (ofConn_act _) (ofConn_act _) h
  obtain ⟨hright, hleft⟩ := link_conserves_bytes hrun
  rw [hlefts] at hright
  rw [hrights] at hleft
  obtain ⟨g, hg, hconn⟩ := hv.seen
  obtain ⟨g', hg', hconn'⟩ := hv'.seen
  refine ⟨g, g', hg, hg', fun hok => ?_, fun hok => ?_⟩
  · exact (hright fun _ act hact => noReset_iff.mpr (hok act hact)).congr hconn hconn' hv'.2.symm
  · exact (hleft fun _ act hact => noReset_iff.mpr (hok act hact)).congr hconn' hconn hv.2.symm

/-- The client sends, and the server reads in between what has come. -/
def pieceByPiece : List (HostAct ⊕ HostAct) :=
  [.inl (.conn 10 .connectEstablished), .inl (.conn 10 .callbackReturns), .inr .poll,
    .inr .beginHandling, .inr .endHandling, .inr (.runFunctor (.ok 0)),
    .inr (.conn 20 .callbackReturns), .inr .endFunctor, .inr .endFunctors,
    .inl (.conn 10 (.send [1, 2, 3] (.ok 2))), .inr .poll, .inr (.report 6 {.EPOLLIN}),
    .inr (.report 7 {.EPOLLIN}), .inr .beginHandling, .inr .handleEvent,
    .inr (.conn 11 .testClose), .inr (.conn 11 .testError),
    .inr (.conn 11 (.testRead (.error 11))), .inr (.conn 11 (.testWrite (.ok 0))),
    .inr .endEvent, .inr .handleEvent, .inr (.conn 20 .testClose), .inr (.conn 20 .testError),
    .inr (.conn 20 (.testRead (.data [1]))), .inr (.conn 20 (.retrieve 1)), .inl .poll,
    .inl (.report 5 {.EPOLLOUT}), .inl .beginHandling, .inl .handleEvent,
    .inl (.conn 10 .testClose), .inl (.conn 10 .testError),
    .inl (.conn 10 (.testRead (.data []))), .inl (.conn 10 (.testWrite (.ok 1))),
    .inr (.conn 20 .callbackReturns)]

/-- The loops have come to the same state and make the two ends, the client's at 10 and the other at
20. -/
def bothEnds (s : LoopHost) (kind : OwnerKind) : HostEnd × HostEnd :=
  (((s.newConnection .client 10 5 64 true true, ⟨[], []⟩), .new),
    ((s.newConnection kind 20 7 64 true true, ⟨[], []⟩), .new))

/-- The client's loop and the server's loop have another connection each.  The client's message
leaves in two pieces, the first of which the server reads after it has served the other
connection. -/
theorem hosted_link_conserves_bytes_two :
    ∃ (c c' : HostConfig) (t : List (Empty ⊕ Empty)) (p : HostEnd × HostEnd),
      (hostLinkMachine c.address c'.address (fun _ => ConnAct.NotReset) fun _ =>
        ConnAct.NotReset).Run (c.start, c'.start) t p ∧
      (p.1.1.2.accepted = [1, 2, 3] ∧ p.2.2.taken = [[1]] ∧ (p.2.1.1.conns 11).isSome) ∧
      ∃ g g', p.1.1.1.conns c.address = some g ∧ p.2.1.1.conns c'.address = some g' ∧
        EndToEnd p.1.1.2.events (seen p.1.1 c.address g) (seen p.2.1 c'.address g', p.2.2) := by
  obtain ⟨t, s, hrun, hpre, hpre', hnext⟩ := hostMachine.exists_run_of_exec (.new 0)
    otherConnection
    (fun s _ => s.pre (.newConnection .client 10 5 64 true true) ∧
      s.pre (.newConnection .serverOtherLoop 20 7 64 true true) ∧
      (hostLinkMachine 10 20 (fun _ => ConnAct.NotReset) fun _ => ConnAct.NotReset).Reaches
        (bothEnds s .serverOtherLoop) pieceByPiece fun p _ =>
          p.1.1.2.accepted = [1, 2, 3] ∧ p.2.2.taken = [[1]] ∧ (p.2.1.1.conns 11).isSome)
    (by decide +kernel)
  obtain ⟨t', p, hrun', hfacts⟩ := hnext.exists_run
  let c : HostConfig := ⟨0, t, s, hrun, .client, 10, 5, 64, true, true, hpre⟩
  let c' : HostConfig := ⟨0, t, s, hrun, .serverOtherLoop, 20, 7, 64, true, true, hpre'⟩
  have hlink : (hostLinkMachine c.address c'.address (fun _ => ConnAct.NotReset) fun _ =>
    ConnAct.NotReset).Run (c.start, c'.start) t' p := hrun'
  obtain ⟨g, g', hg, hg', hright, -⟩ := hosted_link_conserves_bytes hlink
  exact ⟨c, c', t', p, hrun', hfacts, g, g', hg, hg', hright fun _ h => h⟩

/-- Line by line.  When the one connection sends only lines, none of its writes finds it reset, and
the other one takes only lines, then the lines taken are the messages handed over, in this order and
from the first one on, whatever else happens on the two loops; and all of them have been taken when
the stream has ended, nothing was left in `outputBuffer_`, and `getLine()` finds no more. -/
theorem hosted_link_delivers_lines
    (h : (hostLinkMachine c.address c'.address (fun s act => s.NoReset act ∧ s.SendsLines act)
      TakesLines).Run (c.start, c'.start) t p) :
    ∃ g g', p.1.1.1.conns c.address = some g ∧ p.2.1.1.conns c'.address = some g' ∧
      p.2.2.taken <+: (handedOver p.1.1.2.events).map Prod.snd ∧
      (p.2.2.ended = true → g.conn.outputBuffer.readable = [] →
        newline ∉ g'.conn.inputBuffer.readable →
        p.2.2.taken = (handedOver p.1.1.2.events).map Prod.snd) := by
  obtain ⟨t', v, hrun, ⟨hv, hv'⟩, hlefts, -⟩ := linked_alone
    (ofConn_noReset.and ofConn_sendsLines) ofConn_takesLines h
  obtain ⟨hlines, hall⟩ := link_delivers_lines hrun
  obtain ⟨g, hg, hconn⟩ := hv.seen
  obtain ⟨g', hg', hconn'⟩ := hv'.seen
  rw [hlefts, hv'.2, ← hconn, ← hconn'] at hall
  rw [hlefts, hv'.2] at hlines
  exact ⟨g, g', hg, hg', hlines, hall⟩

/-- The client sends a line, which the server finds in two pieces. -/
def lineInPieces : List (HostAct ⊕ HostAct) :=
  [.inl (.conn 10 .connectEstablished), .inl (.conn 10 (.send [97, 98, 10] (.ok 2))),
    .inr (.conn 20 .connectEstablished), .inl (.conn 10 .callbackReturns),
    .inr (.conn 20 .callbackReturns), .inr .poll, .inr (.report 7 {.EPOLLIN}),
    .inr .beginHandling, .inr .handleEvent, .inr (.conn 20 .testClose),
    .inr (.conn 20 .testError), .inr (.conn 20 (.testRead (.data [97, 98]))), .inl .poll,
    .inl (.report 5 {.EPOLLOUT}), .inl .beginHandling, .inl .handleEvent,
    .inl (.conn 10 .testClose), .inl (.conn 10 .testError),
    .inl (.conn 10 (.testRead (.data []))), .inl (.conn 10 (.testWrite (.ok 1))),
    .inr (.conn 20 .callbackReturns), .inr (.conn 20 (.testWrite (.ok 0))), .inr .endEvent,
    .inr .endHandling, .inr .endFunctors, .inr .poll, .inr (.report 7 {.EPOLLIN}),
    .inr .beginHandling, .inr .handleEvent, .inr (.conn 20 .testClose),
    .inr (.conn 20 .testError), .inr (.conn 20 (.testRead (.data [10]))),
    .inr (.conn 20 (.retrieve 3))]

/-- The server finds the line in two pieces. -/
theorem hosted_link_delivers_lines_pieces :
    ∃ (c c' : HostConfig) (t : List (Empty ⊕ Empty)) (p : HostEnd × HostEnd),
      (hostLinkMachine c.address c'.address (fun s act => s.NoReset act ∧ s.SendsLines act)
        TakesLines).Run (c.start, c'.start) t p ∧
      (p.2.2.chunks = [[97, 98], [10]] ∧ p.2.2.taken = [[97, 98, 10]]) ∧
      p.2.2.taken <+: (handedOver p.1.1.2.events).map Prod.snd := by
  obtain ⟨t, s, hrun, hpre, hpre', hnext⟩ := hostMachine.exists_run_of_exec (.new 0)
    otherConnection
    (fun s _ => s.pre (.newConnection .client 10 5 64 true true) ∧
      s.pre (.newConnection .client 20 7 64 true true) ∧
      (hostLinkMachine 10 20 (fun s act => s.NoReset act ∧ s.SendsLines act) TakesLines).Reaches
        (bothEnds s .client) lineInPieces fun p _ =>
          p.2.2.chunks = [[97, 98], [10]] ∧ p.2.2.taken = [[97, 98, 10]])
    (by decide +kernel)
  obtain ⟨t', p, hrun', hfacts⟩ := hnext.exists_run
  let c : HostConfig := ⟨0, t, s, hrun, .client, 10, 5, 64, true, true, hpre⟩
  let c' : HostConfig := ⟨0, t, s, hrun, .client, 20, 7, 64, true, true, hpre'⟩
  have hlink : (hostLinkMachine c.address c'.address (fun s act => s.NoReset act ∧ s.SendsLines act)
    TakesLines).Run (c.start, c'.start) t' p := hrun'
  obtain ⟨-, -, -, -, hlines, -⟩ := hosted_link_delivers_lines hlink
  exact ⟨c, c', t', p, hrun', hfacts, hlines⟩

end LoopHost

end MuduoServer
