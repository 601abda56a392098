import MuduoServer.Tcp.HostLink

/-!
# The backlog drains

What `sendInLoop` cannot write at once waits in `outputBuffer_` until the descriptor is reported for
`EPOLLOUT`; then `handleWrite` makes one `write`.  The peer decides how much that takes, and so
nothing can be said about time.  But every `write` that takes anything takes it from the front:
after as many of them as there were bytes in `outputBuffer_`, all that had been handed over is in
the kernel, whatever has been sent since (`ConnLoop.taken_of_writes`).  The same holds on a loop
with other channels, and there the kernel watches the descriptor for `EPOLLOUT` as long as anything
is left.  In all these runs no write finds the connection reset, from their beginning on, and
`startRead` and `stopRead` are not among the steps; `forceClose` reads and writes `state_` in one
step.
-/

namespace MuduoServer

/-- The kernel takes bytes in `handleWrite`. -/
def ConnAct.takesBytes {τ : Type} : ConnAct τ → Bool
  | .testWrite (.ok n) => 0 < n
  | _ => false

namespace ConnLoop

variable {τ : Type} {s s' s₀ : ConnLoop τ} {t t₀ : List (ConnEvent τ)} {out : List (ConnEvent τ)}

/-- A result with bytes stands only where a `write` is made; elsewhere `testWrite` ignores it. -/
def WritesOnly (s : ConnLoop τ) (act : ConnAct τ) : Prop :=
  act.takesBytes = true → .EPOLLOUT ∈ s.conn.channel.revents ∧ s.conn.channel.isWriting

instance (s : ConnLoop τ) (act : ConnAct τ) : Decidable (s.WritesOnly act) :=
  inferInstanceAs (Decidable (_ → _))

/-- All runs of a connection in which no write finds it reset. -/
def drainMachine (τ : Type) : Machine (ConnLoop τ) (ConnAct τ) (ConnEvent τ) :=
  (connMachine τ).restrict fun s act => s.NoReset act ∧ s.WritesOnly act

/-- What has been handed over comes before what is handed over later. -/
lemma handedOver_append_isInitial (t t' : List (ConnEvent τ)) :
    handedOver t <+: handedOver (t ++ t') := by
  by_cases hdown : .setState .KDisconnected ∈ t
  · rw [handedOver, handedOver, beforeDown_append_of_mem hdown]
  · have hbodies : bodies t <+: handedOver (t ++ t') := by
      rw [handedOver, beforeDown_append_of_notMem hdown, bodies_append]
      exact List.prefix_append _ _
    exact (handedOver_isInitial t).trans hbodies

/-- A `write` that takes anything moves it to the kernel. -/
lemma accepted_lt_of_takesBytes {act : ConnAct τ} (hvalid : s.conn.outputBuffer.Valid)
    (hpre : s.pre act) (hwrites : s.WritesOnly act) (htakes : act.takesBytes = true)
    (hstep : s.step act = some (s', out)) : s.accepted.length < s'.accepted.length := by
  obtain ⟨hevents, hwriting⟩ := hwrites htakes
  cases act with
  | testWrite w =>
    cases w with
    | error errno => cases htakes
    | ok n =>
      have hpos : 0 < n := of_decide_eq_true htakes
      have hn : n ≤ s.conn.outputBuffer.readableBytes := hpre.2
      simp only [step, if_pos hevents, handleWrite, if_pos hwriting, if_pos hpos,
        Option.bind_eq_bind] at hstep
      obtain ⟨b, hb, hstep⟩ := Option.bind_eq_some_iff.mp hstep
      have hlength : ((s.conn.outputBuffer.peek s.conn.outputBuffer.readableBytes).take n).length =
          n := by
        rw [Buffer.peek_readableBytes hvalid, List.length_take, hvalid.length_readable]
        exact min_eq_left hn
      have hmoved : s.accepted.length < (s.accepted ++
          (s.conn.outputBuffer.peek s.conn.outputBuffer.readableBytes).take n).length := by
        rw [List.length_append, hlength]
        exact Nat.lt_add_of_pos_right hpos
      split at hstep
      · exact lt_of_lt_of_le hmoved (Onward.writeComplete hstep).accepted.length_le
      · obtain ⟨rfl, -⟩ := Prod.mk.inj (Option.some.inj hstep)
        exact hmoved
  | _ => cases htakes

/-- The law of the output goes on. -/
lemma OutputInv.of_drain (h₀ : OutputInv t₀ s₀) (h : (drainMachine τ).Run s₀ t s) :
    OutputInv (t₀ ++ t) s := by
  refine h.invariant (fun t s => OutputInv (t₀ ++ t) s) ?_ ?_
  · rw [List.append_nil]
    exact h₀
  · intro t s act s' out hinv hpre hstep
    rw [← List.append_assoc]
    exact hinv.step hpre.1 hpre.2.1 hstep

/-- What has been handed over so far has been taken as soon as enough bytes have. -/
lemma OutputInv.taken (h : OutputInv (t₀ ++ t) s)
    (hle : ((handedOver t₀).flatMap Prod.snd).length ≤ s.accepted.length) :
    (handedOver t₀).flatMap Prod.snd <+: s.accepted := by
  have hfirst : (handedOver t₀).flatMap Prod.snd <+: (handedOver (t₀ ++ t)).flatMap Prod.snd := by
    obtain ⟨rest, hrest⟩ := handedOver_append_isInitial t₀ t
    rw [← hrest, List.flatMap_append]
    exact List.prefix_append _ _
  have haccepted : s.accepted <+: (handedOver (t₀ ++ t)).flatMap Prod.snd := by
    rw [← h.stream]
    exact List.prefix_append _ _
  exact List.prefix_of_prefix_length_le hfirst haccepted hle

/-- After as many writes as there were bytes in `outputBuffer_`, the kernel has taken all that had
been handed over, unless the connection is down. -/
theorem taken_of_writes {p : ConnLoop τ × ℕ} (h₀ : OutputInv t₀ s₀)
    (h : ((drainMachine τ).counting fun act => act.takesBytes = true).Run (s₀, 0) t p)
    (hn : s₀.conn.outputBuffer.readableBytes ≤ p.2) :
    p.1.conn.state = .KDisconnected ∨ (handedOver t₀).flatMap Prod.snd <+: p.1.accepted := by
  have hprogress := h.progress
    (fun _ s => s.conn.state = .KDisconnected ∨ (handedOver t₀).flatMap Prod.snd <+: s.accepted)
    (fun _ s => ((handedOver t₀).flatMap Prod.snd).length - s.accepted.length) ?_ ?_
  · refine hprogress.elim id fun hrank => Or.inr ?_
    refine (h₀.of_drain h.forget).taken ?_
    obtain ⟨st, hst, -⟩ := h₀.life
    have hlength := congrArg List.length h₀.stream
    rw [List.length_append, hst.conn.output.length_readable] at hlength
    omega
  · rintro t s act s' out hrun (hdown | htaken) hpre hstep
    · obtain ⟨st, hst, -⟩ := (h₀.of_drain hrun).life
      exact Or.inl (step_of_down hst hdown hpre.1 hstep).2.2
    · obtain ⟨st, hst, -⟩ := (h₀.of_drain hrun).life
      exact Or.inr (htaken.trans (step_accepted hst.conn.input hstep))
  · intro t s act s' out hrun hgoal hpre hstep
    refine Or.inr ?_
    have hinv := h₀.of_drain hrun
    obtain ⟨st, hst, -⟩ := hinv.life
    have hless : s.accepted.length < ((handedOver t₀).flatMap Prod.snd).length := by
      by_contra hle
      exact hgoal (Or.inr (hinv.taken (not_lt.mp hle)))
    have hgrows := (step_accepted hst.conn.input hstep).length_le
    by_cases htakes : act.takesBytes = true
    · have hmoves := accepted_lt_of_takesBytes hst.conn.output hpre.1 hpre.2.2 htakes hstep
      rw [if_pos htakes]
      omega
    · rw [if_neg htakes]
      omega

end ConnLoop

/-- The kernel takes bytes in `handleWrite` of the connection `a`. -/
def HostAct.takesBytes (a : ℕ) : HostAct → Bool
  | .conn b act => b == a && act.takesBytes
  | _ => false

/-- The loop as long as the connection `a` is not destroyed and no write finds it reset. -/
def drainHost (a : ℕ) : Machine (LoopHost × ConnLog) HostAct Empty :=
  (loggedMachine a ConnAct.NotReset).restrict (LoopHost.StepsOk a ConnLoop.WritesOnly)

instance (a : ℕ) (q : LoopHost × ConnLog) (act : HostAct) : Decidable ((drainHost a).pre q act) :=
  inferInstanceAs (Decidable ((loggedMachine a ConnAct.NotReset).pre q act ∧
    LoopHost.StepsOk a ConnLoop.WritesOnly q act))

namespace LoopHost

open ConnLoop

variable {s s₀ s₁ : LoopHost} {a fd highWaterMark : ℕ} {kind : OwnerKind} {w k : Bool}

/-- Both say the same of a step. -/
lemma takesBytes_eq (s : LoopHost) (a : ℕ) (act : HostAct) :
    act.takesBytes a = (s.connAct a act).any ConnAct.takesBytes := by
  cases act with
  | conn b act =>
    by_cases hb : b = a
    · simp [HostAct.takesBytes, connAct, hb]
    · simp [HostAct.takesBytes, connAct, hb]
  | report fd revents =>
    simp only [HostAct.takesBytes, connAct]
    split <;> rfl
  | beginHandling | handleEvent | endEvent =>
    simp only [HostAct.takesBytes, connAct]
    split <;> rfl
  | runFunctor w =>
    simp only [HostAct.takesBytes, connAct]
    split
    · split <;> rfl
    · rfl
  | _ => rfl

/-- The law of the output of a connection alone. -/
lemma outputInv_alone {t : List (ConnEvent Unit)} {c : ConnLoop Unit} (hinv : HostInv s₀)
    (hpre : s₀.pre (.newConnection kind a fd highWaterMark w k))
    (h : (aloneMachine ConnAct.NotReset).Run (s₀.startAlone kind a fd highWaterMark w k) t c) :
    OutputInv t c := by
  obtain ⟨hchannels, hinterest⟩ := hinv.shape.descriptors.closed (hinv.fresh hpre.1).2.2.2.1
  refine h.invariant OutputInv (.newConnection hchannels hinterest) ?_
  intro t c act c' out hout hpre hstep
  exact hout.step hpre.1 (noReset_iff.mpr hpre.2) hstep

/-- While the loop drains the connection, the connection alone drains. -/
lemma drains_alone {t₀ : List (ConnEvent Unit)} {c₁ : ConnLoop Unit} {t : List Empty}
    {q₁ : LoopHost × ConnLog} {p : (LoopHost × ConnLog) × ℕ} (h₀ : OutputInv t₀ c₁)
    (hq₁ : Tracked a q₁ c₁)
    (h : ((drainHost a).counting fun act => act.takesBytes a = true).Run (q₁, 0) t p) :
    ∃ t' c, ((drainMachine Unit).counting fun act => act.takesBytes = true).Run (c₁, 0) t'
      (c, p.2) ∧ Tracked a p.1 c := by
  refine h.invariant (fun _ p => ∃ t' c, ((drainMachine Unit).counting
    fun act => act.takesBytes = true).Run (c₁, 0) t' (c, p.2) ∧ Tracked a p.1 c)
    ⟨[], c₁, Machine.Run.nil, hq₁⟩ ?_
  rintro t p act p' out ⟨t', c, hrun, hq⟩ hpre hstep
  obtain ⟨hs, hrecord⟩ := Machine.withHistory_step hstep
  have hcount : p'.2 = if act.takesBytes a = true then p.2 + 1 else p.2 := hrecord
  obtain ⟨st, hst, -⟩ := (h₀.of_drain hrun.forget).life
  obtain ⟨h, hhosts⟩ := hq.hosts
  obtain ⟨hconn, -⟩ := hhosts.seen
  rcases hq.step hst hpre.1 hs with ⟨hq', hnone, -⟩ | ⟨cact, c', o, hact, hcpre, hcstep, hq', -⟩
  · have hsame : p'.2 = p.2 := by
      rw [hcount, takesBytes_eq p.1.1, hnone]
      rfl
    rw [hsame]
    exact ⟨t', c, hrun, hq'⟩
  · have hwrites : c.WritesOnly cact := by
      have hseen := hpre.2 h hhosts.conn cact hact
      unfold WritesOnly at hseen ⊢
      rw [hconn]
      exact hseen
    have htakes : act.takesBytes a = cact.takesBytes := by
      rw [takesBytes_eq p.1.1, hact]
      rfl
    have hnext : ((drainMachine Unit).counting fun act => act.takesBytes = true).step
        (c, p.2) cact = some ((c', p'.2), o) := by
      rw [hcount, htakes]
      exact congrArg (Option.map _) hcstep
    exact ⟨t' ++ o, c', hrun.snoc ⟨hcpre.1, noReset_iff.mpr hcpre.2, hwrites⟩ hnext, hq'⟩

/-- What `taken_of_writes` says, on a loop. -/
lemma taken_of_hosted_writes {clk : Timestamp} {t t' t'' : List Empty} {log₁ log : ConnLog} {n : ℕ}
    (hrun : hostMachine.Run (.new clk) t s₀)
    (hpre : s₀.pre (.newConnection kind a fd highWaterMark w k))
    (hrun' : (loggedMachine a ConnAct.NotReset).Run
      (s₀.newConnection kind a fd highWaterMark w k, ⟨[], []⟩) t' (s₁, log₁))
    (hrun'' : ((drainHost a).counting fun act => act.takesBytes a = true).Run
      ((s₁, log₁), 0) t'' ((s, log), n)) :
    ∃ g₁ g, s₁.conns a = some g₁ ∧ s.conns a = some g ∧
      (g₁.conn.outputBuffer.readableBytes ≤ n → g.conn.state = .KDisconnected ∨
        (handedOver log₁.events).flatMap Prod.snd <+: log.accepted) := by
  obtain ⟨c₁, hc₁, hq₁⟩ := runs_alone hrun hpre hrun'
  have hout := outputInv_alone (hostInv_of_run hrun) hpre hc₁
  obtain ⟨t₂, c₂, hc₂, hq₂⟩ := drains_alone hout hq₁ hrun''
  obtain ⟨g₁, hhosts₁⟩ := hq₁.hosts
  obtain ⟨g₂, hhosts₂⟩ := hq₂.hosts
  refine ⟨g₁, g₂, hhosts₁.conn, hhosts₂.conn, fun hn => ?_⟩
  obtain ⟨hconn₁, -⟩ := hhosts₁.seen
  obtain ⟨hconn₂, haccepted₂⟩ := hhosts₂.seen
  have hbytes : c₁.conn.outputBuffer.readableBytes ≤ n := by
    rw [hconn₁]
    exact hn
  have htaken := taken_of_writes hout hc₂ hbytes
  rw [hconn₂, haccepted₂] at htaken
  exact htaken

/-- The backlog of a connection drains on a loop with any number of other channels.  From any moment
on that has been reached without a write finding the connection reset, and in every run in which
none does later: after as many writes that take anything as there were bytes in `outputBuffer_`, the
kernel has taken, in order, all that had been handed over by that moment, whatever has been sent
since and whatever else the loop does, or the connection is down; and as long as it is up and
anything is left, the kernel watches its descriptor for `EPOLLOUT`. -/
theorem hosted_backlog_drains {clk : Timestamp} {t t' t'' : List Empty} {log₁ log : ConnLog} {n : ℕ}
    (hrun : hostMachine.Run (.new clk) t s₀)
    (hpre : s₀.pre (.newConnection kind a fd highWaterMark w k))
    (hrun' : (loggedMachine a ConnAct.NotReset).Run
      (s₀.newConnection kind a fd highWaterMark w k, ⟨[], []⟩) t' (s₁, log₁))
    (hrun'' : ((drainHost a).counting fun act => act.takesBytes a = true).Run
      ((s₁, log₁), 0) t'' ((s, log), n)) :
    ∃ g₁ g, s₁.conns a = some g₁ ∧ s.conns a = some g ∧
      (g₁.conn.outputBuffer.readableBytes ≤ n → g.conn.state = .KDisconnected ∨
        (handedOver log₁.events).flatMap Prod.snd <+: log.accepted) ∧
      ((g.conn.state = .KConnected ∨ g.conn.state = .KDisconnecting) →
        0 < g.conn.outputBuffer.readableBytes →
        ∃ events, s.poller.interest g.conn.channel.fd = some events ∧ .EPOLLOUT ∈ events) := by
  have hinv := hostInv_of_run hrun
  obtain ⟨g₁, g₂, hg₁, hg₂, htaken⟩ := taken_of_hosted_writes hrun hpre hrun' hrun''
  obtain ⟨c, hc, -, g, hhosts⟩ := runs_alone hrun hpre (hrun'.append hrun''.forget.of_restrict)
  obtain rfl : g₂ = g := Option.some.inj (hg₂.symm.trans hhosts.conn)
  refine ⟨g₁, g₂, hg₁, hg₂, htaken, fun hup hleft => ?_⟩
  obtain ⟨-, hback⟩ := streamInv_alone hc
  obtain ⟨st, hst, -⟩ := lifeInv_alone hinv hpre hc
  obtain ⟨p, d, rfl, hagree⟩ := hhosts.same
  obtain ⟨-, events, hevents, -, hmask⟩ := (watched hst hback).2 hup
  exact ⟨events, hagree.interest.symm.trans hevents, hmask.mpr hleft⟩

/-- Of the message the kernel takes two bytes at once. -/
def halfSent : List HostAct :=
  [.conn 10 .connectEstablished, .conn 10 (.send [1, 2, 3, 4] (.ok 2)),
    .conn 10 .callbackReturns]

/-- The other connection reads, and meanwhile another byte is sent; two traversals take a byte
each. -/
def twoWrites : List HostAct :=
  [.poll, .report 6 {.EPOLLIN}, .report 5 {.EPOLLOUT}, .beginHandling, .handleEvent,
    .conn 11 .testClose, .conn 11 .testError, .conn 11 (.testRead (.data [7])),
    .conn 10 (.send [5] (.ok 0)), .conn 11 .callbackReturns,
    .conn 11 (.testWrite (.ok 0)), .endEvent, .handleEvent, .conn 10 .testClose,
    .conn 10 .testError, .conn 10 (.testRead (.data [])),
    .conn 10 (.testWrite (.ok 1)), .endEvent, .endHandling, .endFunctors, .poll,
    .report 5 {.EPOLLOUT}, .beginHandling, .handleEvent, .conn 10 .testClose,
    .conn 10 .testError, .conn 10 (.testRead (.data [])),
    .conn 10 (.testWrite (.ok 1))]

/-- What the two writes come to. -/
def OneLeft (p : (LoopHost × ConnLog) × ℕ) : Prop :=
  p.2 = 2 ∧ (p.1.1.conns 10).map (·.conn.outputBuffer.readableBytes) = some 1 ∧
    (p.1.1.conns 10).map (·.conn.state) = some .KConnected ∧
    (p.1.1.conns 10).map (·.conn.channel.fd) = some 5

instance : DecidablePred OneLeft := fun _ => inferInstanceAs (Decidable (_ ∧ _))

/-- Two bytes are left of a message, and one more is sent behind them.  Two writes take a byte
each. -/
theorem hosted_backlog_drains_behind :
    ∃ t s₀ t' q₁ t'' q, hostMachine.Run (.new 0) t s₀ ∧
      (loggedMachine 10 ConnAct.NotReset).Run
        (s₀.newConnection .client 10 5 64 true true, ⟨[], []⟩) t' q₁ ∧
      ((drainHost 10).counting fun act => act.takesBytes 10 = true).Run (q₁, 0) t'' (q, 2) ∧
      ((q₁.1.conns 10).map (·.conn.outputBuffer.readableBytes) = some 2 ∧
        (handedOver q₁.2.events).flatMap Prod.snd = [1, 2, 3, 4] ∧
        (q.1.conns 10).map (·.conn.outputBuffer.readableBytes) = some 1) ∧
      [1, 2, 3, 4] <+: q.2.accepted ∧
      ∃ events, q.1.poller.interest 5 = some events ∧ .EPOLLOUT ∈ events := by
  obtain ⟨t, s₀, hrun, hpre, hnext⟩ := hostMachine.exists_run_of_exec (.new 0) otherConnection
    (fun s _ => s.pre (.newConnection .client 10 5 64 true true) ∧
      (loggedMachine 10 ConnAct.NotReset).Reaches
        (s.newConnection .client 10 5 64 true true, ⟨[], []⟩) halfSent fun q _ =>
          ((q.1.conns 10).map (·.conn.outputBuffer.readableBytes) = some 2 ∧
            (handedOver q.2.events).flatMap Prod.snd = [1, 2, 3, 4]) ∧
          ((drainHost 10).counting fun act => act.takesBytes 10 = true).Reaches (q, 0) twoWrites
            fun p _ => OneLeft p)
    (by decide +kernel)
  obtain ⟨t', q₁, hrun', ⟨hbytes, hhanded⟩, hnext'⟩ := hnext.exists_run
  obtain ⟨t'', ⟨q, n⟩, hrun'', hn, hleft, hstate, hfd⟩ := hnext'.exists_run
  obtain rfl : n = 2 := hn
  obtain ⟨g₁, g, hg₁, hg, htaken, hwatched⟩ := hosted_backlog_drains hrun hpre hrun' hrun''
  have hall : ((q₁.1.conns 10).map (·.conn.outputBuffer.readableBytes) = some 2 ∧
      (handedOver q₁.2.events).flatMap Prod.snd = [1, 2, 3, 4] ∧
      (q.1.conns 10).map (·.conn.outputBuffer.readableBytes) = some 1) := ⟨hbytes, hhanded, hleft⟩
  have hg₁ : q₁.1.conns 10 = some g₁ := hg₁
  have hg : q.1.conns 10 = some g := hg
  rw [hg₁, Option.map_some] at hbytes
  rw [hg, Option.map_some] at hstate hfd hleft
  have hconnected : g.conn.state = .KConnected := Option.some.inj hstate
  have hfd : g.conn.channel.fd = 5 := Option.some.inj hfd
  have hpos : 0 < g.conn.outputBuffer.readableBytes := by
    rw [Option.some.inj hleft]
    exact Nat.one_pos
  refine ⟨t, s₀, t', q₁, t'', q, hrun, hrun', hrun'', hall, ?_, ?_⟩
  · rcases htaken (Option.some.inj hbytes).le with hdown | htaken
    · cases hconnected.symm.trans hdown
    · rw [hhanded] at htaken
      exact htaken
  · rw [← hfd]
    exact hwatched (Or.inl hconnected) hpos

end LoopHost

end MuduoServer
