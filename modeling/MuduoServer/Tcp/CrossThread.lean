import MuduoServer.Tcp.Lifecycle

/-!
# `forceClose` from other threads

`forceClose` reads `state_`, writes it and posts a task, and nothing keeps these three together.  A
thread that has read an open state may be overtaken by the whole close of the connection, and its
write of `KDisconnecting` then brings the connection back.  `Race` is the connection with the three
steps apart, for any number of threads.

`Once` says what the functions of the connection do to `state_` and to the notifications: a
connection that is down stays down, and whoever takes it down makes one notification of each kind.
-/

namespace MuduoServer

namespace ConnLoop

variable {τ : Type} {s s' : ConnLoop τ} {out : List (ConnEvent τ)}

/-- How many calls of `handleClose` are in progress. -/
def inClose (s : ConnLoop τ) : ℕ :=
  match s.pc with
  | .closing _ => 1
  | _ => 0

/-- After a return the loop thread is not in the middle of a close. -/
lemma inClose_ofReturn (s : ConnLoop τ) (k : Option Phase) :
    ({ s with pc := .ofReturn k } : ConnLoop τ).inClose = 0 := by
  cases k <;> rfl

/-- What sending leaves alone. -/
structure SameControl (s s' : ConnLoop τ) : Prop where
  state : s'.conn.state = s.conn.state
  pc : s'.pc = s.pc
  dispatch : s'.dispatch = s.dispatch
  owner : s'.owner = s.owner

/-- The direct write is no step of control. -/
lemma direct_sameControl (s : ConnLoop τ) (message : List UInt8) (len : ℕ) (w : WriteResult) :
    SameControl s (s.direct message len w).1 := by
  unfold direct
  split
  · cases w with
    | ok n =>
      simp only [ite_queueInLoop]
      exact ⟨rfl, rfl, rfl, rfl⟩
    | error errno => exact ⟨rfl, rfl, rfl, rfl⟩
  · exact ⟨rfl, rfl, rfl, rfl⟩

/-- Nor is the backlog. -/
lemma backlog_sameControl {data : List UInt8} (h : s.backlog data = some s') :
    SameControl s s' := by
  obtain ⟨b, s₁, -, rfl, ⟨-, rfl⟩ | ⟨-, r, -, rfl⟩⟩ := backlog_eq_some h
  · exact ⟨rfl, rfl, rfl, rfl⟩
  · exact ⟨rfl, rfl, rfl, rfl⟩

/-- Nor is `sendInLoop` as a whole. -/
lemma sendInLoop_sameControl {message : List UInt8} {len : ℕ} {w : WriteResult}
    (h : s.sendInLoop message len w = some s') : SameControl s s' := by
  have hdirect := direct_sameControl s message len w
  obtain ⟨-, ⟨-, rfl⟩ | ⟨-, r, rfl, -, ⟨-, -, h⟩ | ⟨-, rfl⟩⟩⟩ := sendInLoop_eq_some h
  · exact ⟨rfl, rfl, rfl, rfl⟩
  · have hbacklog := backlog_sameControl h
    exact ⟨hbacklog.state.trans hdirect.state, hbacklog.pc.trans hdirect.pc,
      hbacklog.dispatch.trans hdirect.dispatch, hbacklog.owner.trans hdirect.owner⟩
  · exact hdirect

/-- What a function does to `state_` and to the notifications. -/
structure Once (s : ConnLoop τ) (out : List (ConnEvent τ)) (s' : ConnLoop τ) : Prop where
  /-- A connection that is down stays down. -/
  final : s.conn.state = .KDisconnected → writes out = []
  write : writes out = [] ∧ s'.conn.state = s.conn.state ∨
    writes out = [s'.conn.state] ∧ s'.conn.state ≠ .KConnecting
  down : (life out).count .down ≤ (writes out).count .KDisconnected
  close : (life out).count .close + s'.inClose ≤ (writes out).count .KDisconnected + s.inClose

namespace Once

/-- Nothing is written or made known. -/
lemma quiet (hstate : s'.conn.state = s.conn.state) (hpc : s'.inClose ≤ s.inClose)
    (hwrites : writes out = []) (hlife : life out = []) : Once s out s' where
  final _ := hwrites
  write := Or.inl ⟨hwrites, hstate⟩
  down := by rw [hlife, hwrites]; simp
  close := by rw [hlife, hwrites]; simpa using hpc

/-- What is not written does not change. -/
lemma state_eq (h : Once s out s') (hwrites : writes out = []) :
    s'.conn.state = s.conn.state := by
  rcases h.write with ⟨-, hstate⟩ | ⟨hwrites', -⟩
  · exact hstate
  · rw [hwrites] at hwrites'
    cases hwrites'

/-- No function goes back to `KConnecting`. -/
lemma connecting (h : Once s out s') (hstate : s'.conn.state = .KConnecting) :
    s.conn.state = .KConnecting := by
  rcases h.write with ⟨-, hsame⟩ | ⟨-, hne⟩
  · exact hsame.symm.trans hstate
  · exact absurd hstate hne

/-- First a change without events, then the rest. -/
lemma trans {s'' : ConnLoop τ} (h : Once s [] s') (h' : Once s' out s'') : Once s out s'' := by
  have hstate := h.state_eq rfl
  have hpc : s'.inClose ≤ s.inClose := by
    have hclose := h.close
    simpa [life, writes] using hclose
  refine ⟨fun hdown => h'.final (hstate.trans hdown), hstate ▸ h'.write, h'.down, ?_⟩
  have hclose := h'.close
  omega

/-- `handleClose` puts the connection down, from an open state. -/
lemma handleClose {k : Option Phase} (h : s.handleClose k = some (s', out)) : Once s out s' := by
  obtain ⟨hopen, r, -, rfl, rfl⟩ := handleClose_eq_some h
  refine ⟨fun hdown => ?_, Or.inr ⟨?_, by simp⟩, ?_, ?_⟩
  · simp [isOpen, hdown] at hopen
  · split <;> rfl
  · split <;> simp [life, writes]
  · split <;> simp [life, writes, inClose]

/-- `forceCloseInLoop` does so, or nothing. -/
lemma forceCloseInLoop {k : Option Phase} (h : s.forceCloseInLoop k = some (s', out)) :
    Once s out s' := by
  rcases forceCloseInLoop_eq_some h with h | ⟨-, rfl, rfl⟩
  · exact handleClose h
  · exact quiet rfl (by rw [inClose_ofReturn]; exact Nat.zero_le _) rfl rfl

/-- `forceClose` on the loop thread writes `KDisconnecting` over an open state only. -/
lemma forceClose (h : s.forceClose = (s', out)) : Once s out s' := by
  rcases forceClose_eq h with ⟨hopen, rfl, rfl⟩ | ⟨-, rfl, rfl⟩
  · refine ⟨fun hdown => ?_, Or.inr ⟨rfl, by simp [queueInLoop]⟩, ?_, ?_⟩
    · simp [isOpen, hdown] at hopen
    · simp [life]
    · exact Nat.le_of_eq rfl
  · exact quiet rfl le_rfl rfl rfl

/-- `connectEstablished` writes `KConnected` over `KConnecting`. -/
lemma connectEstablished (h : s.connectEstablished = some (s', out)) : Once s out s' := by
  obtain ⟨hstate, r, -, rfl, rfl⟩ := connectEstablished_eq_some h
  refine ⟨fun hdown => ?_, Or.inr ⟨?_, by simp⟩, ?_, ?_⟩
  · rw [hdown] at hstate
    cases hstate
  · split <;> rfl
  · split <;> simp [life, writes]
  · split <;> exact Nat.zero_le _

/-- `connectDestroyed` writes `KDisconnected` if nothing else has. -/
lemma connectDestroyed (h : s.connectDestroyed = some (s', out)) : Once s out s' := by
  obtain ⟨s₁, r, h₁, -, rfl⟩ := connectDestroyed_eq_some h
  have hfirst : Once s out s₁ := by
    rcases takeDown_eq_some h₁ with ⟨hstate, r', -, rfl, rfl⟩ | ⟨-, rfl, rfl⟩
    · refine ⟨fun hdown => ?_, Or.inr ⟨rfl, by simp⟩, by simp [life, writes], ?_⟩
      · rw [hdown] at hstate
        cases hstate
      · simp [life, writes, inClose]
    · exact quiet rfl le_rfl rfl rfl
  exact ⟨hfirst.final, hfirst.write, hfirst.down, hfirst.close⟩

/-- What the server does writes no state. -/
lemma removeConnectionInLoop (h : s.removeConnectionInLoop = some s') : Once s [] s' := by
  obtain ⟨-, rfl⟩ := removeConnectionInLoop_eq_some h
  exact quiet rfl le_rfl rfl rfl

/-- Nor does the close callback, except through `connectDestroyed`. -/
lemma closeCallback (h : s.closeCallback = some (s', out)) : Once s out s' := by
  have howner : ∀ owner : ConnOwner, Once s [] { s with owner := owner } :=
    fun owner => quiet rfl le_rfl rfl rfl
  rcases closeCallback_eq_some h with ⟨-, hremove, rfl⟩ | ⟨-, rfl, rfl⟩ | ⟨-, h⟩
  · exact removeConnectionInLoop hremove
  · exact howner _
  · exact (howner _).trans (connectDestroyed h)

/-- Of what follows a callback, only the close callback is a notification. -/
lemma callbackReturns (h : s.callbackReturns = some (s', out)) : Once s out s' := by
  rcases callbackReturns_eq_some h with ⟨-, rfl, rfl⟩ | ⟨-, rfl, rfl⟩ |
    ⟨k, out', hpc, hreturn, rfl⟩ | ⟨-, rfl, rfl⟩
  · exact quiet rfl (Nat.zero_le _) rfl rfl
  · exact quiet rfl (Nat.zero_le _) rfl rfl
  · -- `handleClose` returns, so there is room for one close notification
    have hrest := closeCallback hreturn
    have hclose := hrest.close
    rw [inClose_ofReturn] at hclose
    have hone : s.inClose = 1 := by
      unfold inClose
      rw [hpc]
    refine ⟨hrest.final, hrest.write, ?_, ?_⟩
    · exact hrest.down
    · have hlife : (life (.close :: out')).count .close = (life out').count .close + 1 :=
        List.count_cons_self
      have hwrites : writes (.close :: out') = writes out' := rfl
      rw [hlife, hwrites, hone]
      omega
  · exact quiet rfl le_rfl rfl rfl

/-- `handleRead` closes at the end of the stream. -/
lemma handleRead {r : ReadResult} (h : s.handleRead r = some (s', out)) : Once s out s' := by
  obtain ⟨r', -, ⟨rfl, rfl⟩ | ⟨-, h⟩ | ⟨rfl, rfl⟩⟩ := handleRead_eq_some h
  · exact ⟨fun _ => rfl, Or.inl ⟨rfl, rfl⟩, by simp [life], Nat.zero_le _⟩
  · have hread : Once s [] { s with conn := { s.conn with inputBuffer := r'.1 } } :=
      quiet rfl le_rfl rfl rfl
    exact hread.trans (handleClose h)
  · exact quiet rfl (Nat.zero_le _) rfl rfl

/-- The end of a write closes a connection in `KDisconnecting`. -/
lemma writeComplete (h : s.writeComplete = some (s', out)) : Once s out s' := by
  obtain ⟨r, s₁, -, hs₁, h⟩ := writeComplete_eq_some h
  have hfirst : Once s [] s₁ := by
    rw [hs₁]
    exact quiet rfl le_rfl rfl rfl
  rcases h with ⟨-, h⟩ | ⟨-, rfl, rfl⟩
  · exact hfirst.trans (forceCloseInLoop h)
  · exact hfirst

/-- So `handleWrite` closes at most once. -/
lemma handleWrite {w : WriteResult} (h : s.handleWrite w = some (s', out)) : Once s out s' := by
  have hdone : Once s [] { s with pc := .phase .done } := quiet rfl (Nat.zero_le _) rfl rfl
  rcases handleWrite_eq_some h with ⟨n, b, s₁, -, -, -, -, hs₁, h⟩ | ⟨rfl, rfl⟩
  · have htaken : Once s [] s₁ := by
      rw [hs₁]
      exact quiet rfl (Nat.zero_le _) rfl rfl
    rcases h with ⟨-, h⟩ | ⟨-, rfl, rfl⟩
    · exact htaken.trans (writeComplete h)
    · exact htaken
  · exact hdone

/-- `sendInLoop` writes no state. -/
lemma sendInLoop {message : List UInt8} {len : ℕ} {w : WriteResult}
    (h : s.sendInLoop message len w = some s') : Once s [] s' := by
  have hsame := sendInLoop_sameControl h
  refine quiet hsame.state ?_ rfl rfl
  unfold inClose
  rw [hsame.pc]

/-- A queued task puts the connection down at most once. -/
lemma runTask {w : WriteResult} (h : s.runTask w = some (s', out)) : Once s out s' := by
  unfold ConnLoop.runTask at h
  split at h
  · cases h
    exact quiet rfl le_rfl rfl rfl
  · next task tasks htasks =>
    have hpop : Once s [] { s with tasks := tasks } := quiet rfl le_rfl rfl rfl
    cases task with
    | connectEstablished => exact hpop.trans (connectEstablished h)
    | sendInLoop poster message =>
      obtain ⟨s₁, hs₁, heq⟩ := Option.map_eq_some_iff.mp h
      cases heq
      rw [sendInLoopString, ConnLoop.send] at hs₁
      have hsent := hpop.trans (sendInLoop hs₁)
      exact ⟨hsent.final, hsent.write, hsent.down, hsent.close⟩
    | forceCloseInLoop => exact hpop.trans (forceCloseInLoop h)
    | writeCompleteCallback =>
      cases h
      exact quiet rfl le_rfl rfl rfl
    | highWaterMarkCallback size =>
      cases h
      exact quiet rfl le_rfl rfl rfl
    | connectDestroyed => exact hpop.trans (connectDestroyed h)

/-- Every step. -/
theorem step {act : ConnAct τ} (h : s.step act = some (s', out)) : Once s out s' := by
  cases act with
  | send message w =>
    obtain ⟨s₁, hs₁, heq⟩ := Option.map_eq_some_iff.mp h
    cases heq
    have hsent := sendInLoop hs₁
    exact ⟨hsent.final, hsent.write, hsent.down, hsent.close⟩
  | forceClose => exact forceClose (Option.some.inj h)
  | retrieve len =>
    obtain ⟨b, -, heq⟩ := Option.bind_eq_some_iff.mp h
    cases heq
    exact quiet rfl le_rfl rfl rfl
  | connectEstablished => exact connectEstablished h
  | runTask w => exact runTask h
  | removeConnectionInLoop =>
    obtain ⟨s₁, hs₁, heq⟩ := Option.map_eq_some_iff.mp h
    cases heq
    have howner : Once s [] { s with owner := { s.owner with posted := s.owner.posted - 1 } } :=
      quiet rfl le_rfl rfl rfl
    exact howner.trans (removeConnectionInLoop hs₁)
  | testClose =>
    simp only [ConnLoop.step] at h
    split at h
    · exact handleClose h
    · cases h
      exact quiet rfl (Nat.zero_le _) rfl rfl
  | testRead r =>
    simp only [ConnLoop.step] at h
    split at h
    · exact handleRead h
    · cases h
      exact quiet rfl (Nat.zero_le _) rfl rfl
  | testWrite w =>
    simp only [ConnLoop.step] at h
    split at h
    · exact handleWrite h
    · cases h
      exact quiet rfl (Nat.zero_le _) rfl rfl
  | callbackReturns => exact callbackReturns h
  | _ =>
    cases h
    exact quiet rfl (by first | exact le_rfl | exact Nat.zero_le _) rfl rfl

end Once

/-- `KDisconnected` is written once and last, and there is at most one notification of each kind. -/
structure OnceInv (t : List (ConnEvent τ)) (s : ConnLoop τ) : Prop where
  final : .KDisconnected ∉ writes t ∨ ∃ ws, writes t = ws ++ [.KDisconnected] ∧
    .KDisconnected ∉ ws ∧ s.conn.state = .KDisconnected
  down : (life t).count .down ≤ (writes t).count .KDisconnected
  close : (life t).count .close + s.inClose ≤ (writes t).count .KDisconnected

namespace OnceInv

variable {t : List (ConnEvent τ)}

/-- There is at most one store of `KDisconnected`. -/
lemma count_le (h : OnceInv t s) : (writes t).count .KDisconnected ≤ 1 := by
  rcases h.final with hnot | ⟨ws, hws, hnot, -⟩
  · rw [List.count_eq_zero_of_not_mem hnot]
    exact Nat.zero_le 1
  · rw [hws, List.count_append, List.count_eq_zero_of_not_mem hnot]
    decide

/-- The invariant holds of a new connection. -/
lemma newConnection (kind : OwnerKind) (conn : TcpConnection) (poller : EPollPoller)
    (handling : Bool) :
    OnceInv [] (ConnLoop.newConnection kind conn poller handling : ConnLoop τ) where
  final := Or.inl List.not_mem_nil
  down := le_rfl
  close := by
    simp only [ConnLoop.newConnection, inClose]
    split
    · next hpc => split at hpc <;> cases hpc
    · exact le_rfl

/-- A step that does to `state_` and to the notifications what the functions of the connection
do. -/
lemma step (h : OnceInv t s) (hs : Once s out s') : OnceInv (t ++ out) s' := by
  refine ⟨?_, ?_, ?_⟩
  · rw [writes_append]
    rcases h.final with hnot | ⟨ws, hws, hnot, hdown⟩
    · rcases hs.write with ⟨hwrites, -⟩ | ⟨hwrites, -⟩
      · rw [hwrites, List.append_nil]
        exact Or.inl hnot
      · rw [hwrites]
        by_cases hdown' : s'.conn.state = .KDisconnected
        · exact Or.inr ⟨writes t, by rw [hdown'], hnot, hdown'⟩
        · refine Or.inl fun hmem => ?_
          rcases List.mem_append.mp hmem with hmem | hmem
          · exact hnot hmem
          · exact hdown' (List.mem_singleton.mp hmem).symm
    · have hwrites := hs.final hdown
      rw [hwrites, List.append_nil]
      exact Or.inr ⟨ws, hws, hnot, (hs.state_eq hwrites).trans hdown⟩
  · rw [life_append, writes_append, List.count_append, List.count_append]
    exact Nat.add_le_add h.down hs.down
  · rw [life_append, writes_append, List.count_append, List.count_append]
    have hclose := h.close
    have hclose' := hs.close
    omega

end OnceInv

end ConnLoop

/-! ### Any number of threads in `forceClose` -/

/-- Where a thread stands in `forceClose`. -/
inductive ForcePc where
  | outside
  /-- It has read `KConnected` or `KDisconnecting`. -/
  | tested
  /-- It has written `KDisconnecting`. -/
  | stored
  deriving DecidableEq, Repr

/-- A connection and the threads in its `forceClose`. -/
structure Race (τ : Type) where
  loop : ConnLoop τ
  threads : τ → ForcePc

/-- The steps of the loop thread, and those of `forceClose` on other threads. -/
inductive RaceAct (τ : Type) where
  | loop (act : ConnAct τ)
  /-- The thread reads `state_`. -/
  | test (a : τ)
  /-- `setState(KDisconnecting)`. -/
  | store (a : τ)
  /-- `queueInLoop(forceCloseInLoop)`. -/
  | post (a : τ)

namespace Race

variable {τ : Type} [DecidableEq τ]

/-- A new connection, and no thread in `forceClose`. -/
def new (loop : ConnLoop τ) : Race τ where
  loop := loop
  threads _ := .outside

/-- When a step can be taken. -/
def pre (s : Race τ) : RaceAct τ → Prop
  | .loop act => s.loop.pre act
  | .test a => s.threads a = .outside
  | .store a => s.threads a = .tested
  | .post a => s.threads a = .stored

instance (s : Race τ) (act : RaceAct τ) : Decidable (s.pre act) := by
  unfold pre
  split <;> infer_instance

/-- The effect of a step. -/
def step (s : Race τ) : RaceAct τ → Option (Race τ × List (ConnEvent τ))
  | .loop act => (s.loop.step act).map fun r => ({ s with loop := r.1 }, r.2)
  | .test a =>
    some (if s.loop.isOpen then { s with threads := Function.update s.threads a .tested } else s,
      [])
  | .store a =>
    some ({ loop := { s.loop with conn := { s.loop.conn with state := .KDisconnecting } }
            threads := Function.update s.threads a .stored }, [.setState .KDisconnecting])
  | .post a =>
    some ({ loop := s.loop.queueInLoop .forceCloseInLoop
            threads := Function.update s.threads a .outside }, [])

/-- All interleavings. -/
def machine (τ : Type) [DecidableEq τ] : Machine (Race τ) (RaceAct τ) (ConnEvent τ) where
  pre := pre
  step := step

instance (s : Race τ) (act : RaceAct τ) : Decidable ((machine τ).pre s act) :=
  inferInstanceAs (Decidable (s.pre act))

/-- No thread writes `KDisconnecting` over `KDisconnected`. -/
def InTime (s : Race τ) : RaceAct τ → Prop
  | .store _ => s.loop.conn.state ≠ .KDisconnected
  | _ => True

instance (s : Race τ) (act : RaceAct τ) : Decidable (s.InTime act) := by
  unfold InTime
  split <;> infer_instance

variable {s s' : Race τ} {act : RaceAct τ} {t out : List (ConnEvent τ)}

/-- The steps of `forceClose` do no more than `forceClose`, if they come in time. -/
lemma once_step (hok : s.InTime act) (hstep : s.step act = some (s', out)) :
    ConnLoop.Once s.loop out s'.loop := by
  cases act with
  | loop act =>
    obtain ⟨r, hr, heq⟩ := Option.map_eq_some_iff.mp hstep
    cases heq
    exact .step hr
  | test a =>
    cases hstep
    split <;> exact .quiet rfl le_rfl rfl rfl
  | store a =>
    cases hstep
    exact ⟨fun hdown => absurd hdown hok, Or.inr ⟨rfl, by simp⟩, by simp [ConnLoop.life],
      Nat.le_of_eq rfl⟩
  | post a =>
    cases hstep
    exact .quiet rfl le_rfl rfl rfl

/-- In every interleaving in which no thread writes `KDisconnecting` over `KDisconnected`:
`KDisconnected` is written at most once and nothing is written after it, so that `handleClose` runs
at most once, and with it the down notification and the close callback. -/
theorem disconnected_final_run {kind : OwnerKind} {conn : TcpConnection} {poller : EPollPoller}
    {handling : Bool} (h : ((machine τ).restrict InTime).Run
      (new (.newConnection kind conn poller handling)) t s) :
    (.KDisconnected ∉ ConnLoop.writes t ∨ ∃ ws, ConnLoop.writes t = ws ++ [.KDisconnected] ∧
        .KDisconnected ∉ ws ∧ s.loop.conn.state = .KDisconnected) ∧
      (ConnLoop.life t).count .down ≤ 1 ∧ (ConnLoop.life t).count .close ≤ 1 := by
  have hinv : ConnLoop.OnceInv t s.loop := by
    refine h.invariant (fun t s => ConnLoop.OnceInv t s.loop) (.newConnection kind conn poller _)
      fun t s act s' out hinv hpre hstep => hinv.step (once_step hpre.2 hstep)
  have hcount := hinv.count_le
  have hclose := hinv.close
  exact ⟨hinv.final, hinv.down.trans hcount, by omega⟩

/-- Two threads call `forceClose` at the same time, and the second one posts its task when the first
one has already been run. -/
theorem disconnected_final_run_two :
    ∃ t s, ((machine ℕ).restrict InTime).Run
        (new (.newConnection .serverSameLoop (.new 1 5 64 true true true)
          ConnLoop.emptyPoller true)) t s ∧
      (ConnLoop.writes t = [.KConnected, .KDisconnecting, .KDisconnecting, .KDisconnected] ∧
        s.loop.tasks = []) ∧
      (ConnLoop.life t).count .down ≤ 1 := by
  obtain ⟨t, s, hrun, hs⟩ := ((machine ℕ).restrict InTime).exists_run_of_exec
    (new (.newConnection .serverSameLoop (.new 1 5 64 true true true) ConnLoop.emptyPoller true))
    [.loop .connectEstablished, .loop .callbackReturns, .test 1, .loop .endHandling, .test 2,
      .store 1, .store 2, .post 1, .loop (.runTask (.ok 0)), .post 2, .loop .callbackReturns,
      .loop (.runTask (.ok 0)), .loop (.runTask (.ok 0))]
    (fun s t =>
      ConnLoop.writes t = [.KConnected, .KDisconnecting, .KDisconnecting, .KDisconnected] ∧
        s.loop.tasks = []) (by decide +kernel)
  exact ⟨t, s, hrun, hs, (disconnected_final_run hrun).2.1⟩

/-- A thread reads `KConnected`; then the peer closes and the connection goes down and is destroyed;
then the thread writes `KDisconnecting` and posts, and the connection goes down again. -/
theorem disconnected_not_final : ¬ ∀ t s, (machine ℕ).Run
    (new (.newConnection .serverSameLoop (.new 1 5 64 true true true) ConnLoop.emptyPoller true))
      t s →
    (.KDisconnected ∉ ConnLoop.writes t ∨ ∃ ws, ConnLoop.writes t = ws ++ [.KDisconnected] ∧
        .KDisconnected ∉ ws ∧ s.loop.conn.state = .KDisconnected) ∧
      (ConnLoop.life t).count .down ≤ 1 ∧ (ConnLoop.life t).count .close ≤ 1 := by
  intro h
  obtain ⟨t, s, hrun, hcount⟩ := (machine ℕ).exists_run_of_exec
    (new (.newConnection .serverSameLoop (.new 1 5 64 true true true) ConnLoop.emptyPoller true))
    [.loop .connectEstablished, .loop .callbackReturns, .loop .endHandling, .test 1,
      .loop (.poll {.EPOLLIN}), .loop .handleEvent, .loop .testClose, .loop .testError,
      .loop (.testRead (.data [])), .loop .callbackReturns, .loop (.testWrite (.ok 0)),
      .loop .endEvent, .loop .endHandling, .store 1, .loop (.runTask (.ok 0)), .post 1,
      .loop (.runTask (.ok 0))]
    (fun _ t => (ConnLoop.life t).count .down = 2) (by decide +kernel)
  obtain ⟨-, hdown, -⟩ := h t s hrun
  rw [hcount] at hdown
  exact absurd hdown (by decide)

end Race

end MuduoServer
