import MuduoServer.Tcp.Stream

/-!
# The stages of a connection

The life of a connection in the abstract, and what its stages mean for the code.  The life is a walk
through the seven values of `Stage`, and `LifeStep` are its steps.  A stage fixes the values of
`state_`, how the channel is known to the poller, what the owner holds, which of the two tasks of
the life is in the queue, and where the loop thread can be.
-/

namespace MuduoServer

/-- The place of a state in the order in which a connection goes through them. -/
def StateE.rank : StateE → ℕ
  | .KConnecting => 0
  | .KConnected => 1
  | .KDisconnecting => 2
  | .KDisconnected => 3

/-- From `a` the writes `ws` lead forward to `b`. -/
inductive Forward : StateE → List StateE → StateE → Prop
  | nil {a : StateE} : Forward a [] a
  | cons {a b c : StateE} {ws : List StateE} :
      a.rank ≤ b.rank → Forward b ws c → Forward a (b :: ws) c

namespace Forward

variable {a b c : StateE} {ws ws' : List StateE}

/-- One sequence of states after another. -/
lemma trans (h : Forward a ws b) (h' : Forward b ws' c) : Forward a (ws ++ ws') c := by
  induction h with
  | nil => exact h'
  | cons hle _ ih => exact cons hle (ih h')

/-- A single store goes forward. -/
lemma single (h : a.rank ≤ b.rank) : Forward a [b] b := cons h nil

/-- No state in the sequence is behind an earlier one. -/
lemma pairwise (h : Forward a ws b) :
    (a :: ws).Pairwise fun x y => x.rank ≤ y.rank := by
  induction h with
  | nil => exact List.pairwise_singleton _ _
  | @cons a b c ws hle _ ih =>
    refine List.pairwise_cons.mpr ⟨fun x hx => ?_, ih⟩
    rcases List.mem_cons.mp hx with rfl | hx
    · exact hle
    · exact hle.trans ((List.pairwise_cons.mp ih).1 x hx)

/-- The sequence ends where it says. -/
lemma getLast? (h : Forward a ws b) : (a :: ws).getLast? = some b := by
  induction h with
  | nil => rfl
  | cons _ _ ih => rw [List.getLast?_cons_cons, ih]

end Forward

/-! ### The abstract life -/

/-- The notifications of a connection. -/
inductive LifeEvent where
  | up
  | message
  | down
  | close
  deriving DecidableEq, Repr

/-- The stages of the life of a connection. -/
inductive Stage where
  /-- `newConnection` is about to call `connectEstablished`. -/
  | created
  /-- `connectEstablished` has been posted to the loop of the connection. -/
  | queued
  | up
  /-- `handleClose` is in `connectionCallback_`. -/
  | down
  /-- `removeConnectionInLoop` has been posted to the loop of the server. -/
  | removing
  /-- `connectDestroyed` has been posted to the loop of the connection. -/
  | destroying
  | destroyed
  deriving DecidableEq, Repr

/-- The steps of a life, with the notifications they make. -/
inductive LifeStep : Stage → List LifeEvent → Stage → Prop
  | stay (st : Stage) : LifeStep st [] st
  | establish {st : Stage} (h : st = .created ∨ st = .queued) : LifeStep st [.up] .up
  | message : LifeStep .up [.message] .up
  | close : LifeStep .up [.down] .down
  | remove {st : Stage} (h : st = .removing ∨ st = .destroying ∨ st = .destroyed) :
      LifeStep .down [.close] st
  | queue : LifeStep .removing [] .destroying
  | destroy : LifeStep .destroying [] .destroyed

namespace Stage

/-- The notifications made up to a stage. -/
def Shape (st : Stage) (l : List LifeEvent) : Prop :=
  match st with
  | .created | .queued => l = []
  | .up => ∃ n, l = .up :: List.replicate n .message
  | .down => ∃ n, l = .up :: (List.replicate n .message ++ [.down])
  | .removing | .destroying | .destroyed =>
    ∃ n, l = .up :: (List.replicate n .message ++ [.down, .close])

/-- A legal life event keeps the shape of the life. -/
lemma Shape.step {st st' : Stage} {l l' : List LifeEvent} (h : st.Shape l)
    (hstep : LifeStep st l' st') : st'.Shape (l ++ l') := by
  cases hstep with
  | stay => simpa using h
  | establish hst =>
    have hnil : l = [] := by
      rcases hst with rfl | rfl <;> exact h
    exact ⟨0, by rw [hnil]; rfl⟩
  | message =>
    obtain ⟨n, rfl⟩ := h
    exact ⟨n + 1, by rw [List.replicate_succ', List.cons_append]⟩
  | close =>
    obtain ⟨n, rfl⟩ := h
    exact ⟨n, rfl⟩
  | remove hst =>
    obtain ⟨n, rfl⟩ := h
    have happend : List.replicate n LifeEvent.message ++ [LifeEvent.down] ++ [LifeEvent.close] =
        List.replicate n LifeEvent.message ++ [LifeEvent.down, LifeEvent.close] := by simp
    have hclose := congrArg (List.cons LifeEvent.up) happend
    rcases hst with rfl | rfl | rfl <;> exact ⟨n, hclose⟩
  | queue =>
    rw [List.append_nil]
    exact h
  | destroy =>
    rw [List.append_nil]
    exact h

/-- Whatever the stage, the notifications are the beginning of a complete life. -/
lemma Shape.isPrefix {st : Stage} {l : List LifeEvent} (h : st.Shape l) :
    ∃ n, l <+: .up :: (List.replicate n .message ++ [.down, .close]) := by
  cases st with
  | created | queued =>
    rw [show l = [] from h]
    exact ⟨0, List.nil_prefix⟩
  | up =>
    obtain ⟨n, rfl⟩ := h
    exact ⟨n, [.down, .close], rfl⟩
  | down =>
    obtain ⟨n, rfl⟩ := h
    exact ⟨n, [.close], by simp⟩
  | removing | destroying | destroyed =>
    obtain ⟨n, rfl⟩ := h
    exact ⟨n, List.prefix_rfl⟩

end Stage

/-! ### What a stage means for the code -/

/-- The two tasks that move a life on. -/
inductive Hop where
  | connectEstablished
  | connectDestroyed
  deriving DecidableEq, Repr

/-- The tasks of the life in a queue. -/
def hops {τ : Type} (tasks : List (ConnTask τ)) : List Hop :=
  tasks.filterMap fun
    | .connectEstablished => some .connectEstablished
    | .connectDestroyed => some .connectDestroyed
    | _ => none

/-- The hops in two queues. -/
@[simp] lemma hops_append {τ : Type} (l l' : List (ConnTask τ)) :
    hops (l ++ l') = hops l ++ hops l' := List.filterMap_append

/-- The loop thread is in `handleEvent` of the channel. -/
def ConnPc.dispatches : ConnPc → Bool
  | .phase _ | .inMessage | .closing (some _) => true
  | .newConnection | .idle | .polled | .inUp | .closing none => false

/-- Where the loop thread can be in a stage. -/
def ConnPc.Fits (st : Stage) : ConnPc → Prop
  | .newConnection => st = .created
  | .idle => st ≠ .created ∧ st ≠ .down
  | .polled | .inUp | .inMessage => st = .up
  | .phase .close | .phase .error | .phase .read => st = .up
  | .phase .write | .phase .done => st ≠ .created ∧ st ≠ .queued ∧ st ≠ .down
  | .closing none | .closing (some .write) | .closing (some .done) => st = .down
  | .closing (some .close) | .closing (some .error) | .closing (some .read) => False

/-- Only a connection that is down is in the callbacks of `handleClose`. -/
lemma ConnPc.Fits.stage_eq_down {st : Stage} {k : Option Phase}
    (h : (ConnPc.closing k).Fits st) : st = .down :=
  match k, h with
  | none, h | some .write, h | some .done, h => h

/-- While the connection goes down, the loop thread is in `handleClose`. -/
lemma ConnPc.Fits.closing {pc : ConnPc} (h : pc.Fits .down) : ∃ k, pc = .closing k := by
  match pc with
  | .closing k => exact ⟨k, rfl⟩
  | .newConnection | .polled | .inUp | .inMessage => cases h
  | .phase .close | .phase .error | .phase .read => cases h
  | .idle => exact absurd rfl h.2
  | .phase .write | .phase .done => exact absurd rfl h.2.2

/-- Before `connectEstablished`, the loop thread is in `newConnection`. -/
lemma ConnPc.Fits.newConnection {pc : ConnPc} (h : pc.Fits .created) : pc = .newConnection := by
  match pc with
  | .newConnection => rfl
  | .polled | .inUp | .inMessage => cases h
  | .phase .close | .phase .error | .phase .read => cases h
  | .closing none | .closing (some .write) | .closing (some .done) => cases h
  | .idle => exact absurd rfl h.1
  | .phase .write | .phase .done => exact absurd rfl h.1

namespace Stage

variable {τ : Type}

/-- The values of `state_` in a stage. -/
def Allows : Stage → StateE → Prop
  | .created, state | .queued, state => state = .KConnecting
  | .up, state => state = .KConnected ∨ state = .KDisconnecting
  | .down, state | .removing, state | .destroying, state | .destroyed, state =>
    state = .KDisconnected

/-- How the channel is known to the poller in a stage. -/
def Wired : Stage → EPollPoller → Channel → Prop
  | .created, p, c | .queued, p, c | .destroyed, p, c => Unregistered p c
  | .up, p, c => Registered p c
  | .down, p, c | .removing, p, c | .destroying, p, c => Detached p c

/-- The tasks of the life that are in the queue in a stage. -/
def pending : Stage → List Hop
  | .queued => [.connectEstablished]
  | .destroying => [.connectDestroyed]
  | .created | .up | .down | .removing | .destroyed => []

/-- The connection in a stage. -/
structure ConnOk (st : Stage) (p : EPollPoller) (conn : TcpConnection) : Prop where
  callback : conn.connectionCallback = true
  input : conn.inputBuffer.Valid
  output : conn.outputBuffer.Valid
  state : st.Allows conn.state
  wired : st.Wired p conn.channel

/-- The owner in a stage. -/
structure OwnerOk (st : Stage) (owner : ConnOwner) : Prop where
  holds : st ≠ .destroying → st ≠ .destroyed → owner.holds = true
  posted : owner.posted = if st = .removing then 1 else 0

/-- The queue in a stage.  Nothing overtakes a posted `connectEstablished`. -/
structure QueueOk (st : Stage) (tasks : List (ConnTask τ)) : Prop where
  hops : hops tasks = st.pending
  first : st = .queued → tasks.head? = some .connectEstablished
  short : ∀ m ∈ ConnLoop.queuedSends tasks, m.2.length < 2 ^ 31

/-- The loop thread in a stage. -/
structure ControlOk (st : Stage) (pc : ConnPc) (d : LoopDispatch) (c : Channel) : Prop where
  fits : pc.Fits st
  active : pc.dispatches = true → d.currentActiveChannel = some c.address
  task : pc = .closing none → d.eventHandling = false
  /-- The first test of `handleEventWithGuard` does not succeed. -/
  hup : pc = .polled ∨ pc = .phase .close →
    EpollFlag.EPOLLHUP ∈ c.revents → EpollFlag.EPOLLIN ∈ c.revents

/-- On to another stage, with the state and the channel that belong to it. -/
lemma ConnOk.move {st st' : Stage} {p p' : EPollPoller} {conn : TcpConnection} {state : StateE}
    {c : Channel} (h : st.ConnOk p conn) (hstate : st'.Allows state) (hwired : st'.Wired p' c) :
    st'.ConnOk p' { conn with state := state, channel := c } where
  callback := h.callback
  input := h.input
  output := h.output
  state := hstate
  wired := hwired

/-- On to another stage that expects the same tasks. -/
lemma QueueOk.move {st st' : Stage} {tasks : List (ConnTask τ)} (h : st.QueueOk tasks)
    (hpending : st'.pending = st.pending) (hst : st' ≠ .queued) : st'.QueueOk tasks where
  hops := by rw [h.hops, hpending]
  first heq := absurd heq hst
  short := h.short

/-- A task that is neither of the two may be queued at any time. -/
lemma QueueOk.append {st : Stage} {tasks : List (ConnTask τ)} {task : ConnTask τ}
    (h : st.QueueOk tasks) (hhops : MuduoServer.hops [task] = [])
    (hshort : ∀ m ∈ ConnLoop.queuedSends [task], m.2.length < 2 ^ 31) :
    st.QueueOk (tasks ++ [task]) where
  hops := by rw [hops_append, hhops, List.append_nil, h.hops]
  first hst := by rw [List.head?_append, h.first hst, Option.some_or]
  short m hm := by
    rw [ConnLoop.queuedSends_append] at hm
    rcases List.mem_append.mp hm with hm | hm
    · exact h.short m hm
    · exact hshort m hm

/-- The callbacks of the user may be queued at any time. -/
lemma QueueOk.append_ite {st : Stage} {tasks : List (ConnTask τ)} {task : ConnTask τ} {c : Prop}
    [Decidable c] (h : st.QueueOk tasks) (hhops : MuduoServer.hops [task] = [])
    (hsends : ConnLoop.queuedSends [task] = []) :
    st.QueueOk (tasks ++ if c then [task] else []) := by
  split
  · refine h.append hhops fun m hm => ?_
    rw [hsends] at hm
    cases hm
  · rw [List.append_nil]
    exact h

/-- A task that is neither of the two may be taken out. -/
lemma QueueOk.tail {st : Stage} {task : ConnTask τ} {tasks : List (ConnTask τ)}
    (h : st.QueueOk (task :: tasks)) (hhops : MuduoServer.hops [task] = []) : st.QueueOk tasks where
  hops := by rw [← h.hops, ← List.singleton_append, hops_append, hhops, List.nil_append]
  first hst := by
    obtain rfl : task = .connectEstablished := Option.some.inj (h.first hst)
    cases hhops
  short m hm := by
    refine h.short m ?_
    rw [← List.singleton_append, ConnLoop.queuedSends_append]
    exact List.mem_append_right _ hm

/-- `connectEstablished` is in the queue only if it was posted, and is then the only one. -/
lemma QueueOk.establish {st : Stage} {tasks : List (ConnTask τ)}
    (h : st.QueueOk (.connectEstablished :: tasks)) : st = .queued ∧ up.QueueOk tasks := by
  have hhops : Hop.connectEstablished :: MuduoServer.hops tasks = st.pending := h.hops
  cases st with
  | queued => exact ⟨rfl, (List.cons.inj hhops).2, fun hst => absurd hst (by decide), h.short⟩
  | destroying => cases (List.cons.inj hhops).1
  | _ => cases hhops

/-- `connectDestroyed` is in the queue only if it was posted, and is then the only one. -/
lemma QueueOk.destroyed {st : Stage} {tasks : List (ConnTask τ)}
    (h : st.QueueOk (.connectDestroyed :: tasks)) :
    st = .destroying ∧ Stage.destroyed.QueueOk tasks := by
  have hhops : Hop.connectDestroyed :: MuduoServer.hops tasks = st.pending := h.hops
  cases st with
  | destroying => exact ⟨rfl, (List.cons.inj hhops).2, fun hst => absurd hst (by decide), h.short⟩
  | queued => cases (List.cons.inj hhops).1
  | _ => cases hhops

/-- `removeConnectionInLoop` posts `connectDestroyed`. -/
lemma QueueOk.destroy {st : Stage} {tasks : List (ConnTask τ)} (h : st.QueueOk tasks)
    (hpending : st.pending = []) : destroying.QueueOk (tasks ++ [.connectDestroyed]) where
  hops := by rw [hops_append, h.hops, hpending]; rfl
  first hst := absurd hst (by decide)
  short m hm := by
    rw [ConnLoop.queuedSends_append] at hm
    exact h.short m (by simpa [ConnLoop.queuedSends] using hm)

/-- Outside the dispatch of the channel there is only the stage to respect. -/
lemma ControlOk.outside {st : Stage} {pc : ConnPc} {d : LoopDispatch} {c : Channel}
    (hfits : pc.Fits st) (hpc : pc = .newConnection ∨ pc = .idle ∨ pc = .inUp) :
    st.ControlOk pc d c := by
  refine ⟨hfits, fun h => ?_, fun h => ?_, fun h => ?_⟩ <;> rcases hpc with rfl | rfl | rfl <;>
    exact absurd h (by decide)

/-- Inside the dispatch, once the first test is over. -/
lemma ControlOk.inside {st : Stage} {pc : ConnPc} {d : LoopDispatch} {c : Channel}
    (hfits : pc.Fits st) (hactive : d.currentActiveChannel = some c.address)
    (hpc : pc ≠ .closing none ∧ pc ≠ .polled ∧ pc ≠ .phase .close) : st.ControlOk pc d c where
  fits := hfits
  active _ := hactive
  task h := absurd h hpc.1
  hup h := by
    rcases h with h | h
    · exact absurd h hpc.2.1
    · exact absurd h hpc.2.2

/-- From `removing` to `destroying`, on another thread. -/
lemma ControlOk.later {pc : ConnPc} {d : LoopDispatch} {c : Channel}
    (h : removing.ControlOk pc d c) : destroying.ControlOk pc d c where
  fits := by
    have hfits := h.fits
    match pc with
    | .idle => exact ⟨by decide, by decide⟩
    | .phase .write | .phase .done => exact ⟨by decide, by decide, by decide⟩
    | .newConnection | .polled | .inUp | .inMessage => cases hfits
    | .phase .close | .phase .error | .phase .read => cases hfits
    | .closing none | .closing (some .write) | .closing (some .done) => cases hfits
  active := h.active
  task := h.task
  hup := h.hup

/-- After the close callback the loop thread goes back to the task or to the dispatch. -/
lemma ControlOk.ofReturn {st : Stage} {k : Option Phase} {d : LoopDispatch} {c c' : Channel}
    (h : down.ControlOk (.closing k) d c) (hsame : SameChannel c c')
    (hst : st = .removing ∨ st = .destroying ∨ st = .destroyed) :
    st.ControlOk (.ofReturn k) d c' := by
  have hactive : k ≠ none → d.currentActiveChannel = some c'.address := by
    intro hk
    rw [hsame.address]
    cases k with
    | none => exact absurd rfl hk
    | some p => exact h.active rfl
  have hfits := h.fits
  match k with
  | none =>
    refine .outside ?_ (Or.inr (Or.inl rfl))
    rcases hst with rfl | rfl | rfl <;> exact ⟨by decide, by decide⟩
  | some .write | some .done =>
    refine .inside ?_ (hactive (by decide)) (by decide)
    rcases hst with rfl | rfl | rfl <;> exact ⟨by decide, by decide, by decide⟩
  | some .close | some .error | some .read => exact hfits.elim

end Stage

end MuduoServer
