import MuduoServer.Tcp.Basic

/-!
# Who keeps a connection alive

A `TcpConnection` is destroyed when its last `shared_ptr` goes.  `Owner` lists who may have one: the
table of the server or the slot of the client, the users, the functors that are bound to
`shared_from_this()`, and the functions of the loop thread that are in progress.  A functor that
`doPendingFunctors` has called still owns its connection until the vector `functors` goes.

`send` and `startRead` bind a bare `this`, so their tasks own nothing.  The close sequence owns the
connection until the batch that runs `connectDestroyed` ends.  From then on a task of `send` or
`startRead` that is still waiting depends on a handle or on another task.
-/

namespace MuduoServer

/-- The tasks of a connection in the queue of its loop. -/
inductive RefTask where
  /-- Posted by `send`, bound to `this`. -/
  | sendInLoop
  /-- Posted by `startRead`, bound to `this`. -/
  | startRead
  | connectEstablished
  | forceCloseInLoop
  /-- `writeCompleteCallback_` or `highWaterMarkCallback_`. -/
  | callback
  | connectDestroyed
  deriving DecidableEq, Repr

/-- The task is bound to `shared_from_this()`. -/
def RefTask.bound : RefTask → Bool
  | .sendInLoop | .startRead => false
  | .connectEstablished | .forceCloseInLoop | .callback | .connectDestroyed => true

/-- Where the loop thread is, as far as the connection is concerned. -/
inductive RefPc where
  /-- In `newConnection`, with its local `conn`. -/
  | newConnection
  | idle
  /-- In `Channel::handleEvent`, under its guard. -/
  | dispatch
  /-- In `doPendingFunctors`, past the swap. -/
  | batch
  /-- In the `connectionCallback_` of `handleClose`, within a batch or within a dispatch. -/
  | closing (inBatch : Bool)
  deriving DecidableEq, Repr

/-- Where `handleClose` returns to. -/
def RefPc.back : RefPc → RefPc
  | .closing true => .batch
  | .closing false => .dispatch
  | pc => pc

/-- Who may own the connection. -/
inductive Owner (τ : Type) where
  /-- `connections_` or `connection_`. -/
  | table
  /-- A `TcpConnectionPtr` of a user. -/
  | handle (a : τ)
  /-- A functor in `pendingFunctors_`. -/
  | pending
  /-- A functor of the batch that has not been called yet. -/
  | functor
  /-- A functor of the batch that has been called. -/
  | called
  | newConnection
  | dispatch
  /-- `guardThis` of `handleClose`. -/
  | guardThis
  /-- `removeConnectionInLoop` in the queue of the server's loop. -/
  | basePending
  /-- `removeConnectionInLoop` in the batch of the server's loop, already called. -/
  | baseCalled
  deriving DecidableEq, Repr

/-- A connection with everything that may own it. -/
structure ConnRefs (τ : Type) where
  kind : OwnerKind
  state : StateE
  listed : Bool
  handles : Finset τ
  pendingFunctors : List RefTask
  /-- The functors of the batch that have not been called yet. -/
  functors : List RefTask
  /-- The functors of the batch that have been called. -/
  called : List RefTask
  pc : RefPc
  basePending : ℕ
  baseCalled : ℕ
  /-- `connectDestroyed` has run. -/
  detached : Bool

/-- The steps of the threads. -/
inductive RefAct (τ : Type) where
  /-- `newConnection` calls `connectEstablished` itself. -/
  | connectEstablished
  | endNewConnection
  | takeHandle (a : τ)
  | dropHandle (a : τ)
  /-- A user who holds a handle calls `send` off the loop thread. -/
  | send (a : τ)
  /-- A user who holds a handle calls `startRead` off the loop thread. -/
  | startRead (a : τ)
  | forceClose
  /-- The loop thread queues `writeCompleteCallback_` or `highWaterMarkCallback_`. -/
  | queueCallback
  | dispatch
  | handleClose
  /-- The callback of `handleClose` returns and `closeCallback_` is called. -/
  | callbackReturns
  | endDispatch
  | swap
  | call
  | endBatch
  /-- The server's loop, another one, runs `removeConnectionInLoop`. -/
  | removeConnectionInLoop
  | endBase
  deriving DecidableEq, Repr

/-- A task starts to run, and whether its connection exists. -/
inductive RefEvent where
  | started (task : RefTask) (alive : Bool)
  deriving DecidableEq, Repr

namespace ConnRefs

variable {τ : Type}

/-- What owns the connection. -/
def Owns (s : ConnRefs τ) : Owner τ → Prop
  | .table => s.listed = true
  | .handle a => a ∈ s.handles
  | .pending => ∃ task ∈ s.pendingFunctors, task.bound = true
  | .functor => ∃ task ∈ s.functors, task.bound = true
  | .called => ∃ task ∈ s.called, task.bound = true
  | .newConnection => s.pc = .newConnection
  | .dispatch => s.pc = .dispatch ∨ s.pc = .closing false
  | .guardThis => s.pc = .closing true ∨ s.pc = .closing false
  | .basePending => 0 < s.basePending
  | .baseCalled => 0 < s.baseCalled

/-- The connection exists: it has an owner. -/
def Owned (s : ConnRefs τ) : Prop := ∃ o, s.Owns o

/-- There are the handles, and nine others. -/
lemma forall_owns_iff (s : ConnRefs τ) (P : Owner τ → Prop) : (∀ o, s.Owns o → P o) ↔
    (s.Owns .table → P .table) ∧ (∀ a ∈ s.handles, P (.handle a)) ∧
      (s.Owns .pending → P .pending) ∧ (s.Owns .functor → P .functor) ∧
      (s.Owns .called → P .called) ∧ (s.Owns .newConnection → P .newConnection) ∧
      (s.Owns .dispatch → P .dispatch) ∧ (s.Owns .guardThis → P .guardThis) ∧
      (s.Owns .basePending → P .basePending) ∧ (s.Owns .baseCalled → P .baseCalled) := by
  constructor
  · intro h
    exact ⟨h _, fun a => h (.handle a), h _, h _, h _, h _, h _, h _, h _, h _⟩
  · rintro ⟨htable, hhandle, hpending, hfunctor, hcalled, hnew, hdispatch, hguard, hbase, hbase'⟩
    intro o ho
    cases o with
    | table => exact htable ho
    | handle a => exact hhandle a ho
    | pending => exact hpending ho
    | functor => exact hfunctor ho
    | called => exact hcalled ho
    | newConnection => exact hnew ho
    | dispatch => exact hdispatch ho
    | guardThis => exact hguard ho
    | basePending => exact hbase ho
    | baseCalled => exact hbase' ho

instance [DecidableEq τ] (s : ConnRefs τ) (o : Owner τ) : Decidable (s.Owns o) := by
  unfold Owns
  split <;> infer_instance

instance [DecidableEq τ] (s : ConnRefs τ) (P : Owner τ → Prop) [DecidablePred P] :
    Decidable (∀ o, s.Owns o → P o) :=
  decidable_of_iff' _ (s.forall_owns_iff P)

instance [DecidableEq τ] (s : ConnRefs τ) : Decidable s.Owned :=
  decidable_of_iff (¬ ∀ o, s.Owns o → False) (by simp [Owned])

/-- The state in which `newConnection` has made the connection: on the loop of the caller
`connectEstablished` comes next, on another loop it has been posted. -/
def new (kind : OwnerKind) : ConnRefs τ where
  kind := kind
  state := .KConnecting
  listed := true
  handles := ∅
  pendingFunctors := if kind = .serverOtherLoop then [.connectEstablished] else []
  functors := []
  called := []
  pc := if kind = .serverOtherLoop then .idle else .newConnection
  basePending := 0
  baseCalled := 0
  detached := false

/-- The test of `forceClose`, `forceCloseInLoop` and `handleClose`. -/
def isOpen (s : ConnRefs τ) : Prop := s.state = .KConnected ∨ s.state = .KDisconnecting

instance (s : ConnRefs τ) : Decidable s.isOpen := inferInstanceAs (Decidable (_ ∨ _))

/-- The tasks that the loop has still to call. -/
def waiting (s : ConnRefs τ) : List RefTask := s.functors ++ s.pendingFunctors

/-- `queueInLoop`. -/
def queueInLoop (s : ConnRefs τ) (task : RefTask) : ConnRefs τ :=
  { s with pendingFunctors := s.pendingFunctors ++ [task] }

/-- `connectEstablished()`. -/
def connectEstablished (s : ConnRefs τ) : Option (ConnRefs τ) :=
  if s.state = .KConnecting then some { s with state := .KConnected } else none

/-- `connectDestroyed()`. -/
def connectDestroyed (s : ConnRefs τ) : ConnRefs τ :=
  { s with
    state := if s.state = .KConnected then .KDisconnected else s.state
    detached := true }

/-- `handleClose()` up to its callback. -/
def handleClose (s : ConnRefs τ) (inBatch : Bool) : ConnRefs τ :=
  { s with state := .KDisconnected, pc := .closing inBatch }

/-- `TcpServer::removeConnectionInLoop`. -/
def removeConnectionInLoop (s : ConnRefs τ) : Option (ConnRefs τ) :=
  if s.listed = true then some ({ s with listed := false }.queueInLoop .connectDestroyed) else none

/-- `closeCallback_`: `TcpServer::removeConnection` or `TcpClient::removeConnection`. -/
def closeCallback (s : ConnRefs τ) : Option (ConnRefs τ) :=
  match s.kind with
  | .serverSameLoop => s.removeConnectionInLoop
  | .serverOtherLoop => some { s with basePending := s.basePending + 1 }
  | .client => some { s with listed := false }.connectDestroyed

/-- A functor is called; the vector still holds it. -/
def run (s : ConnRefs τ) : RefTask → Option (ConnRefs τ)
  | .sendInLoop | .startRead | .callback => some s
  | .connectEstablished => s.connectEstablished
  | .forceCloseInLoop => some (if s.isOpen then s.handleClose true else s)
  | .connectDestroyed => some s.connectDestroyed

/-- When a step can be taken.  A handle is copied from another owner, `send` and `startRead` need a
handle, and `sendInLoop` does nothing on a connection that is down. -/
def pre (s : ConnRefs τ) : RefAct τ → Prop
  | .connectEstablished => s.pc = .newConnection ∧ s.state = .KConnecting
  | .endNewConnection => s.pc = .newConnection ∧ s.state ≠ .KConnecting
  | .takeHandle a => s.Owned ∧ a ∉ s.handles
  | .dropHandle a => a ∈ s.handles
  | .send a => a ∈ s.handles
  | .startRead a => a ∈ s.handles
  | .forceClose => s.Owned
  | .queueCallback => s.Owned ∧ s.isOpen
  | .dispatch => s.pc = .idle ∧ s.Owned ∧ s.state ≠ .KConnecting ∧ s.detached = false
  | .handleClose => s.pc = .dispatch ∧ s.isOpen
  | .callbackReturns => s.pc = .closing true ∨ s.pc = .closing false
  | .endDispatch => s.pc = .dispatch
  | .swap => s.pc = .idle
  | .call => s.pc = .batch ∧ s.functors ≠ []
  | .endBatch => s.pc = .batch ∧ s.functors = []
  | .removeConnectionInLoop => 0 < s.basePending
  | .endBase => 0 < s.baseCalled

variable [DecidableEq τ]

instance (s : ConnRefs τ) (act : RefAct τ) : Decidable (s.pre act) := by
  unfold pre
  split <;> infer_instance

/-- The effect of a step; `none` is a failed assertion. -/
def step (s : ConnRefs τ) : RefAct τ → Option (ConnRefs τ × List RefEvent)
  | .connectEstablished => s.connectEstablished.map fun s' => (s', [])
  | .endNewConnection => some ({ s with pc := .idle }, [])
  | .takeHandle a => some ({ s with handles := insert a s.handles }, [])
  | .dropHandle a => some ({ s with handles := s.handles.erase a }, [])
  | .send _ => some (s.queueInLoop .sendInLoop, [])
  | .startRead _ => some (s.queueInLoop .startRead, [])
  | .forceClose =>
    some (if s.isOpen then { s with state := .KDisconnecting }.queueInLoop .forceCloseInLoop
      else s, [])
  | .queueCallback => some (s.queueInLoop .callback, [])
  | .dispatch => some ({ s with pc := .dispatch }, [])
  | .handleClose => some (s.handleClose false, [])
  | .callbackReturns =>
    { s with pc := s.pc.back }.closeCallback.map fun s' => (s', [])
  | .endDispatch => some ({ s with pc := .idle }, [])
  | .swap =>
    some ({ s with
      functors := s.pendingFunctors
      pendingFunctors := []
      pc := .batch }, [])
  | .call =>
    match s.functors with
    | [] => some (s, [])
    | task :: rest =>
      ({ s with functors := rest, called := s.called ++ [task] }.run task).map
        fun s' => (s', [.started task (decide s.Owned)])
  | .endBatch => some ({ s with called := [], pc := .idle }, [])
  | .removeConnectionInLoop =>
    { s with basePending := s.basePending - 1, baseCalled := s.baseCalled + 1
      }.removeConnectionInLoop.map fun s' => (s', [])
  | .endBase => some ({ s with baseCalled := 0 }, [])

end ConnRefs

/-- All interleavings of the users, the loop of the connection and the loop of the server. -/
def refMachine (τ : Type) [DecidableEq τ] : Machine (ConnRefs τ) (RefAct τ) RefEvent where
  pre s act := s.pre act
  step s act := s.step act

instance {τ : Type} [DecidableEq τ] (s : ConnRefs τ) (act : RefAct τ) :
    Decidable ((refMachine τ).pre s act) :=
  inferInstanceAs (Decidable (s.pre act))

namespace RefAct

/-- The owner that a step gives up for good. -/
def releases {τ : Type} : RefAct τ → Option (Owner τ)
  | .dropHandle a => some (.handle a)
  | .endBatch => some .called
  | .endDispatch => some .dispatch
  | .endBase => some .baseCalled
  | _ => none

end RefAct

namespace ConnRefs

variable {τ : Type} {s s' : ConnRefs τ} {t : List RefEvent} {act : RefAct τ} {out : List RefEvent}

/-! ### The close sequence owns the connection -/

/-- The close sequence, and what it relies on. -/
structure CloseSeq (s : ConnRefs τ) : Prop where
  /-- Until `connectDestroyed` has run, the table has the connection or the task is queued. -/
  owns : s.detached = false → s.listed = true ∨ .connectDestroyed ∈ s.waiting
  functors : s.pc = .newConnection ∨ s.pc = .idle ∨ s.pc = .dispatch ∨ s.pc = .closing false →
    s.functors = []
  called : s.pc = .closing true → s.Owns .called
  newConnection : s.pc = .newConnection → s.listed = true ∧ s.basePending = 0

/-- A new connection is in the table. -/
lemma closeSeq_new (kind : OwnerKind) : CloseSeq (new kind : ConnRefs τ) where
  owns _ := Or.inl rfl
  functors _ := rfl
  called h := by
    cases kind <;> cases h
  newConnection _ := ⟨rfl, rfl⟩

/-- Until `connectDestroyed` has run, the connection has an owner that no step gives up for good. -/
lemma CloseSeq.owner (h : CloseSeq s) (hdetached : s.detached = false) :
    s.Owns .table ∨ s.Owns .functor ∨ s.Owns .pending := by
  rcases h.owns hdetached with hlisted | hmem
  · exact Or.inl hlisted
  · rcases List.mem_append.mp hmem with hmem | hmem
    · exact Or.inr (Or.inl ⟨_, hmem, rfl⟩)
    · exact Or.inr (Or.inr ⟨_, hmem, rfl⟩)

/-- What waits is still waiting when something else is queued. -/
lemma mem_waiting_queueInLoop {task task' : RefTask} (h : task ∈ s.waiting) :
    task ∈ (s.queueInLoop task').waiting := by
  rcases List.mem_append.mp h with h | h
  · exact List.mem_append_left _ h
  · exact List.mem_append_right _ (List.mem_append_left _ h)

/-- To queue a task keeps the close sequence. -/
lemma CloseSeq.queueInLoop (h : CloseSeq s) (task : RefTask) : CloseSeq (s.queueInLoop task) where
  owns hdetached := (h.owns hdetached).imp id mem_waiting_queueInLoop
  functors := h.functors
  called := h.called
  newConnection := h.newConnection

/-- `removeConnectionInLoop` hands the connection from the table to the task. -/
lemma CloseSeq.removeConnectionInLoop (h : CloseSeq s) (hpc : s.pc ≠ .newConnection)
    (hremove : s.removeConnectionInLoop = some s') : CloseSeq s' := by
  unfold ConnRefs.removeConnectionInLoop at hremove
  split at hremove
  · cases hremove
    refine ⟨fun _ => Or.inr ?_, h.functors, h.called, fun heq => absurd heq hpc⟩
    exact List.mem_append_right _ (List.mem_append_right _ (List.mem_singleton_self _))
  · cases hremove

/-- The close callback of each owner keeps the close sequence. -/
lemma CloseSeq.closeCallback (h : CloseSeq s) (hpc : s.pc ≠ .newConnection)
    (hclose : s.closeCallback = some s') : CloseSeq s' := by
  unfold ConnRefs.closeCallback at hclose
  split at hclose
  · exact h.removeConnectionInLoop hpc hclose
  · cases hclose
    exact ⟨h.owns, h.functors, h.called, fun heq => absurd heq hpc⟩
  · cases hclose
    exact ⟨nofun, h.functors, h.called, fun heq => absurd heq hpc⟩

/-- The next functor, by the time it is called, is owned by the vector if it is bound. -/
lemma CloseSeq.run {task : RefTask} {rest : List RefTask} (h : CloseSeq s) (hpc : s.pc = .batch)
    (hfunctors : s.functors = task :: rest)
    (hrun : ({ s with functors := rest, called := s.called ++ [task] } : ConnRefs τ).run task =
      some s') : CloseSeq s' := by
  have hrest : task ≠ .connectDestroyed → s.detached = false →
      s.listed = true ∨ .connectDestroyed ∈ rest ++ s.pendingFunctors := by
    intro hne hdetached
    refine (h.owns hdetached).imp id fun hmem => ?_
    rw [waiting, hfunctors, List.cons_append] at hmem
    exact List.mem_of_ne_of_mem hne.symm hmem
  have hclosing : s.pc ≠ .closing true := by simp [hpc]
  have hnew : s.pc ≠ .newConnection := by simp [hpc]
  have hother : ¬ (s.pc = .newConnection ∨ s.pc = .idle ∨ s.pc = .dispatch ∨
      s.pc = .closing false) := by simp [hpc]
  cases task with
  | sendInLoop | startRead | callback =>
    cases hrun
    exact ⟨hrest (by decide), fun hp => absurd hp hother, fun hp => absurd hp hclosing,
      fun hp => absurd hp hnew⟩
  | connectEstablished =>
    simp only [ConnRefs.run, connectEstablished] at hrun
    split at hrun
    · cases hrun
      exact ⟨hrest (by decide), fun hp => absurd hp hother, fun hp => absurd hp hclosing,
        fun hp => absurd hp hnew⟩
    · cases hrun
  | forceCloseInLoop =>
    simp only [ConnRefs.run, Option.some.injEq] at hrun
    split at hrun
    · subst hrun
      refine ⟨hrest (by decide), fun hp => ?_, fun _ => ?_, nofun⟩
      · rcases hp with hp | hp | hp | hp <;> cases hp
      · exact ⟨.forceCloseInLoop, List.mem_append_right _ (List.mem_singleton_self _), rfl⟩
    · subst hrun
      exact ⟨hrest (by decide), fun hp => absurd hp hother, fun hp => absurd hp hclosing,
        fun hp => absurd hp hnew⟩
  | connectDestroyed =>
    cases hrun
    exact ⟨nofun, fun hp => absurd hp hother, fun hp => absurd hp hclosing,
      fun hp => absurd hp hnew⟩

/-- What the call of the next functor does. -/
lemma step_call [DecidableEq τ] (hne : s.functors ≠ []) (hstep : s.step .call = some (s', out)) :
    ∃ task rest, s.functors = task :: rest ∧
      ({ s with functors := rest, called := s.called ++ [task] } : ConnRefs τ).run task = some s' ∧
      out = [.started task (decide s.Owned)] := by
  cases hfunctors : s.functors with
  | nil => exact absurd hfunctors hne
  | cons task rest =>
    simp only [ConnRefs.step, hfunctors] at hstep
    obtain ⟨s₁, hrun, heq⟩ := Option.map_eq_some_iff.mp hstep
    cases heq
    exact ⟨task, rest, rfl, hrun, rfl⟩

/-- The step lemma of the close sequence. -/
theorem CloseSeq.step [DecidableEq τ] (h : CloseSeq s) (hpre : s.pre act)
    (hstep : s.step act = some (s', out)) : CloseSeq s' := by
  cases act with
  | connectEstablished =>
    simp only [ConnRefs.step, connectEstablished, if_pos hpre.2] at hstep
    cases hstep
    exact ⟨h.owns, h.functors, h.called, h.newConnection⟩
  | endNewConnection =>
    cases hstep
    exact ⟨h.owns, fun _ => h.functors (Or.inl hpre.1), nofun,
      nofun⟩
  | takeHandle a =>
    cases hstep
    exact ⟨h.owns, h.functors, h.called, h.newConnection⟩
  | dropHandle a =>
    cases hstep
    exact ⟨h.owns, h.functors, h.called, h.newConnection⟩
  | send a =>
    cases hstep
    exact h.queueInLoop _
  | startRead a =>
    cases hstep
    exact h.queueInLoop _
  | forceClose =>
    cases hstep
    split
    · have hstate : CloseSeq { s with state := .KDisconnecting } :=
        ⟨h.owns, h.functors, h.called, h.newConnection⟩
      exact hstate.queueInLoop _
    · exact h
  | queueCallback =>
    cases hstep
    exact h.queueInLoop _
  | dispatch =>
    cases hstep
    exact ⟨h.owns, fun _ => h.functors (Or.inr (Or.inl hpre.1)), nofun,
      nofun⟩
  | handleClose =>
    cases hstep
    exact ⟨h.owns, fun _ => h.functors (Or.inr (Or.inr (Or.inl hpre.1))), nofun,
      nofun⟩
  | callbackReturns =>
    obtain ⟨s₁, hclose, heq⟩ := Option.map_eq_some_iff.mp hstep
    cases heq
    have hback : CloseSeq { s with pc := s.pc.back } := by
      rcases hpre with hpc | hpc
      · refine ⟨h.owns, fun hp => ?_, fun hp => ?_, fun hp => ?_⟩ <;> simp [hpc, RefPc.back] at hp
      · refine ⟨h.owns, fun _ => h.functors (by simp [hpc]), fun hp => ?_, fun hp => ?_⟩ <;>
          simp [hpc, RefPc.back] at hp
    refine hback.closeCallback ?_ hclose
    rcases hpre with hpc | hpc <;> simp [hpc, RefPc.back]
  | endDispatch =>
    have hpc : s.pc = .dispatch := hpre
    cases hstep
    exact ⟨h.owns, fun _ => h.functors (by simp [hpc]), nofun, nofun⟩
  | swap =>
    have hpc : s.pc = .idle := hpre
    have hnil := h.functors (by simp [hpc])
    cases hstep
    refine ⟨fun hdetached => ?_, fun hp => ?_, nofun, nofun⟩
    · simpa [waiting, hnil] using h.owns hdetached
    · rcases hp with hp | hp | hp | hp <;> cases hp
  | call =>
    obtain ⟨hpc, hne⟩ := hpre
    obtain ⟨task, rest, hfunctors, hrun, -⟩ := step_call hne hstep
    exact h.run hpc hfunctors hrun
  | endBatch =>
    cases hstep
    exact ⟨h.owns, fun _ => hpre.2, nofun, nofun⟩
  | removeConnectionInLoop =>
    have hpos : 0 < s.basePending := hpre
    obtain ⟨s₁, hremove, heq⟩ := Option.map_eq_some_iff.mp hstep
    cases heq
    have hnew : s.pc ≠ .newConnection := fun hp => by
      have hzero := (h.newConnection hp).2
      omega
    have hbase : CloseSeq { s with
        basePending := s.basePending - 1, baseCalled := s.baseCalled + 1 } :=
      ⟨h.owns, h.functors, h.called, fun hp => absurd hp hnew⟩
    exact hbase.removeConnectionInLoop hnew hremove
  | endBase =>
    cases hstep
    exact ⟨h.owns, h.functors, h.called, h.newConnection⟩

/-! ### Who can be the last owner -/

/-- A bound task that is queued owns the connection. -/
lemma owns_pending_queueInLoop (s : ConnRefs τ) {task : RefTask} (h : task.bound = true) :
    (s.queueInLoop task).Owned :=
  ⟨.pending, task, List.mem_append_right _ (List.mem_singleton_self _), h⟩

/-- `closeCallback_` leaves an owner. -/
lemma owned_closeCallback (h : s.Owns .called ∨ s.Owns .dispatch)
    (hclose : s.closeCallback = some s') : s'.Owned := by
  unfold closeCallback at hclose
  split at hclose
  · unfold removeConnectionInLoop at hclose
    split at hclose
    · cases hclose
      exact owns_pending_queueInLoop _ rfl
    · cases hclose
  · cases hclose
    exact ⟨.basePending, Nat.succ_pos _⟩
  · cases hclose
    rcases h with h | h
    · exact ⟨.called, h⟩
    · exact ⟨.dispatch, h⟩

/-- A functor does not take the vector away from a functor that has been called. -/
lemma called_run {task : RefTask} (hrun : s.run task = some s') : s'.called = s.called := by
  cases task with
  | sendInLoop | startRead | callback =>
    cases hrun
    rfl
  | connectEstablished =>
    simp only [run, connectEstablished] at hrun
    split at hrun
    · cases hrun
      rfl
    · cases hrun
  | forceCloseInLoop =>
    simp only [run, Option.some.injEq] at hrun
    split at hrun <;> subst hrun <;> rfl
  | connectDestroyed =>
    cases hrun
    rfl

/-- A task that is not bound changes nothing here. -/
lemma run_of_not_bound {task : RefTask} (h : task.bound = false) : s.run task = some s := by
  cases task with
  | sendInLoop | startRead => rfl
  | _ => cases h

/-- The end of a batch takes away the functors that have been called. -/
lemma owns_of_endBatch {o : Owner τ}
    (h : ({ s with called := [], pc := .idle } : ConnRefs τ).Owns o) : s.Owns o ∧ o ≠ .called := by
  cases o with
  | called =>
    obtain ⟨task, hmem, -⟩ := h
    cases hmem
  | newConnection => cases h
  | dispatch | guardThis => simp [Owns] at h
  | _ => exact ⟨h, nofun⟩

/-- An owner that the step does not give up leaves an owner. -/
theorem owned_of_owns [DecidableEq τ] {o : Owner τ} (h : CloseSeq s) (ho : s.Owns o)
    (hkeep : act.releases ≠ some o) (hpre : s.pre act) (hstep : s.step act = some (s', out)) :
    s'.Owned := by
  cases act with
  | connectEstablished =>
    simp only [ConnRefs.step, connectEstablished, if_pos hpre.2] at hstep
    cases hstep
    exact ⟨.newConnection, hpre.1⟩
  | endNewConnection =>
    cases hstep
    exact ⟨.table, (h.newConnection hpre.1).1⟩
  | takeHandle a =>
    cases hstep
    exact ⟨.handle a, Finset.mem_insert_self _ _⟩
  | dropHandle a =>
    cases hstep
    refine ⟨o, ?_⟩
    cases o with
    | handle b =>
      have hne : b ≠ a := fun heq => hkeep (by rw [heq]; rfl)
      exact Finset.mem_erase.mpr ⟨hne, ho⟩
    | _ => exact ho
  | send a =>
    cases hstep
    exact ⟨.handle a, hpre⟩
  | startRead a =>
    cases hstep
    exact ⟨.handle a, hpre⟩
  | forceClose =>
    cases hstep
    split
    · exact owns_pending_queueInLoop _ rfl
    · exact ⟨o, ho⟩
  | queueCallback =>
    cases hstep
    exact owns_pending_queueInLoop _ rfl
  | dispatch =>
    cases hstep
    exact ⟨.dispatch, Or.inl rfl⟩
  | handleClose =>
    cases hstep
    exact ⟨.guardThis, Or.inr rfl⟩
  | callbackReturns =>
    obtain ⟨s₁, hclose, heq⟩ := Option.map_eq_some_iff.mp hstep
    cases heq
    refine owned_closeCallback ?_ hclose
    rcases hpre with hpc | hpc
    · exact Or.inl (h.called hpc)
    · exact Or.inr (Or.inl (by simp [hpc, RefPc.back]))
  | endDispatch =>
    have hpc : s.pc = .dispatch := hpre
    cases hstep
    refine ⟨o, ?_⟩
    cases o with
    | dispatch => exact absurd rfl hkeep
    | newConnection | guardThis => simp [Owns, hpc] at ho
    | _ => exact ho
  | swap =>
    have hpc : s.pc = .idle := hpre
    cases hstep
    by_cases hpending : o = .pending
    · subst hpending
      exact ⟨.functor, ho⟩
    · refine ⟨o, ?_⟩
      cases o with
      | pending => exact absurd rfl hpending
      | functor =>
        obtain ⟨task, hmem, -⟩ := ho
        rw [h.functors (by simp [hpc])] at hmem
        cases hmem
      | newConnection | guardThis | dispatch => simp [Owns, hpc] at ho
      | _ => exact ho
  | call =>
    obtain ⟨task, rest, hfunctors, hrun, -⟩ := step_call hpre.2 hstep
    by_cases hbound : task.bound = true
    · refine ⟨.called, task, ?_, hbound⟩
      rw [called_run hrun]
      exact List.mem_append_right _ (List.mem_singleton_self _)
    · rw [run_of_not_bound (by simpa using hbound)] at hrun
      cases hrun
      refine ⟨o, ?_⟩
      cases o with
      | functor =>
        obtain ⟨task', hmem, hbound'⟩ := ho
        rw [hfunctors] at hmem
        rcases List.mem_cons.mp hmem with rfl | hmem
        · exact absurd hbound' hbound
        · exact ⟨task', hmem, hbound'⟩
      | called =>
        obtain ⟨task', hmem, hbound'⟩ := ho
        exact ⟨task', List.mem_append_left _ hmem, hbound'⟩
      | _ => exact ho
  | endBatch =>
    cases hstep
    refine ⟨o, ?_⟩
    cases o with
    | called => exact absurd rfl hkeep
    | newConnection | guardThis | dispatch => simp [Owns, hpre.1] at ho
    | _ => exact ho
  | removeConnectionInLoop =>
    obtain ⟨s₁, hremove, heq⟩ := Option.map_eq_some_iff.mp hstep
    cases heq
    unfold ConnRefs.removeConnectionInLoop at hremove
    split at hremove
    · cases hremove
      exact owns_pending_queueInLoop _ rfl
    · cases hremove
  | endBase =>
    cases hstep
    refine ⟨o, ?_⟩
    cases o with
    | baseCalled => exact absurd rfl hkeep
    | _ => exact ho

/-- A connection that has been destroyed gets no owner again, and nothing is posted to it. -/
theorem not_owned_step [DecidableEq τ] (h : ¬ s.Owned) (hpre : s.pre act)
    (hstep : s.step act = some (s', out)) :
    ¬ s'.Owned ∧ ∀ task ∈ s'.waiting, task ∈ s.waiting := by
  have hno : ∀ o, ¬ s.Owns o := fun o ho => h ⟨o, ho⟩
  cases act with
  | connectEstablished | endNewConnection => exact absurd hpre.1 (hno .newConnection)
  | takeHandle a => exact absurd hpre.1 h
  | dropHandle a | send a | startRead a => exact absurd hpre (hno (.handle a))
  | forceClose => exact absurd hpre h
  | queueCallback => exact absurd hpre.1 h
  | dispatch => exact absurd hpre.2.1 h
  | handleClose => exact absurd (Or.inl hpre.1) (hno .dispatch)
  | callbackReturns => exact absurd hpre (hno .guardThis)
  | endDispatch => exact absurd (Or.inl hpre) (hno .dispatch)
  | removeConnectionInLoop => exact absurd hpre (hno .basePending)
  | endBase => exact absurd hpre (hno .baseCalled)
  | swap =>
    cases hstep
    refine ⟨?_, fun task hmem => ?_⟩
    · rintro ⟨o, ho⟩
      by_cases hfunctor : o = .functor
      · subst hfunctor
        exact hno .pending ho
      · refine hno o ?_
        cases o with
        | functor => exact absurd rfl hfunctor
        | pending =>
          obtain ⟨task, hmem, -⟩ := ho
          cases hmem
        | newConnection => cases ho
        | dispatch | guardThis => simp [Owns] at ho
        | _ => exact ho
    · exact List.mem_append_right _ (by simpa [waiting] using hmem)
  | call =>
    obtain ⟨task, rest, hfunctors, hrun, -⟩ := step_call hpre.2 hstep
    have hbound : task.bound = false := by
      rw [← Bool.not_eq_true]
      intro hbound
      exact hno .functor ⟨task, hfunctors ▸ List.mem_cons_self .., hbound⟩
    rw [run_of_not_bound hbound] at hrun
    cases hrun
    refine ⟨?_, fun task' hmem => ?_⟩
    · rintro ⟨o, ho⟩
      refine hno o ?_
      cases o with
      | functor =>
        obtain ⟨task', hmem, hbound'⟩ := ho
        exact ⟨task', hfunctors ▸ List.mem_cons_of_mem _ hmem, hbound'⟩
      | called =>
        obtain ⟨task', hmem, hbound'⟩ := ho
        rcases List.mem_append.mp hmem with hmem | hmem
        · exact ⟨task', hmem, hbound'⟩
        · rw [List.mem_singleton.mp hmem, hbound] at hbound'
          cases hbound'
      | _ => exact ho
    · rw [waiting, hfunctors]
      exact List.mem_cons_of_mem _ hmem
  | endBatch =>
    cases hstep
    refine ⟨?_, fun task hmem => hmem⟩
    rintro ⟨o, ho⟩
    exact hno o (owns_of_endBatch ho).1

/-! ### The condition -/

/-- The step gives up the last owner. -/
def GivesUpLast (s : ConnRefs τ) (act : RefAct τ) : Prop := ∀ o, s.Owns o → act.releases = some o

/-- After `connectDestroyed` has run, the last owner is given up only when no task of `send` or
`startRead` is waiting. -/
def Covered (s : ConnRefs τ) (act : RefAct τ) : Prop :=
  s.detached = true → s.GivesUpLast act → ∀ task ∈ s.waiting, task.bound = true

instance (s : ConnRefs τ) (act : RefAct τ) [DecidableEq τ] : Decidable (s.Covered act) :=
  inferInstanceAs (Decidable (_ → (∀ o, s.Owns o → act.releases = some o) → _))

/-- The invariant under the condition. -/
structure CoverInv (s : ConnRefs τ) : Prop where
  close : CloseSeq s
  waiting : ¬ s.Owned → ∀ task ∈ s.waiting, task.bound = true

/-- A new connection has its table as owner. -/
lemma coverInv_new (kind : OwnerKind) : CoverInv (new kind : ConnRefs τ) where
  close := closeSeq_new kind
  waiting h := absurd ⟨.table, rfl⟩ h

/-- The last owner goes only after `connectDestroyed` has run. -/
lemma CloseSeq.detached_of_givesUpLast (h : CloseSeq s) (hlast : s.GivesUpLast act) :
    s.detached = true := by
  rw [← Bool.not_eq_false]
  intro hdetached
  rcases h.owner hdetached with ho | ho | ho
  · have hrel := hlast _ ho
    cases act <;> cases hrel
  · have hrel := hlast _ ho
    cases act <;> cases hrel
  · have hrel := hlast _ ho
    cases act <;> cases hrel

variable [DecidableEq τ]

/-- Who gives the connection up takes no task out of the queue. -/
lemma waiting_of_releases {o : Owner τ} (hrel : act.releases = some o)
    (hstep : s.step act = some (s', out)) : s'.waiting = s.waiting := by
  cases act with
  | dropHandle a | endBatch | endDispatch | endBase =>
    cases hstep
    rfl
  | _ => cases hrel

/-- The step lemma of the condition. -/
theorem CoverInv.step (h : CoverInv s) (hpre : s.pre act) (hcovered : s.Covered act)
    (hstep : s.step act = some (s', out)) : CoverInv s' where
  close := h.close.step hpre hstep
  waiting := by
    intro hdestroyed
    by_cases howned : s.Owned
    · have hlast : s.GivesUpLast act := by
        intro o ho
        by_contra hkeep
        exact hdestroyed (owned_of_owns h.close ho hkeep hpre hstep)
      obtain ⟨o, ho⟩ := howned
      rw [waiting_of_releases (hlast o ho) hstep]
      exact hcovered (h.close.detached_of_givesUpLast hlast) hlast
    · intro task hmem
      exact h.waiting howned task ((not_owned_step howned hpre hstep).2 task hmem)

/-- A task that starts finds an owner: itself, if it is bound. -/
lemma CoverInv.started {task : RefTask} {alive : Bool} (h : CoverInv s) (hpre : s.pre act)
    (hstep : s.step act = some (s', out)) (hmem : .started task alive ∈ out) : alive = true := by
  cases act with
  | call =>
    obtain ⟨task', rest, hfunctors, -, rfl⟩ := step_call hpre.2 hstep
    obtain ⟨rfl, rfl⟩ := RefEvent.started.inj (List.mem_singleton.mp hmem)
    have hfirst : task ∈ s.functors := hfunctors ▸ List.mem_cons_self ..
    rw [decide_eq_true_eq]
    by_contra hdestroyed
    have hbound := h.waiting hdestroyed task (List.mem_append_left _ hfirst)
    exact hdestroyed ⟨.functor, task, hfirst, hbound⟩
  | connectEstablished | callbackReturns | removeConnectionInLoop =>
    obtain ⟨s₁, -, heq⟩ := Option.map_eq_some_iff.mp hstep
    cases heq
    cases hmem
  | _ =>
    cases hstep
    cases hmem

/-- The run lemma. -/
theorem coverInv_of_run {kind : OwnerKind}
    (h : ((refMachine τ).restrict Covered).Run (new kind) t s) :
    CoverInv s ∧ ∀ task alive, .started task alive ∈ t → alive = true := by
  refine h.invariant
    (fun t s => CoverInv s ∧ ∀ task alive, .started task alive ∈ t → alive = true)
    ⟨coverInv_new kind, by simp⟩ fun t s act s' out hinv hpre hstep => ?_
  refine ⟨hinv.1.step hpre.1 hpre.2 hstep, fun task alive hmem => ?_⟩
  rcases List.mem_append.mp hmem with hmem | hmem
  · exact hinv.2 task alive hmem
  · exact hinv.1.started hpre.1 hstep hmem

/-! ### The condition is needed -/

/-- When the last owner gives it up, the connection has none. -/
lemma not_owned_of_givesUpLast (howned : s.Owned) (hlast : s.GivesUpLast act)
    (hstep : s.step act = some (s', out)) : ¬ s'.Owned := by
  obtain ⟨o, ho⟩ := howned
  have hrel := hlast o ho
  rintro ⟨o', ho'⟩
  cases act with
  | dropHandle a =>
    cases hstep
    have hback : s.Owns o' := by
      cases o' with
      | handle b => exact Finset.mem_of_mem_erase ho'
      | _ => exact ho'
    cases hlast o' hback
    exact absurd ho' (Finset.notMem_erase _ _)
  | endBatch =>
    cases hstep
    obtain ⟨hback, hne⟩ := owns_of_endBatch ho'
    exact hne (Option.some.inj (hlast o' hback)).symm
  | endDispatch =>
    cases hstep
    have hback : s.Owns o' := by
      cases o' with
      | newConnection => cases ho'
      | dispatch | guardThis => simp [Owns] at ho'
      | _ => exact ho'
    cases hlast o' hback
    simp [Owns] at ho'
  | endBase =>
    cases hstep
    have hback : s.Owns o' := by
      cases o' with
      | baseCalled => cases ho'
      | _ => exact ho'
    cases hlast o' hback
    cases ho'
  | _ => cases hrel

/-- The loop thread calls the next functor of a batch after the connection has been destroyed. -/
lemma call_destroyed {task : RefTask} {rest : List RefTask} (h : ¬ s.Owned) (hpc : s.pc = .batch)
    (hfunctors : s.functors = task :: rest) :
    ∃ s', (refMachine τ).Run s [.started task false] s' := by
  have hbound : task.bound = false := by
    rw [← Bool.not_eq_true]
    intro hbound
    exact h ⟨.functor, task, hfunctors ▸ List.mem_cons_self .., hbound⟩
  have hstep : s.step .call = some ({ s with functors := rest, called := s.called ++ [task] },
      [.started task false]) := by
    simp only [ConnRefs.step, hfunctors, run_of_not_bound hbound, Option.map_some, h]
    rfl
  have hpre : s.pre .call := ⟨hpc, by simp [hfunctors]⟩
  have hrun : (refMachine τ).Run s ([] ++ [.started task false]) _ :=
    Machine.Run.nil.snoc (a := RefAct.call) hpre hstep
  exact ⟨_, hrun⟩

/-- The loop thread goes on to the next batch after the connection has been destroyed. -/
lemma swap_destroyed {task : RefTask} {rest : List RefTask} (h : ¬ s.Owned) (hpc : s.pc = .idle)
    (hpending : s.pendingFunctors = task :: rest) :
    ∃ s', (refMachine τ).Run s [.started task false] s' := by
  have hstep : s.step .swap = some ({ s with
      functors := s.pendingFunctors, pendingFunctors := [], pc := .batch }, []) := rfl
  have hpre : s.pre .swap := hpc
  obtain ⟨s', hrun⟩ := call_destroyed (not_owned_step h hpre hstep).1 rfl hpending
  exact ⟨s', .cons RefAct.swap hpre hstep hrun⟩

/-- What is still waiting for a connection that has been destroyed will be called. -/
lemma exists_started_destroyed (hclose : CloseSeq s) (h : ¬ s.Owned) (hwaiting : s.waiting ≠ []) :
    ∃ task s', (refMachine τ).Run s [.started task false] s' := by
  have hno : ∀ o, ¬ s.Owns o := fun o ho => h ⟨o, ho⟩
  cases hpc : s.pc with
  | newConnection => exact absurd hpc (hno .newConnection)
  | dispatch => exact absurd (Or.inl hpc) (hno .dispatch)
  | closing inBatch => exact absurd (by cases inBatch <;> simp [hpc, Owns]) (hno .guardThis)
  | idle =>
    cases hpending : s.pendingFunctors with
    | nil => simp [waiting, hpending, hclose.functors (by simp [hpc])] at hwaiting
    | cons task rest => exact ⟨task, swap_destroyed h hpc hpending⟩
  | batch =>
    cases hfunctors : s.functors with
    | cons task rest => exact ⟨task, call_destroyed h hpc hfunctors⟩
    | nil =>
      cases hpending : s.pendingFunctors with
      | nil => simp [waiting, hpending, hfunctors] at hwaiting
      | cons task rest =>
        have hstep : s.step .endBatch = some ({ s with called := [], pc := .idle }, []) := rfl
        have hpre : s.pre .endBatch := ⟨hpc, hfunctors⟩
        obtain ⟨s', hrun⟩ := swap_destroyed (not_owned_step h hpre hstep).1 rfl hpending
        exact ⟨task, s', .cons RefAct.endBatch hpre hstep hrun⟩

/-- As long as, after `connectDestroyed` has run, the last owner is given up only when no task of
`send` or `startRead` is waiting, every task that starts finds its connection alive.  A step that
breaks the condition lets the loop start such a task after the connection has been destroyed. -/
theorem posted_tasks_find_connection {kind : OwnerKind}
    (h : ((refMachine τ).restrict Covered).Run (new kind) t s) :
    (∀ task alive, .started task alive ∈ t → alive = true) ∧
      ∀ act s₁ out, s.pre act → s.step act = some (s₁, out) → ¬ s.Covered act →
        ∃ task s₂, (refMachine τ).Run s₁ [.started task false] s₂ := by
  obtain ⟨hinv, hstarted⟩ := coverInv_of_run h
  refine ⟨hstarted, fun act s₁ out hpre hstep hbroken => ?_⟩
  unfold Covered at hbroken
  push Not at hbroken
  obtain ⟨-, hlast, task, hmem, hbound⟩ := hbroken
  have howned : s.Owned := by
    by_contra hdestroyed
    exact hbound (hinv.waiting hdestroyed task hmem)
  obtain ⟨o, ho⟩ := howned
  refine exists_started_destroyed (hinv.close.step hpre hstep)
    (not_owned_of_givesUpLast ⟨o, ho⟩ hlast hstep) ?_
  rw [waiting_of_releases (hlast o ho) hstep]
  exact List.ne_nil_of_mem hmem

/-- A user posts a task before the close and drops the handle; another one posts a task while
`connectDestroyed` runs and keeps the handle until that task has started. -/
theorem posted_tasks_find_connection_two :
    ∃ t s, ((refMachine ℕ).restrict Covered).Run (new .serverSameLoop) t s ∧
      (.started .startRead true ∈ t ∧ .started .sendInLoop true ∈ t ∧ ¬ s.Owned) ∧
      ∀ task alive, .started task alive ∈ t → alive = true := by
  obtain ⟨t, s, hrun, hs⟩ :=
    ((refMachine ℕ).restrict Covered).exists_run_of_exec (new .serverSameLoop)
      [.connectEstablished, .takeHandle 1, .takeHandle 2, .endNewConnection, .startRead 1,
        .dropHandle 1, .dispatch, .handleClose, .callbackReturns, .endDispatch, .swap, .call,
        .send 2, .call, .endBatch, .swap, .call, .endBatch, .dropHandle 2]
      (fun s t => .started .startRead true ∈ t ∧ .started .sendInLoop true ∈ t ∧ ¬ s.Owned)
      (by decide)
  exact ⟨t, s, hrun, hs, (posted_tasks_find_connection hrun).1⟩

/-- A user posts `send` while the batch with `connectDestroyed` is running and drops the
handle.  The end of the batch destroys the connection, and the next batch calls `sendInLoop` on it.
-/
theorem posted_task_finds_destroyed :
    ∃ t s, (refMachine ℕ).Run (new .serverSameLoop) t s ∧ .started .sendInLoop false ∈ t :=
  (refMachine ℕ).exists_run_of_exec (new .serverSameLoop)
    [.connectEstablished, .takeHandle 1, .endNewConnection, .dispatch, .handleClose,
      .callbackReturns, .endDispatch, .swap, .send 1, .dropHandle 1, .call, .endBatch, .swap, .call]
    (fun _ t => .started .sendInLoop false ∈ t) (by decide)

end ConnRefs

end MuduoServer
