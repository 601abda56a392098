import MuduoServer.Tcp.Server

/-!
# The connection table is exact

The removal of a connection goes from its own loop to the base loop and back, and at any moment
many connections are at different stations of this way.  `Station` is the way of one connection,
`At` says what a station means for the table, the queues, the base loop and the events so far.

A step of the server moves one connection from a station to the next, which is `Moves`, and leaves
all others where they are.  Every function of the server has one lemma that says between which two
stations it moves its connection.
-/

namespace MuduoServer

/-! ### The way of one connection -/

namespace ServerConfig

/-- The loop that `getNextLoop` chooses for a connection. -/
def loopOf (cfg : ServerConfig) (c : ℕ) : ℕ :=
  if cfg.numThreads = 0 then 0 else c % cfg.numThreads + 1

/-- The whole name of a connection. -/
def nameOf (cfg : ServerConfig) (c : ℕ) : List Char := cfg.name ++ cfg.suffix (c + 1)

/-- Connections of different numbers have different names. -/
lemma nameOf_injective (cfg : ServerConfig) : Function.Injective cfg.nameOf := by
  intro c c' h
  have hsuffix := cfg.suffix_injective (List.append_cancel_left h)
  omega

end ServerConfig

/-- All events of a connection that is called `name` and belongs to loop `l`, in order. -/
def ServerEvent.life (c : ℕ) (name : List Char) (l : ℕ) : List ServerEvent :=
  [.inserted c name none, .established c l, .closed c l, .erased c, .queued c l, .destroyed c l]

namespace ServerTask

/-- The loop a task is meant for, when `l` is the loop of the connection. -/
def target (l : ℕ) : ServerTask → ℕ
  | .connectEstablished _ | .connectDestroyed _ => l
  | .removeConnectionInLoop _ => 0

end ServerTask

namespace TcpServer

/-- The stations of a connection. -/
inductive Station where
  /-- Not made yet. -/
  | unborn
  /-- In the table; `newConnection` has still to call `runInLoop`. -/
  | fresh
  /-- `connectEstablished` is about to be called or queued. -/
  | establishing
  /-- `connectEstablished` is queued. -/
  | posted
  | up
  /-- `removeConnectionInLoop` is about to be called or queued. -/
  | removing
  /-- `removeConnectionInLoop` is queued. -/
  | closing
  /-- Out of the table; `removeConnectionInLoop` has still to call `queueInLoop`. -/
  | erased
  /-- `connectDestroyed` is about to be called. -/
  | destroying
  /-- `connectDestroyed` is queued. -/
  | dying
  | dead
  deriving DecidableEq

namespace Station

/-- The values `state_` may have; `none` stands for no connection. -/
def states : Station → List (Option StateE)
  | unborn => [none]
  | fresh | establishing | posted => [some .KConnecting]
  | up => [some .KConnected, some .KDisconnecting]
  | removing | closing | erased | destroying | dying | dead => [some .KDisconnected]

/-- The task that is queued. -/
def task? (c : ℕ) : Station → Option ServerTask
  | posted => some (.connectEstablished c)
  | closing => some (.removeConnectionInLoop c)
  | dying => some (.connectDestroyed c)
  | _ => none

/-- The tasks on loop `k`, for a connection of loop `l`. -/
def tasks (c l : ℕ) (st : Station) (k : ℕ) : List ServerTask :=
  match st.task? c with
  | none => []
  | some task => if k = task.target l then [task] else []

/-- What the base loop is doing with the connection. -/
def frame (c : ℕ) : Station → ServerFrame
  | fresh => .newConnection c
  | erased => .removeConnectionInLoop c
  | _ => .idle

/-- The connection is in the table. -/
def listed : Station → Bool
  | fresh | establishing | posted | up | removing | closing => true
  | _ => false

/-- The number of events so far. -/
def rank : Station → ℕ
  | unborn => 0
  | fresh | establishing | posted => 1
  | up => 2
  | removing | closing => 3
  | erased => 4
  | destroying | dying => 5
  | dead => 6

/-- Two stations that differ in the queue only. -/
structure Alike (st st' : Station) : Prop where
  states : st.states = st'.states
  frame : ∀ c, st.frame c = st'.frame c
  listed : st.listed = st'.listed
  rank : st.rank = st'.rank

/-- To look alike goes both ways. -/
lemma Alike.symm {st st' : Station} (h : st.Alike st') : st'.Alike st :=
  ⟨h.states.symm, fun c => (h.frame c).symm, h.listed.symm, h.rank.symm⟩

/-- A station that lasts from one step to the next. -/
def settled : Station → Bool
  | establishing | removing | destroying => false
  | _ => true

end Station

end TcpServer

open TcpServer (Station)

namespace ServerTask

/-- Where the connection is before the task is called or queued. -/
def before : ServerTask → Station
  | .connectEstablished _ => .establishing
  | .removeConnectionInLoop _ => .removing
  | .connectDestroyed _ => .destroying

/-- Where the connection is while the task is queued. -/
def queuedAt : ServerTask → Station
  | .connectEstablished _ => .posted
  | .removeConnectionInLoop _ => .closing
  | .connectDestroyed _ => .dying

/-- Where the connection is after the task. -/
def after : ServerTask → Station
  | .connectEstablished _ => .up
  | .removeConnectionInLoop _ => .erased
  | .connectDestroyed _ => .dead

/-- A queued task looks like the moment before it. -/
lemma queuedAt_alike (task : ServerTask) : task.queuedAt.Alike task.before := by
  cases task <;> exact ⟨rfl, fun _ => rfl, rfl, rfl⟩

/-- The task of the station at which the task is queued is the task itself. -/
lemma task?_queuedAt (task : ServerTask) : task.queuedAt.task? task.conn = some task := by
  cases task <;> rfl

end ServerTask

namespace TcpServer

/-- A queued task tells the station. -/
lemma Station.of_task? {st : Station} {c : ℕ} {task : ServerTask} (h : st.task? c = some task) :
    st = task.queuedAt := by
  cases st <;> simp only [Station.task?, Option.some.injEq, reduceCtorEq] at h
  all_goals
    subst h
    rfl

variable {cfg : ServerConfig} {t : List ServerEvent} {s s' s'' : TcpServer} {c : ℕ}
  {st st' : Station} {out out' : List ServerEvent}

/-! ### What belongs to one connection -/

/-- The tasks of a connection on loop `l`. -/
def tasksOf (s : TcpServer) (c l : ℕ) : List ServerTask := (s.waiting l).filter (·.conn = c)

/-- The events of a connection. -/
def eventsOf (t : List ServerEvent) (c : ℕ) : List ServerEvent := t.filter (·.conn = c)

/-- What the base loop is doing with a connection. -/
def frameOf (s : TcpServer) (c : ℕ) : ServerFrame :=
  if s.frame.conn? = some c then s.frame else .idle

/-- The events of a connection in a trace are those of its parts. -/
lemma eventsOf_append (t u : List ServerEvent) (c : ℕ) :
    eventsOf (t ++ u) c = eventsOf t c ++ eventsOf u c := List.filter_append ..

/-- What a station means. -/
structure At (cfg : ServerConfig) (t : List ServerEvent) (s : TcpServer) (c : ℕ) (st : Station) :
    Prop where
  state : s.conns[c]?.map ServerConn.state ∈ st.states
  tasks : ∀ l, s.tasksOf c l = st.tasks c (cfg.loopOf c) l
  frame : s.frameOf c = st.frame c
  table : s.connections (cfg.nameOf c) = if st.listed then some c else none
  history : eventsOf t c = (ServerEvent.life c (cfg.nameOf c) (cfg.loopOf c)).take st.rank

/-- A step does not concern the connection. -/
structure SameFor (cfg : ServerConfig) (s : TcpServer) (out : List ServerEvent) (s' : TcpServer)
    (c : ℕ) : Prop where
  conn : s'.conns[c]? = s.conns[c]?
  tasks : ∀ l, s'.tasksOf c l = s.tasksOf c l
  frame : s'.frameOf c = s.frameOf c
  table : s'.connections (cfg.nameOf c) = s.connections (cfg.nameOf c)
  events : eventsOf out c = []

/-- Two steps that leave the connection alone leave it alone together. -/
lemma SameFor.trans (h : SameFor cfg s out s' c) (h' : SameFor cfg s' out' s'' c) :
    SameFor cfg s (out ++ out') s'' c where
  conn := h'.conn.trans h.conn
  tasks l := (h'.tasks l).trans (h.tasks l)
  frame := h'.frame.trans h.frame
  table := h'.table.trans h.table
  events := by rw [eventsOf_append, h.events, h'.events, List.append_nil]

/-- A step that leaves the connection alone leaves it at its station. -/
lemma At.same (h : At cfg t s c st) (hsame : SameFor cfg s out s' c) :
    At cfg (t ++ out) s' c st where
  state := by rw [hsame.conn]; exact h.state
  tasks l := (hsame.tasks l).trans (h.tasks l)
  frame := hsame.frame.trans h.frame
  table := hsame.table.trans h.table
  history := by rw [eventsOf_append, hsame.events, List.append_nil, h.history]

/-- A task of the connection is put into a queue or taken out of it. -/
lemma At.requeue (h : At cfg t s c st) (halike : st.Alike st') (hconns : s'.conns = s.conns)
    (hframe : s'.frame = s.frame) (htable : s'.connections = s.connections)
    (htasks : ∀ l, s'.tasksOf c l = st'.tasks c (cfg.loopOf c) l) : At cfg t s' c st' where
  state := by
    rw [hconns, ← halike.states]
    exact h.state
  tasks := htasks
  frame := by
    rw [frameOf, hframe, ← halike.frame]
    exact h.frame
  table := by
    rw [htable, ← halike.listed]
    exact h.table
  history := by
    rw [← halike.rank]
    exact h.history

/-- What holds of the server as a whole. -/
structure Wf (cfg : ServerConfig) (s : TcpServer) : Prop where
  nextConnId : s.nextConnId = s.conns.length + 1
  next : s.next = if cfg.numThreads = 0 then 0 else s.conns.length % cfg.numThreads
  conn : ∀ c r, s.conns[c]? = some r → r.name = cfg.nameOf c ∧ r.loop = cfg.loopOf c
  table : ∀ name c, s.connections name = some c → name = cfg.nameOf c

/-- The step moves connection `c` to station `st` and no other. -/
structure Moves (cfg : ServerConfig) (t : List ServerEvent) (s : TcpServer) (c : ℕ) (st : Station)
    (out : List ServerEvent) (s' : TcpServer) : Prop where
  wf : Wf cfg s'
  others : ∀ c' ≠ c, SameFor cfg s out s' c'
  at_ : At cfg (t ++ out) s' c st

/-- Two moves of the same connection are one move. -/
lemma Moves.trans (h : Moves cfg t s c st out s') (h' : Moves cfg (t ++ out) s' c st' out' s'') :
    Moves cfg t s c st' (out ++ out') s'' where
  wf := h'.wf
  others c' hne := (h.others c' hne).trans (h'.others c' hne)
  at_ := by rw [← List.append_assoc]; exact h'.at_

/-! ### The operations of the server -/

/-- An event is an event of its own connection. -/
lemma eventsOf_one (e : ServerEvent) : eventsOf [e] e.conn = [e] := by simp [eventsOf]

/-- An event of one connection is none of another. -/
lemma eventsOf_other {e : ServerEvent} (h : c ≠ e.conn) : eventsOf [e] c = [] := by
  simp [eventsOf, h.symm]

/-- A task that is queued is the last of its connection in its loop. -/
lemma tasksOf_queueInLoop (s : TcpServer) (l : ℕ) (task : ServerTask) (c k : ℕ) :
    (s.queueInLoop l task).tasksOf c k =
      s.tasksOf c k ++ if k = l ∧ task.conn = c then [task] else [] := by
  unfold tasksOf waiting queueInLoop
  by_cases hk : k = l
  · subst hk
    by_cases hc : task.conn = c <;> simp [hc]
  · simp [hk]

/-- A store to `state_` keeps the server well formed. -/
lemma Wf.setState {r : ServerConn} (h : Wf cfg s) (hr : s.conns[c]? = some r) (state : StateE) :
    Wf cfg (s.setState c r state) where
  nextConnId := by simpa [TcpServer.setState] using h.nextConnId
  next := by simpa [TcpServer.setState] using h.next
  table := h.table
  conn := by
    intro c' r' hr'
    by_cases hc : c = c'
    · subst hc
      obtain ⟨hlt, -⟩ := List.getElem?_eq_some_iff.mp hr
      simp only [TcpServer.setState, List.getElem?_set_self hlt, Option.some.injEq] at hr'
      subst hr'
      exact h.conn c r hr
    · simp only [TcpServer.setState, List.getElem?_set_ne hc] at hr'
      exact h.conn c' r' hr'

/-- The record of the connection after a store to its `state_`. -/
lemma setState_getElem? {r : ServerConn} (hr : s.conns[c]? = some r) (state : StateE) :
    (s.setState c r state).conns[c]? = some { r with state := state } := by
  obtain ⟨hlt, -⟩ := List.getElem?_eq_some_iff.mp hr
  exact List.getElem?_set_self hlt

/-- `setState` concerns its own connection. -/
lemma setState_sameFor (r : ServerConn) (state : StateE) {c' : ℕ} (hne : c' ≠ c)
    (hout : eventsOf out c' = []) : SameFor cfg s out (s.setState c r state) c' where
  conn := List.getElem?_set_ne hne.symm
  tasks _ := rfl
  frame := rfl
  table := rfl
  events := hout

/-- A connection that has been made, its name and its loop. -/
lemma At.record (h : At cfg t s c st) (hwf : Wf cfg s) (hst : none ∉ st.states) :
    ∃ r, s.conns[c]? = some r ∧ r.name = cfg.nameOf c ∧ r.loop = cfg.loopOf c ∧
      some r.state ∈ st.states := by
  have hstate := h.state
  cases hr : s.conns[c]? with
  | none =>
    rw [hr] at hstate
    exact absurd hstate hst
  | some r =>
    rw [hr] at hstate
    obtain ⟨hname, hloop⟩ := hwf.conn c r hr
    exact ⟨r, rfl, hname, hloop, hstate⟩

/-- The history grows by the next event of the life. -/
lemma At.history_snoc (h : At cfg t s c st) {e : ServerEvent} (hconn : e.conn = c)
    (he : (ServerEvent.life c (cfg.nameOf c) (cfg.loopOf c))[st.rank]? = some e) :
    eventsOf (t ++ [e]) c =
      (ServerEvent.life c (cfg.nameOf c) (cfg.loopOf c)).take (st.rank + 1) := by
  subst hconn
  rw [eventsOf_append, eventsOf_one, h.history, List.take_add_one, he]
  rfl

/-- `connectEstablished()` brings its connection up. -/
lemma connectEstablished_moves (hwf : Wf cfg s) (h : At cfg t s c .establishing) :
    ∃ s' out, s.connectEstablished (cfg.loopOf c) c = some (s', out) ∧
      Moves cfg t s c .up out s' := by
  obtain ⟨r, hr, -, hloop, hstate⟩ := h.record hwf (by simp [Station.states])
  have hconnecting : r.state = .KConnecting := by simpa [Station.states] using hstate
  refine ⟨s.setState c r .KConnected, [.established c (cfg.loopOf c)], ?_, hwf.setState hr _,
    ?_, ?_⟩
  · simp only [connectEstablished, hr, hloop, hconnecting, and_self, if_true]
  · exact fun c' hne => setState_sameFor r _ hne (eventsOf_other hne)
  · refine ⟨?_, h.tasks, h.frame, h.table, h.history_snoc rfl rfl⟩
    rw [setState_getElem? hr]
    simp [Station.states]

/-- `connectDestroyed()` is the end of its connection. -/
lemma connectDestroyed_moves (hwf : Wf cfg s) (h : At cfg t s c .destroying) :
    ∃ s' out, s.connectDestroyed (cfg.loopOf c) c = some (s', out) ∧
      Moves cfg t s c .dead out s' := by
  obtain ⟨r, hr, -, hloop, hstate⟩ := h.record hwf (by simp [Station.states])
  have hdown : r.state = .KDisconnected := by simpa [Station.states] using hstate
  refine ⟨s.setState c r .KDisconnected, [.destroyed c (cfg.loopOf c)], ?_, hwf.setState hr _,
    ?_, ?_⟩
  · simp [connectDestroyed, hr, hloop, hdown]
  · exact fun c' hne => setState_sameFor r _ hne (eventsOf_other hne)
  · refine ⟨?_, h.tasks, h.frame, h.table, h.history_snoc rfl rfl⟩
    rw [setState_getElem? hr]
    simp [Station.states]

/-- While the base loop is idle, no connection is in the middle of a call. -/
lemma frameOf_idle (h : s.frame = .idle) (c : ℕ) : s.frameOf c = .idle := by
  simp [frameOf, h]

/-- The frame of a function belongs to its connection. -/
lemma frameOf_other {f : ServerFrame} (hf : s.frame = f) (h : f.conn? ≠ some c) :
    s.frameOf c = .idle := by
  subst hf
  simp [frameOf, h]

/-- `removeConnectionInLoop()` erases the connection and goes on to queue its last task. -/
lemma removeConnectionInLoop_moves (hwf : Wf cfg s) (hidle : s.frame = .idle)
    (h : At cfg t s c .removing) :
    ∃ s' out, s.removeConnectionInLoop 0 c = some (s', out) ∧ Moves cfg t s c .erased out s' := by
  obtain ⟨r, hr, hname, hloop, hstate⟩ := h.record hwf (by simp [Station.states])
  have htable : s.connections r.name = some c := by
    rw [hname]
    exact h.table
  refine ⟨_, _, by simp only [removeConnectionInLoop, hr, htable]; rfl, ?_, ?_, ?_⟩
  · refine ⟨hwf.nextConnId, hwf.next, hwf.conn, ?_⟩
    intro name c' hentry
    by_cases hn : name = r.name
    · simp [hn] at hentry
    · simp only [Function.update_of_ne hn] at hentry
      exact hwf.table name c' hentry
  · intro c' hne
    have hother : cfg.nameOf c' ≠ r.name := fun heq =>
      hne (cfg.nameOf_injective (heq.trans hname))
    refine ⟨rfl, fun _ => rfl, ?_, Function.update_of_ne hother _ _, eventsOf_other hne⟩
    rw [frameOf_idle hidle]
    exact frameOf_other rfl (by simpa [ServerFrame.conn?] using hne.symm)
  · refine ⟨h.state, h.tasks, ?_, ?_, h.history_snoc rfl rfl⟩
    · simp [frameOf, ServerFrame.conn?, Station.frame]
    · simp [hname, Station.listed]

/-- A task that is called on its loop moves its connection on. -/
lemma run_moves {l : ℕ} {task : ServerTask} (hwf : Wf cfg s) (hfree : s.Free l)
    (hl : l = task.target (cfg.loopOf task.conn)) (h : At cfg t s task.conn task.before) :
    ∃ s' out, s.run l task = some (s', out) ∧ Moves cfg t s task.conn task.after out s' := by
  subst hl
  cases task with
  | connectEstablished c => exact connectEstablished_moves hwf h
  | removeConnectionInLoop c => exact removeConnectionInLoop_moves hwf (hfree rfl) h
  | connectDestroyed c => exact connectDestroyed_moves hwf h

/-- A task that is queued moves its connection into the queue. -/
lemma queueInLoop_moves (task : ServerTask) (hwf : Wf cfg s)
    (h : At cfg t s task.conn task.before) :
    Moves cfg t s task.conn task.queuedAt []
      (s.queueInLoop (task.target (cfg.loopOf task.conn)) task) := by
  refine ⟨⟨hwf.nextConnId, hwf.next, hwf.conn, hwf.table⟩, ?_, ?_⟩
  · intro c' hne
    refine ⟨rfl, fun k => ?_, rfl, rfl, rfl⟩
    simp [tasksOf_queueInLoop, hne.symm]
  · have htasks : ∀ k, s.tasksOf task.conn k = [] := fun k => by
      rw [h.tasks]
      cases task <;> rfl
    rw [List.append_nil]
    refine h.requeue task.queuedAt_alike.symm rfl rfl rfl fun k => ?_
    rw [tasksOf_queueInLoop, htasks]
    simp [Station.tasks, task.task?_queuedAt]

/-- `runInLoop` does one or the other. -/
lemma runInLoop_moves (caller : ℕ) {l : ℕ} (task : ServerTask) (hwf : Wf cfg s)
    (hfree : s.Free caller) (hl : l = task.target (cfg.loopOf task.conn))
    (h : At cfg t s task.conn task.before) :
    ∃ s' out, s.runInLoop caller l task = some (s', out) ∧
      (Moves cfg t s task.conn task.after out s' ∨
        Moves cfg t s task.conn task.queuedAt out s') := by
  unfold runInLoop
  split
  · next heq =>
    obtain ⟨s', out, hrun, hmoves⟩ := run_moves hwf (heq ▸ hfree) hl h
    exact ⟨s', out, hrun, Or.inl hmoves⟩
  · exact ⟨_, _, rfl, Or.inr (hl ▸ queueInLoop_moves task hwf h)⟩

/-! ### Every step moves one connection -/

/-- The invariant: every connection is at one of its stations. -/
structure TableInv (cfg : ServerConfig) (t : List ServerEvent) (s : TcpServer) : Prop where
  wf : Wf cfg s
  station : ∀ c, ∃ st : Station, st.settled = true ∧ At cfg t s c st

/-- A step that moves one connection from a settled station keeps the invariant. -/
lemma TableInv.moves (h : TableInv cfg t s) (hst : st.settled = true)
    (hmoves : Moves cfg t s c st out s') : TableInv cfg (t ++ out) s' where
  wf := hmoves.wf
  station c' := by
    by_cases hc : c' = c
    · subst hc
      exact ⟨st, hst, hmoves.at_⟩
    · obtain ⟨st', hst', hat⟩ := h.station c'
      exact ⟨st', hst', hat.same (hmoves.others c' hc)⟩

/-- So does a step that leaves every connection alone. -/
lemma TableInv.same (h : TableInv cfg t s) (hwf : Wf cfg s')
    (hsame : ∀ c, SameFor cfg s out s' c) : TableInv cfg (t ++ out) s' where
  wf := hwf
  station c := by
    obtain ⟨st, hst, hat⟩ := h.station c
    exact ⟨st, hst, hat.same (hsame c)⟩

/-- The invariant holds of a new server. -/
lemma tableInv_new (cfg : ServerConfig) : TableInv cfg [] new where
  wf := by
    refine ⟨rfl, ?_, ?_, ?_⟩
    · simp [new]
    · intro c r hr
      simp [new] at hr
    · intro name c hentry
      simp [new] at hentry
  station c := ⟨.unborn, rfl, by simp [new, Station.states], fun _ => rfl, rfl, rfl, rfl⟩

/-- `getNextLoop` goes round. -/
lemma getNextLoop_eq (cfg : ServerConfig) (c : ℕ) :
    getNextLoop cfg.numThreads (if cfg.numThreads = 0 then 0 else c % cfg.numThreads) =
      (cfg.loopOf c, if cfg.numThreads = 0 then 0 else (c + 1) % cfg.numThreads) := by
  unfold getNextLoop ServerConfig.loopOf
  split
  · rfl
  · next hne =>
    have hlt := Nat.mod_lt c (Nat.pos_of_ne_zero hne)
    simp only [Prod.mk.injEq, true_and]
    rw [← Nat.mod_add_mod]
    split
    · next hlast => rw [hlast, Nat.mod_self]
    · next hlast => exact (Nat.mod_eq_of_lt (by omega)).symm

/-- A connection that has no record is unborn. -/
lemma At.unborn (h : At cfg t s c st) (hc : s.conns[c]? = none) : st = .unborn := by
  have hstate := h.state
  rw [hc] at hstate
  cases st <;> simp [Station.states] at hstate
  rfl

/-- `newConnection()` creates the connection of the next number under a name that is not taken. -/
lemma newConnection_moves (hwf : Wf cfg s) (hidle : s.frame = .idle) (hid : s.nextConnId < 2 ^ 63)
    (h : At cfg t s s.conns.length .unborn) :
    Moves cfg t s s.conns.length .fresh (s.newConnection cfg).2 (s.newConnection cfg).1 := by
  have hname : cfg.connName s.nextConnId = cfg.nameOf s.conns.length := by
    rw [cfg.connName_eq hid, hwf.nextConnId, ServerConfig.nameOf]
  have hentry : s.connections (cfg.nameOf s.conns.length) = none := h.table
  have hnext := getNextLoop_eq cfg s.conns.length
  rw [← hwf.next] at hnext
  simp only [newConnection, hnext, hname, hentry]
  refine ⟨⟨?_, ?_, ?_, ?_⟩, ?_, ?_⟩
  · simp [hwf.nextConnId]
  · simp
  · intro c r hr
    rcases Nat.lt_trichotomy c s.conns.length with hlt | rfl | hgt
    · rw [List.getElem?_append_left hlt] at hr
      exact hwf.conn c r hr
    · simp only [List.getElem?_concat_length, Option.some.injEq] at hr
      subst hr
      exact ⟨rfl, rfl⟩
    · rw [List.getElem?_eq_none (by simpa using hgt)] at hr
      cases hr
  · intro name c hname
    by_cases hn : name = cfg.nameOf s.conns.length
    · simp only [hn, Function.update_self, Option.some.injEq] at hname
      rw [hn, hname]
    · simp only [Function.update_of_ne hn] at hname
      exact hwf.table name c hname
  · intro c hne
    have hother : cfg.nameOf c ≠ cfg.nameOf s.conns.length := fun heq =>
      hne (cfg.nameOf_injective heq)
    refine ⟨?_, fun _ => rfl, ?_, Function.update_of_ne hother _ _, eventsOf_other hne⟩
    · rcases Nat.lt_or_ge c s.conns.length with hlt | hge
      · exact List.getElem?_append_left hlt
      · rw [List.getElem?_eq_none hge, List.getElem?_eq_none]
        simp only [List.length_append, List.length_singleton]
        omega
    · rw [frameOf_idle hidle]
      exact frameOf_other rfl (by simpa [ServerFrame.conn?] using hne.symm)
  · refine ⟨?_, h.tasks, ?_, ?_, h.history_snoc rfl rfl⟩
    · simp [Station.states]
    · simp [frameOf, ServerFrame.conn?, Station.frame]
    · simp [Station.listed]

/-- The function the base loop is in tells the station of its connection. -/
lemma At.frame_eq (h : At cfg t s c st) (hc : s.frame.conn? = some c) : s.frame = st.frame c := by
  rw [← h.frame, frameOf, if_pos hc]

/-- The base loop leaves the function it is in. -/
lemma leave_moves (hwf : Wf cfg s) (hc : s.frame.conn? = some c)
    (hout : ∀ c' ≠ c, eventsOf out c' = [])
    (h : At cfg (t ++ out) { s with frame := .idle } c st) :
    Moves cfg t s c st out { s with frame := .idle } := by
  refine ⟨⟨hwf.nextConnId, hwf.next, hwf.conn, hwf.table⟩, ?_, h⟩
  intro c' hne
  refine ⟨rfl, fun _ => rfl, ?_, rfl, hout c' hne⟩
  rw [frameOf_idle rfl]
  exact (frameOf_other rfl (by simpa [hc] using hne.symm)).symm

/-- `newConnection()` keeps the invariant. -/
lemma TableInv.newConnection (h : TableInv cfg t s) (hidle : s.frame = .idle)
    (hid : s.nextConnId < 2 ^ 63) :
    TableInv cfg (t ++ (s.newConnection cfg).2) (s.newConnection cfg).1 := by
  obtain ⟨st, -, hat⟩ := h.station s.conns.length
  have hst := hat.unborn (List.getElem?_eq_none le_rfl)
  subst hst
  exact h.moves rfl (newConnection_moves h.wf hidle hid hat)

/-- The second half of a call of the base loop succeeds and keeps the invariant. -/
lemma TableInv.resume (h : TableInv cfg t s) (hframe : s.frame ≠ .idle) :
    ∃ s' out, s.resume = some (s', out) ∧ TableInv cfg (t ++ out) s' := by
  unfold TcpServer.resume
  cases hf : s.frame with
  | idle => exact absurd hf hframe
  | newConnection c =>
    obtain ⟨st, -, hat⟩ := h.station c
    have hst := hat.frame_eq (by rw [hf]; rfl)
    have hfresh : st = .fresh := by
      cases st <;> simp [hf, Station.frame] at hst
      rfl
    subst hfresh
    obtain ⟨r, hr, -, hloop, -⟩ := hat.record h.wf (by simp [Station.states])
    have hleave : Moves cfg t s c .establishing [] { s with frame := .idle } := by
      refine leave_moves h.wf (by rw [hf]; rfl) (fun _ _ => rfl) ?_
      rw [List.append_nil]
      exact ⟨hat.state, hat.tasks, frameOf_idle rfl c, hat.table, hat.history⟩
    obtain ⟨s', out, hrun, hmoves⟩ :=
      runInLoop_moves 0 (.connectEstablished c) hleave.wf (fun _ => rfl) hloop hleave.at_
    simp only [hr]
    refine ⟨s', out, hrun, ?_⟩
    rcases hmoves with hmoves | hmoves
    · exact h.moves rfl (hleave.trans hmoves)
    · exact h.moves rfl (hleave.trans hmoves)
  | removeConnectionInLoop c =>
    obtain ⟨st, -, hat⟩ := h.station c
    have hst := hat.frame_eq (by rw [hf]; rfl)
    have herased : st = .erased := by
      cases st <;> simp [hf, Station.frame] at hst
      rfl
    subst herased
    obtain ⟨r, hr, -, hloop, -⟩ := hat.record h.wf (by simp [Station.states])
    simp only [hr, hloop]
    refine ⟨_, _, rfl, ?_⟩
    have hleave :
        Moves cfg t s c .destroying [.queued c (cfg.loopOf c)] { s with frame := .idle } :=
      leave_moves h.wf (by rw [hf]; rfl) (fun _ hne => eventsOf_other hne)
        ⟨hat.state, hat.tasks, frameOf_idle rfl c, hat.table, hat.history_snoc rfl rfl⟩
    have hqueue := queueInLoop_moves (.connectDestroyed c) hleave.wf hleave.at_
    exact h.moves rfl (hleave.trans hqueue)

/-- The next functor of a loop finds its connection where it was queued. -/
lemma call_moves {l : ℕ} {task : ServerTask} {rest : List ServerTask} (hwf : Wf cfg s)
    (h : At cfg t s task.conn st) (hl : s.functors l = task :: rest) :
    l = task.target (cfg.loopOf task.conn) ∧ Moves cfg t s task.conn task.before []
      { s with functors := Function.update s.functors l rest } := by
  have hfirst : s.tasksOf task.conn l =
      task :: (rest ++ s.pendingFunctors l).filter (·.conn = task.conn) := by
    simp [tasksOf, waiting, hl]
  have htasks := h.tasks l
  rw [hfirst, Station.tasks] at htasks
  split at htasks
  · cases htasks
  · next task' htask' =>
    split at htasks
    · next htarget =>
      -- the only task of the connection is the one that is called
      obtain ⟨rfl, hrest⟩ := List.cons.inj htasks
      have hst := Station.of_task? htask'
      subst hst
      refine ⟨htarget, ⟨hwf.nextConnId, hwf.next, hwf.conn, hwf.table⟩, ?_, ?_⟩
      · intro c' hne
        refine ⟨rfl, fun k => ?_, rfl, rfl, rfl⟩
        by_cases hk : k = l
        · subst hk
          simp [tasksOf, waiting, hl, hne.symm]
        · simp [tasksOf, waiting, hk]
      · rw [List.append_nil]
        have hnone : ∀ k, ({ s with functors := Function.update s.functors l rest } :
            TcpServer).tasksOf task.conn k = [] := by
          intro k
          by_cases hk : k = l
          · subst hk
            simpa [tasksOf, waiting] using hrest
          · have hother := h.tasks k
            rw [Station.tasks, htask'] at hother
            simp only [← htarget, hk, if_false] at hother
            simpa [tasksOf, waiting, hk] using hother
        refine h.requeue task.queuedAt_alike rfl rfl rfl fun k => ?_
        rw [hnone]
        cases task <;> rfl
    · cases htasks

/-- A queued task of a free loop runs without a failing assert and keeps the invariant. -/
lemma TableInv.call {l : ℕ} {task : ServerTask} {rest : List ServerTask} (h : TableInv cfg t s)
    (hfree : s.Free l) (hl : s.functors l = task :: rest) :
    ∃ s' out, ({ s with functors := Function.update s.functors l rest } : TcpServer).run l task =
      some (s', out) ∧ TableInv cfg (t ++ out) s' := by
  obtain ⟨st, -, hat⟩ := h.station task.conn
  obtain ⟨htarget, hcall⟩ := call_moves h.wf hat hl
  obtain ⟨s', out, hrun, hmoves⟩ := run_moves hcall.wf hfree htarget hcall.at_
  refine ⟨s', out, hrun, h.moves ?_ (hcall.trans hmoves)⟩
  cases task <;> rfl

/-- Only an established connection that has not been closed is open. -/
lemma At.up {r : ServerConn} (h : At cfg t s c st) (hr : s.conns[c]? = some r)
    (hopen : r.state = .KConnected ∨ r.state = .KDisconnecting) : st = .up := by
  have hstate := h.state
  rw [hr, Option.map_some] at hstate
  rcases hopen with hopen | hopen
  · rw [hopen] at hstate
    cases st <;> simp [Station.states] at hstate
    rfl
  · rw [hopen] at hstate
    cases st <;> simp [Station.states] at hstate
    rfl

/-- `handleClose()` of an open connection succeeds in its io loop and keeps the invariant. -/
lemma TableInv.handleClose {r : ServerConn} (h : TableInv cfg t s) (hr : s.conns[c]? = some r)
    (hfree : s.Free r.loop) (hopen : r.state = .KConnected ∨ r.state = .KDisconnecting) :
    ∃ s' out, s.handleClose c = some (s', out) ∧ TableInv cfg (t ++ out) s' := by
  obtain ⟨st, -, hat⟩ := h.station c
  have hup := hat.up hr hopen
  subst hup
  obtain ⟨-, hloop⟩ := h.wf.conn c r hr
  have hclose : Moves cfg t s c .removing [.closed c r.loop] (s.setState c r .KDisconnected) := by
    refine ⟨h.wf.setState hr _, fun c' hne => setState_sameFor r _ hne (eventsOf_other hne), ?_⟩
    refine ⟨?_, hat.tasks, hat.frame, hat.table, hat.history_snoc rfl (by rw [hloop]; rfl)⟩
    rw [setState_getElem? hr]
    simp [Station.states]
  obtain ⟨s', out, hrun, hmoves⟩ :=
    runInLoop_moves r.loop (.removeConnectionInLoop c) hclose.wf hfree rfl hclose.at_
  simp only [ServerTask.target] at hrun
  refine ⟨s', .closed c r.loop :: out, ?_, ?_⟩
  · simp only [TcpServer.handleClose, hr, if_pos hopen, hrun, Option.map_some]
  · rcases hmoves with hmoves | hmoves
    · exact h.moves rfl (hclose.trans hmoves)
    · exact h.moves rfl (hclose.trans hmoves)

/-- `forceClose()` from any thread keeps the invariant. -/
lemma TableInv.forceClose (h : TableInv cfg t s) (hc : c < s.conns.length) :
    ∃ s' out, s.forceClose c = some (s', out) ∧ TableInv cfg (t ++ out) s' := by
  have hr := List.getElem?_eq_getElem hc
  unfold TcpServer.forceClose
  simp only [hr]
  split
  · next hopen =>
    obtain ⟨st, -, hat⟩ := h.station c
    have hup := hat.up hr hopen
    subst hup
    have hmoves : Moves cfg t s c .up [] (s.setState c s.conns[c] .KDisconnecting) := by
      refine ⟨h.wf.setState hr _, fun c' hne => setState_sameFor _ _ hne rfl, ?_⟩
      rw [List.append_nil]
      refine ⟨?_, hat.tasks, hat.frame, hat.table, hat.history⟩
      rw [setState_getElem? hr]
      simp [Station.states]
    exact ⟨_, _, rfl, h.moves rfl hmoves⟩
  · exact ⟨_, _, rfl, by simpa using h⟩

/-- The step lemma: no assertion fails, and every connection is at one of its stations again. -/
theorem TableInv.step {act : ServerAct} (h : TableInv cfg t s) (hpre : s.pre cfg act) :
    ∃ s' out, s.step cfg act = some (s', out) ∧ TableInv cfg (t ++ out) s' := by
  cases act with
  | newConnection => exact ⟨_, _, rfl, h.newConnection hpre.1 hpre.2⟩
  | resume => exact h.resume hpre
  | swap l =>
    obtain ⟨-, -, hnil⟩ := hpre
    refine ⟨_, _, rfl, h.same ⟨h.wf.nextConnId, h.wf.next, h.wf.conn, h.wf.table⟩ ?_⟩
    intro c
    refine ⟨rfl, fun k => ?_, rfl, rfl, rfl⟩
    by_cases hk : k = l
    · subst hk
      simp [tasksOf, waiting, hnil]
    · simp [tasksOf, waiting, hk]
  | call l =>
    obtain ⟨hfree, hne⟩ := hpre
    cases hl : s.functors l with
    | nil => exact absurd hl hne
    | cons task rest =>
      simp only [TcpServer.step, hl]
      exact h.call hfree hl
  | forceClose c => exact h.forceClose hpre
  | handleClose c =>
    obtain ⟨r, hr, hfree, hopen⟩ := hpre
    exact h.handleClose hr hfree hopen

/-- The run lemma. -/
theorem tableInv_of_run (h : (serverMachine cfg).Run new t s) : TableInv cfg t s := by
  refine h.invariant (TableInv cfg) (tableInv_new cfg) fun t s act s' out hinv hpre hstep => ?_
  obtain ⟨s₁, out₁, hstep₁, hinv₁⟩ := hinv.step hpre
  have heq : some (s₁, out₁) = some (s', out) := hstep₁.symm.trans hstep
  cases heq
  exact hinv₁

/-! ### What the stations say -/

/-- An event has occurred if it belongs to the part of the life that is over. -/
lemma At.mem_iff (h : At cfg t s c st) {e : ServerEvent} (he : e.conn = c) :
    e ∈ t ↔ e ∈ (ServerEvent.life c (cfg.nameOf c) (cfg.loopOf c)).take st.rank := by
  rw [← h.history]
  simp [eventsOf, he]

/-- A connection past `unborn` has been inserted, once and under its own name. -/
lemma At.inserted_iff (h : At cfg t s c st) {name : List Char} {old : Option ℕ} :
    .inserted c name old ∈ t ↔ st ≠ .unborn ∧ name = cfg.nameOf c ∧ old = none := by
  rw [h.mem_iff rfl]
  cases st <;> simp [ServerEvent.life, Station.rank]

/-- It has been erased from the station `erased` on. -/
lemma At.erased_iff (h : At cfg t s c st) : .erased c ∈ t ↔ 4 ≤ st.rank := by
  rw [h.mem_iff rfl]
  cases st <;> simp [ServerEvent.life, Station.rank]

/-- It has been closed from the station `removing` on, and in its own loop. -/
lemma At.closed_iff (h : At cfg t s c st) {l : ℕ} :
    .closed c l ∈ t ↔ l = cfg.loopOf c ∧ 3 ≤ st.rank := by
  rw [h.mem_iff rfl]
  cases st <;> simp [ServerEvent.life, Station.rank]

/-- It has been destroyed at the last station only. -/
lemma At.destroyed_iff (h : At cfg t s c st) :
    .destroyed c (cfg.loopOf c) ∈ t ↔ st = .dead := by
  rw [h.mem_iff rfl]
  cases st <;> simp [ServerEvent.life, Station.rank]

/-- The table holds what has been inserted and not yet erased. -/
lemma TableInv.connections_iff (h : TableInv cfg t s) (name : List Char) (c : ℕ) :
    s.connections name = some c ↔ (∃ old, .inserted c name old ∈ t) ∧ .erased c ∉ t := by
  obtain ⟨st, -, hat⟩ := h.station c
  have htable := hat.table
  constructor
  · intro hentry
    have hname := h.wf.table name c hentry
    rw [← hname, hentry] at htable
    rw [hat.erased_iff]
    refine ⟨⟨none, hat.inserted_iff.mpr ⟨?_, hname, rfl⟩⟩, ?_⟩ <;>
      cases st <;> simp [Station.listed, Station.rank] at htable ⊢
  · rintro ⟨⟨old, hins⟩, herased⟩
    obtain ⟨hborn, rfl, -⟩ := hat.inserted_iff.mp hins
    rw [hat.erased_iff] at herased
    rw [htable]
    cases st <;> simp [Station.listed, Station.rank] at hborn herased ⊢

/-- A connection is strongly held: by the table, by a queued task, or by the task that runs. -/
def Held (s : TcpServer) (c : ℕ) : Prop :=
  (∃ name, s.connections name = some c) ∨ (∃ l, ∃ task ∈ s.waiting l, task.conn = c) ∨
    s.frame = .removeConnectionInLoop c

/-- Between its insertion and its destruction a connection is held by the map or by a task. -/
lemma TableInv.held (h : TableInv cfg t s) {name : List Char} {old : Option ℕ}
    (hins : .inserted c name old ∈ t) (hdestroyed : ∀ l, .destroyed c l ∉ t) : s.Held c := by
  obtain ⟨st, hst, hat⟩ := h.station c
  obtain ⟨hborn, -, -⟩ := hat.inserted_iff.mp hins
  have hdead : st ≠ .dead := fun heq => hdestroyed _ (hat.destroyed_iff.mpr heq)
  have htable := hat.table
  have hframe := hat.frame
  have htasks := hat.tasks (cfg.loopOf c)
  cases st with
  | unborn => exact absurd rfl hborn
  | dead => exact absurd rfl hdead
  | establishing => cases hst
  | removing => cases hst
  | destroying => cases hst
  | fresh => exact Or.inl ⟨_, htable⟩
  | posted => exact Or.inl ⟨_, htable⟩
  | up => exact Or.inl ⟨_, htable⟩
  | closing => exact Or.inl ⟨_, htable⟩
  | erased =>
    refine Or.inr (Or.inr ?_)
    unfold frameOf at hframe
    split at hframe
    · exact hframe
    · cases hframe
  | dying =>
    have hmem : .connectDestroyed c ∈ s.tasksOf c (cfg.loopOf c) := by
      rw [htasks]
      simp [Station.tasks, Station.task?, ServerTask.target]
    exact Or.inr (Or.inl ⟨_, _, (List.mem_filter.mp hmem).1, rfl⟩)

/-- The events of a connection are the beginning of its life. -/
lemma TableInv.life_of_mem (h : TableInv cfg t s) {e : ServerEvent} (he : e ∈ t) :
    ∃ r, s.conns[e.conn]? = some r ∧
      eventsOf t e.conn <+: ServerEvent.life e.conn r.name r.loop := by
  obtain ⟨st, -, hat⟩ := h.station e.conn
  have hborn : none ∉ st.states := by
    have hmem := (hat.mem_iff rfl).mp he
    cases st <;> simp [Station.rank, Station.states] at hmem ⊢
  obtain ⟨r, hr, hname, hloop, -⟩ := hat.record h.wf hborn
  refine ⟨r, hr, ?_⟩
  rw [hat.history, hname, hloop]
  exact List.take_prefix _ _

/-! ### The base loop on its own -/

/-- The steps of the base loop that finish what it has been given. -/
def BaseOnly (_ : TcpServer) (act : ServerAct) : Prop :=
  act = .resume ∨ act = .swap 0 ∨ act = .call 0

/-- How many steps a task of the base loop may still need once it has been swapped out. -/
def load : ServerTask → ℕ
  | .removeConnectionInLoop _ => 4
  | .connectEstablished _ | .connectDestroyed _ => 1

/-- How many steps the function that the base loop is in may still need. -/
def frameLoad : ServerFrame → ℕ
  | .idle => 0
  | .newConnection _ => 1
  | .removeConnectionInLoop _ => 3

/-- How many steps the base loop may still need. -/
def baseLoad (s : TcpServer) : ℕ :=
  frameLoad s.frame + ((s.functors 0).map load).sum +
    ((s.pendingFunctors 0).map fun task => load task + 1).sum

/-- A task of the base loop takes less work than it had left. -/
lemma baseLoad_run {l : ℕ} {task : ServerTask} (hidle : s.frame = .idle)
    (hrun : s.run l task = some (s', out)) : s'.baseLoad < s.baseLoad + load task := by
  cases task with
  | connectEstablished c =>
    simp only [TcpServer.run, connectEstablished] at hrun
    split at hrun
    · cases hrun
    · split at hrun
      · cases hrun
        exact Nat.lt_succ_self _
      · cases hrun
  | connectDestroyed c =>
    simp only [TcpServer.run, connectDestroyed] at hrun
    split at hrun
    · cases hrun
    · split at hrun
      · cases hrun
        exact Nat.lt_succ_self _
      · cases hrun
  | removeConnectionInLoop c =>
    simp only [TcpServer.run, removeConnectionInLoop] at hrun
    split at hrun
    · cases hrun
    · split at hrun
      · cases hrun
        simp only [baseLoad, hidle, frameLoad, load]
        omega
      · cases hrun

/-- What is queued to the base loop is added to its work. -/
lemma baseLoad_queueInLoop_base (s : TcpServer) (task : ServerTask) :
    (s.queueInLoop 0 task).baseLoad = s.baseLoad + (load task + 1) := by
  simp only [baseLoad, queueInLoop, Function.update_self, List.map_append, List.map_singleton,
    List.sum_append, List.sum_singleton]
  omega

/-- What is queued to another loop is not. -/
lemma baseLoad_queueInLoop_io (s : TcpServer) {l : ℕ} (hl : l ≠ 0) (task : ServerTask) :
    (s.queueInLoop l task).baseLoad = s.baseLoad := by
  simp only [baseLoad, queueInLoop, Function.update_of_ne (Ne.symm hl)]

/-- The work that a frame still has to do counts until the frame is left. -/
lemma baseLoad_leave (s : TcpServer) :
    ({ s with frame := .idle } : TcpServer).baseLoad + frameLoad s.frame = s.baseLoad := by
  simp only [baseLoad, frameLoad]
  omega

/-- The second half of a call lowers the work. -/
lemma baseLoad_resume (h : s.resume = some (s', out)) : s'.baseLoad < s.baseLoad := by
  have hleave := baseLoad_leave s
  unfold resume at h
  split at h
  · cases h
  · next hf =>
    rw [hf, frameLoad] at hleave
    split at h
    · cases h
    · unfold runInLoop at h
      split at h
      · have hrun := baseLoad_run rfl h
        rw [load] at hrun
        omega
      · next hl =>
        cases h
        rw [baseLoad_queueInLoop_io _ (Ne.symm hl)]
        omega
  · next hf =>
    rw [hf, frameLoad] at hleave
    split at h
    · cases h
    · next r hr =>
      cases h
      by_cases hl : r.loop = 0
      · rw [hl, baseLoad_queueInLoop_base, load]
        omega
      · rw [baseLoad_queueInLoop_io _ hl]
        omega

/-- Taking a task out of the queue and running it lowers the work. -/
lemma baseLoad_call {task : ServerTask} {rest : List ServerTask} (hidle : s.frame = .idle)
    (hl : s.functors 0 = task :: rest)
    (hrun : ({ s with functors := Function.update s.functors 0 rest } : TcpServer).run 0 task =
      some (s', out)) : s'.baseLoad < s.baseLoad := by
  have hpop : ({ s with functors := Function.update s.functors 0 rest } : TcpServer).baseLoad +
      load task = s.baseLoad := by
    simp only [baseLoad, hl, Function.update_self, List.map_cons, List.sum_cons]
    omega
  have hless : s'.baseLoad < ({ s with functors := Function.update s.functors 0 rest } :
      TcpServer).baseLoad + load task := by
    refine baseLoad_run ?_ hrun
    exact hidle
  omega

/-- Being queued costs one more for each task. -/
lemma sum_load_lt {tasks : List ServerTask} (h : tasks ≠ []) :
    (tasks.map load).sum < (tasks.map fun task => load task + 1).sum := by
  apply List.sum_lt_sum_of_ne_nil h
  intro task _
  exact Nat.lt_succ_self _

/-- The base loop has nothing left to do. -/
def BaseIdle (s : TcpServer) : Prop :=
  s.frame = .idle ∧ s.functors 0 = [] ∧ s.pendingFunctors 0 = []

/-- A base loop that has something to do can do it, and has less to do afterwards. -/
lemma TableInv.progress (h : TableInv cfg t s) (hbusy : ¬ s.BaseIdle) :
    ∃ act s' out, s.BaseOnly act ∧ s.pre cfg act ∧ s.step cfg act = some (s', out) ∧
      s'.baseLoad < s.baseLoad ∧ TableInv cfg (t ++ out) s' := by
  by_cases hframe : s.frame = .idle
  · cases hl : s.functors 0 with
    | cons task rest =>
      have hpre : s.pre cfg (.call 0) := ⟨fun _ => hframe, by simp [hl]⟩
      obtain ⟨s', out, hstep, hinv⟩ := h.step hpre
      refine ⟨.call 0, s', out, Or.inr (Or.inr rfl), hpre, hstep, ?_, hinv⟩
      simp only [TcpServer.step, hl] at hstep
      exact baseLoad_call hframe hl hstep
    | nil =>
      have hpending : s.pendingFunctors 0 ≠ [] := fun hnil => hbusy ⟨hframe, hl, hnil⟩
      have hpre : s.pre cfg (.swap 0) := ⟨Nat.zero_le _, fun _ => hframe, hl⟩
      obtain ⟨s', out, hstep, hinv⟩ := h.step hpre
      refine ⟨.swap 0, s', out, Or.inr (Or.inl rfl), hpre, hstep, ?_, hinv⟩
      cases hstep
      have hless := sum_load_lt hpending
      simp only [baseLoad, hl, Function.update_self, List.map_nil, List.sum_nil]
      omega
  · have hpre : s.pre cfg .resume := hframe
    obtain ⟨s', out, hstep, hinv⟩ := h.step hpre
    exact ⟨.resume, s', out, Or.inl rfl, hpre, hstep, baseLoad_resume hstep, hinv⟩

/-- From every state the base loop, on its own, gets to the end of what it has to do. -/
lemma TableInv.drains (h : TableInv cfg t s) :
    ∃ t' s', ((serverMachine cfg).restrict BaseOnly).Run s t' s' ∧ s'.BaseIdle ∧
      TableInv cfg (t ++ t') s' := by
  -- by induction on the load
  induction hn : s.baseLoad using Nat.strong_induction_on generalizing s t with
  | _ n ih =>
    by_cases hidle : s.BaseIdle
    · exact ⟨[], s, .nil, hidle, by simpa using h⟩
    · obtain ⟨act, s₁, out, honly, hpre, hstep, hless, hinv⟩ := h.progress hidle
      obtain ⟨t', s', hrun, hidle', hinv'⟩ := ih _ (hn ▸ hless) hinv rfl
      refine ⟨out ++ t', s', .cons act ⟨hpre, honly⟩ hstep hrun, hidle', ?_⟩
      rw [← List.append_assoc]
      exact hinv'

/-- Once the base loop has nothing left to do, `connectDestroyed` has been queued exactly once for
every connection that has been closed. -/
lemma TableInv.queued_once (h : TableInv cfg t s) (hidle : s.BaseIdle) {l : ℕ}
    (hclosed : .closed c l ∈ t) : t.count (.queued c l) = 1 := by
  obtain ⟨hframe, hfunctors, hpending⟩ := hidle
  obtain ⟨st, hst, hat⟩ := h.station c
  obtain ⟨rfl, hrank⟩ := hat.closed_iff.mp hclosed
  have hnone : st.tasks c (cfg.loopOf c) 0 = [] := by
    rw [← hat.tasks, tasksOf, waiting, hfunctors, hpending]
    rfl
  have hnoframe : st.frame c = .idle := by rw [← hat.frame, frameOf_idle hframe]
  have hcount : t.count (.queued c (cfg.loopOf c)) =
      (eventsOf t c).count (.queued c (cfg.loopOf c)) := by
    rw [eventsOf, List.count_filter (by simp [ServerEvent.conn])]
  rw [hcount, hat.history]
  cases st <;> simp [Station.rank, Station.settled, Station.tasks, Station.task?,
    ServerTask.target, Station.frame] at hrank hst hnone hnoframe
  all_goals simp [Station.rank, ServerEvent.life]

/-- The connection table is exact.  In every interleaving of the loops: the table holds the
connections that have been inserted and not erased; names are whole, no two are equal and no
insertion meets another entry; no assertion fails, `assert(n == 1)` included; the events of a
connection are the beginning of its life, so that `connectDestroyed` is queued at most once, on the
loop of the connection and after `connectEstablished`; the base loop, on its own, gets to a state
where it has been queued for every connection closed so far; and a connection is held until its
`connectDestroyed` has run. -/
theorem connection_table_exact (h : (serverMachine cfg).Run new t s) :
    (∀ name c, s.connections name = some c ↔
      (∃ old, .inserted c name old ∈ t) ∧ .erased c ∉ t) ∧
    (∀ c name old, .inserted c name old ∈ t →
      name = cfg.name ++ cfg.suffix (c + 1) ∧ old = none) ∧
    (∀ c c' name old old', .inserted c name old ∈ t → .inserted c' name old' ∈ t → c = c') ∧
    (∀ act, s.pre cfg act → (s.step cfg act).isSome = true) ∧
    (∀ e ∈ t, ∃ r, s.conns[e.conn]? = some r ∧
      eventsOf t e.conn <+: ServerEvent.life e.conn r.name r.loop) ∧
    (∃ t' s', ((serverMachine cfg).restrict BaseOnly).Run s t' s' ∧
      ∀ c l, .closed c l ∈ t → (t ++ t').count (.queued c l) = 1) ∧
    (∀ c name old, .inserted c name old ∈ t → (∀ l, .destroyed c l ∉ t) → s.Held c) := by
  have hinv := tableInv_of_run h
  have hname : ∀ c name old, .inserted c name old ∈ t → name = cfg.nameOf c ∧ old = none := by
    intro c name old hins
    obtain ⟨st, -, hat⟩ := hinv.station c
    exact (hat.inserted_iff.mp hins).2
  refine ⟨hinv.connections_iff, hname, ?_, ?_, fun e he => hinv.life_of_mem he, ?_,
    fun c name old hins hdestroyed => hinv.held hins hdestroyed⟩
  · intro c c' name old old' hins hins'
    exact cfg.nameOf_injective ((hname c name old hins).1.symm.trans (hname c' name old' hins').1)
  · intro act hpre
    obtain ⟨s', out, hstep, -⟩ := hinv.step hpre
    rw [hstep]
    rfl
  · obtain ⟨t', s', hrun, hidle, hinv'⟩ := hinv.drains
    exact ⟨t', s', hrun, fun c l hclosed =>
      hinv'.queued_once hidle (List.mem_append_left _ hclosed)⟩

/-- A server called `d` that listens on `127.0.0.1`, port 80, with two io threads. -/
def twoThreads : ServerConfig := ⟨⟨127, 0, 0, 1, 80⟩, ['d'], 2⟩

/-- Two connections on two loops.  The first has been closed and erased and its `connectDestroyed`
is queued, the second is still to be established. -/
theorem connection_table_exact_two :
    ∃ t s, (serverMachine twoThreads).Run new t s ∧
      (.erased 0 ∈ t ∧ s.pendingFunctors 1 = [.connectDestroyed 0] ∧
        s.pendingFunctors 2 = [.connectEstablished 1]) ∧
      (s.connections (twoThreads.name ++ twoThreads.suffix 1) ≠ some 0) ∧ s.Held 0 := by
  obtain ⟨t, s, hrun, ⟨herased, hone, htwo⟩, hins, hdestroyed⟩ :=
    (serverMachine twoThreads).exists_run_of_exec new
      [.newConnection, .resume, .swap 1, .call 1, .newConnection, .resume, .handleClose 0, .swap 0,
        .call 0, .resume]
      (fun s t => (.erased 0 ∈ t ∧ s.pendingFunctors 1 = [.connectDestroyed 0] ∧
        s.pendingFunctors 2 = [.connectEstablished 1]) ∧
        .inserted 0 (twoThreads.connName 1) none ∈ t ∧ t.all fun
          | .destroyed _ _ => false
          | _ => true) (by decide)
  obtain ⟨htable, -, -, -, -, -, hheld⟩ := connection_table_exact hrun
  refine ⟨t, s, hrun, ⟨herased, hone, htwo⟩, ?_, hheld 0 _ none hins ?_⟩
  · rw [Ne, htable]
    exact fun hin => hin.2 herased
  · intro l hmem
    have hfalse := List.all_eq_true.mp hdestroyed _ hmem
    cases hfalse

end TcpServer

end MuduoServer
