import MuduoServer.Tcp.Client

/-!
# The slot of a client

`connection_` should be the one connection of the client that is not down.  Nothing makes it so:
`newConnection` does not look whether the slot is taken, and between the callback of `handleClose`
and its `closeCallback_` the slot still holds the old connection.  What is proved here is that this
is the only flaw.  As long as every `newConnection` finds the slot empty, the slot is the live
connection, `removeConnection` empties it of its own argument, and no live connection loses its last
owner.  A `newConnection` that finds the slot taken always leads to one of the two failures.
-/

namespace MuduoServer

namespace TcpClient

variable {s s' : TcpClient} {t : List ClientEvent} {c : ℕ}

/-! ### Which connections are live -/

/-- Whether a connection is live depends on the states alone. -/
lemma live_congr (h : s'.conns = s.conns) : s'.Live c ↔ s.Live c := by
  unfold Live
  rw [h]

/-- An open connection is live. -/
lemma Open.live (h : s.Open c) : s.Live c := by
  rcases h with h | h
  · exact ⟨_, h, by simp⟩
  · exact ⟨_, h, by simp⟩

/-- Only the new connection has become live. -/
lemma live_newConnection (h : s.newConnection.1.Live c) : s.Live c ∨ c = s.conns.length := by
  obtain ⟨state, hmem, hstate⟩ := h
  rcases Nat.lt_trichotomy c s.conns.length with hlt | heq | hgt
  · refine Or.inl ⟨state, ?_, hstate⟩
    simpa [newConnection, List.getElem?_append_left hlt] using hmem
  · exact Or.inr heq
  · rw [newConnection, List.getElem?_eq_none (by simpa using hgt)] at hmem
    cases hmem

/-- `newConnection` leaves the live connections live. -/
lemma Live.newConnection (h : s.Live c) : s.newConnection.1.Live c := by
  obtain ⟨state, hmem, hstate⟩ := h
  obtain ⟨hlt, -⟩ := List.getElem?_eq_some_iff.mp hmem
  exact ⟨state, (List.getElem?_append_left hlt).trans hmem, hstate⟩

/-- The connection that has just been made. -/
lemma live_length (s : TcpClient) : s.newConnection.1.Live s.conns.length :=
  ⟨.KConnected, List.getElem?_concat_length, by simp⟩

/-- The closed connection is not live any more, and no other has become so. -/
lemma live_handleClose {c' : ℕ} (h : (s.handleClose c).Live c') : s.Live c' ∧ c' ≠ c := by
  obtain ⟨state, hmem, hstate⟩ := h
  by_cases hc : c = c'
  · subst hc
    simp only [handleClose, List.getElem?_set, if_true, Option.mem_def] at hmem
    split at hmem
    · cases hmem
      exact absurd rfl hstate
    · cases hmem
  · refine ⟨⟨state, ?_, hstate⟩, fun heq => hc heq.symm⟩
    simpa [handleClose, List.getElem?_set_ne hc] using hmem

/-- `KDisconnecting` is still live. -/
lemma live_set {c' : ℕ} (h : s.Live c) :
    ({ s with conns := s.conns.set c .KDisconnecting } : TcpClient).Live c' ↔ s.Live c' := by
  obtain ⟨state, hmem, -⟩ := id h
  obtain ⟨hlt, -⟩ := List.getElem?_eq_some_iff.mp hmem
  by_cases hc : c = c'
  · subst hc
    exact ⟨fun _ => h, fun _ => ⟨_, List.getElem?_set_self hlt, by simp⟩⟩
  · unfold Live
    rw [List.getElem?_set_ne hc]

/-! ### The invariant -/

/-- The step runs `newConnection`. -/
def NewConnects (s : TcpClient) : ClientAct → Prop
  | .loopConnected errn => errn.outcome = .newConnection
  | .runTask => s.tasks.head? = some .newConnection
  | _ => False

instance (s : TcpClient) (act : ClientAct) : Decidable (s.NewConnects act) := by
  apply ClientAct.casesOn (motive := fun act => Decidable (s.NewConnects act)) act <;>
    intros <;> unfold NewConnects <;> infer_instance

/-- A step that runs `newConnection` finds the slot empty. -/
def SlotFree (s : TcpClient) (act : ClientAct) : Prop := s.NewConnects act → s.connection = none

instance (s : TcpClient) (act : ClientAct) : Decidable (s.SlotFree act) :=
  inferInstanceAs (Decidable (_ → _))

/-- The calls of `handleClose` that have still to call `closeCallback_`. -/
def downs (s : TcpClient) : List ClientFrame := s.stack.filter ClientFrame.isDown

/-- The slot is the live connection, or the one that is being closed. -/
structure SlotInv (s : TcpClient) : Prop where
  live : ∀ c, s.Live c → s.connection = some c
  taken : ∀ c, s.connection = some c → c < s.conns.length ∧
    (s.Live c ∧ s.downs = [] ∨ ¬ s.Live c ∧ s.downs = [.down c])
  empty : s.connection = none → s.downs = []
  /-- While the loop thread is in `connect`, it does nothing else. -/
  top : ∀ f ∈ s.stack.tail, f ≠ .connect

/-- The invariant holds of a new client. -/
lemma slotInv_new : SlotInv new where
  live c h := by
    obtain ⟨state, hmem, -⟩ := h
    simp [new] at hmem
  taken _ h := by cases h
  empty _ := rfl
  top _ h := by cases h

namespace SlotInv

/-- A step that touches neither the slot nor a connection nor the calls of `handleClose`. -/
lemma of_same (h : SlotInv s) (hslot : s'.connection = s.connection) (hconns : s'.conns = s.conns)
    (hdowns : s'.downs = s.downs) (htop : ∀ f ∈ s'.stack.tail, f ≠ .connect) : SlotInv s' where
  live c hc := hslot.trans (h.live c ((live_congr hconns).mp hc))
  taken c hc := by
    rw [live_congr hconns, hdowns, hconns]
    exact h.taken c (hslot.symm.trans hc)
  empty hnone := hdowns.trans (h.empty (hslot.symm.trans hnone))
  top := htop

/-- No frame is a call of `connect`, once the one on top is gone. -/
lemma pop {f : ClientFrame} {rest : List ClientFrame} (h : SlotInv s)
    (hstack : s.stack = f :: rest) : ∀ g ∈ rest, g ≠ .connect := by
  have htop := h.top
  rw [hstack] at htop
  exact htop

/-- In user code, the loop thread is in no call of `connect`. -/
lemma atUser (h : SlotInv s) (huser : s.atUser) : ∀ f ∈ s.stack, f ≠ .connect := by
  cases hstack : s.stack with
  | nil => simp
  | cons g rest =>
    intro f hf
    rcases List.mem_cons.mp hf with rfl | hf
    · rintro rfl
      exact huser (by rw [hstack]; rfl)
    · exact h.pop hstack f hf

/-- `newConnection` that finds the slot empty keeps the invariant. -/
lemma newConnection (h : SlotInv s) (hslot : s.connection = none)
    (hstack : ∀ f ∈ s.stack, f ≠ .connect) : SlotInv s.newConnection.1 where
  live c hc := by
    rcases live_newConnection hc with hc | rfl
    · rw [h.live c hc] at hslot
      cases hslot
    · rfl
  taken c hc := by
    cases hc
    exact ⟨by simp [TcpClient.newConnection], Or.inl ⟨s.live_length, h.empty hslot⟩⟩
  empty hnone := by cases hnone
  top := hstack

/-- `handleClose` of an open connection keeps it: the slot is emptied when the callback returns. -/
lemma handleClose (h : SlotInv s) (hopen : s.Open c) (hdowns : s.downs = [])
    (hstack : ∀ f ∈ s.stack, f ≠ .connect) : SlotInv (s.handleClose c) where
  live c' hc' := h.live c' (live_handleClose hc').1
  taken c' hc' := by
    have hslot : s.connection = some c' := hc'
    rw [h.live c hopen.live] at hslot
    cases hslot
    refine ⟨by simpa [TcpClient.handleClose] using (h.taken c hc').1, Or.inr ⟨?_, ?_⟩⟩
    · exact fun hl => (live_handleClose hl).2 rfl
    · exact congrArg (ClientFrame.down c :: ·) hdowns
  empty hnone := by
    have hslot : s.connection = none := hnone
    rw [h.live c hopen.live] at hslot
    cases hslot
  top := hstack

/-- `forceClose` keeps it. -/
lemma forceClose (h : SlotInv s) (c : ℕ) : SlotInv (s.forceClose c) := by
  unfold TcpClient.forceClose
  split
  · next hopen =>
    have hlive : ∀ c', ({ s with
        conns := s.conns.set c .KDisconnecting
        tasks := s.tasks ++ [.forceCloseInLoop c] } : TcpClient).Live c' ↔ s.Live c' :=
      fun _ => live_set hopen.live
    refine ⟨fun c' hc' => h.live c' ((hlive c').mp hc'), fun c' hc' => ?_, h.empty, h.top⟩
    rw [hlive, List.length_set]
    exact h.taken c' hc'
  · exact h

/-- The slot holds the connection that is being closed, and no other one is. -/
lemma of_down {rest : List ClientFrame} (h : SlotInv s) (hstack : s.stack = .down c :: rest) :
    s.connection = some c ∧ ¬ s.Live c ∧ rest.filter ClientFrame.isDown = [] := by
  have hdowns : s.downs = .down c :: rest.filter ClientFrame.isDown := by
    rw [TcpClient.downs, hstack]
    rfl
  cases hslot : s.connection with
  | none =>
    rw [h.empty hslot] at hdowns
    cases hdowns
  | some c' =>
    rcases (h.taken c' hslot).2 with ⟨-, hnil⟩ | ⟨hdead, hone⟩
    · rw [hnil] at hdowns
      cases hdowns
    · rw [hdowns] at hone
      obtain ⟨heq, hrest⟩ := List.cons.inj hone
      cases heq
      exact ⟨rfl, hdead, hrest⟩

/-- The return of a function keeps it, and that of the close callback empties the slot. -/
lemma leave {f : ClientFrame} {rest : List ClientFrame} (h : SlotInv s)
    (hstack : s.stack = f :: rest) : SlotInv ({ s with stack := rest }.leave f).1 := by
  have htop : ∀ g ∈ rest.tail, g ≠ .connect := fun g hg => h.pop hstack g (List.mem_of_mem_tail hg)
  cases f with
  | down c =>
    obtain ⟨hslot, hdead, hrest⟩ := h.of_down hstack
    refine ⟨fun c' hc' => ?_, nofun, fun _ => hrest, htop⟩
    have hslot' := h.live c' hc'
    rw [hslot] at hslot'
    cases hslot'
    exact absurd hc' hdead
  | connect | up c | dispatch c =>
    refine h.of_same rfl rfl ?_ htop
    rw [TcpClient.downs, TcpClient.downs, hstack]
    rfl

/-- What follows a `connect` keeps it. -/
lemma connected (h : SlotInv s) (errn : ConnectErrno) : SlotInv (s.connected errn).1 := by
  unfold TcpClient.connected
  split
  · exact h.of_same rfl rfl rfl h.top
  · exact h.of_same rfl rfl rfl h.top
  · exact h.of_same rfl rfl rfl h.top

/-- So does a `connect` on the loop thread, if the slot is empty for the new connection. -/
lemma loopConnected {errn : ConnectErrno} (h : SlotInv s) (hstack : ∀ f ∈ s.stack, f ≠ .connect)
    (hfree : errn.outcome = .newConnection → s.connection = none) :
    SlotInv (s.loopConnected errn).1 := by
  unfold TcpClient.loopConnected
  split
  · next hout => exact h.newConnection (hfree hout) hstack
  · exact h.of_same rfl rfl rfl h.top
  · exact h.of_same rfl rfl rfl h.top

/-- So does a task, under the same condition. -/
lemma run {task : ClientTask} (h : SlotInv s) (hstack : s.stack = [])
    (hfree : task = .newConnection → s.connection = none) : SlotInv (s.run task).1 := by
  cases task with
  | newConnection => exact h.newConnection (hfree rfl) (by simp [hstack])
  | forceCloseInLoop c =>
    simp only [TcpClient.run]
    split
    · next hopen => exact h.handleClose hopen (by simp [TcpClient.downs, hstack]) (by simp [hstack])
    · exact h

/-- The result of `connect` on the loop thread: the call is over. -/
lemma popConnect {rest : List ClientFrame} (h : SlotInv s) (hstack : s.stack = .connect :: rest) :
    SlotInv { s with stack := s.stack.tail } := by
  refine h.of_same rfl rfl ?_ fun f hf => h.top f (List.mem_of_mem_tail hf)
  simp [TcpClient.downs, hstack, ClientFrame.isDown]

/-- The step lemma. -/
theorem step {act : ClientAct} (h : SlotInv s) (hpre : s.guard act) (hfree : s.SlotFree act) :
    SlotInv (s.step act).1 := by
  cases act with
  | connect => exact h.of_same rfl rfl rfl h.top
  | connected errn =>
    have hless : SlotInv { s with connecting := s.connecting - 1 } := h.of_same rfl rfl rfl h.top
    exact hless.connected errn
  | loopConnect => exact h.of_same rfl rfl rfl (h.atUser hpre)
  | loopConnected errn =>
    obtain ⟨rest, hstack⟩ := List.head?_eq_some_iff.mp hpre
    exact (h.popConnect hstack).loopConnected h.top hfree
  | runTask =>
    obtain ⟨hstack, htasks⟩ := hpre
    simp only [TcpClient.step]
    split
    · exact h
    · next task rest heq =>
      have hpop : SlotInv { s with tasks := rest } := h.of_same rfl rfl rfl h.top
      refine hpop.run hstack fun htask => hfree ?_
      simp [NewConnects, heq, htask]
  | retryInLoop =>
    have hstack : s.stack = [] := hpre.1
    exact h.of_same rfl rfl rfl (by simp [TcpClient.step, hstack])
  | finish =>
    simp only [TcpClient.step]
    split
    · exact h
    · next f rest hstack => exact h.leave hstack
  | dispatch c =>
    have hstack : s.stack = [] := hpre.1
    exact h.of_same rfl rfl rfl (by simp [TcpClient.step, hstack])
  | handleClose c =>
    obtain ⟨hstack, hopen⟩ := hpre
    refine h.handleClose hopen ?_ (by simp [hstack])
    simp [TcpClient.downs, hstack, ClientFrame.isDown]
  | forceClose c => exact h.forceClose c
  | takeHandle c => exact h.of_same rfl rfl rfl h.top
  | dropHandle c => exact h.of_same rfl rfl rfl h.top

end SlotInv

/-- `removeConnection` is called with what the slot holds. -/
lemma SlotInv.removed {act : ClientAct} {old : Option ℕ} (h : SlotInv s)
    (hmem : .removeConnection c old ∈ (s.step act).2) : old = some c := by
  rcases mem_step_events hmem with ⟨_, _, heq⟩ | heq | ⟨c', rest, hstack, heq⟩
  · cases heq
  · cases heq
  · cases heq
    exact (h.of_down hstack).1

/-- The run lemma. -/
theorem slotInv_of_run (h : (clientMachine.restrict SlotFree).Run new t s) :
    SlotInv s ∧ ∀ c old, .removeConnection c old ∈ t → old = some c := by
  refine h.invariant
    (fun t s => SlotInv s ∧ ∀ c old, .removeConnection c old ∈ t → old = some c)
    ⟨slotInv_new, by simp⟩ fun t s act s' out hinv hpre hstep => ?_
  obtain ⟨⟨-, hguard⟩, hfree⟩ := hpre
  have heq : s.step act = (s', out) := Option.some.inj hstep
  have hslot := hinv.1.step hguard hfree
  rw [heq] at hslot
  refine ⟨hslot, fun c old hmem => ?_⟩
  rcases List.mem_append.mp hmem with hmem | hmem
  · exact hinv.2 c old hmem
  · exact hinv.1.removed (by rw [heq]; exact hmem)

/-! ### The condition is needed -/

/-- A step that runs `newConnection` does nothing else. -/
lemma NewConnects.step_eq {act : ClientAct} (h : SlotInv s) (hpre : s.pre act)
    (hnew : s.NewConnects act) : ∃ p, s.step act = p.newConnection ∧ SlotInv p ∧
      p.connection = s.connection ∧ p.aborted = false ∧ ∀ f ∈ p.stack, f ≠ .connect := by
  obtain ⟨haborted, hguard⟩ := hpre
  cases act with
  | loopConnected errn =>
    have hout : errn.outcome = .newConnection := hnew
    obtain ⟨rest, hstack⟩ := List.head?_eq_some_iff.mp hguard
    refine ⟨{ s with stack := s.stack.tail }, ?_, h.popConnect hstack, rfl, haborted, h.top⟩
    simp only [TcpClient.step, loopConnected, hout]
  | runTask =>
    obtain ⟨rest, htasks⟩ := List.head?_eq_some_iff.mp hnew
    have hstack : s.stack = [] := hguard.1
    refine ⟨{ s with tasks := rest }, ?_, h.of_same rfl rfl rfl h.top, rfl, haborted, ?_⟩
    · simp only [TcpClient.step, htasks, run]
    · simp [hstack]
  | _ => cases hnew

/-- The loop thread comes back from callbacks and dispatches that are not in `handleClose`. -/
lemma unwind (l rest : List ClientFrame) (haborted : s.aborted = false)
    (hstack : s.stack = l ++ rest) (hl : ∀ f ∈ l, f ≠ .connect ∧ f.isDown = false) :
    clientMachine.Run s [] { s with stack := rest } := by
  induction l generalizing s with
  | nil =>
    have heq : { s with stack := rest } = s := by rw [← hstack.trans (List.nil_append rest)]
    rw [heq]
    exact .nil
  | cons f l ih =>
    obtain ⟨hconnect, hdown⟩ := hl f (List.mem_cons_self ..)
    have hpre : s.pre .finish := by
      refine ⟨haborted, ?_, ?_⟩
      · simp [hstack]
      · simpa [TcpClient.atUser, hstack] using hconnect
    have hstep : s.step .finish = ({ s with stack := l ++ rest }, []) := by
      simp only [TcpClient.step, hstack, List.cons_append]
      cases f with
      | down c => cases hdown
      | connect | up c | dispatch c => rfl
    have hrun := ih (s := { s with stack := l ++ rest }) haborted rfl
      fun g hg => hl g (List.mem_cons_of_mem _ hg)
    exact .cons ClientAct.finish hpre (congrArg some hstep) hrun

/-- Two connections are live, or `removeConnection` has dropped another one than its argument. -/
def Fails (t : List ClientEvent) (s : TcpClient) : Prop :=
  (s.stack = [] ∧ ∃ c c', c ≠ c' ∧ s.Live c ∧ s.Live c') ∨
    ∃ c c', c ≠ c' ∧ .removeConnection c (some c') ∈ t

/-- A `newConnection` that finds the slot taken leads to a failure, once the loop thread has come
back from where it is. -/
lemma SlotInv.newConnection_fails (h : SlotInv s) (hslot : s.connection = some c)
    (haborted : s.aborted = false) (hstack : ∀ f ∈ s.stack, f ≠ .connect) :
    ∃ t' s', clientMachine.Run s.newConnection.1 t' s' ∧ Fails t' s' := by
  obtain ⟨hlt, hcases⟩ := h.taken c hslot
  have hne : c ≠ s.conns.length := Nat.ne_of_lt hlt
  have hframes : ∀ l : List ClientFrame, (∀ f ∈ l, f ≠ .connect ∧ f.isDown = false) →
      ∀ f ∈ ClientFrame.up s.conns.length :: l, f ≠ .connect ∧ f.isDown = false := by
    intro l hl f hf
    rcases List.mem_cons.mp hf with rfl | hf
    · exact ⟨nofun, rfl⟩
    · exact hl f hf
  rcases hcases with ⟨hlive, hdowns⟩ | ⟨-, hdowns⟩
  · -- the old connection is live and stays so
    have hquiet : ∀ f ∈ s.stack, f ≠ .connect ∧ f.isDown = false := fun f hf =>
      ⟨hstack f hf, by simpa using List.filter_eq_nil_iff.mp hdowns f hf⟩
    have hrun := unwind (s := s.newConnection.1) (.up s.conns.length :: s.stack) [] haborted
      (List.append_nil _).symm (hframes _ hquiet)
    exact ⟨_, _, hrun, Or.inl ⟨rfl, c, _, hne, hlive.newConnection, s.live_length⟩⟩
  · -- the old connection is being closed, and its `removeConnection` is still to come
    obtain ⟨l, rest, hsplit, hl, -, -⟩ := List.filter_eq_cons_iff.mp hdowns
    have hquiet : ∀ f ∈ l, f ≠ .connect ∧ f.isDown = false := fun f hf =>
      ⟨hstack f (hsplit ▸ List.mem_append_left _ hf), by simpa using hl f hf⟩
    have hrun := unwind (s := s.newConnection.1) (.up s.conns.length :: l) (.down c :: rest)
      haborted (congrArg (ClientFrame.up s.conns.length :: ·) hsplit) (hframes _ hquiet)
    have hpre : clientMachine.pre { s.newConnection.1 with stack := .down c :: rest } .finish :=
      ⟨haborted, nofun, nofun⟩
    exact ⟨_, _, hrun.snoc hpre rfl, Or.inr ⟨c, s.conns.length, hne, List.mem_singleton_self _⟩⟩

/-- As long as every `newConnection` finds the slot empty: there is at most one live connection and
the slot is that one, `removeConnection` drops nothing but its own argument, and a live connection
has an owner.  A step in which `newConnection` finds the slot taken leads to a failure. -/
theorem slot_is_live_connection (h : (clientMachine.restrict SlotFree).Run new t s) :
    (∀ c, s.Live c → s.connection = some c ∧ ∀ c', s.Live c' → c' = c) ∧
      (∀ c old, .removeConnection c old ∈ t → old = some c) ∧ (∀ c, s.Live c → s.Owned c) ∧
      ∀ act, s.pre act → ¬ s.SlotFree act →
        ∃ t' s', clientMachine.Run (s.step act).1 t' s' ∧ Fails t' s' := by
  obtain ⟨hinv, hremoved⟩ := slotInv_of_run h
  refine ⟨fun c hc => ⟨hinv.live c hc, fun c' hc' => ?_⟩, hremoved,
    fun c hc => Or.inl (hinv.live c hc), fun act hpre hbroken => ?_⟩
  · have hslot := hinv.live c' hc'
    rw [hinv.live c hc] at hslot
    exact (Option.some.inj hslot).symm
  · obtain ⟨hnew, htaken⟩ := Classical.not_imp.mp hbroken
    obtain ⟨c, hslot⟩ := Option.ne_none_iff_exists'.mp htaken
    obtain ⟨p, hstep, hp, hsame, haborted, hstack⟩ := hnew.step_eq hinv hpre
    rw [hstep]
    exact hp.newConnection_fails (hsame.trans hslot) haborted hstack

/-- A first attempt fails and is retried, the connection is closed, and a second one is made. -/
theorem slot_is_live_connection_retry :
    ∃ t s, (clientMachine.restrict SlotFree).Run new t s ∧
      (.removeConnection 0 (some 0) ∈ t ∧ s.Live 1) ∧ s.connection = some 1 := by
  obtain ⟨t, s, hrun, hs⟩ := (clientMachine.restrict SlotFree).exists_run_of_exec new
    [.connect, .connected .ECONNREFUSED, .retryInLoop, .loopConnected .ok, .finish, .forceClose 0,
      .runTask, .finish, .connect, .connected .EINTR, .runTask]
    (fun s t => .removeConnection 0 (some 0) ∈ t ∧ s.Live 1) (by decide)
  exact ⟨t, s, hrun, hs, ((slot_is_live_connection hrun).1 1 hs.2).1⟩

/-- Two attempts succeed one after the other, and both connections are live.  A user connects again
when told that the connection is down, and `removeConnection` drops the new connection, which is
live and has no other owner. -/
theorem slot_not_live_connection :
    (∃ t s, clientMachine.Run new t s ∧ s.stack = [] ∧ s.Live 0 ∧ s.Live 1) ∧
      ∃ t s, clientMachine.Run new t s ∧ s.stack = [] ∧ .removeConnection 0 (some 1) ∈ t ∧
        s.Live 1 ∧ ¬ s.Owned 1 := by
  constructor
  · exact clientMachine.exists_run_of_exec new
      [.connect, .connected .ok, .connect, .connected .ok, .runTask, .takeHandle 0, .finish,
        .runTask, .finish]
      (fun s _ => s.stack = [] ∧ s.Live 0 ∧ s.Live 1) (by decide)
  · exact clientMachine.exists_run_of_exec new
      [.connect, .connected .ok, .runTask, .finish, .dispatch 0, .handleClose 0, .loopConnect,
        .loopConnected .ok, .finish, .finish, .finish]
      (fun s t => s.stack = [] ∧ .removeConnection 0 (some 1) ∈ t ∧ s.Live 1 ∧ ¬ s.Owned 1)
      (by decide)

end TcpClient

end MuduoServer
