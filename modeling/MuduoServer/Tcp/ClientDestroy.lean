import MuduoServer.Tcp.Client

/-!
# The end of a client

`~TcpClient` may run on any thread and at any moment.  It calls `forceClose` on the connection it
finds in the slot, and then the members go.  The client is still known to its connections, whose
`closeCallback_` is bound to it, to the tasks and the timers that `connect` has left behind, and to
the calls of `connect` that have no result yet.  `ClientLife` adds the destructor to the client, in
two steps, and lets the loop go on.

`Forgotten` says that nobody knows the client any more.  If that holds when the destructor ends, it
holds ever after, and the client is not called again.
-/

namespace MuduoServer

/-- Where the client is in its life. -/
inductive ClientPhase where
  | alive
  /-- In `~TcpClient`, on the loop thread or on another one. -/
  | destructing (onLoop : Bool)
  | destroyed
  deriving DecidableEq, Repr

/-- A client with its destructor. -/
structure ClientLife where
  client : TcpClient
  phase : ClientPhase

/-- The steps of the client and those of its destructor. -/
inductive ClientLifeAct where
  | client (act : ClientAct)
  /-- `~TcpClient` up to `forceClose`. -/
  | beginDestroy (onLoop : Bool)
  /-- The members are destroyed, the slot with them. -/
  | endDestroy
  deriving DecidableEq, Repr

/-- The steps that only the loop thread takes. -/
def ClientAct.onLoop : ClientAct → Bool
  | .loopConnect | .loopConnected _ | .runTask | .retryInLoop | .finish | .dispatch _
  | .handleClose _ => true
  | .connect | .connected _ | .forceClose _ | .takeHandle _ | .dropHandle _ => false

/-- The steps with which users call `connect`. -/
def ClientAct.callsConnect : ClientAct → Bool
  | .connect | .loopConnect => true
  | _ => false

/-- The events that are calls of the client. -/
def ClientEvent.isCall : ClientEvent → Bool
  | .newConnection _ _ | .removeConnection _ _ | .retryInLoop => true
  | .destroyed => false

namespace ClientLife

/-- The client has been constructed. -/
def new : ClientLife where
  client := .new
  phase := .alive

/-- When a step can be taken.  The loop thread does nothing else while it is in the destructor, and
users do not call a client that they have destroyed. -/
def pre (s : ClientLife) : ClientLifeAct → Prop
  | .client act => s.client.pre act ∧ (act.onLoop = true → s.phase ≠ .destructing true) ∧
      (act.callsConnect = true → s.phase ≠ .destroyed)
  | .beginDestroy onLoop => s.phase = .alive ∧ s.client.aborted = false ∧
      (onLoop = true → s.client.atUser)
  | .endDestroy => s.client.aborted = false ∧
      (s.phase = .destructing true ∨ s.phase = .destructing false)

instance (s : ClientLife) (act : ClientLifeAct) : Decidable (s.pre act) := by
  unfold pre
  split <;> infer_instance

/-- The effect of a step. -/
def step (s : ClientLife) : ClientLifeAct → ClientLife × List ClientEvent
  | .client act => ({ s with client := (s.client.step act).1 }, (s.client.step act).2)
  | .beginDestroy onLoop =>
    match s.client.connection with
    | none => ({ s with phase := .destructing onLoop }, [])
    | some c => ({ client := s.client.forceClose c, phase := .destructing onLoop }, [])
  | .endDestroy =>
    ({ client := { s.client with connection := none }, phase := .destroyed }, [.destroyed])

end ClientLife

/-- All interleavings of the client, its destructor and the loop. -/
def clientLifeMachine : Machine ClientLife ClientLifeAct ClientEvent where
  pre s act := s.pre act
  step s act := some (s.step act)

instance (s : ClientLife) (act : ClientLifeAct) : Decidable (clientLifeMachine.pre s act) :=
  inferInstanceAs (Decidable (s.pre act))

namespace TcpClient

variable {s : TcpClient}

/-- Nobody knows the client: every connection is down and done with `handleClose`, no task and no
timer is bound to the client, and no `connect` is under way. -/
structure Forgotten (s : TcpClient) : Prop where
  conns : ∀ state ∈ s.conns, state = .KDisconnected
  stack : ∀ f ∈ s.stack, f.isDown = false ∧ f ≠ .connect
  tasks : .newConnection ∉ s.tasks
  retries : s.retries = 0
  connecting : s.connecting = 0

/-- The fields of `Forgotten` as a conjunction, which can be decided. -/
lemma forgotten_iff (s : TcpClient) : s.Forgotten ↔ (∀ state ∈ s.conns, state = .KDisconnected) ∧
    (∀ f ∈ s.stack, f.isDown = false ∧ f ≠ .connect) ∧ .newConnection ∉ s.tasks ∧
      s.retries = 0 ∧ s.connecting = 0 :=
  ⟨fun h => ⟨h.conns, h.stack, h.tasks, h.retries, h.connecting⟩,
    fun ⟨h₁, h₂, h₃, h₄, h₅⟩ => ⟨h₁, h₂, h₃, h₄, h₅⟩⟩

instance (s : TcpClient) : Decidable s.Forgotten := decidable_of_iff' _ s.forgotten_iff

/-- No connection of a forgotten client is open. -/
lemma Forgotten.not_open (h : s.Forgotten) (c : ℕ) : ¬ s.Open c := by
  intro hopen
  rcases hopen with hopen | hopen
  · exact absurd (h.conns _ (List.mem_of_getElem? hopen)) (by decide)
  · exact absurd (h.conns _ (List.mem_of_getElem? hopen)) (by decide)

/-- A client that nobody knows stays so, and it is not called. -/
lemma Forgotten.step {act : ClientAct} (h : s.Forgotten) (hpre : s.guard act)
    (huser : act.callsConnect = false) :
    (s.step act).1.Forgotten ∧ ∀ e ∈ (s.step act).2, e.isCall = false := by
  cases act with
  | connect => cases huser
  | loopConnect => cases huser
  | connected errn =>
    have hpos : 0 < s.connecting := hpre
    rw [h.connecting] at hpos
    cases hpos
  | loopConnected errn =>
    have hhead : s.stack.head? = some .connect := hpre
    exact absurd rfl (h.stack _ (List.mem_of_head? hhead)).2
  | runTask =>
    cases htasks : s.tasks with
    | nil => exact absurd htasks hpre.2
    | cons task rest =>
      have hrest : .newConnection ∉ task :: rest := htasks ▸ h.tasks
      cases task with
      | newConnection => exact absurd (List.mem_cons_self ..) hrest
      | forceCloseInLoop c =>
        -- the connection is down, so the task does nothing
        have hclosed : ¬ ({ s with tasks := rest } : TcpClient).Open c := h.not_open c
        simp only [TcpClient.step, htasks, run, if_neg hclosed]
        exact ⟨⟨h.conns, h.stack, fun hmem => hrest (List.mem_cons_of_mem _ hmem), h.retries,
          h.connecting⟩, by simp⟩
  | retryInLoop =>
    have hpos : 0 < s.retries := hpre.2
    rw [h.retries] at hpos
    cases hpos
  | finish =>
    cases hstack : s.stack with
    | nil => exact absurd hstack hpre.1
    | cons f rest =>
      have hrest : ({ s with stack := rest } : TcpClient).Forgotten :=
        ⟨h.conns, fun g hg => h.stack g (hstack ▸ List.mem_cons_of_mem _ hg), h.tasks, h.retries,
          h.connecting⟩
      have hf := h.stack f (hstack ▸ List.mem_cons_self ..)
      simp only [TcpClient.step, hstack]
      cases f with
      | down c => cases hf.1
      | _ => exact ⟨hrest, by simp [leave]⟩
  | dispatch c =>
    refine ⟨⟨h.conns, ?_, h.tasks, h.retries, h.connecting⟩, by simp [TcpClient.step]⟩
    intro f hf
    rcases List.mem_cons.mp hf with rfl | hf
    · exact ⟨rfl, by simp⟩
    · exact h.stack f hf
  | handleClose c => exact absurd hpre.2 (h.not_open c)
  | forceClose c =>
    simp only [TcpClient.step, forceClose, if_neg (h.not_open c)]
    exact ⟨h, by simp⟩
  | takeHandle c | dropHandle c =>
    exact ⟨⟨h.conns, h.stack, h.tasks, h.retries, h.connecting⟩, by simp [TcpClient.step]⟩

/-- Only the destructor emits `destroyed`. -/
lemma destroyed_not_mem_step (s : TcpClient) (act : ClientAct) : .destroyed ∉ (s.step act).2 := by
  intro hmem
  rcases mem_step_events hmem with ⟨_, _, heq⟩ | heq | ⟨_, _, _, heq⟩
  all_goals cases heq

end TcpClient

namespace ClientLife

variable {s : ClientLife} {t : List ClientEvent}

/-- When `~TcpClient` ends, nobody knows the client. -/
def EndsForgotten (s : ClientLife) (act : ClientLifeAct) : Prop :=
  act = .endDestroy → s.client.Forgotten

instance (s : ClientLife) (act : ClientLifeAct) : Decidable (s.EndsForgotten act) :=
  inferInstanceAs (Decidable (_ → _))

/-- The client is gone and nobody knows it. -/
def Gone (s : ClientLife) : Prop := s.phase = .destroyed ∧ s.client.Forgotten

/-- What is left when `~TcpClient` ends. -/
lemma gone_of_destroyed {act : ClientLifeAct} {l r : List ClientEvent} (hend : s.EndsForgotten act)
    (hout : (s.step act).2 = l ++ .destroyed :: r) : (s.step act).1.Gone ∧ r = [] := by
  cases act with
  | client act =>
    have hmem : .destroyed ∈ (s.client.step act).2 := by
      have heq : (s.client.step act).2 = l ++ .destroyed :: r := hout
      rw [heq]
      simp
    exact absurd hmem (s.client.destroyed_not_mem_step act)
  | beginDestroy onLoop =>
    simp only [step] at hout
    split at hout <;> simp at hout
  | endDestroy =>
    have hclient := hend rfl
    have hone : [.destroyed] = l ++ .destroyed :: r := hout
    refine ⟨⟨rfl, hclient.conns, hclient.stack, hclient.tasks, hclient.retries,
      hclient.connecting⟩, ?_⟩
    have hlength := congrArg List.length hone
    simp only [List.length_append, List.length_cons, List.length_nil] at hlength
    exact List.length_eq_zero_iff.mp (by omega)

/-- A client that is gone stays so, and it is not called. -/
lemma Gone.step {act : ClientLifeAct} (h : s.Gone) (hpre : s.pre act) :
    (s.step act).1.Gone ∧ ∀ e ∈ (s.step act).2, e.isCall = false := by
  obtain ⟨hphase, hclient⟩ := h
  cases act with
  | client act =>
    obtain ⟨⟨-, hguard⟩, -, huser⟩ := hpre
    have hquiet : act.callsConnect = false := by
      rw [← Bool.not_eq_true]
      exact fun hcalls => huser hcalls hphase
    obtain ⟨hstays, hevents⟩ := hclient.step hguard hquiet
    exact ⟨⟨hphase, hstays⟩, hevents⟩
  | beginDestroy onLoop =>
    rw [pre, hphase] at hpre
    cases hpre.1
  | endDestroy =>
    rw [pre, hphase] at hpre
    simp at hpre

/-- If nobody knows the client when `~TcpClient` ends, then nothing after that calls
`removeConnection`, `newConnection` or `retryInLoop` on it. -/
theorem destroyed_not_called (h : (clientLifeMachine.restrict EndsForgotten).Run new t s) :
    ∀ l r, t = l ++ .destroyed :: r → ∀ e ∈ r, e.isCall = false := by
  intro l r htrace
  have honce := h.once (fun _ => True) Gone .destroyed (fun e => e.isCall = true) ?_ ?_ l r htrace
    trivial
  · intro e he
    simpa using honce.2 e he
  · intro t s act s' out _ hpre hstep l r hout _
    have heq : s.step act = (s', out) := Option.some.inj hstep
    obtain ⟨hgone, rfl⟩ := gone_of_destroyed (l := l) (r := r) hpre.2 (by rw [heq]; exact hout)
    rw [heq] at hgone
    exact ⟨hgone, by simp⟩
  · intro t s act s' out _ hgone hpre hstep
    have heq : s.step act = (s', out) := Option.some.inj hstep
    obtain ⟨hgone', hevents⟩ := hgone.step hpre.1
    rw [heq] at hgone' hevents
    exact ⟨hgone', fun e he hcall => by simp [hevents e he] at hcall⟩

/-- Another thread destroys the client; the loop closes the connection before the destructor ends,
and a user who still holds it calls `forceClose` afterwards. -/
theorem destroyed_not_called_closed :
    ∃ t s, (clientLifeMachine.restrict EndsForgotten).Run new t s ∧
      (∃ l, t = l ++ [.destroyed]) ∧ .removeConnection 0 (some 0) ∈ t ∧
      ∀ l r, t = l ++ .destroyed :: r → ∀ e ∈ r, e.isCall = false := by
  obtain ⟨t, s, hrun, hlast, hmem⟩ :=
    (clientLifeMachine.restrict EndsForgotten).exists_run_of_exec new
      [.client .connect, .client (.connected .ok), .client .runTask, .client (.takeHandle 0),
        .client .finish, .beginDestroy false, .client .runTask, .client .finish, .endDestroy,
        .client (.forceClose 0), .client (.dropHandle 0)]
      (fun _ t => t.getLast? = some .destroyed ∧ .removeConnection 0 (some 0) ∈ t) (by decide)
  obtain ⟨l, hl⟩ := List.getLast?_eq_some_iff.mp hlast
  exact ⟨t, s, hrun, ⟨l, hl⟩, hmem, destroyed_not_called hrun⟩

/-- A client is destroyed while its connection is up.  `forceClose` has only posted a task, and when
the loop gets to it `handleClose` calls `removeConnection` on the client. -/
theorem destroyed_called :
    ∃ t s, clientLifeMachine.Run new t s ∧
      ∃ l r, t = l ++ .destroyed :: r ∧ ∃ e ∈ r, e.isCall = true := by
  obtain ⟨t, s, hrun, ht⟩ := clientLifeMachine.exists_run_of_exec new
    [.client .connect, .client (.connected .ok), .client .runTask, .client .finish,
      .beginDestroy true, .endDestroy, .client .runTask, .client .finish]
    (fun _ t => t = [.newConnection 0 none, .destroyed, .removeConnection 0 none]) (by decide)
  exact ⟨t, s, hrun, [.newConnection 0 none], [.removeConnection 0 none], ht, _,
    List.mem_singleton_self _, rfl⟩

end ClientLife

end MuduoServer
