import MuduoServer.Lib.Monitor
import MuduoServer.Tcp.ClientSlot

/-!
# Waiting for the connection of a client

`TcpClient::connection()` blocks its caller until `connection_` is set, and returns a copy of the
pointer.  It waits on `cond_` with the predicate that the slot is not empty; `newConnection` and
`removeConnection` write the slot with the same mutex, and `newConnection` notifies all threads.
Callers are any number of threads other than the loop thread, which would wait for itself.
-/

namespace MuduoServer

/-- The step is one of the loop thread. -/
def ClientAct.ofLoop : ClientAct → Bool
  | .loopConnect | .loopConnected _ | .runTask | .retryInLoop | .finish | .dispatch _
  | .handleClose _ => true
  | .connect | .connected _ | .forceClose _ | .takeHandle _ | .dropHandle _ => false

namespace TcpClient

variable {s s' : TcpClient} {c : ℕ}

/-- The step runs the critical section of `newConnection` or of `removeConnection`. -/
def writesSlot (s : TcpClient) : ClientAct → Bool
  | .loopConnected errn => errn.outcome = .newConnection
  | .runTask => s.tasks.head? = some .newConnection
  | .finish => s.stack.head?.any ClientFrame.isDown
  | _ => false

/-- Nothing else changes the slot. -/
lemma connection_of_step {act : ClientAct} (h : s.writesSlot act = false) :
    (s.step act).1.connection = s.connection := by
  cases act with
  | connect | loopConnect | retryInLoop | dispatch | handleClose | takeHandle | dropHandle => rfl
  | connected errn =>
    simp only [step, connected]
    split <;> rfl
  | loopConnected errn =>
    simp only [writesSlot, decide_eq_false_iff_not] at h
    simp only [step, loopConnected]
    split
    · next hout => exact absurd hout h
    · rfl
    · rfl
  | runTask =>
    simp only [step]
    split
    · rfl
    · next task rest htasks =>
      simp only [writesSlot, htasks, List.head?_cons, decide_eq_false_iff_not] at h
      cases task with
      | newConnection => exact absurd rfl h
      | forceCloseInLoop c =>
        simp only [run]
        split
        · rfl
        · rfl
  | finish =>
    simp only [step]
    split
    · rfl
    · next f rest hstack =>
      simp only [writesSlot, hstack, List.head?_cons, Option.any_some] at h
      cases f with
      | down c => cases h
      | connect | up c | dispatch c => rfl
  | forceClose c =>
    simp only [step, forceClose]
    split
    · rfl
    · rfl

/-- `mutex_` and `cond_`. -/
def slotMonitor : Guarded clientMachine ℕ where
  val s := s.connection
  writes s act := s.writesSlot act
  ofWriter := ClientAct.ofLoop
  copy := .takeHandle
  keeps s act s' out hstep hwrites := by
    have heq : s.step act = (s', out) := Option.some.inj hstep
    rw [← connection_of_step hwrites, heq]
  copy_reads _ _ := rfl

/-- The client with the threads `ι` that call `connection()`. -/
def waitMachine (ι : Type) [DecidableEq ι] :
    Machine (Monitor TcpClient ℕ ι) (MonitorAct ClientAct ι) (ClientEvent ⊕ ι × ℕ) :=
  clientMachine.monitor slotMonitor

/-- The same, while the slot is taken. -/
def takenMachine (ι : Type) [DecidableEq ι] :
    Machine (Monitor TcpClient ℕ ι) (MonitorAct ClientAct ι) (ClientEvent ⊕ ι × ℕ) :=
  clientMachine.monitorWithValue slotMonitor

instance {ι : Type} [DecidableEq ι] (s : Monitor TcpClient ℕ ι) (act : MonitorAct ClientAct ι) :
    Decidable ((waitMachine ι).pre s act) :=
  inferInstanceAs (Decidable ((clientMachine.monitor slotMonitor).pre s act))

instance {ι : Type} [DecidableEq ι] (s : Monitor TcpClient ℕ ι) (act : MonitorAct ClientAct ι) :
    Decidable ((takenMachine ι).pre s act) :=
  inferInstanceAs (Decidable ((clientMachine.monitorWithValue slotMonitor).pre s act))

/-- The connection in the slot is live, or it is just being closed. -/
lemma SlotInv.live_or_closing (h : SlotInv s) (hc : s.connection = some c) :
    s.Live c ∨ .down c ∈ s.stack := by
  rcases (h.taken c hc).2 with ⟨hlive, -⟩ | ⟨-, hdowns⟩
  · exact Or.inl hlive
  · have hmem : .down c ∈ s.downs := by
      rw [hdowns]
      exact List.mem_cons_self
    exact Or.inr (List.mem_of_mem_filter hmem)

section Waiting

variable {ι : Type} [DecidableEq ι] {m m' : Monitor TcpClient ℕ ι}
  {t out : List (ClientEvent ⊕ ι × ℕ)}

/-- What `connection()` returns is the connection in the slot, and the caller owns it then. -/
lemma returned_spec {i : ι} {act : MonitorAct ClientAct ι} (hpre : (waitMachine ι).pre m act)
    (hstep : (waitMachine ι).step m act = some (m', out)) (hmem : .inr (i, c) ∈ out) :
    m.inner.connection = some c ∧ 0 < m'.inner.handles c := by
  rcases Machine.monitor_step hpre hstep with ⟨a, o, -, -, -, rfl, -⟩ |
    ⟨j, v, o, -, -, hv, -, hcopy, rfl, -⟩ | ⟨-, rfl, -⟩
  · obtain ⟨e, -, he⟩ := List.mem_map.mp hmem
    cases he
  · rcases List.mem_append.mp hmem with hmem | hmem
    · obtain ⟨e, -, he⟩ := List.mem_map.mp hmem
      cases he
    · obtain ⟨rfl, rfl⟩ := Prod.mk.inj (Sum.inr.inj (List.mem_singleton.mp hmem))
      refine ⟨hv, ?_⟩
      have heq : m.inner.step (.takeHandle c) = (m'.inner, o) := Option.some.inj hcopy
      have hinner : (m.inner.step (.takeHandle c)).1 = m'.inner := congrArg Prod.fst heq
      rw [← hinner]
      change 0 < Function.update m.inner.handles c (m.inner.handles c + 1) c
      rw [Function.update_self]
      exact Nat.succ_pos _
  · cases hmem

/-- In every interleaving of the loop thread with any number of threads that call `connection()`:
the client runs as it does when nobody waits;
what `connection()` returns is in the slot and is owned by the caller, and as long as every
`newConnection` has found the slot empty, it is not down unless the loop thread is just closing it;
no wakeup is lost: a caller sleeps beside a taken slot only before `notify_all`, and otherwise its
next step is possible if it has the mutex or the mutex is free;
and a caller returns with its second own step, if the slot is not emptied before. -/
theorem connection_returns (h : (waitMachine ι).Run (Machine.startMonitor .new) t m) :
    clientMachine.Run .new (Machine.lefts t) m.inner ∧
      (∀ i c act m' out, (waitMachine ι).pre m act → (waitMachine ι).step m act = some (m', out) →
        .inr (i, c) ∈ out → m.inner.connection = some c ∧ m'.inner.Owned c ∧
          ((clientMachine.restrict SlotFree).Run .new (Machine.lefts t) m.inner →
            m.inner.Live c ∨ .down c ∈ m.inner.stack)) ∧
      (∀ i, m.inner.connection ≠ none → (m.pc i).inside = true →
        (m.pc i = .asleep → m.holder = .writer ∧ m.owes = true) ∧
          (m.holder = .nobody → (waitMachine ι).pre m (.acquire i)) ∧
          (m.holder = .waiter i → m.inner.aborted = false → (waitMachine ι).pre m (.test i))) ∧
      ∀ i t' m' n, (m.pc i).inside = true →
        ((takenMachine ι).counting fun act => act.isOf i = true).Run (m, 0) t' (m', n) →
          2 ≤ n → ∃ c, .inr (i, c) ∈ t' := by
  have hmonitor := Machine.monitorInv_of_run h
  refine ⟨h.inner, ?_, ?_, fun i t' m' n hinside hrun hn => hrun.returns hinside hn⟩
  · intro i c act m' out hpre hstep hmem
    obtain ⟨hc, hhandles⟩ := returned_spec hpre hstep hmem
    exact ⟨hc, Or.inr (Or.inl hhandles), fun hrun => (slotInv_of_run hrun).1.live_or_closing hc⟩
  · intro i htaken hinside
    have howed : m.pc i = .asleep → m.owes = true := by
      intro hasleep
      by_contra howes
      exact hmonitor.awake ((Bool.not_eq_true _).mp howes) (Option.isSome_iff_ne_none.mpr htaken) i
        hasleep
    refine ⟨fun hasleep => ⟨hmonitor.owes (howed hasleep), howed hasleep⟩, fun hfree => ⟨?_, hfree⟩,
      fun hholder halive => ⟨(hmonitor.holder i).mp hholder, fun c hc => ⟨halive, Or.inl hc⟩⟩⟩
    cases hpc : m.pc i with
    | locking => rfl
    | testing => cases hfree.symm.trans ((hmonitor.holder i).mpr hpc)
    | asleep => cases hfree.symm.trans (hmonitor.owes (howed hpc))
    | out | returned =>
      rw [hpc] at hinside
      cases hinside

/-- Two threads call `connection()` and fall asleep, and one of them is woken up for no reason. -/
def twoWait : List (MonitorAct ClientAct ℕ) :=
  [.inner .connect, .call 1, .acquire 1, .test 1, .call 2, .acquire 2, .test 2,
    .inner (.connected .ok), .wake 2, .lock, .inner .runTask]

/-- Both of them get it. -/
def twoReturn : List (MonitorAct ClientAct ℕ) :=
  [.notifyAll, .unlock, .acquire 2, .test 2, .acquire 1, .inner .finish, .test 1]

/-- Two threads wait when the connection is made, one of them asleep and one woken up for no
reason. -/
theorem connection_returns_two :
    ∃ t m t' m', (waitMachine ℕ).Run (Machine.startMonitor .new) t m ∧
      (m.inner.connection = some 0 ∧ m.pc 1 = .asleep ∧ m.pc 2 = .locking) ∧
      (m.holder = .writer ∧ m.owes = true) ∧
      ((takenMachine ℕ).counting fun act => act.isOf 1 = true).Run (m, 0) t' (m', 2) ∧
      ∃ c, .inr (1, c) ∈ t' := by
  obtain ⟨t, m, hrun, hslot, hasleep, hlocking, hnext⟩ := (waitMachine ℕ).exists_run_of_exec
    (Machine.startMonitor .new) twoWait
    (fun m _ => m.inner.connection = some 0 ∧ m.pc 1 = .asleep ∧ m.pc 2 = .locking ∧
      ((takenMachine ℕ).counting fun act => act.isOf 1 = true).Reaches (m, 0) twoReturn fun p _ =>
        p.2 = 2) (by decide +kernel)
  obtain ⟨t', ⟨m', n⟩, hrun', hn⟩ := hnext.exists_run
  obtain rfl : n = 2 := hn
  obtain ⟨-, -, hawake, hreturns⟩ := connection_returns hrun
  have hinside : (m.pc 1).inside = true := by
    rw [hasleep]
    rfl
  have htaken : m.inner.connection ≠ none := by
    rw [hslot]
    exact fun heq => by cases heq
  exact ⟨t, m, t', m', hrun, ⟨hslot, hasleep, hlocking⟩, (hawake 1 htaken hinside).1 hasleep, hrun',
    hreturns 1 t' m' 2 hinside hrun' (le_refl 2)⟩

end Waiting

end TcpClient

end MuduoServer
