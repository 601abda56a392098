import MuduoServer.Tcp.Stage

/-!
# The life of a connection

`handleClose` can be reached in four ways, a `TcpServer` destroys its connections through two hops
between loops, a `TcpClient` at once.  In spite of this every connection lives the same life: up
once, then messages, down once, and the close callback right after it.

`StageInv` puts the parts of a stage together.  The main lemma, `StageInv.step`, says that every
step of the code succeeds and is a step of the life; there is one lemma per function before it.
-/

namespace MuduoServer

namespace ConnLoop

variable {τ : Type} {s s' : ConnLoop τ} {st : Stage} {out : List (ConnEvent τ)}

/-- The connection is in a stage of its life. -/
structure StageInv (st : Stage) (s : ConnLoop τ) : Prop where
  conn : st.ConnOk s.poller s.conn
  owner : st.OwnerOk s.owner
  queue : st.QueueOk s.tasks
  control : st.ControlOk s.pc s.dispatch s.conn.channel

/-- The notifications in a trace. -/
def life (t : List (ConnEvent τ)) : List LifeEvent :=
  t.filterMap fun
    | .connection true => some .up
    | .connection false => some .down
    | .message => some .message
    | .close => some .close
    | _ => none

/-- The values written to `state_` in a trace. -/
def writes (t : List (ConnEvent τ)) : List StateE :=
  t.filterMap fun
    | .setState state => some state
    | _ => none

/-- The life events of two traces. -/
@[simp] lemma life_append (t t' : List (ConnEvent τ)) : life (t ++ t') = life t ++ life t' :=
  List.filterMap_append

/-- The stores in two traces. -/
@[simp] lemma writes_append (t t' : List (ConnEvent τ)) :
    writes (t ++ t') = writes t ++ writes t' := List.filterMap_append

/-- A function succeeds and takes a step of the life. -/
def Advances (st : Stage) (s : ConnLoop τ)
    (r : Option (ConnLoop τ × List (ConnEvent τ))) : Prop :=
  ∃ s' out st', r = some (s', out) ∧ StageInv st' s' ∧ LifeStep st (life out) st' ∧
    Forward s.conn.state (writes out) s'.conn.state

/-- A function that makes no notification and writes no state. -/
lemma Advances.stay (h : StageInv st s') (hstate : s'.conn.state = s.conn.state)
    (hlife : life out = []) (hwrites : writes out = []) : Advances st s (some (s', out)) := by
  refine ⟨s', out, st, rfl, h, ?_, ?_⟩
  · rw [hlife]
    exact .stay st
  · rw [hwrites, hstate]
    exact .nil

/-- A function that makes nothing known and keeps `state_`. -/
lemma Advances.quiet (h : StageInv st s') (hstate : s'.conn.state = s.conn.state) :
    Advances st s (some (s', [])) := .stay h hstate rfl rfl

/-- `Advances` looks at the state before only through `state_`. -/
lemma Advances.of_state {s₁ : ConnLoop τ} {r : Option (ConnLoop τ × List (ConnEvent τ))}
    (h : Advances st s₁ r) (hstate : s₁.conn.state = s.conn.state) : Advances st s r := by
  obtain ⟨s', out, st', hr, hinv, hlife, hforward⟩ := h
  exact ⟨s', out, st', hr, hinv, hlife, hstate ▸ hforward⟩

/-- An open connection can still move to `KDisconnecting`. -/
lemma isOpen.rank_le (h : s.isOpen) : s.conn.state.rank ≤ StateE.KDisconnecting.rank := by
  rcases h with h | h
  · rw [h]
    decide
  · rw [h]

namespace StageInv

/-- Where the loop thread stands fits the stage. -/
lemma fits (h : StageInv st s) {pc : ConnPc} (hpc : s.pc = pc) : pc.Fits st := hpc ▸ h.control.fits

/-- The stage of a connection that is neither connecting nor down. -/
lemma stage_eq_up (h : StageInv st s) (hconnecting : s.conn.state ≠ .KConnecting)
    (hdown : s.conn.state ≠ .KDisconnected) : st = .up := by
  have hallows := h.conn.state
  cases st with
  | created | queued => exact absurd hallows hconnecting
  | up => rfl
  | down | removing | destroying | destroyed => exact absurd hallows hdown

/-- A task that neither sends too much nor opens or closes may be queued at any stage. -/
lemma queueInLoop (h : StageInv st s) {task : ConnTask τ} (hhops : hops [task] = [])
    (hshort : ∀ m ∈ queuedSends [task], m.2.length < 2 ^ 31) :
    StageInv st (s.queueInLoop task) where
  conn := h.conn
  owner := h.owner
  queue := h.queue.append hhops hshort
  control := h.control

/-- A change of the connection and of the poller that keeps to the stage. -/
lemma withConn (h : StageInv st s) {p : EPollPoller} {conn : TcpConnection}
    (hconn : st.ConnOk p conn) (hsame : SameChannel s.conn.channel conn.channel) :
    StageInv st { s with poller := p, conn := conn } where
  conn := hconn
  owner := h.owner
  queue := h.queue
  control :=
    { fits := h.control.fits
      active := fun hpc => by rw [hsame.address]; exact h.control.active hpc
      task := h.control.task
      hup := fun hpc => by rw [hsame.revents]; exact h.control.hup hpc }

/-- A change of the queue that keeps to the stage. -/
lemma withTasks (h : StageInv st s) {tasks : List (ConnTask τ)} (hqueue : st.QueueOk tasks) :
    StageInv st { s with tasks := tasks } := ⟨h.conn, h.owner, hqueue, h.control⟩

/-! ### Sending -/

/-- The direct write keeps the stage and does not touch the connection. -/
lemma direct (h : StageInv st s) {message : List UInt8} {w : WriteResult}
    (hw : w.Within message.length) :
    StageInv st (s.direct message message.length w).1 ∧
      (s.direct message message.length w).1.conn = s.conn ∧
      (s.direct message message.length w).2.remaining ≤ message.length := by
  unfold ConnLoop.direct
  split
  · cases w with
    | ok n =>
      simp only [ite_queueInLoop, true_and]
      exact ⟨⟨h.conn, h.owner, h.queue.append_ite rfl rfl, h.control⟩, Nat.sub_le _ _⟩
    | error errno => exact ⟨h, rfl, le_rfl⟩
  · exact ⟨h, rfl, le_rfl⟩

/-- While the connection is up, the backlog can be appended. -/
lemma backlog (h : StageInv .up s) (data : List UInt8) :
    ∃ s', s.backlog data = some s' ∧ StageInv .up s' ∧ s'.conn.state = s.conn.state := by
  obtain ⟨b, hb, hvalid, -⟩ := Buffer.append_spec h.conn.output data
  unfold ConnLoop.backlog
  simp only [ite_queueInLoop, hb, Option.bind_eq_bind, Option.bind_some]
  split
  · refine ⟨_, rfl, ?_, rfl⟩
    have hconn : Stage.up.ConnOk s.poller { s.conn with outputBuffer := b } :=
      { h.conn with output := hvalid }
    exact (h.withConn hconn (.refl _)).withTasks (h.queue.append_ite rfl rfl)
  · obtain ⟨p', c', hc', hreg, hsame⟩ := Channel.enableWriting_spec h.conn.wired
    simp only [hc', Option.bind_some]
    refine ⟨_, rfl, ?_, rfl⟩
    have hconn : Stage.up.ConnOk p' { s.conn with outputBuffer := b, channel := c' } :=
      { h.conn with output := hvalid, wired := hreg }
    exact (h.withConn hconn hsame).withTasks (h.queue.append_ite rfl rfl)

/-- `sendInLoop` succeeds and keeps to the stage. -/
theorem sendInLoop (h : StageInv st s) (hconnecting : s.conn.state ≠ .KConnecting)
    {message : List UInt8} {w : WriteResult} (hw : w.Within message.length) :
    ∃ s', s.sendInLoop message message.length w = some s' ∧ StageInv st s' ∧
      s'.conn.state = s.conn.state := by
  unfold ConnLoop.sendInLoop
  rw [if_neg (lt_irrefl _)]
  by_cases hdown : s.conn.state = .KDisconnected
  · rw [if_pos hdown]
    exact ⟨s, rfl, h, rfl⟩
  · obtain rfl := h.stage_eq_up hconnecting hdown
    obtain ⟨hinv, hconn, hassert⟩ := h.direct hw
    simp only [if_neg hdown, if_pos hassert]
    split
    · obtain ⟨s', hs', hinv', hstate⟩ := hinv.backlog _
      exact ⟨s', hs', hinv', hstate.trans (by rw [hconn])⟩
    · exact ⟨_, rfl, hinv, by rw [hconn]⟩

/-! ### Opening and closing -/

/-- A connection that is open is up. -/
lemma stage_of_isOpen (h : StageInv st s) (hopen : s.isOpen) : st = .up := by
  rcases hopen with hstate | hstate
  · exact h.stage_eq_up (by rw [hstate]; decide) (by rw [hstate]; decide)
  · exact h.stage_eq_up (by rw [hstate]; decide) (by rw [hstate]; decide)

/-- Only a connection that is up writes. -/
lemma stage_of_isWriting (h : StageInv st s) (hwriting : s.conn.channel.isWriting) : st = .up := by
  have hwired := h.conn.wired
  cases st with
  | up => rfl
  | _ => exact absurd hwriting (Channel.not_isWriting_of_events hwired.events)

/-- `handleClose` takes a connection that is up down. -/
theorem handleClose (h : StageInv .up s) (k : Option Phase) (hk : (ConnPc.closing k).Fits .down)
    (hactive : k ≠ none → s.dispatch.currentActiveChannel = some s.conn.channel.address)
    (htask : k = none → s.dispatch.eventHandling = false) :
    Advances .up s (s.handleClose k) := by
  obtain ⟨p', c', hc', hdetached, hsame⟩ := Channel.disableAll_spec h.conn.wired
  have hopen : s.isOpen := h.conn.state
  unfold ConnLoop.handleClose
  simp only [if_pos hopen, hc', if_pos h.conn.callback, Option.bind_eq_bind, Option.bind_some]
  refine ⟨_, _, .down, rfl, ?_, .close, .single (hopen.rank_le.trans (by decide))⟩
  refine ⟨h.conn.move rfl hdetached,
    ⟨fun _ _ => h.owner.holds (by decide) (by decide), h.owner.posted⟩,
    h.queue.move rfl (by decide), hk, ?_, ?_, ?_⟩
  · intro hpc
    change s.dispatch.currentActiveChannel = some c'.address
    rw [hsame.address]
    refine hactive ?_
    rintro rfl
    cases hpc
  · intro hpc
    exact htask (ConnPc.closing.inj hpc)
  · intro hpc
    rcases hpc with hpc | hpc <;> cases hpc

/-- `forceCloseInLoop` on a connection that is up. -/
lemma forceCloseInLoop_up (h : StageInv .up s) (k : Option Phase)
    (hk : (ConnPc.closing k).Fits .down)
    (hactive : k ≠ none → s.dispatch.currentActiveChannel = some s.conn.channel.address)
    (htask : k = none → s.dispatch.eventHandling = false) :
    Advances .up s (s.forceCloseInLoop k) := by
  have hopen : s.isOpen := h.conn.state
  unfold ConnLoop.forceCloseInLoop
  rw [if_pos hopen]
  exact h.handleClose k hk hactive htask

/-- `forceCloseInLoop` as a task. -/
theorem forceCloseInLoop (h : StageInv st s) (hpc : s.pc = .idle)
    (hhandling : s.dispatch.eventHandling = false) : Advances st s (s.forceCloseInLoop none) := by
  by_cases hopen : s.isOpen
  · obtain rfl := h.stage_of_isOpen hopen
    exact h.forceCloseInLoop_up none rfl (fun hk => absurd rfl hk) fun _ => hhandling
  · unfold ConnLoop.forceCloseInLoop
    rw [if_neg hopen]
    refine .quiet ⟨h.conn, h.owner, h.queue, ?_⟩ rfl
    have hcontrol := h.control
    rw [hpc] at hcontrol
    exact hcontrol

/-- `forceClose`, at any moment and on any thread. -/
theorem forceClose (h : StageInv st s) : Advances st s (some s.forceClose) := by
  unfold ConnLoop.forceClose
  split
  · next hopen =>
    obtain rfl := h.stage_of_isOpen hopen
    have hclosing : StageInv .up { s with conn := { s.conn with state := .KDisconnecting } } :=
      h.withConn { h.conn with state := Or.inr rfl } (.refl _)
    exact ⟨_, _, .up, rfl, hclosing.queueInLoop rfl (by simp [queuedSends]), .stay _,
      .single hopen.rank_le⟩
  · exact .quiet h rfl

/-- `connectEstablished` brings the connection up. -/
theorem connectEstablished (hst : st = .created ∨ st = .queued) (hconn : st.ConnOk s.poller s.conn)
    (howner : st.OwnerOk s.owner) (hqueue : Stage.up.QueueOk s.tasks) :
    Advances st s s.connectEstablished := by
  have hstate : s.conn.state = .KConnecting := by
    have hallows := hconn.state
    rcases hst with rfl | rfl <;> exact hallows
  have hnew : Unregistered s.poller s.conn.channel.tie := by
    have hwired := hconn.wired
    rcases hst with rfl | rfl <;> exact ⟨hwired.index, hwired.events, hwired.channels,
      hwired.interest⟩
  obtain ⟨p', c', hc', hreg, -⟩ := Channel.enableReading_spec hnew
  unfold ConnLoop.connectEstablished
  simp only [if_pos hstate, hc', if_pos hconn.callback, Option.bind_eq_bind, Option.bind_some]
  refine ⟨_, _, .up, rfl, ?_, .establish hst, .single ?_⟩
  · refine ⟨hconn.move (Or.inl rfl) hreg, ?_, hqueue,
      .outside rfl (by simp)⟩
    rcases hst with rfl | rfl <;>
      exact ⟨fun _ _ => howner.holds (by decide) (by decide), howner.posted⟩
  · rw [hstate]
    decide

/-- `connectDestroyed` finds the connection down and only removes the channel. -/
lemma connectDestroyed_spec (hstate : s.conn.state = .KDisconnected)
    (hdetached : Detached s.poller s.conn.channel)
    (hd : s.dispatch.eventHandling = true →
      s.dispatch.currentActiveChannel = some s.conn.channel.address) :
    ∃ p' c', s.connectDestroyed =
        some ({ s with poller := p', conn := { s.conn with channel := c' } }, []) ∧
      Unregistered p' c' ∧ SameChannel s.conn.channel c' := by
  obtain ⟨p', c', hc', hun, hsame⟩ := Channel.remove_spec hdetached hd
  refine ⟨p', c', ?_, hun, hsame⟩
  have hne : s.conn.state ≠ .KConnected := by
    rw [hstate]
    decide
  simp only [ConnLoop.connectDestroyed, takeDown, if_neg hne, hc', Option.bind_eq_bind,
    Option.bind_some]

/-- `closeCallback_`, when `connectionCallback_` has returned to `handleClose`. -/
theorem closeCallback (h : StageInv .down s) {k : Option Phase} (hpc : s.pc = .closing k) :
    Advances .down s (({ s with pc := .ofReturn k } : ConnLoop τ).closeCallback.map
      fun r => (r.1, .close :: r.2)) := by
  have hcontrol : Stage.down.ControlOk (.closing k) s.dispatch s.conn.channel := hpc ▸ h.control
  have hholds : s.owner.holds = true := h.owner.holds (by decide) (by decide)
  have hsame := SameChannel.refl s.conn.channel
  unfold ConnLoop.closeCallback
  dsimp only
  split
  · -- the loop of the server: `removeConnectionInLoop` runs here and posts `connectDestroyed`
    simp only [ConnLoop.removeConnectionInLoop, hholds, if_true, Option.map_some]
    refine ⟨_, _, .destroying, rfl, ?_, .remove (by decide), .nil⟩
    exact ⟨h.conn.move h.conn.state h.conn.wired,
      ⟨fun hst => absurd rfl hst, h.owner.posted⟩, h.queue.destroy rfl,
      hcontrol.ofReturn hsame (by decide)⟩
  · -- another loop: it is posted there
    refine ⟨_, _, .removing, rfl, ?_, .remove (by decide), .nil⟩
    refine ⟨h.conn.move h.conn.state h.conn.wired,
      ⟨fun _ _ => hholds, ?_⟩,
      h.queue.move rfl (by decide),
      hcontrol.ofReturn hsame (by decide)⟩
    change s.owner.posted + 1 = 1
    rw [h.owner.posted]
    rfl
  · -- the client: `connectDestroyed` runs here, inside `handleClose`
    have hd : s.dispatch.eventHandling = true →
        s.dispatch.currentActiveChannel = some s.conn.channel.address := by
      intro hhandling
      cases k with
      | none => rw [hcontrol.task rfl] at hhandling; cases hhandling
      | some p => exact hcontrol.active rfl
    obtain ⟨p', c', hc', hun, hsame'⟩ := connectDestroyed_spec (s := { s with
      pc := .ofReturn k, owner := { s.owner with holds := false } }) h.conn.state h.conn.wired hd
    simp only [hc', Option.map_some]
    refine ⟨_, _, .destroyed, rfl, ?_, .remove (by decide), .nil⟩
    exact ⟨h.conn.move h.conn.state hun,
      ⟨fun _ hst => absurd rfl hst, h.owner.posted⟩,
      h.queue.move rfl (by decide),
      hcontrol.ofReturn hsame' (by decide)⟩

/-- The server's loop runs `removeConnectionInLoop`. -/
theorem removeConnectionInLoop (h : StageInv st s) (hposted : 0 < s.owner.posted) :
    Advances st s (s.step .removeConnectionInLoop) := by
  have hst : st = .removing := by
    by_contra hst
    rw [h.owner.posted, if_neg hst] at hposted
    cases hposted
  subst hst
  have hholds : s.owner.holds = true := h.owner.holds (by decide) (by decide)
  simp only [ConnLoop.step, ConnLoop.removeConnectionInLoop, hholds, if_true, Option.map_some]
  refine ⟨_, _, .destroying, rfl, ?_, .queue, .nil⟩
  refine ⟨h.conn.move h.conn.state h.conn.wired,
    ⟨fun hst => absurd rfl hst, ?_⟩, h.queue.destroy rfl, ?_⟩
  · change s.owner.posted - 1 = 0
    rw [h.owner.posted]
    rfl
  · exact h.control.later

/-! ### The dispatch -/

/-- In the dispatch the channel is the active one. -/
lemma active (h : StageInv st s) {p : Phase} (hpc : s.pc = .phase p) :
    s.dispatch.currentActiveChannel = some s.conn.channel.address :=
  h.control.active (by rw [hpc]; rfl)

/-- The loop thread goes on to another test. -/
lemma nextPhase (h : StageInv st s) {p q : Phase} (hpc : s.pc = .phase p)
    (hfits : (ConnPc.phase q).Fits st) (hq : q ≠ .close) :
    StageInv st { s with pc := .phase q } where
  conn := h.conn
  owner := h.owner
  queue := h.queue
  control := by
    refine .inside hfits (h.active hpc) ⟨by simp, by simp, ?_⟩
    exact fun heq => hq (ConnPc.phase.inj heq)

/-- `handleRead`. -/
theorem handleRead (h : StageInv .up s) (hpc : s.pc = .phase .read) (r : ReadResult) :
    Advances .up s (s.handleRead r) := by
  have hactive := h.active hpc
  obtain ⟨b, n, e, hb, hvalid⟩ : ∃ b n e,
      s.conn.inputBuffer.readFd r = some (b, n, e) ∧ b.Valid := by
    cases r with
    | error errno => exact ⟨_, _, _, rfl, h.conn.input⟩
    | data bytes =>
      obtain ⟨b, hb, hvalid, -⟩ := Buffer.readFd_data_spec h.conn.input bytes
      exact ⟨b, _, _, hb, hvalid⟩
  have hread : StageInv .up { s with conn := { s.conn with inputBuffer := b } } :=
    h.withConn { h.conn with input := hvalid } (.refl _)
  unfold ConnLoop.handleRead
  simp only [hb, Option.bind_eq_bind, Option.bind_some]
  split
  · refine ⟨_, _, .up, rfl, ?_, .message, .nil⟩
    exact ⟨hread.conn, hread.owner, hread.queue, .inside rfl hactive (by simp)⟩
  · split
    · exact (hread.handleClose (some .write) rfl (fun _ => hactive)
        fun hk => absurd hk (by decide)).of_state rfl
    · exact .quiet (hread.nextPhase hpc ⟨by decide, by decide, by decide⟩ (by decide)) rfl

/-- The end of `handleWrite` when the backlog is gone. -/
theorem writeComplete (h : StageInv .up s) (hpc : s.pc = .phase .done) :
    Advances .up s s.writeComplete := by
  have hactive := h.active hpc
  obtain ⟨p', c', hc', hreg, hsame⟩ := Channel.disableWriting_spec h.conn.wired
  have hconn : Stage.up.ConnOk p' { s.conn with channel := c' } := { h.conn with wired := hreg }
  have hdisabled : StageInv .up { s with
      poller := p'
      conn := { s.conn with channel := c' }
      tasks := s.tasks ++
        if s.conn.writeCompleteCallback = true then [.writeCompleteCallback] else [] } :=
    (h.withConn hconn hsame).withTasks (h.queue.append_ite rfl rfl)
  unfold ConnLoop.writeComplete
  simp only [hc', ite_queueInLoop, Option.bind_eq_bind, Option.bind_some]
  split
  · refine (hdisabled.forceCloseInLoop_up (some .done) rfl (fun _ => ?_)
      fun hk => absurd hk (by decide)).of_state rfl
    exact hactive.trans (congrArg some hsame.address.symm)
  · exact .quiet hdisabled rfl

/-- `handleWrite`. -/
theorem handleWrite (h : StageInv st s) (hpc : s.pc = .phase .write) {w : WriteResult}
    (hw : w.Within s.conn.outputBuffer.readableBytes) : Advances st s (s.handleWrite w) := by
  have hfits := h.fits hpc
  have hdone : StageInv st { s with pc := .phase .done } := h.nextPhase hpc hfits (by decide)
  unfold ConnLoop.handleWrite
  split
  · next hwriting =>
    obtain rfl := h.stage_of_isWriting hwriting
    cases w with
    | error errno => exact .quiet hdone rfl
    | ok n =>
      dsimp only
      split
      · obtain ⟨b, hb, hvalid, -⟩ := Buffer.retrieve_spec h.conn.output (show n ≤ _ from hw)
        simp only [hb, Option.bind_eq_bind, Option.bind_some]
        have hdrained : StageInv .up { s with
            accepted := s.accepted ++
              (s.conn.outputBuffer.peek s.conn.outputBuffer.readableBytes).take n
            conn := { s.conn with outputBuffer := b }
            pc := .phase .done } :=
          ⟨{ h.conn with output := hvalid }, h.owner, h.queue, hdone.control⟩
        split
        · exact (hdrained.writeComplete rfl).of_state rfl
        · exact .quiet hdrained rfl
      · exact .quiet hdone rfl
  · exact .quiet hdone rfl

/-! ### Steps and runs -/

/-- The stages before the connection is up are those in which it is connecting. -/
lemma state_ne_connecting (h : StageInv st s) (hcreated : st ≠ .created) (hqueued : st ≠ .queued) :
    s.conn.state ≠ .KConnecting := by
  have hallows := h.conn.state
  cases st with
  | created => exact absurd rfl hcreated
  | queued => exact absurd rfl hqueued
  | up => rcases hallows with hstate | hstate <;> rw [hstate] <;> decide
  | down | removing | destroying | destroyed =>
    rw [show s.conn.state = .KDisconnected from hallows]
    decide

/-- User code on the loop thread cannot know a connection that is not established. -/
lemma inUserCode_state (h : StageInv st s) (huser : s.inUserCode) :
    s.conn.state ≠ .KConnecting := by
  unfold inUserCode at huser
  split at huser
  · exact huser
  · exact huser
  · next hpc =>
    obtain rfl := h.fits hpc
    exact h.state_ne_connecting (by decide) (by decide)
  · next hpc =>
    obtain rfl := h.fits hpc
    exact h.state_ne_connecting (by decide) (by decide)
  · next hpc =>
    obtain rfl := (h.fits hpc).stage_eq_down
    exact h.state_ne_connecting (by decide) (by decide)
  · exact huser.elim
  · exact huser.elim

/-- The next task. -/
theorem runTask (h : StageInv st s) (hpc : s.pc = .idle)
    (hhandling : s.dispatch.eventHandling = false) {w : WriteResult} (hw : s.taskWithin w) :
    Advances st s (s.runTask w) := by
  unfold ConnLoop.runTask
  unfold taskWithin at hw
  split
  · exact .quiet h rfl
  · next task tasks htasks =>
    have hqueue := h.queue
    rw [htasks] at hqueue hw
    have hfits := h.fits hpc
    have hpop : hops [task] = [] → StageInv st { s with tasks := tasks } :=
      fun hhops => ⟨h.conn, h.owner, hqueue.tail hhops, h.control⟩
    cases task with
    | connectEstablished =>
      obtain ⟨rfl, htail⟩ := hqueue.establish
      exact (connectEstablished (s := { s with tasks := tasks }) (Or.inr rfl) h.conn h.owner
        htail).of_state rfl
    | connectDestroyed =>
      obtain ⟨rfl, htail⟩ := hqueue.destroyed
      obtain ⟨p', c', hc', hun, -⟩ := connectDestroyed_spec (s := { s with tasks := tasks })
        h.conn.state h.conn.wired (fun hd => by rw [hhandling] at hd; cases hd)
      dsimp only
      rw [hc']
      refine ⟨_, _, .destroyed, rfl, ?_, .destroy, .nil⟩
      refine ⟨h.conn.move h.conn.state hun,
        ⟨fun _ hst => absurd rfl hst, h.owner.posted⟩, htail, ?_⟩
      rw [show ConnLoop.pc _ = .idle from hpc]
      exact .outside ⟨by decide, by decide⟩ (by simp)
    | sendInLoop poster message =>
      have hqueued : st ≠ .queued := fun hst => by cases hqueue.first hst
      have hshort : message.length < 2 ^ 31 :=
        hqueue.short (some poster, message) List.mem_cons_self
      obtain ⟨s', hs', hinv, hstate⟩ := (hpop rfl).sendInLoop
        (h.state_ne_connecting hfits.1 hqueued) hw
      dsimp only
      rw [sendInLoopString, ConnLoop.send, sizeOfInt_intOfSize hshort, hs', Option.map_some]
      exact .stay hinv hstate rfl rfl
    | forceCloseInLoop => exact ((hpop rfl).forceCloseInLoop hpc hhandling).of_state rfl
    | writeCompleteCallback => exact .stay (hpop rfl) rfl rfl rfl
    | highWaterMarkCallback size => exact .stay (hpop rfl) rfl rfl rfl

/-- The end of a user callback. -/
theorem callbackReturns (h : StageInv st s) : Advances st s s.callbackReturns := by
  unfold ConnLoop.callbackReturns
  split
  · next hpc =>
    obtain rfl := h.fits hpc
    refine .quiet ⟨h.conn, h.owner, h.queue, ?_⟩ rfl
    exact .outside ⟨by decide, by decide⟩ (by simp)
  · next hpc =>
    obtain rfl := h.fits hpc
    refine .quiet ⟨h.conn, h.owner, h.queue, ?_⟩ rfl
    exact .inside ⟨by decide, by decide, by decide⟩ (h.control.active (by rw [hpc]; rfl)) (by simp)
  · next k hpc =>
    obtain rfl := (h.fits hpc).stage_eq_down
    exact h.closeCallback hpc
  · exact .quiet h rfl

/-- `poll` returns only a connection that is up. -/
theorem poll (h : StageInv st s) {events revents : Events}
    (hinterest : s.poller.interest s.conn.channel.fd = some events)
    (hreports : EpollReports events revents) : Advances st s (s.step (.poll revents)) := by
  have hwired := h.conn.wired
  have hst : st = .up := by
    cases st with
    | up => rfl
    | _ => cases hwired.interest.symm.trans hinterest
  subst hst
  have hevents : s.conn.channel.events = events :=
    Option.some.inj (hwired.interest.symm.trans hinterest)
  have hin : EpollFlag.EPOLLIN ∈ events := hevents ▸ hwired.reading (by decide)
  refine .quiet ⟨{ h.conn with wired := ?_ }, h.owner, h.queue, rfl, ?_, ?_, ?_⟩ rfl
  · exact ⟨hwired.index, hwired.reading, hwired.channels, hwired.interest⟩
  · exact fun hpc => by cases hpc
  · exact fun hpc => by cases hpc
  · exact fun _ hhup => hreports.hup hhup hin

/-- Every step that can be taken succeeds and is a step of the life. -/
theorem step (h : StageInv st s) {act : ConnAct τ} (hpre : s.pre act) :
    Advances st s (s.step act) := by
  cases act with
  | postSend caller message =>
    refine .stay (h.queueInLoop rfl fun m hm => ?_) rfl rfl rfl
    rw [List.mem_singleton.mp hm]
    exact hpre
  | send message w =>
    obtain ⟨huser, hshort, hw⟩ := hpre
    obtain ⟨s', hs', hinv, hstate⟩ := h.sendInLoop (h.inUserCode_state huser) hw
    simp only [ConnLoop.step, ConnLoop.send, sizeOfInt_natCast hshort, hs', Option.map_some]
    exact .stay hinv hstate rfl rfl
  | forceClose => exact h.forceClose
  | retrieve len =>
    obtain ⟨b, hb, hvalid, -⟩ := Buffer.retrieve_spec h.conn.input hpre.2
    simp only [ConnLoop.step, hb, Option.bind_eq_bind, Option.bind_some]
    exact .quiet (h.withConn { h.conn with input := hvalid } (.refl _)) rfl
  | connectEstablished =>
    obtain rfl := h.fits hpre
    exact connectEstablished (Or.inl rfl) h.conn h.owner (h.queue.move rfl (by decide))
  | runTask w => exact h.runTask hpre.1 hpre.2.1 hpre.2.2
  | removeConnectionInLoop => exact h.removeConnectionInLoop hpre
  | poll revents =>
    obtain ⟨-, -, events, hinterest, hreports⟩ := hpre
    exact h.poll hinterest hreports
  | pollOther =>
    have hfits := h.fits hpre.1
    refine .quiet ⟨h.conn, h.owner, h.queue, ?_⟩ rfl
    exact hpre.1 ▸ .outside hfits (by simp)
  | endHandling =>
    have hfits := h.fits hpre.1
    refine .quiet ⟨h.conn, h.owner, h.queue, ?_⟩ rfl
    exact hpre.1 ▸ .outside hfits (by simp)
  | handleEvent =>
    have hhup := h.control.hup (Or.inl hpre)
    obtain rfl := h.fits hpre
    have hwired := h.conn.wired
    refine .quiet ⟨{ h.conn with wired := ?_ }, h.owner, h.queue, rfl, fun _ => rfl, ?_,
      fun _ => hhup⟩ rfl
    · exact ⟨hwired.index, hwired.reading, hwired.channels, hwired.interest⟩
    · exact fun hpc => by cases hpc
  | testClose =>
    have hhup := h.control.hup (Or.inr hpre)
    have htest : ¬ (EpollFlag.EPOLLHUP ∈ s.conn.channel.revents ∧
        EpollFlag.EPOLLIN ∉ s.conn.channel.revents) := fun htest => htest.2 (hhup htest.1)
    have hfits := h.fits hpre
    simp only [ConnLoop.step, if_neg htest]
    exact .quiet (h.nextPhase hpre hfits (by decide)) rfl
  | testError =>
    have hfits := h.fits hpre
    exact .quiet (h.nextPhase hpre hfits (by decide)) rfl
  | testRead r =>
    obtain rfl := h.fits hpre.1
    simp only [ConnLoop.step]
    split
    · exact h.handleRead hpre.1 r
    · exact .quiet (h.nextPhase hpre.1 ⟨by decide, by decide, by decide⟩ (by decide)) rfl
  | testWrite w =>
    have hfits := h.fits hpre.1
    simp only [ConnLoop.step]
    split
    · exact h.handleWrite hpre.1 hpre.2
    · exact .quiet (h.nextPhase hpre.1 hfits (by decide)) rfl
  | endEvent =>
    have hfits := h.fits hpre
    refine .quiet ⟨{ h.conn with wired := ?_ }, h.owner, h.queue, ?_⟩ rfl
    · have hwired := h.conn.wired
      cases st <;> exact { hwired with }
    · exact .outside ⟨hfits.1, hfits.2.2⟩ (by simp)
  | callbackReturns => exact h.callbackReturns

end StageInv

section Run

variable {t : List (ConnEvent τ)}

/-- A trace and a state that a life leads to. -/
def LifeInv (t : List (ConnEvent τ)) (s : ConnLoop τ) : Prop :=
  ∃ st : Stage, StageInv st s ∧ st.Shape (life t) ∧ Forward .KConnecting (writes t) s.conn.state

/-- On the loop of its owner a new connection is about to be established. -/
lemma StageInv.newConnection {kind : OwnerKind} {address fd highWaterMark : ℕ}
    {writeCompleteCallback highWaterMarkCallback handling : Bool} {poller : EPollPoller}
    (hchannels : poller.channels fd = none) (hinterest : poller.interest fd = none)
    (hkind : kind ≠ .serverOtherLoop) :
    StageInv .created (ConnLoop.newConnection kind (.new address fd highWaterMark true
      writeCompleteCallback highWaterMarkCallback) poller handling : ConnLoop τ) := by
  have htasks : (ConnLoop.newConnection kind (.new address fd highWaterMark true
      writeCompleteCallback highWaterMarkCallback) poller handling : ConnLoop τ).tasks = [] :=
    if_neg hkind
  have hpc : (ConnLoop.newConnection kind (.new address fd highWaterMark true
      writeCompleteCallback highWaterMarkCallback) poller handling : ConnLoop τ).pc =
        .newConnection := if_neg hkind
  refine ⟨⟨rfl, Buffer.new_valid, Buffer.new_valid, rfl, ⟨rfl, rfl, hchannels, hinterest⟩⟩,
    ⟨fun _ _ => rfl, rfl⟩, ?_, ?_⟩
  · rw [htasks]
    exact ⟨rfl, fun hst => absurd hst (by decide), fun m hm => by cases hm⟩
  · rw [hpc]
    exact .outside rfl (Or.inl rfl)

/-- A new connection is at the beginning of its life. -/
lemma LifeInv.newConnection {kind : OwnerKind} {address fd highWaterMark : ℕ}
    {writeCompleteCallback highWaterMarkCallback handling : Bool} {poller : EPollPoller}
    (hchannels : poller.channels fd = none) (hinterest : poller.interest fd = none) :
    LifeInv [] (ConnLoop.newConnection kind (.new address fd highWaterMark true
      writeCompleteCallback highWaterMarkCallback) poller handling : ConnLoop τ) := by
  by_cases hkind : kind = .serverOtherLoop
  · subst hkind
    exact ⟨.queued, ⟨⟨rfl, Buffer.new_valid, Buffer.new_valid, rfl,
      ⟨rfl, rfl, hchannels, hinterest⟩⟩, ⟨fun _ _ => rfl, rfl⟩,
      ⟨rfl, fun _ => rfl, fun m hm => by cases hm⟩,
      .outside ⟨by decide, by decide⟩ (Or.inr (Or.inl rfl))⟩, rfl, .nil⟩
  · exact ⟨.created, .newConnection hchannels hinterest hkind, rfl, .nil⟩

/-- Every run is a life. -/
lemma LifeInv.step {act : ConnAct τ} (h : LifeInv t s) (hpre : s.pre act)
    (hstep : s.step act = some (s', out)) : LifeInv (t ++ out) s' := by
  obtain ⟨st, hinv, hshape, hforward⟩ := h
  obtain ⟨s₁, out₁, st', hs₁, hinv', hlife, hforward'⟩ := hinv.step hpre
  obtain ⟨rfl, rfl⟩ := Prod.mk.inj (Option.some.inj (hs₁.symm.trans hstep))
  refine ⟨st', hinv', ?_, ?_⟩
  · rw [life_append]
    exact hshape.step hlife
  · rw [writes_append]
    exact hforward.trans hforward'

/-- Which notifications have been made is seen from the state and from where the loop thread
stands. -/
lemma StageInv.mem_life (h : StageInv st s) {l : List LifeEvent} (hshape : st.Shape l) :
    (.up ∈ l ↔ s.conn.state ≠ .KConnecting) ∧ (.down ∈ l ↔ s.conn.state = .KDisconnected) ∧
      (.close ∈ l ↔ s.conn.state = .KDisconnected ∧ ∀ k, s.pc ≠ .closing k) := by
  have hallows := h.conn.state
  have hfits := h.control.fits
  cases st with
  | created | queued =>
    rw [show l = [] from hshape, show s.conn.state = .KConnecting from hallows]
    simp
  | up =>
    obtain ⟨n, rfl⟩ := hshape
    rcases hallows with hstate | hstate <;> simp [hstate]
  | down =>
    obtain ⟨n, rfl⟩ := hshape
    rw [show s.conn.state = .KDisconnected from hallows]
    simpa using hfits.closing
  | removing | destroying | destroyed =>
    obtain ⟨n, rfl⟩ := hshape
    rw [show s.conn.state = .KDisconnected from hallows]
    have hpc : ∀ k, s.pc ≠ .closing k := by
      intro k hpc
      cases (h.fits hpc).stage_eq_down
    simpa using hpc

/-- The life of a connection.  In every run of a connection whose descriptor is not yet known to the
poller of its loop:
`state_` only moves forward;
the notifications are up, messages, down, close, in this order, or a beginning of this;
up has been made as soon as the connection is no longer connecting, down as soon as it is down, and
close as soon as the down notification has returned;
as long as it is connecting, the next thing that happens to it is `connectEstablished`;
its owner lets go of it only when it is down;
and no assertion fails. -/
theorem connection_lifecycle {kind : OwnerKind} {address fd highWaterMark : ℕ}
    {writeCompleteCallback highWaterMarkCallback handling : Bool} {poller : EPollPoller}
    (hchannels : poller.channels fd = none) (hinterest : poller.interest fd = none)
    (h : (connMachine τ).Run (newConnection kind (.new address fd highWaterMark true
      writeCompleteCallback highWaterMarkCallback) poller handling) t s) :
    (((.KConnecting :: writes t).Pairwise fun a b => a.rank ≤ b.rank) ∧
        (.KConnecting :: writes t).getLast? = some s.conn.state) ∧
      (∃ n, life t <+: .up :: (List.replicate n .message ++ [.down, .close])) ∧
      ((.up ∈ life t ↔ s.conn.state ≠ .KConnecting) ∧
        (.down ∈ life t ↔ s.conn.state = .KDisconnected) ∧
        (.close ∈ life t ↔ s.conn.state = .KDisconnected ∧ ∀ k, s.pc ≠ .closing k)) ∧
      (s.conn.state = .KConnecting →
        s.pc = .newConnection ∨ s.tasks.head? = some .connectEstablished) ∧
      (s.owner.holds = false → s.conn.state = .KDisconnected) ∧
      ∀ act, s.pre act → (s.step act).isSome := by
  obtain ⟨st, hinv, hshape, hforward⟩ : LifeInv t s :=
    h.invariant LifeInv (.newConnection hchannels hinterest) fun _ _ _ _ _ hinv hpre hstep =>
      hinv.step hpre hstep
  refine ⟨⟨hforward.pairwise, hforward.getLast?⟩, hshape.isPrefix, hinv.mem_life hshape, ?_, ?_, ?_⟩
  · intro hstate
    by_cases hqueued : st = .queued
    · exact Or.inr (hinv.queue.first hqueued)
    · have hcreated : st = .created := by
        by_contra hcreated
        exact hinv.state_ne_connecting hcreated hqueued hstate
      subst hcreated
      exact Or.inl hinv.control.fits.newConnection
  · intro hholds
    by_cases hdestroying : st = .destroying
    · subst hdestroying
      exact hinv.conn.state
    · by_cases hdestroyed : st = .destroyed
      · subst hdestroyed
        exact hinv.conn.state
      · cases (hinv.owner.holds hdestroying hdestroyed).symm.trans hholds
  · intro act hpre
    obtain ⟨s', out, -, hstep, -⟩ := hinv.step hpre
    rw [hstep]
    rfl

/-- A connection on a loop of its own gets a message; another thread calls `forceClose`, and before
the task runs the peer hangs up.  The task then finds nothing to do, and two more hops destroy the
connection. -/
theorem connection_lifecycle_hangup :
    ∃ t s, (connMachine ℕ).Run
        (newConnection .serverOtherLoop (.new 1 5 64 true true true) emptyPoller false) t s ∧
      (life t = [.up, .message, .down, .close] ∧
        writes t = [.KConnected, .KDisconnecting, .KDisconnected] ∧ s.owner.holds = false ∧
        s.tasks = []) ∧
      (.KConnecting :: writes t).getLast? = some s.conn.state ∧ s.conn.state = .KDisconnected := by
  obtain ⟨t, s, hrun, hlife, hwrites, hholds, htasks⟩ := (connMachine ℕ).exists_run_of_exec
    (newConnection .serverOtherLoop (.new 1 5 64 true true true) emptyPoller false)
    [.runTask (.ok 0), .callbackReturns, .poll {.EPOLLIN}, .handleEvent, .testClose, .testError,
      .testRead (.data [1, 2]), .forceClose, .callbackReturns, .testWrite (.ok 0), .endEvent,
      .endHandling, .poll {.EPOLLIN, .EPOLLHUP}, .handleEvent, .testClose, .testError,
      .testRead (.data []), .callbackReturns, .testWrite (.ok 0), .endEvent, .endHandling,
      .runTask (.ok 0), .removeConnectionInLoop, .runTask (.ok 0)]
    (fun s t => life t = [.up, .message, .down, .close] ∧
      writes t = [.KConnected, .KDisconnecting, .KDisconnected] ∧ s.owner.holds = false ∧
      s.tasks = []) (by decide +kernel)
  obtain ⟨⟨-, hlast⟩, -, -, -, hreleased, -⟩ := connection_lifecycle rfl rfl hrun
  exact ⟨t, s, hrun, ⟨hlife, hwrites, hholds, htasks⟩, hlast, hreleased hholds⟩

end Run

end ConnLoop

end MuduoServer
