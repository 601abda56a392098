import MuduoServer.Tcp.Host

/-!
# The invariant of a loop

Every connection on the loop is in a stage of its life, seen through its `view`, and the poller
knows no descriptor but those of the channels.  A function of a connection changes the loop as far
as `PutBack` says, and `HostInv.put` shows that this is compatible with all other connections and
channels: they have other descriptors, and the loop thread is not inside any of them.
-/

namespace MuduoServer

/-! ### Stages and the rest of the loop -/

/-- How a channel is known to the poller is a matter of its descriptor. -/
lemma Stage.Wired.congr {st : Stage} {p p' : EPollPoller} {c : Channel} (h : st.Wired p c)
    (hchannels : p'.channels c.fd = p.channels c.fd)
    (hinterest : p'.interest c.fd = p.interest c.fd) : st.Wired p' c := by
  cases st with
  | created | queued | destroyed =>
    exact ⟨h.index, h.events, hchannels.trans h.channels, hinterest.trans h.interest⟩
  | up => exact ⟨h.index, h.reading, hchannels.trans h.channels, hinterest.trans h.interest⟩
  | down | removing | destroying =>
    exact ⟨h.index, h.events, hchannels.trans h.channels, hinterest.trans h.interest⟩

/-- To be unregistered depends on the entry of the descriptor alone. -/
lemma Unregistered.congr {p p' : EPollPoller} {c : Channel} (h : Unregistered p c)
    (hchannels : p'.channels c.fd = p.channels c.fd)
    (hinterest : p'.interest c.fd = p.interest c.fd) : Unregistered p' c :=
  Stage.Wired.congr (show Stage.destroyed.Wired p c from h) hchannels hinterest

/-- So does being registered. -/
lemma Registered.congr {p p' : EPollPoller} {c : Channel} (h : Registered p c)
    (hchannels : p'.channels c.fd = p.channels c.fd)
    (hinterest : p'.interest c.fd = p.interest c.fd) : Registered p' c :=
  Stage.Wired.congr (show Stage.up.Wired p c from h) hchannels hinterest

namespace ConnLoop.StageInv

variable {s : ConnLoop Unit} {st : Stage}

/-- Outside the functions of the connection the loop may dispatch what it likes. -/
lemma withDispatch (h : StageInv st s) (hdispatches : s.pc.dispatches = false)
    (hclosing : s.pc ≠ .closing none) (d : LoopDispatch) :
    StageInv st { s with dispatch := d } where
  conn := h.conn
  owner := h.owner
  queue := h.queue
  control :=
    { fits := h.control.fits
      active := fun hpc => by cases hdispatches.symm.trans hpc
      task := fun hpc => absurd hpc hclosing
      hup := h.control.hup }

/-- What the poller knows about other descriptors does not concern the connection. -/
lemma withPoller (h : StageInv st s) {p : EPollPoller}
    (hchannels : p.channels s.conn.channel.fd = s.poller.channels s.conn.channel.fd)
    (hinterest : p.interest s.conn.channel.fd = s.poller.interest s.conn.channel.fd) :
    StageInv st { s with poller := p } where
  conn := { h.conn with wired := h.conn.wired.congr hchannels hinterest }
  owner := h.owner
  queue := h.queue
  control := h.control

end ConnLoop.StageInv

/-! ### Descriptors -/

/-- Every channel has an open descriptor of its own, the poller knows no other, and the kernel has a
pointer to the channel of the descriptor. -/
structure Descriptors (fdAt : ℕ → Option ℕ) (fds : ℕ → Bool) (p : EPollPoller)
    (ptr : ℕ → Option ℕ) : Prop where
  isOpen : ∀ a fd, fdAt a = some fd → fds fd = true
  inj : ∀ a b fd, fdAt a = some fd → fdAt b = some fd → a = b
  unknown : ∀ fd, (∀ a, fdAt a ≠ some fd) → p.channels fd = none ∧ p.interest fd = none
  ptr : ∀ a fd, fdAt a = some fd → p.interest fd ≠ none → ptr fd = some a

namespace Descriptors

variable {fdAt : ℕ → Option ℕ} {fds : ℕ → Bool} {p p' : EPollPoller} {ptr ptr' : ℕ → Option ℕ}
  {a fd : ℕ}

/-- A descriptor that is not open is unknown. -/
lemma closed (h : Descriptors fdAt fds p ptr) (hfd : fds fd = false) :
    p.channels fd = none ∧ p.interest fd = none := by
  refine h.unknown fd fun a ha => ?_
  cases hfd.symm.trans (h.isOpen a fd ha)

/-- A descriptor that is monitored belongs to the channel that the kernel points to. -/
lemma monitored (h : Descriptors fdAt fds p ptr) (hfd : p.interest fd ≠ none) :
    ∃ a, fdAt a = some fd ∧ ptr fd = some a := by
  by_contra hnone
  refine hfd (h.unknown fd fun a ha => hnone ⟨a, ha, h.ptr a fd ha hfd⟩).2

/-- Two channels have two descriptors. -/
lemma fd_ne (h : Descriptors fdAt fds p ptr) {b fd' : ℕ} (ha : fdAt a = some fd)
    (hb : fdAt b = some fd') (hne : b ≠ a) : fd' ≠ fd := by
  rintro rfl
  exact hne (h.inj b a fd' hb ha)

/-- A channel changes what the poller knows about its own descriptor. -/
lemma touch (h : Descriptors fdAt fds p ptr) (ha : fdAt a = some fd) (hp : SameElsewhere fd p p') :
    Descriptors fdAt fds p' fun fd =>
      if p'.interest fd = p.interest fd then ptr fd else some a where
  isOpen := h.isOpen
  inj := h.inj
  unknown fd' hfd' := by
    have hne : fd' ≠ fd := by
      rintro rfl
      exact hfd' a ha
    rw [(hp fd' hne).1, (hp fd' hne).2]
    exact h.unknown fd' hfd'
  ptr b fd' hb hinterest := by
    by_cases hsame : p'.interest fd' = p.interest fd'
    · rw [if_pos hsame]
      exact h.ptr b fd' hb (hsame ▸ hinterest)
    · have hfd' : fd' = fd := by
        by_contra hne
        exact hsame (hp fd' hne).2
      subst hfd'
      rw [if_neg hsame, h.inj a b fd' ha hb]

/-- A channel is made for a descriptor that was not open. -/
lemma create (h : Descriptors fdAt fds p ptr) (ha : fdAt a = none) (hfd : fds fd = false) :
    Descriptors (Function.update fdAt a (some fd)) (Function.update fds fd true) p ptr := by
  obtain ⟨hchannels, hinterest⟩ := h.closed hfd
  have hother : ∀ b fd', Function.update fdAt a (some fd) b = some fd' →
      (b = a ∧ fd' = fd) ∨ (b ≠ a ∧ fd' ≠ fd ∧ fdAt b = some fd') := by
    intro b fd' hb
    by_cases hba : b = a
    · subst hba
      rw [Function.update_self] at hb
      exact Or.inl ⟨rfl, (Option.some.inj hb).symm⟩
    · rw [Function.update_of_ne hba] at hb
      refine Or.inr ⟨hba, ?_, hb⟩
      rintro rfl
      cases hfd.symm.trans (h.isOpen b fd' hb)
  refine ⟨fun b fd' hb => ?_, fun b b' fd' hb hb' => ?_, fun fd' hfd' => ?_,
    fun b fd' hb hmonitored => ?_⟩
  · rcases hother b fd' hb with ⟨rfl, rfl⟩ | ⟨-, hne, hb⟩
    · exact Function.update_self ..
    · rw [Function.update_of_ne hne]
      exact h.isOpen b fd' hb
  · rcases hother b fd' hb with ⟨rfl, rfl⟩ | ⟨hba, hne, hb⟩
    · rcases hother b' fd' hb' with ⟨rfl, -⟩ | ⟨-, hne, -⟩
      · rfl
      · exact absurd rfl hne
    · rcases hother b' fd' hb' with ⟨-, rfl⟩ | ⟨-, -, hb'⟩
      · exact absurd rfl hne
      · exact h.inj b b' fd' hb hb'
  · refine h.unknown fd' fun b hb => hfd' b ?_
    have hba : b ≠ a := by
      rintro rfl
      cases ha.symm.trans hb
    rw [Function.update_of_ne hba, hb]
  · rcases hother b fd' hb with ⟨rfl, rfl⟩ | ⟨-, -, hb⟩
    · exact absurd hinterest hmonitored
    · exact h.ptr b fd' hb hmonitored

/-- A channel that has been removed goes, and its descriptor is closed. -/
lemma destroy (h : Descriptors fdAt fds p ptr) (ha : fdAt a = some fd)
    (hchannels : p.channels fd = none) :
    Descriptors (Function.update fdAt a none) (Function.update fds fd false)
      { p with interest := Function.update p.interest fd none } ptr := by
  have hother : ∀ b fd', Function.update fdAt a none b = some fd' →
      fd' ≠ fd ∧ fdAt b = some fd' := by
    intro b fd' hb
    by_cases hba : b = a
    · subst hba
      rw [Function.update_self] at hb
      cases hb
    · rw [Function.update_of_ne hba] at hb
      refine ⟨?_, hb⟩
      rintro rfl
      exact hba (h.inj b a fd' hb ha)
  refine ⟨fun b fd' hb => ?_, fun b b' fd' hb hb' => ?_, fun fd' hfd' => ?_,
    fun b fd' hb hmonitored => ?_⟩
  · obtain ⟨hne, hb⟩ := hother b fd' hb
    rw [Function.update_of_ne hne]
    exact h.isOpen b fd' hb
  · exact h.inj b b' fd' (hother b fd' hb).2 (hother b' fd' hb').2
  · by_cases hne : fd' = fd
    · subst hne
      exact ⟨hchannels, Function.update_self ..⟩
    · obtain ⟨hfree, hinterest⟩ := h.unknown fd' fun b hb => by
        refine hfd' b ?_
        have hba : b ≠ a := by
          rintro rfl
          exact hne (Option.some.inj (hb.symm.trans ha))
        rw [Function.update_of_ne hba, hb]
      exact ⟨hfree, (Function.update_of_ne hne ..).trans hinterest⟩
  · obtain ⟨hne, hb⟩ := hother b fd' hb
    exact h.ptr b fd' hb fun hnone => hmonitored ((Function.update_of_ne hne ..).trans hnone)

end Descriptors

namespace LoopHost

open ConnLoop

variable {s s' : LoopHost} {a b : ℕ} {h g : Hosted} {v : ConnLoop Unit}

/-! ### Queue and program counter -/

/-- The functions of a connection in two queues. -/
@[simp] lemma tasksOf_append (a : ℕ) (l l' : List HostTask) :
    tasksOf a (l ++ l') = tasksOf a l ++ tasksOf a l' := List.filterMap_append

/-- A functor of the user is none of a connection. -/
@[simp] lemma tasksOf_user (a : ℕ) : tasksOf a [.user] = [] := rfl

/-- The functions that a connection has posted are its own. -/
lemma tasksOf_map_self (a : ℕ) (l : List (ConnTask Unit)) :
    tasksOf a (l.map (.conn a)) = l := by
  simp [tasksOf, List.filterMap_map]

/-- They are none of another. -/
lemma tasksOf_map_of_ne (hb : b ≠ a) (l : List (ConnTask Unit)) :
    tasksOf b (l.map (.conn a)) = [] := by
  simp [tasksOf, List.filterMap_map, hb.symm]

/-- A function of a connection is in the queue of its loop. -/
lemma mem_tasksOf {l : List HostTask} {task : ConnTask Unit} :
    task ∈ tasksOf a l ↔ HostTask.conn a task ∈ l := by
  refine ⟨fun h => ?_, fun h => List.mem_filterMap.mpr ⟨_, h, by simp⟩⟩
  obtain ⟨x, hx, hx'⟩ := List.mem_filterMap.mp h
  cases x with
  | user => cases hx'
  | conn b task' =>
    obtain ⟨rfl, rfl⟩ : b = a ∧ task' = task := by simpa using hx'
    exact hx

/-- The loop thread is in a function of the connection. -/
lemma pcOf_of_inside {pc : ConnPc} (h : s.inside = some (a, pc)) : s.pcOf a = pc := by
  simp [pcOf, h, Option.filter]

/-- It is not. -/
lemma pcOf_of_outside (h : ∀ p ∈ s.inside, p.1 ≠ a) :
    s.pcOf a = if a ∈ s.turn then .polled else .idle := by
  have hfilter : s.inside.filter (·.1 = a) = none := by
    cases hinside : s.inside with
    | none => rfl
    | some p => simpa [Option.filter] using h p hinside
  simp [pcOf, hfilter]

/-- While no function of a connection runs, a connection waits for its turn or is idle. -/
lemma pcOf_of_none (h : s.inside = none) : s.pcOf a = if a ∈ s.turn then .polled else .idle := by
  refine pcOf_of_outside fun p hp => ?_
  rw [h] at hp
  cases hp

/-- In the loop itself only the list of the active channels matters. -/
lemma pcOf_congr (h : s.inside = none) (h' : s'.inside = none) (hturn : a ∈ s'.turn ↔ a ∈ s.turn) :
    s'.pcOf a = s.pcOf a := by
  rw [pcOf_of_none h, pcOf_of_none h']
  simp only [hturn]

/-- Outside its functions a connection is not dispatched. -/
lemma pcOf_quiet (h : ∀ p ∈ s.inside, p.1 ≠ a) :
    (s.pcOf a).dispatches = false ∧ s.pcOf a ≠ .closing none := by
  rw [pcOf_of_outside h]
  split
  · exact ⟨rfl, nofun⟩
  · exact ⟨rfl, nofun⟩

/-- A function of the connection is running. -/
lemma inside_of_pcOf (hidle : s.pcOf a ≠ .idle) (hpolled : s.pcOf a ≠ .polled) :
    s.inside = some (a, s.pcOf a) := by
  by_cases hout : ∀ p ∈ s.inside, p.1 ≠ a
  · rw [pcOf_of_outside hout] at hidle hpolled
    split at hidle
    · next hturn =>
      rw [if_pos hturn] at hpolled
      exact absurd rfl hpolled
    · exact absurd rfl hidle
  · push Not at hout
    obtain ⟨⟨b, pc⟩, hp, hb⟩ := hout
    obtain rfl : b = a := hb
    rw [pcOf_of_inside hp]
    exact hp

/-! ### The invariant -/

/-- The descriptor of the channel at an address. -/
def fdAt (s : LoopHost) (a : ℕ) : Option ℕ := (s.channelAt a).map Channel.fd

/-- What holds of the loop apart from its connections. -/
structure HostShape (s : LoopHost) : Prop where
  /-- The channels that are not a connection's are never disabled. -/
  channel : ∀ a k c, s.channels a = some (k, c) →
    c.address = a ∧ (Unregistered s.poller c ∨ Registered s.poller c)
  disjoint : ∀ a, s.conns a = none ∨ s.channels a = none
  descriptors : Descriptors s.fdAt s.fds s.poller s.ptr
  nodup : s.turn.Nodup
  turn_active : s.turn <:+ s.dispatch.activeChannels
  turn_known : ∀ a ∈ s.turn, s.conns a = none →
    ∃ k c, s.channels a = some (k, c) ∧ Registered s.poller c
  turn_stage : s.turn ≠ [] → s.stage = .poll ∨ s.stage = .handle
  functors_stage : s.functors ≠ [] → s.stage = .functors
  handling : s.dispatch.eventHandling = true ↔ s.stage = .handle
  inside : ∀ p ∈ s.inside, (s.conns p.1).isSome ∧ p.1 ∉ s.turn ∧ p.2 ≠ .idle ∧ p.2 ≠ .polled
  tasks : ∀ a task, HostTask.conn a task ∈ s.waiting → (s.conns a).isSome
  frame : ∀ a, s.frame = .event a → (s.channels a).isSome
  timers : s.timers.LoopInv

/-- A connection on the loop. -/
structure Sound (s : LoopHost) (a : ℕ) (h : Hosted) : Prop where
  address : h.conn.channel.address = a
  tidy : h.conn.channel.Tidy
  handling : h.conn.channel.eventHandling = (s.pcOf a).dispatches
  stage : ∃ st, StageInv st (s.view a h)

/-- The invariant. -/
structure HostInv (s : LoopHost) : Prop where
  shape : HostShape s
  sound : ∀ a h, s.conns a = some h → s.Sound a h

/-- The channel at the address of a connection is its own. -/
lemma channelAt_of_conn (h : s.conns a = some g) : s.channelAt a = some g.conn.channel := by
  simp [channelAt, h]

/-- The descriptor there is that of its channel. -/
lemma fdAt_of_conn (h : s.conns a = some g) : s.fdAt a = some g.conn.channel.fd := by
  simp [fdAt, channelAt_of_conn h]

/-- The channel at an address that is not a connection's. -/
lemma HostShape.channelAt_of_channel (hs : HostShape s) {k : LoopChannel} {c : Channel}
    (h : s.channels a = some (k, c)) : s.channelAt a = some c := by
  have hconn : s.conns a = none := (hs.disjoint a).resolve_right (by rw [h]; nofun)
  simp [channelAt, hconn, h]

/-- The descriptor there is its own. -/
lemma HostShape.fdAt_of_channel (hs : HostShape s) {k : LoopChannel} {c : Channel}
    (h : s.channels a = some (k, c)) : s.fdAt a = some c.fd := by
  simp [fdAt, hs.channelAt_of_channel h]

/-- A connection keeps its place in the invariant under what others do: it depends on the poller for
its descriptor, on its own functors, and on where the loop thread stands. -/
lemma Sound.elsewhere (hb : s.Sound b g)
    (hchannels : s'.poller.channels g.conn.channel.fd = s.poller.channels g.conn.channel.fd)
    (hinterest : s'.poller.interest g.conn.channel.fd = s.poller.interest g.conn.channel.fd)
    (htasks : tasksOf b s'.waiting = tasksOf b s.waiting) (hpc : s'.pcOf b = s.pcOf b)
    (hdispatch : s'.dispatch = s.dispatch ∨ ∀ p ∈ s.inside, p.1 ≠ b) : s'.Sound b g := by
  obtain ⟨haddress, htidy, hhandling, st, hst⟩ := hb
  refine ⟨haddress, htidy, hhandling.trans (by rw [hpc]), st, ?_⟩
  have hdispatched : StageInv st { s.view b g with dispatch := s'.dispatch } := by
    rcases hdispatch with heq | hout
    · rw [heq]
      exact hst
    · obtain ⟨hquiet, hclosing⟩ := pcOf_quiet hout
      exact hst.withDispatch hquiet hclosing _
  have hview : s'.view b g =
      { s.view b g with poller := s'.poller, dispatch := s'.dispatch } := by
    simp [view, htasks, hpc]
  rw [hview]
  exact hdispatched.withPoller hchannels hinterest

/-! ### A function of a connection -/

/-- What a function of the connection `a` may have changed when it is put back. -/
structure PutBack (s : LoopHost) (a : ℕ) (h : Hosted) (v : ConnLoop Unit) : Prop where
  elsewhere : SameElsewhere h.conn.channel.fd s.poller v.poller
  fd : v.conn.channel.fd = h.conn.channel.fd
  address : v.conn.channel.address = a
  tidy : v.conn.channel.Tidy
  handling : v.conn.channel.eventHandling = v.pc.dispatches
  stage : ∃ st, StageInv st v
  tasks : tasksOf a s.waiting <+: v.tasks
  active : v.dispatch.activeChannels = s.dispatch.activeChannels
  eventHandling : v.dispatch.eventHandling = s.dispatch.eventHandling
  /-- It was a call from outside, or the loop thread is in no function of another connection. -/
  control : (v.pc = s.pcOf a ∧ v.dispatch = s.dispatch) ∨
    (a ∉ s.turn ∧ (∀ p ∈ s.inside, p.1 = a) ∧ v.pc ≠ .polled)

/-- A call from outside leaves the loop thread where it is. -/
lemma inside_put_of_pc (hs : HostShape s) (hpc : v.pc = s.pcOf a) :
    (s.put a v).inside = s.inside := by
  by_cases hout : ∀ p ∈ s.inside, p.1 ≠ a
  · have hfilter : s.inside.filter (·.1 ≠ a) = s.inside := by
      cases hinside : s.inside with
      | none => rfl
      | some p => simpa [Option.filter] using hout p hinside
    rw [pcOf_of_outside hout] at hpc
    unfold put
    dsimp only
    split
    · exact hfilter
    · exact hfilter
    · next hidle hpolled =>
      split at hpc
      · exact absurd hpc hpolled
      · exact absurd hpc hidle
  · push Not at hout
    obtain ⟨⟨b, pc⟩, hp, hb⟩ := hout
    obtain rfl : b = a := hb
    obtain ⟨-, -, hidle, hpolled⟩ := hs.inside _ hp
    rw [pcOf_of_inside hp] at hpc
    unfold put
    dsimp only
    split
    · next heq => exact absurd (hpc.symm.trans heq) hidle
    · next heq => exact absurd (hpc.symm.trans heq) hpolled
    · rw [hpc]
      exact hp.symm

/-- Where the loop thread stands after a function that was not called from another connection. -/
lemma inside_put_of_alone (halone : ∀ p ∈ s.inside, p.1 = a) (hpolled : v.pc ≠ .polled) :
    (v.pc = .idle ∧ (s.put a v).inside = none) ∨
      (v.pc ≠ .idle ∧ (s.put a v).inside = some (a, v.pc)) := by
  unfold put
  dsimp only
  split
  · next hidle =>
    refine Or.inl ⟨hidle, ?_⟩
    cases hinside : s.inside with
    | none => rfl
    | some p => simpa [Option.filter] using halone p hinside
  · next heq => exact absurd heq hpolled
  · next hidle _ => exact Or.inr ⟨hidle, rfl⟩

/-- The program counters after a function of the connection `a`. -/
lemma PutBack.pcOf (hs : HostShape s) (hv : PutBack s a h v) (b : ℕ) :
    (s.put a v).pcOf b = if b = a then v.pc else s.pcOf b := by
  rcases hv.control with ⟨hpc, -⟩ | ⟨hturn, halone, hpolled⟩
  · have hsame : (s.put a v).pcOf b = s.pcOf b := by
      unfold LoopHost.pcOf
      rw [inside_put_of_pc hs hpc]
      rfl
    rw [hsame]
    split
    · next heq => rw [heq, hpc]
    · rfl
  · have hother : b ≠ a → ∀ p ∈ s.inside, p.1 ≠ b := by
      intro hb p hp
      rw [halone p hp]
      exact hb.symm
    rcases inside_put_of_alone halone hpolled with ⟨hidle, hinside⟩ | ⟨hidle, hinside⟩
    · rw [pcOf_of_none hinside]
      by_cases hb : b = a
      · rw [if_pos hb, hb, hidle]
        exact if_neg hturn
      · rw [if_neg hb]
        exact (pcOf_of_outside (hother hb)).symm
    · by_cases hb : b = a
      · rw [if_pos hb, hb]
        exact pcOf_of_inside hinside
      · rw [if_neg hb, pcOf_of_outside (hother hb), pcOf_of_outside]
        · rfl
        · intro p hp
          rw [hinside] at hp
          obtain rfl := Option.some.inj hp
          exact Ne.symm hb

/-- What the connection has queued is in its view again. -/
lemma tasksOf_put_self (htasks : tasksOf a s.waiting <+: v.tasks) :
    tasksOf a (s.put a v).waiting = v.tasks := by
  obtain ⟨new, hnew⟩ := htasks
  change tasksOf a (s.functors ++ (s.pendingFunctors ++
    (v.tasks.drop (tasksOf a s.waiting).length).map (.conn a))) = v.tasks
  rw [← hnew, List.drop_left, ← List.append_assoc, tasksOf_append, tasksOf_map_self]
  rfl

/-- Another connection has no more functions queued than before. -/
lemma tasksOf_put_of_ne (hb : b ≠ a) :
    tasksOf b (s.put a v).waiting = tasksOf b s.waiting := by
  change tasksOf b (s.functors ++ (s.pendingFunctors ++
    (v.tasks.drop (tasksOf a s.waiting).length).map (.conn a))) = _
  rw [← List.append_assoc, tasksOf_append, tasksOf_map_of_ne hb, List.append_nil]
  rfl

/-- The other connections stay as they are. -/
lemma conns_put_of_ne (hb : b ≠ a) : (s.put a v).conns b = s.conns b := Function.update_of_ne hb ..

/-- The connection itself has been put back. -/
lemma conns_put_self : (s.put a v).conns a = some ⟨v.conn, v.owner⟩ := Function.update_self ..

/-- No connection goes when one is put back. -/
lemma isSome_conns_put (hb : (s.conns b).isSome) : ((s.put a v).conns b).isSome := by
  by_cases hba : b = a
  · rw [hba, conns_put_self]
    rfl
  · rw [conns_put_of_ne hba]
    exact hb

/-- Every channel keeps its descriptor. -/
lemma fdAt_put (ha : s.conns a = some h) (hfd : v.conn.channel.fd = h.conn.channel.fd) :
    (s.put a v).fdAt = s.fdAt := by
  funext b
  by_cases hb : b = a
  · rw [hb, fdAt_of_conn ha, fdAt_of_conn conns_put_self, ← hfd]
  · unfold fdAt channelAt
    rw [conns_put_of_ne hb]
    rfl

/-- The rest of the loop is as before. -/
lemma HostShape.put (hs : HostShape s) (ha : s.conns a = some h) (hv : PutBack s a h v) :
    HostShape (s.put a v) where
  channel b k c hc := by
    obtain ⟨haddress, hwired⟩ := hs.channel b k c hc
    have hb : b ≠ a := by
      rintro rfl
      rcases hs.disjoint b with hnone | hnone
      · cases hnone.symm.trans ha
      · cases hnone.symm.trans hc
    have hfd : c.fd ≠ h.conn.channel.fd :=
      hs.descriptors.fd_ne (fdAt_of_conn ha) (hs.fdAt_of_channel hc) hb
    obtain ⟨hchannels, hinterest⟩ := hv.elsewhere c.fd hfd
    exact ⟨haddress, hwired.imp (fun hun => hun.congr hchannels hinterest)
      fun hreg => hreg.congr hchannels hinterest⟩
  disjoint b := by
    by_cases hb : b = a
    · rw [hb]
      exact Or.inr ((hs.disjoint a).resolve_left (by rw [ha]; nofun))
    · rw [conns_put_of_ne hb]
      exact hs.disjoint b
  descriptors := by
    rw [fdAt_put ha hv.fd]
    exact hs.descriptors.touch (fdAt_of_conn ha) hv.elsewhere
  nodup := hs.nodup
  turn_active := by
    change s.turn <:+ v.dispatch.activeChannels
    rw [hv.active]
    exact hs.turn_active
  turn_known b hb hnone := by
    have hba : b ≠ a := by
      rintro rfl
      rw [conns_put_self] at hnone
      cases hnone
    rw [conns_put_of_ne hba] at hnone
    obtain ⟨k, c, hc, hreg⟩ := hs.turn_known b hb hnone
    have hfd : c.fd ≠ h.conn.channel.fd :=
      hs.descriptors.fd_ne (fdAt_of_conn ha) (hs.fdAt_of_channel hc) hba
    obtain ⟨hchannels, hinterest⟩ := hv.elsewhere c.fd hfd
    exact ⟨k, c, hc, hreg.congr hchannels hinterest⟩
  turn_stage := hs.turn_stage
  functors_stage := hs.functors_stage
  handling := by
    change v.dispatch.eventHandling = true ↔ s.stage = .handle
    rw [hv.eventHandling]
    exact hs.handling
  inside p hp := by
    rcases hv.control with ⟨hpc, -⟩ | ⟨hturn, halone, hpolled⟩
    · rw [inside_put_of_pc hs hpc] at hp
      obtain ⟨hsome, hrest⟩ := hs.inside p hp
      exact ⟨isSome_conns_put hsome, hrest⟩
    · rcases inside_put_of_alone halone hpolled with ⟨-, hinside⟩ | ⟨hidle, hinside⟩
      · rw [hinside] at hp
        cases hp
      · rw [hinside] at hp
        obtain rfl := Option.some.inj hp
        exact ⟨by rw [conns_put_self]; rfl, hturn, hidle, hpolled⟩
  tasks b task hmem := by
    by_cases hb : b = a
    · rw [hb, conns_put_self]
      rfl
    · refine isSome_conns_put (hs.tasks b task ?_)
      rw [← mem_tasksOf, tasksOf_put_of_ne hb] at hmem
      exact mem_tasksOf.mp hmem
  frame := hs.frame
  timers := hs.timers

/-- A function of the connection `a` may be put back, if the other connections were all right. -/
theorem HostInv.put (hs : HostShape s) (hothers : ∀ b g, b ≠ a → s.conns b = some g → s.Sound b g)
    (ha : s.conns a = some h) (hv : PutBack s a h v) : HostInv (s.put a v) := by
  refine ⟨hs.put ha hv, fun b g hg => ?_⟩
  have hpc := hv.pcOf hs b
  by_cases hb : b = a
  · subst hb
    rw [conns_put_self] at hg
    obtain rfl := Option.some.inj hg
    rw [if_pos rfl] at hpc
    obtain ⟨st, hst⟩ := hv.stage
    refine ⟨hv.address, hv.tidy, hv.handling.trans (by rw [hpc]), st, ?_⟩
    have hview : (s.put b v).view b ⟨v.conn, v.owner⟩ = { v with accepted := [] } := by
      unfold view
      rw [tasksOf_put_self hv.tasks, hpc]
      rfl
    rw [hview]
    exact ⟨hst.conn, hst.owner, hst.queue, hst.control⟩
  · rw [conns_put_of_ne hb] at hg
    rw [if_neg hb] at hpc
    have hfd : g.conn.channel.fd ≠ h.conn.channel.fd :=
      hs.descriptors.fd_ne (fdAt_of_conn ha) (fdAt_of_conn hg) hb
    obtain ⟨hchannels, hinterest⟩ := hv.elsewhere _ hfd
    refine (hothers b g hb hg).elsewhere hchannels hinterest (tasksOf_put_of_ne hb) hpc ?_
    rcases hv.control with ⟨-, hdispatch⟩ | ⟨-, halone, -⟩
    · exact Or.inl hdispatch
    · refine Or.inr fun p hp heq => hb ?_
      exact heq.symm.trans (halone p hp)

end LoopHost

end MuduoServer
