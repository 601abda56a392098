import MuduoServer.Tcp.HostInv

/-!
# The steps of a loop

Every step of a loop with its channels succeeds and keeps the invariant.  There is one lemma per
step: a function of a connection is put back, the loop goes on to its next part, a write through a
bare pointer finds its channel, channels come and go.  `HostInv.step` collects them, and
`hostInv_of_run` carries the invariant along a run.
-/

namespace MuduoServer

/-- A step that is neither a call from outside nor one of the loop is taken inside a function of the
connection. -/
lemma ConnLoop.pc_of_pre {s : ConnLoop Unit} {act : ConnAct Unit} (hact : act.ofConn = true)
    (hcall : act.isCall ≠ true) (hpre : s.pre act) : s.pc ≠ .idle ∧ s.pc ≠ .polled := by
  cases act with
  | postSend | send | forceClose | retrieve | removeConnectionInLoop => exact absurd rfl hcall
  | runTask | poll | pollOther | endHandling | handleEvent | endEvent => cases hact
  | connectEstablished =>
    rw [show s.pc = .newConnection from hpre]
    exact ⟨nofun, nofun⟩
  | testClose =>
    rw [show s.pc = .phase .close from hpre]
    exact ⟨nofun, nofun⟩
  | testError =>
    rw [show s.pc = .phase .error from hpre]
    exact ⟨nofun, nofun⟩
  | testRead r =>
    rw [hpre.1]
    exact ⟨nofun, nofun⟩
  | testWrite w =>
    rw [hpre.1]
    exact ⟨nofun, nofun⟩
  | callbackReturns =>
    have hcallback : s.pc.inCallback = true := hpre
    refine ⟨fun hpc => ?_, fun hpc => ?_⟩
    · rw [hpc] at hcallback
      cases hcallback
    · rw [hpc] at hcallback
      cases hcallback

namespace LoopHost

open ConnLoop

variable {s s' : LoopHost} {a : ℕ} {h : Hosted}

/-- A call of a connection is a step of the connection. -/
lemma callsConn_ofConn {act : ConnAct Unit} (hcalls : s.callsConn act) : act.ofConn = true := by
  cases act <;> first | rfl | exact hcalls

namespace HostInv

/-! ### The functions of the connections -/

/-- A step of a connection succeeds, and may be put back. -/
lemma conn (hinv : HostInv s) (ha : s.conns a = some h) {act : ConnAct Unit}
    (hact : act.ofConn = true) (hpre : (s.view a h).pre act) :
    ∃ r, (s.view a h).step act = some r ∧ PutBack s a h r.1 := by
  obtain ⟨haddress, htidy, hhandling, st, hst⟩ := hinv.sound a h ha
  obtain ⟨v, out, st', hstep, hst', -⟩ := hst.step hpre
  obtain ⟨⟨helsewhere, haddress', hfd, hhandling', htidy'⟩, hdispatch, htasks, hpolled⟩ :=
    Local.step hact hstep
  have hdispatches := step_dispatches hact hpre hstep
  refine ⟨_, hstep, helsewhere, hfd, haddress'.trans haddress, htidy' htidy, ?_, ⟨st', hst'⟩,
    htasks, by rw [hdispatch]; rfl, by rw [hdispatch]; rfl, ?_⟩
  · rw [hdispatches]
    exact hhandling'.trans hhandling
  · by_cases hcall : act.isCall = true
    · exact Or.inl ⟨(step_keepsTable hcall hstep).2, hdispatch⟩
    · obtain ⟨hidle, hnot⟩ := pc_of_pre hact hcall hpre
      have hinside := inside_of_pcOf hidle hnot
      refine Or.inr ⟨(hinv.shape.inside _ hinside).2.1, fun p hp => ?_,
        fun hpc => hnot (hpolled hpc)⟩
      rw [hinside] at hp
      obtain rfl := Option.some.inj hp
      rfl

/-- Functions of a connection: the checks of the connection machine make the step succeed. -/
lemma step_conn (hinv : HostInv s) {act : ConnAct Unit} (hpre : s.pre (.conn a act)) :
    ∃ s', s.step (.conn a act) = some s' ∧ HostInv s' := by
  obtain ⟨hcalls, h, ha, hpre⟩ := hpre
  obtain ⟨r, hr, hput⟩ := hinv.conn ha (callsConn_ofConn hcalls) hpre
  refine ⟨s.put a r.1, ?_, .put hinv.shape (fun b g _ => hinv.sound b g) ha hput⟩
  simp only [step, show s.conns a = some h from ha, hr, Option.bind_eq_bind, Option.bind_some]

/-- In `doPendingFunctors` no channel waits for its turn, and none is dispatched. -/
lemma functors (hinv : HostInv s) (hloop : s.inLoop .functors) :
    s.turn = [] ∧ s.dispatch.eventHandling = false ∧ ∀ b, s.pcOf b = .idle := by
  obtain ⟨hinside, -, hstage⟩ := hloop
  have hturn : s.turn = [] := by
    by_contra hne
    rcases hinv.shape.turn_stage hne with heq | heq
    · cases hstage.symm.trans heq
    · cases hstage.symm.trans heq
  refine ⟨hturn, ?_, fun b => ?_⟩
  · cases hhandling : s.dispatch.eventHandling with
    | false => rfl
    | true => cases hstage.symm.trans (hinv.shape.handling.mp hhandling)
  · rw [pcOf_of_none hinside, hturn]
    exact if_neg List.not_mem_nil

/-- The functor that runs is taken off first. -/
lemma shape_pop (hinv : HostInv s) (hloop : s.inLoop .functors) {x : HostTask}
    {functors : List HostTask} (hx : s.functors = x :: functors) :
    HostShape { s with functors := functors, frame := .functor } :=
  { hinv.shape with
    functors_stage := fun _ => hloop.2.2
    tasks := fun b task hmem => by
      refine hinv.shape.tasks b task ?_
      rcases List.mem_append.mp hmem with hmem | hmem
      · refine List.mem_append_left _ ?_
        rw [hx]
        exact List.mem_cons_of_mem _ hmem
      · exact List.mem_append_right _ hmem
    frame := nofun }

/-- A task of a connection: its guard keeps the connection alive, so it runs. -/
lemma step_runFunctor (hinv : HostInv s) {w : WriteResult} (hpre : s.pre (.runFunctor w)) :
    ∃ s', s.step (.runFunctor w) = some s' ∧ HostInv s' := by
  obtain ⟨hloop, hw⟩ := hpre
  obtain ⟨hturn, hhandling, hidle⟩ := hinv.functors hloop
  unfold functorWithin at hw
  cases hx : s.functors with
  | nil =>
    rw [hx] at hw
    exact hw.elim
  | cons x functors =>
    have hshape := hinv.shape_pop hloop hx
    -- the other connections have the functors that they had
    have hothers : ∀ b g, tasksOf b [x] = [] → s.conns b = some g →
        ({ s with functors := functors, frame := .functor } : LoopHost).Sound b g := by
      intro b g hb hg
      refine (hinv.sound b g hg).elsewhere rfl rfl ?_ rfl (Or.inl rfl)
      change tasksOf b (functors ++ s.pendingFunctors) = tasksOf b (s.functors ++ s.pendingFunctors)
      rw [hx, ← List.singleton_append, List.append_assoc, tasksOf_append b [x], hb,
        List.nil_append]
    cases x with
    | user =>
      refine ⟨{ s with functors := functors, frame := .functor }, ?_, hshape, fun b g hg => ?_⟩
      · simp only [step, runFunctor, hx]
      · exact hothers b g rfl hg
    | conn a task =>
      rw [hx] at hw
      have hmem : HostTask.conn a task ∈ s.waiting := by
        refine List.mem_append_left _ ?_
        rw [hx]
        exact List.mem_cons_self
      obtain ⟨h, ha⟩ := Option.isSome_iff_exists.mp (hinv.shape.tasks a task hmem)
      obtain ⟨haddress, htidy, hflag, st, hst⟩ := hinv.sound a h ha
      obtain ⟨v, out, st', hrun, hst', -⟩ := hst.runTask (hidle a) hhandling (hw h ha)
      have htasks : (s.view a h).tasks = task :: tasksOf a (functors ++ s.pendingFunctors) := by
        change tasksOf a (s.functors ++ s.pendingFunctors) = _
        rw [hx]
        simp [tasksOf]
      obtain ⟨⟨helsewhere, haddress', hfd, hflag', htidy'⟩, hdispatch, hprefix, hpolled⟩ :=
        Local.runTask htasks hrun
      have hput : PutBack { s with functors := functors, frame := .functor } a h v := by
        refine ⟨helsewhere, hfd, haddress'.trans haddress, htidy' htidy, ?_, ⟨st', hst'⟩, hprefix,
          by rw [hdispatch]; rfl, by rw [hdispatch]; rfl, Or.inr ⟨?_, ?_, ?_⟩⟩
        · rw [runTask_dispatches (hidle a) hrun]
          refine hflag'.trans (hflag.trans ?_)
          rw [hidle a]
          rfl
        · change a ∉ s.turn
          rw [hturn]
          exact List.not_mem_nil
        · intro p hp
          cases hloop.1.symm.trans hp
        · intro hpc
          cases (hidle a).symm.trans (hpolled hpc)
      refine ⟨_, ?_, .put hshape (fun b g hb hg => hothers b g ?_ hg) ha hput⟩
      · simp only [step, runFunctor, hx, ha, ConnLoop.step, hrun, Option.bind_eq_bind,
          Option.bind_some]
      · simp [tasksOf, hb.symm]

/-! ### The traversal -/

/-- The channel whose turn has come is taken off first. -/
lemma shape_turn (hinv : HostInv s) {turn : List ℕ} (hturn : s.turn = a :: turn) :
    HostShape { s with turn := turn } :=
  have hsub : ∀ b ∈ turn, b ∈ s.turn := fun b hb => by
    rw [hturn]
    exact List.mem_cons_of_mem _ hb
  { hinv.shape with
    nodup := (List.nodup_cons.mp (hturn ▸ hinv.shape.nodup)).2
    turn_active := (List.suffix_cons a turn).trans (hturn ▸ hinv.shape.turn_active)
    turn_known := fun b hb => hinv.shape.turn_known b (hsub b hb)
    turn_stage := fun _ => hinv.shape.turn_stage (by rw [hturn]; nofun)
    inside := fun p hp => by
      obtain ⟨hsome, hnot, hpc⟩ := hinv.shape.inside p hp
      exact ⟨hsome, fun hmem => hnot (hsub _ hmem), hpc⟩ }

/-- The connection whose turn has come. -/
lemma handleEvent_conn (hinv : HostInv s) {turn : List ℕ} (hturn : s.turn = a :: turn)
    (hinside : s.inside = none) (ha : s.conns a = some h) :
    ∃ s', s.handleEvent a turn = some s' ∧ HostInv s' := by
  have hpc : s.pcOf a = .polled := by
    rw [pcOf_of_none hinside, hturn]
    exact if_pos List.mem_cons_self
  have hnot : a ∉ turn := (List.nodup_cons.mp (hturn ▸ hinv.shape.nodup)).1
  obtain ⟨haddress, htidy, -, st, hst⟩ := hinv.sound a h ha
  obtain ⟨v, out, st', hstep, hst', -⟩ := hst.step
    (show (s.view a h).pre .handleEvent from hpc)
  have hput : PutBack { s with turn := turn } a h v := by
    obtain ⟨rfl, -⟩ := Prod.mk.inj (Option.some.inj hstep)
    refine ⟨fun _ _ => ⟨rfl, rfl⟩, rfl, haddress, htidy, rfl, ⟨st', hst'⟩, List.prefix_refl _, rfl,
      rfl, Or.inr ⟨hnot, fun p hp => ?_, nofun⟩⟩
    cases hinside.symm.trans hp
  refine ⟨_, ?_, .put (hinv.shape_turn hturn) (fun b g hb hg => ?_) ha hput⟩
  · simp only [LoopHost.handleEvent, ha, hstep, Option.bind_eq_bind, Option.bind_some]
  · refine (hinv.sound b g hg).elsewhere rfl rfl rfl (pcOf_congr hinside hinside ?_) (Or.inl rfl)
    rw [hturn]
    exact (List.mem_cons.trans (or_iff_right hb)).symm

/-- Its `handleEvent` returns. -/
lemma endEvent_conn (hinv : HostInv s) (hinside : s.inside = some (a, .phase .done)) :
    ∃ s', s.endEvent = some s' ∧ HostInv s' := by
  obtain ⟨hsome, hturn, -⟩ := hinv.shape.inside _ hinside
  obtain ⟨h, ha⟩ := Option.isSome_iff_exists.mp hsome
  have hpc : s.pcOf a = .phase .done := pcOf_of_inside hinside
  obtain ⟨haddress, htidy, -, st, hst⟩ := hinv.sound a h ha
  obtain ⟨v, out, st', hstep, hst', -⟩ := hst.step
    (show (s.view a h).pre .endEvent from hpc)
  have hput : PutBack s a h v := by
    obtain ⟨rfl, -⟩ := Prod.mk.inj (Option.some.inj hstep)
    refine ⟨fun _ _ => ⟨rfl, rfl⟩, rfl, haddress, htidy, rfl, ⟨st', hst'⟩, List.prefix_refl _, rfl,
      rfl, Or.inr ⟨hturn, fun p hp => ?_, nofun⟩⟩
    rw [hinside] at hp
    obtain rfl := Option.some.inj hp
    rfl
  refine ⟨_, ?_, .put hinv.shape (fun b g _ => hinv.sound b g) ha hput⟩
  simp only [LoopHost.endEvent, hinside, ha, hstep, Option.bind_eq_bind, Option.bind_some]

end HostInv

/-! ### Writes through a pointer -/

/-- A write that does not concern the poller. -/
structure Harmless (f : Channel → Channel) : Prop where
  address : ∀ c, (f c).address = c.address
  fd : ∀ c, (f c).fd = c.fd
  events : ∀ c, (f c).events = c.events
  index : ∀ c, (f c).index = c.index

/-- To mark the channel as handling its event is harmless. -/
lemma Harmless.setEventHandling (on : Bool) : Harmless (·.setEventHandling on) :=
  ⟨fun _ => rfl, fun _ => rfl, fun _ => rfl, fun _ => rfl⟩

/-- To store the reported events is harmless. -/
lemma Harmless.setRevents (revents : Events) : Harmless (·.setRevents revents) :=
  ⟨fun _ => rfl, fun _ => rfl, fun _ => rfl, fun _ => rfl⟩

/-- A harmless change does not register the channel. -/
lemma Harmless.unregistered {f : Channel → Channel} (hf : Harmless f) {p : EPollPoller}
    {c : Channel} (h : Unregistered p c) : Unregistered p (f c) where
  index := (hf.index c).trans h.index
  events := (hf.events c).trans h.events
  channels := by rw [hf.fd]; exact h.channels
  interest := by rw [hf.fd]; exact h.interest

/-- Nor does it unregister it. -/
lemma Harmless.registered {f : Channel → Channel} (hf : Harmless f) {p : EPollPoller}
    {c : Channel} (h : Registered p c) : Registered p (f c) where
  index := (hf.index c).trans h.index
  reading := by rw [hf.events]; exact h.reading
  channels := by rw [hf.fd, hf.address]; exact h.channels
  interest := by rw [hf.fd, hf.events]; exact h.interest

/-- A change of one channel leaves the other connections alone. -/
lemma conns_mapChannel_of_ne (f : Channel → Channel) {b : ℕ} (hb : b ≠ a) :
    (s.mapChannel a f).conns b = s.conns b := Function.update_of_ne hb ..

/-- The connection whose channel it is has the changed channel. -/
lemma conns_mapChannel_self {f : Channel → Channel} (ha : s.conns a = some h) :
    (s.mapChannel a f).conns a =
      some { h with conn := { h.conn with channel := f h.conn.channel } } := by
  simp [mapChannel, ha]

/-- No connection comes or goes when a channel changes. -/
lemma isSome_conns_mapChannel (f : Channel → Channel) (b : ℕ) :
    ((s.mapChannel a f).conns b).isSome = (s.conns b).isSome := by
  unfold mapChannel
  by_cases hb : b = a
  · subst hb
    simp
  · simp [Function.update_of_ne hb]

/-- No connection has changed if the channel is not a connection's. -/
lemma conns_of_mapChannel {f : Channel → Channel} {b : ℕ} {g : Hosted} (ha : s.conns a = none)
    (hg : (s.mapChannel a f).conns b = some g) : b ≠ a ∧ s.conns b = some g := by
  have hb : b ≠ a := by
    rintro rfl
    have hsome := isSome_conns_mapChannel (s := s) (a := b) f b
    rw [hg, ha] at hsome
    cases hsome
  rw [conns_mapChannel_of_ne f hb] at hg
  exact ⟨hb, hg⟩

/-- The channels after such a write. -/
lemma channels_mapChannel (f : Channel → Channel) (b : ℕ) :
    (s.mapChannel a f).channels b = s.channels b ∨
      (s.mapChannel a f).channels b = (s.channels b).map fun p => (p.1, f p.2) := by
  unfold mapChannel
  by_cases hb : b = a
  · subst hb
    exact Or.inr (Function.update_self ..)
  · exact Or.inl (Function.update_of_ne hb ..)

/-- No channel comes or goes either. -/
lemma isSome_channels_mapChannel (f : Channel → Channel) (b : ℕ) :
    ((s.mapChannel a f).channels b).isSome = (s.channels b).isSome := by
  rcases channels_mapChannel (s := s) (a := a) f b with heq | heq
  · rw [heq]
  · rw [heq, Option.isSome_map]

/-- A harmless change keeps the descriptor of each channel. -/
lemma fdAt_mapChannel {f : Channel → Channel} (hf : Harmless f) :
    (s.mapChannel a f).fdAt = s.fdAt := by
  funext b
  unfold fdAt channelAt mapChannel
  by_cases hb : b = a
  · subst hb
    simp only [Function.update_self]
    cases s.conns b with
    | some g => simp [hf.fd]
    | none => cases hc : s.channels b <;> simp [hf.fd]
  · simp only [Function.update_of_ne hb]

/-- A harmless change keeps the shape of the host. -/
lemma HostShape.mapChannel (hs : HostShape s) {f : Channel → Channel} (hf : Harmless f) (a : ℕ) :
    HostShape (s.mapChannel a f) where
  channel b k c hc := by
    rcases channels_mapChannel (s := s) (a := a) f b with heq | heq
    · exact hs.channel b k c (heq ▸ hc)
    · rw [heq] at hc
      obtain ⟨⟨k', c₀⟩, hc₀, heq⟩ := Option.map_eq_some_iff.mp hc
      obtain ⟨rfl, rfl⟩ := Prod.mk.inj heq
      obtain ⟨haddress, hwired⟩ := hs.channel b _ c₀ hc₀
      exact ⟨(hf.address c₀).trans haddress, hwired.imp hf.unregistered hf.registered⟩
  disjoint b := by
    rw [← Option.not_isSome_iff_eq_none, ← Option.not_isSome_iff_eq_none,
      isSome_conns_mapChannel, isSome_channels_mapChannel, Option.not_isSome_iff_eq_none,
      Option.not_isSome_iff_eq_none]
    exact hs.disjoint b
  descriptors := by
    rw [fdAt_mapChannel hf]
    exact hs.descriptors
  nodup := hs.nodup
  turn_active := hs.turn_active
  turn_known b hb hnone := by
    rw [← Option.not_isSome_iff_eq_none, isSome_conns_mapChannel,
      Option.not_isSome_iff_eq_none] at hnone
    obtain ⟨k, c, hc, hreg⟩ := hs.turn_known b hb hnone
    rcases channels_mapChannel (s := s) (a := a) f b with heq | heq
    · exact ⟨k, c, heq.trans hc, hreg⟩
    · refine ⟨k, f c, ?_, hf.registered hreg⟩
      rw [heq, hc]
      rfl
  turn_stage := hs.turn_stage
  functors_stage := hs.functors_stage
  handling := hs.handling
  inside p hp := by
    rw [isSome_conns_mapChannel]
    exact hs.inside p hp
  tasks b task hmem := by
    rw [isSome_conns_mapChannel]
    exact hs.tasks b task hmem
  frame b hb := by
    rw [isSome_channels_mapChannel]
    exact hs.frame b hb
  timers := hs.timers

namespace HostInv

/-- The turn of a channel that is not a connection's. -/
lemma handleEvent_channel (hinv : HostInv s) {turn : List ℕ} (hturn : s.turn = a :: turn)
    (hinside : s.inside = none) (ha : s.conns a = none) :
    ∃ s', s.handleEvent a turn = some s' ∧ HostInv s' := by
  obtain ⟨k, c, hc, -⟩ := hinv.shape.turn_known a (by rw [hturn]; exact List.mem_cons_self) ha
  have hshape := (hinv.shape_turn hturn).mapChannel (.setEventHandling true) a
  simp only [LoopHost.handleEvent, ha, hc, Option.bind_eq_bind, Option.bind_some]
  refine ⟨_, rfl, { hshape with frame := fun b hb => ?_ }, fun b g hg => ?_⟩
  · obtain rfl := HostFrame.event.inj hb
    change ((s.mapChannel a (·.setEventHandling true)).channels a).isSome = true
    rw [isSome_channels_mapChannel, hc]
    rfl
  · obtain ⟨hb, hg⟩ := conns_of_mapChannel (f := (·.setEventHandling true)) ha hg
    refine (hinv.sound b g hg).elsewhere rfl rfl rfl (pcOf_congr hinside hinside ?_) (Or.inr ?_)
    · rw [hturn]
      exact (List.mem_cons.trans (or_iff_right hb)).symm
    · intro p hp
      cases hinside.symm.trans hp

/-- The next channel of the list exists, so its `handleEvent()` begins. -/
lemma step_handleEvent (hinv : HostInv s) (hpre : s.pre .handleEvent) :
    ∃ s', s.step .handleEvent = some s' ∧ HostInv s' := by
  obtain ⟨⟨hinside, -, -⟩, hne⟩ := hpre
  cases hturn : s.turn with
  | nil => exact absurd hturn hne
  | cons a turn =>
    simp only [step, hturn]
    cases ha : s.conns a with
    | some h => exact hinv.handleEvent_conn hturn hinside ha
    | none => exact hinv.handleEvent_channel hturn hinside ha

/-- Another channel returns. -/
lemma endEvent_channel (hinv : HostInv s) (hinside : s.inside = none)
    (hframe : s.frame = .event a) : ∃ s', s.endEvent = some s' ∧ HostInv s' := by
  obtain ⟨p, hp⟩ := Option.isSome_iff_exists.mp (hinv.shape.frame a hframe)
  have ha : s.conns a = none := (hinv.shape.disjoint a).resolve_right (by rw [hp]; nofun)
  have hshape := hinv.shape.mapChannel (.setEventHandling false) a
  simp only [LoopHost.endEvent, hinside, hframe, hp, Option.bind_eq_bind, Option.bind_some]
  refine ⟨_, rfl, { hshape with frame := nofun }, fun b g hg => ?_⟩
  obtain ⟨-, hg⟩ := conns_of_mapChannel (f := (·.setEventHandling false)) ha hg
  refine (hinv.sound b g hg).elsewhere rfl rfl rfl rfl (Or.inr fun p hp => ?_)
  cases hinside.symm.trans hp

/-- The `handleEvent()` of a channel ends. -/
lemma step_endEvent (hinv : HostInv s) (hpre : s.pre .endEvent) :
    ∃ s', s.step .endEvent = some s' ∧ HostInv s' := by
  have hends : s.endsEvent := hpre
  unfold endsEvent at hends
  simp only [step]
  split at hends
  · next p hinside =>
    obtain ⟨a, pc⟩ := p
    obtain rfl : pc = .phase .done := hends
    exact hinv.endEvent_conn hinside
  · next a hinside hframe => exact hinv.endEvent_channel hinside hframe
  · exact hends.elim

/-! ### Polling -/

/-- The connection that `poll` has found. -/
lemma report_conn (hinv : HostInv s) (ha : s.conns a = some h) (hinside : s.inside = none)
    {events revents : Events} (hturn : a ∉ s.turn)
    (hinterest : s.poller.interest h.conn.channel.fd = some events)
    (hreports : EpollReports events revents) (hinside' : s'.inside = none) (hmem : a ∈ s'.turn)
    (hpoller : s'.poller = s.poller) (hwaiting : s'.waiting = s.waiting) :
    s'.Sound a { h with conn := { h.conn with channel := h.conn.channel.setRevents revents } } := by
  have hidle : s.pcOf a = .idle := by
    rw [pcOf_of_none hinside]
    exact if_neg hturn
  have hpolled : s'.pcOf a = .polled := by
    rw [pcOf_of_none hinside']
    exact if_pos hmem
  obtain ⟨haddress, htidy, hhandling, st, hst⟩ := hinv.sound a h ha
  obtain ⟨v, out, st', hstep, hst', -⟩ := hst.poll hinterest hreports
  obtain ⟨rfl, -⟩ := Prod.mk.inj (Option.some.inj hstep)
  refine ⟨haddress, htidy, ?_, st', ?_⟩
  · rw [hpolled]
    refine hhandling.trans ?_
    rw [hidle]
    rfl
  · have hview : s'.view a
          { h with conn := { h.conn with channel := h.conn.channel.setRevents revents } } =
        { s.view a h with
          conn := { h.conn with channel := h.conn.channel.setRevents revents }
          dispatch := s'.dispatch
          pc := .polled } := by
      simp [view, hpolled, hpoller, hwaiting]
    rw [hview]
    exact hst'.withDispatch rfl (by simp) _

/-- The kernel reports a descriptor that it watches, so the pointer it gives back is in the table.
-/
lemma step_report (hinv : HostInv s) {fd : ℕ} {revents : Events}
    (hpre : s.pre (.report fd revents)) :
    ∃ s', s.step (.report fd revents) = some s' ∧ HostInv s' := by
  obtain ⟨⟨hinside, hframe, hstage⟩, hnew, events, hinterest, hreports⟩ := hpre
  have hmonitored : s.poller.interest fd ≠ none := by
    rw [show s.poller.interest fd = some events from hinterest]
    nofun
  -- the pointer in the kernel leads to the channel of the descriptor
  obtain ⟨a, ha, hptr⟩ := hinv.shape.descriptors.monitored hmonitored
  obtain ⟨c, hc, hfd⟩ := Option.map_eq_some_iff.mp ha
  have hturn : a ∉ s.turn := fun hmem => hnew a hptr (hinv.shape.turn_active.mem hmem)
  have hshape := hinv.shape.mapChannel (.setRevents revents) a
  simp only [step, hptr, hc, Option.bind_eq_bind, Option.bind_some]
  refine ⟨_, rfl, { hshape with
    nodup := List.nodup_append.mpr ⟨hshape.nodup, List.nodup_singleton a, ?_⟩
    turn_active := ?_
    turn_known := fun b hb hnone => ?_
    turn_stage := fun _ => Or.inl hstage
    inside := fun p hp => ?_ }, fun b g hg => ?_⟩
  · rintro b hb _ hb' rfl
    rw [List.mem_singleton.mp hb'] at hb
    exact hturn hb
  · obtain ⟨done, hdone⟩ := hinv.shape.turn_active
    refine ⟨done, ?_⟩
    change done ++ (s.turn ++ [a]) = s.dispatch.activeChannels ++ [a]
    rw [← hdone, List.append_assoc]
  · rcases List.mem_append.mp hb with hb | hb
    · exact hshape.turn_known b hb hnone
    · obtain rfl := List.mem_singleton.mp hb
      have hconn : s.conns b = none := by
        rw [← Option.not_isSome_iff_eq_none, ← isSome_conns_mapChannel (a := b)
          (·.setRevents revents), Option.not_isSome_iff_eq_none]
        exact hnone
      simp only [channelAt, hconn] at hc
      obtain ⟨⟨k, c₀⟩, hk, rfl⟩ := Option.map_eq_some_iff.mp hc
      refine ⟨k, c₀.setRevents revents, by simp [mapChannel, hk], ?_⟩
      rcases (hinv.shape.channel b k c₀ hk).2 with hun | hreg
      · rw [← hfd] at hmonitored
        exact absurd hun.interest hmonitored
      · exact (Harmless.setRevents revents).registered hreg
  · cases hinside.symm.trans hp
  · by_cases hb : b = a
    · subst hb
      cases hconn : s.conns b with
      | none => exact absurd rfl (conns_of_mapChannel (f := (·.setRevents revents)) hconn hg).1
      | some h =>
        have hgh : g = { h with conn := { h.conn with
            channel := h.conn.channel.setRevents revents } } := by
          refine Option.some.inj (hg.symm.trans ?_)
          exact conns_mapChannel_self (f := (·.setRevents revents)) hconn
        rw [hgh]
        have hfd' : h.conn.channel.fd = fd := by
          rw [channelAt_of_conn hconn] at hc
          rw [← hfd, ← Option.some.inj hc]
        refine hinv.report_conn hconn hinside hturn ?_ hreports hinside ?_ rfl rfl
        · rw [hfd']
          exact hinterest
        · exact List.mem_append_right _ List.mem_cons_self
    · have hg' : s.conns b = some g :=
        (conns_mapChannel_of_ne (·.setRevents revents) hb).symm.trans hg
      refine (hinv.sound b g hg').elsewhere rfl rfl rfl (pcOf_congr hinside hinside ?_) (Or.inr ?_)
      · exact List.mem_append.trans (or_iff_left (fun hmem => hb (List.mem_singleton.mp hmem)))
      · intro p hp
        cases hinside.symm.trans hp

/-- The loop goes on to its next part.  No connection is concerned. -/
lemma of_loop (hinv : HostInv s) (hinside : s.inside = none) (hshape : HostShape s')
    (hconns : s'.conns = s.conns) (hpoller : s'.poller = s.poller)
    (hwaiting : s'.waiting = s.waiting) (hinside' : s'.inside = none) (hturn : s'.turn = s.turn) :
    HostInv s' := by
  refine ⟨hshape, fun b g hg => ?_⟩
  rw [hconns] at hg
  refine (hinv.sound b g hg).elsewhere (by rw [hpoller]) (by rw [hpoller]) (by rw [hwaiting])
    (pcOf_congr hinside hinside' (by rw [hturn])) (Or.inr fun p hp => ?_)
  cases hinside.symm.trans hp

/-- The poll returns with an empty list, which the reports then fill. -/
lemma step_poll (hinv : HostInv s) (hpre : s.pre .poll) :
    ∃ s', s.step .poll = some s' ∧ HostInv s' := by
  obtain ⟨hinside, hframe, hstage⟩ := hpre
  have hturn : s.turn = [] := by
    by_contra hne
    rcases hinv.shape.turn_stage hne with heq | heq
    · cases hstage.symm.trans heq
    · cases hstage.symm.trans heq
  refine ⟨_, rfl, hinv.of_loop hinside { hinv.shape with
    nodup := List.nodup_nil
    turn_active := List.suffix_refl _
    turn_known := nofun
    turn_stage := fun _ => Or.inl rfl
    functors_stage := fun hne => ?_
    handling := ⟨fun hhandling => ?_, nofun⟩
    inside := fun p hp => ?_ } rfl rfl rfl hinside hturn.symm⟩
  · cases hstage.symm.trans (hinv.shape.functors_stage hne)
  · cases hstage.symm.trans (hinv.shape.handling.mp hhandling)
  · cases hinside.symm.trans hp

/-- The traversal begins. -/
lemma step_beginHandling (hinv : HostInv s) (hpre : s.pre .beginHandling) :
    ∃ s', s.step .beginHandling = some s' ∧ HostInv s' := by
  obtain ⟨hinside, hframe, hstage⟩ := hpre
  refine ⟨_, rfl, hinv.of_loop hinside { hinv.shape with
    turn_stage := fun _ => Or.inr rfl
    functors_stage := fun hne => ?_
    handling := ⟨fun _ => rfl, fun _ => rfl⟩ } rfl rfl rfl hinside rfl⟩
  cases hstage.symm.trans (hinv.shape.functors_stage hne)

/-- The traversal ends. -/
lemma step_endHandling (hinv : HostInv s) (hpre : s.pre .endHandling) :
    ∃ s', s.step .endHandling = some s' ∧ HostInv s' := by
  obtain ⟨⟨hinside, hframe, hstage⟩, hturn⟩ := hpre
  -- no functor is left from the last round
  have hfunctors : s.functors = [] := by
    by_contra hne
    cases hstage.symm.trans (hinv.shape.functors_stage hne)
  have hwaiting : s.pendingFunctors ++ [] = s.functors ++ s.pendingFunctors := by
    rw [hfunctors, List.append_nil, List.nil_append]
  refine ⟨_, rfl, hinv.of_loop hinside { hinv.shape with
    turn_stage := fun hne => absurd hturn hne
    functors_stage := fun _ => rfl
    handling := ⟨nofun, nofun⟩
    tasks := fun b task hmem => ?_ } rfl rfl hwaiting hinside rfl⟩
  refine hinv.shape.tasks b task ?_
  change HostTask.conn b task ∈ s.functors ++ s.pendingFunctors
  rw [← hwaiting]
  exact hmem

/-- A functor returns. -/
lemma step_endFunctor (hinv : HostInv s) (hpre : s.pre .endFunctor) :
    ∃ s', s.step .endFunctor = some s' ∧ HostInv s' := by
  obtain ⟨⟨hinside, -⟩, -⟩ := hpre
  exact ⟨_, rfl, hinv.of_loop hinside { hinv.shape with frame := nofun } rfl rfl rfl hinside rfl⟩

/-- The batch is used up, and the loop goes on to the next round. -/
lemma step_endFunctors (hinv : HostInv s) (hpre : s.pre .endFunctors) :
    ∃ s', s.step .endFunctors = some s' ∧ HostInv s' := by
  obtain ⟨hloop, hempty⟩ := hpre
  obtain ⟨hturn, hhandling, -⟩ := hinv.functors hloop
  refine ⟨_, rfl, hinv.of_loop hloop.1 { hinv.shape with
    turn_stage := fun hne => absurd hturn hne
    functors_stage := fun hne => absurd (List.isEmpty_iff.mp hempty) hne
    handling := ⟨fun htrue => ?_, nofun⟩ } rfl rfl rfl hloop.1 rfl⟩
  cases hhandling.symm.trans htrue

/-! ### What has nothing to do with a channel -/

/-- A functor that is no function of a connection goes to the end of the queue. -/
lemma step_queueInLoop (hinv : HostInv s) :
    ∃ s', s.step .queueInLoop = some s' ∧ HostInv s' := by
  refine ⟨_, rfl, { hinv.shape with tasks := fun b task hmem => ?_ }, fun b g hg => ?_⟩
  · refine hinv.shape.tasks b task ?_
    rcases List.mem_append.mp hmem with hmem | hmem
    · exact List.mem_append_left _ hmem
    · rcases List.mem_append.mp hmem with hmem | hmem
      · exact List.mem_append_right _ hmem
      · cases List.mem_singleton.mp hmem
  · refine (hinv.sound b g hg).elsewhere rfl rfl ?_ rfl (Or.inl rfl)
    change tasksOf b (s.functors ++ (s.pendingFunctors ++ [.user])) = _
    rw [← List.append_assoc, tasksOf_append, tasksOf_user, List.append_nil]
    rfl

/-- What the TimerQueue does leaves the connections alone. -/
lemma step_timer (hinv : HostInv s) {act : TimerAct} (hpre : s.pre (.timer act)) :
    ∃ s', s.step (.timer act) = some s' ∧ HostInv s' := by
  obtain ⟨timers, out, hstep, -, htimers⟩ := TimerLoop.step_effect hinv.shape.timers hpre.2
  simp only [step, hstep, Option.bind_eq_bind, Option.bind_some]
  refine ⟨_, rfl, { hinv.shape with timers := htimers }, fun b g hg => ?_⟩
  exact (hinv.sound b g hg).elsewhere rfl rfl rfl rfl (Or.inl rfl)

/-! ### Channels come and go -/

/-- The invariant holds of a new loop. -/
lemma new (clk : Timestamp) : HostInv (.new clk) where
  shape :=
    { channel := nofun
      disjoint := fun _ => Or.inl rfl
      descriptors := ⟨nofun, nofun, fun _ _ => ⟨rfl, rfl⟩, nofun⟩
      nodup := List.nodup_nil
      turn_active := List.suffix_refl _
      turn_known := nofun
      turn_stage := fun hne => absurd rfl hne
      functors_stage := fun hne => absurd rfl hne
      handling := ⟨nofun, nofun⟩
      inside := nofun
      tasks := nofun
      frame := nofun
      timers := .new clk }
  sound _ _ ha := nomatch (show none = some _ from ha)

/-- Nothing on the loop knows a fresh address. -/
lemma fresh (hinv : HostInv s) {fd : ℕ} (hfresh : s.Fresh a fd) :
    s.conns a = none ∧ s.channels a = none ∧ s.fdAt a = none ∧ s.fds fd = false ∧ a ∉ s.turn ∧
      tasksOf a s.waiting = [] ∧ ∀ p ∈ s.inside, p.1 ≠ a := by
  obtain ⟨hconns, hchannels, hfd⟩ := hfresh
  rw [Option.isNone_iff_eq_none] at hconns hchannels
  refine ⟨hconns, hchannels, by simp [fdAt, channelAt, hconns, hchannels], hfd, ?_, ?_, ?_⟩
  · intro hmem
    obtain ⟨k, c, hc, -⟩ := hinv.shape.turn_known a hmem hconns
    cases hchannels.symm.trans hc
  · refine List.eq_nil_iff_forall_not_mem.mpr fun task htask => ?_
    have hsome := hinv.shape.tasks a task (mem_tasksOf.mp htask)
    rw [hconns] at hsome
    cases hsome
  · rintro p hp rfl
    have hsome := (hinv.shape.inside p hp).1
    rw [hconns] at hsome
    cases hsome

/-- The channel at an address that is not a connection's is made or changed. -/
lemma shape_channel (hinv : HostInv s) (hconns : s.conns a = none) {k : LoopChannel} {c : Channel}
    {p : EPollPoller} {ptr : ℕ → Option ℕ} {fds : ℕ → Bool} (haddress : c.address = a)
    (hwired : Unregistered p c ∨ Registered p c) (hp : SameElsewhere c.fd s.poller p)
    (hdescriptors : Descriptors (Function.update s.fdAt a (some c.fd)) fds p ptr)
    (hturn : a ∈ s.turn → Registered p c) :
    HostShape { s with
      poller := p
      ptr := ptr
      fds := fds
      channels := Function.update s.channels a (some (k, c)) } := by
  -- the other channels have other descriptors
  have hother : ∀ b k' c₁, s.channels b = some (k', c₁) → b ≠ a →
      p.channels c₁.fd = s.poller.channels c₁.fd ∧ p.interest c₁.fd = s.poller.interest c₁.fd := by
    intro b k' c₁ hb hba
    refine hp c₁.fd (hdescriptors.fd_ne (Function.update_self ..) ?_ hba)
    rw [Function.update_of_ne hba]
    exact hinv.shape.fdAt_of_channel hb
  refine { hinv.shape with
    channel := fun b k' c₁ hb => ?_
    disjoint := fun b => ?_
    descriptors := ?_
    turn_known := fun b hb hnone => ?_
    frame := fun b hb => ?_ }
  · dsimp only at hb
    by_cases hba : b = a
    · rw [hba, Function.update_self] at hb
      obtain ⟨-, rfl⟩ := Prod.mk.inj (Option.some.inj hb)
      exact ⟨haddress.trans hba.symm, hwired⟩
    · rw [Function.update_of_ne hba] at hb
      obtain ⟨hchannels, hinterest⟩ := hother b k' c₁ hb hba
      obtain ⟨haddress₁, hwired₁⟩ := hinv.shape.channel b k' c₁ hb
      exact ⟨haddress₁, hwired₁.imp (fun hun => hun.congr hchannels hinterest)
        fun hreg => hreg.congr hchannels hinterest⟩
  · by_cases hba : b = a
    · rw [hba]
      exact Or.inl hconns
    · exact (hinv.shape.disjoint b).imp_right (Function.update_of_ne hba ..).trans
  · convert hdescriptors using 1
    funext b
    by_cases hba : b = a
    · subst hba
      simp [fdAt, channelAt, hconns]
    · simp [fdAt, channelAt, Function.update_of_ne hba]
  · by_cases hba : b = a
    · subst hba
      exact ⟨k, c, Function.update_self .., hturn hb⟩
    · obtain ⟨k', c₁, hc₁, hreg₁⟩ := hinv.shape.turn_known b hb hnone
      obtain ⟨hchannels, hinterest⟩ := hother b k' c₁ hc₁ hba
      exact ⟨k', c₁, (Function.update_of_ne hba ..).trans hc₁,
        hreg₁.congr hchannels hinterest⟩
  · dsimp only
    by_cases hba : b = a
    · rw [hba, Function.update_self]
      rfl
    · rw [Function.update_of_ne hba]
      exact hinv.shape.frame b hb

/-- A channel is constructed for a fresh descriptor at a fresh address. -/
lemma step_construct (hinv : HostInv s) {k : LoopChannel} {fd : ℕ}
    (hpre : s.pre (.construct k a fd)) :
    ∃ s', s.step (.construct k a fd) = some s' ∧ HostInv s' := by
  obtain ⟨hconns, -, hat, hfd, hturn, -, -⟩ := hinv.fresh hpre
  obtain ⟨hchannels, hinterest⟩ := hinv.shape.descriptors.closed hfd
  refine ⟨_, rfl, hinv.shape_channel hconns rfl (Or.inl ⟨rfl, rfl, hchannels, hinterest⟩)
    (fun _ _ => ⟨rfl, rfl⟩) (hinv.shape.descriptors.create hat hfd) fun hmem => absurd hmem hturn,
    fun b g hg => ?_⟩
  exact (hinv.sound b g hg).elsewhere rfl rfl rfl rfl (Or.inl rfl)

/-- `enableReading()` of a channel of the loop succeeds. -/
lemma step_enableReading (hinv : HostInv s) (hpre : s.pre (.enableReading a)) :
    ∃ s', s.step (.enableReading a) = some s' ∧ HostInv s' := by
  obtain ⟨-, ⟨k, c⟩, hc, hindex⟩ := hpre
  have hc : s.channels a = some (k, c) := hc
  obtain ⟨haddress, hwired⟩ := hinv.shape.channel a k c hc
  have hun : Unregistered s.poller c := by
    rcases hwired with hun | hreg
    · exact hun
    · cases hreg.index.symm.trans hindex
  have hat : s.fdAt a = some c.fd := hinv.shape.fdAt_of_channel hc
  have hconns : s.conns a = none := (hinv.shape.disjoint a).resolve_right (by rw [hc]; nofun)
  obtain ⟨p', c', henable, hreg, hsame⟩ := Channel.enableReading_spec hun
  have helsewhere : SameElsewhere c.fd s.poller p' :=
    (Channel.Touches.apply .enableReading henable).elsewhere
  have hdescriptors : Descriptors (Function.update s.fdAt a (some c'.fd)) s.fds p'
      (s.written a p') := by
    rw [hsame.fd, ← hat, Function.update_eq_self]
    exact hinv.shape.descriptors.touch hat helsewhere
  simp only [step, hc, henable, Option.bind_eq_bind, Option.bind_some]
  refine ⟨_, rfl, hinv.shape_channel hconns (hsame.address.trans haddress) (Or.inr hreg)
    (hsame.fd ▸ helsewhere) hdescriptors fun _ => hreg, fun b g hg => ?_⟩
  have hne : b ≠ a := by
    rintro rfl
    cases hconns.symm.trans hg
  obtain ⟨hchannels, hinterest⟩ := helsewhere g.conn.channel.fd
    (hinv.shape.descriptors.fd_ne hat (fdAt_of_conn hg) hne)
  exact (hinv.sound b g hg).elsewhere hchannels hinterest rfl rfl (Or.inl rfl)

/-- `newConnection` and the queue. -/
lemma tasksOf_newConnection {kind : OwnerKind} {fd highWaterMark : ℕ} {w k : Bool} (b : ℕ) :
    tasksOf b (s.newConnection kind a fd highWaterMark w k).waiting = tasksOf b s.waiting ++
      if kind = .serverOtherLoop ∧ b = a then [.connectEstablished] else [] := by
  change tasksOf b (s.functors ++ (s.pendingFunctors ++
    if kind = .serverOtherLoop then [.conn a .connectEstablished] else [])) = _
  rw [← List.append_assoc, tasksOf_append]
  congr 1
  by_cases hkind : kind = .serverOtherLoop
  · by_cases hb : b = a
    · simp [hkind, hb, tasksOf]
    · simp [hkind, hb, tasksOf, Ne.symm hb]
  · simp [hkind, tasksOf]

/-- On its own loop `newConnection` is not called from a function of a connection. -/
lemma inside_of_callsNewConnection {kind : OwnerKind} (hcalls : s.callsNewConnection kind)
    (hkind : kind ≠ .serverOtherLoop) : s.inside = none := by
  cases kind with
  | serverSameLoop => exact hcalls.1
  | serverOtherLoop => exact absurd rfl hkind
  | client => exact hcalls.1

/-- `newConnection` and the place of the loop thread. -/
lemma pcOf_newConnection (hinv : HostInv s) {kind : OwnerKind} {fd : ℕ} (hfresh : s.Fresh a fd)
    (hcalls : s.callsNewConnection kind) (highWaterMark : ℕ) (w k : Bool) (b : ℕ) :
    (s.newConnection kind a fd highWaterMark w k).pcOf b =
      if b = a then if kind = .serverOtherLoop then .idle else .newConnection else s.pcOf b := by
  obtain ⟨-, -, -, -, hturn, -, hinside⟩ := hinv.fresh hfresh
  by_cases hkind : kind = .serverOtherLoop
  · have hsame : (s.newConnection kind a fd highWaterMark w k).pcOf b = s.pcOf b := by
      simp [pcOf, newConnection, hkind]
    rw [hsame]
    by_cases hb : b = a
    · rw [if_pos hb, if_pos hkind, hb, pcOf_of_outside hinside]
      exact if_neg hturn
    · rw [if_neg hb]
  · have hnone := inside_of_callsNewConnection hcalls hkind
    have hinside' : (s.newConnection kind a fd highWaterMark w k).inside =
        some (a, .newConnection) := if_neg hkind
    by_cases hb : b = a
    · rw [if_pos hb, if_neg hkind, hb]
      exact pcOf_of_inside hinside'
    · rw [if_neg hb, pcOf_of_none hnone, pcOf_of_outside]
      · rfl
      · intro p hp
        rw [hinside'] at hp
        obtain rfl := Option.some.inj hp
        exact Ne.symm hb

/-- The new connection is at the beginning of its life. -/
lemma sound_newConnection (hinv : HostInv s) {kind : OwnerKind} {fd highWaterMark : ℕ} {w k : Bool}
    (hfresh : s.Fresh a fd) (hcalls : s.callsNewConnection kind) :
    (s.newConnection kind a fd highWaterMark w k).Sound a
      { conn := .new a fd highWaterMark true w k
        owner := { kind := kind, holds := true, posted := 0 } } := by
  obtain ⟨-, -, -, hfd, -, htasks, -⟩ := hinv.fresh hfresh
  obtain ⟨hchannels, hinterest⟩ := hinv.shape.descriptors.closed hfd
  have hpc := hinv.pcOf_newConnection hfresh hcalls highWaterMark w k a
  rw [if_pos rfl] at hpc
  obtain ⟨st, hst, -⟩ : LifeInv [] (ConnLoop.newConnection kind
      (.new a fd highWaterMark true w k) s.poller false : ConnLoop Unit) :=
    .newConnection hchannels hinterest
  refine ⟨rfl, nofun, ?_, st, ?_⟩
  · rw [hpc]
    split
    · rfl
    · rfl
  · have hview : (s.newConnection kind a fd highWaterMark w k).view a
          { conn := .new a fd highWaterMark true w k
            owner := { kind := kind, holds := true, posted := 0 } } =
        { (ConnLoop.newConnection kind (.new a fd highWaterMark true w k) s.poller false :
            ConnLoop Unit) with dispatch := s.dispatch } := by
      unfold view ConnLoop.newConnection
      rw [tasksOf_newConnection, htasks, hpc]
      simp [newConnection]
    rw [hview]
    refine hst.withDispatch ?_ ?_ _
    · unfold ConnLoop.newConnection
      dsimp only
      split
      · rfl
      · rfl
    · unfold ConnLoop.newConnection
      dsimp only
      split
      · nofun
      · nofun

/-- A connection is constructed for a fresh descriptor at a fresh address. -/
lemma step_newConnection (hinv : HostInv s) {kind : OwnerKind} {fd highWaterMark : ℕ} {w k : Bool}
    (hpre : s.pre (.newConnection kind a fd highWaterMark w k)) :
    ∃ s', s.step (.newConnection kind a fd highWaterMark w k) = some s' ∧ HostInv s' := by
  obtain ⟨hfresh, hcalls⟩ := hpre
  obtain ⟨hconns, hchannels, hat, hfd, hturn, -, -⟩ := hinv.fresh hfresh
  have hself : (s.newConnection kind a fd highWaterMark w k).conns a = some
      { conn := .new a fd highWaterMark true w k
        owner := { kind := kind, holds := true, posted := 0 } } := Function.update_self ..
  have hother : ∀ b ≠ a, (s.newConnection kind a fd highWaterMark w k).conns b = s.conns b :=
    fun b hb => Function.update_of_ne hb ..
  have hsome : ∀ b, (s.conns b).isSome →
      ((s.newConnection kind a fd highWaterMark w k).conns b).isSome := by
    intro b hb
    rw [hother b (by rintro rfl; rw [hconns] at hb; cases hb)]
    exact hb
  have hfdAt : (s.newConnection kind a fd highWaterMark w k).fdAt =
      Function.update s.fdAt a (some fd) := by
    funext b
    by_cases hb : b = a
    · rw [hb, Function.update_self, fdAt_of_conn hself]
      rfl
    · rw [Function.update_of_ne hb]
      unfold fdAt channelAt
      rw [hother b hb]
      rfl
  refine ⟨_, rfl, { hinv.shape with
    disjoint := fun b => ?_
    descriptors := ?_
    turn_known := fun b hb hnone => ?_
    inside := fun p hp => ?_
    tasks := fun b task hmem => ?_ }, fun b g hg => ?_⟩
  · by_cases hb : b = a
    · rw [hb]
      exact Or.inr hchannels
    · rw [hother b hb]
      exact hinv.shape.disjoint b
  · rw [hfdAt]
    exact hinv.shape.descriptors.create hat hfd
  · refine hinv.shape.turn_known b hb ?_
    rw [← hother b (by rintro rfl; exact hturn hb)]
    exact hnone
  · by_cases hkind : kind = .serverOtherLoop
    · have hinside : (s.newConnection kind a fd highWaterMark w k).inside = s.inside :=
        if_pos hkind
      rw [hinside] at hp
      obtain ⟨hconn, hrest⟩ := hinv.shape.inside p hp
      exact ⟨hsome p.1 hconn, hrest⟩
    · have hinside : (s.newConnection kind a fd highWaterMark w k).inside =
          some (a, .newConnection) := if_neg hkind
      rw [hinside] at hp
      obtain rfl := Option.some.inj hp
      exact ⟨by rw [hself]; rfl, hturn, nofun, nofun⟩
  · by_cases hb : b = a
    · rw [hb, hself]
      rfl
    · rw [← mem_tasksOf, tasksOf_newConnection, if_neg (fun h => hb h.2), List.append_nil,
        mem_tasksOf] at hmem
      exact hsome b (hinv.shape.tasks b task hmem)
  · by_cases hb : b = a
    · subst hb
      obtain rfl := Option.some.inj (hself.symm.trans hg)
      exact hinv.sound_newConnection hfresh hcalls
    · rw [hother b hb] at hg
      have hpc := hinv.pcOf_newConnection hfresh hcalls highWaterMark w k b
      rw [if_neg hb] at hpc
      refine (hinv.sound b g hg).elsewhere rfl rfl ?_ hpc (Or.inl rfl)
      rw [tasksOf_newConnection, if_neg (fun h => hb h.2), List.append_nil]

/-- A connection without references has come to the end of its life. -/
lemma unreferenced (hinv : HostInv s) (ha : s.conns a = some h) (hun : s.Unreferenced a h) :
    h.conn.state = .KDisconnected ∧ h.conn.channel.eventHandling = false ∧
      h.conn.channel.addedToLoop = false ∧ Unregistered s.poller h.conn.channel ∧ a ∉ s.turn := by
  obtain ⟨hholds, -, htasks, hinside⟩ := hun
  obtain ⟨-, htidy, hhandling, st, hst⟩ := hinv.sound a h ha
  have hdestroyed : st = .destroyed := by
    by_contra hst'
    by_cases hdestroying : st = .destroying
    · subst hdestroying
      have hhops := hst.queue.hops
      rw [show (s.view a h).tasks = [] from htasks] at hhops
      cases hhops
    · cases hholds.symm.trans (hst.owner.holds hdestroying hst')
  subst hdestroyed
  have hwired : Unregistered s.poller h.conn.channel := hst.conn.wired
  refine ⟨hst.conn.state, hhandling.trans (pcOf_quiet hinside).1, ?_, hwired, fun hmem => ?_⟩
  · by_contra hadded
    exact htidy ((Bool.not_eq_false _).mp hadded) hwired.index
  · have hpc : s.pcOf a = .polled := by
      rw [pcOf_of_outside hinside]
      exact if_pos hmem
    cases hst.fits (show (s.view a h).pc = .polled from hpc)

/-- A connection that nothing refers to any more is destroyed, and its descriptor is free again. -/
lemma step_destroy (hinv : HostInv s) (hpre : s.pre (.destroy a)) :
    ∃ s', s.step (.destroy a) = some s' ∧ HostInv s' := by
  obtain ⟨h, ha, hun⟩ := hpre
  have ha : s.conns a = some h := ha
  obtain ⟨hstate, hhandling, hadded, hwired, hturn⟩ := hinv.unreferenced ha hun
  obtain ⟨-, -, htasks, hinside⟩ := hun
  have hat : s.fdAt a = some h.conn.channel.fd := fdAt_of_conn ha
  have hsome : ∀ b ≠ a, (s.conns b).isSome → (Function.update s.conns a none b).isSome := by
    intro b hb hconn
    rw [Function.update_of_ne hb]
    exact hconn
  simp only [step, ha, destroy, hstate, hhandling, hadded, and_self, if_true, Option.bind_eq_bind,
    Option.bind_some]
  refine ⟨_, rfl, { hinv.shape with
    channel := fun b k c hc => ?_
    disjoint := fun b => ?_
    descriptors := ?_
    turn_known := fun b hb hnone => ?_
    inside := fun p hp => ?_
    tasks := fun b task hmem => ?_ }, fun b g hg => ?_⟩
  · obtain ⟨haddress, hwired⟩ := hinv.shape.channel b k c hc
    have hb : b ≠ a := by
      rintro rfl
      rcases hinv.shape.disjoint b with hnone | hnone
      · cases hnone.symm.trans ha
      · cases hnone.symm.trans hc
    have hinterest := Function.update_of_ne
      (hinv.shape.descriptors.fd_ne hat (hinv.shape.fdAt_of_channel hc) hb) none s.poller.interest
    exact ⟨haddress, hwired.imp (fun hun => hun.congr rfl hinterest)
      fun hreg => hreg.congr rfl hinterest⟩
  · by_cases hb : b = a
    · rw [hb]
      exact Or.inl (Function.update_self ..)
    · exact (hinv.shape.disjoint b).imp_left (Function.update_of_ne hb ..).trans
  · convert hinv.shape.descriptors.destroy hat hwired.channels using 1
    funext b
    by_cases hb : b = a
    · have hchannels : s.channels a = none :=
        (hinv.shape.disjoint a).resolve_left (by simp [ha])
      rw [hb, Function.update_self]
      simp [fdAt, channelAt, hchannels]
    · simp [fdAt, channelAt, Function.update_of_ne hb]
  · have hba : b ≠ a := by
      rintro rfl
      exact hturn hb
    dsimp only at hnone
    rw [Function.update_of_ne hba] at hnone
    obtain ⟨k, c, hc, hreg⟩ := hinv.shape.turn_known b hb hnone
    exact ⟨k, c, hc, hreg.congr rfl (Function.update_of_ne
      (hinv.shape.descriptors.fd_ne hat (hinv.shape.fdAt_of_channel hc) hba) ..)⟩
  · obtain ⟨hconn, hrest⟩ := hinv.shape.inside p hp
    exact ⟨hsome p.1 (hinside p hp) hconn, hrest⟩
  · refine hsome b ?_ (hinv.shape.tasks b task hmem)
    rintro rfl
    have htask : task ∈ tasksOf b s.waiting := mem_tasksOf.mpr hmem
    rw [htasks] at htask
    cases htask
  · dsimp only at hg
    have hb : b ≠ a := by
      rintro rfl
      rw [Function.update_self] at hg
      cases hg
    rw [Function.update_of_ne hb] at hg
    exact (hinv.sound b g hg).elsewhere rfl (Function.update_of_ne
      (hinv.shape.descriptors.fd_ne hat (fdAt_of_conn hg) hb) ..) rfl rfl (Or.inl rfl)

/-- No step fails an assertion or uses a channel or a connection that is gone, and every step keeps
the invariant. -/
theorem step (hinv : HostInv s) {act : HostAct} (hpre : s.pre act) :
    ∃ s', s.step act = some s' ∧ HostInv s' := by
  cases act with
  | construct k a fd => exact hinv.step_construct hpre
  | enableReading a => exact hinv.step_enableReading hpre
  | newConnection kind a fd highWaterMark w k => exact hinv.step_newConnection hpre
  | conn a act => exact hinv.step_conn hpre
  | queueInLoop => exact hinv.step_queueInLoop
  | timer act => exact hinv.step_timer hpre
  | poll => exact hinv.step_poll hpre
  | report fd revents => exact hinv.step_report hpre
  | beginHandling => exact hinv.step_beginHandling hpre
  | handleEvent => exact hinv.step_handleEvent hpre
  | endEvent => exact hinv.step_endEvent hpre
  | endHandling => exact hinv.step_endHandling hpre
  | runFunctor w => exact hinv.step_runFunctor hpre
  | endFunctor => exact hinv.step_endFunctor hpre
  | endFunctors => exact hinv.step_endFunctors hpre
  | destroy a => exact hinv.step_destroy hpre

end HostInv

/-- The invariant holds in every run. -/
theorem hostInv_of_run {clk : Timestamp} {t : List Empty}
    (hrun : hostMachine.Run (.new clk) t s) : HostInv s := by
  refine hrun.stateInvariant HostInv (.new clk) fun s act s' out hinv hpre hstep => ?_
  obtain ⟨s₁, hs₁, hinv'⟩ := hinv.step hpre
  obtain ⟨s₂, hs₂, heq⟩ := Option.map_eq_some_iff.mp hstep
  obtain ⟨rfl, -⟩ := Prod.mk.inj heq
  rw [Option.some.inj (hs₂.symm.trans hs₁)]
  exact hinv'

end LoopHost

end MuduoServer
