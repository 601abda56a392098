import MuduoServer.Channel.Interest

/-!
# The three copies of a registration

What has been done with a channel is written down three times: in `channels_`, in `index_` of the
channel and in the interest list of the kernel.  They agree in every state, also after the calls
that put a channel without events back into the interest list.  Since the poller decides by `index_`
which request to make, every `epoll_ctl` is then one that the kernel accepts.
-/

namespace MuduoServer

/-- The kernel accepts the request: it adds what is absent, and changes or deletes what is
present. -/
def EPollPoller.LegalCtl (p : EPollPoller) (operation : EpollOp) (fd : ℕ) : Prop :=
  match operation with
  | .EPOLL_CTL_ADD => p.interest fd = none
  | .EPOLL_CTL_MOD => (p.interest fd).isSome
  | .EPOLL_CTL_DEL => (p.interest fd).isSome

namespace Channel

/-- The request that `updateChannel` makes. -/
def updateCtl (c : Channel) : EpollOp :=
  match c.index with
  | .kNew => .EPOLL_CTL_ADD
  | .kDeleted => .EPOLL_CTL_ADD
  | .kAdded => if c.events = kNoneEvent then .EPOLL_CTL_DEL else .EPOLL_CTL_MOD

/-- The request that `removeChannel` makes, if it makes one. -/
def removeCtl (c : Channel) : Option EpollOp :=
  if c.index = .kAdded then some .EPOLL_CTL_DEL else none

variable {p p' : EPollPoller} {c c' : Channel}

/-- `updateChannel` makes its request and no other. -/
lemma interest_updateChannel (h : p.updateChannel c = some (p', c')) :
    p'.interest = (p.update c.updateCtl c).interest := by
  rcases EPollPoller.updateChannel_eq_some h with ⟨hindex, -, rfl, -⟩ | ⟨hindex, -, rfl, -⟩ |
    ⟨hindex, hnone, rfl, -⟩ | ⟨hindex, hnone, rfl, -⟩
  · simp only [updateCtl, hindex, EPollPoller.update]
    split <;> simp_all
  · simp only [updateCtl, hindex]
  · simp only [updateCtl, hindex, if_pos hnone]
  · simp only [updateCtl, hindex, if_neg hnone]

/-- `removeChannel` makes its request, or none. -/
lemma interest_removeChannel (h : p.removeChannel c = some (p', c')) :
    p'.interest = match c.removeCtl with
      | some operation => (p.update operation c).interest
      | none => p.interest := by
  unfold removeCtl
  obtain ⟨-, -, -, ⟨hindex, hinterest⟩ | ⟨hindex, hinterest⟩⟩ := EPollPoller.removeChannel_eq_some h
  · rw [if_pos hindex, hinterest]
  · rw [if_neg hindex, hinterest]

end Channel

/-! ### One channel -/

/-- `index_`, `channels_` and the interest list tell the same. -/
structure Bookkept (p : EPollPoller) (c : Channel) : Prop where
  kNew : c.index = .kNew ↔ p.channels c.fd ≠ some c.address
  /-- The descriptor of a channel that the poller does not know is free. -/
  unknown : c.index = .kNew → p.channels c.fd = none ∧ p.interest c.fd = none
  kAdded : c.index = .kAdded ↔
    p.channels c.fd = some c.address ∧ p.interest c.fd = some c.events
  kDeleted : c.index = .kDeleted ↔ p.channels c.fd = some c.address ∧ p.interest c.fd = none

namespace Bookkept

variable {p p' : EPollPoller} {c c' : Channel}

/-- A channel that the poller does not know. -/
lemma of_kNew (hindex : c.index = .kNew) (hchannels : p.channels c.fd = none)
    (hinterest : p.interest c.fd = none) : Bookkept p c := by
  refine ⟨?_, fun _ => ⟨hchannels, hinterest⟩, ?_, ?_⟩ <;> simp [hindex, hchannels]

/-- A channel that the kernel monitors. -/
lemma of_kAdded (hindex : c.index = .kAdded) (hchannels : p.channels c.fd = some c.address)
    (hinterest : p.interest c.fd = some c.events) : Bookkept p c := by
  refine ⟨?_, ?_, ?_, ?_⟩ <;> simp [hindex, hchannels, hinterest]

/-- A channel that only the poller remembers. -/
lemma of_kDeleted (hindex : c.index = .kDeleted) (hchannels : p.channels c.fd = some c.address)
    (hinterest : p.interest c.fd = none) : Bookkept p c := by
  refine ⟨?_, ?_, ?_, ?_⟩ <;> simp [hindex, hchannels, hinterest]

/-- Bookkeeping is about the descriptor of the channel alone. -/
lemma of_same {fd : ℕ} (h : Bookkept p c) (hp : SameElsewhere fd p p') (hfd : c.fd ≠ fd) :
    Bookkept p' c := by
  obtain ⟨hchannels, hinterest⟩ := hp c.fd hfd
  exact ⟨by rw [hchannels, h.kNew], by rw [hchannels, hinterest]; exact h.unknown,
    by rw [hchannels, hinterest, h.kAdded], by rw [hchannels, hinterest, h.kDeleted]⟩

/-- The request of `updateChannel` is legal, whatever events were set before. -/
lemma legal_updateCtl (h : Bookkept p c) (e : Events) :
    p.LegalCtl (Channel.updateCtl { c with events := e }) c.fd := by
  unfold Channel.updateCtl
  cases hindex : c.index with
  | kNew => exact (h.unknown hindex).2
  | kDeleted => exact (h.kDeleted.mp hindex).2
  | kAdded =>
    have hpresent : (p.interest c.fd).isSome := by
      rw [(h.kAdded.mp hindex).2]
      rfl
    dsimp only
    split
    · exact hpresent
    · exact hpresent

/-- The request of `removeChannel` is legal. -/
lemma legal_removeCtl (h : Bookkept p c) :
    ∀ operation ∈ c.removeCtl, p.LegalCtl operation c.fd := by
  intro operation hoperation
  unfold Channel.removeCtl at hoperation
  split at hoperation
  next hindex =>
    cases hoperation
    show (p.interest c.fd).isSome
    rw [(h.kAdded.mp hindex).2]
    rfl
  next => cases hoperation

/-- `update()` never fails an `assert` and keeps the three copies together; a channel that is not
monitored is monitored then. -/
theorem update (h : Bookkept p c) (e : Events) :
    ∃ p' c', Channel.update { c with events := e } p = some (p', c') ∧ Bookkept p' c' ∧
      (c.index ≠ .kAdded → c'.index = .kAdded) ∧ c'.addedToLoop = true ∧ SameChannel c c' ∧
      SameElsewhere c.fd p p' := by
  unfold Channel.update EPollPoller.updateChannel
  cases hindex : c.index with
  | kNew =>
    obtain ⟨hchannels, hinterest⟩ := h.unknown hindex
    simp only [hchannels, if_true]
    refine ⟨_, _, rfl, of_kAdded rfl ?_ ?_, fun _ => rfl, rfl, ⟨rfl, rfl, rfl, rfl, rfl⟩, ?_⟩
    · simp [EPollPoller.update, hinterest]
    · simp [EPollPoller.update, hinterest]
    · intro fd hfd
      simp [EPollPoller.update, hinterest, Function.update_of_ne hfd]
  | kDeleted =>
    obtain ⟨hchannels, hinterest⟩ := h.kDeleted.mp hindex
    simp only [hchannels, if_true]
    refine ⟨_, _, rfl, of_kAdded rfl ?_ ?_, fun _ => rfl, rfl, ⟨rfl, rfl, rfl, rfl, rfl⟩,
      Channel.sameElsewhere_update _ rfl⟩
    · simp [EPollPoller.update, hinterest, hchannels]
    · simp [EPollPoller.update, hinterest]
  | kAdded =>
    obtain ⟨hchannels, hinterest⟩ := h.kAdded.mp hindex
    by_cases he : e = kNoneEvent
    · simp only [he, if_true]
      refine ⟨_, _, rfl, of_kDeleted rfl ?_ ?_, fun hne => absurd rfl hne, rfl,
        ⟨rfl, rfl, rfl, rfl, rfl⟩, Channel.sameElsewhere_update _ rfl⟩
      · simp [EPollPoller.update, hinterest, hchannels]
      · simp [EPollPoller.update, hinterest]
    · simp only [if_neg he]
      refine ⟨_, _, rfl, of_kAdded rfl ?_ ?_, fun _ => rfl, rfl, ⟨rfl, rfl, rfl, rfl, rfl⟩,
        Channel.sameElsewhere_update _ rfl⟩
      · simp [EPollPoller.update, hinterest, hchannels]
      · simp [EPollPoller.update, hinterest]

/-- `removeChannel` forgets a channel of its table in all three places. -/
theorem removeChannel (h : Bookkept p c) (hchannels : p.channels c.fd = some c.address) :
    ∃ p' c', p.removeChannel c = some (p', c') ∧ Bookkept p' c' ∧ c'.index = .kNew ∧
      c'.addedToLoop = c.addedToLoop ∧ SameChannel c c' ∧ SameElsewhere c.fd p p' := by
  unfold EPollPoller.removeChannel
  rw [if_pos hchannels]
  refine ⟨_, _, rfl, of_kNew rfl ?_ ?_, rfl, rfl, ⟨rfl, rfl, rfl, rfl, rfl⟩, ?_⟩
  · simp
  · cases hindex : c.index with
    | kNew => exact absurd hchannels (h.kNew.mp hindex)
    | kAdded =>
      obtain ⟨-, hinterest⟩ := h.kAdded.mp hindex
      simp [EPollPoller.update, hinterest]
    | kDeleted =>
      obtain ⟨-, hinterest⟩ := h.kDeleted.mp hindex
      simpa using hinterest
  · intro fd hfd
    split
    · obtain ⟨-, hinterest⟩ := Channel.sameElsewhere_update (p := p) .EPOLL_CTL_DEL rfl fd hfd
      simp [Function.update_of_ne hfd, hinterest]
    · simp [Function.update_of_ne hfd]

end Bookkept

/-! ### All channels of a poller -/

namespace PollerLoop

variable {s s' : PollerLoop} {act : ChannelAct} {out : List ChannelAct}

/-- The three copies agree for every channel, and the poller knows nothing else. -/
structure BookInv (s : PollerLoop) : Prop where
  fd : ∀ fd, ∀ c ∈ s.channels fd, c.fd = fd
  bookkept : ∀ fd, ∀ c ∈ s.channels fd, Bookkept s.poller c
  /-- A channel that is not added may be destroyed. -/
  removed : ∀ fd, ∀ c ∈ s.channels fd, c.addedToLoop = false → c.index = .kNew
  unknown : s.NoStaleEntry

/-- The invariant holds before the first channel. -/
lemma BookInv.new : BookInv new where
  fd fd c hc := by cases hc
  bookkept fd c hc := by cases hc
  removed fd c hc := by cases hc
  unknown fd _ := ⟨rfl, rfl⟩

/-- The channel of one descriptor is set, and the poller has changed only there. -/
lemma BookInv.put (h : BookInv s) {fd : ℕ} {c : Channel} {p : EPollPoller} (hfd : c.fd = fd)
    (hbookkept : Bookkept p c) (hremoved : c.addedToLoop = false → c.index = .kNew)
    (hother : SameElsewhere fd s.poller p) : BookInv (s.put (p, c)) := by
  subst hfd
  refine ⟨?_, ?_, ?_, h.unknown.put hother⟩
  · intro fd' x hx
    rcases mem_channels_put hx with ⟨rfl, rfl⟩ | ⟨-, hold⟩
    · rfl
    · exact h.fd fd' x hold
  · intro fd' x hx
    rcases mem_channels_put hx with ⟨rfl, rfl⟩ | ⟨hne, hold⟩
    · exact hbookkept
    · refine (h.bookkept fd' x hold).of_same hother ?_
      rw [h.fd fd' x hold]
      exact hne
  · intro fd' x hx hadded
    rcases mem_channels_put hx with ⟨rfl, rfl⟩ | ⟨-, hold⟩
    · exact hremoved hadded
    · exact h.removed fd' x hold hadded

/-- Every legal step keeps the three copies together. -/
theorem BookInv.step (h : BookInv s) (hpre : s.pre act) (hstep : s.step act = some (s', out)) :
    BookInv s' := by
  cases act with
  | construct fd address =>
    cases hstep
    obtain ⟨hchannels, hinterest⟩ := h.unknown fd hpre
    exact h.put rfl (.of_kNew rfl hchannels hinterest) (fun _ => rfl) fun fd' _ => ⟨rfl, rfl⟩
  | update fd op =>
    obtain ⟨c, hc, hstep⟩ := Option.bind_eq_some_iff.mp hstep
    obtain ⟨p', c', hr, hkept, -, hadded, hsame, hother⟩ :=
      (h.bookkept fd c hc).update (op.events c.events)
    rw [← ChannelOp.apply_eq] at hr
    rw [hr] at hstep
    cases hstep
    have hfd := h.fd fd c hc
    refine h.put (hsame.fd.trans hfd) hkept (fun hfalse => ?_) (hfd ▸ hother)
    rw [hadded] at hfalse
    cases hfalse
  | remove fd d =>
    obtain ⟨c, hc, hnone, htable, hd⟩ := hpre
    have hkept : Bookkept s.poller { c with addedToLoop := false } := by
      obtain ⟨hnew, hunknown, hadded, hdeleted⟩ := h.bookkept fd c hc
      exact ⟨hnew, hunknown, hadded, hdeleted⟩
    obtain ⟨p', c', hr, hkept', hindex, -, hsame, hother⟩ := hkept.removeChannel htable
    simp only [PollerLoop.step, Option.mem_def.mp hc, Channel.remove, if_pos hnone, if_pos hd, hr,
      Option.bind_eq_bind, Option.bind_some, Option.some.injEq, Prod.mk.injEq] at hstep
    obtain ⟨rfl, -⟩ := hstep
    have hfd := h.fd fd c hc
    exact h.put (hsame.fd.trans hfd) hkept' (fun _ => hindex) (hfd ▸ hother)
  | destruct fd =>
    obtain ⟨c, hc, -, hadded⟩ := hpre
    cases hstep
    obtain ⟨hchannels, hinterest⟩ := (h.bookkept fd c hc).unknown (h.removed fd c hc hadded)
    have hfd := h.fd fd c hc
    exact ⟨fun fd' x hx => h.fd fd' x (mem_channels_destruct hx),
      fun fd' x hx => h.bookkept fd' x (mem_channels_destruct hx),
      fun fd' x hx => h.removed fd' x (mem_channels_destruct hx),
      h.unknown.destruct (hfd ▸ hchannels) (hfd ▸ hinterest)⟩

/-- It holds in every state that is reached. -/
lemma bookInv_of_run {t : List ChannelAct} (h : machine.Run new t s) : BookInv s :=
  h.stateInvariant BookInv .new fun _ _ _ _ hinv hpre hstep => hinv.step hpre hstep

/-- In every sequence of legal operations on any number of channels, one to a descriptor, the three
copies of the registration agree; every operation on every channel passes all asserts of the poller
and makes a request that the kernel accepts; and a channel that is removed can be registered
again. -/
theorem bookkeeping_run {t : List ChannelAct} (h : machine.Run new t s) :
    (∀ fd, ∀ c ∈ s.channels fd, Bookkept s.poller c) ∧
      (∀ fd, ∀ c ∈ s.channels fd, ∀ op : ChannelOp, (op.apply c s.poller).isSome ∧
        s.poller.LegalCtl (Channel.updateCtl { c with events := op.events c.events }) c.fd) ∧
      ∀ fd, ∀ c ∈ s.channels fd, c.isNoneEvent → s.poller.channels c.fd = some c.address →
        (∀ operation ∈ c.removeCtl, s.poller.LegalCtl operation c.fd) ∧
          ∃ p' c', s.poller.removeChannel { c with addedToLoop := false } = some (p', c') ∧
            c'.index = .kNew ∧ p'.channels c.fd = none ∧ p'.interest c.fd = none ∧
            ∀ op : ChannelOp, ∃ p'' c'', op.apply c' p' = some (p'', c'') ∧
              p''.channels c.fd = some c.address ∧ p''.interest c.fd = some c''.events := by
  have hinv := bookInv_of_run h
  refine ⟨hinv.bookkept, ?_, ?_⟩
  · intro fd c hc op
    have hkept := hinv.bookkept fd c hc
    obtain ⟨p', c', hr, -⟩ := hkept.update (op.events c.events)
    refine ⟨?_, hkept.legal_updateCtl _⟩
    rw [ChannelOp.apply_eq, hr]
    rfl
  · intro fd c hc hnone htable
    have hkept := hinv.bookkept fd c hc
    refine ⟨hkept.legal_removeCtl, ?_⟩
    have hkept' : Bookkept s.poller { c with addedToLoop := false } :=
      ⟨hkept.kNew, hkept.unknown, hkept.kAdded, hkept.kDeleted⟩
    obtain ⟨p', c', hr, hkept'', hindex, -, hsame, -⟩ := hkept'.removeChannel htable
    have hfd : c'.fd = c.fd := hsame.fd
    have hunknown := hkept''.unknown hindex
    rw [hfd] at hunknown
    refine ⟨p', c', hr, hindex, hunknown.1, hunknown.2, fun op => ?_⟩
    have hne : c'.index ≠ .kAdded := by
      rw [hindex]
      nofun
    obtain ⟨p'', c'', hr', hkept₂, hadd, -, hsame', -⟩ := hkept''.update (op.events c'.events)
    obtain ⟨htable', hmask⟩ := hkept₂.kAdded.mp (hadd hne)
    rw [hsame'.fd, hfd] at htable' hmask
    rw [hsame'.address, hsame.address] at htable'
    exact ⟨p'', c'', by rw [ChannelOp.apply_eq, hr'], htable', hmask⟩

/-- A channel goes through the double withdrawal and all three values of `index_`, and is registered
again beside another one. -/
theorem bookkeeping_run_again :
    ∃ t s, machine.Run new t s ∧ s.poller.interest 5 = some kNoneEvent ∧
      ∀ fd, ∀ c ∈ s.channels fd, Bookkept s.poller c := by
  obtain ⟨t, s, hrun, hs⟩ := machine.exists_run_of_exec new
    [.construct 5 1, .construct 6 2, .update 6 .enableReading, .update 5 .enableReading,
      .update 5 .disableAll, .update 5 .disableAll, .remove 5 ⟨true, some 1, [1, 2]⟩,
      .update 5 .enableWriting, .update 5 .disableWriting, .update 5 .disableWriting]
    (fun s _ => s.poller.interest 5 = some kNoneEvent) (by decide +kernel)
  exact ⟨t, s, hrun, hs, (bookkeeping_run hrun).1⟩

end PollerLoop

end MuduoServer
