import MuduoServer.Channel.Basic
import MuduoServer.Lib.Machine

/-!
# Which channels the kernel monitors

Any number of channels share one poller, and `index_` of each has to keep `channels_`, the interest
list of the kernel and `events_` together.  `updateChannel` looks at `index_` first and asks whether
there are any events only if the channel is `kAdded`.  So it matters whether a call takes the last
event away or finds none: in the second case the descriptor is put back into the interest list, with
an empty mask, and the kernel goes on reporting errors and hang-ups for it.

As long as this does not happen a channel is `Consistent`, and the interest list is exact.
-/

namespace MuduoServer

/-- The channel is in the table of the poller and monitored for its events, which are not none. -/
structure Monitored (p : EPollPoller) (c : Channel) : Prop where
  index : c.index = .kAdded
  events : c.events ≠ kNoneEvent
  channels : p.channels c.fd = some c.address
  interest : p.interest c.fd = some c.events

/-- `index_`, `channels_`, the interest list and `events_` agree. -/
def Consistent (p : EPollPoller) (c : Channel) : Prop :=
  Unregistered p c ∨ Monitored p c ∨ Detached p c

/-- The poller has changed for no other descriptor. -/
def SameElsewhere (fd : ℕ) (p p' : EPollPoller) : Prop :=
  ∀ fd' ≠ fd, p'.channels fd' = p.channels fd' ∧ p'.interest fd' = p.interest fd'

namespace Consistent

variable {p p' : EPollPoller} {c c' : Channel}

/-- The entry of a consistent channel in the interest list. -/
lemma interest (h : Consistent p c) :
    p.interest c.fd = if c.events = kNoneEvent then none else some c.events := by
  rcases h with h | h | h
  · rw [if_pos h.events, h.interest]
  · rw [if_neg h.events, h.interest]
  · rw [if_pos h.events, h.interest]

/-- Consistency is about the descriptor of the channel alone. -/
lemma of_same {fd : ℕ} (h : Consistent p c) (hp : SameElsewhere fd p p') (hfd : c.fd ≠ fd) :
    Consistent p' c := by
  obtain ⟨hchannels, hinterest⟩ := hp c.fd hfd
  rcases h with h | h | h
  · exact Or.inl ⟨h.index, h.events, hchannels.trans h.channels, hinterest.trans h.interest⟩
  · exact Or.inr (Or.inl ⟨h.index, h.events, hchannels.trans h.channels,
      hinterest.trans h.interest⟩)
  · exact Or.inr (Or.inr ⟨h.index, h.events, hchannels.trans h.channels,
      hinterest.trans h.interest⟩)

end Consistent

/-- What `update` does, once the events have been set, to a channel for which this is a change. -/
structure Updated (p : EPollPoller) (c : Channel) (e : Events) (p' : EPollPoller) (c' : Channel) :
    Prop where
  consistent : Consistent p' c'
  events : c'.events = e
  added : c'.addedToLoop = true
  same : SameChannel c c'
  elsewhere : SameElsewhere c.fd p p'

namespace Channel

variable {p : EPollPoller} {c : Channel}

/-- One `epoll_ctl` concerns one descriptor. -/
lemma sameElsewhere_update {fd : ℕ} (op : EpollOp) (hfd : c.fd = fd) :
    SameElsewhere fd p (p.update op c) := by
  subst hfd
  intro fd hfd
  unfold EPollPoller.update
  split <;> simp [Function.update_of_ne hfd]

/-- `update()` keeps a channel consistent unless it had no events and gets none. -/
theorem update_consistent (h : Consistent p c) {e : Events}
    (hchange : ¬ (c.events = kNoneEvent ∧ e = kNoneEvent)) :
    ∃ p' c', update { c with events := e } p = some (p', c') ∧ Updated p c e p' c' := by
  unfold update EPollPoller.updateChannel
  rcases h with h | h | h
  · have he : e ≠ kNoneEvent := fun he => hchange ⟨h.events, he⟩
    simp only [h.index, h.channels, if_true]
    refine ⟨_, _, rfl, Or.inr (Or.inl ⟨rfl, he, ?_, ?_⟩), rfl, rfl, ⟨rfl, rfl, rfl, rfl, rfl⟩, ?_⟩
    · simp [EPollPoller.update, h.interest]
    · simp [EPollPoller.update, h.interest]
    · intro fd hfd
      simp [EPollPoller.update, h.interest, Function.update_of_ne hfd]
  · by_cases he : e = kNoneEvent
    · simp only [h.index, he, if_true]
      refine ⟨_, _, rfl, Or.inr (Or.inr ⟨rfl, rfl, ?_, ?_⟩), rfl, rfl,
        ⟨rfl, rfl, rfl, rfl, rfl⟩, sameElsewhere_update _ rfl⟩
      · simp [EPollPoller.update, h.interest, h.channels]
      · simp [EPollPoller.update, h.interest]
    · simp only [h.index, if_neg he]
      refine ⟨_, _, rfl, Or.inr (Or.inl ⟨rfl, he, ?_, ?_⟩), rfl, rfl,
        ⟨rfl, rfl, rfl, rfl, rfl⟩, sameElsewhere_update _ rfl⟩
      · simp [EPollPoller.update, h.interest, h.channels]
      · simp [EPollPoller.update, h.interest]
  · have he : e ≠ kNoneEvent := fun he => hchange ⟨h.events, he⟩
    simp only [h.index, h.channels, if_true]
    refine ⟨_, _, rfl, Or.inr (Or.inl ⟨rfl, he, ?_, ?_⟩), rfl, rfl, ⟨rfl, rfl, rfl, rfl, rfl⟩,
      sameElsewhere_update _ rfl⟩
    · simp [EPollPoller.update, h.interest, h.channels]
    · simp [EPollPoller.update, h.interest]

/-- `remove()` makes the poller forget a channel of its table that has no events. -/
theorem remove_consistent {d : LoopDispatch} (h : Detached p c)
    (hd : d.eventHandling = true →
      d.currentActiveChannel = some c.address ∨ c.address ∉ d.activeChannels) :
    ∃ p' c', c.remove d p = some (p', c') ∧ Unregistered p' c' ∧ c'.addedToLoop = false ∧
      SameChannel c c' ∧ SameElsewhere c.fd p p' := by
  have hnone : c.isNoneEvent := h.events
  unfold remove EPollPoller.removeChannel
  simp only [if_pos hnone, if_pos hd, if_pos h.channels]
  refine ⟨_, _, rfl, ⟨rfl, h.events, ?_, ?_⟩, rfl, ⟨rfl, rfl, rfl, rfl, rfl⟩, ?_⟩
  · simp
  · simpa [h.index] using h.interest
  · intro fd hfd
    simp [h.index, Function.update_of_ne hfd]

end Channel

/-! ### Any number of channels on one poller -/

/-- The operations that set `events_` and call `update()`. -/
inductive ChannelOp where
  | enableReading
  | disableReading
  | enableWriting
  | disableWriting
  | disableAll
  deriving DecidableEq, Repr

namespace ChannelOp

/-- The events that an operation leaves. -/
def events : ChannelOp → Events → Events
  | .enableReading, e => e ∪ kReadEvent
  | .disableReading, e => e \ kReadEvent
  | .enableWriting, e => e ∪ kWriteEvent
  | .disableWriting, e => e \ kWriteEvent
  | .disableAll, _ => kNoneEvent

/-- The operation itself. -/
def apply : ChannelOp → Channel → EPollPoller → Option (EPollPoller × Channel)
  | .enableReading, c, p => c.enableReading p
  | .disableReading, c, p => c.disableReading p
  | .enableWriting, c, p => c.enableWriting p
  | .disableWriting, c, p => c.disableWriting p
  | .disableAll, c, p => c.disableAll p

/-- Every operation sets the events and calls `update()`. -/
lemma apply_eq (op : ChannelOp) (c : Channel) (p : EPollPoller) :
    op.apply c p = Channel.update { c with events := op.events c.events } p := by
  cases op <;> rfl

end ChannelOp

/-- A poller and the channels that exist, by descriptor: there is at most one for each. -/
structure PollerLoop where
  poller : EPollPoller
  channels : ℕ → Option Channel

/-- What can happen to the channels of a poller. -/
inductive ChannelAct where
  | construct (fd address : ℕ)
  | update (fd : ℕ) (op : ChannelOp)
  /-- `remove()`, while the loop is in the state `d`. -/
  | remove (fd : ℕ) (d : LoopDispatch)
  | destruct (fd : ℕ)
  deriving DecidableEq, Repr

namespace PollerLoop

/-- An empty poller. -/
def new : PollerLoop where
  poller := ⟨fun _ => none, fun _ => none⟩
  channels _ := none

/-- Replace the channel of a descriptor. -/
def put (s : PollerLoop) (r : EPollPoller × Channel) : PollerLoop where
  poller := r.1
  channels := Function.update s.channels r.2.fd (some r.2)

/-- When a step is legal: `remove()` only for a registered channel without events that the loop is
not about to dispatch, and the destructor only for a channel that is not added. -/
def pre (s : PollerLoop) : ChannelAct → Prop
  | .construct fd _ => s.channels fd = none
  | .update fd _ => (s.channels fd).isSome
  | .remove fd d => ∃ c ∈ s.channels fd, c.isNoneEvent ∧
      s.poller.channels c.fd = some c.address ∧ (d.eventHandling = true →
        d.currentActiveChannel = some c.address ∨ c.address ∉ d.activeChannels)
  | .destruct fd => ∃ c ∈ s.channels fd, c.eventHandling = false ∧ c.addedToLoop = false

instance (s : PollerLoop) (act : ChannelAct) : Decidable (s.pre act) := by
  unfold pre
  split
  · exact decidable_of_iff ((s.channels _).isNone = true) Option.isNone_iff_eq_none
  all_goals infer_instance

/-- The effect of a step. -/
def step (s : PollerLoop) : ChannelAct → Option (PollerLoop × List ChannelAct)
  | .construct fd address => some (s.put (s.poller, .new address fd), [.construct fd address])
  | .update fd op => do
    let c ← s.channels fd
    let r ← op.apply c s.poller
    some (s.put r, [.update fd op])
  | .remove fd d => do
    let c ← s.channels fd
    let r ← c.remove d s.poller
    some (s.put r, [.remove fd d])
  | .destruct fd =>
    some ({ s with channels := Function.update s.channels fd none }, [.destruct fd])

/-- All sequences of legal operations. -/
def machine : Machine PollerLoop ChannelAct ChannelAct where
  pre := pre
  step := step

instance (s : PollerLoop) (act : ChannelAct) : Decidable (machine.pre s act) :=
  inferInstanceAs (Decidable (s.pre act))

/-- The interest list has the channels with events, each with exactly its events. -/
def InterestExact (s : PollerLoop) : Prop :=
  ∀ fd, ∀ c ∈ s.channels fd,
    s.poller.interest fd = if c.events = kNoneEvent then none else some c.events

/-- No operation finds a channel without events and leaves it without events. -/
def OnlyChanges (s : PollerLoop) : ChannelAct → Prop
  | .update fd op => ∀ c ∈ s.channels fd,
      ¬ (c.events = kNoneEvent ∧ op.events c.events = kNoneEvent)
  | _ => True

instance (s : PollerLoop) (act : ChannelAct) : Decidable (s.OnlyChanges act) := by
  unfold OnlyChanges
  split <;> infer_instance

/-- All channels are consistent, and the poller knows nothing else. -/
structure InterestInv (s : PollerLoop) : Prop where
  fd : ∀ fd, ∀ c ∈ s.channels fd, c.fd = fd
  consistent : ∀ fd, ∀ c ∈ s.channels fd, Consistent s.poller c
  /-- A channel that is not added may be destroyed. -/
  removed : ∀ fd, ∀ c ∈ s.channels fd, c.addedToLoop = false → Unregistered s.poller c
  /-- The poller remembers no descriptor without a channel. -/
  unknown : ∀ fd, s.channels fd = none →
    s.poller.channels fd = none ∧ s.poller.interest fd = none

variable {s s' : PollerLoop} {act : ChannelAct} {out : List ChannelAct}

/-- The invariant holds before the first channel. -/
lemma InterestInv.new : InterestInv new where
  fd fd c hc := by cases hc
  consistent fd c hc := by cases hc
  removed fd c hc := by cases hc
  unknown fd _ := ⟨rfl, rfl⟩

/-- A channel of the table after `put` is the one put there, or one of another descriptor. -/
lemma mem_channels_put {p : EPollPoller} {c x : Channel} {fd : ℕ}
    (h : x ∈ (s.put (p, c)).channels fd) :
    (fd = c.fd ∧ x = c) ∨ (fd ≠ c.fd ∧ x ∈ s.channels fd) := by
  by_cases hfd : fd = c.fd
  · subst hfd
    simp only [PollerLoop.put, Function.update_self, Option.mem_some_iff] at h
    exact Or.inl ⟨rfl, h.symm⟩
  · simp only [PollerLoop.put, Function.update_of_ne hfd] at h
    exact Or.inr ⟨hfd, h⟩

/-- The poller remembers no descriptor without a channel. -/
def NoStaleEntry (s : PollerLoop) : Prop :=
  ∀ fd, s.channels fd = none → s.poller.channels fd = none ∧ s.poller.interest fd = none

/-- An operation on one channel leaves no entry of another behind. -/
lemma NoStaleEntry.put (h : s.NoStaleEntry) {c : Channel} {p : EPollPoller}
    (hother : SameElsewhere c.fd s.poller p) : (s.put (p, c)).NoStaleEntry := by
  intro fd hnone
  by_cases hfd : fd = c.fd
  · subst hfd
    simp [PollerLoop.put] at hnone
  · simp only [PollerLoop.put, Function.update_of_ne hfd] at hnone
    obtain ⟨hchannels, hinterest⟩ := h fd hnone
    obtain ⟨hchannels', hinterest'⟩ := hother fd hfd
    exact ⟨hchannels'.trans hchannels, hinterest'.trans hinterest⟩

/-- A channel of the table after the destructor was there before. -/
lemma mem_channels_destruct {fd fd' : ℕ} {x : Channel}
    (h : x ∈ Function.update s.channels fd none fd') : x ∈ s.channels fd' := by
  by_cases hfd' : fd' = fd
  · subst hfd'
    simp at h
  · rwa [Function.update_of_ne hfd'] at h

/-- Nor does the destruction of a channel that has been removed. -/
lemma NoStaleEntry.destruct (h : s.NoStaleEntry) {fd : ℕ} (hchannels : s.poller.channels fd = none)
    (hinterest : s.poller.interest fd = none) :
    NoStaleEntry { s with channels := Function.update s.channels fd none } := by
  intro fd' hnone
  by_cases hfd' : fd' = fd
  · subst hfd'
    exact ⟨hchannels, hinterest⟩
  · exact h fd' (by simpa only [Function.update_of_ne hfd'] using hnone)

/-- The channel of one descriptor is set, and the poller has changed only there. -/
lemma InterestInv.put (h : InterestInv s) {fd : ℕ} {c : Channel} {p : EPollPoller}
    (hfd : c.fd = fd) (hconsistent : Consistent p c)
    (hremoved : c.addedToLoop = false → Unregistered p c)
    (hother : SameElsewhere fd s.poller p) : InterestInv (s.put (p, c)) := by
  subst hfd
  refine ⟨?_, ?_, ?_, NoStaleEntry.put h.unknown hother⟩
  · intro fd' x hx
    rcases mem_channels_put hx with ⟨rfl, rfl⟩ | ⟨-, hold⟩
    · rfl
    · exact h.fd fd' x hold
  · intro fd' x hx
    rcases mem_channels_put hx with ⟨rfl, rfl⟩ | ⟨hne, hold⟩
    · exact hconsistent
    · refine (h.consistent fd' x hold).of_same hother ?_
      rw [h.fd fd' x hold]
      exact hne
  · intro fd' x hx hadded
    rcases mem_channels_put hx with ⟨rfl, rfl⟩ | ⟨hne, hold⟩
    · exact hremoved hadded
    · have hun := h.removed fd' x hold hadded
      have hfd := h.fd fd' x hold
      obtain ⟨hchannels, hinterest⟩ := hother x.fd (hfd ▸ hne)
      exact ⟨hun.index, hun.events, hchannels.trans hun.channels, hinterest.trans hun.interest⟩

/-- A channel that is not added may go. -/
lemma InterestInv.destruct (h : InterestInv s) {fd : ℕ} {c : Channel} (hc : c ∈ s.channels fd)
    (hadded : c.addedToLoop = false) :
    InterestInv { s with channels := Function.update s.channels fd none } := by
  have hun := h.removed fd c hc hadded
  have hfd := h.fd fd c hc
  refine ⟨fun fd' x hx => h.fd fd' x (mem_channels_destruct hx),
    fun fd' x hx => h.consistent fd' x (mem_channels_destruct hx),
    fun fd' x hx => h.removed fd' x (mem_channels_destruct hx), ?_⟩
  exact NoStaleEntry.destruct h.unknown (hfd ▸ hun.channels) (hfd ▸ hun.interest)

/-- Every legal step that meets the condition keeps all channels consistent. -/
theorem InterestInv.step (h : InterestInv s) (hpre : s.pre act) (hok : s.OnlyChanges act)
    (hstep : s.step act = some (s', out)) : InterestInv s' := by
  cases act with
  | construct fd address =>
    cases hstep
    obtain ⟨hchannels, hinterest⟩ := h.unknown fd hpre
    have hnew : Unregistered s.poller (.new address fd) := ⟨rfl, rfl, hchannels, hinterest⟩
    exact h.put rfl (Or.inl hnew) (fun _ => hnew) fun fd' _ => ⟨rfl, rfl⟩
  | update fd op =>
    obtain ⟨c, hc, hstep⟩ := Option.bind_eq_some_iff.mp hstep
    obtain ⟨p', c', hr, hupdated⟩ := Channel.update_consistent (h.consistent fd c hc) (hok c hc)
    rw [← ChannelOp.apply_eq] at hr
    rw [hr] at hstep
    cases hstep
    have hfd := h.fd fd c hc
    refine h.put (hupdated.same.fd.trans hfd) hupdated.consistent (fun hadded => ?_)
      (hfd ▸ hupdated.elsewhere)
    rw [hupdated.added] at hadded
    cases hadded
  | remove fd d =>
    obtain ⟨c, hc, hnone, htable, hd⟩ := hpre
    have hdetached : Detached s.poller c := by
      rcases h.consistent fd c hc with hcons | hcons | hcons
      · rw [hcons.channels] at htable
        cases htable
      · exact absurd hnone hcons.events
      · exact hcons
    obtain ⟨p', c', hr, hun, -, hsame, hother⟩ := Channel.remove_consistent hdetached hd
    simp only [PollerLoop.step, Option.mem_def.mp hc, hr, Option.bind_eq_bind, Option.bind_some,
      Option.some.injEq, Prod.mk.injEq] at hstep
    obtain ⟨rfl, -⟩ := hstep
    have hfd := h.fd fd c hc
    exact h.put (hsame.fd.trans hfd) (Or.inl hun) (fun _ => hun) (hfd ▸ hother)
  | destruct fd =>
    obtain ⟨c, hc, -, hadded⟩ := hpre
    cases hstep
    exact h.destruct hc hadded

/-- In every sequence of legal operations none of which finds a channel without events and leaves it
without events, the interest list stays exact. -/
theorem interest_exact_run {t : List ChannelAct} (h : (machine.restrict OnlyChanges).Run new t s) :
    InterestExact s := by
  have hinv : InterestInv s :=
    h.stateInvariant InterestInv .new fun s act s' out hinv hpre hstep =>
      hinv.step hpre.1 hpre.2 hstep
  intro fd c hc
  have hinterest := (hinv.consistent fd c hc).interest
  rwa [hinv.fd fd c hc] at hinterest

/-- Two channels, one of which goes through all situations and back. -/
theorem interest_exact_run_two :
    ∃ t s, (machine.restrict OnlyChanges).Run new t s ∧
      (s.poller.interest 5 = some kWriteEvent ∧ s.poller.interest 6 = none) ∧ InterestExact s := by
  obtain ⟨t, s, hrun, hs⟩ := (machine.restrict OnlyChanges).exists_run_of_exec new
    [.construct 5 1, .construct 6 2, .update 5 .enableReading, .update 6 .enableReading,
      .update 5 .disableAll, .remove 5 ⟨false, none, []⟩, .update 5 .enableWriting,
      .update 6 .disableReading]
    (fun s _ => s.poller.interest 5 = some kWriteEvent ∧ s.poller.interest 6 = none)
    (by decide +kernel)
  exact ⟨t, s, hrun, hs, interest_exact_run hrun⟩

/-- A channel that is disabled twice is back in the interest list. -/
theorem interest_not_exact : ¬ ∀ t s, machine.Run new t s → InterestExact s := by
  intro h
  obtain ⟨t, s, hrun, hevents, hinterest⟩ := machine.exists_run_of_exec new
    [.construct 5 1, .update 5 .enableReading, .update 5 .disableAll, .update 5 .disableAll]
    (fun s _ => (s.channels 5).map Channel.events = some kNoneEvent ∧
      s.poller.interest 5 = some kNoneEvent) (by decide +kernel)
  obtain ⟨c, hc, hnone⟩ := Option.map_eq_some_iff.mp hevents
  have hexact := h t s hrun 5 c hc
  rw [if_pos hnone, hinterest] at hexact
  cases hexact

end PollerLoop

end MuduoServer
