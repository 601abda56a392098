import Mathlib

/-!
# Channels and the poller

The classes `Channel` of `net/channel`, `EPollPoller` of `net/poller` and the part of `EventLoop`
that lies between them.  `EPollPoller` keeps a table `channels_` of its own beside the interest list
of the kernel, and every channel remembers in `index_` what was done with it.  A failed `assert` is
`none`; a failed `epoll_ctl` is only logged, so that it changes nothing.

A channel of a connection goes through three situations, `Unregistered`, `Registered` and
`Detached`, and the last section says how the operations lead from one to the next.
-/

namespace MuduoServer

/-- The event flags of epoll that the code uses. -/
inductive EpollFlag where
  | EPOLLIN
  | EPOLLPRI
  | EPOLLOUT
  | EPOLLERR
  | EPOLLHUP
  | EPOLLRDHUP
  deriving DecidableEq, Repr

/-- A set of event flags. -/
abbrev Events := Finset EpollFlag

/-- `Channel::kNoneEvent`. -/
def kNoneEvent : Events := ∅

/-- `Channel::kReadEvent`. -/
def kReadEvent : Events := {.EPOLLIN, .EPOLLPRI}

/-- `Channel::kWriteEvent`. -/
def kWriteEvent : Events := {.EPOLLOUT}

/-- The values of `index_`. -/
inductive ChannelIndex where
  | kNew
  | kAdded
  | kDeleted
  deriving DecidableEq, Repr

/-- The data members of `Channel`, and its address. -/
structure Channel where
  address : ℕ
  fd : ℕ
  events : Events
  revents : Events
  index : ChannelIndex
  tied : Bool
  eventHandling : Bool
  addedToLoop : Bool

/-- The second argument of `epoll_ctl`. -/
inductive EpollOp where
  | EPOLL_CTL_ADD
  | EPOLL_CTL_MOD
  | EPOLL_CTL_DEL
  deriving DecidableEq, Repr

/-- `channels_` as a map from descriptors to addresses, and the interest list in the kernel. -/
structure EPollPoller where
  channels : ℕ → Option ℕ
  interest : ℕ → Option Events

/-- The members of `EventLoop` that describe the dispatch in progress. -/
structure LoopDispatch where
  eventHandling : Bool
  currentActiveChannel : Option ℕ
  activeChannels : List ℕ
  deriving DecidableEq, Repr

namespace EPollPoller

/-- `update(operation, channel)`: one `epoll_ctl`. -/
def update (p : EPollPoller) (operation : EpollOp) (c : Channel) : EPollPoller :=
  match operation, p.interest c.fd with
  | .EPOLL_CTL_ADD, none =>
    { p with interest := Function.update p.interest c.fd (some c.events) }
  | .EPOLL_CTL_MOD, some _ =>
    { p with interest := Function.update p.interest c.fd (some c.events) }
  | .EPOLL_CTL_DEL, some _ => { p with interest := Function.update p.interest c.fd none }
  | _, _ => p

/-- `updateChannel(channel)`: the poller and the channel afterwards. -/
def updateChannel (p : EPollPoller) (c : Channel) : Option (EPollPoller × Channel) :=
  match c.index with
  | .kNew =>
    if p.channels c.fd = none then
      some ({ p with channels := Function.update p.channels c.fd (some c.address) }.update
        .EPOLL_CTL_ADD c, { c with index := .kAdded })
    else none
  | .kDeleted =>
    if p.channels c.fd = some c.address then
      some (p.update .EPOLL_CTL_ADD c, { c with index := .kAdded })
    else none
  | .kAdded =>
    if c.events = kNoneEvent then
      some (p.update .EPOLL_CTL_DEL c, { c with index := .kDeleted })
    else some (p.update .EPOLL_CTL_MOD c, c)

/-- `removeChannel(channel)`. -/
def removeChannel (p : EPollPoller) (c : Channel) : Option (EPollPoller × Channel) :=
  if p.channels c.fd = some c.address then
    let p' := if c.index = .kAdded then p.update .EPOLL_CTL_DEL c else p
    some ({ p' with channels := Function.update p'.channels c.fd none }, { c with index := .kNew })
  else none

end EPollPoller

namespace Channel

/-- The constructor. -/
def new (address fd : ℕ) : Channel where
  address := address
  fd := fd
  events := kNoneEvent
  revents := kNoneEvent
  index := .kNew
  tied := false
  eventHandling := false
  addedToLoop := false

/-- `isNoneEvent()`. -/
def isNoneEvent (c : Channel) : Prop := c.events = kNoneEvent

/-- `isWriting()`. -/
def isWriting (c : Channel) : Prop := c.events ∩ kWriteEvent ≠ kNoneEvent

/-- `isReading()`. -/
def isReading (c : Channel) : Prop := c.events ∩ kReadEvent ≠ kNoneEvent

instance (c : Channel) : Decidable c.isNoneEvent := inferInstanceAs (Decidable (_ = _))

instance (c : Channel) : Decidable c.isWriting := inferInstanceAs (Decidable (_ ≠ _))

instance (c : Channel) : Decidable c.isReading := inferInstanceAs (Decidable (_ ≠ _))

/-- `tie(obj)`. -/
def tie (c : Channel) : Channel := { c with tied := true }

/-- `update()`, through `EventLoop::updateChannel`. -/
def update (c : Channel) (p : EPollPoller) : Option (EPollPoller × Channel) :=
  p.updateChannel { c with addedToLoop := true }

/-- `enableReading()`. -/
def enableReading (c : Channel) (p : EPollPoller) : Option (EPollPoller × Channel) :=
  update { c with events := c.events ∪ kReadEvent } p

/-- `disableReading()`. -/
def disableReading (c : Channel) (p : EPollPoller) : Option (EPollPoller × Channel) :=
  update { c with events := c.events \ kReadEvent } p

/-- `enableWriting()`. -/
def enableWriting (c : Channel) (p : EPollPoller) : Option (EPollPoller × Channel) :=
  update { c with events := c.events ∪ kWriteEvent } p

/-- `disableWriting()`. -/
def disableWriting (c : Channel) (p : EPollPoller) : Option (EPollPoller × Channel) :=
  update { c with events := c.events \ kWriteEvent } p

/-- `disableAll()`. -/
def disableAll (c : Channel) (p : EPollPoller) : Option (EPollPoller × Channel) :=
  update { c with events := kNoneEvent } p

/-- `remove()`, through `EventLoop::removeChannel`. -/
def remove (c : Channel) (d : LoopDispatch) (p : EPollPoller) : Option (EPollPoller × Channel) :=
  if c.isNoneEvent then
    let c' := { c with addedToLoop := false }
    if d.eventHandling = true →
        d.currentActiveChannel = some c.address ∨ c.address ∉ d.activeChannels then
      p.removeChannel c'
    else none
  else none

end Channel

/-! ### What the functions do

When a function has succeeded, its result has one of these forms. -/

namespace EPollPoller

variable {p p' : EPollPoller} {c c' : Channel}

/-- `epoll_ctl` does not concern the table of the poller. -/
@[simp] lemma channels_update (p : EPollPoller) (operation : EpollOp) (c : Channel) :
    (p.update operation c).channels = p.channels := by
  unfold update
  split <;> rfl

/-- What `updateChannel` does, by the index and the events of the channel. -/
lemma updateChannel_eq_some (h : p.updateChannel c = some (p', c')) :
    (c.index = .kNew ∧ p.channels c.fd = none ∧
      p' = { p with channels := Function.update p.channels c.fd (some c.address) }.update
        .EPOLL_CTL_ADD c ∧ c' = { c with index := .kAdded }) ∨
    (c.index = .kDeleted ∧ p.channels c.fd = some c.address ∧ p' = p.update .EPOLL_CTL_ADD c ∧
      c' = { c with index := .kAdded }) ∨
    (c.index = .kAdded ∧ c.events = kNoneEvent ∧ p' = p.update .EPOLL_CTL_DEL c ∧
      c' = { c with index := .kDeleted }) ∨
    c.index = .kAdded ∧ c.events ≠ kNoneEvent ∧ p' = p.update .EPOLL_CTL_MOD c ∧ c' = c := by
  unfold updateChannel at h
  split at h
  · next hindex =>
    obtain ⟨hfree, h⟩ := Option.ite_none_right_eq_some.mp h
    obtain ⟨rfl, rfl⟩ := Prod.mk.inj (Option.some.inj h)
    exact Or.inl ⟨hindex, hfree, rfl, rfl⟩
  · next hindex =>
    obtain ⟨hknown, h⟩ := Option.ite_none_right_eq_some.mp h
    obtain ⟨rfl, rfl⟩ := Prod.mk.inj (Option.some.inj h)
    exact Or.inr (Or.inl ⟨hindex, hknown, rfl, rfl⟩)
  · next hindex =>
    split at h
    · next hnone =>
      obtain ⟨rfl, rfl⟩ := Prod.mk.inj (Option.some.inj h)
      exact Or.inr (Or.inr (Or.inl ⟨hindex, hnone, rfl, rfl⟩))
    · next hnone =>
      obtain ⟨rfl, rfl⟩ := Prod.mk.inj (Option.some.inj h)
      exact Or.inr (Or.inr (Or.inr ⟨hindex, hnone, rfl, rfl⟩))

/-- What `removeChannel` does when its asserts hold. -/
lemma removeChannel_eq_some (h : p.removeChannel c = some (p', c')) :
    p.channels c.fd = some c.address ∧ c' = { c with index := .kNew } ∧
      p'.channels = Function.update p.channels c.fd none ∧
      ((c.index = .kAdded ∧ p'.interest = (p.update .EPOLL_CTL_DEL c).interest) ∨
        c.index ≠ .kAdded ∧ p'.interest = p.interest) := by
  obtain ⟨hknown, h⟩ := Option.ite_none_right_eq_some.mp h
  by_cases hindex : c.index = .kAdded
  · rw [if_pos hindex] at h
    obtain ⟨rfl, rfl⟩ := Prod.mk.inj (Option.some.inj h)
    exact ⟨hknown, rfl, by rw [channels_update], Or.inl ⟨hindex, rfl⟩⟩
  · rw [if_neg hindex] at h
    obtain ⟨rfl, rfl⟩ := Prod.mk.inj (Option.some.inj h)
    exact ⟨hknown, rfl, rfl, Or.inr ⟨hindex, rfl⟩⟩

end EPollPoller

/-- `remove()` that passes its asserts: the channel has no events and does not wait for its turn. -/
lemma Channel.remove_eq_some {p p' : EPollPoller} {c c' : Channel} {d : LoopDispatch}
    (h : c.remove d p = some (p', c')) :
    c.isNoneEvent ∧ (d.eventHandling = true →
      d.currentActiveChannel = some c.address ∨ c.address ∉ d.activeChannels) ∧
      p.removeChannel { c with addedToLoop := false } = some (p', c') := by
  obtain ⟨hnone, h⟩ := Option.ite_none_right_eq_some.mp h
  obtain ⟨hassert, h⟩ := Option.ite_none_right_eq_some.mp h
  exact ⟨hnone, hassert, h⟩

/-! ### The three situations of a channel -/

/-- The poller does not know the channel. -/
structure Unregistered (p : EPollPoller) (c : Channel) : Prop where
  index : c.index = .kNew
  events : c.events = kNoneEvent
  channels : p.channels c.fd = none
  interest : p.interest c.fd = none

/-- The channel is monitored for its events, and these are not none. -/
structure Registered (p : EPollPoller) (c : Channel) : Prop where
  index : c.index = .kAdded
  reading : kReadEvent ⊆ c.events
  channels : p.channels c.fd = some c.address
  interest : p.interest c.fd = some c.events

/-- The channel has no events and is not monitored, but still in the table of the poller. -/
structure Detached (p : EPollPoller) (c : Channel) : Prop where
  index : c.index = .kDeleted
  events : c.events = kNoneEvent
  channels : p.channels c.fd = some c.address
  interest : p.interest c.fd = none

/-- What an operation does not change of a channel. -/
structure SameChannel (c c' : Channel) : Prop where
  address : c'.address = c.address
  fd : c'.fd = c.fd
  revents : c'.revents = c.revents
  tied : c'.tied = c.tied
  eventHandling : c'.eventHandling = c.eventHandling

/-- A channel is the same as itself. -/
@[refl] lemma SameChannel.refl (c : Channel) : SameChannel c c := ⟨rfl, rfl, rfl, rfl, rfl⟩

namespace Channel

variable {p : EPollPoller} {c : Channel}

/-- A channel without events does not write. -/
lemma not_isWriting_of_events (h : c.events = kNoneEvent) : ¬ c.isWriting := by
  unfold isWriting
  rw [h]
  simp [kNoneEvent]

/-- A channel that reads is not without events. -/
lemma events_ne_none {e : Events} (h : kReadEvent ⊆ e) : e ≠ kNoneEvent := by
  rintro rfl
  exact absurd (h (Finset.mem_insert_self _ _)) (Finset.notMem_empty _)

/-- `enableReading()` registers a channel that the poller does not know. -/
lemma enableReading_spec (h : Unregistered p c) :
    ∃ p' c', c.enableReading p = some (p', c') ∧ Registered p' c' ∧ SameChannel c c' := by
  obtain ⟨hindex, hevents, hchannels, hinterest⟩ := h
  unfold enableReading update EPollPoller.updateChannel
  simp only [hindex, hchannels, if_true]
  refine ⟨_, _, rfl, ?_, ⟨rfl, rfl, rfl, rfl, rfl⟩⟩
  refine ⟨rfl, Finset.subset_union_right, ?_, ?_⟩
  · simp [EPollPoller.update, hinterest]
  · simp [EPollPoller.update, hinterest]

/-- An operation that leaves read events on a registered channel keeps it registered. -/
lemma update_registered (h : Registered p c) {e : Events} (he : kReadEvent ⊆ e) :
    ∃ p' c', update { c with events := e } p = some (p', c') ∧ Registered p' c' ∧
      SameChannel c c' := by
  obtain ⟨hindex, hreading, hchannels, hinterest⟩ := h
  unfold update EPollPoller.updateChannel
  simp only [hindex, if_neg (events_ne_none he)]
  refine ⟨_, _, rfl, ?_, ⟨rfl, rfl, rfl, rfl, rfl⟩⟩
  refine ⟨rfl, he, ?_, ?_⟩
  · simp [EPollPoller.update, hinterest, hchannels]
  · simp [EPollPoller.update, hinterest]

/-- `enableWriting()` keeps a channel registered. -/
lemma enableWriting_spec (h : Registered p c) :
    ∃ p' c', c.enableWriting p = some (p', c') ∧ Registered p' c' ∧ SameChannel c c' :=
  update_registered h (h.reading.trans Finset.subset_union_left)

/-- `disableWriting()` keeps a channel registered. -/
lemma disableWriting_spec (h : Registered p c) :
    ∃ p' c', c.disableWriting p = some (p', c') ∧ Registered p' c' ∧ SameChannel c c' := by
  refine update_registered h fun f hf => Finset.mem_sdiff.mpr ⟨h.reading hf, ?_⟩
  cases f <;> simp_all [kReadEvent, kWriteEvent]

/-- `disableAll()` takes a registered channel off the interest list. -/
lemma disableAll_spec (h : Registered p c) :
    ∃ p' c', c.disableAll p = some (p', c') ∧ Detached p' c' ∧ SameChannel c c' := by
  obtain ⟨hindex, hreading, hchannels, hinterest⟩ := h
  unfold disableAll update EPollPoller.updateChannel
  simp only [hindex, if_true]
  refine ⟨_, _, rfl, ?_, ⟨rfl, rfl, rfl, rfl, rfl⟩⟩
  refine ⟨rfl, rfl, ?_, ?_⟩
  · simp [EPollPoller.update, hinterest, hchannels]
  · simp [EPollPoller.update, hinterest]

/-- `remove()` takes a detached channel out of the table. -/
lemma remove_spec {d : LoopDispatch} (h : Detached p c)
    (hd : d.eventHandling = true → d.currentActiveChannel = some c.address) :
    ∃ p' c', c.remove d p = some (p', c') ∧ Unregistered p' c' ∧ SameChannel c c' := by
  obtain ⟨hindex, hevents, hchannels, hinterest⟩ := h
  have hassert : d.eventHandling = true →
      d.currentActiveChannel = some c.address ∨ c.address ∉ d.activeChannels :=
    fun hhandling => Or.inl (hd hhandling)
  have hnone : c.isNoneEvent := hevents
  unfold remove EPollPoller.removeChannel
  simp only [if_pos hnone, if_pos hassert, if_pos hchannels]
  refine ⟨_, _, rfl, ?_, ⟨rfl, rfl, rfl, rfl, rfl⟩⟩
  refine ⟨rfl, hevents, ?_, ?_⟩
  · simp
  · simpa [hindex] using hinterest

end Channel

end MuduoServer
