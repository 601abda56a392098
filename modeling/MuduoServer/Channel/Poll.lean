import MuduoServer.Channel.Bookkeeping
import MuduoServer.Lib.Compose

/-!
# What `poll` reports

`EPollPoller::poll` gives the vector `events_` to `epoll_wait`, turns what comes back into
`activeChannels`, and doubles the vector when it came back full.  The kernel hands out the pointers
`data.ptr` that `update` has left there with `epoll_ctl`, and `fillActiveChannels` writes `revents_`
through them without looking into `channels_`.  This is safe as long as every pointer in the kernel
is that of the channel whose descriptor it stands with.

A vector that is too small makes `epoll_wait` leave some channels out, and nothing in the code says
which ones.  But then it came back full, so it is doubled: how often a channel can be passed over is
bounded by the logarithm of the number of descriptors that are ready, and the size of the vector by
twice that number.
-/

namespace MuduoServer

/-- `kInitEventListSize`. -/
def kInitEventListSize : ℕ := 16

/-- An entry of `events_`, as the kernel has written it: the events and `data.ptr`. -/
structure EpollEvent where
  events : Events
  ptr : ℕ
  deriving DecidableEq

/-- The pointers `data.ptr` in the interest list after one `epoll_ctl`. -/
def EPollPoller.ctlPtr (p : EPollPoller) (ptr : ℕ → Option ℕ) (operation : EpollOp) (c : Channel) :
    ℕ → Option ℕ :=
  match operation, p.interest c.fd with
  | .EPOLL_CTL_ADD, none => Function.update ptr c.fd (some c.address)
  | .EPOLL_CTL_MOD, some _ => Function.update ptr c.fd (some c.address)
  | .EPOLL_CTL_DEL, some _ => Function.update ptr c.fd none
  | _, _ => ptr

/-- `hasChannel(channel)`. -/
def EPollPoller.hasChannel (p : EPollPoller) (c : Channel) : Bool :=
  match p.channels c.fd with
  | none => false
  | some a => a = c.address

/-- A write to `revents_` through the pointer `a`. -/
def PollerLoop.setRevents (s : PollerLoop) (a : ℕ) (revents : Events) : PollerLoop :=
  { s with
    channels := fun fd => (s.channels fd).map fun c =>
      if c.address = a then { c with revents := revents } else c }

/-- The channels of one poller, the pointers in the kernel, the size of `events_`, and what the last
`poll` has reported. -/
structure PollingLoop where
  loop : PollerLoop
  /-- The addresses at which there is a channel. -/
  addresses : List ℕ
  ptr : ℕ → Option ℕ
  eventsSize : ℕ
  activeChannels : List ℕ

/-- An operation on a channel, or a `poll` at which the descriptors in `ready` have events and
`epoll_wait` reports those in `res`, with their events, or fails. -/
inductive PollAct where
  | channel (act : ChannelAct)
  | poll (ready : Finset ℕ) (res : Option (List (ℕ × Events)))

namespace PollingLoop

/-- An empty poller. -/
def new : PollingLoop where
  loop := .new
  addresses := []
  ptr _ := none
  eventsSize := kInitEventListSize
  activeChannels := []

/-- What `epoll_wait` writes to `events_`. -/
def written (s : PollingLoop) (l : List (ℕ × Events)) : List EpollEvent :=
  l.filterMap fun r => (s.ptr r.1).map fun a => ⟨r.2, a⟩

/-- `fillActiveChannels(numEvents, activeChannels)`. -/
def fillActiveChannels (s : PollingLoop) (events : List EpollEvent) : PollingLoop :=
  events.foldl (fun s e =>
    { s with
      loop := s.loop.setRevents e.ptr e.events
      activeChannels := s.activeChannels ++ [e.ptr] }) s

/-- `poll(timeoutMs, activeChannels)`, when `epoll_wait` returns -1 or the events. -/
def pollEvents (s : PollingLoop) : Option (List EpollEvent) → PollingLoop
  | none => s
  | some [] => s
  | some (e :: events) =>
    let s' := s.fillActiveChannels (e :: events)
    if (e :: events).length = s'.eventsSize then { s' with eventsSize := s'.eventsSize * 2 } else s'

/-- What `epoll_wait` promises: it reports descriptors that are ready, each once, with events that
are monitored or need not be, at most as many as the vector holds, and all of them if there is room
left in it. -/
structure EpollWait (s : PollingLoop) (ready : Finset ℕ) (l : List (ℕ × Events)) : Prop where
  monitored : ∀ fd ∈ ready, (s.loop.poller.interest fd).isSome
  nodup : (l.map Prod.fst).Nodup
  reported : ∀ r ∈ l, r.1 ∈ ready
  events : ∀ r ∈ l, r.2 ≠ kNoneEvent ∧
    ∃ mask ∈ s.loop.poller.interest r.1, r.2 ⊆ mask ∪ {.EPOLLERR, .EPOLLHUP}
  fits : l.length ≤ s.eventsSize
  complete : l.length < s.eventsSize → ∀ fd ∈ ready, fd ∈ l.map Prod.fst

/-- The pointers in the kernel after an operation on a channel. -/
def ptrAfter (s : PollingLoop) : ChannelAct → ℕ → Option ℕ
  | .update fd op =>
    match s.loop.channels fd with
    | none => s.ptr
    | some c =>
      let c' := { c with events := op.events c.events, addedToLoop := true }
      s.loop.poller.ctlPtr s.ptr c'.updateCtl c'
  | .remove fd _ =>
    match s.loop.channels fd with
    | none => s.ptr
    | some c =>
      let c' := { c with addedToLoop := false }
      match c'.removeCtl with
      | none => s.ptr
      | some operation => s.loop.poller.ctlPtr s.ptr operation c'
  | _ => s.ptr

/-- The addresses in use after an operation on a channel. -/
def addressesAfter (s : PollingLoop) : ChannelAct → List ℕ
  | .construct _ address => address :: s.addresses
  | .destruct fd =>
    match s.loop.channels fd with
    | none => s.addresses
    | some c => s.addresses.erase c.address
  | _ => s.addresses

/-- When a step is legal: a new channel gets memory that is not in use. -/
def pre (s : PollingLoop) : PollAct → Prop
  | .channel act => s.loop.pre act ∧
      match act with
      | .construct _ address => address ∉ s.addresses
      | _ => True
  | .poll _ none => True
  | .poll ready (some l) => s.EpollWait ready l

/-- The effect of a step; `EventLoop::loop` clears `activeChannels_` before it polls. -/
def step (s : PollingLoop) : PollAct → Option (PollingLoop × List PollAct)
  | .channel act => (s.loop.step act).map fun r =>
      ({ s with loop := r.1, addresses := s.addressesAfter act, ptr := s.ptrAfter act },
        [.channel act])
  | .poll ready res =>
    some ({ s with activeChannels := [] }.pollEvents (res.map s.written), [.poll ready res])

/-- All sequences of operations and polls. -/
def machine : Machine PollingLoop PollAct PollAct where
  pre := pre
  step := step

instance (s : PollingLoop) (ready : Finset ℕ) (l : List (ℕ × Events)) :
    Decidable (s.EpollWait ready l) :=
  decidable_of_iff ((∀ fd ∈ ready, (s.loop.poller.interest fd).isSome) ∧ (l.map Prod.fst).Nodup ∧
      (∀ r ∈ l, r.1 ∈ ready) ∧ (∀ r ∈ l, r.2 ≠ kNoneEvent ∧
        ∃ mask ∈ s.loop.poller.interest r.1, r.2 ⊆ mask ∪ {.EPOLLERR, .EPOLLHUP}) ∧
      l.length ≤ s.eventsSize ∧ (l.length < s.eventsSize → ∀ fd ∈ ready, fd ∈ l.map Prod.fst))
    ⟨fun ⟨h₁, h₂, h₃, h₄, h₅, h₆⟩ => ⟨h₁, h₂, h₃, h₄, h₅, h₆⟩,
      fun h => ⟨h.monitored, h.nodup, h.reported, h.events, h.fits, h.complete⟩⟩

instance (s : PollingLoop) (act : PollAct) : Decidable (machine.pre s act) :=
  match act with
  | .channel (.construct fd address) =>
    inferInstanceAs (Decidable (s.loop.pre (.construct fd address) ∧ address ∉ s.addresses))
  | .channel (.update fd op) => inferInstanceAs (Decidable (s.loop.pre (.update fd op) ∧ True))
  | .channel (.remove fd d) => inferInstanceAs (Decidable (s.loop.pre (.remove fd d) ∧ True))
  | .channel (.destruct fd) => inferInstanceAs (Decidable (s.loop.pre (.destruct fd) ∧ True))
  | .poll _ none => inferInstanceAs (Decidable True)
  | .poll ready (some l) => inferInstanceAs (Decidable (s.EpollWait ready l))

/-! ### The pointers in the kernel -/

/-- The pointers in the kernel are those of the channels, and no two channels share memory. -/
structure PtrInv (s : PollingLoop) : Prop where
  book : s.loop.BookInv
  addresses : ∀ fd, ∀ c ∈ s.loop.channels fd, c.address ∈ s.addresses
  distinct : ∀ fd, ∀ c ∈ s.loop.channels fd, ∀ fd', ∀ c' ∈ s.loop.channels fd',
    c.address = c'.address → fd = fd'
  ptr : ∀ fd, ∀ c ∈ s.loop.channels fd, (s.loop.poller.interest fd).isSome →
    s.ptr fd = some c.address
  nodup : s.addresses.Nodup

/-- The invariant holds before the first channel. -/
lemma PtrInv.new : PtrInv new where
  book := .new
  addresses fd c hc := by cases hc
  distinct fd c hc := by cases hc
  ptr fd c hc := by cases hc
  nodup := List.nodup_nil

end PollingLoop

namespace EPollPoller

variable {p : EPollPoller} {ptr : ℕ → Option ℕ} {c : Channel} {operation : EpollOp}

/-- One `epoll_ctl` leaves the pointers of the other descriptors alone. -/
lemma ctlPtr_of_ne {fd : ℕ} (hfd : fd ≠ c.fd) : p.ctlPtr ptr operation c fd = ptr fd := by
  unfold ctlPtr
  cases operation <;> cases p.interest c.fd <;> simp [Function.update_of_ne hfd]

/-- After a legal request the descriptor is not monitored or has the pointer to the channel. -/
lemma ctlPtr_self (hlegal : p.LegalCtl operation c.fd) :
    ((p.update operation c).interest c.fd).isSome →
      p.ctlPtr ptr operation c c.fd = some c.address := by
  cases operation with
  | EPOLL_CTL_ADD =>
    have hnone : p.interest c.fd = none := hlegal
    simp [ctlPtr, hnone]
  | EPOLL_CTL_MOD =>
    obtain ⟨mask, hmask⟩ := Option.isSome_iff_exists.mp hlegal
    simp [ctlPtr, hmask]
  | EPOLL_CTL_DEL =>
    obtain ⟨mask, hmask⟩ := Option.isSome_iff_exists.mp hlegal
    simp [update, hmask]

end EPollPoller

namespace PollingLoop

variable {s s' : PollingLoop}

/-- The channel of one descriptor is set; its pointer is the one that the kernel has. -/
lemma PtrInv.put (h : PtrInv s) {fd : ℕ} {c c' : Channel} {p : EPollPoller} {ptr : ℕ → Option ℕ}
    (hc : c ∈ s.loop.channels fd) (hsame : SameChannel c c')
    (hbook : (s.loop.put (p, c')).BookInv) (hother : SameElsewhere c.fd s.loop.poller p)
    (hptr : ∀ fd' ≠ c.fd, ptr fd' = s.ptr fd')
    (hself : (p.interest c.fd).isSome → ptr c.fd = some c.address) :
    PtrInv { s with loop := s.loop.put (p, c'), ptr := ptr } := by
  have hfd : c.fd = fd := h.book.fd fd c hc
  have hfd' : c'.fd = fd := hsame.fd.trans hfd
  have hold : ∀ {fd' x}, x ∈ (s.loop.put (p, c')).channels fd' →
      ∃ y ∈ s.loop.channels fd', y.address = x.address := by
    intro fd' x hx
    rcases PollerLoop.mem_channels_put hx with ⟨rfl, rfl⟩ | ⟨-, hx⟩
    · rw [hfd']
      exact ⟨c, hc, hsame.address.symm⟩
    · exact ⟨x, hx, rfl⟩
  refine ⟨hbook, fun fd' x hx => ?_, fun fd₁ x₁ hx₁ fd₂ x₂ hx₂ heq => ?_, fun fd' x hx hsome => ?_,
    h.nodup⟩
  · obtain ⟨y, hy, haddress⟩ := hold hx
    exact haddress ▸ h.addresses fd' y hy
  · obtain ⟨y₁, hy₁, haddress₁⟩ := hold hx₁
    obtain ⟨y₂, hy₂, haddress₂⟩ := hold hx₂
    exact h.distinct fd₁ y₁ hy₁ fd₂ y₂ hy₂ (haddress₁.trans (heq.trans haddress₂.symm))
  · rcases PollerLoop.mem_channels_put hx with ⟨rfl, rfl⟩ | ⟨hne, hx⟩
    · rw [hsame.fd] at hsome ⊢
      rw [hsame.address]
      exact hself hsome
    · have hne' : fd' ≠ c.fd := fun heq => hne (heq.trans hsame.fd.symm)
      obtain ⟨-, hinterest⟩ := hother fd' hne'
      exact (hptr fd' hne').trans (h.ptr fd' x hx (hinterest ▸ hsome))

/-- Every operation on a channel leaves the right pointers in the kernel. -/
lemma PtrInv.channel {act : ChannelAct} {loop : PollerLoop} {out : List ChannelAct}
    (h : PtrInv s) (hpre : s.pre (.channel act)) (hstep : s.loop.step act = some (loop, out)) :
    PtrInv { s with
      loop := loop
      addresses := s.addressesAfter act
      ptr := s.ptrAfter act } := by
  have hbook := h.book.step hpre.1 hstep
  cases act with
  | construct fd address =>
    obtain ⟨hfree, hnew⟩ := hpre
    cases hstep
    obtain ⟨-, hinterest⟩ := h.book.unknown fd hfree
    have hcases : ∀ {fd' x}, x ∈ (s.loop.put (s.loop.poller, .new address fd)).channels fd' →
        (fd' = fd ∧ x = .new address fd) ∨ (fd' ≠ fd ∧ x ∈ s.loop.channels fd') :=
      PollerLoop.mem_channels_put
    refine ⟨hbook, fun fd' x hx => ?_, fun fd₁ x₁ hx₁ fd₂ x₂ hx₂ heq => ?_,
      fun fd' x hx hsome => ?_, List.nodup_cons.mpr ⟨hnew, h.nodup⟩⟩
    · rcases hcases hx with ⟨-, rfl⟩ | ⟨-, hx⟩
      · exact List.mem_cons_self
      · exact List.mem_cons_of_mem _ (h.addresses fd' x hx)
    · rcases hcases hx₁ with ⟨rfl, rfl⟩ | ⟨-, hold₁⟩ <;>
        rcases hcases hx₂ with ⟨rfl, rfl⟩ | ⟨-, hold₂⟩
      · rfl
      · exact absurd (Eq.subst heq.symm (h.addresses fd₂ x₂ hold₂)) hnew
      · exact absurd (Eq.subst heq (h.addresses fd₁ x₁ hold₁)) hnew
      · exact h.distinct fd₁ x₁ hold₁ fd₂ x₂ hold₂ heq
    · rcases hcases hx with ⟨rfl, rfl⟩ | ⟨-, hx⟩
      · exact absurd hsome (by simp [PollerLoop.put, hinterest])
      · exact h.ptr fd' x hx hsome
  | update fd op =>
    obtain ⟨c, hc, hstep⟩ := Option.bind_eq_some_iff.mp hstep
    obtain ⟨r, hr, hstep⟩ := Option.bind_eq_some_iff.mp hstep
    cases hstep
    have hkept := h.book.bookkept fd c hc
    obtain ⟨p', c', hr', -, -, -, hsame, hother⟩ := hkept.update (op.events c.events)
    rw [ChannelOp.apply_eq] at hr
    obtain rfl := Option.some.inj (hr.symm.trans hr')
    have hinterest := Channel.interest_updateChannel hr
    have hptr : s.ptrAfter (.update fd op) = s.loop.poller.ctlPtr s.ptr
        (Channel.updateCtl { c with events := op.events c.events, addedToLoop := true })
        { c with events := op.events c.events, addedToLoop := true } := by
      simp only [ptrAfter, Option.mem_def.mp hc]
    rw [hptr]
    refine h.put hc hsame hbook hother (fun fd' hfd' => EPollPoller.ctlPtr_of_ne hfd')
      fun hsome => ?_
    rw [hinterest] at hsome
    exact EPollPoller.ctlPtr_self
      (c := { c with events := op.events c.events, addedToLoop := true })
      (hkept.legal_updateCtl (op.events c.events)) hsome
  | remove fd d =>
    obtain ⟨⟨c, hc, hnone, htable, hd⟩, -⟩ := hpre
    have hkept : Bookkept s.loop.poller { c with addedToLoop := false } := by
      obtain ⟨hnew, hunknown, hadded, hdeleted⟩ := h.book.bookkept fd c hc
      exact ⟨hnew, hunknown, hadded, hdeleted⟩
    obtain ⟨p', c', hr, hkept', hindex, -, hsame, hother⟩ := hkept.removeChannel htable
    simp only [PollerLoop.step, Option.mem_def.mp hc, Channel.remove, if_pos hnone, if_pos hd, hr,
      Option.bind_eq_bind, Option.bind_some, Option.some.injEq, Prod.mk.injEq] at hstep
    obtain ⟨rfl, -⟩ := hstep
    have hsame' : SameChannel c c' :=
      ⟨hsame.address, hsame.fd, hsame.revents, hsame.tied, hsame.eventHandling⟩
    refine h.put hc hsame' hbook hother (fun fd' hfd' => ?_) fun hsome => ?_
    · cases hctl : Channel.removeCtl { c with addedToLoop := false } with
      | none => simp only [ptrAfter, Option.mem_def.mp hc, hctl]
      | some operation =>
        simp only [ptrAfter, Option.mem_def.mp hc, hctl]
        exact EPollPoller.ctlPtr_of_ne hfd'
    · have hunknown := (hkept'.unknown hindex).2
      rw [hsame'.fd] at hunknown
      rw [hunknown] at hsome
      cases hsome
  | destruct fd =>
    obtain ⟨⟨c, hc, -, hadded⟩, -⟩ := hpre
    cases hstep
    have haddresses : s.addressesAfter (.destruct fd) = s.addresses.erase c.address := by
      simp only [addressesAfter, Option.mem_def.mp hc]
    have hold : ∀ {fd' x}, x ∈ Function.update s.loop.channels fd none fd' →
        fd' ≠ fd ∧ x ∈ s.loop.channels fd' := by
      intro fd' x hx
      refine ⟨?_, PollerLoop.mem_channels_destruct hx⟩
      rintro rfl
      simp at hx
    rw [haddresses]
    refine ⟨hbook, fun fd' x hx => ?_, fun fd₁ x₁ hx₁ fd₂ x₂ hx₂ heq => ?_,
      fun fd' x hx hsome => h.ptr fd' x (hold hx).2 hsome, h.nodup.erase _⟩
    · obtain ⟨hne, hx⟩ := hold hx
      refine (List.mem_erase_of_ne ?_).mpr (h.addresses fd' x hx)
      exact fun heq => hne (h.distinct fd' x hx fd c hc heq)
    · exact h.distinct fd₁ x₁ (hold hx₁).2 fd₂ x₂ (hold hx₂).2 heq

/-! ### One poll -/

/-- A channel through which the events have been written. -/
def reportTo (events : List EpollEvent) (c : Channel) : Channel :=
  events.foldl (fun c e => if c.address = e.ptr then { c with revents := e.events } else c) c

/-- Only `revents_` is written. -/
lemma reportTo_eq (events : List EpollEvent) (c : Channel) :
    ∃ revents, reportTo events c = { c with revents := revents } := by
  induction events generalizing c with
  | nil => exact ⟨c.revents, rfl⟩
  | cons e events ih =>
    by_cases haddress : c.address = e.ptr
    · obtain ⟨revents, hrevents⟩ := ih { c with revents := e.events }
      exact ⟨revents, by rw [reportTo, List.foldl_cons, if_pos haddress]; exact hrevents⟩
    · obtain ⟨revents, hrevents⟩ := ih c
      exact ⟨revents, by rw [reportTo, List.foldl_cons, if_neg haddress]; exact hrevents⟩

/-- `fillActiveChannels` as a whole. -/
lemma fillActiveChannels_eq (s : PollingLoop) (events : List EpollEvent) :
    s.fillActiveChannels events = { s with
      loop := { s.loop with channels := fun fd => (s.loop.channels fd).map (reportTo events) }
      activeChannels := s.activeChannels ++ events.map EpollEvent.ptr } := by
  induction events generalizing s with
  | nil =>
    have hchannels : (fun fd => (s.loop.channels fd).map (reportTo [])) = s.loop.channels :=
      funext fun fd => Option.map_id'
    rw [hchannels, List.map_nil, List.append_nil]
    rfl
  | cons e events ih =>
    rw [fillActiveChannels, List.foldl_cons]
    refine (ih _).trans ?_
    simp only [PollerLoop.setRevents, Option.map_map, List.map_cons, List.append_assoc,
      List.cons_append, List.nil_append]
    congr 2

/-- Writing `revents_` changes nothing that the pointers depend on. -/
lemma PtrInv.report (h : PtrInv s) (events : List EpollEvent) (n : ℕ) (l : List ℕ) :
    PtrInv { s with
      loop := { s.loop with channels := fun fd => (s.loop.channels fd).map (reportTo events) }
      eventsSize := n
      activeChannels := l } := by
  have hold : ∀ {fd x}, x ∈ (s.loop.channels fd).map (reportTo events) →
      ∃ c ∈ s.loop.channels fd, ∃ revents, x = { c with revents := revents } := by
    intro fd x hx
    obtain ⟨c, hc, rfl⟩ := Option.map_eq_some_iff.mp hx
    exact ⟨c, hc, reportTo_eq events c⟩
  refine ⟨⟨fun fd x hx => ?_, fun fd x hx => ?_, fun fd x hx hadded => ?_, fun fd hnone => ?_⟩,
    fun fd x hx => ?_, fun fd₁ x₁ hx₁ fd₂ x₂ hx₂ heq => ?_, fun fd x hx hsome => ?_, h.nodup⟩
  · obtain ⟨c, hc, revents, rfl⟩ := hold hx
    exact h.book.fd fd c hc
  · obtain ⟨c, hc, revents, rfl⟩ := hold hx
    obtain ⟨hnew, hunknown, hadded, hdeleted⟩ := h.book.bookkept fd c hc
    exact ⟨hnew, hunknown, hadded, hdeleted⟩
  · obtain ⟨c, hc, revents, rfl⟩ := hold hx
    exact h.book.removed fd c hc hadded
  · exact h.book.unknown fd (Option.map_eq_none_iff.mp hnone)
  · obtain ⟨c, hc, revents, rfl⟩ := hold hx
    exact h.addresses fd c hc
  · obtain ⟨c₁, hc₁, revents₁, rfl⟩ := hold hx₁
    obtain ⟨c₂, hc₂, revents₂, rfl⟩ := hold hx₂
    exact h.distinct fd₁ c₁ hc₁ fd₂ c₂ hc₂ heq
  · obtain ⟨c, hc, revents, rfl⟩ := hold hx
    exact h.ptr fd c hc hsome

/-- What `poll` does, when `epoll_wait` has not failed. -/
lemma pollEvents_eq (s : PollingLoop) (events : List EpollEvent) (hsize : 0 < s.eventsSize) :
    s.pollEvents (some events) = { s with
      loop := { s.loop with channels := fun fd => (s.loop.channels fd).map (reportTo events) }
      eventsSize := if events.length = s.eventsSize then s.eventsSize * 2 else s.eventsSize
      activeChannels := s.activeChannels ++ events.map EpollEvent.ptr } := by
  cases events with
  | nil =>
    rw [if_neg (by rw [List.length_nil]; omega), ← fillActiveChannels_eq]
    rfl
  | cons e events =>
    simp only [pollEvents, fillActiveChannels_eq]
    split <;> rfl

/-- What is monitored is a channel that the poller has added, and its pointer is in the kernel. -/
lemma PtrInv.exists_channel (h : PtrInv s) {fd : ℕ} (hsome : (s.loop.poller.interest fd).isSome) :
    ∃ c ∈ s.loop.channels fd, s.ptr fd = some c.address ∧ c.index = .kAdded := by
  cases hc : s.loop.channels fd with
  | none =>
    rw [(h.book.unknown fd hc).2] at hsome
    cases hsome
  | some c =>
    refine ⟨c, rfl, h.ptr fd c hc hsome, ?_⟩
    have hkept := h.book.bookkept fd c hc
    rw [← h.book.fd fd c hc] at hsome
    cases hindex : c.index with
    | kNew =>
      rw [(hkept.unknown hindex).2] at hsome
      cases hsome
    | kAdded => rfl
    | kDeleted =>
      rw [(hkept.kDeleted.mp hindex).2] at hsome
      cases hsome

/-- `hasChannel` answers for the channels that have been added and not removed. -/
lemma PtrInv.hasChannel_iff (h : PtrInv s) {fd : ℕ} {c : Channel} (hc : c ∈ s.loop.channels fd) :
    s.loop.poller.hasChannel c = true ↔ c.index ≠ .kNew := by
  rw [ne_eq, (h.book.bookkept fd c hc).kNew, not_not, EPollPoller.hasChannel]
  cases hchannels : s.loop.poller.channels c.fd with
  | none => simp
  | some a => simp

section Report

variable {l : List (ℕ × Events)}

/-- Every descriptor reported gives one entry. -/
lemma PtrInv.written_cons (h : PtrInv s) {r : ℕ × Events}
    (hr : (s.loop.poller.interest r.1).isSome) :
    ∃ c ∈ s.loop.channels r.1, s.written (r :: l) = ⟨r.2, c.address⟩ :: s.written l := by
  obtain ⟨c, hc, hptr, -⟩ := h.exists_channel hr
  refine ⟨c, hc, ?_⟩
  simp only [written, List.filterMap_cons, hptr, Option.map_some]

/-- Every reported descriptor has one entry in the active list. -/
lemma PtrInv.length_written (h : PtrInv s)
    (hl : ∀ r ∈ l, (s.loop.poller.interest r.1).isSome) : (s.written l).length = l.length := by
  induction l with
  | nil => rfl
  | cons r l ih =>
    obtain ⟨c, -, hwritten⟩ := h.written_cons (l := l) (hl r List.mem_cons_self)
    rw [hwritten, List.length_cons, List.length_cons,
      ih fun r hr => hl r (List.mem_cons_of_mem _ hr)]

/-- The pointers are those of the channels reported. -/
lemma PtrInv.ptr_written (h : PtrInv s) (hl : ∀ r ∈ l, (s.loop.poller.interest r.1).isSome) :
    ((s.written l).map EpollEvent.ptr).map some =
      l.map fun r => (s.loop.channels r.1).map Channel.address := by
  induction l with
  | nil => rfl
  | cons r l ih =>
    obtain ⟨c, hc, hwritten⟩ := h.written_cons (l := l) (hl r List.mem_cons_self)
    rw [hwritten, List.map_cons, List.map_cons, List.map_cons,
      ih fun r hr => hl r (List.mem_cons_of_mem _ hr), Option.mem_def.mp hc]
    rfl

/-- No pointer comes twice. -/
lemma PtrInv.nodup_written (h : PtrInv s) (hl : ∀ r ∈ l, (s.loop.poller.interest r.1).isSome)
    (hnodup : (l.map Prod.fst).Nodup) : ((s.written l).map EpollEvent.ptr).Nodup := by
  induction l with
  | nil => exact List.nodup_nil
  | cons r l ih =>
    obtain ⟨hfresh, hnodup⟩ := List.nodup_cons.mp hnodup
    have hrest : ∀ r ∈ l, (s.loop.poller.interest r.1).isSome :=
      fun r hr => hl r (List.mem_cons_of_mem _ hr)
    obtain ⟨c, hc, hwritten⟩ := h.written_cons (l := l) (hl r List.mem_cons_self)
    rw [hwritten, List.map_cons]
    refine List.nodup_cons.mpr ⟨fun hmem => ?_, ih hrest hnodup⟩
    -- the same pointer again would be the same channel, with the same descriptor
    have hsome := List.mem_map_of_mem (f := some) hmem
    rw [h.ptr_written hrest] at hsome
    obtain ⟨r', hr', haddress⟩ := List.mem_map.mp hsome
    obtain ⟨c', hc', haddress⟩ := Option.map_eq_some_iff.mp haddress
    have hfd := h.distinct r'.1 c' hc' r.1 c hc haddress
    exact hfresh (hfd ▸ List.mem_map_of_mem hr')

/-- A channel gets the events of its own descriptor. -/
lemma PtrInv.reportTo_written (h : PtrInv s) {fd : ℕ} {c₀ c : Channel}
    (hc₀ : c₀ ∈ s.loop.channels fd) (haddress : c.address = c₀.address)
    (hl : ∀ r ∈ l, (s.loop.poller.interest r.1).isSome) (hnodup : (l.map Prod.fst).Nodup) :
    reportTo (s.written l) c = { c with revents := (l.lookup fd).getD c.revents } := by
  induction l generalizing c with
  | nil => rfl
  | cons r l ih =>
    obtain ⟨hfresh, hnodup⟩ := List.nodup_cons.mp hnodup
    have hrest : ∀ r ∈ l, (s.loop.poller.interest r.1).isSome :=
      fun r hr => hl r (List.mem_cons_of_mem _ hr)
    obtain ⟨c₁, hc₁, hwritten⟩ := h.written_cons (l := l) (hl r List.mem_cons_self)
    rw [hwritten, reportTo, List.foldl_cons, List.lookup_cons]
    by_cases hfd : fd = r.1
    · subst hfd
      obtain rfl : c₀ = c₁ := Option.some.inj (hc₀.symm.trans hc₁)
      have hnone : l.lookup r.1 = none := by
        refine List.lookup_eq_none_iff.mpr fun r' hr' => ?_
        have hne : r.1 ≠ r'.1 := fun heq => hfresh (heq ▸ List.mem_map_of_mem hr')
        simpa using hne
      rw [if_pos haddress, beq_self_eq_true]
      refine (ih (c := { c with revents := r.2 }) haddress hrest hnodup).trans ?_
      rw [hnone]
      rfl
    · have hne : ¬ c.address = c₁.address :=
        fun heq => hfd (h.distinct fd c₀ hc₀ r.1 c₁ hc₁ (haddress.symm.trans heq))
      rw [if_neg hne, beq_false_of_ne hfd]
      exact ih haddress hrest hnodup

end Report

/-! ### Whole runs -/

/-- The pointers, and the size of `events_`. -/
structure PollInv (s : PollingLoop) : Prop where
  ptr : PtrInv s
  size : kInitEventListSize ≤ s.eventsSize

/-- The invariant holds of a new poller. -/
lemma PollInv.new : PollInv new := ⟨.new, le_refl _⟩

/-- `events_` is not empty. -/
lemma PollInv.size_pos (h : PollInv s) : 0 < s.eventsSize := Nat.lt_of_lt_of_le (by decide) h.size

/-- `poll`, when `epoll_wait` has reported the descriptors of `l`. -/
lemma PollInv.poll_eq (h : PollInv s) {ready : Finset ℕ} {l : List (ℕ × Events)}
    (hwait : s.EpollWait ready l) :
    s.step (.poll ready (some l)) = some ({ s with
      loop := { s.loop with
        channels := fun fd => (s.loop.channels fd).map (reportTo (s.written l)) }
      eventsSize := if l.length = s.eventsSize then s.eventsSize * 2 else s.eventsSize
      activeChannels := (s.written l).map EpollEvent.ptr }, [.poll ready (some l)]) := by
  have hl : ∀ r ∈ l, (s.loop.poller.interest r.1).isSome :=
    fun r hr => hwait.monitored r.1 (hwait.reported r hr)
  have hpoll := pollEvents_eq { s with activeChannels := [] } (s.written l) h.size_pos
  rw [h.ptr.length_written hl] at hpoll
  exact congrArg (fun s' => some (s', [PollAct.poll ready (some l)])) hpoll

/-- Every step keeps the invariant. -/
theorem PollInv.step {act : PollAct} {out : List PollAct} (h : PollInv s) (hpre : s.pre act)
    (hstep : s.step act = some (s', out)) : PollInv s' := by
  cases act with
  | channel act =>
    obtain ⟨r, hr, heq⟩ := Option.map_eq_some_iff.mp hstep
    cases heq
    exact ⟨h.ptr.channel hpre hr, h.size⟩
  | poll ready res =>
    cases res with
    | none =>
      cases hstep
      exact ⟨⟨h.ptr.book, h.ptr.addresses, h.ptr.distinct, h.ptr.ptr, h.ptr.nodup⟩, h.size⟩
    | some l =>
      rw [h.poll_eq hpre] at hstep
      cases hstep
      refine ⟨h.ptr.report _ _ _, h.size.trans ?_⟩
      dsimp only
      split
      · omega
      · exact le_refl _

/-- It holds in every state that is reached. -/
lemma pollInv_of_run {t : List PollAct} (h : machine.Run new t s) : PollInv s :=
  h.stateInvariant PollInv .new fun _ _ _ _ hinv hpre hstep => hinv.step hpre hstep

/-- What `poll` hands over to the loop.  In every reachable state and for every report of
`epoll_wait`: `activeChannels` are the channels of the descriptors reported, in this order and each
once, all of them alive, added and known to `hasChannel`; each has got its own events into
`revents_`, and no other channel has been written to. -/
theorem poll_batch_exact {t : List PollAct} (h : machine.Run new t s) {ready : Finset ℕ}
    {l : List (ℕ × Events)} (hwait : s.EpollWait ready l) :
    ∃ s', s.step (.poll ready (some l)) = some (s', [.poll ready (some l)]) ∧
      s'.activeChannels.map some = l.map (fun r => (s.loop.channels r.1).map Channel.address) ∧
      s'.activeChannels.Nodup ∧
      (∀ fd, s'.loop.channels fd = (s.loop.channels fd).map fun c =>
        { c with revents := (l.lookup fd).getD c.revents }) ∧
      s'.loop.poller = s.loop.poller ∧
      ∀ a ∈ s'.activeChannels, ∃ fd, ∃ c ∈ s'.loop.channels fd, c.address = a ∧
        c.index = .kAdded ∧ s'.loop.poller.hasChannel c = true := by
  have hinv := pollInv_of_run h
  have hl : ∀ r ∈ l, (s.loop.poller.interest r.1).isSome :=
    fun r hr => hwait.monitored r.1 (hwait.reported r hr)
  have hptr := hinv.ptr.ptr_written hl
  refine ⟨_, hinv.poll_eq hwait, hptr, hinv.ptr.nodup_written hl hwait.nodup, fun fd => ?_, rfl,
    fun a ha => ?_⟩
  · cases hc : s.loop.channels fd with
    | none => simp only [hc, Option.map_none]
    | some c =>
      simp only [hc, Option.map_some]
      rw [hinv.ptr.reportTo_written hc rfl hl hwait.nodup]
  · have hsome := List.mem_map_of_mem (f := some) ha
    rw [hptr] at hsome
    obtain ⟨r, hr, haddress⟩ := List.mem_map.mp hsome
    obtain ⟨c, hc, hadded⟩ := hinv.ptr.exists_channel (hl r hr)
    rw [Option.mem_def.mp hc, Option.map_some, Option.some.injEq] at haddress
    obtain ⟨revents, hrevents⟩ := reportTo_eq (s.written l) c
    have hmem : { c with revents := revents } ∈
        (s.loop.channels r.1).map (reportTo (s.written l)) := by
      rw [Option.mem_def.mp hc, Option.map_some, hrevents]
      rfl
    refine ⟨r.1, _, hmem, haddress, hadded.2, ?_⟩
    exact (hinv.ptr.hasChannel_iff hc).mpr (by rw [hadded.2]; simp)

/-- Of three channels one has been removed and its memory used again; the other two have events. -/
theorem poll_batch_exact_reused :
    ∃ t s, machine.Run new t s ∧ ∃ s', s.step (.poll {5, 6} (some [(6, {.EPOLLIN}),
        (5, {.EPOLLOUT, .EPOLLHUP})])) = some (s', [.poll {5, 6} (some [(6, {.EPOLLIN}),
          (5, {.EPOLLOUT, .EPOLLHUP})])]) ∧
      s'.activeChannels.map some = [some 2, some 1] := by
  obtain ⟨t, s, hrun, hwait, hsix, hfive⟩ := machine.exists_run_of_exec new
    [.channel (.construct 4 1), .channel (.update 4 .enableReading),
      .channel (.construct 6 2), .channel (.update 6 .enableReading),
      .channel (.update 4 .disableAll), .channel (.remove 4 ⟨false, none, []⟩),
      .channel (.destruct 4), .channel (.construct 5 1), .channel (.update 5 .enableWriting)]
    (fun s _ => s.EpollWait {5, 6} [(6, {.EPOLLIN}), (5, {.EPOLLOUT, .EPOLLHUP})] ∧
      (s.loop.channels 6).map Channel.address = some 2 ∧
      (s.loop.channels 5).map Channel.address = some 1) (by decide +kernel)
  obtain ⟨s', hstep, hactive, -⟩ := poll_batch_exact hrun hwait
  refine ⟨t, s, hrun, s', hstep, hactive.trans ?_⟩
  rw [List.map_cons, List.map_cons, List.map_nil, hsix, hfive]

/-! ### Nobody is passed over for long -/

/-- A `poll` that leaves the descriptor out of its report, although it is ready. -/
def PollAct.LeavesOut (fd : ℕ) : PollAct → Prop
  | .poll ready (some l) => fd ∈ ready ∧ fd ∉ l.map Prod.fst
  | _ => False

instance (fd : ℕ) : DecidablePred (PollAct.LeavesOut fd) := fun act =>
  match act with
  | .channel _ => inferInstanceAs (Decidable False)
  | .poll _ none => inferInstanceAs (Decidable False)
  | .poll ready (some l) => inferInstanceAs (Decidable (fd ∈ ready ∧ fd ∉ l.map Prod.fst))

/-- When the descriptor is left out, at most `16 * 2 ^ m` descriptors are ready. -/
def ReadyAtMost (fd m : ℕ) (_ : PollingLoop) : PollAct → Prop
  | .poll ready (some l) =>
    fd ∈ ready → fd ∉ l.map Prod.fst → ready.card ≤ kInitEventListSize * 2 ^ m
  | _ => True

instance (fd m : ℕ) (s : PollingLoop) (act : PollAct) : Decidable (ReadyAtMost fd m s act) :=
  match act with
  | .channel _ => inferInstanceAs (Decidable True)
  | .poll _ none => inferInstanceAs (Decidable True)
  | .poll ready (some l) => inferInstanceAs (Decidable
      (fd ∈ ready → fd ∉ l.map Prod.fst → ready.card ≤ kInitEventListSize * 2 ^ m))

/-- The descriptors of a report are as many as its entries, and all of them ready. -/
lemma EpollWait.card_reported {ready : Finset ℕ} {l : List (ℕ × Events)}
    (h : s.EpollWait ready l) :
    (l.map Prod.fst).toFinset.card = l.length ∧ (l.map Prod.fst).toFinset ⊆ ready := by
  refine ⟨(List.toFinset_card_of_nodup h.nodup).trans (List.length_map _), fun fd hfd => ?_⟩
  obtain ⟨r, hr, rfl⟩ := List.mem_map.mp (List.mem_toFinset.mp hfd)
  exact h.reported r hr

/-- Who leaves a ready descriptor out has filled the vector, and there are more of them. -/
lemma EpollWait.length_of_leavesOut {ready : Finset ℕ} {l : List (ℕ × Events)} {fd : ℕ}
    (h : s.EpollWait ready l) (hready : fd ∈ ready) (hout : fd ∉ l.map Prod.fst) :
    l.length = s.eventsSize ∧ l.length < ready.card := by
  obtain ⟨hcard, hsubset⟩ := h.card_reported
  refine ⟨?_, ?_⟩
  · by_contra hne
    exact hout (h.complete (Nat.lt_of_le_of_ne h.fits hne) fd hready)
  · rw [← hcard]
    exact Finset.card_lt_card ((Finset.ssubset_iff_of_subset hsubset).mpr
      ⟨fd, hready, fun hmem => hout (List.mem_toFinset.mp hmem)⟩)

/-- Only a full report makes the vector larger. -/
lemma PollInv.size_step {act : PollAct} {out : List PollAct} (h : PollInv s) (hpre : s.pre act)
    (hstep : s.step act = some (s', out)) :
    (∃ ready l, act = .poll ready (some l) ∧ s.EpollWait ready l ∧
        s'.eventsSize = if l.length = s.eventsSize then s.eventsSize * 2 else s.eventsSize) ∨
      (∀ fd, ¬ PollAct.LeavesOut fd act) ∧ s'.eventsSize = s.eventsSize := by
  cases act with
  | channel act =>
    obtain ⟨r, hr, heq⟩ := Option.map_eq_some_iff.mp hstep
    cases heq
    exact Or.inr ⟨fun _ h => h, rfl⟩
  | poll ready res =>
    cases res with
    | none =>
      cases hstep
      exact Or.inr ⟨fun _ h => h, rfl⟩
    | some l =>
      rw [h.poll_eq hpre] at hstep
      cases hstep
      exact Or.inl ⟨ready, l, rfl, hpre, rfl⟩

/-- The vector doubles with every `poll` that leaves the descriptor out, and it never shrinks; while
it has room for `16 * 2 ^ m` entries the descriptor is not left out. -/
lemma leavesOut_run {t t' : List PollAct} {fd m : ℕ} {p : PollingLoop × ℕ}
    (h : machine.Run new t s)
    (h' : ((machine.restrict (ReadyAtMost fd m)).counting (PollAct.LeavesOut fd)).Run (s, 0) t' p) :
    kInitEventListSize * 2 ^ p.2 ≤ p.1.eventsSize ∧ p.2 ≤ m := by
  refine h'.reachedInvariant (fun _ p => kInitEventListSize * 2 ^ p.2 ≤ p.1.eventsSize ∧ p.2 ≤ m)
    ⟨(pollInv_of_run h).size, Nat.zero_le m⟩ ?_
  rintro t₁ p act p' out hrun ⟨hlow, hle⟩ ⟨hpre, hready⟩ hstep
  obtain ⟨hs, hcount⟩ := Machine.withHistory_step hstep
  have hinv := pollInv_of_run (h.append hrun.forget.of_restrict)
  rcases hinv.size_step hpre hs with ⟨ready, l, rfl, hwait, hsize⟩ | ⟨hother, hsize⟩
  · by_cases hleaves : PollAct.LeavesOut fd (.poll ready (some l))
    · obtain ⟨hfull, hlt⟩ := hwait.length_of_leavesOut hleaves.1 hleaves.2
      have hcard := hready hleaves.1 hleaves.2
      have hpow : kInitEventListSize * 2 ^ p.2 < kInitEventListSize * 2 ^ m := by omega
      have hless : p.2 < m :=
        (Nat.pow_lt_pow_iff_right (by decide)).mp (lt_of_mul_lt_mul_left hpow (Nat.zero_le _))
      have hleft : p'.2 = p.2 + 1 := hcount.trans (if_pos hleaves)
      rw [hsize, if_pos hfull, hleft, pow_succ, ← Nat.mul_assoc]
      exact ⟨Nat.mul_le_mul_right 2 hlow, hless⟩
    · have hsame : p'.2 = p.2 := hcount.trans (if_neg hleaves)
      have hgrows : p.1.eventsSize ≤ p'.1.eventsSize := by
        rw [hsize]
        split <;> omega
      rw [hsame]
      exact ⟨hlow.trans hgrows, hle⟩
  · have hsame : p'.2 = p.2 := hcount.trans (if_neg (hother fd))
    rw [hsize, hsame]
    exact ⟨hlow, hle⟩

/-- The trace holds the steps themselves. -/
lemma step_out {act : PollAct} {out : List PollAct} (hstep : s.step act = some (s', out)) :
    out = [act] := by
  cases act with
  | channel act =>
    obtain ⟨r, -, heq⟩ := Option.map_eq_some_iff.mp hstep
    cases heq
    rfl
  | poll ready res =>
    cases hstep
    rfl

/-- The vector is not larger than it has to be. -/
lemma eventsSize_le {t : List PollAct} {r : ℕ} (h : machine.Run new t s) :
    (∀ ready res, .poll ready res ∈ t → ready.card ≤ r) →
      s.eventsSize ≤ max kInitEventListSize (2 * r) := by
  refine h.reachedInvariant (fun t s => (∀ ready res, .poll ready res ∈ t → ready.card ≤ r) →
    s.eventsSize ≤ max kInitEventListSize (2 * r)) (fun _ => le_max_left _ _) ?_
  intro t s act s' out hrun hle hpre hstep hready
  have hold := hle fun ready res hmem => hready ready res (List.mem_append_left _ hmem)
  rcases (pollInv_of_run hrun).size_step hpre hstep with ⟨ready, l, rfl, hwait, hsize⟩ | ⟨-, hsize⟩
  · have hout : out = [.poll ready (some l)] :=
      step_out (show s.step (.poll ready (some l)) = some (s', out) from hstep)
    have hcard := hready ready (some l) (by rw [hout]; simp)
    rw [hsize]
    split
    · next hfull =>
      refine le_max_of_le_right ?_
      obtain ⟨hlen, hsubset⟩ := hwait.card_reported
      have hle := Finset.card_le_card hsubset
      omega
    · exact hold
  · exact hsize.trans_le hold

/-- How often a channel has to wait, and how much memory the poller takes.  From every reachable
state on, a descriptor is left out of at most `m` reports in all although it was ready, if each time
it was one of at most `16 * 2 ^ m`, whichever ones `epoll_wait` prefers and whatever happens to the
channels between the polls; and `events_` never has more entries than 16, or twice the number of
descriptors that were ready at one time. -/
theorem passed_over_at_most {t t' : List PollAct} {fd m r n : ℕ} (h : machine.Run new t s)
    (h' : ((machine.restrict (ReadyAtMost fd m)).counting (PollAct.LeavesOut fd)).Run (s, 0) t'
      (s', n)) :
    n ≤ m ∧ ((∀ ready res, .poll ready res ∈ t → ready.card ≤ r) →
      s.eventsSize ≤ max kInitEventListSize (2 * r)) :=
  ⟨(leavesOut_run h h').2, eventsSize_le h⟩

/-- Seventeen channels, all monitored. -/
def seventeenChannels : List PollAct :=
  (List.range 17).flatMap fun fd =>
    [.channel (.construct fd fd), .channel (.update fd .enableReading)]

/-- All of them are ready twice: the first report has room for all but the last one, the second has
room for all.  Then the last one is not ready any more. -/
def threePolls : List PollAct :=
  [.poll (Finset.range 17) (some ((List.range 16).map fun fd => (fd, {.EPOLLIN}))),
    .poll (Finset.range 17) (some ((List.range 17).map fun fd => (fd, {.EPOLLIN}))),
    .poll (Finset.range 16) (some ((List.range 16).map fun fd => (fd, {.EPOLLIN})))]

/-- With 17 descriptors ready one is left out once, and then the vector has room for all of them. -/
theorem passed_over_at_most_once :
    ∃ (t t' : List PollAct) (s s' : PollingLoop) (n : ℕ), machine.Run new t s ∧
      ((machine.restrict (ReadyAtMost 16 1)).counting (PollAct.LeavesOut 16)).Run (s, 0) t'
        (s', n) ∧ s'.eventsSize = 32 ∧ n = 1 ∧ n ≤ 1 := by
  obtain ⟨t, s, hrun, hnext⟩ := machine.exists_run_of_exec new seventeenChannels
    (fun s _ => ((machine.restrict (ReadyAtMost 16 1)).counting (PollAct.LeavesOut 16)).Reaches
      (s, 0) threePolls fun p _ => p.1.eventsSize = 32 ∧ p.2 = 1)
    (by decide +kernel)
  obtain ⟨t', ⟨s', n⟩, hpolls, hsize, hn⟩ := hnext.exists_run
  exact ⟨t, t', s, s', n, hrun, hpolls, hsize, hn, (passed_over_at_most (r := 0) hrun hpolls).1⟩

end PollingLoop

end MuduoServer
