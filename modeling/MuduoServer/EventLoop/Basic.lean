import MuduoServer.Lib.Machine

/-!
# The event loop and its task queue

The class `EventLoop` of `net/eventloop/EventLoop.cc`, seen by the threads that share it.  One
thread runs `loop()`; any number of other threads call `queueInLoop` and `quit` at any time, and
the loop thread calls `queueInLoop` itself from event callbacks and from running functors.

The steps are the accesses to shared state in the order of the source: the push under `mutex_`, the
write to the wakeup descriptor, its read in `handleRead`, the store to `callingPendingFunctors_`,
the swap under `mutex_`, each functor call, and the stores to and tests of `quit_`.  `Pc` is the
program point of the loop thread, `loopMachine` the interleaving of all threads.
-/

namespace MuduoServer

/-- A functor in the task queue, with the thread that posted it (`none` is the loop thread). -/
structure Functor (τ F : Type*) where
  poster : Option τ
  body : F
  deriving DecidableEq, Repr

/-- Where the loop thread stands in `EventLoop::loop` and `doPendingFunctors`. -/
inductive Pc where
  /-- `loop()` has not been called. -/
  | outside
  /-- Inside `loop()`, before the store `quit_ = false`. -/
  | entered
  /-- Before the test of the `while` condition. -/
  | test
  /-- About to block in `poller_->poll`. -/
  | poll
  /-- Traversing `activeChannels_`. -/
  | dispatch
  /-- In `doPendingFunctors`, before the store `callingPendingFunctors_ = true`. -/
  | setCalling
  /-- In `doPendingFunctors`, before the swap. -/
  | swap
  /-- Traversing the local vector `functors`. -/
  | running
  /-- `loop()` has returned. -/
  | returned
  deriving DecidableEq, Repr

/-- The state shared by the threads, the local state of the loop thread, and where each of the
other threads stands between its access to the loop and its `wakeup()`. -/
structure EventLoop (τ F : Type*) where
  pc : Pc
  looping : Bool
  quit : Bool
  eventHandling : Bool
  callingPendingFunctors : Bool
  pendingFunctors : List (Functor τ F)
  /-- The local `functors` of `doPendingFunctors`, less those already called. -/
  functors : List (Functor τ F)
  /-- A functor has been called in this traversal, so user code may be running. -/
  inFunctor : Bool
  /-- The counter of the eventfd `wakeupFd_`. -/
  wakeupFd : ℕ
  /-- The loop thread is in `queueInLoop` and still has to call `wakeup()`. -/
  selfWaking : Bool
  /-- Threads in `queueInLoop` that have pushed and still have to call `wakeup()`. -/
  pushing : List τ
  /-- Threads in `quit` that have stored `quit_` and still have to call `wakeup()`. -/
  quitting : List τ
  /-- Threads that have called `quit`. -/
  hasQuit : List τ

/-- The accesses of the threads. -/
inductive LoopAct (τ F : Type*) where
  | enter
  | clearQuit
  | test
  | poll
  | handleRead
  | endDispatch
  | setCalling
  | swap
  | call
  | endFunctors
  /-- `queueInLoop` on the loop thread, up to the push. -/
  | selfPush (f : F)
  /-- The `wakeup()` of `queueInLoop` on the loop thread. -/
  | selfWakeup
  /-- `quit()` on the loop thread. -/
  | selfQuit
  /-- `queueInLoop` on another thread, up to the push. -/
  | push (a : τ) (f : F)
  /-- The `wakeup()` of `queueInLoop` on another thread. -/
  | pushWakeup (a : τ)
  /-- `quit()` on another thread, up to the store to `quit_`. -/
  | quit (a : τ)
  /-- The `wakeup()` of `quit` on another thread. -/
  | quitWakeup (a : τ)
  deriving DecidableEq, Repr

/-- What an observer of the loop can see. -/
inductive LoopEvent (τ F : Type*) where
  | pushed (f : Functor τ F)
  | started (f : Functor τ F)
  | quitStored
  | tested (quit : Bool)
  deriving DecidableEq, Repr

namespace EventLoop

variable {τ F : Type*} [DecidableEq τ]

/-- The constructor. -/
def new : EventLoop τ F where
  pc := .outside
  looping := false
  quit := false
  eventHandling := false
  callingPendingFunctors := false
  pendingFunctors := []
  functors := []
  inFunctor := false
  wakeupFd := 0
  selfWaking := false
  pushing := []
  quitting := []
  hasQuit := []

/-- The loop thread is in user code: in an event callback or in a functor. -/
def inUserCode (s : EventLoop τ F) : Prop :=
  s.pc = .dispatch ∨ (s.pc = .running ∧ s.inFunctor = true)

instance (s : EventLoop τ F) : Decidable s.inUserCode := by
  unfold inUserCode
  infer_instance

/-- When an access can be the next one of its thread. -/
def pre (s : EventLoop τ F) : LoopAct τ F → Prop
  | .enter => s.pc = .outside
  | .clearQuit => s.pc = .entered
  | .test => s.pc = .test
  | .poll => s.pc = .poll
  | .handleRead => s.pc = .dispatch ∧ s.selfWaking = false
  | .endDispatch => s.pc = .dispatch ∧ s.selfWaking = false
  | .setCalling => s.pc = .setCalling
  | .swap => s.pc = .swap
  | .call => s.pc = .running ∧ s.selfWaking = false ∧ s.functors.isEmpty = false
  | .endFunctors => s.pc = .running ∧ s.selfWaking = false ∧ s.functors.isEmpty = true
  | .selfPush _ => s.inUserCode ∧ s.selfWaking = false
  | .selfWakeup => s.selfWaking = true
  | .selfQuit => s.inUserCode ∧ s.selfWaking = false
  | .push a _ => a ∉ s.pushing ∧ a ∉ s.quitting
  | .pushWakeup a => a ∈ s.pushing
  | .quit a => a ∉ s.pushing ∧ a ∉ s.quitting
  | .quitWakeup a => a ∈ s.quitting

instance (s : EventLoop τ F) (act : LoopAct τ F) : Decidable (s.pre act) := by
  unfold pre
  split <;> infer_instance

/-- The push of `queueInLoop`. -/
def pushBack (s : EventLoop τ F) (f : Functor τ F) : EventLoop τ F :=
  { s with pendingFunctors := s.pendingFunctors ++ [f] }

/-- `wakeup()`. -/
def wakeup (s : EventLoop τ F) : EventLoop τ F := { s with wakeupFd := s.wakeupFd + 1 }

/-- The effect of an access. -/
def step (s : EventLoop τ F) : LoopAct τ F → Option (EventLoop τ F × List (LoopEvent τ F))
  | .enter => if s.looping then none else some ({ s with looping := true, pc := .entered }, [])
  | .clearQuit => some ({ s with quit := false, pc := .test }, [])
  | .test =>
    if s.quit then some ({ s with looping := false, pc := .returned }, [.tested true])
    else some ({ s with pc := .poll }, [.tested false])
  | .poll => some ({ s with eventHandling := true, pc := .dispatch }, [])
  | .handleRead => some ({ s with wakeupFd := 0 }, [])
  | .endDispatch => some ({ s with eventHandling := false, pc := .setCalling }, [])
  | .setCalling => some ({ s with callingPendingFunctors := true, pc := .swap }, [])
  | .swap =>
    some ({ s with
      functors := s.pendingFunctors
      pendingFunctors := []
      inFunctor := false
      pc := .running }, [])
  | .call =>
    match s.functors with
    | [] => some (s, [])
    | f :: rest => some ({ s with functors := rest, inFunctor := true }, [.started f])
  | .endFunctors =>
    some ({ s with callingPendingFunctors := false, inFunctor := false, pc := .test }, [])
  -- on the loop thread `wakeup()` follows only while pending functors are being called
  | .selfPush f =>
    some ({ s.pushBack ⟨none, f⟩ with selfWaking := s.callingPendingFunctors },
      [.pushed ⟨none, f⟩])
  | .selfWakeup => some ({ s.wakeup with selfWaking := false }, [])
  | .selfQuit => some ({ s with quit := true }, [.quitStored])
  | .push a f =>
    some ({ s.pushBack ⟨some a, f⟩ with pushing := a :: s.pushing }, [.pushed ⟨some a, f⟩])
  | .pushWakeup a => some ({ s.wakeup with pushing := s.pushing.erase a }, [])
  | .quit a =>
    some ({ s with quit := true, quitting := a :: s.quitting, hasQuit := a :: s.hasQuit },
      [.quitStored])
  | .quitWakeup a => some ({ s.wakeup with quitting := s.quitting.erase a }, [])

end EventLoop

/-- All interleavings of the loop thread with the other threads. -/
def loopMachine (τ F : Type*) [DecidableEq τ] :
    Machine (EventLoop τ F) (LoopAct τ F) (LoopEvent τ F) where
  pre s act := s.pre act
  step s act := s.step act

instance {τ F : Type*} [DecidableEq τ] (s : EventLoop τ F) (act : LoopAct τ F) :
    Decidable ((loopMachine τ F).pre s act) :=
  inferInstanceAs (Decidable (s.pre act))

/-- The loop thread is not inside `loop()` and has left nothing behind: what `loop()` may be
entered from, whatever the other threads are doing. -/
structure EventLoop.Idle {τ F : Type*} (s : EventLoop τ F) : Prop where
  pc : s.pc = .outside
  looping : s.looping = false
  calling : s.callingPendingFunctors = false
  pending : s.pendingFunctors = []
  functors : s.functors = []
  selfWaking : s.selfWaking = false

end MuduoServer
