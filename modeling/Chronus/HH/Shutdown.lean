import Chronus.HH.Processor

/-!
# Closing a node processor

`Close` takes `n.mu` in write mode, closes `done`, and waits in `wg.Wait` for the goroutine of
`run` while it still holds the lock. That goroutine takes `n.mu` in read mode in `SendWrite`.
Once the send timer has fired and the goroutine is past the select and the concurrency gate,
the read lock is its only way on. If `Close` takes the write lock in that window, each waits
for the other: the state is reachable, and no step from it lets `Close` return
(`close_deadlock`).

Go's `sync.RWMutex` gives a waiting writer priority: once `Lock` has announced itself, a new
`RLock` blocks until the writer has had the lock and released it. The model keeps that rule
(`loopRLock` and `writeShardLock` wait while `Close` is `locking`). The purge timer's case of
the select takes no lock and moves nothing here, so it is left out.
-/

namespace Chronus.HH

/-- Where `Close` is: not called, waiting for `n.mu.Lock`, holding the lock in `wg.Wait`, or
returned. -/
inductive CloserPc
  | idle
  | locking
  | waiting
  | returned
deriving DecidableEq, Repr

/-- Where the goroutine of `run` is: in the select, in `sendingLoop`'s concurrency check,
waiting for `n.mu.RLock` in `SendWrite`, in `SendWrite` under the read lock, in the deferred
rate-limiter wait, or returned. -/
inductive LoopPc
  | selecting
  | gating
  | rlocking
  | sending
  | limiting
  | exited
deriving DecidableEq, Repr

/-- The lock `n.mu` (held in write mode, and the count of read holders), the `WriteShard`
calls holding it, whether `done` is closed, the count of `wg`, and the two goroutines. -/
structure ShutdownState where
  closer : CloserPc
  loop : LoopPc
  writeLocked : Bool
  readers : Nat
  writeShards : Nat
  doneClosed : Bool
  waitGroup : Nat
deriving DecidableEq, Repr

/-- An open processor: `Open` has returned after `wg.Add(1)` and `go n.run()`. -/
def ShutdownState.opened : ShutdownState := ⟨.idle, .selecting, false, 0, 0, false, 1⟩

/-- One step of `Close`, of the goroutine of `run`, or of a `WriteShard` call.
* `closeCall`: `Close` asks for the write lock.
* `closeLock`: it gets the lock when no one holds `n.mu`; `done` is non-nil, so it closes it.
* `closeReturn`: `wg.Wait` returns; `Close` clears `done`, closes the queue and unlocks.
* `loopExit`: the select takes the closed `done`; `run` returns through `wg.Done`.
* `loopSend`: the select takes the fired send timer, also when `done` is closed.
* `gateSkip`: the concurrency gate times out and `sendingLoop` returns.
* `gatePass`: the gate is off or lets the processor through.
* `loopRLock`: `SendWrite` gets the read lock when no writer holds it or waits for it.
* `loopRUnlock`: `SendWrite` returns and releases it.
* `loopLimited`: the deferred rate-limiter wait returns, and so does `sendingLoop`.
* `writeShardLock`, `writeShardUnlock`: a `WriteShard` call takes and releases the read
  lock. -/
inductive ShutdownStep : ShutdownState → ShutdownState → Prop
  | closeCall (s : ShutdownState) (idle : s.closer = .idle) :
    ShutdownStep s { s with closer := .locking }
  | closeLock (s : ShutdownState) (locking : s.closer = .locking) (free : s.writeLocked = false)
    (unread : s.readers = 0) :
    ShutdownStep s { s with closer := .waiting, writeLocked := true, doneClosed := true }
  | closeReturn (s : ShutdownState) (waiting : s.closer = .waiting) (finished : s.waitGroup = 0) :
    ShutdownStep s { s with closer := .returned, writeLocked := false }
  | loopExit (s : ShutdownState) (selecting : s.loop = .selecting) (closed : s.doneClosed = true) :
    ShutdownStep s { s with loop := .exited, waitGroup := s.waitGroup - 1 }
  | loopSend (s : ShutdownState) (selecting : s.loop = .selecting) :
    ShutdownStep s { s with loop := .gating }
  | gateSkip (s : ShutdownState) (gating : s.loop = .gating) :
    ShutdownStep s { s with loop := .selecting }
  | gatePass (s : ShutdownState) (gating : s.loop = .gating) :
    ShutdownStep s { s with loop := .rlocking }
  | loopRLock (s : ShutdownState) (rlocking : s.loop = .rlocking) (free : s.writeLocked = false)
    (unannounced : s.closer ≠ .locking) :
    ShutdownStep s { s with loop := .sending, readers := s.readers + 1 }
  | loopRUnlock (s : ShutdownState) (sending : s.loop = .sending) :
    ShutdownStep s { s with loop := .limiting, readers := s.readers - 1 }
  | loopLimited (s : ShutdownState) (limiting : s.loop = .limiting) :
    ShutdownStep s { s with loop := .selecting }
  | writeShardLock (s : ShutdownState) (free : s.writeLocked = false)
    (unannounced : s.closer ≠ .locking) :
    ShutdownStep s { s with readers := s.readers + 1, writeShards := s.writeShards + 1 }
  | writeShardUnlock (s : ShutdownState) (inside : 0 < s.writeShards) :
    ShutdownStep s { s with readers := s.readers - 1, writeShards := s.writeShards - 1 }

/-- The states reachable from an open processor. -/
def ShutdownReachable (s : ShutdownState) : Prop :=
  Relation.ReflTransGen ShutdownStep .opened s

/-! ## The lock invariant -/

/-- The read holders are the `WriteShard` calls and `SendWrite`; the write lock is held exactly
while `Close` waits; `done` is closed once `Close` has the lock; `wg` counts the loop. -/
structure ShutdownInv (s : ShutdownState) : Prop where
  readers_eq : s.readers = s.writeShards + if s.loop = .sending then 1 else 0
  writeLocked_eq : s.writeLocked = decide (s.closer = .waiting)
  doneClosed_eq : s.doneClosed = decide (s.closer = .waiting ∨ s.closer = .returned)
  waitGroup_eq : s.waitGroup = if s.loop = .exited then 0 else 1
  returned_exited : s.closer = .returned → s.loop = .exited

theorem shutdownInv_opened : ShutdownInv .opened := ⟨rfl, rfl, rfl, rfl, nofun⟩

theorem ShutdownInv.step {s t : ShutdownState} (inv : ShutdownInv s) (step : ShutdownStep s t) :
    ShutdownInv t := by
  obtain ⟨closer, loop, writeLocked, readers, writeShards, doneClosed, waitGroup⟩ := s
  obtain ⟨readers_eq, locked, closed, group, returned⟩ := inv
  dsimp only at readers_eq locked closed group returned
  subst readers_eq locked closed group
  cases step <;> dsimp only at * <;> subst_vars <;> constructor <;> first | rfl | simp_all
  all_goals split <;> omega

theorem ShutdownReachable.inv {s : ShutdownState} (reach : ShutdownReachable s) :
    ShutdownInv s := by
  induction reach with
  | refl => exact shutdownInv_opened
  | tail _ step ih => exact ih.step step

/-- `Close` returns only after the loop has: in every reachable state where it has returned,
the goroutine of `run` has exited. -/
theorem close_returns_after_loop {s : ShutdownState} (reach : ShutdownReachable s)
    (returned : s.closer = .returned) : s.loop = .exited :=
  reach.inv.returned_exited returned

/-- `Close` is called, takes the lock and closes `done`; the loop takes `done` in its select and
exits, and `wg.Wait` returns. -/
theorem close_returns_after_loop_exit :
    let s : ShutdownState := ⟨.returned, .exited, false, 0, 0, true, 0⟩
    (ShutdownReachable s ∧ s.closer = .returned) ∧ s.loop = .exited := by
  intro s
  have reach : ShutdownReachable s :=
    .tail (.tail (.tail (.single (.closeCall _ rfl)) (.closeLock _ rfl rfl rfl))
      (.loopExit _ rfl rfl)) (.closeReturn _ rfl rfl)
  exact ⟨⟨reach, rfl⟩, close_returns_after_loop reach rfl⟩

/-! ## The deadlock -/

/-- No run from `s` lets `Close` return: it stays in `wg.Wait`. -/
def CloseNeverReturns (s : ShutdownState) : Prop :=
  ∀ t, Relation.ReflTransGen ShutdownStep s t → t.closer = .waiting

/-- `Close` holds the write lock in `wg.Wait` while the loop waits for the read lock. -/
def Deadlocked (s : ShutdownState) : Prop :=
  s.closer = .waiting ∧ s.writeLocked = true ∧ s.loop = .rlocking ∧ s.waitGroup = 1

/-- Only a `WriteShard` call leaving can move, and it keeps the deadlock. -/
theorem Deadlocked.step {s t : ShutdownState} (stuck : Deadlocked s) (step : ShutdownStep s t) :
    Deadlocked t := by
  obtain ⟨waiting, locked, rlocking, group⟩ := stuck
  cases step <;> simp_all [Deadlocked]

theorem Deadlocked.closeNeverReturns {s : ShutdownState} (stuck : Deadlocked s) :
    CloseNeverReturns s := by
  intro t run
  suffices Deadlocked t from this.1
  induction run with
  | refl => exact stuck
  | tail _ step ih => exact ih.step step

/-- The send timer fires and the gate lets the loop through; `Close` then takes the write lock
before `SendWrite` takes the read lock. `Close` holds the lock in `wg.Wait` while the loop
waits for the read lock, and from there it never returns. -/
theorem close_deadlock :
    let s : ShutdownState := ⟨.waiting, .rlocking, true, 0, 0, true, 1⟩
    ShutdownReachable s ∧ Deadlocked s ∧ CloseNeverReturns s := by
  have stuck : Deadlocked ⟨.waiting, .rlocking, true, 0, 0, true, 1⟩ := ⟨rfl, rfl, rfl, rfl⟩
  refine ⟨?_, stuck, stuck.closeNeverReturns⟩
  exact .tail (.tail (.tail (.single (.loopSend _ rfl)) (.gatePass _ rfl)) (.closeCall _ rfl))
    (.closeLock _ rfl rfl rfl)

end Chronus.HH
