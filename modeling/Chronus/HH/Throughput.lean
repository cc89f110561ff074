import Chronus.HH.Processor

/-!
# The rate limit of the send loop

When `RetryRateLimit` is `r > 0`, `sendingLoop` builds `rate.NewLimiter(rate.Limit(r), 10*r)`
on every call and, once `SendWrite` has returned, defers `WaitN(sent)` on it.
`golang.org/x/time/rate` is outside this repository; its limiter is modelled from the spec as a
token bucket of `r` tokens a second holding at most `10 r`, which a new limiter holds in full.
A full bucket pays for any `sent ≤ 10 r` at once, and `WaitN` fails at once for a larger
`sent`, so the deferred wait is always zero (`limiterWait_eq_zero`). A run of the send loop is
then the same whatever `RetryRateLimit` is (`sendRun_retryRateLimit`). A limiter kept across
passes would hold a window of `T` nanoseconds to `r T / 10^9 + 2 · 10 r` bytes for frames of at
most `10 r` bytes: the bucket at the window's start, the refill, and the last send, whose wait
falls after the window. With frames of `10 r` bytes and short intervals the send loop passes
that too (`sendRun_exceeds_rate_limit`).

`run` is modelled against a logical clock in nanoseconds: the send timer fires `waitTime` after
it was reset, the select may serve it later (a purge runs in the same goroutine), and
`sendingLoop` takes the time of the concurrency gate, of `SendWrite` and of the limiter's wait.
-/

namespace Chronus.HH

open Chronus.Meta (Duration)

/-! ## The limiter -/

/-- Modelled from the spec: a token bucket (`rate.Limiter`), `limit` tokens a second, at most
`burst` tokens, and the tokens it holds. -/
structure Limiter where
  limit : Nat
  burst : Nat
  tokens : Nat
deriving DecidableEq, Repr

/-- Modelled from the spec: `rate.NewLimiter(r, b)`, whose bucket starts full. -/
def newLimiter (r b : Nat) : Limiter := ⟨r, b, b⟩

/-- Modelled from the spec: `Limiter.WaitN(ctx, n)` at the moment of the call. More than the
burst fails at once (`none`); otherwise the `n` tokens are taken and the call waits, in
nanoseconds, for the missing ones to refill at `limit` a second. -/
def Limiter.waitN (l : Limiter) (n : Nat) : Option Nat × Limiter :=
  if l.burst < n then (none, l)
  else if n ≤ l.tokens then (some 0, { l with tokens := l.tokens - n })
  else (some (((n - l.tokens) * 1000000000 + l.limit - 1) / l.limit), { l with tokens := 0 })

/-- A full bucket never makes `WaitN` wait. -/
theorem Limiter.waitN_new (r b n : Nat) : ((newLimiter r b).waitN n).1 = none ∨
    ((newLimiter r b).waitN n).1 = some 0 := by
  unfold Limiter.waitN newLimiter
  split
  · exact .inl rfl
  · rename_i fits
    exact .inr (by simp [Nat.le_of_not_lt fits])

/-- How long `sendingLoop`'s deferred `bytesLimiter.WaitN(ctx, sent)` waits: nothing when the
limit is off or nothing was sent; a failed `WaitN` does not wait either. -/
def limiterWait (cfg : Config) (sent : Nat) : Nat :=
  if 0 < cfg.retryRateLimit ∧ 0 < sent then
    match ((newLimiter cfg.retryRateLimit.toNat (10 * cfg.retryRateLimit).toNat).waitN sent).1 with
    | some wait => wait
    | none => 0
  else 0

/-- The limiter `sendingLoop` builds is new on every call, so its wait is always zero. -/
theorem limiterWait_eq_zero (cfg : Config) (sent : Nat) : limiterWait cfg sent = 0 := by
  unfold limiterWait
  split
  · rcases Limiter.waitN_new cfg.retryRateLimit.toNat (10 * cfg.retryRateLimit).toNat sent
      with failed | paid
    · rw [failed]
    · rw [paid]
  · rfl

/-! ## Runs of the send loop -/

/-- What one pass of `run`'s send case meets: the gate's decision and how long it took, the
collaborators' answers to `SendWrite` and how long it took, and how long the fired send timer
waited for the select. -/
structure Pass (Point : Type) where
  admitted : Bool
  gateTime : Nat
  env : SendEnv Point
  sendTime : Nat
  selectDelay : Nat

section Run

variable {Point : Type} (parsePoints : List UInt8 → Except String (List Point))

/-- The passes of `run`'s send case after the send timer was set to `waitTime` at `now`: for
each pass, the time `sendingLoop` starts and the bytes it reports sent. The timer is reset to
the delay `sendingLoop` returns once it has returned. -/
def sendRun (cfg : Config) : Int → Duration → Queue → Statistics → List (Pass Point) →
    List (Int × Nat)
  | _, _, _, _, [] => []
  | now, waitTime, q, stats, p :: rest =>
    let start := now + max waitTime 0 + p.selectDelay
    let (next, sent, q', stats') := sendingLoop parsePoints cfg p.env p.admitted waitTime q stats
    let took := p.gateTime + if p.admitted then p.sendTime + limiterWait cfg sent else 0
    (start, sent) :: sendRun cfg (start + took) next q' stats' rest

/-- `sendingLoop` reads neither the rate limit nor the intervals it does not use. -/
theorem sendingLoop_retryRateLimit (cfg : Config) (r : Int) (env : SendEnv Point)
    (admitted : Bool) (curDelay : Duration) (q : Queue) (stats : Statistics) :
    sendingLoop parsePoints { cfg with retryRateLimit := r } env admitted curDelay q stats =
      sendingLoop parsePoints cfg env admitted curDelay q stats := by
  unfold sendingLoop nextDelay
  rfl

/-- Every run of the send loop is the same whatever `RetryRateLimit` is. -/
theorem sendRun_retryRateLimit (cfg : Config) (r : Int) (passes : List (Pass Point)) :
    ∀ now waitTime q stats,
      sendRun parsePoints { cfg with retryRateLimit := r } now waitTime q stats passes =
        sendRun parsePoints cfg now waitTime q stats passes := by
  induction passes with
  | nil => intros; rfl
  | cons p rest ih =>
    intro now waitTime q stats
    simp only [sendRun, sendingLoop_retryRateLimit, limiterWait_eq_zero, ih]

end Run

/-- The bytes reported sent by the passes that start in `[a, a + T)`. -/
def bytesIn (starts : List (Int × Nat)) (a T : Int) : Nat :=
  ((starts.filter fun p => a ≤ p.1 ∧ p.1 < a + T).map (·.2)).sum

/-- The default intervals (`RetryInterval` 1 s) with `RetryRateLimit = 1` byte a second: five
stored frames of 10 bytes (the burst), a live node and a writer that accepts everything. The
passes start at 1, 2, 3, 4 and 5 s, and the window `[1 s, 6 s)` holds 50 bytes, more than the
`1 · 5 + 2 · 10 · 1` bytes that a limiter kept across passes lets through when it waits after
each send. -/
theorem sendRun_exceeds_rate_limit :
    let cfg : Config := { (newNodeProcessor 2 "hh/2" 1024 3600).config with retryRateLimit := 1 }
    let frame : Frame := List.replicate 10 0
    let pass : Pass Unit := ⟨true, 0, ⟨some ⟨2, "", "", false⟩, none, fun _ _ _ => none⟩, 0, 0⟩
    let starts := sendRun (fun _ => .ok [()]) cfg 0 (initialWait cfg)
      ⟨List.replicate 5 frame, 0, true⟩ ⟨0, 0, 0, 0, 0⟩ (List.replicate 5 pass)
    starts = [(1000000000, 10), (2000000000, 10), (3000000000, 10), (4000000000, 10),
        (5000000000, 10)] ∧
      (bytesIn starts 1000000000 5000000000 : Int) * 1000000000 >
        1 * 5000000000 + 2 * (10 * 1) * 1000000000 := by
  decide

end Chronus.HH
