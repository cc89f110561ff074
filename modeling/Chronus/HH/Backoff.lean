import Chronus.HH.Processor

/-!
# The backoff of the send loop

`run` starts its send timer at `RetryInterval`, lowered to `RetryMaxInterval`, and resets it to
whatever `sendingLoop` returns given the wait before. `sendingLoop` returns `RetryInterval`
after a success, after `io.EOF` and when the concurrency gate turns it away; after any other
error it returns `2 * curDelay`, capped at `RetryMaxInterval` (`sendingLoop_delay`). So the wait
depends only on the sequence of what the passes met.

`curDelay` is a `time.Duration`, an `int64`, and the doubling wraps once the wait reaches `2^62`
nanoseconds: with both intervals at `2^62` the first error makes the wait `-2^63` and the
second makes it `0`, so the send timer fires at once (`sendingLoop_backoff_wraps`). While both intervals stay below
`2^62` no wait reaches `2^62`, so the doubling never wraps: every wait is positive and at most
the larger interval, and `j ≥ 1` errors in a row after the start or a reset give
`min (RetryInterval * 2^j) RetryMaxInterval` (`backoff_waits`).
-/

namespace Chronus.HH

open Chronus.Meta (Duration)

/-! ## One pass -/

/-- `toInt64` is the identity on the `int64` range. -/
theorem toInt64_of_lt {x : Int} (lo : -2 ^ 63 ≤ x) (hi : x < 2 ^ 63) : toInt64 x = x := by
  unfold toInt64
  rw [Int.emod_eq_of_lt (by omega) (by omega)]
  omega

/-- The delay a pass returns, given what it met: the gate turned it away (`none`), or
`SendWrite` returned `result`. -/
def loopDelay (cfg : Config) (curDelay : Duration) : Option (Except SendError Nat) → Duration
  | none => cfg.retryInterval
  | some result => nextDelay cfg curDelay result

/-- The pass backs off: `SendWrite` returned an error other than `io.EOF`. -/
def backsOff : Option (Except SendError Nat) → Bool
  | some (.error .eof) => false
  | some (.error _) => true
  | _ => false

section Pass

variable {Point : Type} (parsePoints : List UInt8 → Except String (List Point))

/-- The delay `sendingLoop` returns is `loopDelay` of what the pass met. -/
theorem sendingLoop_delay (cfg : Config) (env : SendEnv Point) (admitted : Bool)
    (curDelay : Duration) (q : Queue) (stats : Statistics) :
    (sendingLoop parsePoints cfg env admitted curDelay q stats).1 =
      loopDelay cfg curDelay
        (if admitted then some (sendWrite parsePoints env cfg.nodeID q stats).1 else none) := by
  cases admitted <;> rfl

end Pass

/-- A pass that does not back off returns `RetryInterval`. -/
theorem loopDelay_reset (cfg : Config) (curDelay : Duration) {o : Option (Except SendError Nat)}
    (reset : backsOff o = false) : loopDelay cfg curDelay o = cfg.retryInterval := by
  match o, reset with
  | none, _ => rfl
  | some (.ok _), _ => rfl
  | some (.error .eof), _ => rfl

/-- A pass that backs off from a wait whose double fits in `int64` returns the double, capped
at `RetryMaxInterval`. -/
theorem loopDelay_backOff (cfg : Config) {curDelay : Int} (nonneg : 0 ≤ curDelay)
    (fits : 2 * curDelay < 2 ^ 63) {o : Option (Except SendError Nat)} (back : backsOff o = true) :
    loopDelay cfg curDelay o = min (2 * curDelay) cfg.retryMaxInterval := by
  have doubled : toInt64 (2 * curDelay) = 2 * curDelay := toInt64_of_lt (by omega) fits
  match o, back with
  | some (.error (.meta _)), _ | some (.error (.other _)), _ =>
    simp only [loopDelay, nextDelay, doubled]
    unfold Duration
    split <;> omega

/-- With both intervals at `2^62`, a pass whose meta client fails doubles the first wait into
`-2^63`, and the next such pass doubles that into `0`. -/
theorem sendingLoop_backoff_wraps :
    let cfg : Config := { (newNodeProcessor 2 "hh" 0 0).config with
      retryInterval := 2 ^ 62, retryMaxInterval := 2 ^ 62 }
    let env : SendEnv Unit := ⟨none, some (.other "connection refused"), fun _ _ _ => none⟩
    let pass := fun wait =>
      (sendingLoop (fun _ => .ok []) cfg env true wait ⟨[], 0, true⟩ ⟨0, 0, 0, 0, 0⟩).1
    0 < cfg.retryInterval ∧ 0 < cfg.retryMaxInterval ∧
      pass (initialWait cfg) = -2 ^ 63 ∧ pass (pass (initialWait cfg)) = 0 := by
  decide

/-! ## Runs -/

/-- The wait `run` sets the send timer to after passes that met `outcomes`, in order. -/
def waitAfter (cfg : Config) (outcomes : List (Option (Except SendError Nat))) : Duration :=
  outcomes.foldl (loopDelay cfg) (initialWait cfg)

@[simp] theorem waitAfter_nil (cfg : Config) : waitAfter cfg [] = initialWait cfg := rfl

@[simp] theorem waitAfter_concat (cfg : Config) (outcomes : List (Option (Except SendError Nat)))
    (o : Option (Except SendError Nat)) :
    waitAfter cfg (outcomes ++ [o]) = loopDelay cfg (waitAfter cfg outcomes) o := by
  simp [waitAfter]

section Bounded

/-! Both intervals are positive and below `2^62`. -/

variable {cfg : Config} (ri : 0 < cfg.retryInterval) (riSmall : cfg.retryInterval < 2 ^ 62)
  (rmi : 0 < cfg.retryMaxInterval) (rmiSmall : cfg.retryMaxInterval < 2 ^ 62)

include ri riSmall rmi rmiSmall in
/-- Every wait is positive and at most the larger interval, hence below `2^62`. -/
theorem waitAfter_bounded (outcomes : List (Option (Except SendError Nat))) :
    0 < waitAfter cfg outcomes ∧
      waitAfter cfg outcomes ≤ max cfg.retryInterval cfg.retryMaxInterval := by
  induction outcomes using List.reverseRecOn with
  | nil =>
    simp only [waitAfter_nil, initialWait]
    unfold Duration at *
    split <;> omega
  | append_singleton outcomes o ih =>
    rw [waitAfter_concat]
    unfold Duration at *
    cases back : backsOff o
    · rw [loopDelay_reset cfg _ back]; omega
    · rw [loopDelay_backOff cfg (by omega) (by omega) back]; omega

include ri riSmall rmi rmiSmall in
/-- The first of a row of errors after the start or a reset gives
`min (2 * RetryInterval) RetryMaxInterval`. -/
theorem waitAfter_first_backOff {pre : List (Option (Except SendError Nat))}
    (reset : ∀ o, pre.getLast? = some o → backsOff o = false) {o : Option (Except SendError Nat)}
    (back : backsOff o = true) :
    waitAfter cfg (pre ++ [o]) = min (cfg.retryInterval * 2 ^ 1) cfg.retryMaxInterval := by
  have bounded := waitAfter_bounded ri riSmall rmi rmiSmall pre
  unfold Duration at *
  rw [waitAfter_concat, loopDelay_backOff cfg (by omega) (by omega) back]
  rcases List.eq_nil_or_concat' pre with rfl | ⟨pre, r, rfl⟩
  · simp only [waitAfter_nil, initialWait]
    unfold Duration
    split <;> omega
  · rw [waitAfter_concat, loopDelay_reset cfg _ (reset r (List.getLast?_concat pre))]
    omega

include ri riSmall rmi rmiSmall in
/-- `j ≥ 1` errors in a row after the start or a reset give
`min (RetryInterval * 2^j) RetryMaxInterval`. -/
theorem waitAfter_backOffs {pre : List (Option (Except SendError Nat))}
    (reset : ∀ o, pre.getLast? = some o → backsOff o = false)
    {errs : List (Option (Except SendError Nat))} (nonempty : errs ≠ [])
    (backs : ∀ o ∈ errs, backsOff o = true) :
    waitAfter cfg (pre ++ errs) = min (cfg.retryInterval * 2 ^ errs.length) cfg.retryMaxInterval := by
  induction errs using List.reverseRecOn with
  | nil => exact absurd rfl nonempty
  | append_singleton errs o ih =>
    have back := backs o (by simp)
    rcases List.eq_nil_or_concat' errs with rfl | ⟨_, _, _⟩
    · exact waitAfter_first_backOff ri riSmall rmi rmiSmall reset back
    · have row := ih (by simp [*]) fun o mem => backs o (by simp [mem])
      have bounded := waitAfter_bounded ri riSmall rmi rmiSmall (pre ++ errs)
      unfold Duration at *
      rw [← List.append_assoc, waitAfter_concat, loopDelay_backOff cfg (by omega) (by omega) back,
        row, List.length_append, List.length_singleton, pow_succ, ← mul_assoc]
      omega

end Bounded

/-- With both intervals positive and below `2^62`, every wait `run` computes is positive and
at most the larger interval, and `j ≥ 1` consecutive errors other than `io.EOF`, after the start
or after a success, an `io.EOF` or a gate skip, give `min (RetryInterval * 2^j)
RetryMaxInterval`. -/
theorem backoff_waits (cfg : Config) (ri : 0 < cfg.retryInterval)
    (riSmall : cfg.retryInterval < 2 ^ 62) (rmi : 0 < cfg.retryMaxInterval)
    (rmiSmall : cfg.retryMaxInterval < 2 ^ 62) :
    (∀ outcomes, 0 < waitAfter cfg outcomes ∧
      waitAfter cfg outcomes ≤ max cfg.retryInterval cfg.retryMaxInterval) ∧
    ∀ pre errs, (∀ o, pre.getLast? = some o → backsOff o = false) → errs ≠ [] →
      (∀ o ∈ errs, backsOff o = true) →
        waitAfter cfg (pre ++ errs) =
          min (cfg.retryInterval * 2 ^ errs.length) cfg.retryMaxInterval :=
  ⟨waitAfter_bounded ri riSmall rmi rmiSmall,
    fun _ _ reset nonempty backs => waitAfter_backOffs ri riSmall rmi rmiSmall reset nonempty backs⟩

theorem backoff_waits_default :
    let cfg : Config := (newNodeProcessor 2 "hh" 0 0).config
    (0 < cfg.retryInterval ∧ cfg.retryInterval < 2 ^ 62 ∧ 0 < cfg.retryMaxInterval ∧
      cfg.retryMaxInterval < 2 ^ 62) ∧
    (∀ outcomes, 0 < waitAfter cfg outcomes ∧
      waitAfter cfg outcomes ≤ max cfg.retryInterval cfg.retryMaxInterval) ∧
    ∀ pre errs, (∀ o, pre.getLast? = some o → backsOff o = false) → errs ≠ [] →
      (∀ o ∈ errs, backsOff o = true) →
        waitAfter cfg (pre ++ errs) =
          min (cfg.retryInterval * 2 ^ errs.length) cfg.retryMaxInterval :=
  ⟨by decide, backoff_waits _ (by decide) (by decide) (by decide) (by decide)⟩

end Chronus.HH
