import Chronus.HH.Processor

/-!
# The concurrency gate

`concurrencyAllow` admits a processor with an optimistic `atomic.AddInt32(&activeProcessorCount,
1)`: when the new value is within `maxActiveProcessorCount` it returns true, otherwise it adds
`-1` and tries again until its one-second timer fires. `sendingLoop` releases an admitted
processor with a deferred `-1`. Each of these is one `GateStep`, on a list of processors that
interleave in any order.

The counter is an `int32`. With fewer than `2 ^ 31` processors it equals the processors inside
the gated section plus those whose `+1` is not yet undone, and at most
`maxActiveProcessorCount` are inside (`gate_safe`). With `2 ^ 31` processors the `+1`s wrap
the counter to `-2 ^ 31`, below every cap, and a second processor is let in under a cap of one
(`gate_count_wraps`).
-/

namespace Chronus.HH

/-- Go's `int32` arithmetic: `x` wrapped to the two's-complement range. -/
def toInt32 (x : Int) : Int := (x + 2 ^ 31) % 2 ^ 32 - 2 ^ 31

theorem toInt32_of_range {x : Int} (low : -2 ^ 31 ≤ x) (high : x < 2 ^ 31) : toInt32 x = x := by
  unfold toInt32; omega

/-- Where a processor is: outside the gate, in `concurrencyAllow`'s loop before its `+1`, after
a `+1` that went past the cap and before the `-1` that undoes it, or inside the gated section
of `sendingLoop`. -/
inductive GatePc
  | outside
  | trying
  | overshot
  | inside
deriving DecidableEq, Repr

/-- `activeProcessorCount` and the processors. -/
structure GateState where
  count : Int
  procs : List GatePc
deriving DecidableEq, Repr

/-- `n` processors outside the gate, and the counter at zero. -/
def GateState.init (n : Nat) : GateState := ⟨0, List.replicate n .outside⟩

/-- One step of processor `i`, under the cap `maxActive`.
* `enter`: `sendingLoop` calls `concurrencyAllow`.
* `timeout`: the one-second timer has fired; `concurrencyAllow` returns false and
  `sendingLoop` returns without the deferred release.
* `increment`: the `+1`; the processor is inside when the new value is within the cap.
* `rollback`: the `-1` after a `+1` past the cap.
* `release`: the deferred `-1` of `sendingLoop`. -/
inductive GateStep (maxActive : Int) : GateState → GateState → Prop
  | enter (s : GateState) (i : Nat) (outside : s.procs[i]? = some .outside) :
    GateStep maxActive s ⟨s.count, s.procs.set i .trying⟩
  | timeout (s : GateState) (i : Nat) (trying : s.procs[i]? = some .trying) :
    GateStep maxActive s ⟨s.count, s.procs.set i .outside⟩
  | increment (s : GateState) (i : Nat) (trying : s.procs[i]? = some .trying) :
    GateStep maxActive s ⟨toInt32 (s.count + 1),
      s.procs.set i (if toInt32 (s.count + 1) ≤ maxActive then .inside else .overshot)⟩
  | rollback (s : GateState) (i : Nat) (overshot : s.procs[i]? = some .overshot) :
    GateStep maxActive s ⟨toInt32 (s.count - 1), s.procs.set i .trying⟩
  | release (s : GateState) (i : Nat) (inside : s.procs[i]? = some .inside) :
    GateStep maxActive s ⟨toInt32 (s.count - 1), s.procs.set i .outside⟩

/-- The states `n` processors reach under the cap `maxActive`. -/
def GateReachable (maxActive : Int) (n : Nat) (s : GateState) : Prop :=
  Relation.ReflTransGen (GateStep maxActive) (.init n) s

/-- The steps, with their target given by an equation. -/
theorem GateStep.enter_to {maxActive : Int} {s t : GateState} (i : Nat)
    (outside : s.procs[i]? = some .outside) (target : t = ⟨s.count, s.procs.set i .trying⟩) :
    GateStep maxActive s t :=
  target ▸ .enter s i outside

theorem GateStep.increment_to {maxActive : Int} {s t : GateState} (i : Nat)
    (trying : s.procs[i]? = some .trying)
    (target : t = ⟨toInt32 (s.count + 1),
      s.procs.set i (if toInt32 (s.count + 1) ≤ maxActive then .inside else .overshot)⟩) :
    GateStep maxActive s t :=
  target ▸ .increment s i trying

/-! ## Counting processors -/

/-- Setting one processor moves one unit of count from its old position to its new one. -/
theorem GatePc.count_set {l : List GatePc} {i : Nat} {a : GatePc} (found : l[i]? = some a)
    (b c : GatePc) :
    (l.set i b).count c + (if a = c then 1 else 0) = l.count c + (if b = c then 1 else 0) := by
  induction l generalizing i with
  | nil => simp at found
  | cons x xs ih =>
    cases i with
    | zero =>
      obtain rfl : x = a := by simpa using found
      simp only [List.set_cons_zero, List.count_cons, beq_iff_eq]
      omega
    | succ k =>
      simp only [List.getElem?_cons_succ] at found
      simp only [List.set_cons_succ, List.count_cons]
      have := ih found
      omega

theorem GatePc.count_le_length (l : List GatePc) :
    l.count .inside + l.count .overshot + l.count .trying ≤ l.length := by
  induction l with
  | nil => simp
  | cons p l ih => cases p <;> simp [List.count_cons] <;> omega

theorem GatePc.count_pos {l : List GatePc} {i : Nat} {a : GatePc} (found : l[i]? = some a) :
    0 < l.count a :=
  List.count_pos_iff.mpr (List.getElem?_mem found)

/-! ## The invariant, for fewer than `2 ^ 31` processors -/

/-- The counter is the processors inside plus those overshooting, and at most `maxActive` are
inside. -/
structure GateInv (maxActive : Int) (n : Nat) (s : GateState) : Prop where
  length_eq : s.procs.length = n
  count_eq : s.count = s.procs.count .inside + s.procs.count .overshot
  inside_le : (s.procs.count .inside : Int) ≤ maxActive

section Invariant

variable {maxActive : Int} {n : Nat}

theorem gateInv_init (positive : 0 < maxActive) : GateInv maxActive n (.init n) :=
  ⟨by simp [GateState.init], by simp [GateState.init, List.count_replicate],
    by simp [GateState.init, List.count_replicate]; omega⟩

/-- Moving processor `i` from `a` to `b` while the counter becomes `count'` keeps the
invariant when the counter moves with the processors inside or overshooting, and the cap still
bounds those inside. -/
theorem GateInv.move {s : GateState} (inv : GateInv maxActive n s) {i : Nat} {a : GatePc}
    (found : s.procs[i]? = some a) (b : GatePc) {count' : Int}
    (moved : count' + (if a = .inside then 1 else 0) + (if a = .overshot then 1 else 0) =
      s.count + (if b = .inside then 1 else 0) + (if b = .overshot then 1 else 0))
    (capped : (s.procs.count .inside : Int) + (if b = .inside then 1 else 0) ≤
      maxActive + if a = .inside then 1 else 0) :
    GateInv maxActive n ⟨count', s.procs.set i b⟩ := by
  obtain ⟨length, count, inside⟩ := inv
  have ci := GatePc.count_set found b .inside
  have co := GatePc.count_set found b .overshot
  zify at ci co
  refine ⟨by simp [length], ?_, ?_⟩ <;> dsimp only <;> omega

theorem GateInv.step (fewer : n < 2 ^ 31) {s t : GateState} (inv : GateInv maxActive n s)
    (step : GateStep maxActive s t) : GateInv maxActive n t := by
  have count := inv.count_eq
  have inside := inv.inside_le
  have length := inv.length_eq
  have bound := GatePc.count_le_length s.procs
  cases step with
  | enter i found => exact inv.move found .trying (by simp) (by simpa using inside)
  | timeout i found => exact inv.move found .outside (by simp) (by simpa using inside)
  | increment i found =>
    have trying := GatePc.count_pos found
    rw [toInt32_of_range (by omega) (by omega)]
    split
    · exact inv.move found .inside (by simp) (by simp; omega)
    · exact inv.move found .overshot (by simp) (by simpa using inside)
  | rollback i found =>
    have overshot := GatePc.count_pos found
    rw [toInt32_of_range (by omega) (by omega)]
    exact inv.move found .trying (by simp) (by simpa using inside)
  | release i found =>
    have inside' := GatePc.count_pos found
    rw [toInt32_of_range (by omega) (by omega)]
    exact inv.move found .outside (by simp) (by simp; omega)

end Invariant

/-- With a positive cap and fewer than `2 ^ 31` processors, every reachable state has at most
`maxActive` processors inside, and the counter is the processors inside plus those whose `+1`
is not yet undone. -/
theorem gate_safe {maxActive : Int} {n : Nat} (positive : 0 < maxActive) (fewer : n < 2 ^ 31)
    {s : GateState} (reach : GateReachable maxActive n s) :
    (s.procs.count .inside : Int) ≤ maxActive ∧
      s.count = s.procs.count .inside + s.procs.count .overshot := by
  suffices inv : GateInv maxActive n s from ⟨inv.inside_le, inv.count_eq⟩
  induction reach with
  | refl => exact gateInv_init positive
  | tail _ step ih => exact ih.step fewer step

/-- Two processors under a cap of one: the first gets in, the second's `+1` goes past the cap
and is not yet undone. -/
theorem gate_safe_overshoot :
    let s : GateState := ⟨2, [.inside, .overshot]⟩
    (0 < (1 : Int) ∧ 2 < 2 ^ 31 ∧ GateReachable 1 2 s) ∧
      (s.procs.count .inside : Int) ≤ 1 ∧
        s.count = s.procs.count .inside + s.procs.count .overshot := by
  intro s
  have s1 : GateStep 1 (.init 2) ⟨0, [.trying, .outside]⟩ := .enter _ 0 rfl
  have s2 : GateStep 1 ⟨0, [.trying, .outside]⟩ ⟨1, [.inside, .outside]⟩ :=
    GateStep.increment_to 0 rfl (by decide)
  have s3 : GateStep 1 ⟨1, [.inside, .outside]⟩ ⟨1, [.inside, .trying]⟩ := .enter _ 1 rfl
  have s4 : GateStep 1 ⟨1, [.inside, .trying]⟩ s := GateStep.increment_to 1 rfl (by decide)
  have reach : GateReachable 1 2 s := .tail (.tail (.tail (.single s1) s2) s3) s4
  exact ⟨⟨by decide, by decide, reach⟩, gate_safe (by decide) (by decide) reach⟩

/-! ## `2 ^ 31` processors -/

theorem getElem?_replicate_append {α : Type} (k : Nat) (a : α) (l : List α) :
    (List.replicate k a ++ l)[k]? = l[0]? := by
  rw [List.getElem?_append_right (by simp)]; simp

theorem set_replicate_append {α : Type} (k : Nat) (a b c : α) (l : List α) :
    (List.replicate k a ++ b :: l).set k c = List.replicate k a ++ c :: l := by
  rw [List.set_append_right _ _ (by simp)]; simp

theorem replicate_succ_append {α : Type} (k : Nat) (a : α) (l : List α) :
    List.replicate (k + 1) a ++ l = List.replicate k a ++ a :: l := by
  simp [List.replicate_succ']

/-- Under a cap of one: processor 0 inside, the next `k` overshooting, `m` still outside. -/
def wrapState (k m : Nat) : GateState :=
  ⟨1 + k, .inside :: (List.replicate k .overshot ++ List.replicate m .outside)⟩

/-- Processor 0 gets in; each of the next `k` adds its `+1`, goes past the cap and holds it. -/
theorem wrapState_reachable (k m : Nat) (small : k + 1 < 2 ^ 31) :
    GateReachable 1 (m + k + 1) (wrapState k m) := by
  induction k generalizing m with
  | zero =>
    refine .tail (.single (GateStep.enter_to 0 ?_ rfl)) (GateStep.increment_to 0 ?_ ?_) <;>
      simp [wrapState, toInt32, GateState.init, List.replicate_succ]
  | succ k ih =>
    have earlier := ih (m + 1) (by omega)
    rw [show m + 1 + k + 1 = m + (k + 1) + 1 by omega] at earlier
    have wrap : toInt32 (1 + k + 1) = 1 + k + 1 := toInt32_of_range (by omega) (by omega)
    have over : ¬ (1 + (k : Int) + 1 ≤ 1) := by omega
    refine .tail (.tail earlier (GateStep.enter_to (k + 1) ?_ rfl))
      (GateStep.increment_to (k + 1) ?_ ?_) <;>
      simp only [wrapState, List.replicate_succ GatePc.outside m, List.getElem?_cons_succ,
        List.set_cons_succ, set_replicate_append, getElem?_replicate_append,
        List.getElem?_cons_zero, wrap, if_neg over, replicate_succ_append, GateState.mk.injEq,
        and_true]
    omega

/-- The last of `k + 2 = 2 ^ 31` processors: its `+1` takes the counter from `2 ^ 31 - 1` to
`-2 ^ 31`, which is within the cap. -/
theorem wrap_last (k : Nat) (edge : k + 2 = 2 ^ 31) :
    GateReachable 1 (k + 2) ⟨-2 ^ 31, .inside :: (List.replicate k .overshot ++ [.inside])⟩ := by
  have full := wrapState_reachable k 1 (by omega)
  rw [show 1 + k + 1 = k + 2 by omega] at full
  have wrapped : toInt32 (1 + k + 1) = -2 ^ 31 := by unfold toInt32; omega
  refine .tail (.tail full (GateStep.enter_to (k + 1) ?_ rfl))
    (GateStep.increment_to (k + 1) ?_ ?_) <;>
    simp only [wrapState, List.replicate_one, List.getElem?_cons_succ, List.set_cons_succ,
      set_replicate_append, getElem?_replicate_append, List.getElem?_cons_zero, wrapped]
  simp

/-- `2 ^ 31` processors under a cap of one. Processor 0 gets in; the next `2 ^ 31 - 2` each go
past the cap and hold their `+1`, which brings the counter to `2 ^ 31 - 1`; the last `+1` wraps
it to `-2 ^ 31`, within the cap, so the last processor gets in too. Two processors are inside
and the counter is negative. -/
theorem gate_count_wraps :
    let s : GateState := ⟨-2 ^ 31, .inside :: (List.replicate (2 ^ 31 - 2) .overshot ++ [.inside])⟩
    GateReachable 1 (2 ^ 31) s ∧ s.procs.count .inside = 2 ∧ s.count < 0 := by
  refine ⟨?_, ?_, by decide⟩
  · have last := wrap_last (2 ^ 31 - 2) (by decide)
    rwa [show 2 ^ 31 - 2 + 2 = 2 ^ 31 by decide] at last
  · simp only [List.count_cons, List.count_append, List.count_replicate, List.count_singleton]
    rfl

end Chronus.HH
