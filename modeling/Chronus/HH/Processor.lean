import Chronus.Meta.Data
import Chronus.HH.Codec

/-!
# The node processor

`NodeProcessor` (`services/meta/store.go`, package `hh`): the lifecycle calls `Open`, `Close`,
`Purge` and `WriteShard`, and one pass of the background loop, `sendingLoop` around
`SendWrite`. Each call holds `n.mu` for its whole body, so here it is one function of the
processor's state and of what its collaborators answer: the file system, the queue, the meta
client and the shard writer. Those answers are arguments, so every behaviour of the
collaborators is covered.

The queue (`queue.go`) is outside this repository. It is modelled from the spec as an
append-only list of frames with a head position. Whether `Append` fails is one more answer of
the environment; `Current` fails only on an empty queue, with `io.EOF`.

`Open` sets `done` before it creates the directory and opens the queue, and does not reset it
when one of those fails. The processor is then marked open without a queue or a loop
(`open_failure_keeps_done`): the next `Open` returns nil without retrying, `WriteShard` reaches
the nil queue, and `Close` closes it (`open_mkdirAll_failure`). Every other call keeps the
processor well formed (`NodeProcessor.WellFormed`), so along any sequence of calls in which no
`Open` fails it stays well formed (`NodeProcessor.perform_wellFormed`), and from
`NewNodeProcessor` no `WriteShard` or `Close` then reaches the nil queue
(`NodeProcessor.calls_never_panic`).

`Close` waits in `wg.Wait` for `run` while holding the write lock. The loop answers it
(`LoopAnswer`): it exits, or it is already waiting for `SendWrite`'s read lock, and then `Close`
never returns (`Chronus.HH.Shutdown`). The statistics are `int64` counters and wrap.
-/

namespace Chronus.HH

open Chronus.Meta (Duration MetaError NodeInfo)

/-! ## The queue -/

/-- Modelled from the spec: the hinted-handoff queue, with the frames appended, in order, the
head position, and whether it is open. -/
structure Queue where
  frames : List Frame
  head : Nat
  isOpen : Bool
deriving DecidableEq, Repr

/-- Modelled from the spec: `queue.Current`, the frame at the head, or `io.EOF` (`none`). -/
def Queue.current (q : Queue) : Option Frame := q.frames[q.head]?

/-- Modelled from the spec: `queue.Advance` moves the head past the current frame. -/
def Queue.advance (q : Queue) : Queue :=
  if q.head < q.frames.length then { q with head := q.head + 1 } else q

/-- Modelled from the spec: a successful `queue.Append` puts the frame at the tail. -/
def Queue.append (b : Frame) (q : Queue) : Queue := { q with frames := q.frames ++ [b] }

@[simp] theorem Queue.append_frames (b : Frame) (q : Queue) :
    (q.append b).frames = q.frames ++ [b] := rfl

@[simp] theorem Queue.append_head (b : Frame) (q : Queue) : (q.append b).head = q.head := rfl

@[simp] theorem Queue.advance_frames (q : Queue) : q.advance.frames = q.frames := by
  unfold Queue.advance; split <;> rfl

/-! ## The processor -/

/-- The exported fields of `NodeProcessor` and its node and directory. -/
structure Config where
  purgeInterval : Duration
  retryInterval : Duration
  retryMaxInterval : Duration
  maxSize : Int
  maxAge : Duration
  retryRateLimit : Int
  nodeID : UInt64
  dir : String
deriving DecidableEq, Repr

/-- `NodeProcessorStatistics`: five `int64` counters, here their 64 bits, so that
`atomic.AddInt64` is the bit vectors' addition and wraps as Go's does. -/
structure Statistics where
  writeShardReq : BitVec 64
  writeShardReqPoints : BitVec 64
  writeNodeReq : BitVec 64
  writeNodeReqFail : BitVec 64
  writeNodeReqPoints : BitVec 64
deriving DecidableEq, Repr

/-- The state of a `NodeProcessor`: whether `done` is non-nil, the queue `n.queue` points to,
and whether the goroutine of `run` is running (the count of `wg`). -/
structure NodeProcessor where
  config : Config
  done : Bool
  queue : Option Queue
  running : Bool
  stats : Statistics
deriving DecidableEq, Repr

/-- Modelled from the spec: `DefaultPurgeInterval` of `hh/config.go`, outside this repository,
one hour in nanoseconds. -/
def defaultPurgeInterval : Duration := 3600 * 1000000000

/-- Modelled from the spec: `DefaultRetryInterval`, one second. -/
def defaultRetryInterval : Duration := 1000000000

/-- Modelled from the spec: `DefaultRetryMaxInterval`, one minute. -/
def defaultRetryMaxInterval : Duration := 60 * 1000000000

/-- `NewNodeProcessor`. `DefaultMaxSize` and `DefaultMaxAge`, which the spec leaves open, are
parameters. -/
def newNodeProcessor (nodeID : UInt64) (dir : String) (maxSize : Int) (maxAge : Duration) :
    NodeProcessor :=
  { config :=
      { purgeInterval := defaultPurgeInterval
        retryInterval := defaultRetryInterval
        retryMaxInterval := defaultRetryMaxInterval
        maxSize := maxSize
        maxAge := maxAge
        retryRateLimit := 0
        nodeID := nodeID
        dir := dir }
    done := false
    queue := none
    running := false
    stats := ⟨0, 0, 0, 0, 0⟩ }

/-- How a call ends: it returns Go's `error` (`none` for nil), it panics, or it never returns. -/
inductive Outcome
  | returned (err : Option String)
  | panicked (msg : String)
  | blocked
deriving DecidableEq, Repr

/-- The runtime error of a method call through a nil `*queue`. -/
def nilDereference : String := "invalid memory address or nil pointer dereference"

/-! ## Lifecycle calls -/

/-- What the calls `Open` makes answer: `os.MkdirAll`, `newQueue` and `queue.Open` (`none` is
a nil error), and the frames the queue finds in `dir`. -/
structure OpenEnv where
  mkdirAll : Option String
  newQueue : Option String
  queueOpen : Option String
  stored : List Frame

/-- `NodeProcessor.Open`. -/
def NodeProcessor.open (env : OpenEnv) (n : NodeProcessor) : Option String × NodeProcessor :=
  if n.done then (none, n)
  else
    let n := { n with done := true }
    match env.mkdirAll with
    | some err => (some ("mkdir all: " ++ err), n)
    | none =>
      match env.newQueue with
      | some err => (some err, n)
      | none =>
        match env.queueOpen with
        | some err => (some err, n)
        | none => (none, { n with queue := some ⟨env.stored, 0, true⟩, running := true })

/-- How the goroutine of `run` answers `Close`'s `wg.Wait`: it takes the closed `done` in its
select and returns, or its send timer has fired first and it waits for `SendWrite`'s
`n.mu.RLock` behind `Close`'s write lock, so that neither ever goes on (`close_deadlock`). -/
inductive LoopAnswer
  | exits
  | waitsForReadLock
deriving DecidableEq, Repr

/-- `NodeProcessor.Close`: under the write lock, close `done` and wait in `wg.Wait` for `run`,
which `loop` answers while it runs; then clear `done` and close the queue, whose answer is
`queueClose`. A `Close` that waits forever leaves the processor as it was, `done` closed but not
yet cleared. -/
def NodeProcessor.close (loop : LoopAnswer) (queueClose : Option String) (n : NodeProcessor) :
    Outcome × NodeProcessor :=
  if !n.done then (.returned none, n)
  else if n.running && loop == .waitsForReadLock then (.blocked, n)
  else
    let n := { n with done := false, running := false }
    match n.queue with
    | none => (.panicked nilDereference, n)
    | some q => (.returned queueClose, { n with queue := some { q with isOpen := false } })

/-- `NodeProcessor.Purge`: refused while open; otherwise what `os.RemoveAll` answers. The
processor's fields are unchanged. -/
def NodeProcessor.purge (removeAll : Option String) (n : NodeProcessor) : Option String :=
  if n.done then some "node processor is open" else removeAll

section WriteShard

variable {Point : Type} (pointString : Point → String)

/-- `NodeProcessor.WriteShard`: refused while closed; otherwise count the request and append
the encoded write, where `append` is the queue's answer. -/
def NodeProcessor.writeShard (append : Option String) (shardID : UInt64) (points : List Point)
    (n : NodeProcessor) : Outcome × NodeProcessor :=
  if !n.done then (.returned (some "node processor is closed"), n)
  else
    let n := { n with stats := { n.stats with
      writeShardReq := n.stats.writeShardReq + 1
      writeShardReqPoints := n.stats.writeShardReqPoints + BitVec.ofNat 64 points.length } }
    match n.queue with
    | none => (.panicked nilDereference, n)
    | some q =>
      match append with
      | some err => (.returned (some err), n)
      | none =>
        (.returned none,
          { n with queue := some (q.append (marshalWrite pointString shardID points)) })

end WriteShard

/-! ## Sending -/

/-- The error `SendWrite` returns: `io.EOF`, an error of the meta client, or another error's
text. -/
inductive SendError
  | eof
  | meta (e : MetaError)
  | other (text : String)
deriving DecidableEq, Repr

/-- `NodeProcessor.Active`, given what `n.meta.DataNode(n.nodeID)` answered. -/
def active (nio : Option NodeInfo) (err : Option MetaError) : Except MetaError Bool :=
  match err with
  | some e => if e = .nodeNotFound then .ok nio.isSome else .error e
  | none => .ok nio.isSome

/-- What `SendWrite`'s collaborators answer: the meta client's `DataNode`, and the shard
writer's `WriteShard(shardID, ownerID, points)`. -/
structure SendEnv (Point : Type) where
  node : Option NodeInfo
  nodeErr : Option MetaError
  writer : UInt64 → UInt64 → List Point → Option String

section SendWrite

variable {Point : Type} (parsePoints : List UInt8 → Except String (List Point))

/-- `NodeProcessor.SendWrite` on the queue of an open processor: the bytes sent or the error,
and the queue and the statistics after. An undecodable frame is skipped; a frame the writer
rejects stays at the head. -/
def sendWrite (env : SendEnv Point) (nodeID : UInt64) (q : Queue) (stats : Statistics) :
    Except SendError Nat × Queue × Statistics :=
  match active env.node env.nodeErr with
  | .error e => (.error (.meta e), q, stats)
  | .ok false => (.error .eof, q, stats)
  | .ok true =>
    match q.current with
    | none => (.error .eof, q, stats)
    | some buf =>
      match unmarshalWrite parsePoints buf with
      | .error err => (.error (.other err), q.advance, stats)
      | .ok (shardID, points) =>
        match env.writer shardID nodeID points with
        | some err =>
          (.error (.other err), q, { stats with writeNodeReqFail := stats.writeNodeReqFail + 1 })
        | none =>
          (.ok buf.length, q.advance,
            { stats with
              writeNodeReq := stats.writeNodeReq + 1
              writeNodeReqPoints := stats.writeNodeReqPoints + BitVec.ofNat 64 points.length })

/-- Go's `int64` arithmetic: `x` wrapped to the two's-complement range. -/
def toInt64 (x : Int) : Int := (x + 2 ^ 63) % 2 ^ 64 - 2 ^ 63

/-- The wait `run` starts with: `RetryInterval`, lowered to `RetryMaxInterval`. -/
def initialWait (cfg : Config) : Duration :=
  if cfg.retryInterval > cfg.retryMaxInterval then cfg.retryMaxInterval else cfg.retryInterval

/-- The delay `sendingLoop` returns once `SendWrite` returned `result`: `RetryInterval` after a
success or `io.EOF`, otherwise twice the current delay in `int64`, capped at
`RetryMaxInterval`. -/
def nextDelay (cfg : Config) (curDelay : Duration) : Except SendError Nat → Duration
  | .ok _ => cfg.retryInterval
  | .error .eof => cfg.retryInterval
  | .error _ =>
    let d := toInt64 (2 * curDelay)
    if d > cfg.retryMaxInterval then cfg.retryMaxInterval else d

/-- `NodeProcessor.sendingLoop`, where `admitted` is the concurrency gate's decision (true when
the gate is off): the next delay, the bytes sent, and the queue and statistics after. A
processor the gate turns away returns `RetryInterval` without sending. The rate limiter only
delays the return (`Chronus.HH.Throughput`). -/
def sendingLoop (cfg : Config) (env : SendEnv Point) (admitted : Bool) (curDelay : Duration)
    (q : Queue) (stats : Statistics) : Duration × Nat × Queue × Statistics :=
  if !admitted then (cfg.retryInterval, 0, q, stats)
  else
    let (result, q', stats') := sendWrite parsePoints env cfg.nodeID q stats
    (nextDelay cfg curDelay result, (match result with | .ok sent => sent | .error _ => 0),
      q', stats')

/-- `SendWrite` leaves `WriteShardReqPoints` as it was. -/
theorem sendWrite_writeShardReqPoints (env : SendEnv Point) (nodeID : UInt64) (q : Queue)
    (stats : Statistics) :
    (sendWrite parsePoints env nodeID q stats).2.2.writeShardReqPoints =
      stats.writeShardReqPoints := by
  unfold sendWrite
  split
  · rfl
  · rfl
  · split
    · rfl
    · split
      · rfl
      · split <;> rfl

end SendWrite

/-! ## Statistics -/

/-- The keys of the values `NodeProcessor.Statistics` exports; `writeShardReq` and
`writeShardReqPoints` are constants of the package outside this file. -/
inductive StatKey
  | writeShardReq
  | writeShardReqPoints
  | writeNodeReq
  | writeNodeReqFail
  | writeNodeReqPoints
deriving DecidableEq, Repr

/-- `NodeProcessor.Statistics`: the name, the tags (the caller's over `node` and `path`) and the
`int64` values. The value of `writeNodeReqPoints` is loaded from `WriteShardReqPoints`. -/
def NodeProcessor.statistics (n : NodeProcessor) (tags : String → Option String) :
    String × (String → Option String) × (StatKey → Int) :=
  (String.intercalate ":" ["hh_processor", n.config.dir],
    fun k => (tags k).orElse fun _ =>
      if k = "node" then some (toString n.config.nodeID)
      else if k = "path" then some n.config.dir else none,
    fun
      | .writeShardReq => n.stats.writeShardReq.toInt
      | .writeShardReqPoints => n.stats.writeShardReqPoints.toInt
      | .writeNodeReq => n.stats.writeNodeReq.toInt
      | .writeNodeReqFail => n.stats.writeNodeReqFail.toInt
      | .writeNodeReqPoints => n.stats.writeShardReqPoints.toInt)

/-! ## Lifecycle invariant -/

/-- A processor marked open has an open queue and a running loop. -/
def NodeProcessor.WellFormed (n : NodeProcessor) : Prop :=
  n.done = true → n.running = true ∧ ∃ q, n.queue = some q ∧ q.isOpen = true

/-- `Open` meets no failure. -/
def OpenEnv.Succeeds (env : OpenEnv) : Prop :=
  env.mkdirAll = none ∧ env.newQueue = none ∧ env.queueOpen = none

instance (env : OpenEnv) : Decidable env.Succeeds := inferInstanceAs (Decidable (_ ∧ _))

/-- A `Close` keeps the processor well formed: one that returns leaves it closed, one that
waits forever leaves it as it was. -/
theorem NodeProcessor.close_wellFormed (loop : LoopAnswer) (queueClose : Option String)
    {n : NodeProcessor} (wf : n.WellFormed) : (n.close loop queueClose).2.WellFormed := by
  unfold NodeProcessor.close
  cases done : n.done
  · simpa [done] using wf
  · by_cases waits : n.running && loop == .waitsForReadLock
    · simpa [waits] using wf
    · cases n.queue <;> simp [waits, NodeProcessor.WellFormed]

theorem NodeProcessor.writeShard_wellFormed {Point : Type} (pointString : Point → String)
    (append : Option String) (shardID : UInt64) (points : List Point) {n : NodeProcessor}
    (wf : n.WellFormed) : (n.writeShard pointString append shardID points).2.WellFormed := by
  unfold NodeProcessor.writeShard
  cases done : n.done
  · simpa [done] using wf
  · obtain ⟨running, q, found, opened⟩ := wf done
    cases append <;> simp [found, running, opened, NodeProcessor.WellFormed, Queue.append]

/-- An `Open` that meets no failure leaves the processor well formed, open or not before. -/
theorem NodeProcessor.open_wellFormed {env : OpenEnv} (succeeds : env.Succeeds)
    {n : NodeProcessor} (wf : n.WellFormed) : (n.open env).2.WellFormed := by
  obtain ⟨mkdir, created, opened⟩ := succeeds
  unfold NodeProcessor.open
  split
  · exact wf
  · simp [mkdir, created, opened, NodeProcessor.WellFormed]

/-- An `Open` of a closed processor that meets a failure returns it, yet leaves `done` set
with no loop started. -/
theorem open_failure_keeps_done {env : OpenEnv} (fails : ¬ env.Succeeds) {n : NodeProcessor}
    (closed : n.done = false) :
    (n.open env).1.isSome ∧ (n.open env).2.done = true ∧
      (n.open env).2.running = n.running := by
  obtain ⟨mkdirAll, newQueue, queueOpen, stored⟩ := env
  unfold NodeProcessor.open
  cases mkdirAll <;> cases newQueue <;> cases queueOpen <;> simp_all [OpenEnv.Succeeds]

/-! ## Runs of calls -/

section Calls

variable {Point : Type} (pointString : Point → String)

/-- One lifecycle call, with the answers of the collaborators it meets. -/
inductive Call (Point : Type)
  | open (env : OpenEnv)
  | close (loop : LoopAnswer) (queueClose : Option String)
  | writeShard (append : Option String) (shardID : UInt64) (points : List Point)
  | purge (removeAll : Option String)

/-- The processor after a call. -/
def NodeProcessor.perform (n : NodeProcessor) : Call Point → NodeProcessor
  | .open env => (n.open env).2
  | .close loop queueClose => (n.close loop queueClose).2
  | .writeShard append shardID points => (n.writeShard pointString append shardID points).2
  | .purge _ => n

/-- The call is not an `Open` that fails, nor a `Close` that waits for `run` forever. -/
def Call.Safe : Call Point → Prop
  | .open env => env.Succeeds
  | .close loop _ => loop = .exits
  | _ => True

theorem NodeProcessor.perform_step {n : NodeProcessor} (wf : n.WellFormed) (call : Call Point)
    (safe : call.Safe) : (n.perform pointString call).WellFormed := by
  cases call with
  | «open» env => exact NodeProcessor.open_wellFormed safe wf
  | close loop queueClose => exact NodeProcessor.close_wellFormed loop queueClose wf
  | writeShard append shardID points =>
    exact NodeProcessor.writeShard_wellFormed pointString append shardID points wf
  | purge _ => exact wf

/-- Along any sequence of calls in which no `Open` fails, a well-formed processor stays well
formed. -/
theorem NodeProcessor.perform_wellFormed (calls : List (Call Point))
    (safe : ∀ call ∈ calls, call.Safe) {n : NodeProcessor} (wf : n.WellFormed) :
    (calls.foldl (NodeProcessor.perform pointString) n).WellFormed := by
  induction calls generalizing n with
  | nil => exact wf
  | cons call rest ih =>
    exact ih (fun c mem => safe c (List.mem_cons_of_mem call mem))
      (NodeProcessor.perform_step pointString wf call (safe call (List.mem_cons_self call rest)))

end Calls

/-- A well-formed processor's `WriteShard` and `Close` never reach a nil queue: the write
returns, and the `Close` returns, or waits forever when the loop waits for the read lock. -/
theorem NodeProcessor.wellFormed_no_panic {Point : Type} (pointString : Point → String)
    {n : NodeProcessor} (wf : n.WellFormed) (append : Option String) (loop : LoopAnswer)
    (queueClose : Option String) (shardID : UInt64) (points : List Point) :
    (∃ err, (n.writeShard pointString append shardID points).1 = .returned err) ∧
      ((n.close loop queueClose).1 = .blocked ∧ loop = .waitsForReadLock ∨
        ∃ err, (n.close loop queueClose).1 = .returned err) := by
  unfold NodeProcessor.writeShard NodeProcessor.close
  cases done : n.done
  · simp
  · obtain ⟨running, q, found, -⟩ := wf done
    cases loop <;> cases append <;> simp [found, running]

/-- From `NewNodeProcessor`, along any sequence of `Open`, `Close`, `WriteShard` and `Purge`
calls in which no `Open` fails and every `Close` returned, the next `WriteShard` returns and the
next `Close` returns or waits forever for the loop, whatever the queue answers: no call reaches
a nil queue. -/
theorem NodeProcessor.calls_never_panic {Point : Type} (pointString : Point → String)
    (nodeID : UInt64) (dir : String) (maxSize : Int) (maxAge : Duration)
    (calls : List (Call Point)) (safe : ∀ call ∈ calls, call.Safe)
    (append : Option String) (loop : LoopAnswer) (queueClose : Option String)
    (shardID : UInt64) (points : List Point) :
    let n := calls.foldl (NodeProcessor.perform pointString)
      (newNodeProcessor nodeID dir maxSize maxAge)
    (∃ err, (n.writeShard pointString append shardID points).1 = .returned err) ∧
      ((n.close loop queueClose).1 = .blocked ∧ loop = .waitsForReadLock ∨
        ∃ err, (n.close loop queueClose).1 = .returned err) :=
  NodeProcessor.wellFormed_no_panic pointString
    (NodeProcessor.perform_wellFormed pointString calls safe fun opened => by cases opened)
    append loop queueClose shardID points

/-- Two `Open`s that meet no failure with a write and a `Close` between them, then a write: the
next `Close` finds the loop waiting for the read lock and never returns. -/
theorem NodeProcessor.calls_never_panic_reopened :
    let calls : List (Call Unit) := [.open ⟨none, none, none, []⟩, .writeShard none 7 [()],
      .close .exits none, .open ⟨none, none, none, []⟩, .writeShard none 8 [()]]
    let n := calls.foldl (NodeProcessor.perform fun _ => "cpu value=1")
      (newNodeProcessor 2 "hh/2" 1024 3600)
    (∀ call ∈ calls, call.Safe) ∧
      (∃ err, (n.writeShard (fun _ => "cpu value=1") none 9 [()]).1 = .returned err) ∧
      ((n.close .waitsForReadLock none).1 = .blocked ∧
          LoopAnswer.waitsForReadLock = .waitsForReadLock ∨
        ∃ err, (n.close .waitsForReadLock none).1 = .returned err) := by
  intro calls n
  have safe : ∀ call ∈ calls, call.Safe := by simp [calls, Call.Safe, OpenEnv.Succeeds]
  exact ⟨safe, NodeProcessor.calls_never_panic (fun _ => "cpu value=1") 2 "hh/2" 1024 3600 calls
    safe none .waitsForReadLock none 9 [()]⟩

/-- `MkdirAll` fails in the first `Open` of a fresh processor. The processor is left marked
open with no queue and no loop. The next `Open`, which meets no failure, returns nil without
opening anything; `WriteShard` is not refused and calls through the nil queue; `Purge` is
refused; `Close` calls through the nil queue too. -/
theorem open_mkdirAll_failure :
    let n : Option String × NodeProcessor :=
      (newNodeProcessor 2 "hh/2" 1024 3600).open ⟨some "permission denied", none, none, []⟩
    n.1 = some "mkdir all: permission denied" ∧ n.2.done = true ∧ n.2.running = false ∧
      n.2.queue = none ∧ n.2.open ⟨none, none, none, []⟩ = (none, n.2) ∧
      (n.2.writeShard (fun _ : Unit => "cpu value=1") none 7 [()]).1 =
        .panicked nilDereference ∧
      n.2.purge none = some "node processor is open" ∧
      ∀ loop, (n.2.close loop none).1 = .panicked nilDereference :=
  ⟨rfl, rfl, rfl, rfl, rfl, rfl, rfl, fun loop => by cases loop <;> rfl⟩

end Chronus.HH
