import Chronus.HH.Delivery

/-!
# The processor's delivery counters

`WriteShard` appends the encoded write when the queue's `Append` succeeds. `SendWrite` adds one
to `WriteNodeReq` and the write's points to `WriteNodeReqPoints` when the writer accepts the head
frame, and then moves the head past it; an undecodable frame is skipped and counted nowhere, and
a rejected one stays at the head and counts in `WriteNodeReqFail` only.

`Accounted` relates the queue and the statistics a run starts from to those it reaches. Along
any sequence of `WriteShard` calls and passes of the send loop on an open processor
(`NodeProcessor.serve`), whatever the queue, the gate, the meta client and the writer answer,
the queue holds the frames it started with followed by the encoded writes of the calls whose
`Append` succeeded, in call order, and `WriteNodeReq` and `WriteNodeReqPoints` have grown, in
`int64` arithmetic, by exactly the number and the points of the decodable frames the head moved
past (`NodeProcessor.serve_accounting`). `Statistics` exports under `writeNodeReqPoints` the
counter `WriteShardReqPoints`, which every `WriteShard` on the open processor advances by its
points and no delivery touches (`NodeProcessor.serve_statistics_writeNodeReqPoints`). A delivered
frame was appended, so with a parser that reads back the points `WriteShard` wrote and counters
below the `int64` limit, `WriteNodeReqPoints` stays at most `WriteShardReqPoints`, as long as it
started so with the points of the frames the queue already held counted in
(`NodeProcessor.serve_writeNodeReqPoints_le`). A queue opened on frames of an earlier run breaks
that start: its frames are delivered and counted, but were never handed to this processor's
`WriteShard`.

The calls are taken one at a time here. Each is a run of the finer model of
`Chronus.HH.Delivery`, in which the steps of `SendWrite` interleave with appends, so the order of
delivery proved there holds after every call (`NodeProcessor.serve_deliveryReachable`).
-/

namespace Chronus.HH

open Chronus.Meta (Duration)

section Accounting

variable {Point : Type} (pointString : Point → String)
  (parsePoints : List UInt8 → Except String (List Point))

/-- The points `SendWrite` hands the writer for a frame; an undecodable frame has none. -/
def framePoints (buf : Frame) : Nat :=
  match unmarshalWrite parsePoints buf with
  | .ok (_, points) => points.length
  | .error _ => 0

/-- The decodable frames the head moved past, from where `q0` had it to where `q` has it. -/
def delivered (q0 q : Queue) : List Frame :=
  ((q.frames.take q.head).drop q0.head).filter (decodes parsePoints)

/-- From `q0` and `s0` to `q` and `s`: the frames `appended` went to the tail, the head moved
forward and stays within the frames, and the delivery counters grew by the decodable frames it
moved past. -/
structure Accounted (q0 : Queue) (s0 : Statistics) (appended : List Frame) (q : Queue)
    (s : Statistics) : Prop where
  frames_eq : q.frames = q0.frames ++ appended
  head_ge : q0.head ≤ q.head
  head_le : q.head ≤ q.frames.length
  writeNodeReq_eq : s.writeNodeReq =
    s0.writeNodeReq + BitVec.ofNat 64 (delivered parsePoints q0 q).length
  writeNodeReqPoints_eq : s.writeNodeReqPoints = s0.writeNodeReqPoints +
    BitVec.ofNat 64 ((delivered parsePoints q0 q).map (framePoints parsePoints)).sum

@[simp] theorem delivered_self (q : Queue) : delivered parsePoints q q = [] := by
  simp [delivered, List.drop_eq_nil_of_le]

/-- Moving the head past the current frame delivers it when it decodes. -/
theorem delivered_advance {q0 q : Queue} {buf : Frame} (found : q.current = some buf)
    (le : q0.head ≤ q.head) :
    delivered parsePoints q0 q.advance =
      delivered parsePoints q0 q ++ [buf].filter (decodes parsePoints) := by
  have lt := Queue.head_lt_of_current found
  simp only [delivered, Queue.advance_frames, Queue.advance_head_of_current found,
    Queue.take_succ_of_current found, ← List.filter_append]
  rw [List.drop_append_of_le_length (by simp only [List.length_take]; omega)]

/-- The frames delivered from `q0` to `q` carry at most the points of the frames `q0` still
held and of those appended since. -/
theorem delivered_sum_le {q0 q : Queue} {appended : List Frame}
    (frames : q.frames = q0.frames ++ appended) (head : q0.head ≤ q0.frames.length) :
    ((delivered parsePoints q0 q).map (framePoints parsePoints)).sum ≤
      ((q0.frames.drop q0.head).map (framePoints parsePoints)).sum +
        (appended.map (framePoints parsePoints)).sum := by
  have sub : (delivered parsePoints q0 q).Sublist (q0.frames.drop q0.head ++ appended) := by
    rw [← List.drop_append_of_le_length head, ← frames]
    exact (List.filter_sublist _).trans ((List.take_sublist _ _).drop _)
  rw [← List.sum_append, ← List.map_append]
  exact List.Sublist.sum_le_sum (sub.map _) (by simp)

theorem Accounted.init {q0 : Queue} (head : q0.head ≤ q0.frames.length) (s0 : Statistics) :
    Accounted parsePoints q0 s0 [] q0 s0 where
  frames_eq := (List.append_nil _).symm
  head_ge := le_rfl
  head_le := head
  writeNodeReq_eq := by simp
  writeNodeReqPoints_eq := by simp

variable {parsePoints} {q0 q : Queue} {s0 s : Statistics} {appended : List Frame}

/-- An append leaves the frames before the head as they were. -/
theorem Accounted.append (acc : Accounted parsePoints q0 s0 appended q s) (b : Frame) :
    Accounted parsePoints q0 s0 (appended ++ [b]) (q.append b) s := by
  have same : delivered parsePoints q0 (q.append b) = delivered parsePoints q0 q := by
    simp only [delivered, Queue.append_frames, Queue.append_head,
      List.take_append_of_le_length acc.head_le]
  have le := acc.head_le
  refine ⟨by simp [acc.frames_eq], acc.head_ge, ?_, same ▸ acc.writeNodeReq_eq,
    same ▸ acc.writeNodeReqPoints_eq⟩
  simp only [Queue.append_frames, Queue.append_head, List.length_append]
  omega

/-- Only the delivery counters take part. -/
theorem Accounted.counters (acc : Accounted parsePoints q0 s0 appended q s) {s' : Statistics}
    (req : s'.writeNodeReq = s.writeNodeReq)
    (points : s'.writeNodeReqPoints = s.writeNodeReqPoints) :
    Accounted parsePoints q0 s0 appended q s' :=
  ⟨acc.frames_eq, acc.head_ge, acc.head_le, req ▸ acc.writeNodeReq_eq,
    points ▸ acc.writeNodeReqPoints_eq⟩

/-- The head moves past the current frame, and the counters count it if it decodes. -/
theorem Accounted.advance (acc : Accounted parsePoints q0 s0 appended q s) {buf : Frame}
    (found : q.current = some buf) {s' : Statistics}
    (req : s'.writeNodeReq =
      s.writeNodeReq + BitVec.ofNat 64 ([buf].filter (decodes parsePoints)).length)
    (points : s'.writeNodeReqPoints = s.writeNodeReqPoints +
      BitVec.ofNat 64 (([buf].filter (decodes parsePoints)).map (framePoints parsePoints)).sum) :
    Accounted parsePoints q0 s0 appended q.advance s' := by
  have lt := Queue.head_lt_of_current found
  have head := Queue.advance_head_of_current found
  have ge := acc.head_ge
  have moved := delivered_advance parsePoints found ge
  refine ⟨by rw [Queue.advance_frames, acc.frames_eq], by omega, ?_, ?_, ?_⟩
  · rw [Queue.advance_frames]; omega
  · rw [req, acc.writeNodeReq_eq, moved, List.length_append, BitVec.ofNat_add,
      BitVec.add_assoc]
  · rw [points, acc.writeNodeReqPoints_eq, moved, List.map_append, List.sum_append,
      BitVec.ofNat_add, BitVec.add_assoc]

/-- Every `SendWrite`, whatever its collaborators answer, keeps the accounting. -/
theorem Accounted.sendWrite (acc : Accounted parsePoints q0 s0 appended q s)
    (env : SendEnv Point) (nodeID : UInt64) :
    Accounted parsePoints q0 s0 appended (sendWrite parsePoints env nodeID q s).2.1
      (sendWrite parsePoints env nodeID q s).2.2 := by
  unfold Chronus.HH.sendWrite
  split
  · exact acc
  · exact acc
  · cases found : q.current with
    | none => exact acc
    | some buf =>
      dsimp only
      split
      · rename_i err undecoded
        have bad : decodes parsePoints buf = false := by simp [decodes, undecoded]
        exact acc.advance found (by simp [bad]) (by simp [bad])
      · rename_i shardID points decoded
        have good : decodes parsePoints buf = true := by simp [decodes, decoded]
        have count : framePoints parsePoints buf = points.length := by
          simp [framePoints, decoded]
        split
        · exact acc.counters rfl rfl
        · exact acc.advance found (by simp [good]) (by simp [good, count])

end Accounting

/-! ## Runs of an open processor -/

section Traffic

variable {Point : Type} (pointString : Point → String)
  (parsePoints : List UInt8 → Except String (List Point))

/-- What an open processor meets: a `WriteShard` call, with the queue's answer to `Append`, or
a pass of the send loop, with the gate's decision, the delay it starts from and the answers of
`SendWrite`'s collaborators. -/
inductive Traffic (Point : Type)
  | writeShard (append : Option String) (shardID : UInt64) (points : List Point)
  | send (admitted : Bool) (curDelay : Duration) (env : SendEnv Point)

/-- The frames a call appends to the queue. -/
def Traffic.frames : Traffic Point → List Frame
  | .writeShard none shardID points => [marshalWrite pointString shardID points]
  | _ => []

/-- The points a call hands `WriteShard`; a pass of the send loop hands none. -/
def Traffic.points : Traffic Point → Nat
  | .writeShard _ _ points => points.length
  | .send .. => 0

/-- The processor after a call: `WriteShard`, or, while `run` is running, one pass of
`sendingLoop` on the queue. -/
def NodeProcessor.serve (n : NodeProcessor) : Traffic Point → NodeProcessor
  | .writeShard append shardID points => (n.writeShard pointString append shardID points).2
  | .send admitted curDelay env =>
    match n.running, n.queue with
    | true, some q =>
      let next := sendingLoop parsePoints n.config env admitted curDelay q n.stats
      { n with queue := some next.2.2.1, stats := next.2.2.2 }
    | _, _ => n

@[simp] theorem NodeProcessor.writeShard_done (append : Option String) (shardID : UInt64)
    (points : List Point) (n : NodeProcessor) :
    (n.writeShard pointString append shardID points).2.done = n.done := by
  unfold NodeProcessor.writeShard
  split
  · rfl
  · dsimp only
    split
    · rfl
    · split <;> rfl

@[simp] theorem NodeProcessor.serve_done (n : NodeProcessor) (call : Traffic Point) :
    (n.serve pointString parsePoints call).done = n.done := by
  cases call with
  | writeShard append shardID points => exact n.writeShard_done pointString append shardID points
  | send admitted curDelay env =>
    simp only [NodeProcessor.serve]
    split <;> rfl

/-- The queue and statistics of a pass of the send loop are those of `SendWrite`, or unchanged
when the gate turns it away. -/
theorem sendingLoop_queue_stats (cfg : Config) (env : SendEnv Point) (admitted : Bool)
    (curDelay : Duration) (q : Queue) (stats : Statistics) :
    (sendingLoop parsePoints cfg env admitted curDelay q stats).2.2 =
      if admitted then (sendWrite parsePoints env cfg.nodeID q stats).2 else (q, stats) := by
  unfold sendingLoop
  cases admitted <;> rfl

variable {parsePoints} {q0 : Queue} {s0 : Statistics}

theorem Accounted.serve {n : NodeProcessor} {q : Queue} {appended : List Frame}
    (opened : n.done = true) (found : n.queue = some q)
    (acc : Accounted parsePoints q0 s0 appended q n.stats) (call : Traffic Point) :
    ∃ q', (n.serve pointString parsePoints call).queue = some q' ∧
      Accounted parsePoints q0 s0 (appended ++ call.frames pointString) q'
        (n.serve pointString parsePoints call).stats := by
  cases call with
  | writeShard append shardID points =>
    cases append with
    | none =>
      refine ⟨q.append (marshalWrite pointString shardID points), ?_,
        (acc.append _).counters ?_ ?_⟩ <;>
        simp [NodeProcessor.serve, NodeProcessor.writeShard, opened, found]
    | some err =>
      simp only [Traffic.frames, List.append_nil]
      refine ⟨q, ?_, acc.counters ?_ ?_⟩ <;>
        simp [NodeProcessor.serve, NodeProcessor.writeShard, opened, found]
  | send admitted curDelay env =>
    simp only [NodeProcessor.serve, found, Traffic.frames, List.append_nil]
    cases n.running
    · exact ⟨q, found, acc⟩
    · refine ⟨_, rfl, ?_⟩
      rw [sendingLoop_queue_stats]
      cases admitted
      · exact acc
      · exact acc.sendWrite env n.config.nodeID

/-- Along any sequence of calls on an open processor, the accounting holds. -/
theorem Accounted.run (calls : List (Traffic Point)) :
    ∀ {n : NodeProcessor} {q : Queue} {appended : List Frame}, n.done = true →
      n.queue = some q → Accounted parsePoints q0 s0 appended q n.stats →
      ∃ q', (calls.foldl (NodeProcessor.serve pointString parsePoints) n).queue = some q' ∧
        Accounted parsePoints q0 s0 (appended ++ calls.flatMap (Traffic.frames pointString)) q'
          (calls.foldl (NodeProcessor.serve pointString parsePoints) n).stats := by
  induction calls with
  | nil => exact fun _ found acc => ⟨_, found, by simpa using acc⟩
  | cons call rest ih =>
    intro n q appended opened found acc
    obtain ⟨q', found', acc'⟩ := acc.serve pointString opened found call
    have opened' : (n.serve pointString parsePoints call).done = true := by simpa using opened
    simpa using ih opened' found' acc'

/-- Along any sequence of `WriteShard` calls and passes of the send loop on an open processor,
whatever the queue, the gate, the meta client and the writer answer, the queue holds its first
frames followed by the encoded writes whose `Append` succeeded, in call order, and
`WriteNodeReq` and `WriteNodeReqPoints` grew by the number and the points of the decodable
frames the head moved past. -/
theorem NodeProcessor.serve_accounting (calls : List (Traffic Point)) {n : NodeProcessor}
    (opened : n.done = true) (found : n.queue = some q0)
    (head : q0.head ≤ q0.frames.length) :
    ∃ q, (calls.foldl (NodeProcessor.serve pointString parsePoints) n).queue = some q ∧
      Accounted parsePoints q0 n.stats (calls.flatMap (Traffic.frames pointString)) q
        (calls.foldl (NodeProcessor.serve pointString parsePoints) n).stats := by
  simpa using Accounted.run pointString calls opened found (Accounted.init parsePoints head n.stats)

/-- On an open processor a `WriteShard` adds its points to `WriteShardReqPoints`, whether its
`Append` succeeds or not, and a pass of the send loop adds none. -/
theorem NodeProcessor.serve_writeShardReqPoints {n : NodeProcessor} (opened : n.done = true)
    (call : Traffic Point) :
    (n.serve pointString parsePoints call).stats.writeShardReqPoints =
      n.stats.writeShardReqPoints + BitVec.ofNat 64 call.points := by
  cases call with
  | writeShard append shardID points =>
    simp only [NodeProcessor.serve, NodeProcessor.writeShard, opened, Traffic.points,
      Bool.not_true, Bool.false_eq_true, ite_false]
    cases n.queue <;> cases append <;> rfl
  | send admitted curDelay env =>
    simp only [NodeProcessor.serve, Traffic.points, BitVec.ofNat_eq_ofNat, BitVec.add_zero]
    split
    · rw [sendingLoop_queue_stats]
      cases admitted
      · rfl
      · exact sendWrite_writeShardReqPoints parsePoints env n.config.nodeID _ n.stats
    · rfl

theorem NodeProcessor.serve_run_writeShardReqPoints (calls : List (Traffic Point)) :
    ∀ {n : NodeProcessor}, n.done = true →
      (calls.foldl (NodeProcessor.serve pointString parsePoints) n).stats.writeShardReqPoints =
        n.stats.writeShardReqPoints + BitVec.ofNat 64 (calls.map Traffic.points).sum := by
  induction calls with
  | nil => intro n _; simp
  | cons call rest ih =>
    intro n opened
    have opened' : (n.serve pointString parsePoints call).done = true := by simpa using opened
    rw [List.foldl_cons, ih opened', n.serve_writeShardReqPoints pointString opened,
      List.map_cons, List.sum_cons, BitVec.ofNat_add, BitVec.add_assoc]

/-- Along any sequence of `WriteShard` calls and passes of the send loop on an open processor,
whatever the queue, the gate, the meta client and the writer answer, `Statistics` exports under
`writeNodeReqPoints` the `int64` sum of `WriteShardReqPoints` and of the points handed to
`WriteShard`: the value counts requests, and no delivery ever changes it. -/
theorem NodeProcessor.serve_statistics_writeNodeReqPoints (calls : List (Traffic Point))
    {n : NodeProcessor} (opened : n.done = true) (tags : String → Option String) :
    ((calls.foldl (NodeProcessor.serve pointString parsePoints) n).statistics tags).2.2
        .writeNodeReqPoints =
      (n.stats.writeShardReqPoints + BitVec.ofNat 64 (calls.map Traffic.points).sum).toInt :=
  congrArg BitVec.toInt (NodeProcessor.serve_run_writeShardReqPoints pointString
    calls opened)

/-! ## Points handed in and points delivered -/

/-- An `int64` counter that has not wrapped reads as its value plus what was added. -/
theorem toInt_add_ofNat {x : BitVec 64} {d : Nat} (fits : x.toNat + d < 2 ^ 63) :
    (x + BitVec.ofNat 64 d).toInt = x.toNat + d := by
  have lt : x.toNat + d < 2 ^ 64 := by omega
  have sum : (x + BitVec.ofNat 64 d).toNat = x.toNat + d := by
    rw [BitVec.toNat_add, BitVec.toNat_ofNat, Nat.add_mod_mod, Nat.mod_eq_of_lt lt]
  rw [BitVec.toInt_eq_toNat_cond, sum, if_pos (by omega), Nat.cast_add]

section Counted

variable {pointString}
  (roundTrip : ∀ points, parsePoints (pointsText pointString points) = .ok points)
include roundTrip

/-- With a parser that reads back every list of points, a frame `WriteShard` appends counts
its points. -/
theorem framePoints_marshalWrite (shardID : UInt64) (points : List Point) :
    framePoints parsePoints (marshalWrite pointString shardID points) = points.length := by
  simp [framePoints, marshalWrite_round_trip _ _ _ _ (roundTrip points)]

/-- The frames a call appends carry at most the points it hands `WriteShard`. -/
theorem Traffic.framePoints_le (call : Traffic Point) :
    ((call.frames pointString).map (framePoints parsePoints)).sum ≤ call.points := by
  cases call with
  | writeShard append shardID points =>
    cases append
    · simp [Traffic.frames, Traffic.points, framePoints_marshalWrite roundTrip]
    · simp [Traffic.frames]
  | send => simp [Traffic.frames]

theorem flatMap_framePoints_le (calls : List (Traffic Point)) :
    ((calls.flatMap (Traffic.frames pointString)).map (framePoints parsePoints)).sum ≤
      (calls.map Traffic.points).sum := by
  induction calls with
  | nil => simp
  | cons call rest ih =>
    simp only [List.flatMap_cons, List.map_append, List.sum_append, List.map_cons, List.sum_cons]
    have := call.framePoints_le roundTrip
    omega

end Counted

/-- Along any sequence of `WriteShard` calls and passes of the send loop on an open processor,
whatever the queue, the gate, the meta client and the writer answer, `WriteNodeReqPoints` stays
at most `WriteShardReqPoints`, provided the parser reads back every list of points `WriteShard`
writes, the counters stay below the `int64` limit, and at the start the points delivered and
those of the frames the queue still held were at most the points handed to `WriteShard`. -/
theorem NodeProcessor.serve_writeNodeReqPoints_le (calls : List (Traffic Point))
    {n : NodeProcessor} {q0 : Queue} (opened : n.done = true) (found : n.queue = some q0)
    (head : q0.head ≤ q0.frames.length)
    (roundTrip : ∀ points, parsePoints (pointsText pointString points) = .ok points)
    (counted : n.stats.writeNodeReqPoints.toNat +
      ((q0.frames.drop q0.head).map (framePoints parsePoints)).sum ≤
        n.stats.writeShardReqPoints.toNat)
    (small : n.stats.writeShardReqPoints.toNat + (calls.map Traffic.points).sum < 2 ^ 63) :
    (calls.foldl (NodeProcessor.serve pointString parsePoints) n).stats.writeNodeReqPoints.toInt ≤
      (calls.foldl (NodeProcessor.serve pointString parsePoints) n).stats.writeShardReqPoints.toInt := by
  obtain ⟨q, -, acc⟩ :=
    @NodeProcessor.serve_accounting _ pointString parsePoints _ calls _ opened found head
  have delivered := delivered_sum_le parsePoints acc.frames_eq head
  have appended := flatMap_framePoints_le roundTrip calls
  rw [acc.writeNodeReqPoints_eq, NodeProcessor.serve_run_writeShardReqPoints pointString calls
    opened, toInt_add_ofNat (by omega), toInt_add_ofNat small]
  omega

/-! ## Whole calls as runs of the interleaved model -/

end Traffic

/-- An open processor with an empty queue takes one write and delivers it. -/
theorem NodeProcessor.serve_accounting_write_then_send :
    let n : NodeProcessor := { newNodeProcessor 2 "hh/2" 1024 3600 with
      done := true, queue := some ⟨[], 0, true⟩, running := true }
    let env : SendEnv Unit := ⟨some ⟨2, "", "", false⟩, none, fun _ _ _ => none⟩
    let calls : List (Traffic Unit) := [.writeShard none 7 [()], .send true 1000000000 env]
    (n.done = true ∧ n.queue = some ⟨[], 0, true⟩ ∧ 0 ≤ ([] : List Frame).length) ∧
      ∃ q, (calls.foldl (NodeProcessor.serve (fun _ => "cpu value=1") fun _ => .ok [()])
          n).queue = some q ∧
        Accounted (fun _ => .ok [()]) ⟨[], 0, true⟩ n.stats
          (calls.flatMap (Traffic.frames fun _ => "cpu value=1")) q
          (calls.foldl (NodeProcessor.serve (fun _ => "cpu value=1") fun _ => .ok [()])
            n).stats := by
  intro n env calls
  exact ⟨⟨rfl, rfl, le_rfl⟩, NodeProcessor.serve_accounting _ calls rfl rfl le_rfl⟩

/-- An open processor whose queue holds a frame from an earlier run takes a write of one point,
then delivers the stored frame. -/
theorem NodeProcessor.serve_statistics_writeNodeReqPoints_stored :
    let n : NodeProcessor := { newNodeProcessor 2 "hh/2" 1024 3600 with
      done := true, queue := some ⟨[putUint64 7 ++ [0]], 0, true⟩, running := true }
    let env : SendEnv Unit := ⟨some ⟨2, "", "", false⟩, none, fun _ _ _ => none⟩
    let calls : List (Traffic Unit) := [.writeShard none 8 [()], .send true 1000000000 env]
    n.done = true ∧
      ((calls.foldl (NodeProcessor.serve (fun _ => "cpu value=1") fun _ => .ok [(), ()])
          n).statistics fun _ => none).2.2 .writeNodeReqPoints =
        (n.stats.writeShardReqPoints + BitVec.ofNat 64 (calls.map Traffic.points).sum).toInt := by
  intro n env calls
  exact ⟨rfl, NodeProcessor.serve_statistics_writeNodeReqPoints _ calls rfl _⟩

/-- An open processor on an empty queue takes a write of two points and delivers it, under a
parser that reads one point per byte after the shard ID, where every point's text is empty. -/
theorem NodeProcessor.serve_writeNodeReqPoints_le_write_then_send :
    let n : NodeProcessor := { newNodeProcessor 2 "hh/2" 1024 3600 with
      done := true, queue := some ⟨[], 0, true⟩, running := true }
    let parse := fun b : List UInt8 =>
      (Except.ok (List.replicate b.length ()) : Except String (List Unit))
    let env : SendEnv Unit := ⟨some ⟨2, "", "", false⟩, none, fun _ _ _ => none⟩
    let calls : List (Traffic Unit) := [.writeShard none 7 [(), ()], .send true 1000000000 env]
    (n.done = true ∧ n.queue = some ⟨[], 0, true⟩ ∧ 0 ≤ ([] : List Frame).length ∧
      (∀ points, parse (pointsText (fun _ => "") points) = .ok points) ∧
      n.stats.writeNodeReqPoints.toNat + ((([] : List Frame).drop 0).map (framePoints parse)).sum ≤
        n.stats.writeShardReqPoints.toNat ∧
      n.stats.writeShardReqPoints.toNat + (calls.map Traffic.points).sum < 2 ^ 63) ∧
    (calls.foldl (NodeProcessor.serve (fun _ => "") parse) n).stats.writeNodeReqPoints.toInt ≤
      (calls.foldl (NodeProcessor.serve (fun _ => "") parse) n).stats.writeShardReqPoints.toInt := by
  intro n parse env calls
  have roundTrip : ∀ points, parse (pointsText (fun _ => "") points) = .ok points := by
    intro points
    simp only [parse, pointsText, List.length_flatMap]
    have one : (List.length ∘ fun _ : Unit => "".toUTF8.data.toList ++ [10]) = fun _ => 1 := rfl
    rw [one, List.map_const', List.sum_replicate, smul_eq_mul, mul_one,
      (List.eq_replicate_iff.mpr ⟨rfl, fun _ _ => rfl⟩ : points = List.replicate points.length ()),
      List.length_replicate]
  have counted : n.stats.writeNodeReqPoints.toNat +
      ((([] : List Frame).drop 0).map (framePoints parse)).sum ≤ n.stats.writeShardReqPoints.toNat :=
    le_rfl
  have small : n.stats.writeShardReqPoints.toNat + (calls.map Traffic.points).sum < 2 ^ 63 := by
    decide
  exact ⟨⟨rfl, rfl, le_rfl, roundTrip, counted, small⟩,
    NodeProcessor.serve_writeNodeReqPoints_le _ calls rfl rfl le_rfl roundTrip counted small⟩

end Chronus.HH
