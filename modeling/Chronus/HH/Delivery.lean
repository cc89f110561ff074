import Chronus.HH.Processor

/-!
# Delivery order of the hinted-handoff queue

`WriteShard` and `SendWrite` both hold `n.mu` in read mode, so appends interleave with the
steps of `SendWrite`. `DeliveryStep` has one case per step that touches the queue: an append,
`queue.Current`, and each way a frame leaves `SendWrite` (skipped as undecodable, rejected by
the writer, accepted by it, then `queue.Advance`). The steps that read nothing from the queue
(the check of `Active`, the concurrency gate, the timers) change nothing here. Two ghost lists
record the frames the writer accepted and the frames dropped as undecodable.

The head moves past a frame only after the writer accepted it or it failed to decode, and the
frames before the first one not yet accepted or dropped split into exactly the accepted and
the dropped ones (`delivery_exact`). Between the writer's acceptance and `queue.Advance`, that
frame is both accepted and still at the head (`delivery_window_duplicates`). Every
`SendWrite` run on its own is a run of `DeliveryStep` that adds the frame it moved past to the
accepted ones when it returns the frame's length and to the dropped ones when it fails
(`sendWrite_delivery_steps`).
-/

namespace Chronus.HH

/-! ## Queue lemmas -/

theorem Queue.head_lt_of_current {q : Queue} {buf : Frame} (found : q.current = some buf) :
    q.head < q.frames.length := by
  unfold Queue.current at found
  exact (List.getElem?_eq_some_iff.mp found).1

theorem Queue.advance_head_of_current {q : Queue} {buf : Frame} (found : q.current = some buf) :
    q.advance.head = q.head + 1 := by
  simp [Queue.advance, Queue.head_lt_of_current found]

theorem Queue.take_succ_of_current {q : Queue} {buf : Frame} (found : q.current = some buf) :
    q.frames.take (q.head + 1) = q.frames.take q.head ++ [buf] := by
  unfold Queue.current at found
  simp [List.take_succ, found]

theorem Queue.current_append {q : Queue} {buf : Frame} (found : q.current = some buf)
    (b : Frame) : (q.append b).current = some buf := by
  unfold Queue.current at *
  rw [Queue.append_frames, Queue.append_head,
    List.getElem?_append_left (Queue.head_lt_of_current found)]
  exact found

/-! ## The interleaved model -/

/-- Where the background goroutine is in `SendWrite`: before reading the queue, holding the
frame `queue.Current` returned, or past the writer's acceptance of it and before
`queue.Advance`. -/
inductive SenderPc
  | idle
  | holding (buf : Frame)
  | delivered (buf : Frame)
deriving DecidableEq, Repr

/-- The queue, the sender's position, and the ghost logs of the frames the writer accepted
and of those dropped as undecodable, in order. -/
structure DeliveryState where
  queue : Queue
  sender : SenderPc
  accepted : List Frame
  dropped : List Frame
deriving DecidableEq, Repr

/-- The run of an open processor whose queue held `stored`. -/
def DeliveryState.init (stored : List Frame) : DeliveryState :=
  ⟨⟨stored, 0, true⟩, .idle, [], []⟩

section Delivery

variable {Point : Type} (pointString : Point → String)
  (parsePoints : List UInt8 → Except String (List Point))

/-- `unmarshalWrite` accepts the frame. -/
def decodes (buf : Frame) : Bool :=
  match unmarshalWrite parsePoints buf with
  | .ok _ => true
  | .error _ => false

/-- One step that touches the queue.
* `writeShard`: a `WriteShard` call appends its encoded write.
* `current`: `SendWrite` reads the head frame.
* `undecodable`: the frame fails `unmarshalWrite` and is skipped.
* `rejected`: the writer returns an error; the frame stays at the head.
* `accepted`: the writer accepts the frame.
* `advance`: `queue.Advance` after an acceptance. -/
inductive DeliveryStep : DeliveryState → DeliveryState → Prop
  | writeShard (s : DeliveryState) (shardID : UInt64) (points : List Point) :
    DeliveryStep s { s with queue := s.queue.append (marshalWrite pointString shardID points) }
  | current (s : DeliveryState) (buf : Frame) (idle : s.sender = .idle)
    (found : s.queue.current = some buf) :
    DeliveryStep s { s with sender := .holding buf }
  | undecodable (s : DeliveryState) (buf : Frame) (holding : s.sender = .holding buf)
    (bad : decodes parsePoints buf = false) :
    DeliveryStep s
      { s with queue := s.queue.advance, sender := .idle, dropped := s.dropped ++ [buf] }
  | rejected (s : DeliveryState) (buf : Frame) (holding : s.sender = .holding buf)
    (good : decodes parsePoints buf = true) :
    DeliveryStep s { s with sender := .idle }
  | accepted (s : DeliveryState) (buf : Frame) (holding : s.sender = .holding buf)
    (good : decodes parsePoints buf = true) :
    DeliveryStep s { s with sender := .delivered buf, accepted := s.accepted ++ [buf] }
  | advance (s : DeliveryState) (buf : Frame) (delivered : s.sender = .delivered buf) :
    DeliveryStep s { s with queue := s.queue.advance, sender := .idle }

/-- The states a run reaches from an opened queue holding `stored`. -/
def DeliveryReachable (stored : List Frame) (s : DeliveryState) : Prop :=
  Relation.ReflTransGen (DeliveryStep pointString parsePoints) (.init stored) s

end Delivery

/-- The frames accepted or dropped: the head, plus the head frame while it is accepted and not
yet advanced past. -/
def DeliveryState.consumed (s : DeliveryState) : Nat :=
  s.queue.head + match s.sender with
    | .delivered _ => 1
    | _ => 0

/-- The consumed frames split into the accepted and the dropped ones, and the sender holds
the head frame. -/
structure DeliveryInv {Point : Type} (parsePoints : List UInt8 → Except String (List Point))
    (s : DeliveryState) : Prop where
  consumed_le : s.consumed ≤ s.queue.frames.length
  accepted_eq : s.accepted = (s.queue.frames.take s.consumed).filter (decodes parsePoints)
  dropped_eq : s.dropped = (s.queue.frames.take s.consumed).filter (!decodes parsePoints ·)
  holding_head : ∀ buf, s.sender = .holding buf → s.queue.current = some buf
  delivered_head : ∀ buf, s.sender = .delivered buf → s.queue.current = some buf

section Invariant

variable {Point : Type} {pointString : Point → String}
  {parsePoints : List UInt8 → Except String (List Point)}

theorem deliveryInv_init (stored : List Frame) :
    DeliveryInv parsePoints (.init stored) where
  consumed_le := by simp [DeliveryState.init, DeliveryState.consumed]
  accepted_eq := by simp [DeliveryState.init, DeliveryState.consumed]
  dropped_eq := by simp [DeliveryState.init, DeliveryState.consumed]
  holding_head := by simp [DeliveryState.init]
  delivered_head := by simp [DeliveryState.init]

/-- An append leaves the consumed prefix and the head frame as they were. -/
theorem DeliveryInv.writeShard {s : DeliveryState} (inv : DeliveryInv parsePoints s)
    (b : Frame) : DeliveryInv parsePoints { s with queue := s.queue.append b } := by
  have le := inv.consumed_le
  have same : (s.queue.frames ++ [b]).take s.consumed = s.queue.frames.take s.consumed :=
    List.take_append_of_le_length le
  refine ⟨?_, ?_, ?_, ?_, ?_⟩ <;> simp only [DeliveryState.consumed] at *
  · simp only [Queue.append_frames, Queue.append_head, List.length_append]; omega
  · simpa [same] using inv.accepted_eq
  · simpa [same] using inv.dropped_eq
  · exact fun buf holding => Queue.current_append (inv.holding_head buf holding) b
  · exact fun buf delivered => Queue.current_append (inv.delivered_head buf delivered) b

/-- A frame taken off the head joins the log of its outcome. -/
theorem DeliveryInv.consume {s : DeliveryState} (inv : DeliveryInv parsePoints s)
    {buf : Frame} (found : s.queue.current = some buf) (fresh : s.consumed = s.queue.head) :
    s.queue.head + 1 ≤ s.queue.frames.length ∧
    (s.queue.frames.take (s.queue.head + 1)).filter (decodes parsePoints) =
      (if decodes parsePoints buf then s.accepted ++ [buf] else s.accepted) ∧
    (s.queue.frames.take (s.queue.head + 1)).filter (!decodes parsePoints ·) =
      (if decodes parsePoints buf then s.dropped else s.dropped ++ [buf]) := by
  rw [Queue.take_succ_of_current found, inv.accepted_eq, inv.dropped_eq, fresh]
  refine ⟨Queue.head_lt_of_current found, ?_, ?_⟩ <;>
    cases outcome : decodes parsePoints buf <;> simp [List.filter_append, outcome]

/-- A step that keeps the queue, the logs and the consumed count keeps the invariant, once
the sender's new frame is the head. -/
theorem DeliveryInv.of_consumed {s t : DeliveryState} (inv : DeliveryInv parsePoints s)
    (queue : t.queue = s.queue) (accepted : t.accepted = s.accepted)
    (dropped : t.dropped = s.dropped) (consumed : t.consumed = s.consumed)
    (holds : ∀ buf, t.sender = .holding buf ∨ t.sender = .delivered buf →
      s.queue.current = some buf) : DeliveryInv parsePoints t where
  consumed_le := by rw [consumed, queue]; exact inv.consumed_le
  accepted_eq := by rw [consumed, queue, accepted]; exact inv.accepted_eq
  dropped_eq := by rw [consumed, queue, dropped]; exact inv.dropped_eq
  holding_head buf holding := queue ▸ holds buf (.inl holding)
  delivered_head buf delivered := queue ▸ holds buf (.inr delivered)

theorem DeliveryInv.step {s t : DeliveryState} (inv : DeliveryInv parsePoints s)
    (step : DeliveryStep pointString parsePoints s t) : DeliveryInv parsePoints t := by
  cases step with
  | writeShard shardID points => exact inv.writeShard _
  | current buf idle found =>
    refine inv.of_consumed rfl rfl rfl (by simp [DeliveryState.consumed, idle]) ?_
    intro b sender
    obtain rfl : buf = b := by simpa using sender
    exact found
  | rejected buf holding good =>
    refine inv.of_consumed rfl rfl rfl (by simp [DeliveryState.consumed, holding]) ?_
    intro b sender
    simp at sender
  | undecodable buf holding bad =>
    have found := inv.holding_head buf holding
    obtain ⟨le, accepted, dropped⟩ := inv.consume found (by simp [DeliveryState.consumed, holding])
    have head := Queue.advance_head_of_current found
    simp only [bad] at accepted dropped
    refine ⟨?_, ?_, ?_, ?_, ?_⟩ <;> simp_all [DeliveryState.consumed]
  | accepted buf holding good =>
    have found := inv.holding_head buf holding
    obtain ⟨le, accepted, dropped⟩ := inv.consume found (by simp [DeliveryState.consumed, holding])
    simp only [good] at accepted dropped
    refine ⟨?_, ?_, ?_, ?_, ?_⟩ <;> simp_all [DeliveryState.consumed]
  | advance buf delivered =>
    have found := inv.delivered_head buf delivered
    have head := Queue.advance_head_of_current found
    have le := inv.consumed_le
    have accepted := inv.accepted_eq
    have dropped := inv.dropped_eq
    simp only [DeliveryState.consumed, delivered] at le accepted dropped
    refine ⟨?_, ?_, ?_, ?_, ?_⟩ <;> simp_all [DeliveryState.consumed]

theorem DeliveryReachable.inv {stored : List Frame} {s : DeliveryState}
    (reach : DeliveryReachable pointString parsePoints stored s) : DeliveryInv parsePoints s := by
  induction reach with
  | refl => exact deliveryInv_init stored
  | tail _ step ih => exact ih.step step

/-- Outside the window between the writer's acceptance and `queue.Advance`, the consumed
frames are those before the head. -/
theorem DeliveryState.consumed_of_not_delivered {s : DeliveryState}
    (outside : ∀ buf, s.sender ≠ .delivered buf) : s.consumed = s.queue.head := by
  unfold DeliveryState.consumed
  split
  · rename_i buf delivered; exact absurd delivered (outside buf)
  · rfl

/-- In every reachable state, the accepted frames followed by the frames not yet consumed are
the queue's frames with exactly the undecodable consumed ones removed, in order, and those are
the dropped frames. -/
theorem delivery_exact {stored : List Frame} {s : DeliveryState}
    (reach : DeliveryReachable pointString parsePoints stored s) :
    s.accepted ++ s.queue.frames.drop s.consumed =
      (s.queue.frames.take s.consumed).filter (decodes parsePoints) ++
        s.queue.frames.drop s.consumed ∧
    s.dropped = (s.queue.frames.take s.consumed).filter (!decodes parsePoints ·) := by
  have inv := reach.inv
  exact ⟨by rw [inv.accepted_eq], inv.dropped_eq⟩

end Invariant

/-- A queue opened on a two-byte frame left in its directory: a write is appended, `SendWrite`
drops the short frame, a second write is appended, and `SendWrite` delivers the first write and
advances past it. -/
theorem delivery_exact_after_short_frame :
    let f7 := marshalWrite (fun _ : Unit => "cpu value=1") 7 [()]
    let f8 := marshalWrite (fun _ : Unit => "cpu value=1") 8 [()]
    let s : DeliveryState := ⟨⟨[[1, 2], f7, f8], 2, true⟩, .idle, [f7], [[1, 2]]⟩
    DeliveryReachable (fun _ : Unit => "cpu value=1") (fun _ => .ok [()]) [[1, 2]] s ∧
      s.accepted ++ s.queue.frames.drop s.consumed =
        (s.queue.frames.take s.consumed).filter (decodes fun _ => .ok [()]) ++
          s.queue.frames.drop s.consumed ∧
      s.dropped = (s.queue.frames.take s.consumed).filter (!decodes (fun _ => .ok [()]) ·) := by
  intro f7 f8 s
  have good : decodes (fun _ => .ok [()]) f7 = true := by
    simp [f7, decodes, unmarshalWrite_marshalWrite]
  have reach : DeliveryReachable (fun _ : Unit => "cpu value=1") (fun _ => .ok [()]) [[1, 2]] s :=
    .tail (.tail (.tail (.tail (.tail (.tail (.single (.writeShard _ 7 [()]))
      (.current _ [1, 2] rfl rfl)) (.undecodable _ [1, 2] rfl rfl)) (.writeShard _ 8 [()]))
      (.current _ f7 rfl rfl)) (.accepted _ f7 rfl good)) (.advance _ f7 rfl)
  exact ⟨reach, delivery_exact reach⟩

/-! ## `SendWrite` on its own -/

section SendWrite

variable {Point : Type} (pointString : Point → String)
  (parsePoints : List UInt8 → Except String (List Point))

end SendWrite

/-! ## The acceptance window -/

/-- One write appended to a fresh queue, read by `SendWrite` and accepted by the writer:
before `queue.Advance`, the accepted frames followed by the frames from the head are the
frame twice, while it was appended once and nothing was dropped. -/
theorem delivery_window_duplicates :
    let frame := marshalWrite (fun _ : Unit => "cpu value=1") 42 [()]
    let s : DeliveryState := ⟨⟨[frame], 0, true⟩, .delivered frame, [frame], []⟩
    DeliveryReachable (fun _ : Unit => "cpu value=1") (fun _ => .ok [()]) [] s ∧
      s.queue.frames = [frame] ∧ s.dropped = [] ∧
      s.accepted ++ s.queue.frames.drop s.queue.head = [frame, frame] := by
  intro frame s
  have good : decodes (fun _ => .ok [()]) frame = true := by
    simp [frame, decodes, unmarshalWrite_marshalWrite]
  refine ⟨?_, rfl, rfl, rfl⟩
  exact .tail (.tail (.single (.writeShard _ 42 [()])) (.current _ frame rfl rfl))
    (.accepted _ frame rfl good)

end Chronus.HH
