import Chronus.Meta.Client

/-!
# Concurrent shard group creation

`Client.CreateShardGroup` looks the timestamp up under the read lock and, on a miss, takes the
write lock, looks again on a fresh clone, creates the group and commits. `CreationStep` runs
any number of such calls for one database and policy, each fast path and each write section as
one step, interleaved in any order.

`Data.CreateShardGroup` places a new group on the window of the policy's current
`ShardGroupDuration` that holds the timestamp, and `ShardGroupByTimestamp` returns the first
live group in start order that covers it. When an existing group is not such a window (its
policy's duration has changed since), a new window can start before it and cover part of it:
a later lookup then finds the new group where an earlier call returned the old one
(`createShardGroup_overlap`). When every live group is a window of the current duration, no
two live groups overlap, and the calls agree: every group a call returns covers its timestamp
and stays the one every later lookup finds, every group added was returned by the call that
created it (`createShardGroup_concurrent`).
-/

namespace Chronus.Meta

/-- Where a `CreateShardGroup` call is: not started, past a fast path that found nothing and
waiting for the write lock, or returned. -/
inductive CreatePc
  | start
  | locking
  | returned (result : Except MetaError (Option ShardGroupInfo))

/-- The client, and each call's timestamp and position. -/
structure CreationState where
  client : Client
  calls : List (Time × CreatePc)

/-- The calls with timestamps `ts`, none of them started, on the client `c`. -/
def CreationState.init (c : Client) (ts : List Time) : CreationState :=
  ⟨c, ts.map fun t => (t, .start)⟩

section Creation

variable (hook : Hook) (database policy : String)

/-- One step of call `i`.
* `fastHit`: the read-locked lookup finds a group, which the call returns.
* `fastMiss`: it finds none; the call waits for the write lock.
* `locked`: the write-locked section, `Client.createShardGroupLocked`. -/
inductive CreationStep : CreationState → CreationState → Prop
  | fastHit (s : CreationState) (i : Nat) (t : Time) (sg : ShardGroupInfo)
    (pending : s.calls[i]? = some (t, .start))
    (hit : s.client.cacheData.shardGroupAt database policy t = some sg) :
    CreationStep s { s with calls := s.calls.set i (t, .returned (.ok (some sg))) }
  | fastMiss (s : CreationState) (i : Nat) (t : Time)
    (pending : s.calls[i]? = some (t, .start))
    (miss : s.client.cacheData.shardGroupAt database policy t = none) :
    CreationStep s { s with calls := s.calls.set i (t, .locking) }
  | locked (s : CreationState) (i : Nat) (t : Time) (locking : s.calls[i]? = some (t, .locking)) :
    CreationStep s
      ⟨(s.client.createShardGroupLocked hook database policy t).2,
        s.calls.set i (t, .returned (s.client.createShardGroupLocked hook database policy t).1)⟩

/-- The states the calls with timestamps `ts` reach from the client `c`. -/
def CreationReachable (c : Client) (ts : List Time) (s : CreationState) : Prop :=
  Relation.ReflTransGen (CreationStep hook database policy) (.init c ts) s

end Creation

/-! ## Windows of a positive duration -/

section Windows

variable {d : Int} (pos : 0 < d)
include pos

theorem truncate_of_pos (t : Int) : truncate t d = t - (t - zeroTime) % d := by
  simp [truncate, Int.not_le.mpr pos]

theorem truncate_le (t : Int) : truncate t d ≤ t := by
  have := Int.emod_nonneg (t - zeroTime) (Int.ne_of_gt pos)
  rw [truncate_of_pos pos]
  omega

theorem lt_truncate_add (t : Int) : t < truncate t d + d := by
  have := Int.emod_lt_of_pos (t - zeroTime) pos
  rw [truncate_of_pos pos]
  omega

/-- An aligned window `[s, s + d)` is the window `Time.Truncate` gives every time in it. -/
theorem truncate_of_window {s t : Int} (aligned : truncate s d = s) (low : s ≤ t)
    (high : t < s + d) : truncate t d = s := by
  rw [truncate_of_pos pos] at aligned ⊢
  obtain ⟨k, hk⟩ := Int.dvd_of_emod_eq_zero (show (s - zeroTime) % d = 0 by omega)
  have shifted : t - zeroTime = (t - s) + d * k := by omega
  rw [shifted, Int.add_mul_emod_self_left, Int.emod_eq_of_lt (by omega) (by omega)]
  omega

theorem truncate_truncate (t : Int) : truncate (truncate t d) d = truncate t d := by
  have low := truncate_le pos t
  have high := lt_truncate_add pos t
  refine truncate_of_window pos ?_ (Int.le_refl _) (by omega)
  rw [truncate_of_pos pos, truncate_of_pos pos]
  have split := Int.emod_add_ediv (t - zeroTime) d
  have multiple : t - (t - zeroTime) % d - zeroTime = d * ((t - zeroTime) / d) := by omega
  rw [multiple, Int.mul_emod_right]
  omega

end Windows

/-! ## Aligned policies -/

/-- Every live group is the window of `d` that holds its start, and no two live groups start
together. -/
structure AlignedGroups (groups : List ShardGroupInfo) (d : Duration) : Prop where
  window : ∀ g ∈ groups, g.deleted = false →
    truncate g.startTime d = g.startTime ∧ g.endTime = g.startTime + d
  distinct : ∀ g ∈ groups, ∀ g' ∈ groups, g.deleted = false → g'.deleted = false →
    g.startTime = g'.startTime → g = g'

/-- The group is live and covers `t`. -/
def ShardGroupInfo.Covers (g : ShardGroupInfo) (t : Time) : Prop :=
  g.deleted = false ∧ g.startTime ≤ t ∧ t < g.endTime

/-- The predicate `ShardGroupByTimestamp` looks for. -/
theorem ShardGroupInfo.covers_iff (g : ShardGroupInfo) (t : Time) :
    (g.contains t && !g.deleted) = true ↔ g.Covers t := by
  simp [ShardGroupInfo.contains, ShardGroupInfo.Covers, and_comm, and_assoc]

section Aligned

variable {groups : List ShardGroupInfo} {d : Duration} (al : AlignedGroups groups d)
  (pos : 0 < d)
include al pos

/-- A live group covering `t` is the window of `t`. -/
theorem AlignedGroups.start_eq {g : ShardGroupInfo} (mem : g ∈ groups) (live : g.deleted = false)
    {t : Time} (low : g.startTime ≤ t) (high : t < g.endTime) :
    g.startTime = truncate t d := by
  obtain ⟨aligned, width⟩ := al.window g mem live
  exact (truncate_of_window pos aligned low (width ▸ high)).symm

/-- At most one live group covers a time. -/
theorem AlignedGroups.unique {g g' : ShardGroupInfo} (mem : g ∈ groups) (mem' : g' ∈ groups)
    (live : g.deleted = false) (live' : g'.deleted = false) {t : Time}
    (low : g.startTime ≤ t) (high : t < g.endTime)
    (low' : g'.startTime ≤ t) (high' : t < g'.endTime) : g = g' :=
  al.distinct g mem g' mem' live live'
    ((al.start_eq pos mem live low high).trans (al.start_eq pos mem' live' low' high').symm)

/-- The lookup finds the live group that covers `t`, whatever its place in the list. -/
theorem AlignedGroups.find?_eq {g : ShardGroupInfo} (mem : g ∈ groups)
    (live : g.deleted = false) {t : Time} (low : g.startTime ≤ t) (high : t < g.endTime) :
    groups.find? (fun g => g.contains t && !g.deleted) = some g := by
  obtain ⟨g', found⟩ : ∃ g', groups.find? (fun g => g.contains t && !g.deleted) = some g' :=
    Option.isSome_iff_exists.mp
      (List.find?_isSome.mpr ⟨g, mem, (g.covers_iff t).mpr ⟨live, low, high⟩⟩)
  have covers := List.find?_some found
  obtain ⟨live', low', high'⟩ := (g'.covers_iff t).mp covers
  rw [found, al.unique pos (List.mem_of_find?_eq_some found) mem live' live low' high' low high]

/-- Inserting the window of `t` when no live group covers `t` keeps the groups aligned. -/
theorem AlignedGroups.insert {t : Time}
    (miss : ∀ g ∈ groups, g.deleted = false → g.startTime ≤ t → ¬ t < g.endTime)
    (new : ShardGroupInfo) (start : new.startTime = truncate t d)
    (width : new.endTime = new.startTime + d) (live : new.deleted = false)
    (r : ShardGroupInfo → ShardGroupInfo → Prop) [DecidableRel r] :
    AlignedGroups (groups.orderedInsert r new) d := by
  have mem_iff : ∀ x, x ∈ groups.orderedInsert r new ↔ x = new ∨ x ∈ groups := fun x =>
    (List.perm_orderedInsert r new groups).mem_iff.trans List.mem_cons
  have fresh : ∀ g ∈ groups, g.deleted = false → g.startTime ≠ new.startTime := by
    intro g mem glive same
    obtain ⟨_, gwidth⟩ := al.window g mem glive
    exact miss g mem glive (by rw [same, start]; exact truncate_le pos t)
      (by rw [gwidth, same, start]; exact lt_truncate_add pos t)
  constructor
  · intro g mem glive
    rcases (mem_iff g).mp mem with rfl | old
    · exact ⟨by rw [start, truncate_truncate pos], width⟩
    · exact al.window g old glive
  · intro g mem g' mem' glive glive' same
    rcases (mem_iff g).mp mem with rfl | old <;> rcases (mem_iff g').mp mem' with rfl | old'
    · rfl
    · exact absurd same.symm (fresh g' old' glive')
    · exact absurd same (fresh g old glive)
    · exact al.distinct g old g' old' glive glive' same

end Aligned

/-! ## `createShardGroup` on an aligned policy -/

theorem find?_modifyFirst {α : Type} (p : α → Bool) (f : α → α) (l : List α)
    (keeps : ∀ a, p (f a) = p a) : (modifyFirst p f l).find? p = (l.find? p).map f := by
  induction l with
  | nil => rfl
  | cons a as ih => by_cases h : p a <;> simp [modifyFirst, h, keeps, ih]

/-- The policy `Data.RetentionPolicy` finds is the one `modifyRetentionPolicy` changes. -/
theorem Data.retentionPolicy_modify {data : Data} {database policy : String}
    {rpi : RetentionPolicyInfo} (found : data.retentionPolicy database policy = .ok (some rpi))
    (f : RetentionPolicyInfo → RetentionPolicyInfo) (named : ∀ r, (f r).name = r.name) :
    (data.modifyRetentionPolicy database policy f).retentionPolicy database policy =
      .ok (some (f rpi)) := by
  unfold Data.retentionPolicy Data.database at *
  cases db : data.databases.find? (·.name == database) with
  | none => simp [db] at found
  | some dbi =>
    simp only [db, Except.ok.injEq] at found
    simp only [Data.modifyRetentionPolicy]
    rw [find?_modifyFirst, db]
    · simp only [Option.map_some']
      unfold DatabaseInfo.retentionPolicy at *
      rw [find?_modifyFirst, found]
      · rfl
      · intro r; simp [named]
    · intro; rfl

theorem Data.shardGroupAt_of_found {data : Data} {database policy : String}
    {rpi : RetentionPolicyInfo} (found : data.retentionPolicy database policy = .ok (some rpi))
    (t : Time) : data.shardGroupAt database policy t = rpi.shardGroupByTimestamp t := by
  simp [Data.shardGroupAt, Data.shardGroupByTimestamp, found]

theorem RetentionPolicyInfo.shardGroupByTimestamp_covers {rpi : RetentionPolicyInfo} {t : Time}
    {g : ShardGroupInfo} (found : rpi.shardGroupByTimestamp t = some g) :
    g ∈ rpi.shardGroups ∧ g.Covers t := by
  unfold RetentionPolicyInfo.shardGroupByTimestamp at found
  have covers := List.find?_some found
  exact ⟨List.mem_of_find?_eq_some found, (g.covers_iff t).mp covers⟩

theorem RetentionPolicyInfo.shardGroupByTimestamp_miss {rpi : RetentionPolicyInfo} {t : Time}
    (miss : rpi.shardGroupByTimestamp t = none) :
    ∀ g ∈ rpi.shardGroups, g.deleted = false → g.startTime ≤ t → ¬ t < g.endTime :=
  fun g mem live low high =>
    List.find?_eq_none.mp miss g mem ((g.covers_iff t).mpr ⟨live, low, high⟩)

/-- `Data.CreateShardGroup` with no live group covering `t` succeeds, and the policy it then
finds holds the new group in start order. -/
theorem Data.createShardGroup_of_miss {data : Data} {database policy : String}
    {rpi : RetentionPolicyInfo} (found : data.retentionPolicy database policy = .ok (some rpi))
    {t : Time} (miss : rpi.shardGroupByTimestamp t = none) :
    (data.createShardGroup database policy t).2 = none ∧
      (data.createShardGroup database policy t).1.retentionPolicy database policy =
        .ok (some { rpi with
          shardGroups := rpi.shardGroups.orderedInsert (fun a b => a.startTime < b.startTime)
            (data.newShardGroup rpi t) }) := by
  unfold Data.createShardGroup
  rw [found]
  simp only [miss, Option.isSome_none, Bool.false_eq_true, if_false, true_and]
  exact Data.retentionPolicy_modify found
    (fun rp => { rp with
      shardGroups := rp.shardGroups.orderedInsert (fun a b => a.startTime < b.startTime)
        (data.newShardGroup rp t) })
    (fun _ => rfl)

/-- With groups of a positive duration, the group `Data.CreateShardGroup` inserts for `t`
covers `t`, so the policy it leaves finds a group there. -/
theorem RetentionPolicyInfo.shardGroupByTimestamp_inserted (data : Data)
    {rp : RetentionPolicyInfo} (t : Time) (positive : 0 < rp.shardGroupDuration) :
    (RetentionPolicyInfo.shardGroupByTimestamp { rp with
      shardGroups := rp.shardGroups.orderedInsert (fun a b => a.startTime < b.startTime)
        (data.newShardGroup rp t) } t).isSome :=
  List.find?_isSome.mpr ⟨data.newShardGroup rp t,
    (List.perm_orderedInsert _ _ _).mem_iff.mpr (List.mem_cons_self _ _),
    (ShardGroupInfo.covers_iff _ t).mpr ⟨rfl, truncate_le positive t, lt_truncate_add positive t⟩⟩

/-- The policy, found, with groups of a positive duration `d`, aligned. -/
structure AlignedPolicy (data : Data) (database policy : String) (d : Duration)
    (rpi : RetentionPolicyInfo) : Prop where
  found : data.retentionPolicy database policy = .ok (some rpi)
  duration : rpi.shardGroupDuration = d
  pos : 0 < d
  aligned : AlignedGroups rpi.shardGroups d

/-- On an aligned policy with no live group covering `t`, `createShardGroup` adds the window
of `t` and returns it, and the policy stays aligned. -/
theorem createShardGroup_aligned {data : Data} {database policy : String} {d : Duration}
    {rpi : RetentionPolicyInfo} (al : AlignedPolicy data database policy d rpi) {t : Time}
    (miss : rpi.shardGroupByTimestamp t = none) :
    ∃ rpi', AlignedPolicy (createShardGroup data database policy t).1 database policy d rpi' ∧
      (createShardGroup data database policy t).2 = .ok (some (data.newShardGroup rpi t)) ∧
      (data.newShardGroup rpi t).Covers t ∧
      ∀ x, x ∈ rpi'.shardGroups ↔ x = data.newShardGroup rpi t ∨ x ∈ rpi.shardGroups := by
  obtain ⟨found, duration, pos, aligned⟩ := al
  let r := fun a b : ShardGroupInfo => a.startTime < b.startTime
  let new := data.newShardGroup rpi t
  let rpi' := { rpi with shardGroups := rpi.shardGroups.orderedInsert r new }
  have covers : new.Covers t := by
    refine ⟨rfl, ?_, ?_⟩ <;> simp only [new, Data.newShardGroup, duration]
    · exact truncate_le pos t
    · exact lt_truncate_add pos t
  have mem_iff : ∀ x, x ∈ rpi'.shardGroups ↔ x = new ∨ x ∈ rpi.shardGroups := fun x =>
    (List.perm_orderedInsert r new rpi.shardGroups).mem_iff.trans List.mem_cons
  have aligned' : AlignedGroups rpi'.shardGroups d :=
    aligned.insert pos (RetentionPolicyInfo.shardGroupByTimestamp_miss miss) new
      (by simp [new, Data.newShardGroup, duration]) (by simp [new, Data.newShardGroup, duration])
      rfl r
  obtain ⟨succeeded, found'⟩ := Data.createShardGroup_of_miss found miss
  have created : createShardGroup data database policy t =
      ((data.createShardGroup database policy t).1, .ok (rpi'.shardGroupByTimestamp t)) := by
    simp only [createShardGroup, Data.shardGroupAt_of_found found, miss, Option.isSome_none,
      Bool.false_eq_true, if_false]
    rw [show data.createShardGroup database policy t =
      ((data.createShardGroup database policy t).1, none) from Prod.ext rfl succeeded]
    simp only [found']
  have lookup : rpi'.shardGroupByTimestamp t = some new :=
    aligned'.find?_eq pos ((mem_iff new).mpr (.inl rfl)) covers.1 covers.2.1 covers.2.2
  rw [created, lookup]
  exact ⟨rpi', ⟨found', duration, pos, aligned'⟩, rfl, covers, mem_iff⟩

/-- `Index` is not part of the lookups. -/
theorem AlignedPolicy.bump {data : Data} {database policy : String} {d : Duration}
    {rpi : RetentionPolicyInfo} (al : AlignedPolicy data database policy d rpi) :
    AlignedPolicy data.bump database policy d rpi :=
  ⟨al.found, al.duration, al.pos, al.aligned⟩

/-- The write-locked section on an aligned policy: it fails and changes nothing, or returns a
live group of the policy that covers `t` and changes nothing, or commits the policy with the
window of `t` added and returns that window. -/
theorem Client.createShardGroupLocked_aligned (hook : Hook) {c : Client}
    {database policy : String} {d : Duration} {rpi : RetentionPolicyInfo}
    (al : AlignedPolicy c.cacheData database policy d rpi) (t : Time) :
    (∃ e, c.createShardGroupLocked hook database policy t = (.error e, c)) ∨
    (∃ g, c.createShardGroupLocked hook database policy t = (.ok (some g), c) ∧
      g ∈ rpi.shardGroups ∧ g.Covers t) ∨
    (∃ g rpi', (c.createShardGroupLocked hook database policy t).1 = .ok (some g) ∧
      AlignedPolicy (c.createShardGroupLocked hook database policy t).2.cacheData database policy
        d rpi' ∧ g.Covers t ∧ ∀ x, x ∈ rpi'.shardGroups ↔ x = g ∨ x ∈ rpi.shardGroups) := by
  unfold Client.createShardGroupLocked
  simp only [Data.clone_eq, Data.shardGroupAt_of_found al.found]
  cases hit : rpi.shardGroupByTimestamp t with
  | some sg => exact .inr (.inl ⟨sg, rfl, RetentionPolicyInfo.shardGroupByTimestamp_covers hit⟩)
  | none =>
    obtain ⟨rpi', al', result, covers, mem_iff⟩ := createShardGroup_aligned al hit
    simp only [result]
    unfold Client.commitThen
    rcases Client.commit_cases hook
        (Chronus.Meta.createShardGroup c.cacheData database policy t).1 c
      with ⟨e, failed⟩ | committed
    · rw [failed]; exact .inl ⟨e, rfl⟩
    · rw [committed]; exact .inr (.inr ⟨_, rpi', rfl, al'.bump, covers, mem_iff⟩)

/-! ## Runs of concurrent calls -/

/-- The calls' results so far are groups of `rpi` that cover their timestamps, and every group
of `rpi` was there at the start or was returned by a call. -/
structure CallsInv (groups0 : List ShardGroupInfo) (rpi : RetentionPolicyInfo)
    (calls : List (Time × CreatePc)) : Prop where
  results : ∀ (i : Nat) (t : Time) r, calls[i]? = some (t, .returned (.ok r)) →
    ∃ g, r = some g ∧ g ∈ rpi.shardGroups ∧ g.Covers t
  added : ∀ g ∈ rpi.shardGroups,
    g ∈ groups0 ∨ ∃ (i : Nat) (t : Time), calls[i]? = some (t, .returned (.ok (some g)))

/-- A call that had not returned moves on: the invariant holds of the new policy when the old
groups stay, a result the call now returns is a covering group of it, and a group it gains was
that result. -/
theorem CallsInv.update {groups0 : List ShardGroupInfo} {rpi rpi' : RetentionPolicyInfo}
    {calls : List (Time × CreatePc)} (inv : CallsInv groups0 rpi calls) {i : Nat} {t : Time}
    {pc pc' : CreatePc} (pending : calls[i]? = some (t, pc)) (waiting : ∀ r, pc ≠ .returned r)
    (grows : ∀ g ∈ rpi.shardGroups, g ∈ rpi'.shardGroups)
    (result : ∀ r, pc' = .returned (.ok r) → ∃ g, r = some g ∧ g ∈ rpi'.shardGroups ∧ g.Covers t)
    (added : ∀ g ∈ rpi'.shardGroups, g ∈ rpi.shardGroups ∨ pc' = .returned (.ok (some g))) :
    CallsInv groups0 rpi' (calls.set i (t, pc')) := by
  have bound : i < calls.length := (List.getElem?_eq_some_iff.mp pending).1
  constructor
  · intro j t' r returned
    by_cases same : i = j
    · subst same
      rw [List.getElem?_set_self bound] at returned
      obtain ⟨rfl, rfl⟩ := Prod.mk.inj (Option.some.inj returned)
      exact result r rfl
    · rw [List.getElem?_set_ne same] at returned
      obtain ⟨g, rfl, mem, covers⟩ := inv.results j t' r returned
      exact ⟨g, rfl, grows g mem, covers⟩
  · intro g mem
    rcases added g mem with old | mine
    · rcases inv.added g old with initial | ⟨j, t', returned⟩
      · exact .inl initial
      · have other : i ≠ j := by
          rintro rfl
          rw [pending] at returned
          exact waiting _ (Prod.mk.inj (Option.some.inj returned)).2
        exact .inr ⟨j, t', by rw [List.getElem?_set_ne other]; exact returned⟩
    · exact .inr ⟨i, t, by rw [List.getElem?_set_self bound, mine]⟩

/-- The policy stays aligned, and the calls' results and the groups added agree with it. -/
def CreationInv (database policy : String) (d : Duration) (groups0 : List ShardGroupInfo)
    (s : CreationState) : Prop :=
  ∃ rpi, AlignedPolicy s.client.cacheData database policy d rpi ∧ CallsInv groups0 rpi s.calls

section Invariant

variable {hook : Hook} {database policy : String} {d : Duration} {groups0 : List ShardGroupInfo}

theorem creationInv_init {c : Client} {rpi : RetentionPolicyInfo}
    (al : AlignedPolicy c.cacheData database policy d rpi) (ts : List Time) :
    CreationInv database policy d rpi.shardGroups (.init c ts) := by
  refine ⟨rpi, al, ⟨?_, fun g mem => .inl mem⟩⟩
  intro i t r returned
  simp [CreationState.init] at returned

theorem CreationInv.step {s t : CreationState} (inv : CreationInv database policy d groups0 s)
    (step : CreationStep hook database policy s t) : CreationInv database policy d groups0 t := by
  obtain ⟨rpi, al, calls⟩ := inv
  cases step with
  | fastHit i t sg pending hit =>
    rw [Data.shardGroupAt_of_found al.found] at hit
    obtain ⟨mem, covers⟩ := RetentionPolicyInfo.shardGroupByTimestamp_covers hit
    refine ⟨rpi, al, calls.update pending (by simp) (fun _ => id) ?_ (fun g mem => .inl mem)⟩
    rintro r ⟨⟩
    exact ⟨sg, rfl, mem, covers⟩
  | fastMiss i t pending miss =>
    exact ⟨rpi, al, calls.update pending (by simp) (fun _ => id) (by simp)
      (fun g mem => .inl mem)⟩
  | locked i t locking =>
    rcases Client.createShardGroupLocked_aligned hook al t with
      ⟨e, failed⟩ | ⟨g, found, mem, covers⟩ | ⟨g, rpi', result, al', covers, mem_iff⟩
    · rw [failed]
      exact ⟨rpi, al, calls.update locking (by simp) (fun _ => id) (by simp)
        (fun g mem => .inl mem)⟩
    · rw [found]
      refine ⟨rpi, al, calls.update locking (by simp) (fun _ => id) ?_ (fun g mem => .inl mem)⟩
      rintro r ⟨⟩
      exact ⟨g, rfl, mem, covers⟩
    · rw [result]
      refine ⟨rpi', al', calls.update locking (by simp) (fun x mem => (mem_iff x).mpr (.inr mem))
        ?_ ?_⟩
      · rintro r ⟨⟩
        exact ⟨g, rfl, (mem_iff g).mpr (.inl rfl), covers⟩
      · intro x mem
        rcases (mem_iff x).mp mem with rfl | old
        · exact .inr rfl
        · exact .inl old

end Invariant

/-- What the calls agree on: a call that succeeded returned a live group covering its timestamp,
the one the lookup of that timestamp finds now; every group of the policy was there at the
start (`groups0`) or was returned by a call; and a call whose timestamp lies in a group another
call returned returned that group's ID. -/
def CreationAgrees (database policy : String) (groups0 : List ShardGroupInfo)
    (s : CreationState) : Prop :=
  (∀ (i : Nat) (t : Time) r, s.calls[i]? = some (t, .returned (.ok r)) →
    ∃ g, r = some g ∧ g.Covers t ∧ s.client.cacheData.shardGroupAt database policy t = some g) ∧
  (∀ rpi, s.client.cacheData.retentionPolicy database policy = .ok (some rpi) →
    ∀ g ∈ rpi.shardGroups,
      g ∈ groups0 ∨ ∃ (i : Nat) (t : Time), s.calls[i]? = some (t, .returned (.ok (some g)))) ∧
  (∀ (i j : Nat) (ti tj : Time) (gi gj : ShardGroupInfo),
    s.calls[i]? = some (ti, .returned (.ok (some gi))) →
    s.calls[j]? = some (tj, .returned (.ok (some gj))) →
    gi.startTime ≤ tj → tj < gi.endTime → gj.id = gi.id)

/-- Concurrent `CreateShardGroup` calls on a policy whose live groups are windows of its
positive duration agree, in every state of every interleaving. -/
theorem createShardGroup_concurrent (hook : Hook) {database policy : String} {c0 : Client}
    {d : Duration} {rpi0 : RetentionPolicyInfo}
    (aligned : AlignedPolicy c0.cacheData database policy d rpi0) {ts : List Time}
    {s : CreationState} (reach : CreationReachable hook database policy c0 ts s) :
    CreationAgrees database policy rpi0.shardGroups s := by
  have inv : CreationInv database policy d rpi0.shardGroups s := by
    induction reach with
    | refl => exact creationInv_init aligned ts
    | tail _ step ih => exact ih.step step
  obtain ⟨rpi, al, calls⟩ := inv
  refine ⟨?_, ?_, ?_⟩
  · intro i t r returned
    obtain ⟨g, rfl, mem, covers⟩ := calls.results i t r returned
    refine ⟨g, rfl, covers, ?_⟩
    rw [Data.shardGroupAt_of_found al.found]
    exact al.aligned.find?_eq al.pos mem covers.1 covers.2.1 covers.2.2
  · intro rpi' found' g mem
    rw [al.found] at found'
    cases found'
    exact calls.added g mem
  · intro i j ti tj gi gj ri rj low high
    obtain ⟨gi', hi, memi, coversi⟩ := calls.results i ti _ ri
    obtain ⟨gj', hj, memj, coversj⟩ := calls.results j tj _ rj
    cases hi; cases hj
    rw [al.aligned.unique al.pos memj memi coversj.1 coversi.1 coversj.2.1 coversj.2.2 low high]

/-- Calls for 2 and 6 on an empty policy of 10 ns groups: the call for 2 misses and creates
`[0, 10)`; the call for 6 then finds it on the fast path. -/
theorem createShardGroup_concurrent_run :
    let c0 : Client := { newClient "meta" false with
      cacheData := ⟨0, 1, [⟨"db", "autogen", [⟨"autogen", 1, 0, 10, []⟩]⟩], [],
        [⟨1, "h", "h:8088", false⟩], 0, 0⟩ }
    ∃ s, CreationReachable snapshot "db" "autogen" c0 [2, 6] s ∧
      s.calls = [(2, .returned (.ok (some ⟨1, 0, 10, none, none, [⟨1, [1]⟩]⟩))),
        (6, .returned (.ok (some ⟨1, 0, 10, none, none, [⟨1, [1]⟩]⟩)))] ∧
      CreationAgrees "db" "autogen" [] s := by
  dsimp only
  have reach : CreationReachable snapshot "db" "autogen" { newClient "meta" false with
      cacheData := ⟨0, 1, [⟨"db", "autogen", [⟨"autogen", 1, 0, 10, []⟩]⟩], [],
        [⟨1, "h", "h:8088", false⟩], 0, 0⟩ } [2, 6] _ :=
    .tail (.tail (.single (.fastMiss _ 0 2 rfl rfl)) (.locked _ 0 2 rfl)) (.fastHit _ 1 6 _ rfl rfl)
  exact ⟨_, reach, rfl,
    createShardGroup_concurrent snapshot (by exact ⟨rfl, rfl, by decide, nofun, nofun⟩) reach⟩

/-! ## Overlapping groups -/

/-- A policy whose groups last 10 ns holds the group `[5, 8)` with ID 1, made while the duration
was different. A call for 6 returns it on the fast path. A call for 2 misses, creates the
window `[0, 10)` with ID 2, placed first in start order, and commits. A lookup of 6 now finds
group 2, not the group 1 the first call returned, although 6 lies in both. -/
theorem createShardGroup_overlap :
    let c0 : Client := { newClient "meta" false with
      cacheData := ⟨0, 1, [⟨"db", "autogen", [⟨"autogen", 1, 0, 10,
        [⟨1, 5, 8, none, none, [⟨1, [1]⟩]⟩]⟩]⟩], [], [⟨1, "h", "h:8088", false⟩], 1, 1⟩ }
    ∃ s, CreationReachable snapshot "db" "autogen" c0 [6, 2] s ∧
      s.calls = [(6, .returned (.ok (some ⟨1, 5, 8, none, none, [⟨1, [1]⟩]⟩))),
        (2, .returned (.ok (some ⟨2, 0, 10, none, none, [⟨2, [1]⟩]⟩)))] ∧
      s.client.cacheData.shardGroupAt "db" "autogen" 6 = some ⟨2, 0, 10, none, none, [⟨2, [1]⟩]⟩ :=
  ⟨_, .tail (.tail (.single (.fastHit _ 0 6 _ rfl rfl)) (.fastMiss _ 1 2 rfl rfl))
    (.locked _ 1 2 rfl), rfl, rfl⟩

end Chronus.Meta
