import Chronus.Meta.Creation

/-!
# Pruning and precreating shard groups

`PruneShardGroups e` filters every policy's groups on a clone, keeping the live groups and the
deleted ones that `!e.After(DeletedAt)`, and commits the clone when some group went. Over every
snapshot the result is the snapshot with exactly the groups deleted before `e` removed, in
order and with nothing else changed, committed once if there were any and left alone otherwise
(`pruneShardGroups_removes_expired`).

`PrecreateShardGroups from to` walks the databases and their policies on a clone. For a policy
whose last group is live and ends inside `(from, to)` it looks the next nanosecond up and, on a
miss, creates the group for it through `createShardGroup`. Both calls find the policy by the
names of the database and the policy, while the loop visits policies by position. When two
policies of a database share a name, the eligible second one is looked up and extended as the
first: the first gets the new group and the second none (`precreateShardGroups_duplicate_policy`).
When the names are distinct, the lookups find the policy the loop visits, and, provided every
eligible policy has groups of a positive duration, the result is `precreateData`: each eligible
policy, in loop order, with the group `Data.CreateShardGroup` makes for the next nanosecond,
the ID counters advanced once per group, nothing else changed, and one commit if any group was
added (`precreateShardGroups_unique_names`). With a duration of zero or less the new group does
not cover the next nanosecond, `createShardGroup` returns a nil group with no error, and the
loop's log line reads its ID: the call panics with nothing committed.
-/

namespace Chronus.Meta

/-! ## `PruneShardGroups` -/

/-- The group was deleted before `e`. -/
def ShardGroupInfo.expiredBy (e : Time) (g : ShardGroupInfo) : Bool :=
  match g.deletedAt with
  | some deletedAt => decide (deletedAt < e)
  | none => false

theorem keepShardGroup_eq (e : Time) : keepShardGroup e = fun g => !g.expiredBy e := by
  funext g
  unfold keepShardGroup ShardGroupInfo.expiredBy
  cases g.deletedAt <;> rfl

/-- `data'` is `data` with the groups deleted before `e` removed from every policy, in order,
and nothing else changed. -/
structure Pruned (e : Time) (data data' : Data) : Prop where
  others : { data' with databases := [] } = { data with databases := [] }
  databases : List.Forall₂ (fun db db' =>
      { db' with retentionPolicies := [] } = { db with retentionPolicies := [] } ∧
      List.Forall₂ (fun rp rp' =>
          { rp' with shardGroups := [] } = { rp with shardGroups := [] } ∧
          rp'.shardGroups = rp.shardGroups.filter fun g => !g.expiredBy e)
        db.retentionPolicies db'.retentionPolicies)
    data.databases data'.databases

theorem pruneData_pruned (e : Time) (data : Data) : Pruned e data (pruneData e data) where
  others := rfl
  databases := List.forall₂_map_right_iff.mpr <| List.forall₂_same.mpr fun _ _ =>
    ⟨rfl, List.forall₂_map_right_iff.mpr <| List.forall₂_same.mpr fun _ _ =>
      ⟨rfl, by rw [keepShardGroup_eq]⟩⟩

/-- `PruneShardGroups e` removes exactly the groups deleted before `e`, and commits once when
there was one; otherwise the client is left as it was. -/
theorem pruneShardGroups_removes_expired (c : Client) (e : Time) :
    ∃ data', Pruned e c.cacheData data' ∧
      c.pruneShardGroups snapshot e =
        if ∃ db ∈ c.cacheData.databases, ∃ rp ∈ db.retentionPolicies, ∃ g ∈ rp.shardGroups,
            g.expiredBy e = true
        then (.ok (), { c with cacheData := data'.bump, changed := c.changed + 1 })
        else (.ok (), c) := by
  refine ⟨_, pruneData_pruned e c.cacheData, ?_⟩
  unfold Client.pruneShardGroups
  simp only [Data.clone_eq, keepShardGroup_eq, Bool.not_not, List.any_eq_true]
  split_ifs <;> rfl

/-! ## `PrecreateShardGroups` as the loop visits it -/

/-- With two policies of one name, the second is eligible and the first is not, yet the first
gets the new group and the second none. -/
theorem precreateShardGroups_duplicate_policy :
    let d : Data := ⟨0, 1, [⟨"db", "p", [⟨"p", 1, 0, 10, []⟩,
      ⟨"p", 1, 0, 10, [⟨1, 0, 10, none, none, [⟨1, []⟩]⟩]⟩]⟩], [], [], 1, 1⟩
    let c : Client := ((newClient "meta" false).setData snapshot d).2
    (d.databases.map fun db => db.retentionPolicies.map (·.shardGroups.getLast?.map (·.endTime))) =
        [[none, some 10]] ∧
      (c.precreateShardGroups snapshot 5 20).2.changed = c.changed + 1 ∧
      ((c.precreateShardGroups snapshot 5 20).2.cacheData.databases.map fun db =>
        db.retentionPolicies.map (·.shardGroups.length)) = [[1, 1]] := by
  decide

/-- The timestamp `PrecreateShardGroups` creates a group for in an eligible policy: its last
group is live and ends inside `(fromTime, toTime)`, and no live group of the policy covers the
next nanosecond. -/
def RetentionPolicyInfo.precreateTime (fromTime toTime : Time) (rp : RetentionPolicyInfo) :
    Option Time :=
  match rp.shardGroups.getLast? with
  | none => none
  | some g =>
    if !g.deleted && decide (g.endTime < toTime) && decide (fromTime < g.endTime) &&
        (rp.shardGroupByTimestamp (g.endTime + 1)).isNone then some (g.endTime + 1)
    else none

/-- One policy as the loop should treat it: an eligible policy gets the group
`Data.CreateShardGroup` allocates on the counters of `ids`, which then advance; any other
policy is left as it is. -/
def precreatePolicy (fromTime toTime : Time) (ids : Data) (rp : RetentionPolicyInfo) :
    Data × RetentionPolicyInfo :=
  match rp.precreateTime fromTime toTime with
  | none => (ids, rp)
  | some t =>
    ({ ids with maxShardGroupID := ids.maxShardGroupID + 1, maxShardID := ids.maxShardID + 1 },
      { rp with
        shardGroups := rp.shardGroups.orderedInsert (fun a b => a.startTime < b.startTime)
          (ids.newShardGroup rp t) })

/-- `precreatePolicy` over a database's policies, in order. -/
def precreatePolicies (fromTime toTime : Time) :
    Data → List RetentionPolicyInfo → Data × List RetentionPolicyInfo
  | ids, [] => (ids, [])
  | ids, rp :: rps =>
    let (ids, rp) := precreatePolicy fromTime toTime ids rp
    let (ids, rps) := precreatePolicies fromTime toTime ids rps
    (ids, rp :: rps)

/-- `precreatePolicies` over the databases, in order. -/
def precreateDatabases (fromTime toTime : Time) :
    Data → List DatabaseInfo → Data × List DatabaseInfo
  | ids, [] => (ids, [])
  | ids, db :: dbs =>
    let (ids, rps) := precreatePolicies fromTime toTime ids db.retentionPolicies
    let (ids, dbs) := precreateDatabases fromTime toTime ids dbs
    (ids, { db with retentionPolicies := rps } :: dbs)

/-- The snapshot `PrecreateShardGroups` should commit: every eligible policy, in loop order,
with its new group, and the two ID counters advanced once per group. -/
def precreateData (fromTime toTime : Time) (data : Data) : Data :=
  let (ids, databases) := precreateDatabases fromTime toTime data data.databases
  { ids with databases }

/-- Database names are distinct, and so are the policy names of each database. -/
structure Data.UniqueNames (data : Data) : Prop where
  databases : (data.databases.map (·.name)).Nodup
  policies : ∀ db ∈ data.databases, (db.retentionPolicies.map (·.name)).Nodup

@[simp] theorem precreatePolicy_name (fromTime toTime : Time) (ids : Data)
    (rp : RetentionPolicyInfo) : (precreatePolicy fromTime toTime ids rp).2.name = rp.name := by
  unfold precreatePolicy
  split <;> rfl

/-! ## Lookups by name at the loop's position -/

theorem modifyFirst_append {α : Type} {p : α → Bool} (f : α → α) {pre : List α}
    (miss : ∀ x ∈ pre, p x = false) {a : α} (hit : p a = true) (post : List α) :
    modifyFirst p f (pre ++ a :: post) = pre ++ f a :: post := by
  induction pre with
  | nil => simp [modifyFirst, hit]
  | cons x pre ih =>
    simp only [List.mem_cons, forall_eq_or_imp] at miss
    simp [modifyFirst, miss.1, ih miss.2]

theorem find?_append_miss {α : Type} {p : α → Bool} {pre : List α}
    (miss : ∀ x ∈ pre, p x = false) {a : α} (hit : p a = true) (post : List α) :
    (pre ++ a :: post).find? p = some a := by
  rw [List.find?_append, List.find?_eq_none.mpr fun x mem => by simp [miss x mem]]
  simp [hit]

/-- A name absent from a list's names fails every name test on it. -/
theorem name_miss {α : Type} (name : α → String) {l : List α} {n : String}
    (fresh : n ∉ l.map name) : ∀ x ∈ l, (name x == n) = false := by
  intro x mem
  have : name x ≠ n := fun same => fresh (List.mem_map.mpr ⟨x, mem, same⟩)
  simpa using this

section Position

/-- `ids` with the databases `pre`, then `db` holding the policies `rpsPre`, `rp` and
`rpsPost`, then `post`. -/
def placed (ids : Data) (pre : List DatabaseInfo) (db : DatabaseInfo)
    (rpsPre : List RetentionPolicyInfo) (rp : RetentionPolicyInfo)
    (rpsPost : List RetentionPolicyInfo) (post : List DatabaseInfo) : Data :=
  { ids with databases :=
      pre ++ { db with retentionPolicies := rpsPre ++ rp :: rpsPost } :: post }

variable {ids : Data} {pre post : List DatabaseInfo} {db : DatabaseInfo}
  {rpsPre rpsPost : List RetentionPolicyInfo} (rp : RetentionPolicyInfo)
  (dbFresh : db.name ∉ pre.map (·.name)) (rpFresh : rp.name ∉ rpsPre.map (·.name))
include dbFresh rpFresh

theorem placed_retentionPolicy :
    (placed ids pre db rpsPre rp rpsPost post).retentionPolicy db.name rp.name =
      .ok (some rp) := by
  unfold placed Data.retentionPolicy Data.database
  rw [find?_append_miss (name_miss _ dbFresh) (by simp)]
  dsimp only [DatabaseInfo.retentionPolicy]
  rw [find?_append_miss (name_miss _ rpFresh) (by simp)]

/-- `Data.CreateShardGroup` on the policy the loop visits, with no live group covering `t`,
inserts the group it allocates there and advances the counters. -/
theorem placed_createShardGroup {t : Time} (miss : rp.shardGroupByTimestamp t = none) :
    (placed ids pre db rpsPre rp rpsPost post).createShardGroup db.name rp.name t =
      (placed { ids with maxShardGroupID := ids.maxShardGroupID + 1,
                         maxShardID := ids.maxShardID + 1 } pre db rpsPre
          { rp with
            shardGroups := rp.shardGroups.orderedInsert (fun a b => a.startTime < b.startTime)
              (ids.newShardGroup rp t) } rpsPost post, none) := by
  unfold Data.createShardGroup
  rw [placed_retentionPolicy rp dbFresh rpFresh]
  simp only [miss, Option.isSome_none, Bool.false_eq_true, if_false]
  unfold Data.modifyRetentionPolicy placed
  rw [modifyFirst_append _ (name_miss _ dbFresh) (by simp)]
  dsimp only
  rw [modifyFirst_append _ (name_miss _ rpFresh) (by simp)]
  rfl

/-- One iteration of the loop, on the policy it visits, is `precreatePolicy`, provided the
policy's groups have a positive duration when it is eligible. -/
theorem precreateStep_placed (fromTime toTime : Time) (b : Bool)
    (positive : (rp.precreateTime fromTime toTime).isSome → 0 < rp.shardGroupDuration) :
    precreateStep fromTime toTime (placed ids pre db rpsPre rp rpsPost post, b) (db.name, rp) =
      .ok (placed (precreatePolicy fromTime toTime ids rp).1 pre db rpsPre
          (precreatePolicy fromTime toTime ids rp).2 rpsPost post,
        b || (rp.precreateTime fromTime toTime).isSome) := by
  unfold precreateStep precreatePolicy
  dsimp only
  cases last : rp.shardGroups.getLast? with
  | none => simp [RetentionPolicyInfo.precreateTime, last]
  | some g =>
    dsimp only
    rw [Data.shardGroupAt_of_found (placed_retentionPolicy rp dbFresh rpFresh)]
    by_cases window : (!g.deleted && decide (g.endTime < toTime) &&
        decide (fromTime < g.endTime)) = true
    · cases cover : rp.shardGroupByTimestamp (g.endTime + 1) with
      | some _ => simp [RetentionPolicyInfo.precreateTime, last, window, cover]
      | none =>
        have eligible : rp.precreateTime fromTime toTime = some (g.endTime + 1) := by
          simp [RetentionPolicyInfo.precreateTime, last, window, cover]
        obtain ⟨sg, hit⟩ := Option.isSome_iff_exists.mp
          (rp.shardGroupByTimestamp_inserted ids (g.endTime + 1) (positive (by simp [eligible])))
        simp only [window, cover, eligible, createShardGroup, Data.shardGroupAt_of_found
          (placed_retentionPolicy rp dbFresh rpFresh), placed_createShardGroup rp dbFresh rpFresh cover]
        rw [placed_retentionPolicy { rp with
          shardGroups := rp.shardGroups.orderedInsert (fun a b => a.startTime < b.startTime)
            (ids.newShardGroup rp (g.endTime + 1)) } dbFresh rpFresh]
        simp [hit]
    · simp [RetentionPolicyInfo.precreateTime, last, window]

end Position

theorem fresh_of_nodup {α : Type} (name : α → String) {done rest : List α} {a : α}
    (nodup : ((done ++ a :: rest).map name).Nodup) : name a ∉ done.map name := by
  rw [List.map_append, List.map_cons, List.nodup_middle, List.nodup_cons] at nodup
  exact fun mem => nodup.1 (List.mem_append_left _ mem)

/-! ## The loop -/

/-- The loop over one database's policies, from any point on, is `precreatePolicies` on the
policies it has still to visit. -/
theorem foldlM_precreateStep_policies (fromTime toTime : Time) (pre post : List DatabaseInfo)
    (db : DatabaseInfo) (dbFresh : db.name ∉ pre.map (·.name))
    (rest : List RetentionPolicyInfo)
    (positive : ∀ rp ∈ rest, (rp.precreateTime fromTime toTime).isSome →
      0 < rp.shardGroupDuration) :
    ∀ (done : List RetentionPolicyInfo) (ids : Data) (b : Bool),
      ((done ++ rest).map (·.name)).Nodup →
      (rest.map (db.name, ·)).foldlM (precreateStep fromTime toTime)
          ({ ids with databases := pre ++ { db with retentionPolicies := done ++ rest } :: post },
            b) =
        .ok ({ (precreatePolicies fromTime toTime ids rest).1 with
            databases := pre ++ { db with
              retentionPolicies := done ++ (precreatePolicies fromTime toTime ids rest).2 } :: post },
          b || rest.any fun rp => (rp.precreateTime fromTime toTime).isSome) := by
  induction rest with
  | nil => intros; simp [precreatePolicies]; rfl
  | cons rp rest ih =>
    intro done ids b nodup
    have visited : ({ ids with
        databases := pre ++ { db with retentionPolicies := done ++ rp :: rest } :: post } : Data) =
        placed ids pre db done rp rest post := rfl
    have named : (((done ++ [(precreatePolicy fromTime toTime ids rp).2]) ++ rest).map
        (·.name)).Nodup := by simpa using nodup
    rw [List.map_cons, List.foldlM_cons, visited, precreateStep_placed rp dbFresh
      (fresh_of_nodup _ nodup) _ _ _ (positive rp (List.mem_cons_self _ _)), except_ok_bind,
      placed, List.append_cons done,
      ih (fun rp mem => positive rp (List.mem_cons_of_mem _ mem)) _ _ _ named]
    simp [precreatePolicies, Bool.or_assoc]

/-- The loop over the databases, from any database on, is `precreateDatabases` on the
databases it has still to visit. -/
theorem foldlM_precreateStep_databases (fromTime toTime : Time) (rest : List DatabaseInfo)
    (policies : ∀ db ∈ rest, (db.retentionPolicies.map (·.name)).Nodup)
    (positive : ∀ db ∈ rest, ∀ rp ∈ db.retentionPolicies,
      (rp.precreateTime fromTime toTime).isSome → 0 < rp.shardGroupDuration) :
    ∀ (done : List DatabaseInfo) (ids : Data) (b : Bool), ((done ++ rest).map (·.name)).Nodup →
      (rest.flatMap fun di => di.retentionPolicies.map (di.name, ·)).foldlM
          (precreateStep fromTime toTime) ({ ids with databases := done ++ rest }, b) =
        .ok ({ (precreateDatabases fromTime toTime ids rest).1 with
            databases := done ++ (precreateDatabases fromTime toTime ids rest).2 },
          b || rest.any fun db => db.retentionPolicies.any fun rp =>
            (rp.precreateTime fromTime toTime).isSome) := by
  induction rest with
  | nil => intros; simp [precreateDatabases]; rfl
  | cons db rest ih =>
    intro done ids b nodup
    have unvisited : ({ ids with databases := done ++ db :: rest } : Data) =
        { ids with databases :=
            done ++ { db with retentionPolicies := [] ++ db.retentionPolicies } :: rest } := rfl
    have named : (((done ++ [({ db with
        retentionPolicies := (precreatePolicies fromTime toTime ids db.retentionPolicies).2 } :
          DatabaseInfo)]) ++ rest).map (·.name)).Nodup := by simpa using nodup
    rw [List.flatMap_cons, List.foldlM_append, unvisited,
      foldlM_precreateStep_policies fromTime toTime done rest db (fresh_of_nodup _ nodup) _
        (positive db (List.mem_cons_self _ _)) [] _ _
        (by simpa using policies db (List.mem_cons_self _ _)),
      except_ok_bind, List.nil_append, List.append_cons done,
      ih (fun db mem => policies db (List.mem_cons_of_mem _ mem))
        (fun db mem => positive db (List.mem_cons_of_mem _ mem)) _ _ _ named]
    simp [precreateDatabases, Bool.or_assoc]

/-- The whole loop, on a snapshot with distinct names whose eligible policies have groups of a
positive duration: `precreateData`, and whether some policy was eligible. -/
theorem foldlM_precreateStep (fromTime toTime : Time) {data : Data} (unique : data.UniqueNames)
    (positive : ∀ db ∈ data.databases, ∀ rp ∈ db.retentionPolicies,
      (rp.precreateTime fromTime toTime).isSome → 0 < rp.shardGroupDuration) :
    (precreateTargets data).foldlM (precreateStep fromTime toTime) (data, false) =
      .ok (precreateData fromTime toTime data, data.databases.any fun db =>
        db.retentionPolicies.any fun rp => (rp.precreateTime fromTime toTime).isSome) := by
  have loop := foldlM_precreateStep_databases fromTime toTime _ unique.policies positive [] data
    false unique.databases
  simp only [List.nil_append, Bool.false_or] at loop
  exact loop

/-- When database names are distinct, and so are the policy names of each database, and every
eligible policy has groups of a positive duration, `PrecreateShardGroups` commits
`precreateData` once if some policy is eligible, and leaves the client as it was otherwise. -/
theorem precreateShardGroups_unique_names (c : Client) (fromTime toTime : Time)
    (unique : c.cacheData.UniqueNames)
    (positive : ∀ db ∈ c.cacheData.databases, ∀ rp ∈ db.retentionPolicies,
      (rp.precreateTime fromTime toTime).isSome → 0 < rp.shardGroupDuration) :
    c.precreateShardGroups snapshot fromTime toTime =
      if ∃ db ∈ c.cacheData.databases, ∃ rp ∈ db.retentionPolicies,
          (rp.precreateTime fromTime toTime).isSome
      then (.ok (), { c with
        cacheData := (precreateData fromTime toTime c.cacheData).bump, changed := c.changed + 1 })
      else (.ok (), c) := by
  unfold Client.precreateShardGroups
  simp only [Data.clone_eq, foldlM_precreateStep fromTime toTime unique positive,
    List.any_eq_true]
  split_ifs <;> rfl

theorem precreateShardGroups_unique_names_one_policy :
    let c : Client := ((newClient "meta" false).setData snapshot
      ⟨0, 1, [⟨"db", "p", [⟨"p", 1, 0, 10, [⟨1, 0, 10, none, none, [⟨1, []⟩]⟩]⟩]⟩], [], [], 1, 1⟩).2
    c.cacheData.UniqueNames ∧
      (∀ db ∈ c.cacheData.databases, ∀ rp ∈ db.retentionPolicies,
        (rp.precreateTime 5 20).isSome → 0 < rp.shardGroupDuration) ∧
      c.precreateShardGroups snapshot 5 20 =
        if ∃ db ∈ c.cacheData.databases, ∃ rp ∈ db.retentionPolicies,
            (rp.precreateTime 5 20).isSome
        then (.ok (), { c with
          cacheData := (precreateData 5 20 c.cacheData).bump, changed := c.changed + 1 })
        else (.ok (), c) := by
  intro c
  have unique : c.cacheData.UniqueNames := ⟨by decide, by decide⟩
  have positive : ∀ db ∈ c.cacheData.databases, ∀ rp ∈ db.retentionPolicies,
      (rp.precreateTime 5 20).isSome → 0 < rp.shardGroupDuration := by decide
  exact ⟨unique, positive, precreateShardGroups_unique_names c 5 20 unique positive⟩

/-- With a group duration of zero, the group created for the next nanosecond does not cover
it, `createShardGroup` returns a nil group, and reading its ID panics. -/
example :
    let c : Client := ((newClient "meta" false).setData snapshot
      ⟨0, 1, [⟨"db", "p", [⟨"p", 1, 0, 0, [⟨1, 0, 10, none, none, [⟨1, []⟩]⟩]⟩]⟩], [], [], 1, 1⟩).2
    c.precreateShardGroups snapshot 5 20 =
      (.error (.other "invalid memory address or nil pointer dereference"), c) := by
  rfl

end Chronus.Meta
