import Mathlib

/-!
# The metadata snapshot

`Data` is the value the meta client clones, mutates and commits
(`services/meta/store.go`). The methods of `Data` live in `services/meta/data.go`,
which is not part of this repository. The ones a result below depends on are
modelled from the spec here, and each says so in its docstring: the lookups, the
user methods and `CreateShardGroup`. The others are parameters of the client
(`DataMethods` in `Chronus.Meta.Client`).

Go's `time.Time` is a count of nanoseconds since the Unix epoch, and its zero value
(`IsZero`) is `none` where a field may hold it. Identifiers are `UInt64`, as in the
code; `Index` is the `uint64` commit version.
-/

namespace Chronus.Meta

/-- `time.Time`, in nanoseconds since the Unix epoch. -/
abbrev Time := Int

/-- `time.Duration`, in nanoseconds. -/
abbrev Duration := Int

/-- Go's zero `time.Time` (January 1 of year 1), the origin of `Time.Truncate`, in
nanoseconds since the Unix epoch. -/
def zeroTime : Int := -62135596800 * 1000000000

/-- `time.Time.Truncate` on nanoseconds: round `t` down to a multiple of `d` since the zero
time, and leave it unchanged when `d ≤ 0`. -/
def truncate (t d : Int) : Int :=
  if d ≤ 0 then t else t - (t - zeroTime) % d

/-- The errors the meta client surfaces. `other` carries the text of an error made
outside this repository (the persistence hook, `data.go`, the random source) or by
`errors.New` in `store.go`. -/
inductive MetaError
  | userNotFound
  | userExists
  | nodeNotFound
  | authenticate
  | retentionPolicyDurationTooLow
  | retentionPolicyConflict
  | shardGroupExists
  | databaseNotFound (name : String)
  | retentionPolicyNotFound (name : String)
  | other (text : String)
deriving DecidableEq, Repr

/-! ## The snapshot -/

/-- `meta.ShardInfo`: a shard and the IDs of the data nodes that own it. -/
structure ShardInfo where
  id : UInt64
  owners : List UInt64
deriving DecidableEq, Repr

/-- `meta.ShardGroupInfo`. `deletedAt` and `truncatedAt` are `none` for the zero time. -/
structure ShardGroupInfo where
  id : UInt64
  startTime : Time
  endTime : Time
  deletedAt : Option Time
  truncatedAt : Option Time
  shards : List ShardInfo
deriving DecidableEq, Repr

/-- `meta.RetentionPolicyInfo`. Subscriptions are left out: only the parameter methods
`CreateSubscription` and `DropSubscription` read them. -/
structure RetentionPolicyInfo where
  name : String
  replicaN : Nat
  duration : Duration
  shardGroupDuration : Duration
  shardGroups : List ShardGroupInfo
deriving DecidableEq, Repr

/-- `meta.DatabaseInfo`. Continuous queries are left out, as subscriptions are. -/
structure DatabaseInfo where
  name : String
  defaultRetentionPolicy : String
  retentionPolicies : List RetentionPolicyInfo
deriving DecidableEq, Repr

/-- `meta.UserInfo`. Privileges are left out: only `SetPrivilege` writes them. -/
structure UserInfo where
  name : String
  hash : String
  admin : Bool
deriving DecidableEq, Repr

/-- `meta.NodeInfo` of a data node. -/
structure NodeInfo where
  id : UInt64
  host : String
  tcpHost : String
  frozen : Bool
deriving DecidableEq, Repr

/-- `Data`: the snapshot with its commit version `index`. -/
structure Data where
  clusterID : UInt64
  index : UInt64
  databases : List DatabaseInfo
  users : List UserInfo
  dataNodes : List NodeInfo
  maxShardGroupID : UInt64
  maxShardID : UInt64
deriving DecidableEq, Repr

/-- `Data.Clone`: a deep copy, which is the value itself here. -/
def Data.clone (data : Data) : Data := data

@[simp] theorem Data.clone_eq (data : Data) : data.clone = data := rfl

/-! ## Shard groups -/

/-- `ShardGroupInfo.Deleted`. -/
def ShardGroupInfo.deleted (g : ShardGroupInfo) : Bool := g.deletedAt.isSome

/-- Modelled from the spec: `ShardGroupInfo.Contains`, the group covers `[StartTime, EndTime)`. -/
def ShardGroupInfo.contains (g : ShardGroupInfo) (t : Time) : Bool :=
  decide (g.startTime ≤ t) && decide (t < g.endTime)

/-- Modelled from the spec: `ShardGroupInfo.Overlaps`,
`g.StartTime < tmax ∧ g.EndTime > tmin`. -/
def ShardGroupInfo.overlaps (g : ShardGroupInfo) (min max : Time) : Bool :=
  decide (g.startTime < max) && decide (min < g.endTime)

/-- Modelled from the spec: `RetentionPolicyInfo.ShardGroupByTimestamp`, the first live
group that covers `t`. -/
def RetentionPolicyInfo.shardGroupByTimestamp (rp : RetentionPolicyInfo) (t : Time) :
    Option ShardGroupInfo :=
  rp.shardGroups.find? fun g => g.contains t && !g.deleted

/-! ## Lookups -/

/-- Modelled from the spec: `Data.Database`, the database of that name. -/
def Data.database (data : Data) (name : String) : Option DatabaseInfo :=
  data.databases.find? (·.name == name)

/-- Modelled from the spec: `DatabaseInfo.RetentionPolicy`, the policy of that name. -/
def DatabaseInfo.retentionPolicy (db : DatabaseInfo) (name : String) :
    Option RetentionPolicyInfo :=
  db.retentionPolicies.find? (·.name == name)

/-- Modelled from the spec: `Data.RetentionPolicy`, where a missing database is an error and
a missing policy is `nil`. -/
def Data.retentionPolicy (data : Data) (database policy : String) :
    Except MetaError (Option RetentionPolicyInfo) :=
  match data.database database with
  | none => .error (.databaseNotFound database)
  | some db => .ok (db.retentionPolicy policy)

/-- Modelled from the spec: `Data.ShardGroupByTimestamp`, the policy's lookup under the
database's and the policy's names. -/
def Data.shardGroupByTimestamp (data : Data) (database policy : String) (t : Time) :
    Except MetaError (Option ShardGroupInfo) :=
  match data.retentionPolicy database policy with
  | .error e => .error e
  | .ok none => .error (.retentionPolicyNotFound policy)
  | .ok (some rp) => .ok (rp.shardGroupByTimestamp t)

/-- `sg, _ := data.ShardGroupByTimestamp(...)`: the group, with the error dropped, as every
caller in `store.go` reads it. -/
def Data.shardGroupAt (data : Data) (database policy : String) (t : Time) :
    Option ShardGroupInfo :=
  match data.shardGroupByTimestamp database policy t with
  | .ok sg => sg
  | .error _ => none

/-- `Data.user`, and `Client.user` over the cached snapshot: the first user of that name. -/
def Data.user (data : Data) (name : String) : Option UserInfo :=
  data.users.find? (·.name == name)

/-! ## Mutations modelled from the spec -/

/-- Apply `f` to the first element that satisfies `p`, as a method does through the
pointer a lookup returned. -/
def modifyFirst {α : Type} (p : α → Bool) (f : α → α) : List α → List α
  | [] => []
  | a :: as => if p a then f a :: as else a :: modifyFirst p f as

/-- Modelled from the spec: apply `f` to the policy `policy` of the database `database`,
found as `Data.RetentionPolicy` finds it. -/
def Data.modifyRetentionPolicy (data : Data) (database policy : String)
    (f : RetentionPolicyInfo → RetentionPolicyInfo) : Data :=
  { data with
    databases := modifyFirst (·.name == database)
      (fun db => { db with
        retentionPolicies := modifyFirst (·.name == policy) f db.retentionPolicies })
      data.databases }

/-- Modelled from the spec: `Data.CreateDatabase` adds an empty database unless one of that
name exists. -/
def Data.createDatabase (data : Data) (name : String) : Data × Option MetaError :=
  match data.database name with
  | some _ => (data, none)
  | none => ({ data with databases := data.databases ++ [⟨name, "", []⟩] }, none)

/-- Modelled from the spec: the shard placement of `Data.CreateShardGroup`, `replicaN` owners
taken round-robin over the non-frozen data nodes in ID order. -/
def Data.shardOwners (data : Data) (replicaN : Nat) (start : Nat) : List UInt64 :=
  let ids := ((data.dataNodes.filter (!·.frozen)).map (·.id)).insertionSort (· ≤ ·)
  (ids.rotate start).take replicaN

/-- Modelled from the spec: the group `Data.CreateShardGroup` allocates for `t` in a policy
whose groups last `d`, `[StartTime, EndTime)` aligned to `d`, with one shard. -/
def Data.newShardGroup (data : Data) (rp : RetentionPolicyInfo) (t : Time) : ShardGroupInfo :=
  let start := truncate t rp.shardGroupDuration
  { id := data.maxShardGroupID + 1, startTime := start,
    endTime := start + rp.shardGroupDuration, deletedAt := none, truncatedAt := none,
    shards := [⟨data.maxShardID + 1,
      data.shardOwners rp.replicaN (data.maxShardGroupID + 1).toNat⟩] }

/-- Modelled from the spec: `Data.CreateShardGroup` fails if a live group already covers `t`;
otherwise it inserts `newShardGroup`, keeping `ShardGroups` in start-time order, and advances
the two ID counters. -/
def Data.createShardGroup (data : Data) (database policy : String) (t : Time) :
    Data × Option MetaError :=
  match data.retentionPolicy database policy with
  | .error e => (data, some e)
  | .ok none => (data, some (.retentionPolicyNotFound policy))
  | .ok (some rp) =>
    if (rp.shardGroupByTimestamp t).isSome then (data, some .shardGroupExists)
    else
      ({ data.modifyRetentionPolicy database policy
            (fun rp => { rp with
              shardGroups := rp.shardGroups.orderedInsert
                (fun a b => a.startTime < b.startTime) (data.newShardGroup rp t) }) with
          maxShardGroupID := data.maxShardGroupID + 1
          maxShardID := data.maxShardID + 1 }, none)

/-- Modelled from the spec: `Data.CreateUser`, where a duplicate create is `ErrUserExists`. -/
def Data.createUser (data : Data) (name hash : String) (admin : Bool) :
    Data × Option MetaError :=
  match data.user name with
  | some _ => (data, some .userExists)
  | none => ({ data with users := data.users ++ [⟨name, hash, admin⟩] }, none)

/-- Modelled from the spec: `Data.UpdateUser` sets the user's hash, or is `ErrUserNotFound`. -/
def Data.updateUser (data : Data) (name hash : String) : Data × Option MetaError :=
  match data.user name with
  | none => (data, some .userNotFound)
  | some _ =>
    ({ data with users := modifyFirst (·.name == name) (fun u => { u with hash }) data.users },
      none)

/-- Modelled from the spec: `Data.DropUser` removes the user, or is `ErrUserNotFound`. -/
def Data.dropUser (data : Data) (name : String) : Data × Option MetaError :=
  match data.user name with
  | none => (data, some .userNotFound)
  | some _ => ({ data with users := data.users.filter (·.name != name) }, none)

/-! ## The modelled mutations keep `Index` -/

@[simp] theorem Data.createDatabase_index (data : Data) (name : String) :
    (data.createDatabase name).1.index = data.index := by
  unfold Data.createDatabase; split <;> rfl

@[simp] theorem Data.createUser_index (data : Data) (name hash : String) (admin : Bool) :
    (data.createUser name hash admin).1.index = data.index := by
  unfold Data.createUser; split <;> rfl

@[simp] theorem Data.updateUser_index (data : Data) (name hash : String) :
    (data.updateUser name hash).1.index = data.index := by
  unfold Data.updateUser; split <;> rfl

@[simp] theorem Data.dropUser_index (data : Data) (name : String) :
    (data.dropUser name).1.index = data.index := by
  unfold Data.dropUser; split <;> rfl

end Chronus.Meta
