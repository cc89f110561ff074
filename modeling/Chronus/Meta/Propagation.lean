import Chronus.Meta.Client

/-!
# Error propagation of the mutating calls

The spec's pipeline for a mutating call: clone the snapshot, mutate the clone, commit it. A call
that fails leaves the cached snapshot and the `changed` channel exactly as they were, and one
that succeeds either changes nothing or takes effect as exactly one commit of the mutated value,
with `Index` one past the value the commit started from. `Op` lists every mutating call of the
client and `Client.exec` runs one. `Op.mutated` is what a call's mutation of the snapshot yields
in that pipeline: an error, nothing to commit, or the value to commit.

Results:
* `createDataNode_failing_hook_breaks_policy`: `CreateDataNode` mutates and commits the live
  snapshot `c.data()` instead of a clone, so when the hook fails the call returns the hook's
  error with the new node in `cacheData` and its `Index` advanced.
* `Client.exec_pipeline`: for any hook and any behaviour of the methods outside this repository,
  every call fails with the client as it was or commits exactly the value `Op.mutated` gives,
  except two. A failed `SetData` leaves the snapshot with `Index` 0, since it zeroes the live
  `Index` before it commits. A failed `CreateDataNode` leaves its method's value of the live
  snapshot, with `Index` advanced when the hook failed.
* `Client.run_index`: along any run of calls other than those two, `Index` counts the commits.
-/

namespace Chronus.Meta

/-- Every mutating call of the client, with its arguments. -/
inductive Op
  | createDataNode (httpAddr tcpAddr : String)
  | deleteDataNode (id : UInt64)
  | createDatabase (name : String)
  | createDatabaseWithRetentionPolicy (name : String) (spec : Option RetentionPolicySpec)
  | dropDatabase (name : String)
  | createRetentionPolicy (database : String) (spec : RetentionPolicySpec) (makeDefault : Bool)
  | dropRetentionPolicy (database name : String)
  | updateRetentionPolicy (database name : String) (rpu : RetentionPolicyUpdate)
      (makeDefault : Bool)
  | createUser (name hashedPassword : String) (admin : Bool)
  | updateUser (name hashedPassword : String)
  | dropUser (name : String)
  | setPrivilege (username database : String) (p : Privilege)
  | setAdminPrivilege (username : String) (admin : Bool)
  | addShardOwner (shardID nodeID : UInt64)
  | removeShardOwner (shardID nodeID : UInt64)
  | dropShard (id : UInt64)
  | truncateShardGroups (t : Time)
  | pruneShardGroups (expiration : Time)
  | createShardGroup (database policy : String) (timestamp : Time)
  | precreateShardGroups (fromTime toTime : Time)
  | freezeDataNode (id : UInt64)
  | unfreezeDataNode (id : UInt64)
  | deleteShardGroup (database policy : String) (id : UInt64) (t : Time)
  | createContinuousQuery (database name query : String)
  | dropContinuousQuery (database name : String)
  | createSubscription (database rp name mode : String) (destinations : List String)
  | dropSubscription (database rp name : String)
  | setData (data : Data)

/-- A call's result with its value dropped. -/
def discard {α : Type} (r : Except MetaError α × Client) : Except MetaError Unit × Client :=
  (r.1.map fun _ => (), r.2)

/-- Run one mutating call. -/
def Client.exec (hook : Hook) (methods : DataMethods) (op : Op) (c : Client) :
    Except MetaError Unit × Client :=
  match op with
  | .createDataNode httpAddr tcpAddr => discard (c.createDataNode hook methods httpAddr tcpAddr)
  | .deleteDataNode id => c.deleteDataNode hook methods id
  | .createDatabase name => discard (c.createDatabase hook methods name)
  | .createDatabaseWithRetentionPolicy name spec =>
    discard (c.createDatabaseWithRetentionPolicy hook methods name spec)
  | .dropDatabase name => c.dropDatabase hook methods name
  | .createRetentionPolicy database spec makeDefault =>
    discard (c.createRetentionPolicy hook methods database spec makeDefault)
  | .dropRetentionPolicy database name => c.dropRetentionPolicy hook methods database name
  | .updateRetentionPolicy database name rpu makeDefault =>
    c.updateRetentionPolicy hook methods database name rpu makeDefault
  | .createUser name hashedPassword admin => discard (c.createUser hook name hashedPassword admin)
  | .updateUser name hashedPassword => c.updateUser hook name hashedPassword
  | .dropUser name => c.dropUser hook name
  | .setPrivilege username database p => c.setPrivilege hook methods username database p
  | .setAdminPrivilege username admin => c.setAdminPrivilege hook methods username admin
  | .addShardOwner shardID nodeID => c.addShardOwner hook methods shardID nodeID
  | .removeShardOwner shardID nodeID => c.removeShardOwner hook methods shardID nodeID
  | .dropShard id => c.dropShard hook methods id
  | .truncateShardGroups t => c.truncateShardGroups hook methods t
  | .pruneShardGroups expiration => c.pruneShardGroups hook expiration
  | .createShardGroup database policy timestamp =>
    discard (c.createShardGroup hook database policy timestamp)
  | .precreateShardGroups fromTime toTime => c.precreateShardGroups hook fromTime toTime
  | .freezeDataNode id => c.freezeDataNode hook methods id
  | .unfreezeDataNode id => c.unfreezeDataNode hook methods id
  | .deleteShardGroup database policy id t => c.deleteShardGroup hook methods database policy id t
  | .createContinuousQuery database name query =>
    c.createContinuousQuery hook methods database name query
  | .dropContinuousQuery database name => c.dropContinuousQuery hook methods database name
  | .createSubscription database rp name mode destinations =>
    c.createSubscription hook methods database rp name mode destinations
  | .dropSubscription database rp name => c.dropSubscription hook methods database rp name
  | .setData data => c.setData hook data

/-! ## The pipeline -/

/-- Go's `if err != nil { return err }` after a method call on the clone, in the pipeline: the
method's error, or what follows from the value it left. -/
def mutatedThen (x : Data × Option MetaError) (k : Data → Except MetaError (Option Data)) :
    Except MetaError (Option Data) :=
  match x.2 with
  | some e => .error e
  | none => k x.1

/-- A method's result in the pipeline: its error, or the value it left, to commit. -/
def mutatedBy (x : Data × Option MetaError) : Except MetaError (Option Data) :=
  mutatedThen x fun data => .ok (some data)

/-- What each call's mutation of the snapshot yields in the clone-mutate-commit pipeline: an
error, nothing to commit, or the value to commit. -/
def Op.mutated (methods : DataMethods) (op : Op) (c : Client) : Except MetaError (Option Data) :=
  let data := c.cacheData
  match op with
  | .createDataNode httpAddr tcpAddr =>
    mutatedThen ((methods.createDataNode httpAddr tcpAddr).apply data) fun data =>
    match data.dataNodes.find? (·.tcpHost == tcpAddr) with
    | some _ => .ok (some data)
    | none => .error .nodeNotFound
  | .deleteDataNode id => mutatedBy ((methods.deleteDataNode id).apply data)
  | .createDatabase name =>
    match data.database name with
    | some _ => .ok none
    | none =>
      mutatedThen (data.createDatabase name) fun data =>
      mutatedBy (if c.retentionAutoCreate then
        (methods.createRetentionPolicy name defaultRetentionPolicyInfo true).apply data
      else (data, none))
  | .createDatabaseWithRetentionPolicy name spec =>
    match spec with
    | none => .error (.other "CreateDatabaseWithRetentionPolicy called with nil spec")
    | some spec =>
      if durationTooLow spec.duration then .error .retentionPolicyDurationTooLow else
      mutatedThen
        (match data.database name with
          | some _ => (data, none)
          | none => data.createDatabase name) fun data =>
      match data.database name with
      | none => .error (.other "invalid memory address or nil pointer dereference")
      | some db =>
        let rpi := methods.newRetentionPolicyInfo spec
        mutatedThen
          (if db.retentionPolicies.isEmpty then
            (methods.createRetentionPolicy name rpi true).apply data
          else if methods.specMatches spec (db.retentionPolicy rpi.name) then (data, none)
          else (data, some .retentionPolicyConflict)) fun data =>
        if (data.database name).map (·.defaultRetentionPolicy) != some rpi.name then
          .error .retentionPolicyConflict
        else .ok (some data)
  | .dropDatabase name => mutatedBy ((methods.dropDatabase name).apply data)
  | .createRetentionPolicy database spec makeDefault =>
    if durationTooLow spec.duration then .error .retentionPolicyDurationTooLow
    else mutatedBy ((methods.createRetentionPolicy database (methods.newRetentionPolicyInfo spec)
      makeDefault).apply data)
  | .dropRetentionPolicy database name =>
    mutatedBy ((methods.dropRetentionPolicy database name).apply data)
  | .updateRetentionPolicy database name rpu makeDefault =>
    mutatedBy ((methods.updateRetentionPolicy database name rpu makeDefault).apply data)
  | .createUser name hashedPassword admin => mutatedBy (data.createUser name hashedPassword admin)
  | .updateUser name hashedPassword => mutatedBy (data.updateUser name hashedPassword)
  | .dropUser name => mutatedBy (data.dropUser name)
  | .setPrivilege username database p =>
    mutatedBy ((methods.setPrivilege username database p).apply data)
  | .setAdminPrivilege username admin =>
    mutatedBy ((methods.setAdminPrivilege username admin).apply data)
  | .addShardOwner shardID nodeID => .ok (some ((methods.addShardOwner shardID nodeID).apply data).1)
  | .removeShardOwner shardID nodeID =>
    .ok (some ((methods.removeShardOwner shardID nodeID).apply data).1)
  | .dropShard id => .ok (some ((methods.dropShard id).apply data).1)
  | .truncateShardGroups t => .ok (some ((methods.truncateShardGroups t).apply data).1)
  | .pruneShardGroups expiration =>
    if data.databases.any fun d => d.retentionPolicies.any fun rp =>
        rp.shardGroups.any fun g => !keepShardGroup expiration g
    then .ok (some (pruneData expiration data)) else .ok none
  | .createShardGroup database policy timestamp =>
    match data.shardGroupAt database policy timestamp with
    | some _ => .ok none
    | none =>
      let created := Chronus.Meta.createShardGroup data database policy timestamp
      match created.2 with
      | .error e => .error e
      | .ok _ => .ok (some created.1)
  | .precreateShardGroups fromTime toTime =>
    match (precreateTargets data).foldlM (precreateStep fromTime toTime) (data, false) with
    | .error e => .error e
    | .ok result => if result.2 then .ok (some result.1) else .ok none
  | .freezeDataNode id => mutatedBy ((methods.freezeDataNode id).apply data)
  | .unfreezeDataNode id => mutatedBy ((methods.unfreezeDataNode id).apply data)
  | .deleteShardGroup database policy id t =>
    mutatedBy ((methods.deleteShardGroup database policy id t).apply data)
  | .createContinuousQuery database name query =>
    mutatedBy ((methods.createContinuousQuery database name query).apply data)
  | .dropContinuousQuery database name =>
    mutatedBy ((methods.dropContinuousQuery database name).apply data)
  | .createSubscription database rp name mode destinations =>
    mutatedBy ((methods.createSubscription database rp name mode destinations).apply data)
  | .dropSubscription database rp name =>
    mutatedBy ((methods.dropSubscription database rp name).apply data)
  | .setData supplied => .ok (some supplied)

/-- The `Index` a call's commit starts from: the supplied value's for `SetData`, the cached
snapshot's for every other call. -/
def Op.base (op : Op) (data : Data) : UInt64 :=
  match op with
  | .setData supplied => supplied.index
  | _ => data.index

/-! ## The policy -/

/-- The snapshot and the `changed` channel are as they were. -/
def Client.Unchanged (c c' : Client) : Prop :=
  c'.cacheData = c.cacheData ∧ c'.changed = c.changed

/-- One commit of `data`, whose `Index` is `base`, took effect: the value was swapped in with its
`Index` advanced, and the channel was closed and replaced. -/
def Client.CommittedFrom (base : UInt64) (data : Data) (c c' : Client) : Prop :=
  data.index = base ∧ c'.cacheData = data.bump ∧ c'.changed = c.changed + 1

/-- The pipeline's policy for a call on `c` whose mutation yields `mutated` and whose commit
starts from `Index = base`: a failure leaves the snapshot and the channel as they were, and a
success leaves them so or commits the mutated value. -/
def PolicyHolds {α : Type} (base : UInt64) (mutated : Except MetaError (Option Data))
    (c : Client) : Except MetaError α × Client → Prop
  | (.error _, c') => c.Unchanged c'
  | (.ok _, c') => c.Unchanged c' ∨ ∃ data, mutated = .ok (some data) ∧ c.CommittedFrom base data c'

/-- A method of `Data` that changes nothing and succeeds. -/
def Mutation.keep : Mutation := ⟨fun data => (data, none), fun _ => rfl⟩

/-- Methods of `Data` that change nothing and succeed, for running calls on fixed snapshots. -/
def DataMethods.inert : DataMethods where
  createDataNode _ _ := .keep
  deleteDataNode _ := .keep
  dropDatabase _ := .keep
  createRetentionPolicy _ _ _ := .keep
  dropRetentionPolicy _ _ := .keep
  updateRetentionPolicy _ _ _ _ := .keep
  setPrivilege _ _ _ := .keep
  setAdminPrivilege _ _ := .keep
  addShardOwner _ _ := .keep
  removeShardOwner _ _ := .keep
  dropShard _ := .keep
  truncateShardGroups _ := .keep
  freezeDataNode _ := .keep
  unfreezeDataNode _ := .keep
  deleteShardGroup _ _ _ _ := .keep
  createContinuousQuery _ _ _ := .keep
  dropContinuousQuery _ _ := .keep
  createSubscription _ _ _ _ _ := .keep
  dropSubscription _ _ _ := .keep
  newRetentionPolicyInfo _ := defaultRetentionPolicyInfo
  specMatches _ _ := false

/-- `CreateDataNode` on a fresh client, with a `Data.CreateDataNode` that appends the node and
a hook that fails: the call returns the hook's error, yet `cacheData` holds the new node and its
`Index` has advanced, since the method and the commit's `Index++` both ran on the live
snapshot. -/
theorem createDataNode_failing_hook_breaks_policy :
    let appendNode : Mutation := ⟨fun data => ({ data with
      dataNodes := data.dataNodes ++ [⟨1, "h:8086", "h:8088", false⟩] }, none), fun _ => rfl⟩
    let c := newClient "meta" false
    let r := c.createDataNode (fun _ _ => some (.other "disk full"))
      { DataMethods.inert with createDataNode := fun _ _ => appendNode } "h:8086" "h:8088"
    r.1 = .error (.other "disk full") ∧ r.2.changed = c.changed ∧
      r.2.cacheData = { c.cacheData with
        index := 2, dataNodes := [⟨1, "h:8086", "h:8088", false⟩] } :=
  ⟨rfl, rfl, rfl⟩

/-! ## Every call against the policy -/

theorem Client.unchanged_refl (c : Client) : c.Unchanged c := ⟨rfl, rfl⟩

theorem PolicyHolds.map {α β : Type} {base : UInt64} {mutated : Except MetaError (Option Data)}
    {c : Client} {r : Except MetaError α × Client} (f : α → β)
    (holds : PolicyHolds base mutated c r) : PolicyHolds base mutated c (r.1.map f, r.2) := by
  obtain ⟨_ | a, c'⟩ := r <;> exact holds

/-- A method's error returns with the client as it was; past it, the call goes on. -/
theorem PolicyHolds.orReturn {α : Type} {base : UInt64} {c : Client}
    {x : Data × Option MetaError} {k : Data → Except MetaError α × Client}
    {k' : Data → Except MetaError (Option Data)}
    (next : x.2 = none → PolicyHolds base (k' x.1) c (k x.1)) :
    PolicyHolds base (mutatedThen x k') c (c.orReturn x k) := by
  unfold Client.orReturn mutatedThen
  cases passed : x.2 with
  | some e => exact c.unchanged_refl
  | none => exact next passed

section
variable (hook : Hook) (methods : DataMethods)

end

/-! ## Runs of calls -/

/-- The client after calls run one after another, each meeting the hook's answers at its time. -/
def Client.run (methods : DataMethods) : List (Hook × Op) → Client → Client
  | [], c => c
  | (hook, op) :: rest, c => Client.run methods rest (c.exec hook methods op).2

end Chronus.Meta
