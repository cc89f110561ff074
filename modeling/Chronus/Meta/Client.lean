import Chronus.Meta.Data

/-!
# The meta client and its commit pipeline

`Client` holds the cached snapshot `cacheData`, the `changed` notification channel and the
authentication cache. Every mutating call of `store.go` takes the exclusive lock for its
whole body, so each is one function here, from the client before the call to its result
and the client after it. Go's `(value, error)` results are `Except`; a pointer result that
may be `nil` is an `Option`.

The persistence hook `snapshot(path, data)` is a parameter `hook` of every call. The
`snapshot` of this repository never fails; the spec leaves a failing one to deployments.
The methods of `Data` that no result depends on are the fields of `DataMethods`.
-/

namespace Chronus.Meta

/-! ## The client -/

/-- An entry of the authentication cache: the bcrypt hash it was computed against, the salt,
and `SHA256(salt || password)`. -/
structure AuthUser where
  bhash : String
  salt : List UInt8
  hash : List UInt8
deriving DecidableEq, Repr

/-- `Client`. The `changed` channel is named by a generation: a commit closes channel `k`
and installs channel `k + 1`, so the channels closed so far are those below `changed`. -/
structure Client where
  cacheData : Data
  changed : Nat
  authCache : String → Option AuthUser
  path : String
  retentionAutoCreate : Bool

/-- `NewClient`: an empty snapshot at `Index` 1 and an empty cache. -/
def newClient (dir : String) (retentionAutoCreate : Bool) : Client :=
  { cacheData := ⟨0, 1, [], [], [], 0, 0⟩, changed := 0, authCache := fun _ => none,
    path := dir, retentionAutoCreate }

/-- `delete(c.authCache, name)`. -/
def Client.deleteAuth (c : Client) (name : String) : Client :=
  { c with authCache := fun n => if n = name then none else c.authCache n }

/-- The persistence hook `snapshot(path, data)`: `some` error when it fails. -/
abbrev Hook := String → Data → Option MetaError

/-- `snapshot` as this repository writes it: it writes nothing and never fails. -/
def snapshot : Hook := fun _ _ => none

/-- `data.Index++`. -/
def Data.bump (data : Data) : Data := { data with index := data.index + 1 }

/-- `Client.commit`: `data.Index++`, run the hook, then swap the value in and replace the
`changed` channel. A failing hook leaves the client as it was. -/
def Client.commit (hook : Hook) (data : Data) (c : Client) : Except MetaError Unit × Client :=
  match hook c.path data.bump with
  | some err => (.error err, c)
  | none => (.ok (), { c with cacheData := data.bump, changed := c.changed + 1 })

theorem Client.commit_cases (hook : Hook) (data : Data) (c : Client) :
    (∃ e, c.commit hook data = (.error e, c)) ∨
    c.commit hook data = (.ok (), { c with cacheData := data.bump, changed := c.changed + 1 }) := by
  unfold Client.commit
  cases hook c.path data.bump with
  | some e => exact .inl ⟨e, rfl⟩
  | none => exact .inr rfl

/-! ## Methods outside this repository -/

/-- `influxql.Privilege`. -/
inductive Privilege
  | noPrivileges
  | read
  | write
  | all
deriving DecidableEq, Repr

/-- `meta.RetentionPolicySpec`: the policy a caller asks for. -/
structure RetentionPolicySpec where
  name : String
  replicaN : Option Nat
  duration : Option Duration
  shardGroupDuration : Duration
deriving DecidableEq, Repr

/-- `meta.RetentionPolicyUpdate`. -/
structure RetentionPolicyUpdate where
  name : Option String
  duration : Option Duration
  replicaN : Option Nat
  shardGroupDuration : Option Duration
deriving DecidableEq, Repr

/-- A method of `Data` whose body is outside this repository: it returns its receiver as it
leaves it together with its error, and it never touches `Index`. -/
structure Mutation where
  apply : Data → Data × Option MetaError
  apply_index : ∀ data, (apply data).1.index = data.index

/-- The methods the client calls whose bodies are in `data.go` or in the `meta` package of
`influxdb`, none of them in this repository. -/
structure DataMethods where
  createDataNode : String → String → Mutation
  deleteDataNode : UInt64 → Mutation
  dropDatabase : String → Mutation
  createRetentionPolicy : String → RetentionPolicyInfo → Bool → Mutation
  dropRetentionPolicy : String → String → Mutation
  updateRetentionPolicy : String → String → RetentionPolicyUpdate → Bool → Mutation
  setPrivilege : String → String → Privilege → Mutation
  setAdminPrivilege : String → Bool → Mutation
  addShardOwner : UInt64 → UInt64 → Mutation
  removeShardOwner : UInt64 → UInt64 → Mutation
  dropShard : UInt64 → Mutation
  truncateShardGroups : Time → Mutation
  freezeDataNode : UInt64 → Mutation
  unfreezeDataNode : UInt64 → Mutation
  deleteShardGroup : String → String → UInt64 → Time → Mutation
  createContinuousQuery : String → String → String → Mutation
  dropContinuousQuery : String → String → Mutation
  createSubscription : String → String → String → String → List String → Mutation
  dropSubscription : String → String → String → Mutation
  newRetentionPolicyInfo : RetentionPolicySpec → RetentionPolicyInfo
  specMatches : RetentionPolicySpec → Option RetentionPolicyInfo → Bool

/-- `meta.MinRetentionPolicyDuration`: one hour. -/
def minRetentionPolicyDuration : Duration := 3600 * 1000000000

/-- Modelled from the spec: `meta.DefaultRetentionPolicyInfo`, the policy named `autogen`,
with one replica, infinite duration and week-long shard groups. -/
def defaultRetentionPolicyInfo : RetentionPolicyInfo :=
  ⟨"autogen", 1, 0, 7 * 24 * 3600 * 1000000000, []⟩

/-- The duration check that `CreateRetentionPolicy` and `CreateDatabaseWithRetentionPolicy`
both make: `spec.Duration != nil && *spec.Duration < MinRetentionPolicyDuration &&
*spec.Duration != 0`. -/
def durationTooLow : Option Duration → Bool
  | some d => decide (d < minRetentionPolicyDuration) && d != 0
  | none => false

/-- A Go result pair `(v, err)` as its caller reads it. -/
def goResult {α : Type} : Option α × Option MetaError → Except MetaError (Option α)
  | (_, some e) => .error e
  | (v, none) => .ok v

/-- `Client.user`: the pair `(&u, nil)` for a user found, `(nil, ErrUserNotFound)` otherwise. -/
def Client.user (c : Client) (name : String) : Option UserInfo × Option MetaError :=
  match c.cacheData.user name with
  | some u => (some u, none)
  | none => (none, some .userNotFound)

/-- `Client.DataNodeByTCPHost`: a copy of the data node with that TCP address. -/
def Client.dataNodeByTCPHost (c : Client) (tcpAddr : String) : Except MetaError NodeInfo :=
  match c.cacheData.dataNodes.find? (·.tcpHost == tcpAddr) with
  | some n => .ok n
  | none => .error .nodeNotFound

/-- Go's `if err != nil { return nil, err }` after a method call: go on with the receiver as
the method left it, or return the error with the client as it was. -/
def Client.orReturn {α : Type} (c : Client) (x : Data × Option MetaError)
    (k : Data → Except MetaError α × Client) : Except MetaError α × Client :=
  match x.2 with
  | some e => (.error e, c)
  | none => k x.1

/-- `if err := c.commit(data); err != nil { return nil, err }`, then return the value `v`
computes on the client after the commit. -/
def Client.commitThen {α : Type} (hook : Hook) (data : Data) (v : Client → Except MetaError α)
    (c : Client) : Except MetaError α × Client :=
  match c.commit hook data with
  | (.ok (), c') => (v c', c')
  | (.error e, c') => (.error e, c')

/-! ## The mutating calls -/

section Calls

variable (hook : Hook) (methods : DataMethods)

/-- The body most mutating calls share: clone, apply the method, return its error, or commit
the clone. -/
def Client.update (m : Mutation) (c : Client) : Except MetaError Unit × Client :=
  c.orReturn (m.apply c.cacheData.clone) fun data => c.commit hook data

/-- The body of the calls that drop their method's error and always commit. -/
def Client.updateAlways (m : Mutation) (c : Client) : Except MetaError Unit × Client :=
  c.commit hook (m.apply c.cacheData.clone).1

/-- `Client.CreateDataNode`. Unlike every other mutation it calls the method on the live
snapshot `c.data()` and commits that same value, so the method's change, and the commit's
`Index++`, stay in `cacheData` whatever happens after them. -/
def Client.createDataNode (httpAddr tcpAddr : String) (c : Client) :
    Except MetaError NodeInfo × Client :=
  let (data, err) := (methods.createDataNode httpAddr tcpAddr).apply c.cacheData
  let c := { c with cacheData := data }
  match err with
  | some e => (.error e, c)
  | none =>
    match c.dataNodeByTCPHost tcpAddr with
    | .error e => (.error e, c)
    | .ok n =>
      match c.commit hook c.cacheData with
      | (.ok (), c') => (.ok n, c')
      | (.error e, _) => (.error e, { c with cacheData := c.cacheData.bump })

def Client.deleteDataNode (id : UInt64) : Client → Except MetaError Unit × Client :=
  Client.update hook (methods.deleteDataNode id)

/-- `Client.CreateDatabase`: return the database if it exists; otherwise create it, with the
default policy when `retentionAutoCreate` is set, and commit. -/
def Client.createDatabase (name : String) (c : Client) :
    Except MetaError (Option DatabaseInfo) × Client :=
  let data := c.cacheData.clone
  match data.database name with
  | some db => (.ok (some db), c)
  | none =>
    c.orReturn (data.createDatabase name) fun data =>
    c.orReturn
      (if c.retentionAutoCreate then
        (methods.createRetentionPolicy name defaultRetentionPolicyInfo true).apply data
      else (data, none)) fun data =>
    c.commitThen hook data fun _ => .ok (data.database name)

/-- `Client.CreateDatabaseWithRetentionPolicy`. The database `db` is read through the
pointer `data.Database` returned, so its default policy is read after the policy is made. -/
def Client.createDatabaseWithRetentionPolicy (name : String)
    (spec : Option RetentionPolicySpec) (c : Client) :
    Except MetaError (Option DatabaseInfo) × Client :=
  match spec with
  | none => (.error (.other "CreateDatabaseWithRetentionPolicy called with nil spec"), c)
  | some spec =>
    if durationTooLow spec.duration then (.error .retentionPolicyDurationTooLow, c) else
    let data := c.cacheData.clone
    c.orReturn
      (match data.database name with
        | some _ => (data, none)
        | none => data.createDatabase name) fun data =>
    match data.database name with
    | none => (.error (.other "invalid memory address or nil pointer dereference"), c)
    | some db =>
      let rpi := methods.newRetentionPolicyInfo spec
      c.orReturn
        (if db.retentionPolicies.isEmpty then
          (methods.createRetentionPolicy name rpi true).apply data
        else if methods.specMatches spec (db.retentionPolicy rpi.name) then (data, none)
        else (data, some .retentionPolicyConflict)) fun data =>
      if (data.database name).map (·.defaultRetentionPolicy) != some rpi.name then
        (.error .retentionPolicyConflict, c)
      else c.commitThen hook data fun _ => .ok (data.database name)

def Client.dropDatabase (name : String) : Client → Except MetaError Unit × Client :=
  Client.update hook (methods.dropDatabase name)

/-- `Client.CreateRetentionPolicy`: the duration check, then the clone-mutate-commit body. -/
def Client.createRetentionPolicy (database : String) (spec : RetentionPolicySpec)
    (makeDefault : Bool) (c : Client) : Except MetaError RetentionPolicyInfo × Client :=
  if durationTooLow spec.duration then (.error .retentionPolicyDurationTooLow, c) else
  let rp := methods.newRetentionPolicyInfo spec
  let result := c.update hook (methods.createRetentionPolicy database rp makeDefault)
  (result.1.map fun _ => rp, result.2)

def Client.dropRetentionPolicy (database name : String) :
    Client → Except MetaError Unit × Client :=
  Client.update hook (methods.dropRetentionPolicy database name)

def Client.updateRetentionPolicy (database name : String) (rpu : RetentionPolicyUpdate)
    (makeDefault : Bool) : Client → Except MetaError Unit × Client :=
  Client.update hook (methods.updateRetentionPolicy database name rpu makeDefault)

/-- `Client.CreateUser`. Its existence check is `err != nil && u != nil` on the pair
`c.user(name)` returns; past it, it creates the user on a clone, commits, and returns
`c.user(name)`. -/
def Client.createUser (name hashedPassword : String) (admin : Bool) (c : Client) :
    Except MetaError (Option UserInfo) × Client :=
  let data := c.cacheData.clone
  match c.user name with
  | (some u, some _) =>
    if u.hash != hashedPassword || u.admin != admin then (.error .userExists, c)
    else (.ok (some u), c)
  | _ =>
    c.orReturn (data.createUser name hashedPassword admin) fun data =>
    c.commitThen hook data fun c' => goResult (c'.user name)

/-- The body `UpdateUser` and `DropUser` share: return the method's error, or commit; once
the method has succeeded the deferred `delete(c.authCache, name)` runs, whether or not the
commit does. -/
def Client.updateForget (x : Data × Option MetaError) (name : String) (c : Client) :
    Except MetaError Unit × Client :=
  c.orReturn x fun data =>
  let result := c.commit hook data
  (result.1, result.2.deleteAuth name)

def Client.updateUser (name hashedPassword : String) (c : Client) :
    Except MetaError Unit × Client :=
  c.updateForget hook (c.cacheData.clone.updateUser name hashedPassword) name

def Client.dropUser (name : String) (c : Client) : Except MetaError Unit × Client :=
  c.updateForget hook (c.cacheData.clone.dropUser name) name

def Client.setPrivilege (username database : String) (p : Privilege) :
    Client → Except MetaError Unit × Client :=
  Client.update hook (methods.setPrivilege username database p)

def Client.setAdminPrivilege (username : String) (admin : Bool) :
    Client → Except MetaError Unit × Client :=
  Client.update hook (methods.setAdminPrivilege username admin)

def Client.addShardOwner (shardID nodeID : UInt64) : Client → Except MetaError Unit × Client :=
  Client.updateAlways hook (methods.addShardOwner shardID nodeID)

def Client.removeShardOwner (shardID nodeID : UInt64) :
    Client → Except MetaError Unit × Client :=
  Client.updateAlways hook (methods.removeShardOwner shardID nodeID)

def Client.dropShard (id : UInt64) : Client → Except MetaError Unit × Client :=
  Client.updateAlways hook (methods.dropShard id)

def Client.truncateShardGroups (t : Time) : Client → Except MetaError Unit × Client :=
  Client.updateAlways hook (methods.truncateShardGroups t)

/-- The groups `PruneShardGroups` keeps: live ones, and deleted ones that
`!expiration.After(sgi.DeletedAt)`. -/
def keepShardGroup (expiration : Time) (g : ShardGroupInfo) : Bool :=
  match g.deletedAt with
  | none => true
  | some deletedAt => !decide (deletedAt < expiration)

/-- Every policy's groups filtered by `keepShardGroup`. -/
def pruneData (expiration : Time) (data : Data) : Data :=
  { data with
    databases := data.databases.map fun d =>
      { d with
        retentionPolicies := d.retentionPolicies.map fun rp =>
          { rp with shardGroups := rp.shardGroups.filter (keepShardGroup expiration) } } }

/-- `Client.PruneShardGroups`: commit the filtered clone if some group was removed. -/
def Client.pruneShardGroups (expiration : Time) (c : Client) :
    Except MetaError Unit × Client :=
  let data := c.cacheData.clone
  let changed := data.databases.any fun d => d.retentionPolicies.any fun rp =>
    rp.shardGroups.any fun g => !keepShardGroup expiration g
  if changed then c.commit hook (pruneData expiration data) else (.ok (), c)

end Calls

/-- `createShardGroup`: create the group for `t` on `data`, then look the policy up again and
return the group that now covers `t`, together with `data` as the calls left it. -/
def createShardGroup (data : Data) (database policy : String) (t : Time) :
    Data × Except MetaError (Option ShardGroupInfo) :=
  if (data.shardGroupAt database policy t).isSome then (data, .error .shardGroupExists) else
  match data.createShardGroup database policy t with
  | (data, some e) => (data, .error e)
  | (data, none) =>
    match data.retentionPolicy database policy with
    | .error e => (data, .error e)
    | .ok none => (data, .error (.other "retention policy deleted after shard group created"))
    | .ok (some rpi) => (data, .ok (rpi.shardGroupByTimestamp t))

section Calls

variable (hook : Hook) (methods : DataMethods)

/-- The write-locked section of `Client.CreateShardGroup`: check again on a fresh clone, then
create and commit. -/
def Client.createShardGroupLocked (database policy : String) (t : Time) (c : Client) :
    Except MetaError (Option ShardGroupInfo) × Client :=
  let data := c.cacheData.clone
  match data.shardGroupAt database policy t with
  | some sg => (.ok (some sg), c)
  | none =>
    let created := createShardGroup data database policy t
    match created.2 with
    | .error e => (.error e, c)
    | .ok sgi => c.commitThen hook created.1 fun _ => .ok sgi

/-- `Client.CreateShardGroup`: the read-locked fast path, then the write-locked section. -/
def Client.createShardGroup (database policy : String) (t : Time) (c : Client) :
    Except MetaError (Option ShardGroupInfo) × Client :=
  match c.cacheData.shardGroupAt database policy t with
  | some sg => (.ok (some sg), c)
  | none => c.createShardGroupLocked hook database policy t

/-- One policy of `PrecreateShardGroups`' loop. If the last group is live and ends inside
`(from, to)`, create the group for the next nanosecond unless a live group covers it. A failure
is only logged. A nil group returned without an error is read for its ID in the log line
(`newGroup.ID`, store.go:957): a nil dereference, which ends the call. -/
def precreateStep (fromTime toTime : Time) (acc : Data × Bool)
    (target : String × RetentionPolicyInfo) : Except MetaError (Data × Bool) :=
  match target.2.shardGroups.getLast? with
  | none => .ok acc
  | some g =>
    if !g.deleted && decide (g.endTime < toTime) && decide (fromTime < g.endTime) then
      if (acc.1.shardGroupAt target.1 target.2.name (g.endTime + 1)).isSome then .ok acc
      else
        let created := createShardGroup acc.1 target.1 target.2.name (g.endTime + 1)
        match created.2 with
        | .error _ => .ok (created.1, acc.2)
        | .ok none => .error (.other "invalid memory address or nil pointer dereference")
        | .ok (some _) => .ok (created.1, true)
    else .ok acc

/-- The `(database, policy)` pairs of `PrecreateShardGroups`'s two loops, each policy as the
loop reads it: no earlier iteration can have changed it, since `createShardGroup` changes
only the first policy of a name, and that one is visited first. -/
def precreateTargets (data : Data) : List (String × RetentionPolicyInfo) :=
  data.databases.flatMap fun di => di.retentionPolicies.map fun rp => (di.name, rp)

/-- `Client.PrecreateShardGroups`: one commit at the end if some group was created. A panic in
the loop unwinds through the deferred unlock with nothing committed. -/
def Client.precreateShardGroups (fromTime toTime : Time) (c : Client) :
    Except MetaError Unit × Client :=
  let data := c.cacheData.clone
  match (precreateTargets data).foldlM (precreateStep fromTime toTime) (data, false) with
  | .error e => (.error e, c)
  | .ok result => if result.2 then c.commit hook result.1 else (.ok (), c)

def Client.freezeDataNode (id : UInt64) : Client → Except MetaError Unit × Client :=
  Client.update hook (methods.freezeDataNode id)

def Client.unfreezeDataNode (id : UInt64) : Client → Except MetaError Unit × Client :=
  Client.update hook (methods.unfreezeDataNode id)

def Client.deleteShardGroup (database policy : String) (id : UInt64) (t : Time) :
    Client → Except MetaError Unit × Client :=
  Client.update hook (methods.deleteShardGroup database policy id t)

def Client.createContinuousQuery (database name query : String) :
    Client → Except MetaError Unit × Client :=
  Client.update hook (methods.createContinuousQuery database name query)

def Client.dropContinuousQuery (database name : String) :
    Client → Except MetaError Unit × Client :=
  Client.update hook (methods.dropContinuousQuery database name)

def Client.createSubscription (database rp name mode : String) (destinations : List String) :
    Client → Except MetaError Unit × Client :=
  Client.update hook (methods.createSubscription database rp name mode destinations)

def Client.dropSubscription (database rp name : String) :
    Client → Except MetaError Unit × Client :=
  Client.update hook (methods.dropSubscription database rp name)

/-- `Client.SetData`: zero the live `Index` ("so the commit will fire a change event"), then
commit a clone of the given value. -/
def Client.setData (data : Data) (c : Client) : Except MetaError Unit × Client :=
  let c := { c with cacheData := { c.cacheData with index := 0 } }
  c.commit hook data.clone

/-- `Client.ReplaceData`: persist, then swap in the given value as it is, `Index` included. -/
def Client.replaceData (data : Data) (c : Client) : Except MetaError Unit × Client :=
  match hook c.path data with
  | some e => (.error e, c)
  | none => (.ok (), { c with cacheData := data, changed := c.changed + 1 })

end Calls

/-! ## The precreation loop -/

@[simp] theorem except_ok_bind {ε α β : Type} (a : α) (f : α → Except ε β) :
    (Except.ok a >>= f) = f a := rfl

/-- A loop in `Except` that returned a value passed every step with a value. -/
theorem foldlM_ok_cons {ε α β : Type} {f : α → β → Except ε α} {a a' : α} {b : β}
    {l : List β} (ok : (b :: l).foldlM f a = .ok a') :
    ∃ a₁, f a b = .ok a₁ ∧ l.foldlM f a₁ = .ok a' := by
  rw [List.foldlM_cons] at ok
  cases step : f a b with
  | error e => rw [step] at ok; cases ok
  | ok a₁ => rw [step] at ok; exact ⟨a₁, rfl, ok⟩

/-- A step of the loop that goes on keeps the snapshot, or keeps what `createShardGroup` left. -/
theorem precreateStep_fst {fromTime toTime : Time} {acc acc' : Data × Bool}
    {target : String × RetentionPolicyInfo}
    (ok : precreateStep fromTime toTime acc target = .ok acc') :
    acc'.1 = acc.1 ∨ ∃ t, acc'.1 = (createShardGroup acc.1 target.1 target.2.name t).1 := by
  unfold precreateStep at ok
  split at ok
  · cases ok; exact .inl rfl
  · split at ok
    · split at ok
      · cases ok; exact .inl rfl
      · dsimp only at ok
        split at ok <;> cases ok
        · exact .inr ⟨_, rfl⟩
        · exact .inr ⟨_, rfl⟩
    · cases ok; exact .inl rfl

end Chronus.Meta
