import Chronus.Meta.Store

/-!
# Live shard groups never overlap

`CreateShardGroup` and `PrecreateShardGroups` only create a group through `createShardGroup`,
which checks first that no live group of the policy covers the time, and `Data.CreateShardGroup`
then inserts the window of the policy's group duration that holds it. `PruneShardGroups` only
removes groups, and the user calls and the commit leave the groups alone.

`Data.Invariant P` says what a property of the snapshot has to survive: a group created by
`Data.CreateShardGroup`, the filter of `PruneShardGroups`, a new list of users and the commit's
`Index` bump. Any such property holds along every run of the concrete calls, whatever the hooks
answer (`Data.Invariant.run`). Alignment is one (`Data.aligned_invariant`): every policy has a
positive group duration and its live groups are windows of it with distinct starts. From an
aligned snapshot, then, no two live groups of a policy ever cover one time
(`Client.run_aligned`), so a write always has exactly one group to go to once one is made.
-/

namespace Chronus.Meta

/-! ## Properties the concrete calls keep -/

/-- A property of snapshots that every edit of the concrete calls keeps: a group created by
`Data.CreateShardGroup`, the filter of `PruneShardGroups`, a new list of users, and the commit's
`Index` bump. -/
structure Data.Invariant (P : Data → Prop) : Prop where
  createShardGroup : ∀ {data : Data} (database policy : String) (t : Time), P data →
    P (data.createShardGroup database policy t).1
  pruneData : ∀ {data : Data} (e : Time), P data → P (pruneData e data)
  users : ∀ {data : Data} (users : List UserInfo), P data → P { data with users }
  bump : ∀ {data : Data}, P data → P data.bump

theorem Client.orReturn_holds {P : Data → Prop} {α : Type} {c : Client}
    (holds : P c.cacheData) {x : Data × Option MetaError}
    {next : Data → Except MetaError α × Client} (kept : P (next x.1).2.cacheData) :
    P (c.orReturn x next).2.cacheData := by
  unfold Client.orReturn
  split
  · exact holds
  · exact kept

section Invariant

variable {P : Data → Prop} (inv : Data.Invariant P)
include inv

theorem Data.Invariant.groupEdits {data d : Data} {j : Nat} (edits : data.GroupEdits j d)
    (holds : P data) : P d := by
  induction edits with
  | refl => exact holds
  | create database policy t _ ih => exact inv.createShardGroup database policy t ih
  | prune e _ ih => exact inv.pruneData e ih

theorem Data.Invariant.edited {c c' : Client} {m : Nat} (edited : c.Edited c' m)
    (holds : P c.cacheData) : P c'.cacheData := by
  rcases edited with rfl | ⟨j, -, d, edits, rfl⟩
  · exact holds
  · exact inv.bump (inv.groupEdits edits holds)

theorem Data.Invariant.createUser {data : Data} (holds : P data) (name hash : String)
    (admin : Bool) : P (data.createUser name hash admin).1 := by
  unfold Data.createUser
  split
  · exact holds
  · exact inv.users _ holds

theorem Data.Invariant.updateUser {data : Data} (holds : P data) (name hash : String) :
    P (data.updateUser name hash).1 := by
  unfold Data.updateUser
  split
  · exact holds
  · exact inv.users _ holds

theorem Data.Invariant.dropUser {data : Data} (holds : P data) (name : String) :
    P (data.dropUser name).1 := by
  unfold Data.dropUser
  split
  · exact holds
  · exact inv.users _ holds

theorem Data.Invariant.commit {c : Client} (holds : P c.cacheData) {data : Data} (d : P data)
    (hook : Hook) : P (c.commit hook data).2.cacheData := by
  rcases c.commit_cases hook data with ⟨e, failed⟩ | done
  · rw [failed]; exact holds
  · rw [done]; exact inv.bump d

theorem Data.Invariant.exec {c : Client} (holds : P c.cacheData) (hook : Hook)
    (methods : DataMethods) {op : Op} (concrete : op.concrete = true) :
    P (c.exec hook methods op).2.cacheData := by
  cases op with
  | createShardGroup => exact inv.edited (Client.exec_edited hook methods (by rfl) c) holds
  | precreateShardGroups => exact inv.edited (Client.exec_edited hook methods (by rfl) c) holds
  | pruneShardGroups => exact inv.edited (Client.exec_edited hook methods (by rfl) c) holds
  | createUser name hash admin =>
    show P (c.createUser hook name hash admin).2.cacheData
    unfold Client.createUser
    split
    · split <;> exact holds
    · refine Client.orReturn_holds holds ?_
      rw [Client.commitThen_snd]
      exact inv.commit holds (by simpa using inv.createUser holds name hash admin) hook
  | updateUser name hash =>
    exact Client.orReturn_holds holds
      (inv.commit holds (by simpa using inv.updateUser holds name hash) hook)
  | dropUser name =>
    exact Client.orReturn_holds holds
      (inv.commit holds (by simpa using inv.dropUser holds name) hook)
  | _ => cases concrete

/-- Along any run of concrete calls, whatever each hook answers and whatever the methods outside
this repository do, the property holds. -/
theorem Data.Invariant.run (methods : DataMethods) (calls : List (Hook × Op))
    (concrete : ∀ call ∈ calls, call.2.concrete = true) (c : Client) (holds : P c.cacheData) :
    P (Client.run methods calls c).cacheData := by
  induction calls generalizing c with
  | nil => exact holds
  | cons call rest ih =>
    exact ih (fun call mem => concrete call (.tail _ mem)) _
      (inv.exec holds call.1 methods (concrete call (.head rest)))

end Invariant

/-! ## Aligned groups -/

/-- Every policy has a positive group duration, and its live groups are windows of it with
distinct starts. -/
def Data.Aligned (data : Data) : Prop :=
  ∀ db ∈ data.databases, ∀ rp ∈ db.retentionPolicies,
    0 < rp.shardGroupDuration ∧ AlignedGroups rp.shardGroups rp.shardGroupDuration

theorem AlignedGroups.subset {groups groups' : List ShardGroupInfo} {d : Duration}
    (al : AlignedGroups groups d) (sub : groups' ⊆ groups) : AlignedGroups groups' d :=
  ⟨fun g mem live => al.window g (sub mem) live,
    fun g mem g' mem' => al.distinct g (sub mem) g' (sub mem')⟩

/-- An element of `modifyFirst` was in the list, or is the first match changed. -/
theorem mem_modifyFirst_find? {α : Type} {p : α → Bool} {f : α → α} {l : List α} {x : α}
    (mem : x ∈ modifyFirst p f l) : x ∈ l ∨ ∃ a, l.find? p = some a ∧ x = f a := by
  induction l with
  | nil => cases mem
  | cons b l ih =>
    unfold modifyFirst at mem
    by_cases first : p b
    · simp only [first, if_true, List.mem_cons] at mem
      rcases mem with rfl | rest
      · exact .inr ⟨b, by simp [List.find?_cons, first], rfl⟩
      · exact .inl (List.mem_cons_of_mem _ rest)
    · simp only [first, Bool.false_eq_true, if_false, List.mem_cons] at mem
      rcases mem with rfl | rest
      · exact .inl (List.mem_cons_self _ _)
      · rcases ih rest with old | ⟨a, found, rfl⟩
        · exact .inl (List.mem_cons_of_mem _ old)
        · exact .inr ⟨a, by simp [List.find?_cons, first, found], rfl⟩

/-- A policy after `modifyRetentionPolicy` was a policy before, or is the changed policy the
names resolve to. -/
theorem Data.mem_modifyRetentionPolicy {data : Data} {database policy : String}
    {f : RetentionPolicyInfo → RetentionPolicyInfo} {db : DatabaseInfo}
    (mem : db ∈ (data.modifyRetentionPolicy database policy f).databases)
    {rp : RetentionPolicyInfo} (policy' : rp ∈ db.retentionPolicies) :
    (∃ db ∈ data.databases, rp ∈ db.retentionPolicies) ∨
      ∃ rp0, data.retentionPolicy database policy = .ok (some rp0) ∧ rp = f rp0 := by
  rcases mem_modifyFirst_find? mem with old | ⟨dbi, found, rfl⟩
  · exact .inl ⟨db, old, policy'⟩
  · rcases mem_modifyFirst_find? policy' with kept | ⟨rp0, found', rfl⟩
    · exact .inl ⟨dbi, List.mem_of_find?_eq_some found, kept⟩
    · refine .inr ⟨rp0, ?_, rfl⟩
      simp [Data.retentionPolicy, Data.database, found, DatabaseInfo.retentionPolicy, found']

/-- `Data.CreateShardGroup` inserts the window of `t` only where no live group covers `t`. -/
theorem Data.Aligned.createShardGroup {data : Data} (al : data.Aligned) (database policy : String)
    (t : Time) : (data.createShardGroup database policy t).1.Aligned := by
  unfold Data.createShardGroup
  split
  · exact al
  · exact al
  · rename_i rp0 found
    split
    · exact al
    · rename_i covered
      intro db mem rp policy'
      rcases Data.mem_modifyRetentionPolicy mem policy' with ⟨db0, mem0, old⟩ | ⟨rp1, found1, rfl⟩
      · exact al db0 mem0 rp old
      · rw [found] at found1
        cases found1
        obtain ⟨db0, mem0, -, policy0, -⟩ := Data.retentionPolicy_found found
        obtain ⟨pos, aligned⟩ := al db0 mem0 rp0 policy0
        have miss := RetentionPolicyInfo.shardGroupByTimestamp_miss (by simpa using covered)
        exact ⟨pos, aligned.insert pos miss (data.newShardGroup rp0 t) rfl rfl rfl _⟩

theorem Data.Aligned.pruneData {data : Data} (al : data.Aligned) (e : Time) :
    (pruneData e data).Aligned := by
  intro db mem rp policy'
  obtain ⟨db0, mem0, rfl⟩ := List.mem_map.mp mem
  obtain ⟨rp0, policy0, rfl⟩ := List.mem_map.mp policy'
  obtain ⟨pos, aligned⟩ := al db0 mem0 rp0 policy0
  exact ⟨pos, aligned.subset fun _ group => (List.mem_filter.mp group).1⟩

theorem Data.aligned_invariant : Data.Invariant Data.Aligned where
  createShardGroup database policy t al := al.createShardGroup database policy t
  pruneData e al := al.pruneData e
  users _ al := al
  bump al := al

/-- From a snapshot whose policies have positive group durations and aligned live groups, any
run of concrete calls, whatever each hook answers and whatever the methods outside this
repository do, keeps it so: no two live groups of a policy ever cover one time. -/
theorem Client.run_aligned (calls : List (Hook × Op))
    (concrete : ∀ call ∈ calls, call.2.concrete = true) (c : Client)
    (aligned : c.cacheData.Aligned) :
    ∀ methods, (Client.run methods calls c).cacheData.Aligned ∧
      ∀ db ∈ (Client.run methods calls c).cacheData.databases, ∀ rp ∈ db.retentionPolicies,
        ∀ g ∈ rp.shardGroups, ∀ g' ∈ rp.shardGroups, ∀ t, g.Covers t → g'.Covers t → g = g' := by
  intro methods
  have al := Data.aligned_invariant.run methods calls concrete c aligned
  refine ⟨al, fun db mem rp policy g group g' group' t covers covers' => ?_⟩
  obtain ⟨pos, groups⟩ := al db mem rp policy
  exact groups.unique pos group group' covers.1 covers'.1 covers.2.1 covers.2.2 covers'.2.1
    covers'.2.2

/-- A policy of 10 ns groups holding `[0, 10)`: a call for 12, a precreation over `(5, 30)` and a
prune. -/
theorem Client.run_aligned_three_calls :
    let c0 : Client := { newClient "meta" false with
      cacheData := ⟨0, 1, [⟨"db", "autogen", [⟨"autogen", 1, 0, 10,
        [⟨1, 0, 10, none, none, [⟨1, [1]⟩]⟩]⟩]⟩], [], [⟨1, "h", "h:8088", false⟩], 1, 1⟩ }
    let calls : List (Hook × Op) := [(snapshot, .createShardGroup "db" "autogen" 12),
      (snapshot, .precreateShardGroups 5 30), (snapshot, .pruneShardGroups 0)]
    ((∀ call ∈ calls, call.2.concrete = true) ∧ c0.cacheData.Aligned) ∧
      (Client.run .inert calls c0).cacheData.Aligned ∧
      ∀ db ∈ (Client.run .inert calls c0).cacheData.databases, ∀ rp ∈ db.retentionPolicies,
        ∀ g ∈ rp.shardGroups, ∀ g' ∈ rp.shardGroups, ∀ t, g.Covers t → g'.Covers t → g = g' := by
  intro c0 calls
  have concrete : ∀ call ∈ calls, call.2.concrete = true := List.all_eq_true.mp rfl
  have aligned : c0.cacheData.Aligned := by
    intro db mem rp policy
    obtain rfl := List.mem_singleton.mp mem
    obtain rfl := List.mem_singleton.mp policy
    refine ⟨by decide, fun g group _ => ?_, fun g group g' group' _ _ _ => ?_⟩
    · obtain rfl := List.mem_singleton.mp group
      exact ⟨by decide, rfl⟩
    · rw [List.mem_singleton.mp group, List.mem_singleton.mp group']
  exact ⟨⟨concrete, aligned⟩, Client.run_aligned calls concrete c0 aligned .inert⟩

end Chronus.Meta
