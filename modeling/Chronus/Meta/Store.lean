import Chronus.Meta.Retention
import Chronus.Meta.ShardQuery

/-!
# The shape of the snapshot over runs

The read paths of the client lean on a shape of the snapshot that no single call checks.
`PrecreateShardGroups` takes "the last group in time" as the last element of `ShardGroups`,
and `ShardGroupsByTimeRange` promises groups "sorted by start time"; both hold when each
policy's groups are in start-time order. `ShardOwner` and `ShardsByTimeRange` name one group
and one shard per shard ID when no shard ID is stored twice, and `ShardIDs` then lists each
ID once.

`Data.WellFormed` is that shape: each policy's groups in start-time order, and every shard ID
and group ID stored once and never above the counter that allocates it. `Data.CreateShardGroup`
keeps it while its counters have room to grow (`Data.Shaped.createShardGroup`), and
`PruneShardGroups` only removes groups (`Data.Shaped.pruneData`). So every run of the calls
whose every step is modelled here, the calls that create and prune groups and the user calls,
keeps it whatever the persistence hook answers, as long as the counters have room for every
group the calls could create (`Client.run_wellFormed`).

On such a snapshot each shard ID is stored at one address (`Data.WellFormed.uniqueShardIDs`),
so `ShardsByTimeRange` over one snapshot lists each shard ID once, whatever the source list
repeats (`shardsByTimeRange_wellFormed_nodup`).
-/

namespace Chronus.Meta

/-! ## The groups and shard IDs of a snapshot -/

/-- Every group of the snapshot, in the order of the client's loops. -/
def Data.groups (data : Data) : List ShardGroupInfo :=
  data.databases.flatMap fun db => db.retentionPolicies.flatMap (·.shardGroups)

/-- Every shard ID the snapshot stores, in the order `ShardIDs`' loops append them. -/
def Data.shardIDList (data : Data) : List UInt64 :=
  data.groups.flatMap fun g => g.shards.map (·.id)

/-- The number of policies of the snapshot. -/
def Data.policyCount (data : Data) : Nat :=
  (data.databases.map (·.retentionPolicies.length)).sum

/-- The two counters can each grow `k` more times without wrapping. -/
def Data.Room (data : Data) (k : Nat) : Prop :=
  data.maxShardID.toNat + k < 2 ^ 64 ∧ data.maxShardGroupID.toNat + k < 2 ^ 64

/-- The shape the read paths rely on: each policy's groups in start-time order, and each shard
ID and group ID stored once and never above the counter that allocates it. -/
structure Data.WellFormed (data : Data) : Prop where
  ordered : ∀ db ∈ data.databases, ∀ rp ∈ db.retentionPolicies,
    rp.shardGroups.Pairwise fun a b => a.startTime ≤ b.startTime
  shardIDsUnique : data.shardIDList.Nodup
  shardIDsFresh : ∀ id ∈ data.shardIDList, id.toNat ≤ data.maxShardID.toNat
  groupIDsUnique : (data.groups.map (·.id)).Nodup
  groupIDsFresh : ∀ g ∈ data.groups, g.id.toNat ≤ data.maxShardGroupID.toNat

instance (data : Data) (k : Nat) : Decidable (data.Room k) :=
  inferInstanceAs (Decidable (_ ∧ _))

/-- The shape, room for `k` more groups, and `n` policies: what a run carries from call to
call. -/
structure Data.Shaped (data : Data) (k n : Nat) : Prop where
  wellFormed : data.WellFormed
  room : data.Room k
  policies : data.policyCount = n

theorem UInt64.toNat_add_one_of_lt {a : UInt64} (room : a.toNat + 1 < 2 ^ 64) :
    (a + 1).toNat = a.toNat + 1 := by
  show (a.toBitVec + (1 : UInt64).toBitVec).toNat = _
  rw [BitVec.toNat_add]
  exact Nat.mod_eq_of_lt room

theorem Data.Shaped.mono {data : Data} {a b n : Nat} (s : data.Shaped a n) (le : b ≤ a) :
    data.Shaped b n :=
  ⟨s.wellFormed, ⟨by have := s.room.1; omega, by have := s.room.2; omega⟩, s.policies⟩

/-- The shape reads only the databases and the two counters. -/
theorem Data.Shaped.congr {data d : Data} {k n : Nat} (s : data.Shaped k n)
    (databases : d.databases = data.databases) (shardIDs : d.maxShardID = data.maxShardID)
    (groupIDs : d.maxShardGroupID = data.maxShardGroupID) : d.Shaped k n := by
  obtain ⟨⟨ordered, shardsUnique, shardsFresh, groupsUnique, groupsFresh⟩, room, policies⟩ :=
    s
  have groups : d.groups = data.groups := by rw [Data.groups, databases]; rfl
  refine ⟨⟨databases ▸ ordered, ?_, ?_, groups ▸ groupsUnique, ?_⟩, ?_, ?_⟩
  · rwa [Data.shardIDList, groups]
  · rw [Data.shardIDList, groups, shardIDs]; exact shardsFresh
  · rw [groups, groupIDs]; exact groupsFresh
  · rw [Data.Room, shardIDs, groupIDs]; exact room
  · rw [Data.policyCount, databases]; exact policies

theorem Data.Shaped.bump {data : Data} {k n : Nat} (s : data.Shaped k n) : data.bump.Shaped k n :=
  s.congr rfl rfl rfl

/-! ## Lists -/

/-- A search that skips the element `modifyFirst` changes, before and after the change, finds
what it found before. -/
theorem find?_modifyFirst_of_skips {α : Type} {p q : α → Bool} {f : α → α}
    (skips : ∀ a, p a = true → q a = false ∧ q (f a) = false) (l : List α) :
    (modifyFirst p f l).find? q = l.find? q := by
  induction l with
  | nil => rfl
  | cons a as ih =>
    unfold modifyFirst
    by_cases changed : p a
    · simp [changed, List.find?_cons, (skips a changed).1, (skips a changed).2]
    · simp [changed, List.find?_cons, ih]

theorem mem_modifyFirst {α : Type} {p : α → Bool} {f : α → α} {l : List α} {x : α}
    (mem : x ∈ modifyFirst p f l) : x ∈ l ∨ ∃ a ∈ l, x = f a := by
  induction l with
  | nil => cases mem
  | cons b l ih =>
    unfold modifyFirst at mem
    split at mem
    · rcases List.mem_cons.mp mem with rfl | mem
      · exact .inr ⟨b, List.mem_cons_self _ _, rfl⟩
      · exact .inl (List.mem_cons_of_mem _ mem)
    · rcases List.mem_cons.mp mem with rfl | mem
      · exact .inl (List.mem_cons_self _ _)
      · rcases ih mem with kept | ⟨a, found, rfl⟩
        · exact .inl (List.mem_cons_of_mem _ kept)
        · exact .inr ⟨a, List.mem_cons_of_mem _ found, rfl⟩

theorem length_modifyFirst {α : Type} (p : α → Bool) (f : α → α) (l : List α) :
    (modifyFirst p f l).length = l.length := by
  induction l with
  | nil => rfl
  | cons b l ih => unfold modifyFirst; split <;> simp [ih]

theorem map_modifyFirst {α β : Type} (p : α → Bool) {f : α → α} {g : α → β}
    (keeps : ∀ a, g (f a) = g a) (l : List α) : (modifyFirst p f l).map g = l.map g := by
  induction l with
  | nil => rfl
  | cons b l ih => unfold modifyFirst; split <;> simp [keeps, ih]

/-- Changing the first element that passes `p` changes a `flatMap` by what it changes that
element's image. -/
theorem flatMap_modifyFirst_perm {α β : Type} {p : α → Bool} {f : α → α}
    {g : α → List β}
    {extra : List β} {l : List α} {a : α} (found : l.find? p = some a)
    (grows : (g (f a)).Perm (extra ++ g a)) :
    ((modifyFirst p f l).flatMap g).Perm (extra ++ l.flatMap g) := by
  induction l with
  | nil => cases found
  | cons b l ih =>
    unfold modifyFirst
    by_cases hit : p b
    · rw [List.find?_cons_of_pos _ hit, Option.some.injEq] at found
      subst found
      simpa [hit] using grows.append_right (l.flatMap g)
    · rw [List.find?_cons_of_neg _ hit] at found
      simp only [hit, Bool.false_eq_true, if_false, List.flatMap_cons]
      refine ((ih found).append_left (g b)).trans ?_
      rw [← List.append_assoc, ← List.append_assoc]
      exact List.perm_append_comm.append_right _

/-! ## Inserting a group -/

theorem orderedInsert_startTime_pairwise {g : ShardGroupInfo} {l : List ShardGroupInfo}
    (ordered : l.Pairwise fun a b => a.startTime ≤ b.startTime) :
    (l.orderedInsert (fun a b => a.startTime < b.startTime) g).Pairwise
      fun a b => a.startTime ≤ b.startTime := by
  induction l with
  | nil => simp
  | cons y ys ih =>
    obtain ⟨first, rest⟩ := List.pairwise_cons.mp ordered
    simp only [List.orderedInsert]
    split
    · rename_i before
      refine List.pairwise_cons.mpr ⟨fun z mem => ?_, ordered⟩
      rcases List.mem_cons.mp mem with rfl | mem
      · exact Int.le_of_lt before
      · exact Int.le_trans (Int.le_of_lt before) (first z mem)
    · rename_i after
      refine List.pairwise_cons.mpr ⟨fun z mem => ?_, ih rest⟩
      rcases (List.mem_orderedInsert _).mp mem with rfl | mem
      · exact Int.not_lt.mp after
      · exact first z mem

/-- What `Data.CreateShardGroup` does: nothing, or it inserts the group it allocates into the
policy it finds, keeping that policy's start-time order, and advances both counters. -/
theorem Data.createShardGroup_cases (data : Data) (database policy : String) (t : Time) :
    (data.createShardGroup database policy t).1 = data ∨
      ∃ rpi f, data.retentionPolicy database policy = .ok (some rpi) ∧
        (f rpi).shardGroups.Perm ([data.newShardGroup rpi t] ++ rpi.shardGroups) ∧
        (∀ rp : RetentionPolicyInfo,
          (rp.shardGroups.Pairwise fun a b => a.startTime ≤ b.startTime) →
          (f rp).shardGroups.Pairwise fun a b => a.startTime ≤ b.startTime) ∧
        (data.createShardGroup database policy t).1 =
          { data.modifyRetentionPolicy database policy f with
            maxShardGroupID := data.maxShardGroupID + 1, maxShardID := data.maxShardID + 1 } := by
  unfold Data.createShardGroup
  split
  · exact .inl rfl
  · exact .inl rfl
  · rename_i rpi found
    split
    · exact .inl rfl
    · exact .inr ⟨rpi, _, found, List.perm_orderedInsert _ _ _,
        fun _ ordered => orderedInsert_startTime_pairwise ordered, rfl⟩

theorem Data.groups_modifyRetentionPolicy {data : Data} {database policy : String}
    {rpi : RetentionPolicyInfo} (found : data.retentionPolicy database policy = .ok (some rpi))
    {f : RetentionPolicyInfo → RetentionPolicyInfo} {extra : List ShardGroupInfo}
    (grows : (f rpi).shardGroups.Perm (extra ++ rpi.shardGroups)) :
    (data.modifyRetentionPolicy database policy f).groups.Perm (extra ++ data.groups) := by
  unfold Data.retentionPolicy Data.database at found
  cases db : data.databases.find? (·.name == database) with
  | none => simp [db] at found
  | some dbi =>
    simp only [db, Except.ok.injEq, DatabaseInfo.retentionPolicy] at found
    exact flatMap_modifyFirst_perm db (flatMap_modifyFirst_perm found grows)

/-- A property of every policy that `f` keeps is kept by `modifyRetentionPolicy`. -/
theorem Data.forall_policies_modifyRetentionPolicy {data : Data} {database policy : String}
    {f : RetentionPolicyInfo → RetentionPolicyInfo} {P : RetentionPolicyInfo → Prop}
    (all : ∀ db ∈ data.databases, ∀ rp ∈ db.retentionPolicies, P rp)
    (keeps : ∀ rp, P rp → P (f rp)) :
    ∀ db ∈ (data.modifyRetentionPolicy database policy f).databases,
      ∀ rp ∈ db.retentionPolicies, P rp := by
  intro db member rp policy'
  rcases mem_modifyFirst member with kept | ⟨dbi, found, rfl⟩
  · exact all db kept rp policy'
  · rcases mem_modifyFirst policy' with stays | ⟨rpi, changed, rfl⟩
    · exact all dbi found rp stays
    · exact keeps rpi (all dbi found rpi changed)

theorem Data.policyCount_modifyRetentionPolicy (data : Data) (database policy : String)
    (f : RetentionPolicyInfo → RetentionPolicyInfo) :
    (data.modifyRetentionPolicy database policy f).policyCount = data.policyCount := by
  unfold Data.policyCount Data.modifyRetentionPolicy
  dsimp only
  rw [map_modifyFirst _ fun db : DatabaseInfo => length_modifyFirst _ _ db.retentionPolicies]

/-! ## `Data.CreateShardGroup` keeps the shape -/

/-- `Data.CreateShardGroup` keeps the shape while both counters can grow once more; it uses up
at most one unit of room and keeps the number of policies. -/
theorem Data.Shaped.createShardGroup {data : Data} {k n : Nat} (s : data.Shaped (k + 1) n)
    (database policy : String) (t : Time) :
    (data.createShardGroup database policy t).1.Shaped k n := by
  rcases data.createShardGroup_cases database policy t with
    same | ⟨rpi, f, found, grows, keeps, created⟩
  · rw [same]
    exact s.mono (by omega)
  · rw [created]
    obtain ⟨wf, ⟨shardRoom, groupRoom⟩, policies⟩ := s
    have groups := data.groups_modifyRetentionPolicy found grows
    have newShardID : (data.maxShardID + 1).toNat = data.maxShardID.toNat + 1 :=
      UInt64.toNat_add_one_of_lt (by omega)
    have newGroupID : (data.maxShardGroupID + 1).toNat = data.maxShardGroupID.toNat + 1 :=
      UInt64.toNat_add_one_of_lt (by omega)
    have shardIDs : ((data.modifyRetentionPolicy database policy f).groups.flatMap fun g =>
        g.shards.map (·.id)).Perm ((data.maxShardID + 1) :: data.shardIDList) := by
      simpa [Data.shardIDList, Data.newShardGroup] using groups.flatMap_right fun g =>
        g.shards.map (·.id)
    have groupIDs : ((data.modifyRetentionPolicy database policy f).groups.map (·.id)).Perm
        ((data.maxShardGroupID + 1) :: data.groups.map (·.id)) := by
      simpa [Data.newShardGroup] using groups.map (·.id)
    refine ⟨⟨Data.forall_policies_modifyRetentionPolicy wf.ordered keeps, ?_, ?_, ?_, ?_⟩,
      ⟨by dsimp only; omega, by dsimp only; omega⟩,
      (Data.policyCount_modifyRetentionPolicy data database policy f).trans policies⟩
    · refine shardIDs.nodup_iff.mpr (List.nodup_cons.mpr ⟨fun mem => ?_, wf.shardIDsUnique⟩)
      have := wf.shardIDsFresh _ mem
      omega
    · intro id mem
      rcases List.mem_cons.mp (shardIDs.mem_iff.mp mem) with rfl | old
      · exact le_refl _
      · have := wf.shardIDsFresh id old
        dsimp only
        omega
    · refine groupIDs.nodup_iff.mpr (List.nodup_cons.mpr ⟨fun mem => ?_, wf.groupIDsUnique⟩)
      obtain ⟨g, old, same⟩ := List.mem_map.mp mem
      have := wf.groupIDsFresh g old
      rw [same] at this
      omega
    · intro g mem
      rcases List.mem_append.mp (groups.mem_iff.mp mem) with fresh | old
      · rw [List.mem_singleton.mp fresh]
        exact le_refl _
      · have := wf.groupIDsFresh g old
        dsimp only
        omega

/-! ## Pruning keeps the shape -/

theorem Data.groups_pruneData (e : Time) (data : Data) :
    (pruneData e data).groups = data.groups.filter (keepShardGroup e) := by
  simp [Data.groups, pruneData, List.flatMap_map, List.filter_flatMap]

theorem filter_flatMap_sublist {α β : Type} (p : α → Bool) (f : α → List β) (l : List α) :
    ((l.filter p).flatMap f).Sublist (l.flatMap f) := by
  induction l with
  | nil => exact List.Sublist.slnil
  | cons a l ih =>
    rw [List.filter_cons]
    split
    · simpa using ih.append_left (f a)
    · exact ih.trans (List.sublist_append_right _ _)

/-- `PruneShardGroups` only removes groups, so it keeps the shape, the counters and the number
of policies. -/
theorem Data.Shaped.pruneData {data : Data} {k n : Nat} (s : data.Shaped k n) (e : Time) :
    (pruneData e data).Shaped k n := by
  obtain ⟨wf, room, policies⟩ := s
  have groups := Data.groups_pruneData e data
  refine ⟨⟨?_, ?_, ?_, ?_, ?_⟩, room, ?_⟩
  · intro db mem rp policy'
    obtain ⟨db0, mem0, rfl⟩ := List.mem_map.mp mem
    obtain ⟨rp0, policy0, rfl⟩ := List.mem_map.mp policy'
    exact (wf.ordered db0 mem0 rp0 policy0).filter _
  · rw [Data.shardIDList, groups]
    exact wf.shardIDsUnique.sublist (filter_flatMap_sublist _ _ _)
  · intro id mem
    rw [Data.shardIDList, groups] at mem
    exact wf.shardIDsFresh id ((filter_flatMap_sublist _ _ _).subset mem)
  · rw [groups]
    exact wf.groupIDsUnique.sublist ((List.filter_sublist _).map _)
  · intro g mem
    rw [groups] at mem
    exact wf.groupIDsFresh g (List.mem_of_mem_filter mem)
  · rw [← policies, Data.policyCount, Data.policyCount, Chronus.Meta.pruneData, List.map_map]
    simp only [Function.comp_def, List.length_map]

/-! ## What the shard-group calls do

The three shard-group calls commit a snapshot that a few group edits make from the current one:
creations through `Data.CreateShardGroup`, one per call or one per policy, and prunes. -/

/-- The snapshots that `j` creations through `Data.CreateShardGroup`, and any prunes, make from
`data`. -/
inductive Data.GroupEdits (data : Data) : Nat → Data → Prop
  | refl : Data.GroupEdits data 0 data
  | create {j : Nat} {d : Data} (database policy : String) (t : Time) :
      Data.GroupEdits data j d →
        Data.GroupEdits data (j + 1) (d.createShardGroup database policy t).1
  | prune {j : Nat} {d : Data} (e : Time) :
      Data.GroupEdits data j d → Data.GroupEdits data j (pruneData e d)

/-- Each creation uses up one unit of room; prunes use none. -/
theorem Data.GroupEdits.shaped {data d : Data} {j : Nat} (edits : data.GroupEdits j d)
    {k n : Nat} (s : data.Shaped (k + j) n) : d.Shaped k n := by
  induction edits generalizing k with
  | refl => exact s
  | create database policy t _ ih =>
    exact (ih (s.mono (by omega))).createShardGroup database policy t
  | prune e _ ih => exact (ih s).pruneData e

theorem Data.createShardGroup_users (data : Data) (database policy : String) (t : Time) :
    (data.createShardGroup database policy t).1.users = data.users := by
  rcases data.createShardGroup_cases database policy t with same | ⟨_, _, _, _, _, created⟩
  · rw [same]
  · rw [created]
    rfl

theorem Data.GroupEdits.users {data d : Data} {j : Nat} (edits : data.GroupEdits j d) :
    d.users = data.users := by
  induction edits with
  | refl => rfl
  | create database policy t _ ih =>
    exact (Data.createShardGroup_users _ database policy t).trans ih
  | prune _ _ ih => exact ih

/-- The helper `createShardGroup` leaves the snapshot as it was or as `Data.CreateShardGroup`
leaves it. -/
theorem createShardGroup_fst (data : Data) (database policy : String) (t : Time) :
    (createShardGroup data database policy t).1 = data ∨
      (createShardGroup data database policy t).1 =
        (data.createShardGroup database policy t).1 := by
  unfold createShardGroup
  split
  · exact .inl rfl
  · right
    rcases data.createShardGroup database policy t with ⟨data', _ | e⟩
    · dsimp only
      split <;> rfl
    · rfl

theorem Data.GroupEdits.createShardGroupLookup {data d : Data} {j : Nat}
    (edits : data.GroupEdits j d) (database policy : String) (t : Time) :
    ∃ i ≤ j + 1, data.GroupEdits i (Chronus.Meta.createShardGroup d database policy t).1 := by
  rcases createShardGroup_fst d database policy t with same | created
  · exact ⟨j, by omega, by rw [same]; exact edits⟩
  · exact ⟨j + 1, le_rfl, by rw [created]; exact edits.create database policy t⟩

theorem Data.GroupEdits.precreateStep {data : Data} {acc acc' : Data × Bool} {j : Nat}
    (edits : data.GroupEdits j acc.1) {fromTime toTime : Time}
    {target : String × RetentionPolicyInfo}
    (ok : Chronus.Meta.precreateStep fromTime toTime acc target = .ok acc') :
    ∃ i ≤ j + 1, data.GroupEdits i acc'.1 := by
  rcases precreateStep_fst ok with same | ⟨t, created⟩
  · exact ⟨j, by omega, same ▸ edits⟩
  · rw [created]; exact edits.createShardGroupLookup _ _ _

/-- Each policy the loop of `PrecreateShardGroups` visits adds at most one creation. -/
theorem Data.GroupEdits.foldlM_precreateStep {data : Data} (fromTime toTime : Time) :
    ∀ (targets : List (String × RetentionPolicyInfo)) {acc acc' : Data × Bool} {j : Nat},
      data.GroupEdits j acc.1 →
      targets.foldlM (Chronus.Meta.precreateStep fromTime toTime) acc = .ok acc' →
      ∃ i ≤ j + targets.length, data.GroupEdits i acc'.1
  | [], _, _, j, edits, ok => by cases ok; exact ⟨j, le_rfl, edits⟩
  | target :: targets, _, _, _, edits, ok => by
    obtain ⟨acc₁, step, rest⟩ := foldlM_ok_cons ok
    obtain ⟨i, le, edits₁⟩ := edits.precreateStep step
    obtain ⟨i', le', edits'⟩ := Data.GroupEdits.foldlM_precreateStep fromTime toTime targets edits₁ rest
    exact ⟨i', by simp only [List.length_cons]; omega, edits'⟩

theorem precreateTargets_length (data : Data) :
    (precreateTargets data).length = data.policyCount := by
  simp [precreateTargets, Data.policyCount, List.length_flatMap, Function.comp_def]

/-- The calls that create and prune shard groups. -/
def Op.groupCall : Op → Bool
  | .createShardGroup .. | .precreateShardGroups .. | .pruneShardGroups _ => true
  | _ => false

/-- The client after a shard-group call: as it was, or with a snapshot that at most `m`
creations and any prunes make from its own committed. -/
def Client.Edited (c c' : Client) (m : Nat) : Prop :=
  c' = c ∨ ∃ j ≤ m, ∃ d, c.cacheData.GroupEdits j d ∧
    c' = { c with cacheData := d.bump, changed := c.changed + 1 }

theorem Client.Edited.mono {c c' : Client} {m m' : Nat} (edited : c.Edited c' m) (le : m ≤ m') :
    c.Edited c' m' := by
  rcases edited with same | ⟨j, small, d, edits, committed⟩
  · exact .inl same
  · exact .inr ⟨j, by omega, d, edits, committed⟩

theorem Client.edited_commit {c : Client} {d : Data} {j : Nat} (edits : c.cacheData.GroupEdits j d)
    (hook : Hook) : c.Edited (c.commit hook d).2 j := by
  rcases c.commit_cases hook d with ⟨e, failed⟩ | done
  · exact .inl (by rw [failed])
  · exact .inr ⟨j, le_rfl, d, edits, by rw [done]⟩

theorem Client.commitThen_snd {α : Type} (hook : Hook) (data : Data)
    (v : Client → Except MetaError α) (c : Client) : (c.commitThen hook data v).2 = (c.commit hook data).2 := by
  rcases c.commit_cases hook data with ⟨e, failed⟩ | done
  · simp only [Client.commitThen, failed]
  · simp only [Client.commitThen, done]

theorem Client.createShardGroup_edited (hook : Hook) (database policy : String) (t : Time)
    (c : Client) : c.Edited (c.createShardGroup hook database policy t).2 1 := by
  unfold Client.createShardGroup Client.createShardGroupLocked
  split
  · exact .inl rfl
  · simp only [Data.clone_eq]
    split
    · exact .inl rfl
    · split
      · exact .inl rfl
      · obtain ⟨i, le, edits⟩ := Data.GroupEdits.refl.createShardGroupLookup database policy t
        rw [Client.commitThen_snd]
        exact (Client.edited_commit edits hook).mono le

theorem Client.precreateShardGroups_edited (hook : Hook) (fromTime toTime : Time) (c : Client) :
    c.Edited (c.precreateShardGroups hook fromTime toTime).2 c.cacheData.policyCount := by
  unfold Client.precreateShardGroups
  simp only [Data.clone_eq]
  split
  · exact .inl rfl
  · rename_i result loop
    obtain ⟨i, le, edits⟩ := Data.GroupEdits.foldlM_precreateStep fromTime toTime _ .refl loop
    rw [precreateTargets_length, Nat.zero_add] at le
    split
    · exact (Client.edited_commit edits hook).mono le
    · exact .inl rfl

theorem Client.pruneShardGroups_edited (hook : Hook) (e : Time) (c : Client) :
    c.Edited (c.pruneShardGroups hook e).2 0 := by
  unfold Client.pruneShardGroups
  simp only [Data.clone_eq]
  split
  · exact Client.edited_commit (Data.GroupEdits.refl.prune e) hook
  · exact .inl rfl

/-- A shard-group call commits at most one creation per policy and one more. -/
theorem Client.exec_edited (hook : Hook) (methods : DataMethods) {op : Op}
    (groupCall : op.groupCall = true) (c : Client) :
    c.Edited (c.exec hook methods op).2 (c.cacheData.policyCount + 1) := by
  cases op with
  | createShardGroup database policy t =>
    exact (c.createShardGroup_edited hook database policy t).mono (by omega)
  | precreateShardGroups fromTime toTime =>
    exact (c.precreateShardGroups_edited hook fromTime toTime).mono (by omega)
  | pruneShardGroups e => exact (c.pruneShardGroups_edited hook e).mono (by omega)
  | _ => cases groupCall

/-- A shard-group call leaves the users and the authentication cache alone. -/
theorem Client.Edited.users {c c' : Client} {m : Nat} (edited : c.Edited c' m) :
    c'.cacheData.users = c.cacheData.users ∧ c'.authCache = c.authCache := by
  rcases edited with rfl | ⟨j, _, d, edits, rfl⟩
  · exact ⟨rfl, rfl⟩
  · exact ⟨edits.users, rfl⟩

/-! ## The calls keep the shape -/

theorem Data.Shaped.edited {c c' : Client} {k m n : Nat} (s : c.cacheData.Shaped (k + m) n)
    (edited : c.Edited c' m) : c'.cacheData.Shaped k n := by
  rcases edited with rfl | ⟨j, le, d, edits, rfl⟩
  · exact s.mono (by omega)
  · exact (edits.shaped (s.mono (by omega))).bump

theorem Data.Shaped.createUser {data : Data} {k n : Nat} (s : data.Shaped k n)
    (name hash : String) (admin : Bool) : (data.createUser name hash admin).1.Shaped k n := by
  unfold Data.createUser
  split
  · exact s
  · exact s.congr rfl rfl rfl

theorem Data.Shaped.updateUser {data : Data} {k n : Nat} (s : data.Shaped k n)
    (name hash : String) : (data.updateUser name hash).1.Shaped k n := by
  unfold Data.updateUser
  split
  · exact s
  · exact s.congr rfl rfl rfl

theorem Data.Shaped.dropUser {data : Data} {k n : Nat} (s : data.Shaped k n) (name : String) :
    (data.dropUser name).1.Shaped k n := by
  unfold Data.dropUser
  split
  · exact s
  · exact s.congr rfl rfl rfl

section Client

variable {c : Client} {k n : Nat}

theorem Data.Shaped.commit (s : c.cacheData.Shaped k n) {data : Data} (d : data.Shaped k n)
    (hook : Hook) : (c.commit hook data).2.cacheData.Shaped k n := by
  rcases c.commit_cases hook data with ⟨e, failed⟩ | done
  · rw [failed]
    exact s
  · rw [done]
    exact d.bump

theorem Data.Shaped.orReturn {α : Type} (s : c.cacheData.Shaped k n) {x : Data × Option MetaError}
    {next : Data → Except MetaError α × Client} (shaped : (next x.1).2.cacheData.Shaped k n) :
    (c.orReturn x next).2.cacheData.Shaped k n := by
  unfold Client.orReturn
  split
  · exact s
  · exact shaped

/-- The calls whose every step is modelled here: the shard-group calls and the user calls.
The others run methods of `Data` whose bodies are outside this repository. -/
def Op.concrete : Op → Bool
  | .createShardGroup .. | .precreateShardGroups .. | .pruneShardGroups _
  | .createUser .. | .updateUser .. | .dropUser _ => true
  | _ => false

/-- One concrete call uses up at most `n + 1` units of room, where `n` is the number of
policies: `PrecreateShardGroups` creates at most one group per policy, `CreateShardGroup` at
most one. -/
theorem Data.Shaped.exec (s : c.cacheData.Shaped (k + (n + 1)) n) (hook : Hook)
    (methods : DataMethods) {op : Op} (concrete : op.concrete = true) :
    (c.exec hook methods op).2.cacheData.Shaped k n := by
  have now : c.cacheData.Shaped k n := s.mono (by omega)
  have edited {op : Op} (groupCall : op.groupCall = true) :
      c.Edited (c.exec hook methods op).2 (n + 1) :=
    s.policies ▸ Client.exec_edited hook methods groupCall c
  cases op with
  | createShardGroup => exact s.edited (edited rfl)
  | precreateShardGroups => exact s.edited (edited rfl)
  | pruneShardGroups => exact s.edited (edited rfl)
  | createUser name hash admin =>
    show (c.createUser hook name hash admin).2.cacheData.Shaped k n
    unfold Client.createUser
    split
    · split <;> exact now
    · refine now.orReturn ?_
      rw [Client.commitThen_snd]
      exact now.commit (by simpa using now.createUser name hash admin) hook
  | updateUser name hash =>
    exact now.orReturn (now.commit (by simpa using now.updateUser name hash) hook)
  | dropUser name => exact now.orReturn (now.commit (by simpa using now.dropUser name) hook)
  | _ => cases concrete

/-- A run of concrete calls, whatever each hook answers, uses up at most `n + 1` units of room
per call. -/
theorem Data.Shaped.run (methods : DataMethods) (calls : List (Hook × Op))
    (concrete : ∀ call ∈ calls, call.2.concrete = true) (c : Client)
    (s : c.cacheData.Shaped (k + calls.length * (n + 1)) n) :
    (Client.run methods calls c).cacheData.Shaped k n := by
  induction calls generalizing c with
  | nil => simpa only [List.length_nil, Nat.zero_mul, Nat.add_zero] using s
  | cons call rest ih =>
    rw [List.length_cons, Nat.succ_mul, ← Nat.add_assoc] at s
    exact ih (fun call mem => concrete call (.tail _ mem)) _
      (s.exec call.1 methods (concrete call (.head rest)))

end Client

/-- From a well-formed snapshot with room for `calls.length * (policies + 1)` more IDs in both
counters, any run of concrete calls, whatever each hook answers and whatever the methods outside
this repository do, keeps the snapshot well formed and its number of policies. -/
theorem Client.run_wellFormed (calls : List (Hook × Op))
    (concrete : ∀ call ∈ calls, call.2.concrete = true) (c : Client)
    (wf : c.cacheData.WellFormed)
    (room : c.cacheData.Room (calls.length * (c.cacheData.policyCount + 1))) :
    ∀ methods, (Client.run methods calls c).cacheData.WellFormed ∧
      (Client.run methods calls c).cacheData.policyCount = c.cacheData.policyCount := by
  intro methods
  have s : (Client.run methods calls c).cacheData.Shaped 0 c.cacheData.policyCount :=
    Data.Shaped.run methods calls concrete c ⟨wf, by rwa [Nat.zero_add], rfl⟩
  exact ⟨s.wellFormed, s.policies⟩

/-- A call for 2 on an empty policy of 10 ns groups, then a precreation over `(0, 20)`, then a
prune, from a snapshot with no groups. -/
theorem Client.run_wellFormed_three_calls :
    let c0 : Client := { newClient "meta" false with
      cacheData := ⟨0, 1, [⟨"db", "autogen", [⟨"autogen", 1, 0, 10, []⟩]⟩], [],
        [⟨1, "h", "h:8088", false⟩], 0, 0⟩ }
    let calls : List (Hook × Op) := [(snapshot, .createShardGroup "db" "autogen" 2),
      (snapshot, .precreateShardGroups 0 20), (snapshot, .pruneShardGroups 0)]
    ((∀ call ∈ calls, call.2.concrete = true) ∧ c0.cacheData.WellFormed ∧
      c0.cacheData.Room (calls.length * (c0.cacheData.policyCount + 1))) ∧
    ∀ methods, (Client.run methods calls c0).cacheData.WellFormed ∧
      (Client.run methods calls c0).cacheData.policyCount = c0.cacheData.policyCount := by
  intro c0 calls
  have concrete : ∀ call ∈ calls, call.2.concrete = true := List.all_eq_true.mp rfl
  have wf : c0.cacheData.WellFormed := ⟨by decide, by decide, by decide, by decide, by decide⟩
  have room : c0.cacheData.Room (calls.length * (c0.cacheData.policyCount + 1)) := by decide
  exact ⟨⟨concrete, wf, room⟩, Client.run_wellFormed calls concrete c0 wf room⟩

/-! ## What the shape gives the readers -/

/-- `Client.ShardIDs`: every shard ID of the snapshot, in the order of the loops, then sorted
by `uint64Slice`. `sort.Sort` is not stable, but the sorted permutation of a list of integers is
unique, so any sort gives this list. -/
def Client.shardIDs (c : Client) : List UInt64 :=
  c.cacheData.shardIDList.mergeSort fun a b => decide (a ≤ b)

/-! ## One snapshot of a well-formed store -/

/-- Where the lists of the elements hold no value twice, two positions whose lists share a value
are one position. -/
theorem index_eq_of_nodup_flatMap {α β : Type} {f : α → List β} {x : β} :
    ∀ {l : List α}, (l.flatMap f).Nodup → ∀ {i j : Nat} {a b : α}, l[i]? = some a →
      l[j]? = some b → x ∈ f a → x ∈ f b → i = j
  | [], _, _, _, _, _, first, _, _, _ => by simp at first
  | c :: l, nodup, i, j, a, b, first, second, xa, xb => by
    rw [List.flatMap_cons, List.nodup_append] at nodup
    match i, j, first, second with
    | 0, 0, _, _ => rfl
    | 0, j + 1, first, second =>
      rw [List.getElem?_cons_zero, Option.some.injEq] at first
      rw [List.getElem?_cons_succ] at second
      subst first
      exact (nodup.2.2 xa (List.mem_flatMap.mpr ⟨b, List.getElem?_mem second, xb⟩)).elim
    | i + 1, 0, first, second =>
      rw [List.getElem?_cons_succ] at first
      rw [List.getElem?_cons_zero, Option.some.injEq] at second
      subst second
      exact (nodup.2.2 xb (List.mem_flatMap.mpr ⟨a, List.getElem?_mem first, xa⟩)).elim
    | i + 1, j + 1, first, second =>
      rw [List.getElem?_cons_succ] at first second
      exact congrArg (· + 1) (index_eq_of_nodup_flatMap nodup.2.1 first second xa xb)

theorem eq_of_nodup_flatMap {α β : Type} {f : α → List β} {x : β} {l : List α}
    (nodup : (l.flatMap f).Nodup) {a b : α} (ma : a ∈ l) (mb : b ∈ l) (xa : x ∈ f a)
    (xb : x ∈ f b) : a = b := by
  obtain ⟨i, first⟩ := List.mem_iff_getElem?.mp ma
  obtain ⟨j, second⟩ := List.mem_iff_getElem?.mp mb
  cases index_eq_of_nodup_flatMap nodup first second xa xb
  exact Option.some.inj (first.symm.trans second)

theorem Data.shardIDList_eq (data : Data) :
    data.shardIDList = data.databases.flatMap fun db => db.retentionPolicies.flatMap fun rp =>
      rp.shardGroups.flatMap fun g => g.shards.map (·.id) := by
  simp [Data.shardIDList, Data.groups, List.flatMap_assoc]

theorem Data.retentionPolicy_found {data : Data} {database policy : String}
    {rpi : RetentionPolicyInfo} (found : data.retentionPolicy database policy = .ok (some rpi)) :
    ∃ db ∈ data.databases, db.name = database ∧ rpi ∈ db.retentionPolicies ∧
      rpi.name = policy := by
  unfold Data.retentionPolicy Data.database at found
  cases db : data.databases.find? (·.name == database) with
  | none => simp [db] at found
  | some dbi =>
    simp only [db, Except.ok.injEq, Option.some.injEq, DatabaseInfo.retentionPolicy] at found
    exact ⟨dbi, List.mem_of_find?_eq_some db, by simpa using List.find?_some db,
      List.mem_of_find?_eq_some found, by simpa using List.find?_some found⟩

theorem View.shardAt_eq_some {v : View} {a : ShardAddress} {sh : ShardInfo}
    (points : v.shardAt a = some sh) : a.array.alloc = v.2 ∧ ∃ rpi g,
      v.1.cacheData.retentionPolicy a.array.database a.array.policy = .ok (some rpi) ∧
        rpi.shardGroups[a.array.group]? = some g ∧ g.shards[a.index]? = some sh := by
  unfold View.shardAt View.groupAt at points
  split at points
  · rename_i alloc
    split at points
    · rename_i rpi found
      obtain ⟨g, nth, shard⟩ := Option.bind_eq_some.mp points
      exact ⟨alloc, rpi, g, found, nth, shard⟩
    · simp at points
  · simp at points

/-- On a well-formed snapshot a shard ID is stored at one address only. -/
theorem Data.WellFormed.uniqueShardIDs {v : View} (wf : v.1.cacheData.WellFormed) :
    v.UniqueShardIDs := by
  rintro ⟨⟨_, d1, p1, g1⟩, i1⟩ ⟨⟨_, d2, p2, g2⟩, i2⟩ sa sb pa pb same
  obtain ⟨rfl, rpi1, G1, found1, nth1, shard1⟩ := View.shardAt_eq_some pa
  obtain ⟨rfl, rpi2, G2, found2, nth2, shard2⟩ := View.shardAt_eq_some pb
  obtain ⟨db1, mdb1, rfl, mrp1, rfl⟩ := Data.retentionPolicy_found found1
  obtain ⟨db2, mdb2, rfl, mrp2, rfl⟩ := Data.retentionPolicy_found found2
  have nodup := wf.shardIDsUnique
  rw [Data.shardIDList_eq] at nodup
  have xa : sa.id ∈ G1.shards.map (·.id) := List.mem_map_of_mem _ (List.getElem?_mem shard1)
  have xb : sa.id ∈ G2.shards.map (·.id) :=
    same ▸ List.mem_map_of_mem _ (List.getElem?_mem shard2)
  have xGroups {rp : RetentionPolicyInfo} {gi : Nat} {G : ShardGroupInfo}
      (nth : rp.shardGroups[gi]? = some G) (x : sa.id ∈ G.shards.map (·.id)) :
      sa.id ∈ rp.shardGroups.flatMap fun g => g.shards.map (·.id) :=
    List.mem_flatMap.mpr ⟨G, List.getElem?_mem nth, x⟩
  have dbs := eq_of_nodup_flatMap nodup mdb1 mdb2
    (List.mem_flatMap.mpr ⟨rpi1, mrp1, xGroups nth1 xa⟩)
    (List.mem_flatMap.mpr ⟨rpi2, mrp2, xGroups nth2 xb⟩)
  subst dbs
  have inDb := (List.nodup_flatMap.mp nodup).1 db1 mdb1
  have rps := eq_of_nodup_flatMap inDb mrp1 mrp2 (xGroups nth1 xa) (xGroups nth2 xb)
  subst rps
  have inRp := (List.nodup_flatMap.mp inDb).1 rpi1 mrp1
  cases index_eq_of_nodup_flatMap inRp nth1 nth2 xa xb
  cases Option.some.inj (nth1.symm.trans nth2)
  have inGroup := wf.shardIDsUnique
  rw [Data.shardIDList_eq] at inGroup
  have ids := (List.nodup_flatMap.mp inRp).1 G1 (List.getElem?_mem nth1)
  rw [List.map_eq_flatMap] at ids
  cases index_eq_of_nodup_flatMap ids shard1 shard2 (List.mem_singleton_self sa.id)
    (List.mem_singleton.mpr same)
  rfl

/-- On one snapshot of a well-formed store, `ShardsByTimeRange` lists each shard ID once. -/
theorem shardsByTimeRange_wellFormed_nodup (v : View) (wf : v.1.cacheData.WellFormed)
    (sources : List (String × String)) (tmin tmax : Time) {shards : List ShardInfo}
    (ok : shardsByTimeRange (sources.map fun s => (v, s.1, s.2)) tmin tmax = .ok shards) :
    (shards.map (·.id)).Nodup :=
  (shardsByTimeRange_one_snapshot v sources tmin tmax ok).2 wf.uniqueShardIDs

/-- The same policy named twice over two groups: each shard is listed once. -/
theorem shardsByTimeRange_wellFormed_nodup_repeated_source :
    let v : View := ({ newClient "meta" false with
      cacheData := ⟨0, 1, [⟨"db", "autogen", [⟨"autogen", 1, 0, 10,
        [⟨1, 0, 10, none, none, [⟨2, [1]⟩]⟩, ⟨2, 10, 20, none, none, [⟨1, [1]⟩]⟩]⟩]⟩], [],
        [⟨1, "h", "h:8088", false⟩], 2, 2⟩ }, 0)
    let shards : List ShardInfo := [⟨2, [1]⟩, ⟨1, [1]⟩]
    (v.1.cacheData.WellFormed ∧
      shardsByTimeRange ([("db", "autogen"), ("db", "autogen")].map fun s => (v, s.1, s.2))
        0 20 = .ok shards) ∧ (shards.map (·.id)).Nodup := by
  intro v shards
  have wf : v.1.cacheData.WellFormed := ⟨by decide, by decide, by decide, by decide, by decide⟩
  have ok : shardsByTimeRange ([("db", "autogen"), ("db", "autogen")].map fun s => (v, s.1, s.2))
      0 20 = .ok shards := rfl
  exact ⟨⟨wf, ok⟩, shardsByTimeRange_wellFormed_nodup v wf _ _ _ ok⟩

end Chronus.Meta
