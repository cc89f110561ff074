import Chronus.Meta.Store

/-!
# Repeated calls

Callers repeat some calls as a matter of course: a writer creates its database on every start,
and the retention service prunes shard groups on every tick.

`CreateDatabase` returns the database read from the snapshot it commits, or the one it found.
Once it has returned a database, the same call returns that database again from its fast path,
commits nothing and leaves the client as it was, whatever the hooks answer and whatever the
methods outside this repository did (`Client.createDatabase_repeat`).

`PruneShardGroups` commits only when some group has expired. After a call that succeeded, every
group left is live or was deleted no earlier than the expiration, so a second call with the same
or an earlier expiration commits nothing and leaves the client as it was
(`Client.pruneShardGroups_repeat`).
-/

namespace Chronus.Meta

/-! ## What a successful call left -/

theorem Client.orReturn_ok {α : Type} {c : Client} {x : Data × Option MetaError}
    {next : Data → Except MetaError α × Client} {a : α} (ok : (c.orReturn x next).1 = .ok a) :
    x.2 = none ∧ c.orReturn x next = next x.1 := by
  unfold Client.orReturn at ok ⊢
  split at ok
  · cases ok
  · rename_i passed
    exact ⟨passed, rfl⟩

theorem Client.commitThen_ok {α : Type} {hook : Hook} {data : Data}
    {v : Client → Except MetaError α} {c : Client} {a : α}
    (ok : (c.commitThen hook data v).1 = .ok a) :
    (c.commitThen hook data v).2 = { c with cacheData := data.bump, changed := c.changed + 1 } ∧
      v { c with cacheData := data.bump, changed := c.changed + 1 } = .ok a := by
  rcases c.commit_cases hook data with ⟨e, failed⟩ | done
  · simp only [Client.commitThen, failed] at ok
    cases ok
  · simp only [Client.commitThen, done] at ok ⊢
    exact ⟨trivial, ok⟩

/-! ## `CreateDatabase` -/

section CreateDatabase

variable (methods : DataMethods) (name : String)

/-- A database the snapshot holds is returned from the fast path, with the client unchanged. -/
theorem Client.createDatabase_found (hook : Hook) {c : Client} {db : DatabaseInfo}
    (found : c.cacheData.database name = some db) :
    c.createDatabase hook methods name = (.ok (some db), c) := by
  simp [Client.createDatabase, found]

/-- The database `CreateDatabase` returns is in the snapshot it leaves. -/
theorem Client.createDatabase_ok (hook : Hook) {c : Client} {db : DatabaseInfo}
    (ok : (c.createDatabase hook methods name).1 = .ok (some db)) :
    (c.createDatabase hook methods name).2.cacheData.database name = some db := by
  unfold Client.createDatabase at ok ⊢
  simp only [Data.clone_eq] at ok ⊢
  cases found : c.cacheData.database name with
  | some db0 =>
    simp only [found, Except.ok.injEq, Option.some.injEq] at ok ⊢
    rw [← ok]
  | none =>
    simp only [found] at ok ⊢
    obtain ⟨-, created⟩ := Client.orReturn_ok ok
    rw [created] at ok ⊢
    obtain ⟨-, withPolicy⟩ := Client.orReturn_ok ok
    rw [withPolicy] at ok ⊢
    obtain ⟨committed, returned⟩ := Client.commitThen_ok ok
    rw [committed]
    simpa using returned

/-- Once `CreateDatabase` has returned a database, the same call returns it again and leaves
the client as it was, whatever the hooks answer and the methods outside this repository do. -/
theorem Client.createDatabase_repeat (hook hook' : Hook) (c : Client) {db : DatabaseInfo}
    (ok : (c.createDatabase hook methods name).1 = .ok (some db)) :
    (c.createDatabase hook methods name).2.createDatabase hook' methods name =
      (.ok (some db), (c.createDatabase hook methods name).2) :=
  Client.createDatabase_found methods name hook' (Client.createDatabase_ok methods name hook ok)

end CreateDatabase

/-- A database created on an empty client, then created again. -/
theorem Client.createDatabase_repeat_new :
    ((newClient "meta" false).createDatabase snapshot .inert "db").1 =
        .ok (some ⟨"db", "", []⟩) ∧
      ((newClient "meta" false).createDatabase snapshot .inert "db").2.createDatabase snapshot
          .inert "db" =
        (.ok (some ⟨"db", "", []⟩),
          ((newClient "meta" false).createDatabase snapshot .inert "db").2) :=
  ⟨rfl, Client.createDatabase_repeat .inert "db" snapshot snapshot _ rfl⟩

/-! ## `PruneShardGroups` -/

/-- Pruning keeps a group at some expiration, so it keeps it at every earlier one. -/
theorem keepShardGroup_mono {e e' : Time} (le : e' ≤ e) {g : ShardGroupInfo}
    (kept : keepShardGroup e g = true) : keepShardGroup e' g = true := by
  unfold keepShardGroup at *
  split at kept
  · rfl
  · rename_i deletedAt _
    simp only [Bool.not_eq_true', decide_eq_false_iff_not, not_lt] at kept ⊢
    exact le.trans kept

/-- Every group of the snapshot is kept at the expiration. -/
def Data.KeptAt (data : Data) (e : Time) : Prop :=
  ∀ db ∈ data.databases, ∀ rp ∈ db.retentionPolicies, ∀ g ∈ rp.shardGroups,
    keepShardGroup e g = true

theorem Data.keptAt_pruneData (e : Time) (data : Data) : (pruneData e data).KeptAt e := by
  intro db mem rp policy g group
  obtain ⟨db0, -, rfl⟩ := List.mem_map.mp mem
  obtain ⟨rp0, -, rfl⟩ := List.mem_map.mp policy
  exact (List.mem_filter.mp group).2

/-- A prune that finds nothing expired commits nothing. -/
theorem Client.pruneShardGroups_kept (hook : Hook) {e : Time} {c : Client}
    (kept : c.cacheData.KeptAt e) : c.pruneShardGroups hook e = (.ok (), c) := by
  have none : (c.cacheData.databases.any fun d => d.retentionPolicies.any fun rp =>
      rp.shardGroups.any fun g => !keepShardGroup e g) = false := by
    simp only [List.any_eq_false, Bool.not_eq_true, Bool.not_eq_false']
    exact fun db mem rp policy g group => kept db mem rp policy g group
  simp only [Client.pruneShardGroups, Data.clone_eq, none]
  rfl

/-- After a prune that succeeded, every group left is kept at its expiration. -/
theorem Client.pruneShardGroups_keptAt (hook : Hook) {e : Time} {c : Client}
    (ok : (c.pruneShardGroups hook e).1 = .ok ()) :
    (c.pruneShardGroups hook e).2.cacheData.KeptAt e := by
  unfold Client.pruneShardGroups at ok ⊢
  simp only [Data.clone_eq] at ok ⊢
  split
  · rcases c.commit_cases hook (pruneData e c.cacheData) with ⟨err, failed⟩ | done
    · rename_i changed
      simp only [changed, if_true, failed] at ok
      cases ok
    · rw [done]
      exact Data.keptAt_pruneData e c.cacheData
  · rename_i unchanged
    simp only [Bool.not_eq_true, List.any_eq_false, Bool.not_eq_false'] at unchanged
    exact fun db mem rp policy g group => unchanged db mem rp policy g group

/-- After a prune that succeeded, a prune at the same or an earlier expiration commits nothing
and leaves the client as it was, whatever the hooks answer. -/
theorem Client.pruneShardGroups_repeat (hook hook' : Hook) {e e' : Time} (le : e' ≤ e)
    (c : Client) (ok : (c.pruneShardGroups hook e).1 = .ok ()) :
    (c.pruneShardGroups hook e).2.pruneShardGroups hook' e' =
      (.ok (), (c.pruneShardGroups hook e).2) :=
  Client.pruneShardGroups_kept hook' fun db mem rp policy g group =>
    keepShardGroup_mono le (Client.pruneShardGroups_keptAt hook ok db mem rp policy g group)

/-- A group deleted at 5 is pruned at 10; a second prune at 7 commits nothing. -/
theorem Client.pruneShardGroups_repeat_deleted :
    let c : Client := { newClient "meta" false with
      cacheData := ⟨0, 1, [⟨"db", "autogen", [⟨"autogen", 1, 0, 10,
        [⟨1, 0, 10, some 5, none, [⟨1, [1]⟩]⟩, ⟨2, 10, 20, none, none, [⟨2, [1]⟩]⟩]⟩]⟩], [],
        [⟨1, "h", "h:8088", false⟩], 2, 2⟩ }
    ((7 : Time) ≤ 10 ∧ (c.pruneShardGroups snapshot 10).1 = .ok ()) ∧
      (c.pruneShardGroups snapshot 10).2.pruneShardGroups snapshot 7 =
        (.ok (), (c.pruneShardGroups snapshot 10).2) := by
  intro c
  have ok : (c.pruneShardGroups snapshot 10).1 = .ok () := rfl
  exact ⟨⟨by decide, ok⟩, Client.pruneShardGroups_repeat snapshot snapshot (by decide) c ok⟩

end Chronus.Meta
