import Chronus.Meta.Store

/-!
# What precreation guarantees

`PrecreateShardGroups(from, to)` exists so that a write arriving just after a policy's last
group ends finds a group already there. For every policy its two loops visit whose last group
is live and ends inside `(from, to)`, it looks the next nanosecond up under the database's and
the policy's names, and creates a group there when none covers it.

Creating a group only adds to the policy the names resolve to, so a lookup by name that found a
policy still finds one, with the same group duration and at least its groups (`Data.Extends`).
A group covering the next nanosecond, once there, therefore stays through the rest of the loop.
The loop raises its flag whenever it changes the snapshot, so an unraised flag means the
snapshot is the one the call started from.

Whenever the call returns nil, every such policy has, under its names, a live group covering
the nanosecond after its last group's end (`Client.precreateShardGroups_covers_next`), provided
the policy the names resolve to has a positive group duration. This holds also when names
repeat: the group then lands in the policy the names resolve to.
-/

namespace Chronus.Meta

/-! ## Lookups that only grow -/

/-- Every policy a lookup by name finds in `d` is found in `d'` under the same names, with the
same group duration and at least its groups. -/
def Data.Extends (d d' : Data) : Prop :=
  ∀ database policy rp, d.retentionPolicy database policy = .ok (some rp) →
    ∃ rp', d'.retentionPolicy database policy = .ok (some rp') ∧
      rp'.shardGroupDuration = rp.shardGroupDuration ∧ rp.shardGroups ⊆ rp'.shardGroups

theorem Data.Extends.refl (d : Data) : d.Extends d :=
  fun _ _ rp found => ⟨rp, found, rfl, List.Subset.refl _⟩

theorem Data.Extends.trans {d d' d'' : Data} (e : d.Extends d') (e' : d'.Extends d'') :
    d.Extends d'' := by
  intro database policy rp found
  obtain ⟨rp', found', duration, sub⟩ := e database policy rp found
  obtain ⟨rp'', found'', duration', sub'⟩ := e' database policy rp' found'
  exact ⟨rp'', found'', duration'.trans duration, fun _ mem => sub' (sub mem)⟩

/-- `ShardGroupByTimestamp` under the names finds a group exactly when the policy the names
resolve to has a live group covering `t`. -/
theorem Data.shardGroupAt_isSome_iff (data : Data) (database policy : String) (t : Time) :
    (data.shardGroupAt database policy t).isSome ↔
      ∃ rp, data.retentionPolicy database policy = .ok (some rp) ∧
        ∃ g ∈ rp.shardGroups, g.Covers t := by
  unfold Data.shardGroupAt Data.shardGroupByTimestamp
  cases data.retentionPolicy database policy with
  | error e => simp
  | ok found =>
    cases found with
    | none => simp
    | some rp =>
      simp only [RetentionPolicyInfo.shardGroupByTimestamp, List.find?_isSome,
        ShardGroupInfo.covers_iff, Except.ok.injEq, Option.some.injEq, exists_eq_left']

theorem Data.Extends.covered {d d' : Data} (e : d.Extends d') {database policy : String}
    {t : Time} (covered : (d.shardGroupAt database policy t).isSome) :
    (d'.shardGroupAt database policy t).isSome := by
  obtain ⟨rp, found, g, mem, covers⟩ := (d.shardGroupAt_isSome_iff database policy t).mp covered
  obtain ⟨rp', found', -, sub⟩ := e database policy rp found
  exact (d'.shardGroupAt_isSome_iff database policy t).mpr ⟨rp', found', g, sub mem, covers⟩

/-- Changing the policy the names resolve to, keeping its name and duration and only adding
groups, extends every lookup. -/
theorem Data.extends_modifyRetentionPolicy (data : Data) (database policy : String)
    {f : RetentionPolicyInfo → RetentionPolicyInfo} (named : ∀ r, (f r).name = r.name)
    (grows : ∀ r, (f r).shardGroupDuration = r.shardGroupDuration ∧
      r.shardGroups ⊆ (f r).shardGroups) :
    data.Extends (data.modifyRetentionPolicy database policy f) := by
  intro database' policy' rp found
  unfold Data.retentionPolicy Data.database at found ⊢
  cases db : data.databases.find? (·.name == database') with
  | none => simp [db] at found
  | some dbi =>
    simp only [db, Except.ok.injEq] at found
    simp only [Data.modifyRetentionPolicy]
    by_cases sameDatabase : database' = database
    · subst sameDatabase
      rw [find?_modifyFirst, db]
      · simp only [Option.map_some']
        unfold DatabaseInfo.retentionPolicy at found ⊢
        by_cases samePolicy : policy' = policy
        · subst samePolicy
          rw [find?_modifyFirst, found]
          · exact ⟨f rp, rfl, grows rp⟩
          · intro r; simp [named]
        · rw [find?_modifyFirst_of_skips (fun r named' => ?_), found]
          · exact ⟨rp, rfl, rfl, List.Subset.refl _⟩
          · simp only [beq_iff_eq] at named'
            simp [named, named', Ne.symm samePolicy]
      · intro; rfl
    · rw [find?_modifyFirst_of_skips (fun d named' => ?_), db]
      · exact ⟨rp, by simp [found], rfl, List.Subset.refl _⟩
      · simp only [beq_iff_eq] at named'
        simp [named', Ne.symm sameDatabase]

theorem Data.extends_createShardGroup (data : Data) (database policy : String) (t : Time) :
    data.Extends (data.createShardGroup database policy t).1 := by
  unfold Data.createShardGroup
  split
  · exact .refl data
  · exact .refl data
  · split
    · exact .refl data
    · exact data.extends_modifyRetentionPolicy database policy (fun _ => rfl) fun r =>
        ⟨rfl, fun _ mem => (List.perm_orderedInsert _ _ _).mem_iff.mpr (List.mem_cons_of_mem _ mem)⟩

theorem extends_createShardGroup (data : Data) (database policy : String) (t : Time) :
    data.Extends (createShardGroup data database policy t).1 := by
  rcases createShardGroup_fst data database policy t with same | created
  · rw [same]; exact .refl data
  · rw [created]; exact data.extends_createShardGroup database policy t

/-! ## `createShardGroup` by its outcome -/

/-- With no live group covering `t`, `createShardGroup` leaves what `Data.CreateShardGroup`
made. -/
theorem createShardGroup_fst_of_miss {data : Data} {database policy : String} {t : Time}
    (miss : data.shardGroupAt database policy t = none) :
    (createShardGroup data database policy t).1 = (data.createShardGroup database policy t).1 := by
  simp only [createShardGroup, miss, Option.isSome_none, Bool.false_eq_true, if_false]
  rcases data.createShardGroup database policy t with ⟨data', _ | e⟩
  · dsimp only
    split <;> rfl
  · rfl

/-- A `Data.CreateShardGroup` that succeeds leaves the names resolving to a policy. -/
theorem Data.createShardGroup_found {data : Data} {database policy : String} {t : Time}
    (succeeded : (data.createShardGroup database policy t).2 = none) :
    ∃ rp, (data.createShardGroup database policy t).1.retentionPolicy database policy =
      .ok (some rp) := by
  cases found : data.retentionPolicy database policy with
  | error e => simp [Data.createShardGroup, found] at succeeded
  | ok rp =>
    cases rp with
    | none => simp [Data.createShardGroup, found] at succeeded
    | some rp =>
      cases miss : rp.shardGroupByTimestamp t with
      | some g => simp [Data.createShardGroup, found, miss] at succeeded
      | none => exact ⟨_, (Data.createShardGroup_of_miss found miss).2⟩

/-- A `Data.CreateShardGroup` that fails leaves the snapshot as it was. -/
theorem Data.createShardGroup_unchanged {data : Data} {database policy : String} {t : Time}
    {e : MetaError} (failed : (data.createShardGroup database policy t).2 = some e) :
    (data.createShardGroup database policy t).1 = data := by
  cases found : data.retentionPolicy database policy with
  | error err => simp [Data.createShardGroup, found]
  | ok rp =>
    cases rp with
    | none => simp [Data.createShardGroup, found]
    | some rp =>
      by_cases covered : (rp.shardGroupByTimestamp t).isSome
      · simp [Data.createShardGroup, found, covered]
      · simp [Data.createShardGroup, found, covered] at failed

/-- `createShardGroup` fails only with the snapshot as it was. -/
theorem createShardGroup_error {data : Data} {database policy : String} {t : Time}
    {e : MetaError} (failed : (createShardGroup data database policy t).2 = .error e) :
    (createShardGroup data database policy t).1 = data := by
  by_cases covered : (data.shardGroupAt database policy t).isSome
  · simp [createShardGroup, covered]
  · have miss : data.shardGroupAt database policy t = none := by simpa using covered
    rw [createShardGroup_fst_of_miss miss]
    cases result : (data.createShardGroup database policy t).2 with
    | some err => exact Data.createShardGroup_unchanged result
    | none =>
      obtain ⟨rp, found⟩ := Data.createShardGroup_found result
      simp only [createShardGroup, miss, Option.isSome_none, Bool.false_eq_true, if_false] at failed
      rw [show data.createShardGroup database policy t =
        ((data.createShardGroup database policy t).1, none) from Prod.ext rfl result] at failed
      simp [found] at failed

/-! ## The loop -/

section Loop

variable (fromTime toTime : Time)

theorem extends_precreateStep {acc acc' : Data × Bool} {target : String × RetentionPolicyInfo}
    (ok : precreateStep fromTime toTime acc target = .ok acc') : acc.1.Extends acc'.1 := by
  rcases precreateStep_fst ok with same | ⟨t, created⟩
  · rw [same]; exact .refl _
  · rw [created]; exact extends_createShardGroup _ _ _ _

theorem extends_foldlM_precreateStep :
    ∀ (targets : List (String × RetentionPolicyInfo)) {acc acc' : Data × Bool},
      targets.foldlM (precreateStep fromTime toTime) acc = .ok acc' → acc.1.Extends acc'.1
  | [], _, _, ok => by cases ok; exact .refl _
  | _ :: rest, _, _, ok => by
    obtain ⟨_, step, loop⟩ := foldlM_ok_cons ok
    exact (extends_precreateStep fromTime toTime step).trans
      (extends_foldlM_precreateStep rest loop)

/-- A step that goes on changes nothing, or raises the flag. -/
theorem precreateStep_flag {acc acc' : Data × Bool} {target : String × RetentionPolicyInfo}
    (ok : precreateStep fromTime toTime acc target = .ok acc') : acc' = acc ∨ acc'.2 = true := by
  unfold precreateStep at ok
  split at ok
  · cases ok; exact .inl rfl
  · split at ok
    · split at ok
      · cases ok; exact .inl rfl
      · dsimp only at ok
        split at ok
        · rename_i e failed
          cases ok
          exact .inl (Prod.ext (createShardGroup_error failed) rfl)
        · cases ok
        · cases ok; exact .inr rfl
    · cases ok; exact .inl rfl

/-- A loop that ends with its flag down changed nothing. -/
theorem foldlM_precreateStep_unchanged :
    ∀ (targets : List (String × RetentionPolicyInfo)) {acc acc' : Data × Bool},
      targets.foldlM (precreateStep fromTime toTime) acc = .ok acc' → acc'.2 = false → acc' = acc
  | [], _, _, ok, _ => by cases ok; rfl
  | _ :: rest, _, _, ok, down => by
    obtain ⟨_, step, loop⟩ := foldlM_ok_cons ok
    have same := foldlM_precreateStep_unchanged rest loop down
    subst same
    rcases precreateStep_flag fromTime toTime step with same | raised
    · exact same
    · rw [raised] at down; cases down

variable {fromTime toTime} {rp : RetentionPolicyInfo} {g : ShardGroupInfo}
  (last : rp.shardGroups.getLast? = some g) (live : g.deleted = false)
  (window : fromTime < g.endTime ∧ g.endTime < toTime)
include last live window

/-- Once the loop has passed an eligible policy whose names resolve to a policy of positive
duration, a live group covers the next nanosecond under those names. -/
theorem precreateStep_covers {acc acc' : Data × Bool} (database : String)
    {rp1 : RetentionPolicyInfo} (found : acc.1.retentionPolicy database rp.name = .ok (some rp1))
    (positive : 0 < rp1.shardGroupDuration)
    (ok : precreateStep fromTime toTime acc (database, rp) = .ok acc') :
    (acc'.1.shardGroupAt database rp.name (g.endTime + 1)).isSome := by
  have eligible : (!g.deleted && decide (g.endTime < toTime) && decide (fromTime < g.endTime)) =
      true := by simp [live, window.1, window.2]
  unfold precreateStep at ok
  simp only [last, eligible, if_true] at ok
  by_cases covered : (acc.1.shardGroupAt database rp.name (g.endTime + 1)).isSome
  · simp only [covered, if_true] at ok
    cases ok
    exact covered
  · have miss : acc.1.shardGroupAt database rp.name (g.endTime + 1) = none := by
      simpa using covered
    have missed : rp1.shardGroupByTimestamp (g.endTime + 1) = none := by
      rw [← Data.shardGroupAt_of_found found]; exact miss
    obtain ⟨-, found'⟩ := Data.createShardGroup_of_miss found missed
    have holds : (createShardGroup acc.1 database rp.name (g.endTime + 1)).1.shardGroupAt
        database rp.name (g.endTime + 1) |>.isSome := by
      rw [createShardGroup_fst_of_miss miss, Data.shardGroupAt_of_found found']
      exact rp1.shardGroupByTimestamp_inserted acc.1 (g.endTime + 1) positive
    simp only [covered, Bool.false_eq_true, if_false] at ok
    split at ok <;> cases ok <;> exact holds

/-- After the whole loop, every eligible policy it visits is covered under its names. -/
theorem foldlM_precreateStep_covers (database : String) :
    ∀ (targets : List (String × RetentionPolicyInfo)) (acc acc' : Data × Bool),
      (database, rp) ∈ targets →
      (∃ rp1, acc.1.retentionPolicy database rp.name = .ok (some rp1) ∧
        0 < rp1.shardGroupDuration) →
      targets.foldlM (precreateStep fromTime toTime) acc = .ok acc' →
      (acc'.1.shardGroupAt database rp.name (g.endTime + 1)).isSome := by
  intro targets
  induction targets with
  | nil => exact fun _ _ mem => absurd mem (List.not_mem_nil _)
  | cons target rest ih =>
    rintro acc acc' mem ⟨rp1, found, positive⟩ ok
    obtain ⟨acc₁, step, loop⟩ := foldlM_ok_cons ok
    rcases List.mem_cons.mp mem with rfl | later
    · exact (extends_foldlM_precreateStep fromTime toTime rest loop).covered
        (precreateStep_covers last live window database found positive step)
    · obtain ⟨rp1', found', duration, -⟩ :=
        extends_precreateStep fromTime toTime step database rp.name rp1 found
      exact ih _ _ later ⟨rp1', found', duration ▸ positive⟩ loop

end Loop

/-- Whenever `PrecreateShardGroups` returns nil, every policy whose last group is live and ends
inside `(from, to)` has, under its database's and its own name, a live group covering the
nanosecond after that end, provided the policy those names resolve to has a positive group
duration. -/
theorem Client.precreateShardGroups_covers_next (hook : Hook) (fromTime toTime : Time)
    (c : Client) (ok : (c.precreateShardGroups hook fromTime toTime).1 = .ok ())
    {db : DatabaseInfo} (mem : db ∈ c.cacheData.databases) {rp : RetentionPolicyInfo}
    (policy : rp ∈ db.retentionPolicies) {g : ShardGroupInfo}
    (last : rp.shardGroups.getLast? = some g) (live : g.deleted = false)
    (window : fromTime < g.endTime ∧ g.endTime < toTime) {rp1 : RetentionPolicyInfo}
    (found : c.cacheData.retentionPolicy db.name rp.name = .ok (some rp1))
    (positive : 0 < rp1.shardGroupDuration) :
    ((c.precreateShardGroups hook fromTime toTime).2.cacheData.shardGroupAt db.name rp.name
      (g.endTime + 1)).isSome := by
  have target : (db.name, rp) ∈ precreateTargets c.cacheData :=
    List.mem_flatMap.mpr ⟨db, mem, List.mem_map.mpr ⟨rp, policy, rfl⟩⟩
  unfold Client.precreateShardGroups at ok ⊢
  simp only [Data.clone_eq] at ok ⊢
  cases loop : (precreateTargets c.cacheData).foldlM (precreateStep fromTime toTime)
      (c.cacheData, false) with
  | error e => simp [loop] at ok
  | ok result =>
    have covered := foldlM_precreateStep_covers last live window db.name _ (c.cacheData, false)
      result target ⟨rp1, found, positive⟩ loop
    simp only [loop] at ok ⊢
    cases flag : result.2 with
    | true =>
      rcases c.commit_cases hook result.1 with ⟨e, failed⟩ | done
      · simp [flag, failed] at ok
      · simp only [flag, if_true, done]
        exact covered
    | false =>
      rw [foldlM_precreateStep_unchanged fromTime toTime _ loop flag] at covered
      simpa [flag] using covered

/-- A policy whose last group `[0, 10)` ends inside `(5, 20)` gets the group `[10, 20)`. -/
theorem Client.precreateShardGroups_covers_next_one_policy :
    let c : Client := { newClient "meta" false with
      cacheData := ⟨0, 1, [⟨"db", "autogen", [⟨"autogen", 1, 0, 10,
        [⟨1, 0, 10, none, none, [⟨1, [1]⟩]⟩]⟩]⟩], [], [⟨1, "h", "h:8088", false⟩], 1, 1⟩ }
    let db : DatabaseInfo := ⟨"db", "autogen", [⟨"autogen", 1, 0, 10,
      [⟨1, 0, 10, none, none, [⟨1, [1]⟩]⟩]⟩]⟩
    let rp : RetentionPolicyInfo := ⟨"autogen", 1, 0, 10, [⟨1, 0, 10, none, none, [⟨1, [1]⟩]⟩]⟩
    ((c.precreateShardGroups snapshot 5 20).1 = .ok () ∧ db ∈ c.cacheData.databases ∧
      rp ∈ db.retentionPolicies ∧
      rp.shardGroups.getLast? = some ⟨1, 0, 10, none, none, [⟨1, [1]⟩]⟩ ∧
      (⟨1, 0, 10, none, none, [⟨1, [1]⟩]⟩ : ShardGroupInfo).deleted = false ∧
      ((5 : Time) < 10 ∧ (10 : Time) < 20) ∧
      c.cacheData.retentionPolicy db.name rp.name = .ok (some rp) ∧
      (0 : Duration) < rp.shardGroupDuration) ∧
    ((c.precreateShardGroups snapshot 5 20).2.cacheData.shardGroupAt db.name rp.name
      (10 + 1)).isSome := by
  intro c db rp
  have ok : (c.precreateShardGroups snapshot 5 20).1 = .ok () := rfl
  have mem : db ∈ c.cacheData.databases := List.mem_singleton_self _
  have policy : rp ∈ db.retentionPolicies := List.mem_singleton_self _
  have window : (5 : Time) < 10 ∧ (10 : Time) < 20 := by decide
  have positive : (0 : Duration) < rp.shardGroupDuration := by decide
  exact ⟨⟨ok, mem, policy, rfl, rfl, window, rfl, positive⟩,
    Client.precreateShardGroups_covers_next snapshot 5 20 c ok mem policy rfl rfl window rfl
      positive⟩

end Chronus.Meta
