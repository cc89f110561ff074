import Chronus.Meta.Propagation

/-!
# Shards by time range, and a shard's owner

`ShardsByTimeRange` collects the shards of every measurement's `ShardGroupsByTimeRange` into a
map keyed by `*meta.ShardInfo`: the address of the shard inside the snapshot the lookup read,
since the group copies `ShardGroupsByTimeRange` returns share their `Shards` arrays with the
snapshot. When every lookup reads one snapshot, an address names a shard: the result is
exactly the shards of the live groups of the sources' policies that overlap the range, each
once when no shard ID is stored twice (`shardsByTimeRange_one_snapshot`). But each lookup takes
the read lock on its own, so other clients' calls run between two lookups. Every mutation but
`CreateDataNode` commits a deep clone, which puts every shard at a new address. A shard read
before and after such a commit is then two keys of the map, and is listed twice
(`shardsByTimeRange_commit_duplicates`).

`ShardOwner` searches the same snapshot the other way, from a shard ID to its group, and
skips deleted groups. Where each shard ID is held by one group at most, it names that group
exactly when the group is live, and nothing otherwise (`shardOwner_exact`).

A Go map iterates in no fixed order. The model lists the map's entries in insertion order;
every statement here is about which shards occur and how often.
-/

namespace Chronus.Meta

/-! ## Addresses -/

/-- The backing array of a group's `Shards` slice: the allocation of the snapshot that holds it
(a commit of a clone installs fresh memory), the database and policy, and the group's position
in `ShardGroups`. -/
structure ShardArray where
  alloc : Nat
  database : String
  policy : String
  group : Nat
deriving DecidableEq, Repr

/-- A `meta.ShardGroupInfo` value as Go holds it: its fields, and the array its `Shards` slice
points to. -/
structure GroupValue where
  info : ShardGroupInfo
  shards : ShardArray
deriving DecidableEq, Repr

/-- `&g.Shards[i]`. -/
structure ShardAddress where
  array : ShardArray
  index : Nat
deriving DecidableEq, Repr

/-- What a reader sees under its read lock: the client, and the allocation of its snapshot. -/
abbrev View := Client × Nat

/-! ## The lookups -/

/-- `Client.ShardGroupsByTimeRange` on a view: the live groups of the policy that overlap
`[min, max]`, in `ShardGroups` order, as copies whose shards stay in the snapshot. -/
def Client.shardGroupsByTimeRange (v : View) (database policy : String) (min max : Time) :
    Except MetaError (List GroupValue) :=
  match v.1.cacheData.retentionPolicy database policy with
  | .error e => .error e
  | .ok none => .error (.retentionPolicyNotFound policy)
  | .ok (some rpi) =>
    .ok (rpi.shardGroups.enum.filterMap fun (i, g) =>
      if g.deleted || !g.overlaps min max then none else some ⟨g, ⟨v.2, database, policy, i⟩⟩)

/-- The map of `ShardsByTimeRange`, as its entries in insertion order. -/
abbrev ShardMap := List (ShardAddress × ShardInfo)

/-- `m[k] = struct{}{}`: a new key goes last, a present key keeps its entry. -/
def ShardMap.insert (m : ShardMap) (k : ShardAddress) (sh : ShardInfo) : ShardMap :=
  if m.any (·.1 == k) then m else m ++ [(k, sh)]

/-- `m[&g.Shards[i]] = struct{}{}` for each shard of `g`. -/
def insertShards (m : ShardMap) (g : GroupValue) : ShardMap :=
  g.info.shards.enum.foldl (fun m (i, sh) => m.insert ⟨g.shards, i⟩ sh) m

/-- The loop of `ShardsByTimeRange` over the measurements, each looked up on the view its own
read lock saw. -/
def collectShards (tmin tmax : Time) : List (View × String × String) → ShardMap →
    Except MetaError ShardMap
  | [], m => .ok m
  | (v, database, policy) :: rest, m =>
    match Client.shardGroupsByTimeRange v database policy tmin tmax with
    | .error e => .error e
    | .ok groups => collectShards tmin tmax rest (groups.foldl insertShards m)

/-- `Client.ShardsByTimeRange`: the shards the map's keys point to. -/
def shardsByTimeRange (lookups : List (View × String × String)) (tmin tmax : Time) :
    Except MetaError (List ShardInfo) :=
  match collectShards tmin tmax lookups [] with
  | .error e => .error e
  | .ok m => .ok (m.map (·.2))

/-! ## One snapshot

On one view the addresses name shards: an address points into the view's snapshot, and the map
holds each address once. Its entries are then exactly the shards of the live overlapping groups
of the sources, and each shard ID comes once when no ID is stored twice in the snapshot. -/

/-- The group whose `Shards` array is `arr`, when `arr` is memory of the view's snapshot. -/
def View.groupAt (v : View) (arr : ShardArray) : Option ShardGroupInfo :=
  if arr.alloc = v.2 then
    match v.1.cacheData.retentionPolicy arr.database arr.policy with
    | .ok (some rpi) => rpi.shardGroups[arr.group]?
    | _ => none
  else none

/-- `*a`: the shard an address of the view's snapshot points to. -/
def View.shardAt (v : View) (a : ShardAddress) : Option ShardInfo :=
  (v.groupAt a.array).bind (·.shards[a.index]?)

/-- `a` is the address of a shard of a live group of `database.policy` in the view that
overlaps `[min, max]`. -/
def View.InRange (v : View) (database policy : String) (min max : Time) (a : ShardAddress) :
    Prop :=
  ∃ rpi gi g, v.1.cacheData.retentionPolicy database policy = .ok (some rpi) ∧
    rpi.shardGroups[gi]? = some g ∧ g.deleted = false ∧ g.overlaps min max = true ∧
    a.array = ⟨v.2, database, policy, gi⟩ ∧ a.index < g.shards.length

/-- No shard ID is stored at two addresses of the view's snapshot. -/
def View.UniqueShardIDs (v : View) : Prop :=
  ∀ a b sa sb, v.shardAt a = some sa → v.shardAt b = some sb → sa.id = sb.id → a = b

theorem View.shardAt_of_found {v : View} {database policy : String} {rpi : RetentionPolicyInfo}
    (found : v.1.cacheData.retentionPolicy database policy = .ok (some rpi)) {gi : Nat}
    {g : ShardGroupInfo} (nth : rpi.shardGroups[gi]? = some g) (i : Nat) :
    v.shardAt ⟨⟨v.2, database, policy, gi⟩, i⟩ = g.shards[i]? := by
  simp [View.shardAt, View.groupAt, found, nth]

/-- Every entry of the map is the shard its key points to in the view, and no key is there
twice. -/
structure ShardMap.Sound (v : View) (m : ShardMap) : Prop where
  nodup : (m.map (·.1)).Nodup
  points : ∀ e ∈ m, v.shardAt e.1 = some e.2

theorem ShardMap.mem_keys_insert {m : ShardMap} {k a : ShardAddress} {sh : ShardInfo} :
    a ∈ (m.insert k sh).map (·.1) ↔ a ∈ m.map (·.1) ∨ a = k := by
  unfold ShardMap.insert
  split
  · rename_i present
    obtain ⟨e, mem, key⟩ := List.any_eq_true.mp present
    exact ⟨.inl, fun | .inl old => old | .inr rfl => List.mem_map.mpr ⟨e, mem, beq_iff_eq.mp key⟩⟩
  · simp only [List.map_append, List.mem_append, List.map_cons, List.map_nil, List.mem_singleton]

theorem ShardMap.Sound.insert {v : View} {m : ShardMap} (sound : m.Sound v) {k : ShardAddress}
    {sh : ShardInfo} (points : v.shardAt k = some sh) : (m.insert k sh).Sound v := by
  unfold ShardMap.insert
  split
  · exact sound
  · rename_i absent
    simp only [List.any_eq_true, beq_iff_eq, not_exists, not_and] at absent
    refine ⟨?_, fun e mem => ?_⟩
    · rw [List.map_append, List.map_singleton, ← List.concat_eq_append]
      refine sound.nodup.concat fun mem => ?_
      obtain ⟨e, entry, key⟩ := List.mem_map.mp mem
      exact absent e entry key
    · rcases List.mem_append.mp mem with old | new
      · exact sound.points e old
      · rw [List.mem_singleton.mp new]
        exact points

/-- Inserting a list of entries keeps the map sound and adds their keys. -/
theorem ShardMap.Sound.foldl_insert {α : Type} (f : α → ShardAddress × ShardInfo) (l : List α)
    {v : View} (points : ∀ x ∈ l, v.shardAt (f x).1 = some (f x).2) :
    ∀ m : ShardMap, m.Sound v →
      (l.foldl (fun m x => m.insert (f x).1 (f x).2) m).Sound v ∧
        ∀ a, a ∈ (l.foldl (fun m x => m.insert (f x).1 (f x).2) m).map (·.1) ↔
          a ∈ m.map (·.1) ∨ ∃ x ∈ l, a = (f x).1 := by
  induction l with
  | nil =>
    intro m sound
    exact ⟨sound, fun a => by simp only [List.foldl_nil, List.not_mem_nil, false_and, exists_false,
      or_false]⟩
  | cons x rest ih =>
    intro m sound
    obtain ⟨sound', keys⟩ := ih (fun y mem => points y (.tail x mem)) _
      (sound.insert (points x (.head rest)))
    refine ⟨sound', fun a => ?_⟩
    simp only [List.foldl_cons, keys, ShardMap.mem_keys_insert, List.mem_cons, exists_eq_or_imp,
      or_assoc]

theorem insertShards_sound {v : View} {m : ShardMap} (sound : m.Sound v)
    {g : GroupValue} (located : v.groupAt g.shards = some g.info) :
    (insertShards m g).Sound v ∧ ∀ a, a ∈ (insertShards m g).map (·.1) ↔
      a ∈ m.map (·.1) ∨ a.array = g.shards ∧ a.index < g.info.shards.length := by
  have points : ∀ x ∈ g.info.shards.enum, v.shardAt ⟨g.shards, x.1⟩ = some x.2 := by
    intro x mem
    simpa [View.shardAt, located] using List.mem_enum_iff_getElem?.mp mem
  obtain ⟨sound', keys⟩ :=
    ShardMap.Sound.foldl_insert (fun x : Nat × ShardInfo => (⟨g.shards, x.1⟩, x.2)) _ points m sound
  refine ⟨sound', fun a => ?_⟩
  rw [insertShards, keys]
  simp only [List.mem_enum_iff_getElem?, Prod.exists, exists_and_right]
  constructor
  · rintro (old | ⟨i, ⟨sh, nth⟩, rfl⟩)
    · exact .inl old
    · exact .inr ⟨rfl, (List.getElem?_eq_some_iff.mp nth).1⟩
  · rintro (old | ⟨array, index⟩)
    · exact .inl old
    · exact .inr ⟨a.index, ⟨_, List.getElem?_eq_getElem index⟩, by rw [← array]⟩

/-- Inserting the shards of groups of the view. -/
theorem foldl_insertShards_sound {v : View} (groups : List GroupValue)
    (located : ∀ g ∈ groups, v.groupAt g.shards = some g.info) :
    ∀ m : ShardMap, m.Sound v → (groups.foldl insertShards m).Sound v ∧
      ∀ a, a ∈ (groups.foldl insertShards m).map (·.1) ↔
        a ∈ m.map (·.1) ∨ ∃ g ∈ groups, a.array = g.shards ∧ a.index < g.info.shards.length := by
  induction groups with
  | nil =>
    intro m sound
    exact ⟨sound, fun a => by simp only [List.foldl_nil, List.not_mem_nil, false_and, exists_false,
      or_false]⟩
  | cons g rest ih =>
    intro m sound
    obtain ⟨sound₁, keys₁⟩ := insertShards_sound sound (located g (.head rest))
    obtain ⟨sound₂, keys₂⟩ := ih (fun g' mem => located g' (.tail g mem)) _ sound₁
    refine ⟨sound₂, fun a => ?_⟩
    simp only [List.foldl_cons, keys₂, keys₁, List.mem_cons, exists_eq_or_imp, or_assoc]

/-- One lookup's groups: groups of the view, whose shards are those of the live groups of the
policy that overlap the range. -/
theorem Client.shardGroupsByTimeRange_ok {v : View} {database policy : String} {min max : Time}
    {groups : List GroupValue}
    (ok : Client.shardGroupsByTimeRange v database policy min max = .ok groups) :
    (∀ g ∈ groups, v.groupAt g.shards = some g.info) ∧
      ∀ a, (∃ g ∈ groups, a.array = g.shards ∧ a.index < g.info.shards.length) ↔
        v.InRange database policy min max a := by
  unfold Client.shardGroupsByTimeRange at ok
  split at ok
  · cases ok
  · cases ok
  · rename_i rpi found
    cases ok
    simp only [List.mem_filterMap, Prod.exists, List.mem_enum_iff_getElem?]
    refine ⟨?_, fun a => ⟨?_, ?_⟩⟩
    · rintro g ⟨i, g0, nth, keep⟩
      split at keep
      · cases keep
      · cases keep
        simp [View.groupAt, found, nth]
    · rintro ⟨g, ⟨i, g0, nth, keep⟩, array, index⟩
      split at keep
      · cases keep
      · rename_i live
        cases keep
        simp only [Bool.or_eq_true, Bool.not_eq_true', not_or, Bool.not_eq_true,
          Bool.not_eq_false] at live
        exact ⟨rpi, i, g0, found, nth, live.1, live.2, array, index⟩
    · rintro ⟨rpi', gi, g, found', nth, live, overlaps, array, index⟩
      rw [found] at found'
      cases found'
      exact ⟨⟨g, a.array⟩, ⟨gi, g, nth, by simp [live, overlaps, array]⟩, rfl, index⟩

/-- The lookups of one view keep the map sound and add the addresses of the sources' shards in
range. -/
theorem collectShards_one_view {v : View} {min max : Time} (sources : List (String × String)) :
    ∀ m m' : ShardMap, m.Sound v →
      collectShards min max (sources.map fun s => (v, s.1, s.2)) m = .ok m' →
        m'.Sound v ∧ ∀ a, a ∈ m'.map (·.1) ↔
          a ∈ m.map (·.1) ∨ ∃ s ∈ sources, v.InRange s.1 s.2 min max a := by
  induction sources with
  | nil =>
    rintro m m' sound ⟨⟩
    exact ⟨sound, fun a => by simp only [List.not_mem_nil, false_and, exists_false, or_false]⟩
  | cons s rest ih =>
    intro m m' sound collected
    simp only [List.map_cons, collectShards] at collected
    split at collected
    · cases collected
    · rename_i groups ok
      obtain ⟨located, inRange⟩ := Client.shardGroupsByTimeRange_ok ok
      obtain ⟨sound₁, keys₁⟩ := foldl_insertShards_sound groups located m sound
      obtain ⟨sound₂, keys₂⟩ := ih _ _ sound₁ collected
      refine ⟨sound₂, fun a => ?_⟩
      rw [keys₂, keys₁, inRange]
      simp only [List.mem_cons, exists_eq_or_imp, or_assoc]

/-- With no commit between the lookups, `ShardsByTimeRange` returns exactly the shards of the
live groups of the sources' policies that overlap `[tmin, tmax]`, and each shard ID once when no
ID is stored twice in the snapshot. -/
theorem shardsByTimeRange_one_snapshot (v : View) (sources : List (String × String))
    (tmin tmax : Time) {shards : List ShardInfo}
    (ok : shardsByTimeRange (sources.map fun s => (v, s.1, s.2)) tmin tmax = .ok shards) :
    (∀ sh, sh ∈ shards ↔ ∃ s ∈ sources, ∃ rpi,
        v.1.cacheData.retentionPolicy s.1 s.2 = .ok (some rpi) ∧
          ∃ g ∈ rpi.shardGroups, g.deleted = false ∧ g.overlaps tmin tmax = true ∧ sh ∈ g.shards) ∧
      (v.UniqueShardIDs → (shards.map (·.id)).Nodup) := by
  unfold shardsByTimeRange at ok
  split at ok
  · cases ok
  · rename_i m collected
    cases ok
    obtain ⟨sound, keys⟩ := collectShards_one_view sources [] m ⟨List.nodup_nil, nofun⟩ collected
    refine ⟨fun sh => ⟨fun mem => ?_, ?_⟩, fun unique => ?_⟩
    · obtain ⟨⟨⟨arr, j⟩, sh⟩, entry, rfl⟩ := List.mem_map.mp mem
      obtain ⟨s, source, rpi, gi, g, found, nth, live, overlaps, array, -⟩ :=
        ((keys ⟨arr, j⟩).mp (List.mem_map_of_mem (·.1) entry)).resolve_left nofun
      cases array
      have points := sound.points _ entry
      rw [View.shardAt_of_found found nth] at points
      exact ⟨s, source, rpi, found, g, List.mem_iff_getElem?.mpr ⟨gi, nth⟩, live, overlaps,
        List.mem_iff_getElem?.mpr ⟨j, points⟩⟩
    · rintro ⟨s, source, rpi, found, g, group, live, overlaps, shard⟩
      obtain ⟨gi, nth⟩ := List.mem_iff_getElem?.mp group
      obtain ⟨j, nth_shard⟩ := List.mem_iff_getElem?.mp shard
      obtain ⟨e, mem, key⟩ := List.mem_map.mp ((keys ⟨⟨v.2, s.1, s.2, gi⟩, j⟩).mpr
        (.inr ⟨s, source, rpi, gi, g, found, nth, live, overlaps, rfl,
          (List.getElem?_eq_some_iff.mp nth_shard).1⟩))
      have points := sound.points e mem
      rw [key, View.shardAt_of_found found nth, nth_shard] at points
      exact List.mem_map.mpr ⟨e, mem, (Option.some.inj points).symm⟩
    · rw [List.map_map]
      refine List.Nodup.map_on (fun x hx y hy same => ?_) (List.Nodup.of_map _ sound.nodup)
      have key := unique _ _ _ _ (sound.points x hx) (sound.points y hy) same
      have value : some x.2 = some y.2 := by rw [← sound.points x hx, ← sound.points y hy, key]
      exact Prod.ext key (Option.some.inj value)

/-! ## Other clients' calls -/

/-- Whether the call commits a clone: every mutation but `CreateDataNode`, which mutates the
live snapshot and commits that. -/
def Op.commitsClone : Op → Bool
  | .createDataNode _ _ => false
  | _ => true

section Interleaving

variable (hook : Hook) (methods : DataMethods)

/-- Another client's call between two lookups: the client after it, in fresh memory when it
committed a clone. -/
inductive OtherCall : View → View → Prop
  | call (op : Op) (c : Client) (alloc : Nat) :
    OtherCall (c, alloc)
      ((c.exec hook methods op).2,
        if op.commitsClone && (c.exec hook methods op).2.changed != c.changed then alloc + 1
        else alloc)

/-- The views of successive lookups: each reached from the one before by other clients'
calls. -/
def LookupRun : View → List View → Prop
  | _, [] => True
  | v, w :: rest => Relation.ReflTransGen (OtherCall hook methods) v w ∧ LookupRun w rest

end Interleaving

/-- One policy with one live group `[0, 10)` holding shard 1, looked up for two measurements
of that policy over `[0, 5]`. Another client's `CreateUser` commits between the two lookups.
Shard 1 is listed twice. -/
theorem shardsByTimeRange_commit_duplicates (methods : DataMethods) :
    let c0 : Client := { newClient "meta" false with
      cacheData := ⟨0, 1, [⟨"db", "autogen", [⟨"autogen", 1, 0, 10,
        [⟨1, 0, 10, none, none, [⟨1, [1]⟩]⟩]⟩]⟩], [], [⟨1, "h", "h:8088", false⟩], 1, 1⟩ }
    let c1 : Client := (c0.createUser snapshot "bob" "$2a$10$b" false).2
    LookupRun snapshot methods (c0, 0) [(c0, 0), (c1, 1)] ∧
      shardsByTimeRange [((c0, 0), "db", "autogen"), ((c1, 1), "db", "autogen")] 0 5 =
        .ok [⟨1, [1]⟩, ⟨1, [1]⟩] := by
  intro c0 c1
  refine ⟨⟨.refl, .single (OtherCall.call (.createUser "bob" "$2a$10$b" false) c0 0), trivial⟩,
    rfl⟩

/-! ## Shard owner -/

/-- The groups in the order `ShardOwner`'s loops visit them, each with the names of its database
and policy. -/
def Data.groupEntries (data : Data) : List (String × String × ShardGroupInfo) :=
  data.databases.flatMap fun dbi => dbi.retentionPolicies.flatMap fun rpi =>
    rpi.shardGroups.map fun g => (dbi.name, rpi.name, g)

/-- The group holds a shard with ID `shardID`. -/
def ShardGroupInfo.hasShard (g : ShardGroupInfo) (shardID : UInt64) : Bool :=
  g.shards.any (·.id == shardID)

/-- `Client.ShardOwner`: the first live group, in loop order, that holds the shard, with the
names of its database and policy; empty names and nil when there is none. -/
def Client.shardOwner (shardID : UInt64) (c : Client) : String × String × Option ShardGroupInfo :=
  match c.cacheData.groupEntries.find? fun e => !e.2.2.deleted && e.2.2.hasShard shardID with
  | some (database, policy, g) => (database, policy, some g)
  | none => ("", "", none)

/-- Each shard ID is held by at most one group of the snapshot. -/
def Data.ShardIDsInOneGroup (data : Data) : Prop :=
  ∀ shardID, (data.groupEntries.filter (·.2.2.hasShard shardID)).length ≤ 1

theorem Data.mem_groupEntries {data : Data} {e : String × String × ShardGroupInfo} :
    e ∈ data.groupEntries ↔ ∃ dbi ∈ data.databases, ∃ rpi ∈ dbi.retentionPolicies,
      ∃ g ∈ rpi.shardGroups, e = (dbi.name, rpi.name, g) := by
  simp only [Data.groupEntries, List.mem_flatMap, List.mem_map]
  constructor
  · rintro ⟨dbi, db, rpi, rp, g, group, rfl⟩
    exact ⟨dbi, db, rpi, rp, g, group, rfl⟩
  · rintro ⟨dbi, db, rpi, rp, g, group, rfl⟩
    exact ⟨dbi, db, rpi, rp, g, group, rfl⟩

theorem ShardGroupInfo.hasShard_iff {g : ShardGroupInfo} {shardID : UInt64} :
    g.hasShard shardID = true ↔ ∃ sh ∈ g.shards, sh.id = shardID := by
  simp [ShardGroupInfo.hasShard]

/-- A search meets the one element that passes it, when at most one element passes a weaker
test. -/
theorem find?_of_filter_length_le_one {α : Type} {p q : α → Bool} {l : List α}
    (weaker : ∀ a, p a = true → q a = true) (short : (l.filter q).length ≤ 1) {a : α}
    (mem : a ∈ l) (passes : p a = true) : l.find? p = some a := by
  cases found : l.find? p with
  | none => exact absurd passes (List.find?_eq_none.mp found a mem)
  | some b =>
    have mb := List.mem_filter.mpr ⟨List.mem_of_find?_eq_some found, weaker b (List.find?_some found)⟩
    have ma := List.mem_filter.mpr ⟨mem, weaker a passes⟩
    rcases filtered : l.filter q with _ | ⟨x, _ | ⟨y, rest⟩⟩
    · simp [filtered] at ma
    · simp only [filtered, List.mem_singleton] at ma mb
      rw [ma, mb]
    · simp [filtered] at short

/-- `ShardOwner` names a group exactly when its search over the loops stops there. -/
theorem Client.shardOwner_eq_some_iff {c : Client} {shardID : UInt64} {database policy : String}
    {g : ShardGroupInfo} : c.shardOwner shardID = (database, policy, some g) ↔
      c.cacheData.groupEntries.find? (fun e => !e.2.2.deleted && e.2.2.hasShard shardID) =
        some (database, policy, g) := by
  unfold Client.shardOwner
  cases c.cacheData.groupEntries.find? fun e => !e.2.2.deleted && e.2.2.hasShard shardID with
  | none => simp
  | some e => obtain ⟨_, _, _⟩ := e; simp

/-- `ShardOwner` returns empty names and nil exactly when its search finds nothing. -/
theorem Client.shardOwner_eq_empty_iff {c : Client} {shardID : UInt64} :
    c.shardOwner shardID = ("", "", none) ↔
      c.cacheData.groupEntries.find? (fun e => !e.2.2.deleted && e.2.2.hasShard shardID) =
        none := by
  unfold Client.shardOwner
  cases c.cacheData.groupEntries.find? fun e => !e.2.2.deleted && e.2.2.hasShard shardID with
  | none => simp
  | some e => simp

/-- The entries `ShardOwner`'s search stops at: live groups that hold the shard, with the
names of their database and policy. -/
theorem Data.live_holder_iff {data : Data} {shardID : UInt64}
    {e : String × String × ShardGroupInfo} :
    (e ∈ data.groupEntries ∧ (!e.2.2.deleted && e.2.2.hasShard shardID) = true) ↔
      ∃ dbi ∈ data.databases, ∃ rpi ∈ dbi.retentionPolicies, ∃ g ∈ rpi.shardGroups,
        e = (dbi.name, rpi.name, g) ∧ g.deleted = false ∧ ∃ sh ∈ g.shards, sh.id = shardID := by
  simp only [Data.mem_groupEntries, Bool.and_eq_true, Bool.not_eq_true',
    ← ShardGroupInfo.hasShard_iff]
  constructor
  · rintro ⟨⟨dbi, db, rpi, rp, g, group, rfl⟩, passes⟩
    exact ⟨dbi, db, rpi, rp, g, group, rfl, passes⟩
  · rintro ⟨dbi, db, rpi, rp, g, group, rfl, passes⟩
    exact ⟨⟨dbi, db, rpi, rp, g, group, rfl⟩, passes⟩

/-- Where each shard ID is held by at most one group, `ShardOwner` returns a database, a policy
and a group exactly when that group is a live group of that policy holding the shard; it
returns empty names and nil exactly when every group that holds the shard is deleted. -/
theorem shardOwner_exact (c : Client) (unique : c.cacheData.ShardIDsInOneGroup)
    (shardID : UInt64) :
    (∀ database policy g, c.shardOwner shardID = (database, policy, some g) ↔
      ∃ dbi ∈ c.cacheData.databases, dbi.name = database ∧ ∃ rpi ∈ dbi.retentionPolicies,
        rpi.name = policy ∧ g ∈ rpi.shardGroups ∧ g.deleted = false ∧
          ∃ sh ∈ g.shards, sh.id = shardID) ∧
      (c.shardOwner shardID = ("", "", none) ↔
        ∀ dbi ∈ c.cacheData.databases, ∀ rpi ∈ dbi.retentionPolicies, ∀ g ∈ rpi.shardGroups,
          (∃ sh ∈ g.shards, sh.id = shardID) → g.deleted = true) := by
  refine ⟨fun database policy g => Client.shardOwner_eq_some_iff.trans ⟨fun found => ?_, ?_⟩, ?_⟩
  · have passes := List.find?_some found
    obtain ⟨dbi, db, rpi, rp, g, group, same, live, holds⟩ :=
      Data.live_holder_iff.mp ⟨List.mem_of_find?_eq_some found, passes⟩
    cases same
    exact ⟨dbi, db, rfl, rpi, rp, rfl, group, live, holds⟩
  · rintro ⟨dbi, db, rfl, rpi, rp, rfl, group, live, holds⟩
    have holder := Data.live_holder_iff.mpr ⟨dbi, db, rpi, rp, g, group, rfl, live, holds⟩
    exact find?_of_filter_length_le_one (fun _ passes => (Bool.and_eq_true _ _ ▸ passes).2)
      (unique shardID) holder.1 holder.2
  · rw [Client.shardOwner_eq_empty_iff, List.find?_eq_none]
    constructor
    · intro missing dbi db rpi rp g group holds
      by_contra live
      have holder := Data.live_holder_iff.mpr
        ⟨dbi, db, rpi, rp, g, group, rfl, Bool.not_eq_true _ ▸ live, holds⟩
      exact missing _ holder.1 holder.2
    · intro deleted e mem passes
      obtain ⟨dbi, db, rpi, rp, g, group, rfl, live, holds⟩ := Data.live_holder_iff.mp ⟨mem, passes⟩
      simp [deleted dbi db rpi rp g group holds] at live

/-- A policy with a group deleted at 5 that holds shard 7, beside a live group holding shard 8:
`ShardOwner(7)` skips the deleted holder and returns empty names and nil. -/
theorem shardOwner_exact_deleted_holder :
    let c : Client := { newClient "meta" false with cacheData :=
      ⟨0, 1, [⟨"db", "autogen", [⟨"autogen", 1, 0, 10, [⟨1, 0, 10, some 5, none, [⟨7, [1]⟩]⟩,
        ⟨2, 10, 20, none, none, [⟨8, [1]⟩]⟩]⟩]⟩], [], [], 2, 8⟩ }
    c.cacheData.ShardIDsInOneGroup ∧
      ((∀ database policy g, c.shardOwner 7 = (database, policy, some g) ↔
        ∃ dbi ∈ c.cacheData.databases, dbi.name = database ∧ ∃ rpi ∈ dbi.retentionPolicies,
          rpi.name = policy ∧ g ∈ rpi.shardGroups ∧ g.deleted = false ∧
            ∃ sh ∈ g.shards, sh.id = 7) ∧
        (c.shardOwner 7 = ("", "", none) ↔
          ∀ dbi ∈ c.cacheData.databases, ∀ rpi ∈ dbi.retentionPolicies, ∀ g ∈ rpi.shardGroups,
            (∃ sh ∈ g.shards, sh.id = 7) → g.deleted = true)) := by
  intro c
  have unique : c.cacheData.ShardIDsInOneGroup := by
    intro shardID
    by_cases seven : (7 : UInt64) = shardID
    · subst seven
      decide
    · have skip : (7 == shardID) = false := by simpa using seven
      show (List.filter (fun e : String × String × ShardGroupInfo => e.2.2.hasShard shardID)
        [("db", "autogen", _), ("db", "autogen", _)]).length ≤ 1
      rw [List.filter_cons_of_neg (by simp [ShardGroupInfo.hasShard, skip])]
      exact (List.length_filter_le _ _).trans (by decide)
  exact ⟨unique, shardOwner_exact c unique 7⟩

end Chronus.Meta
