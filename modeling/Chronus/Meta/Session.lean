import Chronus.Meta.Auth
import Chronus.Meta.Store

/-!
# The authentication cache under interleaved calls

`Authenticate` runs in three locked sections: it reads the user (store.go:618), then the cache
entry (629); on a miss or a mismatch it runs bcrypt against the hash it read, draws a salt, and
stores the new entry under the write lock (651). Other calls take the lock between the sections.
`AuthSessions` is the client with the authentications in flight, each section one step
(`AuthSessions.step`), and every mutating call one more step; run back to back, the three
sections are `Client.authenticate` (`AuthSessions.run_sections`).

A cache hit compares the salted SHA256 of the password with the entry and never looks at the
user's current hash. That is safe while every entry holds the salted SHA256 of a password the
user's current hash accepts (`Client.AuthSound`). The third section stores an entry only after
bcrypt accepted the password against the hash the first section read. `UpdateUser` and
`DropUser` delete the entry of the user they change, in a deferred call that runs whether or not
the commit does; `CreateUser` only adds a user the snapshot does not hold; the shard-group calls
leave the users and the cache alone. An `UpdateUser` or `DropUser` of a user that an
`Authenticate` in flight has read is the one step that breaks it: the third section then stores
an entry for the old hash, which the next `Authenticate` hits. Every other step keeps the cache
sound and every read user current (`AuthSessions.Sound.step`).

So, from a client with a sound cache, `NewClient`'s empty one among them, along any
interleaving of authentications with shard-group and user calls in which no call changes a user
while an `Authenticate` of that user is in flight, every `Authenticate` that succeeds returns
the user as the snapshot holds it, with a hash that accepts the password. This needs one thing
of the hashes: two passwords whose salted SHA256 agree are passwords bcrypt does not tell apart
(`authenticate_sections_sound`). The calls left out, `SetData` and `ReplaceData`, swap the
snapshot without touching the cache, and the methods of `Data` outside this repository may
change any hash.

The cache never stands in bcrypt's way: whatever it holds, a password bcrypt accepts against
the stored hash authenticates the user unless the salt draw fails
(`Client.authenticate_accepted`), since an entry the password misses sends `Authenticate` to
bcrypt.
-/

namespace Chronus.Meta

/-! ## User lookups under the user calls -/

theorem Data.user_createUser {data : Data} {n : String} {u : UserInfo}
    (found : data.user n = some u) (name hash : String) (admin : Bool) :
    (data.createUser name hash admin).1.user n = some u := by
  unfold Data.createUser
  split
  · exact found
  · unfold Data.user at found
    simp only [Data.user, List.find?_append, found]
    rfl

theorem Data.user_updateUser {data : Data} {n name : String} (other : n ≠ name) (hash : String) :
    (data.updateUser name hash).1.user n = data.user n := by
  unfold Data.updateUser
  split
  · rfl
  · refine find?_modifyFirst_of_skips (fun u named => ?_) data.users
    simp only [beq_iff_eq] at named
    simp [named, Ne.symm other]

theorem Data.user_dropUser {data : Data} {n name : String} (other : n ≠ name) :
    (data.dropUser name).1.user n = data.user n := by
  unfold Data.dropUser
  split
  · rfl
  · simp only [Data.user, List.find?_filter]
    congr 1
    funext u
    by_cases named : u.name = n <;> simp [named, other]

theorem Client.user_found {c : Client} {name : String} {u : UserInfo}
    (read : c.user name = (some u, none)) : c.cacheData.user name = some u := by
  unfold Client.user at read
  split at read <;> simp_all

section Session

variable (bcrypt : String → String → Bool) (sha256 : List UInt8 → List UInt8)

/-- Every entry of the cache belongs to a user of the snapshot whose current hash is the entry's
`bhash`, and holds the salted SHA256 of a password that hash accepts. -/
def Client.AuthSound (c : Client) : Prop :=
  ∀ name au, c.authCache name = some au → ∃ u, c.cacheData.user name = some u ∧
    u.hash = au.bhash ∧ ∃ password, bcrypt u.hash password = true ∧
      au.hash = hashWithSalt sha256 au.salt password

variable {bcrypt sha256}

/-- A step that keeps every entry and every lookup of a user with an entry keeps the cache
sound. -/
theorem Client.AuthSound.of_entries {c c' : Client} (sound : c.AuthSound bcrypt sha256)
    (entries : ∀ name au, c'.authCache name = some au →
      c.authCache name = some au ∧ c'.cacheData.user name = c.cacheData.user name) :
    c'.AuthSound bcrypt sha256 := by
  intro name au entry
  obtain ⟨old, same⟩ := entries name au entry
  rw [same]
  exact sound name au old

theorem Client.AuthSound.edited {c c' : Client} {m : Nat} (sound : c.AuthSound bcrypt sha256)
    (edited : c.Edited c' m) : c'.AuthSound bcrypt sha256 := by
  obtain ⟨users, cache⟩ := edited.users
  refine sound.of_entries fun name au entry => ⟨cache ▸ entry, ?_⟩
  unfold Data.user
  rw [users]

/-- A commit of a snapshot that keeps every user keeps the cache sound. -/
theorem Client.AuthSound.commit {c : Client} (sound : c.AuthSound bcrypt sha256) {data : Data}
    (keeps : ∀ n u, c.cacheData.user n = some u → data.user n = some u) (hook : Hook) :
    (c.commit hook data).2.AuthSound bcrypt sha256 := by
  rcases c.commit_cases hook data with ⟨e, failed⟩ | done
  · rw [failed]
    exact sound
  · rw [done]
    refine sound.of_entries fun name au entry => ⟨entry, ?_⟩
    obtain ⟨u, found, -⟩ := sound name au entry
    rw [found]
    exact keeps name u found

/-- The body of `UpdateUser` and `DropUser`: whatever the commit does, the entry of `name` goes,
so a snapshot that keeps every other user keeps the cache sound. -/
theorem Client.AuthSound.updateForget {c : Client} (sound : c.AuthSound bcrypt sha256)
    {x : Data × Option MetaError} (name : String)
    (keeps : ∀ n, n ≠ name → x.1.user n = c.cacheData.user n) (hook : Hook) :
    (c.updateForget hook x name).2.AuthSound bcrypt sha256 := by
  unfold Client.updateForget Client.orReturn
  split
  · exact sound
  · dsimp only
    refine sound.of_entries fun n au entry => ?_
    simp only [Client.deleteAuth] at entry
    split at entry
    · cases entry
    · rename_i other
      rcases c.commit_cases hook x.1 with ⟨e, failed⟩ | done
      · simp only [failed] at entry ⊢
        exact ⟨entry, rfl⟩
      · simp only [done] at entry ⊢
        exact ⟨entry, keeps n other⟩

theorem Client.AuthSound.createUser {c : Client} (sound : c.AuthSound bcrypt sha256) (hook : Hook)
    (name hash : String) (admin : Bool) :
    (c.createUser hook name hash admin).2.AuthSound bcrypt sha256 := by
  unfold Client.createUser
  split
  · split <;> exact sound
  · unfold Client.orReturn
    dsimp only
    split
    · exact sound
    · rw [Client.commitThen_snd]
      exact sound.commit
        (fun n u found => by simpa using Data.user_createUser found name hash admin) hook

/-- Every concrete call keeps the cache sound. -/
theorem Client.AuthSound.exec {c : Client} (sound : c.AuthSound bcrypt sha256) (hook : Hook)
    (methods : DataMethods) {op : Op} (concrete : op.concrete = true) :
    (c.exec hook methods op).2.AuthSound bcrypt sha256 := by
  cases op with
  | createShardGroup => exact sound.edited (Client.exec_edited hook methods (by rfl) c)
  | precreateShardGroups => exact sound.edited (Client.exec_edited hook methods (by rfl) c)
  | pruneShardGroups => exact sound.edited (Client.exec_edited hook methods (by rfl) c)
  | createUser name hash admin => exact sound.createUser hook name hash admin
  | updateUser name hash =>
    exact sound.updateForget name
      (fun n other => by simpa using Data.user_updateUser other hash) hook
  | dropUser name =>
    exact sound.updateForget name (fun n other => by simpa using Data.user_dropUser other) hook
  | _ => cases concrete

end Session

/-! ## `Authenticate`'s sections, interleaved -/

/-- The calls an `Authenticate` of `name` in flight races with: those that change that user. -/
def Op.changesUser (name : String) : Op → Bool
  | .updateUser n _ | .dropUser n => n == name
  | _ => false

theorem Client.createUser_user {c : Client} (hook : Hook) (name hash : String) (admin : Bool)
    {n : String} {u : UserInfo} (found : c.cacheData.user n = some u) :
    (c.createUser hook name hash admin).2.cacheData.user n = some u := by
  unfold Client.createUser
  split
  · split <;> exact found
  · unfold Client.orReturn
    dsimp only
    split
    · exact found
    · rw [Client.commitThen_snd]
      rcases c.commit_cases hook (c.cacheData.clone.createUser name hash admin).1 with
        ⟨e, failed⟩ | done
      · rw [failed]; exact found
      · rw [done]; exact Data.user_createUser found name hash admin

theorem Client.updateForget_user {c : Client} (hook : Hook) {x : Data × Option MetaError}
    (name : String) {n : String} {u : UserInfo} (found : c.cacheData.user n = some u)
    (keeps : x.1.user n = some u) : (c.updateForget hook x name).2.cacheData.user n = some u := by
  unfold Client.updateForget Client.orReturn
  split
  · exact found
  · rcases c.commit_cases hook x.1 with ⟨e, failed⟩ | done
    · simp only [failed]; exact found
    · simp only [done]; exact keeps

/-- A concrete call that changes no user `n` leaves the user `n` as it found it. -/
theorem Client.exec_user {c : Client} (hook : Hook) (methods : DataMethods) {op : Op}
    (concrete : op.concrete = true) {n : String} (kept : op.changesUser n = false)
    {u : UserInfo} (found : c.cacheData.user n = some u) :
    (c.exec hook methods op).2.cacheData.user n = some u := by
  have edited : op.groupCall = true →
      (c.exec hook methods op).2.cacheData.user n = some u := fun groupCall => by
    unfold Data.user
    rw [(Client.exec_edited hook methods groupCall c).users.1]
    exact found
  cases op with
  | createShardGroup => exact edited rfl
  | precreateShardGroups => exact edited rfl
  | pruneShardGroups => exact edited rfl
  | createUser name hash admin => exact c.createUser_user hook name hash admin found
  | updateUser name hash =>
    have other : n ≠ name := fun same => by simp [Op.changesUser, same] at kept
    exact c.updateForget_user hook name found (by rw [Data.user_updateUser other]; exact found)
  | dropUser name =>
    have other : n ≠ name := fun same => by simp [Op.changesUser, same] at kept
    exact c.updateForget_user hook name found (by rw [Data.user_dropUser other]; exact found)
  | _ => cases concrete

/-- Where an `Authenticate` in flight stands between its sections: past the first, with the
user it read, or past the second, after a cache miss or a mismatch. -/
inductive AuthStage
  | userRead
  | cacheMissed
deriving DecidableEq, Repr

/-- An `Authenticate` in flight: its arguments, the user its first section read, its stage. -/
structure PendingAuth where
  username : String
  password : String
  user : UserInfo
  stage : AuthStage
deriving DecidableEq, Repr

/-- The client, and the `Authenticate` calls in flight on it, each under its caller's number. -/
structure AuthSessions where
  client : Client
  pending : List (Nat × PendingAuth)

/-- A step while authentications are in flight: a whole mutating call, or one section of the
`Authenticate` numbered `i`. The third step runs bcrypt and draws the salt, which touch no
shared state, before the store of the third section. -/
inductive AuthEvent
  | call (hook : Hook) (op : Op)
  | findUser (i : Nat) (username password : String)
  | checkCache (i : Nat)
  | storeEntry (i : Nat) (rand : Except MetaError (List UInt8))

namespace AuthSessions

/-- No authentication in flight. -/
def start (c : Client) : AuthSessions := ⟨c, []⟩

/-- The `Authenticate` in flight under number `i`. -/
def lookup (s : AuthSessions) (i : Nat) : Option PendingAuth :=
  (s.pending.find? (·.1 == i)).map (·.2)

/-- Record where the `Authenticate` numbered `i` stands. -/
def put (s : AuthSessions) (i : Nat) (a : PendingAuth) : AuthSessions :=
  { s with pending := (i, a) :: s.pending.filter (·.1 != i) }

/-- The `Authenticate` numbered `i` has returned. -/
def drop (s : AuthSessions) (i : Nat) : AuthSessions :=
  { s with pending := s.pending.filter (·.1 != i) }

@[simp] theorem put_client (s : AuthSessions) (i : Nat) (a : PendingAuth) :
    (s.put i a).client = s.client := rfl

@[simp] theorem drop_client (s : AuthSessions) (i : Nat) : (s.drop i).client = s.client := rfl

@[simp] theorem lookup_put (s : AuthSessions) (i : Nat) (a : PendingAuth) :
    (s.put i a).lookup i = some a := by
  simp [lookup, put]

@[simp] theorem put_put (s : AuthSessions) (i : Nat) (a b : PendingAuth) :
    (s.put i a).put i b = s.put i b := by
  simp [put, List.filter_filter]

@[simp] theorem drop_put (s : AuthSessions) (i : Nat) (a : PendingAuth) :
    (s.put i a).drop i = s.drop i := by
  simp [put, drop, List.filter_filter]

theorem lookup_of_fresh {s : AuthSessions} {i : Nat} (fresh : ∀ x ∈ s.pending, x.1 ≠ i) :
    s.lookup i = none := by
  simp only [lookup, Option.map_eq_none', List.find?_eq_none, beq_iff_eq]
  exact fresh

theorem drop_of_fresh {s : AuthSessions} {i : Nat} (fresh : ∀ x ∈ s.pending, x.1 ≠ i) :
    s.drop i = s := by
  have kept : s.pending.filter (·.1 != i) = s.pending :=
    List.filter_eq_self.mpr fun x mem => by simpa using fresh x mem
  simp only [drop, kept]

theorem lookup_mem {s : AuthSessions} {i : Nat} {a : PendingAuth} (found : s.lookup i = some a) :
    (i, a) ∈ s.pending := by
  simp only [lookup, Option.map_eq_some'] at found
  obtain ⟨x, found, rfl⟩ := found
  have named := List.find?_some found
  simp only [beq_iff_eq] at named
  exact named ▸ List.mem_of_find?_eq_some found

section Steps

variable (bcrypt : String → String → Bool) (sha256 : List UInt8 → List UInt8)
  (methods : DataMethods)

/-- One step, with the result of the `Authenticate` it ends, if it ends one: the username and
password it was called with, and what it returns. -/
def step (s : AuthSessions) :
    AuthEvent → AuthSessions × Option (String × String × Except MetaError UserInfo)
  | .call hook op => ({ s with client := (s.client.exec hook methods op).2 }, none)
  | .findUser i username password =>
    if (s.lookup i).isSome then (s, none) else
    match s.client.user username with
    | (_, some e) => (s, some (username, password, .error e))
    | (none, none) => (s, some (username, password, .error .userNotFound))
    | (some u, none) => (s.put i ⟨username, password, u, .userRead⟩, none)
  | .checkCache i =>
    match s.lookup i with
    | some ⟨username, password, u, .userRead⟩ =>
      match s.client.authCache username with
      | some au =>
        if hashWithSalt sha256 au.salt password = au.hash then
          (s.drop i, some (username, password, .ok u))
        else (s.put i ⟨username, password, u, .cacheMissed⟩, none)
      | none => (s.put i ⟨username, password, u, .cacheMissed⟩, none)
    | _ => (s, none)
  | .storeEntry i rand =>
    match s.lookup i with
    | some ⟨username, password, u, .cacheMissed⟩ =>
      if !bcrypt u.hash password then (s.drop i, some (username, password, .error .authenticate))
      else
        match rand with
        | .error e => (s.drop i, some (username, password, .error e))
        | .ok salt =>
          ({ s.drop i with
              client := s.client.storeAuth username ⟨u.hash, salt, hashWithSalt sha256 salt password⟩ },
            some (username, password, .ok u))
    | _ => (s, none)

/-- Steps run one after another, with the results of the authentications they end. -/
def run (s : AuthSessions) :
    List AuthEvent → AuthSessions × List (String × String × Except MetaError UserInfo)
  | [] => (s, [])
  | e :: rest =>
    let next := s.step bcrypt sha256 methods e
    let after := run next.1 rest
    (after.1, next.2.toList ++ after.2)

/-- The three sections of one `Authenticate`, with no step between them, are
`Client.authenticate`. -/
theorem run_sections (s : AuthSessions) {i : Nat} (fresh : ∀ x ∈ s.pending, x.1 ≠ i)
    (rand : Except MetaError (List UInt8)) (username password : String) :
    s.run bcrypt sha256 methods [.findUser i username password, .checkCache i, .storeEntry i rand] =
      ({ s with client := (s.client.authenticate bcrypt sha256 rand username password).2 },
        [(username, password, (s.client.authenticate bcrypt sha256 rand username password).1)]) := by
  have none := lookup_of_fresh fresh
  have kept := drop_of_fresh fresh
  unfold Client.authenticate Client.authenticateSlow
  rcases read : s.client.user username with ⟨user, _ | e⟩
  · rcases user with _ | u
    · simp [run, step, none, read]
    · simp only [run, step, none, read, Option.isSome_none, Bool.false_eq_true, if_false,
        lookup_put]
      cases cached : s.client.authCache username with
      | none =>
        cases accepted : bcrypt u.hash password <;> cases rand <;>
          simp [run, step, cached, accepted, kept]
      | some au =>
        by_cases hit : hashWithSalt sha256 au.salt password = au.hash
        · simp [run, step, cached, hit, kept, none]
        · cases accepted : bcrypt u.hash password <;> cases rand <;>
            simp [run, step, cached, hit, accepted, kept]
  · simp [run, step, none, read]

/-- The steps that do not race: every step but a call that is not concrete or that changes a
user some `Authenticate` in flight has read. -/
def allowed (s : AuthSessions) : AuthEvent → Bool
  | .call _ op => op.concrete && s.pending.all fun x => !op.changesUser x.2.username
  | _ => true

/-- The states a run of allowed steps reaches from `s0`. -/
inductive Reaches (s0 : AuthSessions) : AuthSessions → Prop
  | refl : Reaches s0 s0
  | step {s : AuthSessions} {e : AuthEvent} :
      Reaches s0 s → s.allowed e = true → Reaches s0 (s.step bcrypt sha256 methods e).1

/-- The cache is sound, and every `Authenticate` in flight read the user the snapshot holds. -/
structure Sound (s : AuthSessions) : Prop where
  cache : s.client.AuthSound bcrypt sha256
  read : ∀ x ∈ s.pending, s.client.cacheData.user x.2.username = some x.2.user

variable {bcrypt sha256}

theorem Sound.put {s : AuthSessions} (sound : s.Sound bcrypt sha256) {i : Nat}
    {a : PendingAuth} (read : s.client.cacheData.user a.username = some a.user) :
    (s.put i a).Sound bcrypt sha256 := by
  refine ⟨sound.cache, fun x mem => ?_⟩
  rcases List.mem_cons.mp mem with rfl | mem
  · exact read
  · exact sound.read x (List.mem_of_mem_filter mem)

theorem Sound.drop {s : AuthSessions} (sound : s.Sound bcrypt sha256) (i : Nat) :
    (s.drop i).Sound bcrypt sha256 :=
  ⟨sound.cache, fun x mem => sound.read x (List.mem_of_mem_filter mem)⟩

/-- The third section stores an entry for the user the first section read, whose hash the
snapshot still holds and bcrypt accepted. -/
theorem Sound.storeAuth {s : AuthSessions} (sound : s.Sound bcrypt sha256) {i : Nat}
    {a : PendingAuth} (found : s.lookup i = some a) (accepted : bcrypt a.user.hash a.password = true)
    (salt : List UInt8) :
    ({ s.drop i with
        client := s.client.storeAuth a.username (⟨a.user.hash, salt,
          hashWithSalt sha256 salt a.password⟩ : AuthUser) } : AuthSessions).Sound bcrypt sha256 := by
  have current := sound.read _ (lookup_mem found)
  refine ⟨fun name au entry => ?_, fun x mem => sound.read x (List.mem_of_mem_filter mem)⟩
  simp only [Client.storeAuth] at entry
  split at entry
  · rename_i named
    cases entry
    subst named
    exact ⟨a.user, current, rfl, a.password, accepted, rfl⟩
  · exact sound.cache name au entry

/-- Every allowed step keeps the cache sound and every read user current. -/
theorem Sound.step {s : AuthSessions} (sound : s.Sound bcrypt sha256) {e : AuthEvent}
    (allowed : s.allowed e = true) : (s.step bcrypt sha256 methods e).1.Sound bcrypt sha256 := by
  cases e with
  | call hook op =>
    simp only [AuthSessions.allowed, Bool.and_eq_true, List.all_eq_true, Bool.not_eq_true'] at allowed
    exact ⟨sound.cache.exec hook methods allowed.1, fun x mem =>
      Client.exec_user hook methods allowed.1 (allowed.2 x mem) (sound.read x mem)⟩
  | findUser i username password =>
    dsimp only [AuthSessions.step]
    split
    · exact sound
    · split
      · exact sound
      · exact sound
      · rename_i u read
        exact sound.put (Client.user_found read)
  | checkCache i =>
    dsimp only [AuthSessions.step]
    split
    · rename_i username password u found
      have current := sound.read _ (lookup_mem found)
      split
      · split
        · exact sound.drop i
        · exact sound.put current
      · exact sound.put current
    · exact sound
  | storeEntry i rand =>
    dsimp only [AuthSessions.step]
    split
    · rename_i username password u found
      split
      · exact sound.drop i
      · rename_i accepted
        split
        · exact sound.drop i
        · exact sound.storeAuth found (by simpa using accepted) _
    · exact sound

theorem Reaches.sound {s0 s : AuthSessions} (reached : s0.Reaches bcrypt sha256 methods s)
    (sound : s0.Sound bcrypt sha256) : s.Sound bcrypt sha256 := by
  induction reached with
  | refl => exact sound
  | step _ allowed ih => exact ih.step methods allowed

/-- On a sound state, a step that ends an `Authenticate` with a user returns the user the
snapshot holds, with a hash that accepts the password, when matching salted hashes never tell
apart passwords bcrypt tells apart. -/
theorem Sound.returned {s : AuthSessions} (sound : s.Sound bcrypt sha256)
    (hashesAgree : ∀ hash salt p q, hashWithSalt sha256 salt p = hashWithSalt sha256 salt q →
      bcrypt hash p = bcrypt hash q)
    {e : AuthEvent} {username password : String} {u : UserInfo}
    (returned : (s.step bcrypt sha256 methods e).2 = some (username, password, .ok u)) :
    (s.step bcrypt sha256 methods e).1.client.cacheData.user username = some u ∧
      bcrypt u.hash password = true := by
  cases e with
  | call hook op => cases returned
  | findUser i username password =>
    dsimp only [AuthSessions.step] at returned
    split at returned
    · cases returned
    · split at returned <;> cases returned
  | checkCache i =>
    dsimp only [AuthSessions.step] at returned ⊢
    split at returned
    · rename_i name pw v found
      have current := sound.read _ (lookup_mem found)
      split at returned
      · rename_i au entry
        split at returned
        · rename_i hit
          cases returned
          simp only [found, entry, hit, if_true, drop_client]
          obtain ⟨v', stored, -, pw', accepts, cached⟩ := sound.cache _ au entry
          rw [current, Option.some.injEq] at stored
          subst stored
          exact ⟨current, (hashesAgree _ au.salt _ pw' (hit.trans cached)).trans accepts⟩
        · cases returned
      · cases returned
    · cases returned
  | storeEntry i rand =>
    dsimp only [AuthSessions.step] at returned ⊢
    split at returned
    · rename_i name pw v found
      have current := sound.read _ (lookup_mem found)
      split at returned
      · cases returned
      · rename_i accepted
        split at returned
        · cases returned
        · rename_i salt
          cases returned
          simp only [found, accepted, Bool.false_eq_true, if_false]
          exact ⟨current, by simpa using accepted⟩
    · cases returned

end Steps

end AuthSessions

/-- From a client whose cache is sound, along any interleaving of `Authenticate`'s sections with
shard-group and user calls in which no call changes a user that an `Authenticate` in flight has
read, whatever each hook answers, an `Authenticate` that succeeds returns the user as the
snapshot then holds it, with a hash that accepts the password; provided passwords with matching
salted SHA256 are passwords bcrypt does not tell apart. -/
theorem authenticate_sections_sound (bcrypt : String → String → Bool)
    (sha256 : List UInt8 → List UInt8)
    (hashesAgree : ∀ hash salt p q, hashWithSalt sha256 salt p = hashWithSalt sha256 salt q →
      bcrypt hash p = bcrypt hash q)
    (methods : DataMethods) (c : Client) (sound : c.AuthSound bcrypt sha256) {s : AuthSessions}
    (reached : (AuthSessions.start c).Reaches bcrypt sha256 methods s) (e : AuthEvent)
    (username password : String) (u : UserInfo)
    (returned : (s.step bcrypt sha256 methods e).2 = some (username, password, .ok u)) :
    (s.step bcrypt sha256 methods e).1.client.cacheData.user username = some u ∧
      bcrypt u.hash password = true :=
  (reached.sound methods ⟨sound, fun _ mem => nomatch mem⟩).returned methods hashesAgree returned

/-- `alice`, with hash `bcrypt:old`, authenticates twice with `old`, both in flight at once,
around a `CreateUser` of `bob`: the first misses the cache, runs bcrypt and stores an entry,
which the second then hits. bcrypt compares the bytes of `bcrypt:` and the password with those
of the hash, and SHA256 is the identity. -/
theorem authenticate_sections_sound_two_in_flight :
    let bcrypt := fun hash password : String =>
      hash.toUTF8.data.toList == "bcrypt:".toUTF8.data.toList ++ password.toUTF8.data.toList
    let c : Client := ((newClient "meta" false).createUser snapshot "alice" "bcrypt:old" false).2
    let s1 := ((AuthSessions.start c).step bcrypt id .inert (.findUser 1 "alice" "old")).1
    let s2 := (s1.step bcrypt id .inert (.findUser 2 "alice" "old")).1
    let s3 := (s2.step bcrypt id .inert (.call snapshot (.createUser "bob" "bcrypt:b" false))).1
    let s4 := (s3.step bcrypt id .inert (.checkCache 1)).1
    let s5 := (s4.step bcrypt id .inert (.storeEntry 1 (.ok (List.replicate 32 7)))).1
    ((∀ hash salt p q, hashWithSalt id salt p = hashWithSalt id salt q →
        bcrypt hash p = bcrypt hash q) ∧ c.AuthSound bcrypt id ∧
      (AuthSessions.start c).Reaches bcrypt id .inert s5 ∧
      (s5.step bcrypt id .inert (.checkCache 2)).2 =
        some ("alice", "old", .ok ⟨"alice", "bcrypt:old", false⟩)) ∧
    (s5.step bcrypt id .inert (.checkCache 2)).1.client.cacheData.user "alice" =
        some ⟨"alice", "bcrypt:old", false⟩ ∧
      bcrypt "bcrypt:old" "old" = true := by
  intro bcrypt c s1 s2 s3 s4 s5
  have hashesAgree : ∀ hash salt p q, hashWithSalt id salt p = hashWithSalt id salt q →
      bcrypt hash p = bcrypt hash q := by
    intro hash salt p q same
    show (_ == _ ++ p.toUTF8.data.toList) = (_ == _ ++ q.toUTF8.data.toList)
    rw [List.append_cancel_left same]
  have sound : c.AuthSound bcrypt id := fun _ _ entry => nomatch entry
  have reached : (AuthSessions.start c).Reaches bcrypt id .inert s5 :=
    .step (.step (.step (.step (.step .refl rfl) rfl) rfl) rfl) rfl
  have returned : (s5.step bcrypt id .inert (.checkCache 2)).2 =
      some ("alice", "old", .ok ⟨"alice", "bcrypt:old", false⟩) := rfl
  exact ⟨⟨hashesAgree, sound, reached, returned⟩,
    authenticate_sections_sound bcrypt id hashesAgree .inert c sound reached _ _ _ _ returned⟩

/-- The race the theorem excludes: an `UpdateUser` commits while the first `Authenticate` of
`alice` is between its cache check and its store, so the store keeps an entry for the old
password, and a later `Authenticate` with it returns `alice` with the new hash, which rejects
it. -/
example :
    let bcrypt := fun hash password : String => hash == "bcrypt:" ++ password
    let c : Client := ((newClient "meta" false).createUser snapshot "alice" "bcrypt:old" false).2
    ((AuthSessions.start c).run bcrypt id .inert [.findUser 1 "alice" "old", .checkCache 1,
        .call snapshot (.updateUser "alice" "bcrypt:new"), .storeEntry 1 (.ok (List.replicate 32 7)),
        .findUser 2 "alice" "old", .checkCache 2]).2 =
      [("alice", "old", .ok ⟨"alice", "bcrypt:old", false⟩),
        ("alice", "old", .ok ⟨"alice", "bcrypt:new", false⟩)] ∧
    bcrypt "bcrypt:new" "old" = false := by
  constructor <;> rfl

/-! ## What the cache leaves to bcrypt -/

section Cache

variable (bcrypt : String → String → Bool) (sha256 : List UInt8 → List UInt8)

/-- Whatever the cache holds, a password that bcrypt accepts against the user's stored hash
authenticates the user, unless drawing the salt fails. -/
theorem Client.authenticate_accepted {c : Client} {username password : String} {u : UserInfo}
    (found : c.cacheData.user username = some u) (accepted : bcrypt u.hash password = true)
    (salt : List UInt8) :
    (c.authenticate bcrypt sha256 (.ok salt) username password).1 = .ok u := by
  have slow : (c.authenticateSlow bcrypt sha256 (.ok salt) username password u).1 = .ok u := by
    simp [Client.authenticateSlow, accepted]
  simp only [Client.authenticate, Client.user, found]
  split
  · split
    · rfl
    · exact slow
  · exact slow

end Cache

/-- `alice` authenticated with `old` when her hash was `bcrypt:old`, which cached an entry;
`SetData` then gave her the hash `bcrypt:new`, keeping the entry. `Authenticate` with `new`
misses the entry and is accepted by bcrypt. -/
theorem Client.authenticate_accepted_stale_entry :
    let bcrypt := fun hash password : String => hash == "bcrypt:" ++ password
    let c1 : Client := ((newClient "meta" false).createUser snapshot "alice" "bcrypt:old" false).2
    let c2 := (c1.authenticate bcrypt id (.ok (List.replicate 32 7)) "alice" "old").2
    let c : Client :=
      (c2.setData snapshot { c2.cacheData with users := [⟨"alice", "bcrypt:new", false⟩] }).2
    (c.cacheData.user "alice" = some ⟨"alice", "bcrypt:new", false⟩ ∧
      bcrypt "bcrypt:new" "new" = true ∧
      ∃ au, c.authCache "alice" = some au ∧ hashWithSalt id au.salt "new" ≠ au.hash) ∧
      (c.authenticate bcrypt id (.ok (List.replicate 32 9)) "alice" "new").1 =
        .ok ⟨"alice", "bcrypt:new", false⟩ := by
  intro bcrypt c1 c2 c
  have found : c.cacheData.user "alice" = some ⟨"alice", "bcrypt:new", false⟩ := rfl
  have accepted : bcrypt "bcrypt:new" "new" = true := rfl
  exact ⟨⟨found, accepted, _, rfl, by decide⟩,
    Client.authenticate_accepted bcrypt id found accepted (List.replicate 32 9)⟩

end Chronus.Meta
