import Chronus.Meta.Propagation

/-!
# Users and authentication

`CreateUser` guards its idempotent branch with `err != nil && u != nil` on the pair
`Client.user` returns. `Client.user` sets exactly one of the two (`Client.user_exclusive`), so
the branch is dead and a repeated create falls through to `Data.CreateUser`, which rejects
the duplicate (`Client.createUser_existing`).

`Authenticate` reads the user, then the cache, under two read locks, and stores a fresh cache
entry under the write lock after bcrypt accepts. bcrypt's `CompareHashAndPassword` and
SHA256 are parameters. A cache hit compares only `SHA256(salt || password)` with the entry:
the entry's `bhash` is stored but never compared with the user's current hash, and `SetData`
and `ReplaceData` replace the users without clearing the cache. So a password the stored
hash no longer accepts can still authenticate (`authenticate_after_setData`).
-/

namespace Chronus.Meta

/-! ## `CreateUser` -/

/-- `Client.user` returns a user or an error, never both. -/
theorem Client.user_exclusive (c : Client) (name : String) :
    ¬ ((c.user name).1.isSome ∧ (c.user name).2.isSome) := by
  unfold Client.user; split <;> simp

/-- A name that exists makes `CreateUser` fail with `ErrUserExists` and leave the client as it
was, whatever hash and admin flag it is given. -/
theorem Client.createUser_existing (hook : Hook) {c : Client} {name : String} {u : UserInfo}
    (found : c.cacheData.user name = some u) (hashedPassword : String) (admin : Bool) :
    c.createUser hook name hashedPassword admin = (.error .userExists, c) := by
  simp [Client.createUser, Client.user, found, Data.createUser, Client.orReturn]

/-- Creating the same user twice with the same hash and admin flag: the second call fails
with `ErrUserExists`. -/
theorem createUser_repeated_rejected :
    let first : Except MetaError (Option UserInfo) × Client :=
      (newClient "meta" false).createUser snapshot "admin" "$2a$10$h" true
    first.1 = .ok (some ⟨"admin", "$2a$10$h", true⟩) ∧
    (first.2.createUser snapshot "admin" "$2a$10$h" true).1 = .error .userExists :=
  ⟨rfl, rfl⟩

/-! ## `Authenticate` -/

section Authenticate

variable (bcrypt : String → String → Bool) (sha256 : List UInt8 → List UInt8)

/-- `Client.hashWithSalt`: `SHA256(salt || password)`, over the UTF-8 bytes of the password. -/
def hashWithSalt (salt : List UInt8) (password : String) : List UInt8 :=
  sha256 (salt ++ password.toUTF8.data.toList)

/-- `c.authCache[username] = ...`, the store of `Authenticate`'s third locked section. -/
def Client.storeAuth (c : Client) (username : String) (au : AuthUser) : Client :=
  { c with authCache := fun n => if n = username then some au else c.authCache n }

/-- The bcrypt path of `Authenticate`: check the stored hash of the user read in the first
section, then draw a salt (`rand`, the outcome of reading `crypto/rand`) and store the salted
SHA256 of the password with the hash it was checked against. -/
def Client.authenticateSlow (rand : Except MetaError (List UInt8)) (username password : String)
    (userInfo : UserInfo) (c : Client) : Except MetaError UserInfo × Client :=
  if !bcrypt userInfo.hash password then (.error .authenticate, c) else
  match rand with
  | .error e => (.error e, c)
  | .ok salt =>
    (.ok userInfo,
      c.storeAuth username ⟨userInfo.hash, salt, hashWithSalt sha256 salt password⟩)

/-- `Client.Authenticate`, its three locked sections run back to back: find the user, check
the cache, and on a miss or a mismatch take the bcrypt path. `AuthSessions.step` runs each
section as its own step, between which other calls interleave. -/
def Client.authenticate (rand : Except MetaError (List UInt8)) (username password : String)
    (c : Client) : Except MetaError UserInfo × Client :=
  match c.user username with
  | (_, some e) => (.error e, c)
  | (none, none) => (.error .userNotFound, c)
  | (some userInfo, none) =>
    match c.authCache username with
    | some au =>
      if hashWithSalt sha256 au.salt password = au.hash then (.ok userInfo, c)
      else c.authenticateSlow bcrypt sha256 rand username password userInfo
    | none => c.authenticateSlow bcrypt sha256 rand username password userInfo

/-- A password accepted once stays accepted through the cache, whatever the user's hash has
become since: `Authenticate` with a cached entry for `password` returns the user it reads. -/
theorem Client.authenticate_cached {rand : Except MetaError (List UInt8)} {c : Client}
    {username password : String} {u : UserInfo} {au : AuthUser}
    (found : c.cacheData.user username = some u) (cached : c.authCache username = some au)
    (hit : hashWithSalt sha256 au.salt password = au.hash) :
    c.authenticate bcrypt sha256 rand username password = (.ok u, c) := by
  simp [Client.authenticate, Client.user, found, cached, hit]

end Authenticate

/-- `SetData` keeps the authentication cache, whatever users the new snapshot holds. -/
theorem Client.setData_authCache (hook : Hook) (data : Data) (c : Client) :
    (c.setData hook data).2.authCache = c.authCache := by
  unfold Client.setData
  rcases Client.commit_cases hook data.clone { c with cacheData := { c.cacheData with index := 0 } }
    with ⟨e, failed⟩ | committed
  · rw [failed]
  · rw [committed]

/-- `ReplaceData` keeps the authentication cache too. -/
theorem Client.replaceData_authCache (hook : Hook) (data : Data) (c : Client) :
    (c.replaceData hook data).2.authCache = c.authCache := by
  unfold Client.replaceData; split <;> rfl

/-- A user created with hash `bcrypt:old` authenticates with `old`, which caches it. `SetData`
then installs the user with hash `bcrypt:new`, which rejects `old`; yet `Authenticate` with
`old` still returns the user, through the cache. SHA256 is the identity here, which is
injective, and the salts have the 32 bytes `saltedHash` draws. -/
theorem authenticate_after_setData :
    let c1 : Client := ((newClient "meta" false).createUser snapshot "alice" "bcrypt:old" false).2
    let bcrypt := fun hash password : String => hash == "bcrypt:" ++ password
    let c2 := (c1.authenticate bcrypt id (.ok (List.replicate 32 7)) "alice" "old").2
    let c3 := (c2.setData snapshot
      { c2.cacheData with users := [⟨"alice", "bcrypt:new", false⟩] }).2
    (c3.authenticate bcrypt id (.ok (List.replicate 32 9)) "alice" "old").1 =
      .ok ⟨"alice", "bcrypt:new", false⟩ ∧
    bcrypt "bcrypt:new" "old" = false := by
  constructor
  · simp [Client.authenticate, Client.authenticateSlow, Client.createUser, Client.setData,
      Client.commit, Client.commitThen, Client.orReturn, Client.user, Client.storeAuth, newClient,
      snapshot, Data.createUser, Data.user, Data.bump, goResult]
  · rfl

end Chronus.Meta
