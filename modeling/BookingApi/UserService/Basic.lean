import BookingApi.HallService.Basic
import BookingApi.Schemas.Common

/-!
# Users

`register_user` of `app/services/auth_service.py` with the route `POST /auth/signup`, and
`app/services/user_service.py` with the routes of `app/routers/users.py`.  The password
hash of a signup is a function of the password that carries the salt drawn for the request.
-/

namespace BookingApi.UserService

open Async

/-- A valid `UserUpdate` body. -/
structure UserUpdate where
  email : PatchField String
  isActive : PatchField Bool
  role : PatchField UserRole
deriving DecidableEq

structure UserResponse where
  id : ℤ
  email : String
  role : UserRole
  isActive : Bool
  createdAt : Instant
deriving DecidableEq

/-- `UserResponse.model_validate(user)`. -/
def UserResponse.ofUser (user : User) : UserResponse :=
  ⟨user.id, user.email, user.role, user.isActive, user.createdAt⟩

def getUserById (userId : ℤ) : App (Option User) := execute fun db => db.users.find? userId

def listUsers (page pageSize : ℤ) : App (List User × ℤ) := do
  let total ← execute fun db => db.users.rows.length
  let offset := (page - 1) * pageSize
  let result ← execute fun db =>
    limitOffset offset pageSize (db.users.rows.mergeSort fun u u' => u.id ≤ u'.id)
  let users ← .ofExcept result
  return (users, total)

/-- The route `GET /users`. -/
def listUsersRoute (pagination : PaginationParams) : App (PaginatedResponse UserResponse) := do
  let (users, total) ← listUsers pagination.page pagination.pageSize
  return .create (users.map .ofUser) total pagination.page pagination.pageSize

/-- The route `GET /users/:id`. -/
def getUserRoute (userId : ℤ) : App UserResponse := do
  match ← getUserById userId with
  | none => .raise .userNotFound
  | some user => return .ofUser user

/-- The `INSERT` of a `User` object. -/
def insertUser (email hashedPassword : String) (role : UserRole) : Statement ℤ :=
  fun now seqs db =>
    let seqs' := { seqs with users := seqs.users + 1 }
    if db.users.rows.any fun u => u.email = email then (.error .integrityError, seqs')
    else
      (.ok (seqs.users, [.insertUser ⟨seqs.users, email, hashedPassword, role, true, now⟩]), seqs')

/-- `db.refresh(user)`. -/
def refreshUser (userId : ℤ) : App User := do
  match ← execute fun db => db.users.find? userId with
  | none => .raise .noResultFound
  | some user => return user

def registerUser (hashPassword : String → String) (email password : String) (role : UserRole) :
    App User := do
  match ← execute fun db => db.users.rows.find? fun u => u.email = email with
  | some _ => .raise (.valueError "Email already registered")
  | none =>
    let userId ← flush (insertUser email (hashPassword password) role)
    refreshUser userId

/-- The route `POST /auth/signup`, which turns a `ValueError` into an `UnauthorizedError`. -/
def signup (hashPassword : String → String) (email password : String) : App User :=
  (registerUser hashPassword email password .user).tryCatch fun
    | .valueError message => .raise (.unauthorizedError message)
    | e => .raise e

/-- The columns that the body sets on a loaded user. -/
def userPatch (user : User) (data : UserUpdate) : Except Exc UserPatch := do
  let email ← data.email.column user.email
  let isActive ← data.isActive.column user.isActive
  let role ← data.role.column user.role
  return ⟨email, role, isActive⟩

/-- Another user has the email that an `UPDATE` sets. -/
def emailTaken (db : Db) (userId : ℤ) (patch : UserPatch) : Bool :=
  db.users.rows.any fun u => u.id ≠ userId ∧ patch.email = some u.email

/-- The `UPDATE` of a user: nothing is sent if no column changes. -/
def updateUserRow (userId : ℤ) (patch : UserPatch) : List Write :=
  if patch = ⟨none, none, none⟩ then [] else [.updateUser userId patch]

/-- The flush of a loaded user with the fields of the body. -/
def updateLoadedUser (userId : ℤ) (data : UserUpdate) (user : User) : Statement Unit :=
  fun _ seqs db =>
    (match userPatch user data with
      | .error e => .error e
      | .ok patch =>
        -- only the constraint knows the emails of the others
        if emailTaken db userId patch then .error .integrityError
        else .ok ((), updateUserRow userId patch), seqs)

def updateUser (userId : ℤ) (data : UserUpdate) : App User := do
  match ← execute fun db => db.users.find? userId with
  | none => .raise .userNotFound
  | some user =>
    flush (updateLoadedUser userId data user)
    refreshUser userId

/-! ### The statements -/

/-- A hash and a role of a new user are those of the statement. -/
theorem mem_insertUser {email hashedPassword : String} {role : UserRole} {now : Instant}
    {seqs : Sequences} {db : Db} {b : ℤ} {ws : List Write}
    (h : (insertUser email hashedPassword role now seqs db).1 = .ok (b, ws)) {x : Write}
    (hx : x ∈ ws) : ∃ u, x = .insertUser u ∧ u.role = role ∧ u.hashedPassword = hashedPassword := by
  rw [insertUser] at h
  split_ifs at h
  obtain ⟨-, rfl⟩ := Prod.mk.inj (Except.ok.inj h)
  exact ⟨_, List.mem_singleton.mp hx, rfl, rfl⟩

theorem mem_updateUserRow {userId : ℤ} {patch : UserPatch} {x : Write}
    (hx : x ∈ updateUserRow userId patch) : ∃ id p, x = .updateUser id p := by
  rw [updateUserRow] at hx
  split_ifs at hx
  · exact absurd hx List.not_mem_nil
  · exact ⟨_, _, List.mem_singleton.mp hx⟩

theorem mem_updateLoadedUser {userId : ℤ} {data : UserUpdate} {user : User} {now : Instant}
    {seqs : Sequences} {db : Db} {b : Unit} {ws : List Write}
    (h : (updateLoadedUser userId data user now seqs db).1 = .ok (b, ws)) {x : Write}
    (hx : x ∈ ws) : ∃ id p, x = .updateUser id p := by
  rw [updateLoadedUser] at h
  cases hpatch : userPatch user data with
  | error e => simp [hpatch] at h
  | ok patch =>
    simp only [hpatch] at h
    split_ifs at h
    obtain ⟨-, rfl⟩ := Prod.mk.inj (Except.ok.inj h)
    exact mem_updateUserRow hx

theorem concerns_insertUser (email hashedPassword : String) (role : UserRole) :
    Concerns [.users] (insertUser email hashedPassword role) := by
  refine ⟨fun now seqs db table htable => ?_, fun now seqs db b ws h x hx => ?_⟩
  · rw [insertUser]
    split_ifs <;> cases table <;> first | rfl | exact absurd (List.mem_singleton_self _) htable
  · obtain ⟨u, rfl, -⟩ := mem_insertUser h hx
    exact List.mem_singleton_self _

theorem concerns_updateLoadedUser (userId : ℤ) (data : UserUpdate) (user : User) :
    Concerns [.users] (updateLoadedUser userId data user) := by
  refine ⟨fun _ _ _ _ _ => rfl, fun now seqs db b ws h x hx => ?_⟩
  obtain ⟨id, p, rfl⟩ := mem_updateLoadedUser h hx
  exact List.mem_singleton_self _

/-! ### The operations of the routes -/

section

variable {P : ∀ β : Type, Op β → Prop} (hP : AllowsQueries P)
include hP

theorem uses_refreshUser (userId : ℤ) : (refreshUser userId).Uses P :=
  .bind (uses_execute hP _) fun row => by cases row <;> trivial

theorem uses_registerUser {hashPassword : String → String} {email password : String}
    {role : UserRole} (hinsert : P _ (.flush (insertUser email (hashPassword password) role))) :
    (registerUser hashPassword email password role).Uses P := by
  refine .bind (uses_execute hP _) fun row => ?_
  cases row with
  | some _ => trivial
  | none => exact .bind (uses_flush hinsert) (uses_refreshUser hP)

theorem uses_signup {hashPassword : String → String} {email password : String}
    (hinsert : P _ (.flush (insertUser email (hashPassword password) .user))) :
    (signup hashPassword email password).Uses P :=
  .tryCatch (uses_registerUser hP hinsert) fun e => by split <;> trivial

theorem uses_listUsersRoute (pagination : PaginationParams) :
    (listUsersRoute pagination).Uses P :=
  .bind (.bind (uses_execute hP _) fun _ => .bind (uses_execute hP _) fun _ =>
    .bind (Program.uses_ofExcept _) fun _ => trivial) fun _ => trivial

theorem uses_getUserRoute (userId : ℤ) : (getUserRoute userId).Uses P :=
  .bind (uses_execute hP _) fun row => by cases row <;> trivial

theorem uses_updateUser {userId : ℤ} {data : UserUpdate}
    (hupdate : ∀ user, P _ (.flush (updateLoadedUser userId data user))) :
    (updateUser userId data).Uses P := by
  refine .bind (uses_execute hP _) fun row => ?_
  cases row with
  | none => trivial
  | some user => exact .bind (uses_flush (hupdate user)) fun _ => uses_refreshUser hP userId

end

end BookingApi.UserService
