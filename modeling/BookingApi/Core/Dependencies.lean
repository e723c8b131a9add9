import BookingApi.Core.Security
import BookingApi.Session.Basic
import BookingApi.Text.Python

/-!
# The authenticated user

`app/core/dependencies.py`: the token of the `Authorization` header, the user that it names with the
objects that are loaded with the user, and the test for an administrator.  A request is handled at
one instant of the clock, which the handlers take as `now`.
-/

namespace BookingApi

open Async

def getTokenFromHeader (authorization : Option String) : Except Exc String :=
  match authorization with
  | none => .error (.unauthorizedError "Missing authorization header")
  | some header =>
    if header = "" then .error (.unauthorizedError "Missing authorization header")
    else if ¬ "Bearer ".toList.isPrefixOf header.toList then
      .error (.unauthorizedError "Invalid authorization header format")
    else
      -- `replace` removes every occurrence, not only the first
      let token := Python.removeAll "Bearer " header
      if token = "" then .error (.unauthorizedError "Missing token") else .ok token

/-- The claim `sub` of a token, and `int(user_id)`. -/
def subjectOf (payload : Claims) : Except Exc ℤ :=
  match payload.get "sub" with
  | none => .error (.unauthorizedError "Invalid token payload")
  | some userId =>
    match Python.parseInt userId with
    | none => .error (.valueError s!"invalid literal for int() with base 10: '{userId}'")
    | some id => .ok id

variable (security : Security) (now : Instant) (authorization : Option String)

/-- The id that the token of the header names. -/
def authenticatedId : Except Exc ℤ := do
  let token ← getTokenFromHeader authorization
  match security.decodeAccessToken now token with
  | .error _ => throw (.unauthorizedError "Invalid or expired token")
  | .ok payload => subjectOf payload

/-- The row of `select(User).where(User.id == int(user_id))`, and the objects that are loaded. -/
def selectCurrentUser (userId : ℤ) (db : Db) : Option (User × Session) :=
  (db.users.find? userId).map fun user => (user, .load userId db)

theorem selectCurrentUser_eq_some {userId : ℤ} {db : Db} {user : User} {session : Session}
    (h : selectCurrentUser userId db = some (user, session)) :
    db.users.find? userId = some user ∧ session = .load userId db := by
  obtain ⟨user', hfind, heq⟩ := Option.map_eq_some_iff.mp h
  cases heq
  exact ⟨hfind, rfl⟩

/-- `get_current_user`, with the session that it leaves to the route. -/
def loadCurrentUser : App (User × Session) := do
  let userId ← .ofExcept (authenticatedId security now authorization)
  match ← execute (selectCurrentUser userId) with
  | none => .raise (.unauthorizedError "User not found")
  | some (user, session) =>
    if ¬ user.isActive then .raise (.unauthorizedError "User is inactive")
    else return (user, session)

def getCurrentUser : App User := do
  let (user, _) ← loadCurrentUser security now authorization
  return user

def getCurrentAdmin : App User := do
  let currentUser ← getCurrentUser security now authorization
  if currentUser.role ≠ .admin then .raise (.httpException 403 "Admin access required")
  else return currentUser

section

variable {P : ∀ β : Type, Op β → Prop} (hP : AllowsQueries P)
include hP

theorem uses_loadCurrentUser : (loadCurrentUser security now authorization).Uses P := by
  refine .bind (Program.uses_ofExcept _) fun userId => .bind (uses_execute hP _) fun row => ?_
  rcases row with _ | ⟨user, session⟩
  · trivial
  · show Program.Uses _ (if _ then _ else _)
    split_ifs <;> trivial

theorem uses_getCurrentAdmin : (getCurrentAdmin security now authorization).Uses P := by
  refine .bind (.bind (uses_loadCurrentUser security now authorization hP) fun _ => trivial)
    fun user => ?_
  show Program.Uses _ (if _ then _ else _)
  split_ifs <;> trivial

end

/-! ### Headers and tokens -/

/-- The token of a header with one. -/
theorem getTokenFromHeader_bearer {token : String} (hspace : ' ' ∉ token.toList) :
    getTokenFromHeader (some ("Bearer " ++ token))
      = if token = "" then .error (.unauthorizedError "Missing token") else .ok token := by
  have hne : "Bearer " ++ token ≠ "" := by
    intro h
    have hlist := congrArg String.toList h
    simp at hlist
  have hprefix : "Bearer ".toList.isPrefixOf ("Bearer " ++ token).toList := by
    rw [String.toList_append]
    exact List.isPrefixOf_iff_prefix.mpr (List.prefix_append _ _)
  rw [getTokenFromHeader]
  simp only [if_neg hne, hprefix, not_true, if_false,
    Python.removeAll_append (show ' ' ∈ "Bearer ".toList by decide) hspace]

variable {security now authorization} {token : String}

theorem authenticatedId_bearer {userId : ℤ} (hspace : ' ' ∉ token.toList) :
    authenticatedId security now (some ("Bearer " ++ token)) = .ok userId ↔
      token ≠ "" ∧ ∃ claims, security.decode now token = .ok claims ∧
        subjectOf claims = .ok userId := by
  rw [authenticatedId, getTokenFromHeader_bearer hspace]
  by_cases hempty : token = ""
  · simp [hempty, bind, Except.bind]
  simp only [if_neg hempty, bind, Except.bind]
  cases hdecode : security.decodeAccessToken now token with
  | error e =>
    refine ⟨fun h => absurd h (by simp [throw, throwThe, MonadExceptOf.throw]), ?_⟩
    rintro ⟨-, claims, hclaims, -⟩
    rw [Security.decodeAccessToken_eq_ok_iff.mpr hclaims] at hdecode
    cases hdecode
  | ok claims =>
    rw [Security.decodeAccessToken_eq_ok_iff] at hdecode
    exact ⟨fun h => ⟨hempty, claims, hdecode, h⟩, fun ⟨_, claims', hclaims', h⟩ => by
      rw [hdecode] at hclaims'
      exact Except.ok.inj hclaims' ▸ h⟩

/-! ### The dependencies alone -/

variable {r : RequestId} {w : World} {user : User}

/-- **The authenticated user** is the active user that the token names. -/
theorem run_getCurrentUser (hidle : w.writesOf r = []) :
    (getCurrentUser security now authorization).run (World.exec r) w
      = (match authenticatedId security now authorization with
        | .error e => .error e
        | .ok userId => match w.db.users.find? userId with
          | none => .error (.unauthorizedError "User not found")
          | some user =>
            if user.isActive then .ok user else .error (.unauthorizedError "User is inactive"),
        w) := by
  rw [getCurrentUser, loadCurrentUser, Program.bind_eq, Program.run_bind, Program.bind_eq,
    Program.run_bind]
  cases authenticatedId security now authorization with
  | error e => rfl
  | ok userId =>
    simp only [Program.ofExcept_ok, Program.run_ret, Program.bind_eq, Program.run_bind, run_execute,
      World.view_of_writesOf_nil hidle, selectCurrentUser]
    cases w.db.users.find? userId with
    | none => rfl
    | some user => cases h : user.isActive <;> simp [h]

/-- The session is the one of the tables. -/
theorem run_loadCurrentUser (hidle : w.writesOf r = []) :
    (loadCurrentUser security now authorization).run (World.exec r) w
      = (((getCurrentUser security now authorization).run (World.exec r) w).1.map fun user =>
          (user, .load user.id w.db), w) := by
  rw [run_getCurrentUser hidle, loadCurrentUser, Program.bind_eq, Program.run_bind]
  cases authenticatedId security now authorization with
  | error e => rfl
  | ok userId =>
    simp only [Program.ofExcept_ok, Program.run_ret, Program.bind_eq, Program.run_bind, run_execute,
      World.view_of_writesOf_nil hidle, selectCurrentUser]
    cases hfind : w.db.users.find? userId with
    | none => rfl
    | some user =>
      obtain rfl : user.id = userId := (Table.find?_eq_some_iff.mp hfind).2
      cases h : user.isActive <;> simp [h, Except.map]

theorem run_getCurrentAdmin :
    (getCurrentAdmin security now authorization).run (World.exec r) w
      = match (getCurrentUser security now authorization).run (World.exec r) w with
        | (.error e, w') => (.error e, w')
        | (.ok user, w') =>
          if user.role = .admin then (.ok user, w')
          else (.error (.httpException 403 "Admin access required"), w') := by
  rw [getCurrentAdmin, Program.bind_eq, Program.run_bind]
  rcases (getCurrentUser security now authorization).run (World.exec r) w with ⟨e | user, w'⟩
  · rfl
  · by_cases h : user.role = .admin <;> simp [h]

theorem run_getCurrentUser_eq_ok_iff (hidle : w.writesOf r = []) :
    ((getCurrentUser security now authorization).run (World.exec r) w).1 = .ok user ↔
      user ∈ w.db.users.rows ∧ user.isActive ∧
        authenticatedId security now authorization = .ok user.id := by
  rw [run_getCurrentUser hidle]
  cases hid : authenticatedId security now authorization with
  | error e => simp
  | ok userId =>
    have hfind : user ∈ w.db.users.rows ∧ Except.ok userId = (.ok user.id : Except Exc ℤ) ↔
        w.db.users.find? userId = some user := by
      rw [Table.find?_eq_some_iff, Except.ok.injEq, key_user, eq_comm]
    rw [and_left_comm, hfind]
    show (match w.db.users.find? userId with
      | none => Except.error (Exc.unauthorizedError "User not found")
      | some user =>
        if user.isActive then Except.ok user
        else Except.error (Exc.unauthorizedError "User is inactive")) = .ok user ↔ _
    cases w.db.users.find? userId with
    | none => simp
    | some user' =>
      simp only [Option.some.injEq]
      split_ifs with hactive
      · rw [Except.ok.injEq]
        exact ⟨fun h => ⟨h ▸ hactive, h⟩, And.right⟩
      · exact ⟨fun h => absurd h (by simp), fun ⟨h, he⟩ => absurd (he ▸ h) hactive⟩

theorem run_getCurrentAdmin_eq_ok_iff :
    ((getCurrentAdmin security now authorization).run (World.exec r) w).1 = .ok user ↔
      ((getCurrentUser security now authorization).run (World.exec r) w).1 = .ok user ∧
        user.role = .admin := by
  rw [run_getCurrentAdmin]
  rcases (getCurrentUser security now authorization).run (World.exec r) w with ⟨e | user', w'⟩
  · simp
  · by_cases h : user'.role = .admin
    · simp only [if_pos h, Except.ok.injEq]
      exact ⟨fun he => ⟨he, he ▸ h⟩, fun he => he.1⟩
    · simp only [if_neg h, reduceCtorEq, Except.ok.injEq, false_iff, not_and]
      exact fun he => he ▸ h

end BookingApi
