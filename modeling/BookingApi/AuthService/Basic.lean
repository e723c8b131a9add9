import BookingApi.Core.Security
import BookingApi.World.Handler

/-!
# Logging in

`authenticate_user` and `create_token` of `app/services/auth_service.py` with the route
`POST /auth/login`.
-/

namespace BookingApi.AuthService

open Async

def authenticateUser (security : Security) (email password : String) : App User := do
  match ← execute fun db => db.users.rows.find? fun u => u.email = email with
  | none => .raise (.unauthorizedError "Invalid email or password")
  | some user =>
    if ¬ security.verify password user.hashedPassword then
      .raise (.unauthorizedError "Invalid email or password")
    else if ¬ user.isActive then .raise (.unauthorizedError "User is inactive")
    else return user

/-- `user.role.value`. -/
def roleValue : UserRole → String
  | .user => "user"
  | .admin => "admin"

def tokenData (user : User) : Claims :=
  [("sub", toString user.id), ("email", user.email), ("role", roleValue user.role)]

def createToken (security : Security) (settings : Settings) (now : Instant) (user : User) :
    String :=
  security.createAccessToken settings now (tokenData user)

/-- The route `POST /auth/login`: an exception other than an `UnauthorizedError` becomes one. -/
def login (security : Security) (settings : Settings) (now : Instant) (email password : String) :
    App String :=
  Program.tryCatch
    (do
      let user ← authenticateUser security email password
      return createToken security settings now user)
    fun
      | .unauthorizedError detail => .raise (.unauthorizedError detail)
      | _ => .raise (.unauthorizedError "Invalid email or password")

theorem uses_login {P : ∀ β : Type, Op β → Prop} (hP : AllowsQueries P) (security : Security)
    (settings : Settings) (now : Instant) (email password : String) :
    (login security settings now email password).Uses P := by
  refine .tryCatch (.bind (.bind (uses_execute hP _) fun row => ?_) fun _ => trivial)
    fun e => by split <;> trivial
  cases row with
  | none => trivial
  | some user =>
    show Program.Uses _ (if _ then _ else if _ then _ else _)
    split_ifs <;> trivial

/-! ### A login alone -/

variable {security : Security} {settings : Settings} {now : Instant} {email password token : String}
  {r : RequestId} {w : World}

/-- **A login** returns a token exactly for an active user with the email and the password. -/
theorem run_login_eq_ok_iff (hidle : w.writesOf r = []) :
    ((login security settings now email password).run (World.exec r) w).1 = .ok token ↔
      ∃ user, (w.db.users.rows.find? fun u => u.email = email) = some user ∧
        security.verify password user.hashedPassword = true ∧ user.isActive ∧
        token = createToken security settings now user := by
  rw [login, Program.run_tryCatch, authenticateUser]
  simp only [Program.bind_eq, Program.run_bind, run_execute, World.view_of_writesOf_nil hidle]
  cases w.db.users.rows.find? fun u => u.email = email with
  | none => simp
  | some user =>
    by_cases hverify : security.verify password user.hashedPassword = true
    · by_cases hactive : user.isActive = true
      · simp only [hverify, hactive, not_true, if_false, Program.run_ret, Program.pure_eq,
          Except.ok.injEq, Option.some.injEq]
        exact ⟨fun h => ⟨user, rfl, hverify, hactive, h.symm⟩,
          fun ⟨user', huser, _, _, h⟩ => huser ▸ h.symm⟩
      · simp [hverify, hactive]
    · simp [hverify]

end BookingApi.AuthService
