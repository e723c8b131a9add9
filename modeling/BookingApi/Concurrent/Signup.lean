import BookingApi.Async.Interleaving
import BookingApi.UserService.Basic

/-!
# The control points of `POST /auth/signup`

A signup, cut at its awaits, and the theorem that these are the awaits of the program
`getDb (signup ...)`.
-/

namespace BookingApi

open Async UserService

/-- The inputs of `POST /auth/signup`. -/
structure SignupArgs where
  hashPassword : String → String
  email : String
  password : String

def SignupArgs.program (args : SignupArgs) : App User :=
  signup args.hashPassword args.email args.password

/-- What the route raises for an exception of the service. -/
def signupError : Exc → Exc
  | .valueError message => .unauthorizedError message
  | e => e

/-- The exception for an email that a user has already. -/
def emailRegistered : Exc := .unauthorizedError "Email already registered"

/-- Where a signup stands. -/
inductive SignupPc
  | select
  /-- Before the `INSERT`: no user was found with the email. -/
  | flush
  | refresh (userId : ℤ)
  | commit (user : User)
  | rollback (e : Exc)
  | done (result : Except Exc User)
deriving DecidableEq

/-- A signup at a control point. -/
structure Signup where
  args : SignupArgs
  pc : SignupPc

namespace Signup

/-- What a signup awaits, and where it goes with the outcome. -/
def next : Signup → Await Op Exc User Signup
  | ⟨args, .select⟩ =>
    .call (.execute fun db => db.users.rows.find? fun u => u.email = args.email) fun
    | .error e => ⟨args, .rollback (signupError e)⟩
    | .ok (some _) => ⟨args, .rollback emailRegistered⟩
    | .ok none => ⟨args, .flush⟩
  | ⟨args, .flush⟩ =>
    .call (.flush (insertUser args.email (args.hashPassword args.password) .user)) fun
    | .error e => ⟨args, .rollback (signupError e)⟩
    | .ok userId => ⟨args, .refresh userId⟩
  | ⟨args, .refresh userId⟩ => .call (.execute fun db => db.users.find? userId) fun
    | .error e => ⟨args, .rollback (signupError e)⟩
    | .ok none => ⟨args, .rollback .noResultFound⟩
    | .ok (some user) => ⟨args, .commit user⟩
  | ⟨args, .commit user⟩ => .call .commit fun
    | .error e => ⟨args, .rollback e⟩
    | .ok _ => ⟨args, .done (.ok user)⟩
  | ⟨args, .rollback e⟩ => .call .rollback fun
    | .error e' => ⟨args, .done (.error e')⟩
    | .ok _ => ⟨args, .done (.error e)⟩
  | ⟨_, .done result⟩ => .ended result

/-! ### The machine is the program -/

variable {args : SignupArgs}

theorem presents_rollback (e : Exc) :
    Presents next (do Program.perform .rollback; Program.raise e : App User)
      ⟨args, .rollback e⟩ := by
  refine .call rfl ?_
  rintro (e' | _)
  · exact .raise rfl
  · exact .raise rfl

/-- **The control points of `POST /auth/signup`** make up the program inside `get_db`. -/
theorem presents (args : SignupArgs) : Presents next (getDb args.program) ⟨args, .select⟩ := by
  refine .call rfl ?_
  rintro (e | _ | user)
  · cases e <;> exact presents_rollback _
  · refine .call rfl ?_
    rintro (e | userId)
    · cases e <;> exact presents_rollback _
    refine .call rfl ?_
    rintro (e | _ | user)
    · cases e <;> exact presents_rollback _
    · exact presents_rollback _
    refine .call rfl ?_
    rintro (e | _)
    · exact presents_rollback e
    · exact .ret rfl
  · exact presents_rollback _

end Signup

end BookingApi
