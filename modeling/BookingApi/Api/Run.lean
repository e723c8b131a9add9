import BookingApi.Api.Effects
import BookingApi.Core.Transparent
import BookingApi.Serial.Basic

/-!
# Serial runs of the API

What every move keeps: no transaction stays open, and the clock does not go back.  A state that a
run passed through is the end of one of its earlier parts, which are the suffixes of its moves.
-/

namespace BookingApi.Api

open Async Concurrent

variable {security : Security} {settings : Settings} {start : World} {moves : List Move}

theorem run_serve (request : Request) (moves : List Move) :
    run security settings start (.serve request :: moves)
      = (serve moves.length
          (request.handler security settings (run security settings start moves).now)
          (run security settings start moves)).2 := rfl

theorem now_tick (micros : ℕ) (moves : List Move) :
    (run security settings start (.env (.tick micros) :: moves)).now
      = (run security settings start moves).now + micros := rfl

/-! ### Transactions -/

/-- The session of the script is closed at its end. -/
theorem pending_createAdmin {r : RequestId} {w : World} (hw : w.pending = [])
    (hashPassword : String → String) (email password : String) :
    ((createAdmin hashPassword email password).run (World.exec r) w).2.pending = [] := by
  have hidle : OthersIdle r w := by simp [OthersIdle, hw]
  rw [createAdmin, Program.run_tryFinally]
  exact (hidle.run _).pending_close

/-- No transaction is open between two moves. -/
theorem pending_run (hstart : start.pending = []) (moves : List Move) :
    (run security settings start moves).pending = [] := by
  induction moves with
  | nil => exact hstart
  | cons move moves ih =>
    cases move with
    | serve request => exact Serial.pending_serve _ ih
    | createAdmin salt email password => exact pending_createAdmin ih ..
    | env e => cases e <;> exact ih

theorem writesOf_run (security : Security) (settings : Settings) (hstart : start.pending = [])
    (moves : List Move) (r : RequestId) :
    (run security settings start moves).writesOf r = [] := by
  rw [World.writesOf, pending_run hstart]
  rfl

/-! ### The clock -/

theorem now_le_cons (move : Move) (moves : List Move) :
    (run security settings start moves).now
      ≤ (run security settings start (move :: moves)).now := by
  cases move with
  | serve request => exact (World.now_serve _ _ _).ge
  | createAdmin salt email password => exact (World.now_run _ _ _).ge
  | env e =>
    cases e with
    | expire key => exact le_rfl
    | tick micros => exact Int.le_add_of_nonneg_right (Int.natCast_nonneg micros)

/-- The clock does not go back. -/
theorem now_le_of_suffix {earlier : List Move} (h : earlier <:+ moves) :
    (run security settings start earlier).now ≤ (run security settings start moves).now := by
  obtain ⟨later, rfl⟩ := h
  induction later with
  | nil => exact le_rfl
  | cons move later ih => exact ih.trans (now_le_cons move _)

/-! ### Authenticated routes -/

section

variable {α : Type} {r : RequestId} {w : World}

/-- A route for a user: it is refused, or it is run for the authenticated user. -/
theorem run_asUser (security : Security) (now : Instant) (authorization : Option String)
    (hidle : w.writesOf r = []) (p : User → Session → App α) (respond : α → Response) :
    (∃ e, (asUser security now authorization p respond).run (World.exec r) w = (.error e, w)) ∨
    ∃ user, ((getCurrentUser security now authorization).run (World.exec r) w).1 = .ok user ∧
      (asUser security now authorization p respond).run (World.exec r) w
        = (((p user (.load user.id w.db)).run (World.exec r) w).1.map respond,
          ((p user (.load user.id w.db)).run (World.exec r) w).2) := by
  rw [asUser, Program.run_bind, run_loadCurrentUser hidle]
  cases ((getCurrentUser security now authorization).run (World.exec r) w).1 with
  | error e => exact .inl ⟨e, rfl⟩
  | ok user => exact .inr ⟨user, rfl, Program.run_map _ _ _ _⟩

/-- A route for an administrator. -/
theorem run_asAdmin (security : Security) (now : Instant) (authorization : Option String)
    (hidle : w.writesOf r = []) (p : App α) (respond : α → Response) :
    (∃ e, (asAdmin security now authorization p respond).run (World.exec r) w = (.error e, w)) ∨
    ∃ user, ((getCurrentUser security now authorization).run (World.exec r) w).1 = .ok user ∧
      user.role = .admin ∧
      (asAdmin security now authorization p respond).run (World.exec r) w
        = ((p.run (World.exec r) w).1.map respond, (p.run (World.exec r) w).2) := by
  have hworld : ((getCurrentUser security now authorization).run (World.exec r) w).2 = w := by
    rw [run_getCurrentUser hidle]
  rw [asAdmin, Program.run_bind, run_getCurrentAdmin]
  rcases hrun : (getCurrentUser security now authorization).run (World.exec r) w with ⟨e | user, w'⟩
  all_goals
    rw [hrun] at hworld
    obtain rfl : w' = w := hworld
  · exact .inl ⟨e, rfl⟩
  · by_cases hadmin : user.role = .admin
    · simp only [if_pos hadmin]
      exact .inr ⟨user, rfl, hadmin, Program.run_map _ _ _ _⟩
    · simp only [if_neg hadmin]
      exact .inl ⟨_, rfl⟩

end

/-! ### Changes -/

/-- The row changes that a move may make. -/
def Move.writes (security : Security) : Move → Write → Prop
  | .serve request => request.endpoint.writes security
  | .createAdmin salt _ password =>
    fun x => NewUser .admin (security.hash salt password) x ∨ UpdatesUser x
  | .env _ => fun _ => False

/-- **The tables** after a move. -/
theorem exists_applyAll_run (security : Security) (settings : Settings)
    (hstart : start.pending = []) (move : Move) (moves : List Move) :
    ∃ ws, (∀ x ∈ ws, move.writes security x) ∧
      (run security settings start (move :: moves)).db
        = (run security settings start moves).db.applyAll ws := by
  have hidle := writesOf_run security settings hstart moves moves.length
  cases move with
  | serve request => exact World.exists_applyAll_serve (touches_handler ..) hidle
  | createAdmin salt email password =>
    exact ((World.Changed.refl hidle).run (touches_createAdmin ..)).db
  | env e => exact ⟨[], by simp, by cases e <;> rfl⟩

/-- The keys that a move may change. -/
def Move.keys : Move → String → Prop
  | .serve request => request.endpoint.keys
  | .createAdmin .. => fun _ => False
  | .env (.expire key) => fun key' => key' = key
  | .env (.tick _) => fun _ => False

/-- The other keys stay as they are. -/
theorem redis_run_cons {move : Move} {key : String} (h : ¬ move.keys key) (moves : List Move) :
    (run security settings start (move :: moves)).redis key
      = (run security settings start moves).redis key := by
  cases move with
  | serve request => exact World.redis_serve (touches_handler ..) h _ _
  | createAdmin salt email password => exact World.redis_run (touches_createAdmin ..) id _ _
  | env e =>
    cases e with
    | expire key' => exact Function.update_of_ne h _ _
    | tick micros => rfl

/-! ### A small installation -/

namespace Scenario

def admin : User := ⟨1, "ann@example.com", "secret", .admin, true, 0⟩

/-- The header with the token of a user who logged in at the start. -/
def bearer (user : User) : Option String :=
  some ("Bearer " ++ AuthService.createToken .transparent BookingApi.settings 0 user)

/-- An administrator and a hall, the latest first. -/
def installation : List Move :=
  [.serve ⟨bearer admin, .createHall Concurrent.Scenario.hallBody⟩,
    .createAdmin "" "ann@example.com" "secret"]

end Scenario

end BookingApi.Api
