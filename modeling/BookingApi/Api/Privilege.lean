import BookingApi.Api.Run

/-!
# Who may change halls, seats and users

Halls, seats and the rows of existing users are changed by the routes of administrators only
(`Privileged`), and such a route does nothing for a caller who is not an active administrator when
the request is authenticated: `changes_need_admin`.  A signup inserts a user without the role, so
that requests alone do not lead to a first administrator (`unprivileged_run`).
-/

namespace BookingApi.Api

open Async

variable {security : Security} {settings : Settings} {start : World} {moves : List Move}

/-- A change of the halls or the seats, or of an existing user. -/
def Privileged (x : Write) : Prop := OfHalls x ∨ OfSeats x ∨ UpdatesUser x

/-- What the tables keep under changes that are not privileged. -/
structure Untouched (db db' : Db) : Prop where
  halls : db'.halls = db.halls
  seats : db'.seats = db.seats
  users : db.users.rows ⊆ db'.users.rows

theorem untouched_applyAll (db : Db) {ws : List Write} (h : ∀ x ∈ ws, ¬ Privileged x) :
    Untouched db (db.applyAll ws) where
  halls := db.halls_applyAll fun x hx he => h x hx (.inl he)
  seats := db.seats_applyAll fun x hx he => h x hx (.inr (.inl he))
  users := Db.users_subset_applyAll fun id p hx => h _ hx (.inr (.inr ⟨id, p, rfl⟩))

/-! ### One request -/

/-- The caller of a request is an active administrator in the tables after some moves. -/
def ActsAsAdmin (security : Security) (settings : Settings) (start : World) (moves : List Move)
    (request : Request) : Prop :=
  ∃ admin ∈ (run security settings start moves).db.users.rows,
    admin.isActive = true ∧ admin.role = .admin ∧
      answer security settings start moves
        (getCurrentUser security (run security settings start moves).now request.authorization)
          = .ok admin

/-- A route of administrators does nothing for others. -/
theorem actsAsAdmin_of_asAdmin {α : Type} {p : App α} {respond : α → Response} {request : Request}
    (hstart : start.pending = [])
    (hhandler : request.handler security settings (run security settings start moves).now
      = asAdmin security (run security settings start moves).now request.authorization p respond) :
    (run security settings start (.serve request :: moves)).db
        = (run security settings start moves).db ∨
      ActsAsAdmin security settings start moves request := by
  have hidle := writesOf_run security settings hstart moves moves.length
  rw [run_serve, hhandler, serve_eq]
  rcases run_asAdmin security (run security settings start moves).now request.authorization hidle p
    respond with ⟨e, hrun⟩ | ⟨user, huser, hrole, -⟩
  · rw [hrun]
    exact .inl rfl
  · obtain ⟨hmem, hactive, -⟩ := (run_getCurrentUser_eq_ok_iff hidle).mp huser
    refine .inr ⟨user, hmem, hactive, hrole, ?_⟩
    rw [answer, serve_fst]
    exact huser

/-- A request makes no privileged change, or its caller is an active administrator. -/
theorem untouched_or_actsAsAdmin (security : Security) (settings : Settings)
    (hstart : start.pending = []) (moves : List Move) (request : Request) :
    Untouched (run security settings start moves).db
        (run security settings start (.serve request :: moves)).db ∨
      ActsAsAdmin security settings start moves request := by
  -- a route for administrators reads its caller first, the others write nothing privileged
  have hadmin {α : Type} {p : App α} {respond : α → Response}
      (hhandler : request.handler security settings (run security settings start moves).now
        = asAdmin security (run security settings start moves).now request.authorization p
            respond) :
      Untouched (run security settings start moves).db
          (run security settings start (.serve request :: moves)).db ∨
        ActsAsAdmin security settings start moves request :=
    (actsAsAdmin_of_asAdmin hstart hhandler).imp_left fun h => by
      rw [h]
      exact ⟨rfl, rfl, List.Subset.refl _⟩
  have hopen (h : ∀ x, request.endpoint.writes security x → ¬ Privileged x) :
      Untouched (run security settings start moves).db
          (run security settings start (.serve request :: moves)).db ∨
        ActsAsAdmin security settings start moves request := by
    obtain ⟨ws, hws, hdb⟩ := exists_applyAll_run security settings hstart (.serve request) moves
    rw [hdb]
    exact .inl (untouched_applyAll _ fun x hx => h x (hws x hx))
  obtain ⟨authorization, endpoint⟩ := request
  cases endpoint with
  | updateUser | createHall | updateHall | deleteHall | createSeat | bulkCreateSeats | deleteSeat =>
    exact hadmin rfl
  | signup salt data =>
    refine hopen ?_
    rintro x ⟨user, rfl, -⟩ (h | h | ⟨id, p, h⟩) <;> cases h
  | createBooking | cancelBooking =>
    refine hopen ?_
    rintro x (hx | hx) (h | h | ⟨id, p, rfl⟩)
    · exact absurd (hx.symm.trans h) (by decide)
    · exact absurd (hx.symm.trans h) (by decide)
    · cases hx
    · exact absurd (hx.symm.trans h) (by decide)
    · exact absurd (hx.symm.trans h) (by decide)
    · cases hx
  | _ => exact hopen fun x hx => hx.elim

/-- A new user has the role of a user. -/
theorem role_of_new_user (hstart : start.pending = []) (request : Request) {user : User}
    (h : user ∈ (run security settings start (.serve request :: moves)).db.users.rows)
    (hnew : ∀ user' ∈ (run security settings start moves).db.users.rows, user'.id ≠ user.id) :
    user.role = .user := by
  obtain ⟨ws, hws, hdb⟩ := exists_applyAll_run security settings hstart (.serve request) moves
  rw [hdb] at h
  obtain ⟨user₀, hold, hid, -, hrest⟩ := Db.mem_users_applyAll h
  rcases hold with hold | ⟨hinsert, -⟩
  · exact absurd hid.symm (hnew user₀ hold)
  have hwrite : request.endpoint.writes security (.insertUser user₀) := hws _ hinsert
  obtain ⟨authorization, endpoint⟩ := request
  cases endpoint with
  | signup salt data =>
    obtain ⟨user', huser', hrole, -⟩ := hwrite
    obtain rfl := Write.insertUser.inj huser'
    rcases hrest with rfl | ⟨p, hupdate⟩
    · exact hrole
    · obtain ⟨user', huser', -⟩ := hws _ hupdate
      cases huser'
  | updateUser userId data =>
    obtain ⟨id, p, hupdate⟩ := hwrite
    cases hupdate
  | createHall | updateHall | deleteHall | createSeat | bulkCreateSeats | deleteSeat => cases hwrite
  | createBooking | cancelBooking => rcases hwrite with h | h <;> cases h
  | _ => exact hwrite.elim

/-! ### Runs of requests -/

/-- There is no active administrator. -/
def NoAdmin (db : Db) : Prop :=
  ∀ user ∈ db.users.rows, user.isActive = true → user.role ≠ .admin

/-- The moves are requests and what the environment does. -/
def RequestsOnly (moves : List Move) : Prop :=
  ∀ move ∈ moves, ∀ salt email password, move ≠ .createAdmin salt email password

/-- Without an active administrator requests change no hall, seat or existing user and add no
administrator. -/
theorem unprivileged_run (security : Security) (settings : Settings) (hstart : start.pending = [])
    (hadmin : NoAdmin start.db) (honly : RequestsOnly moves) :
    Untouched start.db (run security settings start moves).db ∧
      ∀ user ∈ (run security settings start moves).db.users.rows, user.role = .admin →
        user ∈ start.db.users.rows := by
  induction moves with
  | nil => exact ⟨⟨rfl, rfl, List.Subset.refl _⟩, fun user hmem _ => hmem⟩
  | cons move moves ih =>
    obtain ⟨hkept, hadmins⟩ := ih fun move' hmove' => honly move' (List.mem_cons_of_mem _ hmove')
    cases move with
    | createAdmin salt email password =>
      exact absurd rfl (honly _ (List.mem_cons_self ..) salt email password)
    | env e => cases e <;> exact ⟨hkept, hadmins⟩
    | serve request =>
      rcases untouched_or_actsAsAdmin security settings hstart moves request with
        hstep | ⟨admin, hmem, hactive, hrole, -⟩
      · refine ⟨⟨hstep.halls.trans hkept.halls, hstep.seats.trans hkept.seats,
          List.Subset.trans hkept.users hstep.users⟩, fun user hmem hrole => ?_⟩
        by_cases hnew : ∃ user' ∈ (run security settings start moves).db.users.rows,
          user'.id = user.id
        · obtain ⟨user', hmem', hid⟩ := hnew
          obtain rfl := Table.eq_of_key_eq (hstep.users hmem') hmem hid
          exact hadmins user' hmem' hrole
        · push Not at hnew
          have hrole' := role_of_new_user hstart request hmem hnew
          exact absurd (hrole.symm.trans hrole') (by decide)
      · exact absurd hrole (hadmin admin (hadmins admin hmem hrole) hactive)

/-- **No escalation.**  A request that changes a hall, a seat or an existing user has an active
administrator as its caller; the users that a request adds have the role of a user; and from tables
without an active administrator requests lead to no administrator and change no hall and no seat. -/
theorem changes_need_admin (hstart : start.pending = []) (moves : List Move) :
    (∀ request,
      ((run security settings start (.serve request :: moves)).db.halls
          ≠ (run security settings start moves).db.halls ∨
        (run security settings start (.serve request :: moves)).db.seats
          ≠ (run security settings start moves).db.seats ∨
        ∃ user ∈ (run security settings start moves).db.users.rows,
          user ∉ (run security settings start (.serve request :: moves)).db.users.rows) →
      ActsAsAdmin security settings start moves request) ∧
    (∀ request, ∀ user ∈ (run security settings start (.serve request :: moves)).db.users.rows,
      (∀ user' ∈ (run security settings start moves).db.users.rows, user'.id ≠ user.id) →
        user.role = .user) ∧
    (NoAdmin start.db → RequestsOnly moves →
      NoAdmin (run security settings start moves).db ∧
      (∀ user ∈ (run security settings start moves).db.users.rows, user.role = .admin →
        user ∈ start.db.users.rows) ∧
      (run security settings start moves).db.halls = start.db.halls ∧
      (run security settings start moves).db.seats = start.db.seats) := by
  refine ⟨fun request hchange => ?_, fun request user hmem hnew => ?_, fun hadmin honly => ?_⟩
  · rcases untouched_or_actsAsAdmin security settings hstart moves request with hkept | hacts
    · rcases hchange with hhalls | hseats | ⟨user, hmem, hgone⟩
      · exact absurd hkept.halls hhalls
      · exact absurd hkept.seats hseats
      · exact absurd (hkept.users hmem) hgone
    · exact hacts
  · exact role_of_new_user hstart request hmem hnew
  · obtain ⟨hkept, hadmins⟩ := unprivileged_run security settings hstart hadmin honly
    refine ⟨fun user hmem hactive hrole => ?_, hadmins, hkept.halls, hkept.seats⟩
    exact hadmin user (hadmins user hmem hrole) hactive hrole

namespace Scenario

def createHall : Request := ⟨bearer admin, .createHall Concurrent.Scenario.hallBody⟩

def signup : Request := ⟨none, .signup "" ⟨"eve@example.com", "password", by decide⟩⟩

end Scenario

open Scenario in
/-- The administrator creates a hall; a signup creates no administrator. -/
theorem changes_need_admin_installation :
    ActsAsAdmin .transparent BookingApi.settings .initial
        [.createAdmin "" "ann@example.com" "secret"] createHall ∧
      NoAdmin (run .transparent BookingApi.settings .initial [.serve signup]).db := by
  constructor
  · refine (changes_need_admin rfl _).1 createHall (.inl ?_)
    exact fun h => absurd (congrArg (fun t => t.rows.length) h) (by decide +kernel)
  · refine ((changes_need_admin rfl _).2.2 ?_ ?_).1
    · exact fun user hmem => absurd hmem List.not_mem_nil
    · intro move hmove salt email password
      rw [List.mem_singleton.mp hmove]
      intro h
      cases h

end BookingApi.Api
