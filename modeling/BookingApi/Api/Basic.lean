import BookingApi.AuthService.Basic
import BookingApi.BookingService.AvailableSlots
import BookingApi.BookingService.UserBookings
import BookingApi.Concurrent.CreateBooking
import BookingApi.Core.Dependencies
import BookingApi.SeatService.Basic
import BookingApi.UserService.Basic
import BookingApi.World.Touches

/-!
# The HTTP API

The routes of the five routers of `app/routers` with their dependencies, and serial runs of
requests: each request is served inside its own `get_db` and without a fault before the next one
starts.  Between two requests the environment may act, and the script `app/scripts/create_admin.py`
may be run.  A body that its schema rejects reaches no handler and is left out, and so is the format
of the email addresses, which the schemas of the responses check as well.  The memory of the rate
limiter is left out too: `Request.limited` is what becomes of a request that it turns away, which
may be any.
-/

namespace BookingApi.Api

open Async AuthService BookingService HallService SeatService UserService

/-! ### Requests -/

/-- A valid `RegisterRequest` body. -/
structure RegisterRequest where
  email : String
  password : String
  password_length : 8 ≤ password.length ∧ password.length ≤ 100

structure LoginRequest where
  email : String
  password : String

/-- A valid `SeatCreate` body. -/
structure SeatCreate where
  row : ℤ
  number : ℤ
  row_ge : 1 ≤ row
  number_ge : 1 ≤ number

/-- A valid `SeatBulkCreate` body. -/
structure SeatBulkCreate where
  rows : ℤ
  seatsPerRow : ℤ
  rows_ge : 1 ≤ rows
  seatsPerRow_ge : 1 ≤ seatsPerRow

/-- A valid `BookingCreate` body. -/
structure BookingCreate where
  hallId : ℤ
  seatIds : List ℤ
  startTime : DateTime
  endTime : DateTime
  seatIds_length : 1 ≤ seatIds.length

/-- A route with its path and query parameters and its body, and the random values that the handler
draws: the salt of a password, and the token of a lock. -/
inductive Endpoint
  | signup (salt : String) (data : RegisterRequest)
  | login (data : LoginRequest)
  | getCurrentUserProfile
  | listUsers (pagination : PaginationParams)
  | getUser (userId : ℤ)
  | updateUser (userId : ℤ) (data : UserUpdate)
  | listHalls
  | getHall (hallId : ℤ)
  | createHall (data : HallCreate)
  | updateHall (hallId : ℤ) (data : HallUpdate)
  | deleteHall (hallId : ℤ)
  | listSeats (hallId : ℤ)
  | createSeat (hallId : ℤ) (data : SeatCreate)
  | bulkCreateSeats (hallId : ℤ) (data : SeatBulkCreate)
  | deleteSeat (hallId seatId : ℤ)
  | listBookings (pagination : PaginationParams)
  | getBooking (bookingId : ℤ)
  | createBooking (data : BookingCreate) (token : Token)
  | cancelBooking (bookingId : ℤ)
  | getAvailability (hallId : ℤ) (date : Date)

structure Request where
  authorization : Option String
  endpoint : Endpoint

/-- To whom a route is open. -/
inductive Access
  | anyone
  | user
  | admin
deriving DecidableEq

def Endpoint.access : Endpoint → Access
  | .signup .. | .login _ => .anyone
  | .getCurrentUserProfile | .listHalls | .getHall _ | .listSeats _ => .user
  | .listBookings _ | .getBooking _ | .createBooking .. | .cancelBooking _ => .user
  | .getAvailability .. => .user
  | .listUsers _ | .getUser _ | .updateUser .. => .admin
  | .createHall _ | .updateHall .. | .deleteHall _ => .admin
  | .createSeat .. | .bulkCreateSeats .. | .deleteSeat .. => .admin

structure RegisterResponse where
  id : ℤ
  email : String
  role : UserRole
deriving DecidableEq

/-- `RegisterResponse.model_validate(user)`. -/
def RegisterResponse.ofUser (user : User) : RegisterResponse := ⟨user.id, user.email, user.role⟩

inductive Response
  | registered (user : RegisterResponse)
  | token (accessToken : String)
  | user (user : UserResponse)
  | users (page : PaginatedResponse UserResponse)
  | hall (hall : HallResponse)
  | halls (halls : List HallResponse)
  | seat (seat : Seat)
  | seats (seats : List Seat)
  | booking (booking : BookingResponse)
  | bookings (page : PaginatedResponse BookingResponse)
  | slots (slots : List Slot)
  | noContent
deriving DecidableEq

/-! ### Handlers -/

section

variable (security : Security) (settings : Settings) (now : Instant)

/-- A route that anyone may call. -/
def asAnyone {α : Type} (p : App α) (respond : α → Response) : App Response :=
  p.bind (.ret ∘ respond)

/-- A route with a parameter `current_user: CurrentUser`, which has the session of the user. -/
def asUser {α : Type} (authorization : Option String) (p : User → Session → App α)
    (respond : α → Response) : App Response :=
  (loadCurrentUser security now authorization).bind fun loaded =>
    asAnyone (p loaded.1 loaded.2) respond

/-- A route with a parameter `admin: AdminUser`. -/
def asAdmin {α : Type} (authorization : Option String) (p : App α) (respond : α → Response) :
    App Response :=
  (getCurrentAdmin security now authorization).bind fun _ => asAnyone p respond

def Request.handler : Request → App Response
  | ⟨_, .signup salt data⟩ =>
    asAnyone (UserService.signup (security.hash salt) data.email data.password) fun user =>
      .registered (.ofUser user)
  | ⟨_, .login data⟩ =>
    asAnyone (AuthService.login security settings now data.email data.password) .token
  | ⟨auth, .getCurrentUserProfile⟩ =>
    asUser security now auth (fun user _ => .ret user) fun user => .user (.ofUser user)
  | ⟨auth, .listUsers pagination⟩ =>
    asAdmin security now auth (listUsersRoute pagination) .users
  | ⟨auth, .getUser userId⟩ => asAdmin security now auth (getUserRoute userId) .user
  | ⟨auth, .updateUser userId data⟩ =>
    asAdmin security now auth (UserService.updateUser userId data) fun user => .user (.ofUser user)
  | ⟨auth, .listHalls⟩ => asUser security now auth (fun _ _ => HallService.listHalls) .halls
  | ⟨auth, .getHall hallId⟩ =>
    asUser security now auth (fun _ _ => HallService.getHall hallId) .hall
  | ⟨auth, .createHall data⟩ => asAdmin security now auth (HallService.createHall data) .hall
  | ⟨auth, .updateHall hallId data⟩ =>
    asAdmin security now auth (HallService.updateHall hallId data) .hall
  | ⟨auth, .deleteHall hallId⟩ =>
    asAdmin security now auth (HallService.deleteHall hallId) fun _ => .noContent
  | ⟨auth, .listSeats hallId⟩ =>
    asUser security now auth (fun _ _ => SeatService.listSeats hallId) .seats
  | ⟨auth, .createSeat hallId data⟩ =>
    asAdmin security now auth (SeatService.createSeat hallId data.row data.number) .seat
  | ⟨auth, .bulkCreateSeats hallId data⟩ =>
    asAdmin security now auth (SeatService.bulkCreateSeats hallId data.rows data.seatsPerRow) .seats
  | ⟨auth, .deleteSeat hallId seatId⟩ =>
    asAdmin security now auth (SeatService.deleteSeat hallId seatId) fun _ => .noContent
  | ⟨auth, .listBookings pagination⟩ =>
    asUser security now auth (fun user session => listBookingsRoute session user.id pagination)
      .bookings
  | ⟨auth, .getBooking bookingId⟩ =>
    asUser security now auth (fun user session => getBookingRoute session bookingId user.id)
      .booking
  | ⟨auth, .createBooking data token⟩ =>
    asUser security now auth (fun user session => createBookingRoute session settings user.id
      data.hallId data.seatIds data.startTime data.endTime token.text) .booking
  | ⟨auth, .cancelBooking bookingId⟩ =>
    asUser security now auth (fun user session => cancelBookingRoute session bookingId user.id)
      fun _ => .noContent
  | ⟨auth, .getAvailability hallId date⟩ =>
    asUser security now auth (fun _ _ => getAvailabilityRoute settings hallId date) .slots

/-- A request beyond the limit of its route: `limiter.limit` wraps the handler, so that the
dependencies of the route come first. -/
def Request.limited (request : Request) : App Response :=
  match request.endpoint.access with
  | .anyone => asAnyone (.raise .rateLimitExceeded) id
  | .user => asUser security now request.authorization (fun _ _ => .raise .rateLimitExceeded) id
  | .admin => asAdmin security now request.authorization (.raise .rateLimitExceeded) id

end

/-- The flush of an existing user who becomes an active administrator: only what changes is sent. -/
def promoteUser (existingUser : User) : Statement Unit := fun _ seqs _ =>
  let role := if existingUser.role = .admin then none else some .admin
  let isActive := if existingUser.isActive then none else some true
  (.ok ((), updateUserRow existingUser.id ⟨none, role, isActive⟩), seqs)

/-- `create_admin` of `app/scripts/create_admin.py`.  The session is closed at the end, which rolls
back what is not committed. -/
def createAdmin (hashPassword : String → String) (email password : String) : App Unit :=
  Program.tryFinally
    (do
      match ← execute fun db => db.users.rows.find? fun u => u.email = email with
      | some existingUser =>
        flush (promoteUser existingUser)
        Program.perform .commit
      | none =>
        let userId ← flush (insertUser email (hashPassword password) .admin)
        Program.perform .commit
        let _ ← refreshUser userId)
    (Program.perform .rollback)

theorem concerns_promoteUser (existingUser : User) :
    Concerns [.users] (promoteUser existingUser) := by
  refine ⟨fun _ _ _ _ _ => rfl, fun now seqs db b ws h x hx => ?_⟩
  obtain ⟨-, rfl⟩ := Prod.mk.inj (Except.ok.inj h)
  obtain ⟨id, p, rfl⟩ := mem_updateUserRow hx
  exact List.mem_singleton_self _

/-! ### The operations of a route -/

section

variable {P : ∀ β : Type, Op β → Prop} {security : Security} {now : Instant} {α : Type}
  {respond : α → Response}

theorem uses_asAnyone (respond : α → Response) {p : App α} (h : p.Uses P) :
    (asAnyone p respond).Uses P :=
  h.bind fun _ => trivial

variable (hP : AllowsQueries P) {authorization : Option String}
include hP

theorem uses_asUser {p : User → Session → App α} (h : ∀ user session, (p user session).Uses P) :
    (asUser security now authorization p respond).Uses P :=
  .bind (uses_loadCurrentUser _ _ _ hP) fun loaded => uses_asAnyone respond (h loaded.1 loaded.2)

theorem uses_asAdmin {p : App α} (h : p.Uses P) :
    (asAdmin security now authorization p respond).Uses P :=
  .bind (uses_getCurrentAdmin _ _ _ hP) fun _ => uses_asAnyone respond h

/-- A request that is turned away has made queries only. -/
theorem uses_limited (request : Request) : (request.limited security now).Uses P := by
  unfold Request.limited
  split
  · exact uses_asAnyone id trivial
  · exact uses_asUser hP fun _ _ => trivial
  · exact uses_asAdmin hP trivial

end

theorem uses_createAdmin {P : ∀ β : Type, Op β → Prop} (hP : AllowsQueries P)
    {hashPassword : String → String} {email password : String} (hcommit : P Unit .commit)
    (hrollback : P Unit .rollback) (hpromote : ∀ user, P _ (.flush (promoteUser user)))
    (hinsert : P _ (.flush (insertUser email (hashPassword password) .admin))) :
    (createAdmin hashPassword email password).Uses P := by
  refine .tryFinally (.bind (uses_execute hP _) fun row => ?_) (Program.uses_perform hrollback)
  cases row with
  | some user =>
    exact .bind (uses_flush (hpromote user)) fun _ => Program.uses_perform hcommit
  | none =>
    exact .bind (uses_flush hinsert) fun userId => .bind (Program.uses_perform hcommit) fun _ =>
      .bind (uses_refreshUser hP userId) fun _ => trivial

/-! ### Serial runs -/

inductive Move
  | serve (request : Request)
  | createAdmin (salt email password : String)
  | env (e : World.Env)

variable (security : Security) (settings : Settings) (start : World)

/-- The world after some moves, the latest first.  A request is known by the number of moves before
it. -/
def run : List Move → World
  | [] => start
  | .serve request :: moves =>
    (serve moves.length (request.handler security settings (run moves).now) (run moves)).2
  | .createAdmin salt email password :: moves =>
    ((createAdmin (security.hash salt) email password).run (World.exec moves.length) (run moves)).2
  | .env e :: moves => World.env e (run moves)

/-- The result of a handler that is served after some moves. -/
def answer {α : Type} (moves : List Move) (p : App α) : Except Exc α :=
  (BookingApi.serve moves.length p (run security settings start moves)).1

/-- The response to a request after some moves. -/
def respond (moves : List Move) (request : Request) : Except Exc Response :=
  answer security settings start moves
    (request.handler security settings (run security settings start moves).now)

end BookingApi.Api
