import BookingApi.Api.Statements

/-!
# What the routes promise

For each route the exceptions that it may raise while other requests run (`Request.failures`), and
what its response says about the committed rows for good (`Endpoint.effect`).  A failure that tells
of a row, such as a seat that exists already, promises the row.
-/

namespace BookingApi

open Async

/-- The row, in this or a later state, is there. -/
def Db.Records (db : Db) (key : RowKey) (row : Row) : Prop :=
  ∃ row', db.row key = some row' ∧ row.Later row'

namespace Db

variable {db db' : Db} {key : RowKey} {row : Row}

theorem Records.later (h : db.Records key row) (hlater : db.Later db') : db'.Records key row := by
  obtain ⟨row₁, hrow₁, h₁⟩ := h
  obtain ⟨row₂, hrow₂, h₂⟩ := hlater key row₁ hrow₁
  exact ⟨row₂, hrow₂, h₁.trans h₂⟩

theorem records_of_row (h : db.row key = some row) : db.Records key row := ⟨row, h, .refl row⟩

end Db

namespace Api

open BookingService HallService SeatService UserService

/-! ### What lasts -/

section

variable {P Q : Db → Prop}

theorem lasting_const (p : Prop) : Lasting fun _ => p := fun _ _ _ h => h

theorem lasting_records (key : RowKey) (row : Row) : Lasting fun db => db.Records key row :=
  fun _ _ hlater h => h.later hlater

theorem Lasting.and (hP : Lasting P) (hQ : Lasting Q) : Lasting fun db => P db ∧ Q db :=
  fun _ _ hlater h => ⟨hP hlater h.1, hQ hlater h.2⟩

theorem Lasting.exists {α : Sort*} {P : α → Db → Prop} (hP : ∀ a, Lasting (P a)) :
    Lasting fun db => ∃ a, P a db :=
  fun _ _ hlater h => h.imp fun a => hP a hlater

theorem Lasting.forall {α : Sort*} {P : α → Db → Prop} (hP : ∀ a, Lasting (P a)) :
    Lasting fun db => ∀ a, P a db :=
  fun _ _ hlater h a => hP a hlater (h a)

theorem Lasting.forall_mem {α : Type} {l : List α} {P : α → Db → Prop} (hP : ∀ a, Lasting (P a)) :
    Lasting fun db => ∀ a ∈ l, P a db :=
  .forall fun a => .forall fun _ => hP a

end

/-! ### Failures -/

/-- A property of exceptions and rows that stays true. -/
def Failures.either (E E' : Failures) : Failures where
  may e db := E.may e db ∨ E'.may e db
  lasts hlater h := h.imp (E.lasts hlater) (E'.lasts hlater)

/-- The exceptions of `get_current_user`: the header names no user, or the user may not act. -/
def AuthenticationError (security : Security) (now : Instant) (authorization : Option String)
    (e : Exc) : Prop :=
  authenticatedId security now authorization = .error e ∨
    e ∈ [Exc.unauthorizedError "User not found", .unauthorizedError "User is inactive"]

/-- The exceptions of a route for users, besides its own. -/
def Failures.asUser (A : Exc → Prop) (E : Failures) : Failures := .either (.of A) E

/-- The exceptions of a route for administrators, besides its own. -/
def Failures.asAdmin (A : Exc → Prop) (E : Failures) : Failures :=
  .asUser A (.either (.of (· = .httpException 403 "Admin access required")) E)

/-- No exception. -/
def Failures.none : Failures := .of fun _ => False

/-- The exceptions of a list. -/
def Failures.among (es : List Exc) : Failures := .of (· ∈ es)

/-- A seat of the hall has one of the positions. -/
def PositionTaken (hallId : ℤ) (positions : List (ℤ × ℤ)) (db : Db) : Prop :=
  ∃ s : Seat, db.Records (.seats, s.id) (.seat s) ∧ s.hallId = hallId ∧
    (s.row, s.number) ∈ positions

theorem lasting_positionTaken (hallId : ℤ) (positions : List (ℤ × ℤ)) :
    Lasting (PositionTaken hallId positions) :=
  .exists fun _ => .and (lasting_records _ _) (lasting_const _)

/-- A seat that exists already. -/
def Failures.seatExists (hallId : ℤ) (positions : List (ℤ × ℤ)) (detail : String) : Failures where
  may e db := e = .seatAlreadyExistsError detail ∧ PositionTaken hallId positions db
  lasts hlater h := ⟨h.1, lasting_positionTaken hallId positions hlater h.2⟩

/-- The booking is cancelled. -/
def Cancelled (bookingId : ℤ) (db : Db) : Prop :=
  ∃ b : Booking, db.Records (.bookings, bookingId) (.booking b) ∧ b.status = .cancelled

theorem lasting_cancelled (bookingId : ℤ) : Lasting (Cancelled bookingId) :=
  .exists fun _ => .and (lasting_records _ _) (lasting_const _)

/-- A booking that is cancelled already. -/
def Failures.alreadyCancelled (bookingId : ℤ) : Failures where
  may e db := e = .bookingConflictError "Booking already cancelled" ∧ Cancelled bookingId db
  lasts hlater h := ⟨h.1, lasting_cancelled bookingId hlater h.2⟩

/-- The exceptions of `create_booking`: besides those of the validations a price that its column
cannot hold. -/
def CreateBookingError (settings : Settings) (data : BookingCreate) (e : Exc) : Prop :=
  e = .hallNotFoundError "Hall not found or inactive" ∨
    validateTimeSlot settings data.startTime data.endTime = .error e ∨
    (∃ detail, e = .seatNotFoundError detail) ∨ (∃ detail, e = .bookingConflictError detail) ∨
    e = .dbapiError

/-- The exceptions of `_calculate_slots`. -/
def SlotsError (e : Exc) : Prop :=
  e = .hallNotFound ∨ e = .keyError ∨ e = .valueError "hour must be in 0..23"

/-- The exceptions of a route; `A` are those of the authentication. -/
def Endpoint.failures (settings : Settings) (A : Exc → Prop) : Endpoint → Failures
  | .signup .. => .among [.unauthorizedError "Email already registered", .integrityError]
  | .login _ => .among
    [.unauthorizedError "Invalid email or password", .unauthorizedError "User is inactive"]
  | .getCurrentUserProfile | .listHalls => .asUser A .none
  | .listUsers _ => .asAdmin A .none
  | .getUser _ => .asAdmin A (.among [.userNotFound])
  | .updateUser .. => .asAdmin A (.among [.userNotFound, .integrityError])
  | .getHall _ | .listSeats _ => .asUser A (.among [.hallNotFound])
  | .createHall _ => .asAdmin A (.among [.dbapiError])
  | .updateHall .. => .asAdmin A (.among [.hallNotFound, .integrityError, .dbapiError])
  | .deleteHall _ => .asAdmin A (.among [.hallNotFound])
  | .createSeat hallId data => .asAdmin A (.either (.among [.hallNotFound])
    (.seatExists hallId [(data.row, data.number)]
      s!"Seat {data.row}-{data.number} already exists"))
  | .bulkCreateSeats hallId data => .asAdmin A (.either (.among [.hallNotFound])
    (.seatExists hallId (seatGrid data.rows data.seatsPerRow) "Some seats already exist"))
  | .deleteSeat .. => .asAdmin A (.among [.hallNotFound, .seatNotFound])
  | .listBookings _ => .asUser A .none
  | .getBooking _ => .asUser A (.among [.bookingNotFound])
  | .createBooking data _ => .asUser A (.of (CreateBookingError settings data))
  | .cancelBooking bookingId =>
    .asUser A (.either (.among [.bookingNotFound]) (.alreadyCancelled bookingId))
  | .getAvailability .. => .asUser A (.of SlotsError)

/-- **What a request may raise** while other requests run. -/
def Request.failures (security : Security) (settings : Settings) (now : Instant)
    (request : Request) : Failures :=
  request.endpoint.failures settings (AuthenticationError security now request.authorization)

/-- The exceptions of a route with the dependencies of its access, besides its own. -/
def Access.failures (A : Exc → Prop) (E : Failures) : Access → Failures
  | .anyone => E
  | .user => .asUser A E
  | .admin => .asAdmin A E

/-- What a request may raise that the rate limiter turns away. -/
def Request.limitFailures (security : Security) (now : Instant) (request : Request) : Failures :=
  request.endpoint.access.failures (AuthenticationError security now request.authorization)
    (.among [.rateLimitExceeded])

/-! ### Effects -/

def UserRecorded (user : UserResponse) (db : Db) : Prop :=
  ∃ u : User, db.Records (.users, user.id) (.user u) ∧ u.createdAt = user.createdAt

def HallRecorded (hall : HallResponse) (db : Db) : Prop :=
  ∃ h : Hall, db.Records (.halls, hall.id) (.hall h) ∧ h.createdAt = hall.createdAt

def SeatRecorded (seat : Seat) (db : Db) : Prop := db.Records (.seats, seat.id) (.seat seat)

/-- The booking is there with its terms, and its seats with their places. -/
def BookingRecorded (booking : BookingResponse) (db : Db) : Prop :=
  (∃ b : Booking, db.Records (.bookings, booking.id) (.booking b) ∧ b.userId = booking.userId ∧
    b.hallId = booking.hallId ∧ b.startTime = booking.startTime ∧ b.endTime = booking.endTime ∧
    b.totalPrice = booking.totalPrice) ∧
  ∀ item ∈ booking.seats, ∃ s : Seat,
    db.Records (.seats, item.id) (.seat s) ∧ s.row = item.row ∧ s.number = item.number

/-- A new user has the password. -/
def Registered (hashedPassword : String) (id : ℤ) (db : Db) : Prop :=
  ∃ u : User, db.Records (.users, id) (.user u) ∧ u.hashedPassword = hashedPassword

/-- The seats are there, one at each of the positions of the hall, in order. -/
def SeatsCreated (hallId : ℤ) (positions : List (ℤ × ℤ)) (seats : List Seat) (db : Db) : Prop :=
  (∀ s ∈ seats, s.hallId = hallId ∧ SeatRecorded s db) ∧
    seats.map (fun s => (s.row, s.number)) = positions

/-- A new booking has the seats, and the terms that were asked for. -/
def Booked (data : BookingCreate) (booking : BookingResponse) (db : Db) : Prop :=
  (booking.hallId = data.hallId ∧ booking.startTime = data.startTime.instant ∧
    booking.endTime = data.endTime.instant ∧
    booking.seats.map BookingSeatResponse.id = data.seatIds) ∧
  BookingRecorded booking db ∧
  ∀ seatId ∈ data.seatIds, ∃ bs : BookingSeat,
    db.Records (.bookingSeats, bs.id) (.bookingSeat bs) ∧ bs.bookingId = booking.id ∧
      bs.seatId = seatId

/-- **What a response says** about the committed rows, for good: the rows that it shows are there,
and those that it created are as the request asked. -/
def Endpoint.effect (security : Security) : Endpoint → Response → Db → Prop
  | .signup salt data, .registered user, db =>
    (user.email = data.email ∧ user.role = .user) ∧
      Registered (security.hash salt data.password) user.id db
  | .login _, .token _, _ => True
  | .getCurrentUserProfile, .user user, db => UserRecorded user db
  | .listUsers _, .users page, db => ∀ user ∈ page.items, UserRecorded user db
  | .getUser userId, .user user, db => user.id = userId ∧ UserRecorded user db
  | .updateUser userId _, .user user, db => user.id = userId ∧ UserRecorded user db
  | .listHalls, .halls halls, db => ∀ hall ∈ halls, HallRecorded hall db
  | .getHall hallId, .hall hall, db => hall.id = hallId ∧ HallRecorded hall db
  | .createHall data, .hall hall, db =>
    (hall.name = data.name ∧ hall.capacity = data.capacity) ∧ HallRecorded hall db
  | .updateHall hallId _, .hall hall, db => hall.id = hallId ∧ HallRecorded hall db
  | .deleteHall _, .noContent, _ => True
  | .listSeats hallId, .seats seats, db => ∀ s ∈ seats, s.hallId = hallId ∧ SeatRecorded s db
  | .createSeat hallId data, .seat seat, db =>
    SeatsCreated hallId [(data.row, data.number)] [seat] db
  | .bulkCreateSeats hallId data, .seats seats, db =>
    SeatsCreated hallId (seatGrid data.rows data.seatsPerRow) seats db
  | .deleteSeat .., .noContent, _ => True
  | .listBookings _, .bookings page, db => ∀ booking ∈ page.items, BookingRecorded booking db
  | .getBooking bookingId, .booking booking, db =>
    booking.id = bookingId ∧ BookingRecorded booking db
  | .createBooking data _, .booking booking, db => Booked data booking db
  | .cancelBooking bookingId, .noContent, db => Cancelled bookingId db
  | .getAvailability .., .slots _, _ => True
  | _, _, _ => False

/-! ### Effects last -/

theorem lasting_userRecorded (user : UserResponse) : Lasting (UserRecorded user) :=
  .exists fun _ => .and (lasting_records _ _) (lasting_const _)

theorem lasting_hallRecorded (hall : HallResponse) : Lasting (HallRecorded hall) :=
  .exists fun _ => .and (lasting_records _ _) (lasting_const _)

theorem lasting_bookingRecorded (booking : BookingResponse) : Lasting (BookingRecorded booking) :=
  .and (.exists fun _ => .and (lasting_records _ _) (lasting_const _))
    (.forall_mem fun _ => .exists fun _ => .and (lasting_records _ _) (lasting_const _))

theorem lasting_registered (hashedPassword : String) (id : ℤ) :
    Lasting (Registered hashedPassword id) :=
  .exists fun _ => .and (lasting_records _ _) (lasting_const _)

theorem lasting_seatsCreated (hallId : ℤ) (positions : List (ℤ × ℤ)) (seats : List Seat) :
    Lasting (SeatsCreated hallId positions seats) :=
  .and (.forall_mem fun _ => .and (lasting_const _) (lasting_records _ _)) (lasting_const _)

theorem lasting_booked (data : BookingCreate) (booking : BookingResponse) :
    Lasting (Booked data booking) :=
  .and (lasting_const _) (.and (lasting_bookingRecorded booking)
    (.forall_mem fun _ => .exists fun _ => .and (lasting_records _ _) (lasting_const _)))

/-- What a response says stays true. -/
theorem Endpoint.lasting_effect (security : Security) (endpoint : Endpoint) (response : Response) :
    Lasting (endpoint.effect security response) := by
  cases endpoint <;> cases response <;> first | exact lasting_const _ | skip
  case signup.registered => exact .and (lasting_const _) (lasting_registered _ _)
  case getCurrentUserProfile.user => exact lasting_userRecorded _
  case listUsers.users => exact .forall_mem fun user => lasting_userRecorded user
  case getUser.user => exact .and (lasting_const _) (lasting_userRecorded _)
  case updateUser.user => exact .and (lasting_const _) (lasting_userRecorded _)
  case listHalls.halls => exact .forall_mem fun hall => lasting_hallRecorded hall
  case getHall.hall => exact .and (lasting_const _) (lasting_hallRecorded _)
  case createHall.hall => exact .and (lasting_const _) (lasting_hallRecorded _)
  case updateHall.hall => exact .and (lasting_const _) (lasting_hallRecorded _)
  case listSeats.seats =>
    exact .forall_mem fun _ => .and (lasting_const _) (lasting_records _ _)
  case createSeat.seat => exact lasting_seatsCreated _ _ _
  case bulkCreateSeats.seats => exact lasting_seatsCreated _ _ _
  case listBookings.bookings => exact .forall_mem fun booking => lasting_bookingRecorded booking
  case getBooking.booking => exact .and (lasting_const _) (lasting_bookingRecorded _)
  case createBooking.booking => exact lasting_booked _ _
  case cancelBooking.noContent => exact lasting_cancelled _

end Api

end BookingApi
