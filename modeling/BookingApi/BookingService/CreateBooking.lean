import BookingApi.BookingService.TimeSlot
import BookingApi.Session.Basic

/-!
# Creating a booking

`create_booking` of `app/services/booking_service.py` with the functions it calls, and the route
`POST /bookings`.  The token of the Redis lock is an input, because `uuid4` draws it at random.
-/

namespace BookingApi.BookingService

open Async

/-- A `Booking` object with its relationships loaded. -/
structure LoadedBooking where
  booking : Booking
  hall : Option Hall
  bookingSeats : List BookingSeat
deriving DecidableEq

structure BookingSeatResponse where
  id : ℤ
  row : ℤ
  number : ℤ
deriving DecidableEq

structure BookingResponse where
  id : ℤ
  userId : ℤ
  hallId : ℤ
  hallName : String
  seats : List BookingSeatResponse
  startTime : Instant
  endTime : Instant
  /-- In hundredths. -/
  totalPrice : ℤ
  status : BookingStatus
  createdAt : Instant
deriving DecidableEq

/-! ### The lock -/

def lockKey (hallId : ℤ) (startTime : DateTime) : String :=
  s!"lock:hall:{hallId}:{startTime.date.isoformat}:{startTime.hour.val}"

def releaseLock (key token : String) : App Bool := do
  let released ← redisCall (.evalRelease key token)
  return released ≠ 0

/-! ### Queries and statements -/

/-- The rows of `select(Hall).where(Hall.id == hall_id, Hall.is_active)`. -/
def selectActiveHall (hallId : ℤ) (db : Db) : Option Hall :=
  db.halls.rows.find? fun h => h.id = hallId ∧ h.isActive

/-- The rows of `select(Seat).where(Seat.id.in_(seat_ids), Seat.hall_id == hall_id,
Seat.is_active)`. -/
def selectActiveSeats (hallId : ℤ) (seatIds : List ℤ) (db : Db) : List Seat :=
  db.seats.rows.filter fun s => s.id ∈ seatIds ∧ s.hallId = hallId ∧ s.isActive

/-- The conflict query: seats joined with the bookings they are attached to.
`if exclude_booking_id` tests for an id other than `None` and 0. -/
def selectConflictingSeats (hallId : ℤ) (seatIds : List ℤ) (startTime endTime : Instant)
    (excludeBookingId : Option ℤ) (db : Db) : List Seat :=
  db.seats.rows.flatMap fun s =>
    (db.bookingSeats.rows.filter fun bs => bs.seatId = s.id).flatMap fun bs =>
      (db.bookings.rows.filter fun b => b.id = bs.bookingId ∧ s.id ∈ seatIds
        ∧ b.hallId = hallId ∧ b.status = .confirmed
        ∧ b.startTime < endTime ∧ b.endTime > startTime
        ∧ (excludeBookingId = none ∨ excludeBookingId = some 0
          ∨ excludeBookingId ≠ some b.id)).map fun _ => s

/-- The `INSERT` of a `Booking` object. -/
def insertBooking (userId hallId : ℤ) (startTime endTime : Instant) (totalPrice : Decimal)
    (status : BookingStatus) : Statement ℤ := fun now seqs db =>
  let seqs' := { seqs with bookings := seqs.bookings + 1 }
  -- the column is checked before the foreign keys; either error has used up the id
  match storeNumeric totalPrice with
  | .error e => (.error e, seqs')
  | .ok price =>
    if (db.users.find? userId).isSome ∧ (db.halls.find? hallId).isSome then
      let booking : Booking :=
        ⟨seqs.bookings, userId, hallId, startTime, endTime, price, status, now⟩
      (.ok (seqs.bookings, [.insertBooking booking]), seqs')
    else (.error .integrityError, seqs')

/-- Rows for the seats of a booking, numbered from `id`. -/
def bookingSeatRows (bookingId : ℤ) : ℤ → List ℤ → List BookingSeat
  | _, [] => []
  | id, seatId :: seatIds => ⟨id, bookingId, seatId⟩ :: bookingSeatRows bookingId (id + 1) seatIds

/-- The `INSERT`s of the `BookingSeat` objects of a booking. -/
def insertBookingSeats (bookingId : ℤ) (seatIds : List ℤ) : Statement Unit := fun _ seqs db =>
  let seqs' := { seqs with bookingSeats := seqs.bookingSeats + seatIds.length }
  if (db.bookings.find? bookingId).isSome ∧ ∀ s ∈ seatIds, (db.seats.find? s).isSome then
    (.ok ((), (bookingSeatRows bookingId seqs.bookingSeats seatIds).map .insertBookingSeat), seqs')
  else (.error .integrityError, seqs')

/-! ### The service -/

/-- A set of numbers as text, in one of the orders in which Python may list them. -/
def setText : List ℤ → String
  | [] => "set()"
  | elements => "\x7b" ++ ", ".intercalate (elements.map toString) ++ "\x7d"

/-- The exception for requested seats that the query did not return; `set(seat_ids)` has no
repetitions. -/
def seatsNotFound (seatIds : List ℤ) (seats : List Seat) : Exc :=
  let foundIds := seats.map Seat.id
  let missing := seatIds.dedup.filter fun s => s ∉ foundIds
  .seatNotFoundError ("Seats not found: " ++ setText missing)

/-- The exception for the rows of the conflict query. -/
def seatsBooked (conflictingSeats : List Seat) : Exc :=
  let seatNumbers := conflictingSeats.map fun s => s!"{s.row}-{s.number}"
  .bookingConflictError ("Seats already booked for this time: " ++ ", ".intercalate seatNumbers)

def validateSeatsExist (hallId : ℤ) (seatIds : List ℤ) : App (List Seat) := do
  let seats ← execute (selectActiveSeats hallId seatIds)
  if seats.length ≠ seatIds.length then
    .raise (seatsNotFound seatIds seats)
  else
    return seats

def checkSeatConflicts (hallId : ℤ) (seatIds : List ℤ) (startTime endTime : DateTime)
    (excludeBookingId : Option ℤ) : App (List Seat) := do
  let conflictingSeats ← execute
    (selectConflictingSeats hallId seatIds startTime.instant endTime.instant excludeBookingId)
  if conflictingSeats ≠ [] then
    .raise (seatsBooked conflictingSeats)
  else
    return conflictingSeats

/-- The body of the `try` block of `create_booking`.  The reloaded booking shares the `Hall` object
of the session, which was loaded at the start. -/
def createBookingLocked (hall : Hall) (user : User) (userId hallId : ℤ) (seatIds : List ℤ)
    (startTime endTime : DateTime) : App LoadedBooking := do
  let _ ← checkSeatConflicts hallId seatIds startTime endTime none
  let duration ← .ofExcept (endTime.sub startTime)
  let hours := truncate (durationHours duration)
  let totalPrice := calculatePrice (.ofHundredths hall.hourlyRate) hours
  -- two flushes: the id of the booking is needed for its seats
  let bookingId ← flush
    (insertBooking userId hallId startTime.instant endTime.instant totalPrice .confirmed)
  flush (insertBookingSeats bookingId seatIds)
  -- `db.refresh`, and the query that loads the hall and the seats
  match ← execute fun db => db.bookings.find? bookingId with
  | none => .raise .noResultFound
  | some _ =>
    match ← execute fun db => (db.bookings.find? bookingId).map (·, db.seatsOf bookingId) with
    | none => .raise .noResultFound
    | some (booking, bookingSeats) =>
      sendBookingEvent (.bookingCreated booking.id userId user.email hall.name
        startTime.isoformat endTime.isoformat
        (Decimal.hundredthsText totalPrice.toHundredths))
      return ⟨booking, some hall, bookingSeats⟩

def createBooking (session : Session) (settings : Settings) (userId hallId : ℤ)
    (seatIds : List ℤ) (startTime endTime : DateTime) (token : String) : App LoadedBooking := do
  match ← execute (selectActiveHall hallId) with
  | none => .raise (.hallNotFoundError "Hall not found or inactive")
  | some hall =>
    match ← execute fun db => db.users.find? userId with
    | none => .raise .userNotFound
    | some row =>
      let user := session.user row
      .ofExcept (validateTimeSlot settings startTime endTime)
      let _ ← validateSeatsExist hallId seatIds
      -- the first check is made before the lock is asked for
      let _ ← checkSeatConflicts hallId seatIds startTime endTime none
      let key := lockKey hallId startTime
      -- one attempt: nobody waits for the lock
      if ← redisCall (.setNx key token settings.redisLockTimeout) then
        Program.tryFinally
          (createBookingLocked hall user userId hallId seatIds startTime endTime)
          (do let _ ← releaseLock key token)
      else
        .raise (.bookingConflictError "Another booking in progress for this time slot")

/-- The list comprehension over `booking.booking_seats`: `seats[bs.seat_id]` is a `KeyError` for a
seat that the query did not return. -/
def seatResponses (seats : List Seat) : List BookingSeat → Except Exc (List BookingSeatResponse)
  | [] => .ok []
  | bs :: rest =>
    match seats.find? fun s => s.id = bs.seatId with
    | none => .error .keyError
    | some s => (seatResponses seats rest).map (⟨bs.seatId, s.row, s.number⟩ :: ·)

/-- The answer built from a booking and the seat rows of the query. -/
def bookingResponse (b : LoadedBooking) (seats : List Seat) : Except Exc BookingResponse :=
  (seatResponses seats b.bookingSeats).map fun items =>
    { id := b.booking.id
      userId := b.booking.userId
      hallId := b.booking.hallId
      hallName := (b.hall.map Hall.name).getD "Unknown"
      seats := items
      startTime := b.booking.startTime
      endTime := b.booking.endTime
      totalPrice := b.booking.totalPrice
      status := b.booking.status
      createdAt := b.booking.createdAt }

/-- The rows of `select(Seat).where(Seat.id.in_([bs.seat_id for bs in booking.booking_seats]))`. -/
def selectSeatsOf (b : LoadedBooking) (db : Db) : List Seat :=
  db.seats.rows.filter fun s => s.id ∈ b.bookingSeats.map BookingSeat.seatId

def buildBookingResponse (b : LoadedBooking) : App BookingResponse := do
  let seats ← execute (selectSeatsOf b)
  .ofExcept (bookingResponse b seats)

/-- The route `POST /bookings`. -/
def createBookingRoute (session : Session) (settings : Settings) (userId hallId : ℤ)
    (seatIds : List ℤ) (startTime endTime : DateTime) (token : String) : App BookingResponse := do
  let booking ← createBooking session settings userId hallId seatIds startTime endTime token
  buildBookingResponse booking

/-! ### The statements -/

theorem mem_insertBooking {userId hallId : ℤ} {startTime endTime : Instant} {price : Decimal}
    {status : BookingStatus} {now : Instant} {seqs : Sequences} {db : Db} {id : ℤ}
    {ws : List Write}
    (h : (insertBooking userId hallId startTime endTime price status now seqs db).1 = .ok (id, ws))
    {x : Write} (hx : x ∈ ws) : ∃ b, x = .insertBooking b := by
  rw [insertBooking] at h
  split at h
  · cases h
  · split_ifs at h
    obtain ⟨-, rfl⟩ := Prod.mk.inj (Except.ok.inj h)
    exact ⟨_, List.mem_singleton.mp hx⟩

theorem mem_insertBookingSeats {bookingId : ℤ} {seatIds : List ℤ} {now : Instant}
    {seqs : Sequences} {db : Db} {b : Unit} {ws : List Write}
    (h : (insertBookingSeats bookingId seatIds now seqs db).1 = .ok (b, ws)) {x : Write}
    (hx : x ∈ ws) : ∃ bs, x = .insertBookingSeat bs := by
  rw [insertBookingSeats] at h
  split_ifs at h
  obtain ⟨-, rfl⟩ := Prod.mk.inj (Except.ok.inj h)
  obtain ⟨bs, -, rfl⟩ := List.mem_map.mp hx
  exact ⟨bs, rfl⟩

theorem concerns_insertBooking (userId hallId : ℤ) (startTime endTime : Instant) (price : Decimal)
    (status : BookingStatus) :
    Concerns [.bookings] (insertBooking userId hallId startTime endTime price status) := by
  refine ⟨fun now seqs db table htable => ?_, fun now seqs db b ws h x hx => ?_⟩
  · rw [insertBooking]
    cases storeNumeric price with
    | error e => cases table <;> first | rfl | exact absurd (List.mem_singleton_self _) htable
    | ok stored =>
      simp only
      split_ifs <;> cases table <;> first | rfl | exact absurd (List.mem_singleton_self _) htable
  · obtain ⟨b, rfl⟩ := mem_insertBooking h hx
    exact List.mem_singleton_self _

theorem concerns_insertBookingSeats (bookingId : ℤ) (seatIds : List ℤ) :
    Concerns [.bookingSeats] (insertBookingSeats bookingId seatIds) := by
  refine ⟨fun now seqs db table htable => ?_, fun now seqs db b ws h x hx => ?_⟩
  · rw [insertBookingSeats]
    split_ifs <;> cases table <;> first | rfl | exact absurd (List.mem_singleton_self _) htable
  · obtain ⟨bs, rfl⟩ := mem_insertBookingSeats h hx
    exact List.mem_singleton_self _

/-! ### The operations of the route -/

section

variable {P : ∀ β : Type, Op β → Prop} (hP : AllowsQueries P)
include hP

theorem uses_validateSeatsExist (hallId : ℤ) (seatIds : List ℤ) :
    (validateSeatsExist hallId seatIds).Uses P := by
  refine .bind (uses_execute hP _) fun seats => ?_
  show Program.Uses _ (if _ then _ else _)
  split_ifs <;> trivial

theorem uses_checkSeatConflicts (hallId : ℤ) (seatIds : List ℤ) (startTime endTime : DateTime)
    (excludeBookingId : Option ℤ) :
    (checkSeatConflicts hallId seatIds startTime endTime excludeBookingId).Uses P := by
  refine .bind (uses_execute hP _) fun seats => ?_
  show Program.Uses _ (if _ then _ else _)
  split_ifs <;> trivial

theorem uses_buildBookingResponse (b : LoadedBooking) : (buildBookingResponse b).Uses P :=
  .bind (uses_execute hP _) fun _ => Program.uses_ofExcept _

variable {userId hallId : ℤ} {seatIds : List ℤ} {startTime endTime : DateTime}
  (hbooking : ∀ price, P _ (.flush
    (insertBooking userId hallId startTime.instant endTime.instant price .confirmed)))
  (hseats : ∀ bookingId, P _ (.flush (insertBookingSeats bookingId seatIds)))
  (hsend : ∀ event, P _ (.send event))
include hbooking hseats hsend

theorem uses_createBookingLocked (hall : Hall) (user : User) :
    (createBookingLocked hall user userId hallId seatIds startTime endTime).Uses P := by
  refine .bind (uses_checkSeatConflicts hP ..) fun _ => .bind (Program.uses_ofExcept _)
    fun duration => .bind (uses_flush (hbooking _)) fun bookingId =>
      .bind (uses_flush (hseats bookingId)) fun _ => .bind (uses_execute hP _) fun row => ?_
  cases row with
  | none => trivial
  | some _ =>
    refine .bind (uses_execute hP _) fun row => ?_
    cases row with
    | none => trivial
    | some _ => exact .bind (Program.uses_perform (hsend _)) fun _ => trivial

theorem uses_createBookingRoute {session : Session} {settings : Settings} {token : String}
    (hacquire : P _ (.redis (.setNx (lockKey hallId startTime) token settings.redisLockTimeout)))
    (hrelease : P _ (.redis (.evalRelease (lockKey hallId startTime) token))) :
    (createBookingRoute session settings userId hallId seatIds startTime endTime token).Uses P := by
  refine .bind (.bind (uses_execute hP _) fun row => ?_) (uses_buildBookingResponse hP)
  cases row with
  | none => trivial
  | some hall =>
    refine .bind (uses_execute hP _) fun row => ?_
    cases row with
    | none => trivial
    | some row =>
      refine .bind (Program.uses_ofExcept _) fun _ => .bind (uses_validateSeatsExist hP ..)
        fun _ => .bind (uses_checkSeatConflicts hP ..) fun _ =>
          .bind (Program.uses_perform hacquire) fun acquired => ?_
      cases acquired with
      | false => trivial
      | true =>
        exact .tryFinally (uses_createBookingLocked hP hbooking hseats hsend hall _)
          (.bind (.bind (Program.uses_perform hrelease) fun _ => trivial) fun _ => trivial)

end

end BookingApi.BookingService
