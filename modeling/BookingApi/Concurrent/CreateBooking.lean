import BookingApi.Async.Interleaving
import BookingApi.BookingService.CreateBooking

/-!
# The control points of `POST /bookings`

A request that creates a booking, cut at its awaits.  `CreatePc.next` tells what the request awaits
at each control point and where it goes with the outcome; `CreatePc.presents` says that this is the
program `getDb (createBookingRoute ...)`.
-/

namespace BookingApi

open Async BookingService

/-- A lowercase hexadecimal digit. -/
def isHexDigit (c : Char) : Bool := c ∈ "0123456789abcdef".toList

/-- `uuid4().hex`. -/
@[ext]
structure Token where
  text : String
  hex : ∀ c ∈ text.toList, isHexDigit c
deriving DecidableEq

/-- The inputs of `POST /bookings`, the id of the authenticated user, and the token that the request
draws. -/
structure CreateArgs where
  userId : ℤ
  hallId : ℤ
  seatIds : List ℤ
  startTime : DateTime
  endTime : DateTime
  token : Token
deriving DecidableEq

namespace CreateArgs

def lockKey (args : CreateArgs) : String := BookingService.lockKey args.hallId args.startTime

def program (settings : Settings) (args : CreateArgs) : App BookingResponse :=
  withSession args.userId fun session => createBookingRoute session settings args.userId args.hallId
    args.seatIds args.startTime args.endTime args.token.text

/-- The event of the booking. -/
def event (args : CreateArgs) (hall : Hall) (user : User) (price : Decimal) (bookingId : ℤ) :
    BookingEvent :=
  .bookingCreated bookingId args.userId user.email hall.name args.startTime.isoformat
    args.endTime.isoformat (Decimal.hundredthsText price.toHundredths)

end CreateArgs

/-- The price of the booking, computed under the lock. -/
def bookingPrice (hall : Hall) (duration : ℤ) : Decimal :=
  calculatePrice (.ofHundredths hall.hourlyRate) (truncate (durationHours duration))

/-- Where a request that creates a booking stands: each constructor but the last is the await that
comes next. -/
inductive CreatePc
  /-- Before the query of `get_current_user`. -/
  | load
  | selectHall (session : Session)
  | selectUser (session : Session) (hall : Hall)
  | selectSeats (hall : Hall) (user : User)
  | checkConflicts (hall : Hall) (user : User)
  /-- Before `SET NX EX`. -/
  | acquire (hall : Hall) (user : User)
  | recheck (hall : Hall) (user : User)
  | flushBooking (hall : Hall) (user : User) (price : Decimal)
  | flushSeats (hall : Hall) (user : User) (price : Decimal) (bookingId : ℤ)
  | refresh (hall : Hall) (user : User) (price : Decimal) (bookingId : ℤ)
  | reload (hall : Hall) (user : User) (price : Decimal) (bookingId : ℤ)
  | send (hall : Hall) (user : User) (price : Decimal) (booking : Booking)
      (bookingSeats : List BookingSeat)
  /-- In the `finally` block, with the outcome of the `try` block. -/
  | release (outcome : Except Exc LoadedBooking)
  | response (booking : LoadedBooking)
  | commit (answer : BookingResponse)
  | rollback (e : Exc)
  | done (result : Except Exc BookingResponse)
deriving DecidableEq

namespace CreatePc

/-- What the request awaits, and where it goes with the outcome.  An exception under the lock leads
to the `finally` block, any other one to the rollback of `get_db`. -/
def next (settings : Settings) (args : CreateArgs) :
    CreatePc → Await Op Exc BookingResponse CreatePc
  | load => .call (.execute (Session.load args.userId)) fun
    | .error e => rollback e
    | .ok session => selectHall session
  | selectHall session => .call (.execute (selectActiveHall args.hallId)) fun
    | .error e => rollback e
    | .ok none => rollback (.hallNotFoundError "Hall not found or inactive")
    | .ok (some hall) => selectUser session hall
  | selectUser session hall => .call (.execute fun db => db.users.find? args.userId) fun
    | .error e => rollback e
    | .ok none => rollback .userNotFound
    | .ok (some row) =>
      match validateTimeSlot settings args.startTime args.endTime with
      | .error e => rollback e
      | .ok () => selectSeats hall (session.user row)
  | selectSeats hall user => .call (.execute (selectActiveSeats args.hallId args.seatIds)) fun
    | .error e => rollback e
    | .ok seats =>
      if seats.length ≠ args.seatIds.length then rollback (seatsNotFound args.seatIds seats)
      else checkConflicts hall user
  | checkConflicts hall user =>
    .call (.execute (selectConflictingSeats args.hallId args.seatIds args.startTime.instant
      args.endTime.instant none)) fun
    | .error e => rollback e
    | .ok seats => if seats ≠ [] then rollback (seatsBooked seats) else acquire hall user
  -- the lock, and under it the conflict query once more
  | acquire hall user =>
    .call (.redis (.setNx args.lockKey args.token.text settings.redisLockTimeout)) fun
    | .error e => rollback e
    | .ok acquired =>
      if acquired then recheck hall user
      else rollback (.bookingConflictError "Another booking in progress for this time slot")
  | recheck hall user =>
    .call (.execute (selectConflictingSeats args.hallId args.seatIds args.startTime.instant
      args.endTime.instant none)) fun
    | .error e => release (.error e)
    | .ok seats =>
      if seats ≠ [] then release (.error (seatsBooked seats))
      else match args.endTime.sub args.startTime with
        | .error e => release (.error e)
        | .ok duration => flushBooking hall user (bookingPrice hall duration)
  | flushBooking hall user price =>
    .call (.flush (insertBooking args.userId args.hallId args.startTime.instant
      args.endTime.instant price .confirmed)) fun
    | .error e => release (.error e)
    | .ok bookingId => flushSeats hall user price bookingId
  | flushSeats hall user price bookingId =>
    .call (.flush (insertBookingSeats bookingId args.seatIds)) fun
    | .error e => release (.error e)
    | .ok _ => refresh hall user price bookingId
  | refresh hall user price bookingId =>
    .call (.execute fun db => db.bookings.find? bookingId) fun
    | .error e => release (.error e)
    | .ok none => release (.error .noResultFound)
    | .ok (some _) => reload hall user price bookingId
  | reload hall user price bookingId =>
    .call (.execute fun db => (db.bookings.find? bookingId).map (·, db.seatsOf bookingId)) fun
    | .error e => release (.error e)
    | .ok none => release (.error .noResultFound)
    | .ok (some (booking, bookingSeats)) => send hall user price booking bookingSeats
  | send hall user price booking bookingSeats =>
    .call (.send (args.event hall user price booking.id)) fun
    | .error e => release (.error e)
    | .ok _ => release (.ok ⟨booking, some hall, bookingSeats⟩)
  -- an exception of the release hides the outcome
  | release outcome => .call (.redis (.evalRelease args.lockKey args.token.text)) fun
    | .error e => rollback e
    | .ok _ => match outcome with
      | .error e => rollback e
      | .ok booking => response booking
  | response booking => .call (.execute (selectSeatsOf booking)) fun
    | .error e => rollback e
    | .ok seats => match bookingResponse booking seats with
      | .error e => rollback e
      | .ok answer => commit answer
  | commit answer => .call .commit fun
    | .error e => rollback e
    | .ok _ => done (.ok answer)
  -- so does one of the rollback
  | rollback e => .call .rollback fun
    | .error e' => done (.error e')
    | .ok _ => done (.error e)
  | done result => .ended result

/-! ### The machine is the program -/

variable {settings : Settings} {args : CreateArgs}

theorem presents_rollback (e : Exc) :
    Presents (next settings args)
      (do Program.perform .rollback; Program.raise e : App BookingResponse) (rollback e) := by
  refine .call rfl ?_
  rintro (e' | _)
  · exact .raise rfl
  · exact .raise rfl

/-- The rest of the request once the service has returned or raised. -/
private def finish (p : App LoadedBooking) : App BookingResponse :=
  getDb (do buildBookingResponse (← p))

theorem presents_raise (e : Exc) :
    Presents (next settings args) (finish (.raise e)) (rollback e) :=
  presents_rollback e

theorem presents_response (b : LoadedBooking) :
    Presents (next settings args) (finish (.ret b)) (response b) := by
  refine .call rfl ?_
  rintro (e | seats)
  · exact presents_rollback e
  · show Presents _ (getDb (.ofExcept (bookingResponse b seats))) _
    simp only
    cases bookingResponse b seats with
    | error e => exact presents_rollback e
    | ok r =>
      refine .call rfl ?_
      rintro (e | _)
      · exact presents_rollback e
      · exact .ret rfl

/-- The rest of the request from inside the `try` block. -/
private def locked (args : CreateArgs) (p : App LoadedBooking) : App BookingResponse :=
  finish (p.tryFinally (do let _ ← releaseLock args.lockKey args.token.text))

theorem presents_release (outcome : Except Exc LoadedBooking) :
    Presents (next settings args) (locked args (.ofExcept outcome)) (release outcome) := by
  cases outcome with
  | error e =>
    refine .call rfl ?_
    rintro (e' | _)
    · exact presents_raise e'
    · exact presents_raise e
  | ok b =>
    refine .call rfl ?_
    rintro (e' | _)
    · exact presents_raise e'
    · exact presents_response b

theorem presents_locked_raise (e : Exc) :
    Presents (next settings args) (locked args (.raise e)) (release (.error e)) :=
  presents_release (.error e)

variable {hall : Hall} {user : User} {price : Decimal}

theorem presents_send (booking : Booking) (bookingSeats : List BookingSeat) :
    Presents (next settings args)
      (locked args (do
        sendBookingEvent (args.event hall user price booking.id)
        return ⟨booking, some hall, bookingSeats⟩))
      (send hall user price booking bookingSeats) := by
  refine .call rfl ?_
  rintro (e | _)
  · exact presents_locked_raise e
  · exact presents_release (.ok _)

theorem presents_recheck :
    Presents (next settings args)
      (locked args (createBookingLocked hall user args.userId args.hallId args.seatIds
        args.startTime args.endTime)) (recheck hall user) := by
  refine .call rfl ?_
  rintro (e | seats)
  · exact presents_locked_raise e
  by_cases hs : seats ≠ []
  · simp only [Program.ret_bind, ne_eq, hs, not_false_eq_true, if_true]
    exact presents_locked_raise _
  simp only [Program.ret_bind, Program.pure_eq, hs, if_false]
  cases args.endTime.sub args.startTime with
  | error e => exact presents_locked_raise e
  | ok duration =>
    refine .call rfl ?_
    rintro (e | bookingId)
    · exact presents_locked_raise e
    refine .call rfl ?_
    rintro (e | _)
    · exact presents_locked_raise e
    refine .call rfl ?_
    rintro (e | _ | _)
    · exact presents_locked_raise e
    · exact presents_locked_raise _
    refine .call rfl ?_
    rintro (e | _ | ⟨booking, bookingSeats⟩)
    · exact presents_locked_raise e
    · exact presents_locked_raise _
    · exact presents_send booking bookingSeats

/-- **The control points of `POST /bookings`** make up the program inside `get_db`. -/
theorem presents (settings : Settings) (args : CreateArgs) :
    Presents (next settings args) (getDb (args.program settings)) load := by
  refine .call rfl ?_
  rintro (e | session)
  · exact presents_rollback e
  refine .call rfl ?_
  rintro (e | _ | hall)
  · exact presents_rollback e
  · exact presents_rollback _
  refine .call rfl ?_
  rintro (e | _ | row)
  · exact presents_rollback e
  · exact presents_rollback _
  simp only [Program.ret_bind]
  cases validateTimeSlot settings args.startTime args.endTime with
  | error e => exact presents_rollback e
  | ok =>
    refine .call rfl ?_
    rintro (e | seats)
    · exact presents_rollback e
    by_cases hs : seats.length ≠ args.seatIds.length
    · simp only [Program.ret_bind, ne_eq, hs, not_false_eq_true, if_true]
      exact presents_rollback _
    simp only [Program.ret_bind, Program.pure_eq, hs, if_false]
    refine .call rfl ?_
    rintro (e | seats)
    · exact presents_rollback e
    by_cases hs : seats ≠ []
    · simp only [Program.ret_bind, ne_eq, hs, not_false_eq_true, if_true]
      exact presents_rollback _
    simp only [Program.ret_bind, Program.pure_eq, hs, if_false]
    refine .call rfl ?_
    rintro (e | _ | _)
    · exact presents_rollback e
    · exact presents_rollback _
    · exact presents_recheck

end CreatePc

end BookingApi
