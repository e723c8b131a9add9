import BookingApi.BookingService.CancelBooking
import BookingApi.Schemas.Common

/-!
# The bookings of a user

`get_user_bookings` of `app/services/booking_service.py` and the route `GET /bookings`.
-/

namespace BookingApi.BookingService

open Async

/-- The rows of `select(Booking).where(Booking.user_id == user_id)`. -/
def selectBookingsOf (userId : ℤ) (db : Db) : List Booking :=
  db.bookings.rows.filter fun b => b.userId = userId

/-- A page of the bookings, the latest first, each with its hall and its seats.  The order is that
of the rows, and the objects are those of the session. -/
def selectUserBookings (session : Session) (userId offset limit : ℤ) (db : Db) :
    Except Exc (List LoadedBooking) :=
  (limitOffset offset limit
    ((selectBookingsOf userId db).mergeSort fun b b' => b.createdAt ≥ b'.createdAt)).map
    fun bookings => bookings.map fun b =>
      ⟨session.booking b, db.halls.find? b.hallId, db.seatsOf b.id⟩

def getUserBookings (session : Session) (userId page pageSize : ℤ) :
    App (List LoadedBooking × ℤ) := do
  let offset := (page - 1) * pageSize
  let total ← execute fun db => (selectBookingsOf userId db).length
  let result ← execute (selectUserBookings session userId offset pageSize)
  let bookings ← .ofExcept result
  return (bookings, total)

/-- `[await build_booking_response(db, b) for b in bookings]`. -/
def buildBookingResponses : List LoadedBooking → App (List BookingResponse)
  | [] => return []
  | b :: bookings => do
    let item ← buildBookingResponse b
    let items ← buildBookingResponses bookings
    return item :: items

/-- The route `GET /bookings`. -/
def listBookingsRoute (session : Session) (userId : ℤ) (pagination : PaginationParams) :
    App (PaginatedResponse BookingResponse) := do
  let (bookings, total) ← getUserBookings session userId pagination.page pagination.pageSize
  let items ← buildBookingResponses bookings
  return .create items total pagination.page pagination.pageSize

/-- The route, after the query of `get_current_user`. -/
def showBookings (userId : ℤ) (pagination : PaginationParams) :
    App (PaginatedResponse BookingResponse) :=
  withSession userId fun session => listBookingsRoute session userId pagination

/-! ### The operations of the route -/

section

variable {P : ∀ β : Type, Op β → Prop} (hP : AllowsQueries P)
include hP

theorem uses_buildBookingResponses (bookings : List LoadedBooking) :
    (buildBookingResponses bookings).Uses P := by
  induction bookings with
  | nil => trivial
  | cons b bookings ih =>
    exact .bind (uses_buildBookingResponse hP b) fun _ => .bind ih fun _ => trivial

theorem uses_listBookingsRoute (session : Session) (userId : ℤ) (pagination : PaginationParams) :
    (listBookingsRoute session userId pagination).Uses P :=
  .bind (.bind (uses_execute hP _) fun _ => .bind (uses_execute hP _) fun _ =>
      .bind (Program.uses_ofExcept _) fun _ => trivial)
    fun p => .bind (uses_buildBookingResponses hP p.1) fun _ => trivial

end

end BookingApi.BookingService
