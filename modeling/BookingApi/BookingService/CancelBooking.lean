import BookingApi.BookingService.CreateBooking

/-!
# Cancelling and reading a booking

`cancel_booking` and `get_booking_by_id` of `app/services/booking_service.py`, and the routes
`DELETE /bookings/:id` and `GET /bookings/:id`.
-/

namespace BookingApi.BookingService

open Async

/-- The rows of `select(Booking).options(selectinload(Booking.user), selectinload(Booking.hall))`
with the given id. -/
def selectBookingWithOwner (bookingId : ℤ) (db : Db) :
    Option (Booking × Option User × Option Hall) :=
  (db.bookings.find? bookingId).map fun b => (b, db.users.find? b.userId, db.halls.find? b.hallId)

/-- The `UPDATE` of a booking whose status was set: it does not test the old status. -/
def updateBookingStatus (bookingId : ℤ) (status : BookingStatus) : Statement Unit :=
  fun _ seqs _ => (.ok ((), [.updateBooking bookingId status]), seqs)

def cancelBooking (session : Session) (bookingId userId : ℤ) : App Booking := do
  match ← execute (selectBookingWithOwner bookingId) with
  | none => .raise .bookingNotFound
  | some (row, owner, hall) =>
    -- the objects of the session, as they were loaded with the authenticated user
    let booking := session.booking row
    let user := owner.map session.user
    if booking.userId ≠ userId then
      -- the booking of another user is not found, with a detail of its own
      .raise (.bookingNotFoundError "Booking not found")
    else if booking.status = .cancelled then
      .raise (.bookingConflictError "Booking already cancelled")
    else
      -- the names of before the flush
      let userEmail := (user.map User.email).getD ""
      let hallName := (hall.map Hall.name).getD "Unknown"
      flush (updateBookingStatus booking.id .cancelled)
      match ← execute fun db => db.bookings.find? booking.id with
      | none => .raise .noResultFound
      | some booking =>
        sendBookingEvent (.bookingCancelled booking.id userId userEmail hallName)
        return booking

/-- The route `DELETE /bookings/:id`, which answers without content. -/
def cancelBookingRoute (session : Session) (bookingId userId : ℤ) : App Unit := do
  let _ ← cancelBooking session bookingId userId

def getBookingById (session : Session) (bookingId : ℤ) (userId : Option ℤ) :
    App LoadedBooking := do
  let row ← execute fun db =>
    (db.bookings.rows.find? fun b =>
      b.id = bookingId ∧ (userId = none ∨ userId = some b.userId)).map
      fun b => (⟨session.booking b, db.halls.find? b.hallId, db.seatsOf b.id⟩ : LoadedBooking)
  match row with
  | none => .raise .bookingNotFound
  | some booking => return booking

/-- The route `GET /bookings/:id`. -/
def getBookingRoute (session : Session) (bookingId userId : ℤ) : App BookingResponse := do
  let booking ← getBookingById session bookingId (some userId)
  buildBookingResponse booking

/-- The route, after the query of `get_current_user`. -/
def showBooking (bookingId userId : ℤ) : App BookingResponse :=
  withSession userId fun session => getBookingRoute session bookingId userId

/-! ### The operations of the routes -/

theorem concerns_updateBookingStatus (bookingId : ℤ) (status : BookingStatus) :
    Concerns [.bookings] (updateBookingStatus bookingId status) := by
  refine ⟨fun _ _ _ _ _ => rfl, fun now seqs db b ws h x hx => ?_⟩
  obtain ⟨-, rfl⟩ := Prod.mk.inj (Except.ok.inj h)
  rw [List.mem_singleton.mp hx]
  exact List.mem_singleton_self _

section

variable {P : ∀ β : Type, Op β → Prop} (hP : AllowsQueries P)
include hP

theorem uses_cancelBookingRoute {session : Session} {bookingId userId : ℤ}
    (hupdate : ∀ id, P _ (.flush (updateBookingStatus id .cancelled)))
    (hsend : ∀ event, P _ (.send event)) :
    (cancelBookingRoute session bookingId userId).Uses P := by
  refine .bind (.bind (uses_execute hP _) fun row => ?_) fun _ => trivial
  rcases row with _ | ⟨row, owner, hall⟩
  · trivial
  show Program.Uses _ (if _ then _ else if _ then _ else _)
  split_ifs
  · trivial
  · trivial
  · refine .bind (uses_flush (hupdate _)) fun _ => .bind (uses_execute hP _) fun row => ?_
    cases row with
    | none => trivial
    | some _ => exact .bind (Program.uses_perform (hsend _)) fun _ => trivial

theorem uses_getBookingRoute (session : Session) (bookingId userId : ℤ) :
    (getBookingRoute session bookingId userId).Uses P :=
  .bind (.bind (uses_execute hP _) fun row => by cases row <;> trivial)
    (uses_buildBookingResponse hP)

end

end BookingApi.BookingService
