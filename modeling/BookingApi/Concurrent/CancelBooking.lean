import BookingApi.Async.Interleaving
import BookingApi.BookingService.CancelBooking

/-!
# The control points of `DELETE /bookings/:id`

A request that cancels a booking, cut at its awaits, and the theorem that these are the awaits of
the program `getDb (cancelBookingRoute ...)`.
-/

namespace BookingApi

open Async BookingService

/-- The inputs of `DELETE /bookings/:id`, and the id of the authenticated user. -/
structure CancelArgs where
  bookingId : ℤ
  userId : ℤ
deriving DecidableEq

def CancelArgs.program (args : CancelArgs) : App Unit :=
  withSession args.userId fun session => cancelBookingRoute session args.bookingId args.userId

/-- The exception for a booking that is cancelled already. -/
def alreadyCancelled : Exc := .bookingConflictError "Booking already cancelled"

/-- Where a request that cancels a booking stands. -/
inductive CancelPc
  /-- Before the query of `get_current_user`. -/
  | load
  | select (session : Session)
  /-- Before the `UPDATE`: the booking was read as confirmed. -/
  | flush (booking : Booking) (userEmail hallName : String)
  | refresh (booking : Booking) (userEmail hallName : String)
  | send (booking : Booking) (userEmail hallName : String)
  | commit
  | rollback (e : Exc)
  | done (result : Except Exc Unit)
deriving DecidableEq

namespace CancelPc

/-- What the request awaits, and where it goes with the outcome. -/
def next (args : CancelArgs) : CancelPc → Await Op Exc Unit CancelPc
  | load => .call (.execute (Session.load args.userId)) fun
    | .error e => rollback e
    | .ok session => select session
  | select session => .call (.execute (selectBookingWithOwner args.bookingId)) fun
    | .error e => rollback e
    | .ok none => rollback .bookingNotFound
    | .ok (some (row, owner, hall)) =>
      let booking := session.booking row
      let user := owner.map session.user
      if booking.userId ≠ args.userId then rollback (.bookingNotFoundError "Booking not found")
      else if booking.status = .cancelled then rollback alreadyCancelled
      else flush booking ((user.map User.email).getD "") ((hall.map Hall.name).getD "Unknown")
  | flush booking userEmail hallName =>
    .call (.flush (updateBookingStatus booking.id .cancelled)) fun
    | .error e => rollback e
    | .ok _ => refresh booking userEmail hallName
  | refresh booking userEmail hallName =>
    .call (.execute fun db => db.bookings.find? booking.id) fun
    | .error e => rollback e
    | .ok none => rollback .noResultFound
    | .ok (some booking) => send booking userEmail hallName
  | send booking userEmail hallName =>
    .call (.send (.bookingCancelled booking.id args.userId userEmail hallName)) fun
    | .error e => rollback e
    | .ok _ => commit
  | commit => .call .commit fun
    | .error e => rollback e
    | .ok _ => done (.ok ())
  | rollback e => .call .rollback fun
    | .error e' => done (.error e')
    | .ok _ => done (.error e)
  | done result => .ended result

/-! ### The machine is the program -/

variable {args : CancelArgs}

theorem presents_rollback (e : Exc) :
    Presents (next args) (do Program.perform .rollback; Program.raise e : App Unit)
      (rollback e) := by
  refine .call rfl ?_
  rintro (e' | _)
  · exact .raise rfl
  · exact .raise rfl

/-- **The control points of `DELETE /bookings/:id`** make up the program inside `get_db`. -/
theorem presents (args : CancelArgs) : Presents (next args) (getDb args.program) load := by
  refine .call rfl ?_
  rintro (e | session)
  · exact presents_rollback e
  refine .call rfl ?_
  rintro (e | _ | ⟨row, owner, hall⟩)
  · exact presents_rollback e
  · exact presents_rollback _
  by_cases hu : (session.booking row).userId ≠ args.userId
  · simp only [Program.ret_bind, ne_eq, hu, not_false_eq_true, if_true]
    exact presents_rollback _
  by_cases hc : (session.booking row).status = .cancelled
  · simp only [Program.ret_bind, hu, hc, if_false, if_true]
    exact presents_rollback _
  simp only [Program.ret_bind, hu, hc, if_false]
  refine .call rfl ?_
  rintro (e | _)
  · exact presents_rollback e
  refine .call rfl ?_
  rintro (e | _ | booking)
  · exact presents_rollback e
  · exact presents_rollback _
  refine .call rfl ?_
  rintro (e | _)
  · exact presents_rollback e
  refine .call rfl ?_
  rintro (e | _)
  · exact presents_rollback e
  · exact .ret rfl

end CancelPc

end BookingApi
