import BookingApi.BookingService.Response
import BookingApi.BookingService.UserBookings
import BookingApi.Paging.Ties
import BookingApi.Schemas.Pages
import BookingApi.World.Handler
import Mathlib.Data.List.Sort

/-!
# The order of a user's bookings

`get_user_bookings` orders its rows by `created_at` alone, and the database may return bookings with
equal `created_at` in any order, in each query in another one.  `LatestFirst` is such an order, and
`listBookingsPage` is the route `GET /bookings` with the order that its query happens to use; the
stable one gives `listBookingsRoute`.
-/

namespace BookingApi.BookingService

open Async Paging

/-- An order in which a query may return rows that it orders by `created_at DESC`. -/
structure LatestFirst where
  order : List Booking → List Booking
  perm : ∀ rows, (order rows).Perm rows
  descending : ∀ rows, Descending Booking.createdAt (order rows)

namespace LatestFirst

/-- Bookings with equal `created_at` keep the order in which they are stored. -/
def stable : LatestFirst where
  order rows := rows.mergeSort fun b b' => b.createdAt ≥ b'.createdAt
  perm rows := List.mergeSort_perm rows _
  descending rows := List.pairwise_mergeSort' (Order.Preimage Booking.createdAt (· ≥ ·)) rows

/-- An order with a given answer for a list of rows. -/
def returning (rows answer : List Booking) (hperm : answer.Perm rows)
    (hdesc : Descending Booking.createdAt answer) : LatestFirst where
  order l := if l = rows then answer else stable.order l
  perm l := by
    split_ifs with h
    · rw [h]
      exact hperm
    · exact stable.perm l
  descending l := by
    split_ifs
    · exact hdesc
    · exact stable.descending l

theorem order_returning {rows answer : List Booking} (hperm : answer.Perm rows)
    (hdesc : Descending Booking.createdAt answer) :
    (returning rows answer hperm hdesc).order rows = answer :=
  if_pos rfl

end LatestFirst

/-! ### The service and the route -/

/-- A page of the bookings, in an order with the latest first. -/
def selectUserBookingsIn (o : LatestFirst) (session : Session) (userId offset limit : ℤ)
    (db : Db) : Except Exc (List LoadedBooking) :=
  (limitOffset offset limit (o.order (selectBookingsOf userId db))).map
    fun bookings => bookings.map fun b =>
      ⟨session.booking b, db.halls.find? b.hallId, db.seatsOf b.id⟩

def getUserBookingsIn (o : LatestFirst) (session : Session) (userId page pageSize : ℤ) :
    App (List LoadedBooking × ℤ) := do
  let offset := (page - 1) * pageSize
  let total ← execute fun db => (selectBookingsOf userId db).length
  let result ← execute (selectUserBookingsIn o session userId offset pageSize)
  let bookings ← .ofExcept result
  return (bookings, total)

/-- The route `GET /bookings` for any two numbers. -/
def listBookingsPage (o : LatestFirst) (session : Session) (userId page pageSize : ℤ) :
    App (PaginatedResponse BookingResponse) := do
  let (bookings, total) ← getUserBookingsIn o session userId page pageSize
  let items ← buildBookingResponses bookings
  return .create items total page pageSize

theorem listBookingsRoute_eq (session : Session) (userId : ℤ) (pagination : PaginationParams) :
    listBookingsRoute session userId pagination
      = listBookingsPage .stable session userId pagination.page pagination.pageSize := rfl

/-! ### The items -/

/-- The row that an item is about. -/
def BookingResponse.booking (a : BookingResponse) : Booking :=
  ⟨a.id, a.userId, a.hallId, a.startTime, a.endTime, a.totalPrice, a.status, a.createdAt⟩

theorem booking_of_bookingResponse {b : LoadedBooking} {seats : List Seat} {a : BookingResponse}
    (h : bookingResponse b seats = .ok a) : a.booking = b.booking := by
  obtain ⟨items, -, rfl⟩ := bookingResponse_eq_ok h
  rfl

/-- The foreign key of `booking_seats.seat_id`. -/
def SeatsStored (db : Db) : Prop :=
  ∀ bs ∈ db.bookingSeats.rows, ∃ s ∈ db.seats.rows, s.id = bs.seatId

variable {r : RequestId} {w : World}

/-- No item fails: the seats of every booking are found. -/
theorem exists_buildBookingResponses (hstored : SeatsStored (w.view r))
    (bookings : List LoadedBooking)
    (hseats : ∀ b ∈ bookings, b.bookingSeats ⊆ (w.view r).bookingSeats.rows) :
    ∃ items, (buildBookingResponses bookings).run (World.exec r) w = (.ok items, w) ∧
      items.map BookingResponse.booking = bookings.map LoadedBooking.booking := by
  induction bookings with
  | nil => exact ⟨[], rfl, rfl⟩
  | cons b bookings ih =>
    obtain ⟨items, hrun, hitems⟩ := ih fun b' hb' => hseats b' (List.mem_cons_of_mem _ hb')
    have hfound (bs : BookingSeat) (hbs : bs ∈ b.bookingSeats) :
        ∃ s ∈ (w.view r).seats.rows, s.id = bs.seatId :=
      hstored bs (hseats b (List.mem_cons_self ..) hbs)
    obtain ⟨a, ha⟩ := exists_bookingResponse hfound
    refine ⟨a :: items, ?_, ?_⟩
    · simp only [buildBookingResponses, buildBookingResponse, Program.bind_eq, Program.pure_eq,
        Program.run_bind, run_execute, ha, Program.ofExcept, Program.run_ret, hrun]
    · rw [List.map_cons, List.map_cons, hitems, booking_of_bookingResponse ha]

/-! ### One page -/

/-- The rows of a page. -/
def userBookingRows (o : LatestFirst) (userId pageSize page : ℤ) (db : Db) : List Booking :=
  Paging.page pageSize.toNat (page - 1).toNat (o.order (selectBookingsOf userId db))

theorem selectUserBookingsIn_eq {page pageSize : ℤ} (hpage : 1 ≤ page) (hsize : 1 ≤ pageSize)
    (o : LatestFirst) (userId : ℤ) (db : Db) :
    selectUserBookingsIn o (.load userId db) userId ((page - 1) * pageSize) pageSize db
      = .ok ((userBookingRows o userId pageSize page db).map fun b =>
          ⟨b, db.halls.find? b.hallId, db.seatsOf b.id⟩) := by
  rw [selectUserBookingsIn, limitOffset_page hpage hsize]
  refine congrArg Except.ok (List.map_congr_left fun b hb => ?_)
  have hrow : b ∈ selectBookingsOf userId db :=
    (o.perm _).mem_iff.mp (List.mem_of_mem_drop (List.mem_of_mem_take hb))
  rw [Session.booking_load (List.mem_of_mem_filter hrow)]

theorem exists_listBookingsPage {page pageSize : ℤ} (hpage : 1 ≤ page) (hsize : 1 ≤ pageSize)
    (hstored : SeatsStored (w.view r)) (o : LatestFirst) (userId : ℤ) :
    ∃ items, (listBookingsPage o (.load userId (w.view r)) userId page pageSize).run
        (World.exec r) w
        = (.ok (.create items (selectBookingsOf userId (w.view r)).length page pageSize), w) ∧
      items.map BookingResponse.booking = userBookingRows o userId pageSize page (w.view r) := by
  have hseats (b : LoadedBooking)
      (hb : b ∈ (userBookingRows o userId pageSize page (w.view r)).map fun b =>
        ⟨b, (w.view r).halls.find? b.hallId, (w.view r).seatsOf b.id⟩) :
      b.bookingSeats ⊆ (w.view r).bookingSeats.rows := by
    obtain ⟨row, -, rfl⟩ := List.mem_map.mp hb
    exact List.filter_sublist.subset
  obtain ⟨items, hrun, hitems⟩ := exists_buildBookingResponses hstored _ hseats
  refine ⟨items, ?_, ?_⟩
  · simp only [listBookingsPage, getUserBookingsIn, Program.bind_eq, Program.pure_eq,
      Program.run_bind, run_execute, selectUserBookingsIn_eq hpage hsize, Program.ofExcept,
      Program.run_ret, hrun]
  · rw [hitems, List.map_map]
    exact List.map_id _

end BookingApi.BookingService
