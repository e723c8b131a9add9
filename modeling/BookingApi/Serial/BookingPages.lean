import BookingApi.BookingService.LatestFirst
import BookingApi.Serial.Occupancy

/-!
# A user's bookings, page by page

The pages of `GET /bookings` are cut out of lists that may differ in the order of bookings with
equal `created_at`.  `alwaysListsOnce_iff`: exactly if no such bookings stand on two pages, the
pages together contain every booking once in every order, the latest first.
`not_alwaysListsOnce_twins`: two bookings with one `created_at` and a page size of 1.
-/

namespace BookingApi.Serial

open Async BookingService Paging

variable {db : Db} {userId pageSize : ℤ} {w : ℤ → World} {r : ℤ → RequestId}

/-- The pages contain every booking once, the latest first, and there is nothing after them. -/
structure ListsOnce (rows : List Booking) (pages : ℤ) (items : ℤ → List BookingResponse) :
    Prop where
  perm : ((allItems pages items).map BookingResponse.booking).Perm rows
  latestFirst : (allItems pages items).Pairwise fun a a' => a'.createdAt ≤ a.createdAt
  beyond : ∀ page, 1 ≤ page → pages < page → items page = []

/-- The answers to the requests for the pages of a user's bookings, each of them in an order of its
own. -/
def bookingPages (orders : ℤ → LatestFirst) (userId pageSize : ℤ) (w : ℤ → World)
    (r : ℤ → RequestId) (page : ℤ) : Except Exc (PaginatedResponse BookingResponse) :=
  (serve (r page) (withSession userId fun session =>
    listBookingsPage (orders page) session userId page pageSize) (w page)).1

/-- In whatever orders, the pages are answered and contain every booking of the user once. -/
def AlwaysListsOnce (db : Db) (userId pageSize : ℤ) (w : ℤ → World) (r : ℤ → RequestId) : Prop :=
  ∀ orders : ℤ → LatestFirst, ∃ pages items,
    Answered (bookingPages orders userId pageSize w r) pages items ∧
      ListsOnce (selectBookingsOf userId db) pages items

/-! ### The answers -/

section

variable (hstored : SeatsStored db) (hsize : 1 ≤ pageSize)
  (hidle : ∀ page, (w page).writesOf (r page) = []) (hdb : ∀ page, (w page).db = db)

include hstored hsize hidle hdb

/-- The items are about the rows of the pages. -/
theorem exists_answered (orders : ℤ → LatestFirst) (userId : ℤ) :
    ∃ items, Answered (bookingPages orders userId pageSize w r)
        (count (selectBookingsOf userId db).length pageSize.toNat) items ∧
      ∀ page, 1 ≤ page → (items page).map BookingResponse.booking
        = userBookingRows (orders page) userId pageSize page db := by
  have hpage (page : ℤ) : ∃ items, 1 ≤ page →
      bookingPages orders userId pageSize w r page
          = .ok (.create items (selectBookingsOf userId db).length page pageSize) ∧
        items.map BookingResponse.booking
          = userBookingRows (orders page) userId pageSize page db := by
    by_cases h : 1 ≤ page
    · have hview : (w page).view (r page) = db := by
        rw [World.view_of_writesOf_nil (hidle page), hdb page]
      obtain ⟨items, hrun, hitems⟩ := exists_listBookingsPage (w := w page) (r := r page) h hsize
        (by rwa [hview]) (orders page) userId
      rw [hview] at hrun hitems
      refine ⟨items, fun _ => ⟨?_, hitems⟩⟩
      rw [bookingPages, serve_withSession (hidle page), serve_fst, hdb page, hrun]
    · exact ⟨[], fun hpos => absurd hpos h⟩
  choose items hitems using hpage
  refine ⟨items, fun page h => ⟨_, (hitems page h).1, pages_create _ _ _ hsize, rfl⟩, ?_⟩
  exact fun page h => (hitems page h).2

end

section

variable {items : ℤ → List BookingResponse} {orders : ℤ → LatestFirst}
  (hitems : ∀ page, 1 ≤ page → (items page).map BookingResponse.booking
    = userBookingRows (orders page) userId pageSize page db)

include hitems

/-- The bookings on all pages. -/
theorem map_allItems (n : ℕ) :
    (allItems n items).map BookingResponse.booking = (List.range n).flatMap fun k =>
      page pageSize.toNat k ((orders (k + 1)).order (selectBookingsOf userId db)) := by
  rw [allItems_eq_flatMap (fun _ => rfl), List.map_flatMap]
  refine List.flatMap_congr fun k _ => ?_
  rw [hitems (k + 1) (by omega), userBookingRows, Int.add_sub_cancel, Int.toNat_natCast]

/-- There is nothing after the last page, in whatever order. -/
theorem items_eq_nil (hsize : 1 ≤ pageSize) {page : ℤ} (hpage : 1 ≤ page)
    (hlast : count (selectBookingsOf userId db).length pageSize.toNat < page) :
    items page = [] := by
  have hlength : ((orders page).order (selectBookingsOf userId db)).length
      = (selectBookingsOf userId db).length := ((orders page).perm _).length_eq
  have hnil : userBookingRows (orders page) userId pageSize page db = [] := by
    rw [userBookingRows, page_eq_nil_iff (by omega), hlength]
    omega
  rw [← List.map_eq_nil_iff (f := BookingResponse.booking), hitems page hpage, hnil]

theorem listsOnce_of_ties (hsize : 1 ≤ pageSize)
    (hties : TiesOnOnePage Booking.createdAt pageSize.toNat (selectBookingsOf userId db)) :
    ListsOnce (selectBookingsOf userId db)
      (count (selectBookingsOf userId db).length pageSize.toNat) items where
  perm := by
    rw [map_allItems hitems]
    exact flatMap_page_perm (by omega) (fun k => (orders (k + 1)).perm _)
      (fun k => (orders (k + 1)).descending _) hties
  latestFirst := by
    have hdesc := flatMap_page_descending (by omega) (fun k => (orders (k + 1)).perm _)
      (fun k => (orders (k + 1)).descending _) hties
      (count (selectBookingsOf userId db).length pageSize.toNat)
    rw [← map_allItems hitems] at hdesc
    exact List.pairwise_map.mp hdesc
  beyond _ hpage hlast := items_eq_nil hitems hsize hpage hlast

end

/-! ### Ties on one page, or on two -/

theorem nodup_selectBookingsOf (userId : ℤ) (db : Db) : (selectBookingsOf userId db).Nodup :=
  (List.Nodup.of_map _ db.bookings.nodup).filter _

section

variable (hstored : SeatsStored db) (hsize : 1 ≤ pageSize)
  (hidle : ∀ page, (w page).writesOf (r page) = []) (hdb : ∀ page, (w page).db = db)

include hstored hsize hidle hdb

theorem alwaysListsOnce_of_ties
    (hties : TiesOnOnePage Booking.createdAt pageSize.toNat (selectBookingsOf userId db)) :
    AlwaysListsOnce db userId pageSize w r := by
  intro orders
  obtain ⟨items, hanswered, hitems⟩ := exists_answered hstored hsize hidle hdb orders userId
  exact ⟨_, items, hanswered, listsOnce_of_ties hitems hsize hties⟩

/-- Whatever lists the pages are cut out of, an order for each page returns them, so that the pages
repeat nothing. -/
theorem ties_of_alwaysListsOnce (h : AlwaysListsOnce db userId pageSize w r) :
    TiesOnOnePage Booking.createdAt pageSize.toNat (selectBookingsOf userId db) := by
  have hstable := LatestFirst.stable.perm (selectBookingsOf userId db)
  refine (tiesOnOnePage_congr hstable).mp (tiesOnOnePage_of_nodup (by omega)
    (LatestFirst.stable.descending _) fun lists hperm hdesc => ?_)
  -- the query for the page with number `k` returns the list with number `k`
  let orders (page : ℤ) : LatestFirst := .returning (selectBookingsOf userId db)
    (lists (page - 1).toNat) ((hperm _).trans hstable) (hdesc _)
  have horder (k : ℕ) : (orders (k + 1)).order (selectBookingsOf userId db) = lists k := by
    rw [LatestFirst.order_returning, Int.add_sub_cancel, Int.toNat_natCast]
  obtain ⟨items, hanswered, hitems⟩ := exists_answered hstored hsize hidle hdb orders userId
  obtain ⟨pages, items', hanswered', honce⟩ := h orders
  have hnodup := honce.perm.nodup_iff.mpr (nodup_selectBookingsOf userId db)
  rw [hanswered'.allItems_eq hanswered, map_allItems hitems] at hnodup
  simpa only [horder, hstable.length_eq] using hnodup

end

/-- **Paging through one's bookings** loses and repeats nothing in any order, exactly if bookings
with equal `created_at` never stand on two pages. -/
theorem alwaysListsOnce_iff (hstored : SeatsStored db) (hsize : 1 ≤ pageSize)
    (hidle : ∀ page, (w page).writesOf (r page) = []) (hdb : ∀ page, (w page).db = db) :
    AlwaysListsOnce db userId pageSize w r ↔
      TiesOnOnePage Booking.createdAt pageSize.toNat (selectBookingsOf userId db) :=
  ⟨ties_of_alwaysListsOnce hstored hsize hidle hdb,
    alwaysListsOnce_of_ties hstored hsize hidle hdb⟩

/-! ### Two bookings -/

theorem seatsStored_run (settings : Settings) (moves : List Move) :
    SeatsStored (run settings moves).db := by
  intro bs hbs
  obtain ⟨b, -, -, s, hs, hid, -⟩ := (sound_run moves).linked bs hbs
  exact ⟨s, hs, hid⟩

namespace Scenario

open Concurrent.Scenario (booking)

/-- Two bookings of one user within the resolution of the clock. -/
def twins : List Move :=
  .serve (.createBooking { booking with seatIds := [2] }) :: .serve (.createBooking booking) ::
    installation

/-- The second booking is made a microsecond later. -/
def oneByOne : List Move :=
  .serve (.createBooking { booking with seatIds := [2] }) :: .env (.tick 1) ::
    .serve (.createBooking booking) :: installation

end Scenario

open Scenario

theorem alwaysListsOnce_oneByOne :
    AlwaysListsOnce (run BookingApi.settings oneByOne).db 1 1
      (fun _ => run BookingApi.settings oneByOne) fun _ => 0 :=
  (alwaysListsOnce_iff (seatsStored_run _ _) le_rfl (fun _ => writesOf_run _ _) fun _ => rfl).mpr
    (by decide +kernel)

/-- One booking may be on both pages, and the other one on none. -/
theorem not_alwaysListsOnce_twins :
    ¬ AlwaysListsOnce (run BookingApi.settings twins).db 1 1
      (fun _ => run BookingApi.settings twins) fun _ => 0 := by
  intro h
  have hties := ties_of_alwaysListsOnce (seatsStored_run _ _) le_rfl (fun _ => writesOf_run _ _)
    (fun _ => rfl) h
  have hnot : ¬ TiesOnOnePage Booking.createdAt 1
      (selectBookingsOf 1 (run BookingApi.settings twins).db) := by decide +kernel
  exact hnot hties

end BookingApi.Serial
