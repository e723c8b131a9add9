import BookingApi.BookingService.CreateBooking
import BookingApi.Models.Writes

/-!
# The answer about a booking

`build_booking_response` looks every seat of the booking up among the rows of its query.
`exists_bookingResponse`: this never fails if every seat has a row.  `bookingResponse_of_grows`: as
no row is ever lost, the answer about a booking stays the same, up to the name of the hall and the
status.
-/

namespace BookingApi.BookingService

variable {db db' : Db} {b b' : LoadedBooking} {a : BookingResponse}

/-- The seat of a booking is looked up among all seats. -/
theorem find?_selectSeatsOf {bs : BookingSeat} (h : bs ∈ b.bookingSeats) :
    ((selectSeatsOf b db).find? fun s => s.id = bs.seatId) = db.seats.find? bs.seatId := by
  have hmem : bs.seatId ∈ b.bookingSeats.map BookingSeat.seatId := List.mem_map_of_mem h
  rw [selectSeatsOf, List.find?_filter, Table.find?]
  congr 1
  funext s
  by_cases hid : s.id = bs.seatId
  · simp only [hid, hmem, key_seat, decide_true, and_self]
  · simp only [hid, key_seat, decide_false, Bool.false_eq_true, and_false]

/-- The lookup `seats[bs.seat_id]` succeeds if every seat has a row. -/
theorem exists_seatResponses (h : ∀ bs ∈ b.bookingSeats, ∃ s ∈ db.seats.rows, s.id = bs.seatId)
    {rows : List BookingSeat} (hsub : rows ⊆ b.bookingSeats) :
    ∃ items, seatResponses (selectSeatsOf b db) rows = .ok items := by
  induction rows with
  | nil => exact ⟨[], rfl⟩
  | cons bs rows ih =>
    obtain ⟨items, hitems⟩ := ih fun x hx => hsub (List.mem_cons_of_mem _ hx)
    have hbs : bs ∈ b.bookingSeats := hsub (List.mem_cons_self ..)
    obtain ⟨s, hs, hid⟩ := h bs hbs
    rw [seatResponses, find?_selectSeatsOf hbs, Table.find?_eq_some_iff.mpr ⟨hs, hid⟩, hitems]
    exact ⟨_, rfl⟩

theorem exists_bookingResponse
    (h : ∀ bs ∈ b.bookingSeats, ∃ s ∈ db.seats.rows, s.id = bs.seatId) :
    ∃ a, bookingResponse b (selectSeatsOf b db) = .ok a := by
  obtain ⟨items, hitems⟩ := exists_seatResponses h (List.Subset.refl _)
  exact ⟨_, by rw [bookingResponse, hitems]; rfl⟩

/-- The parts of an answer. -/
theorem bookingResponse_eq_ok {seats : List Seat} (h : bookingResponse b seats = .ok a) :
    ∃ items, seatResponses seats b.bookingSeats = .ok items ∧
      a = ⟨b.booking.id, b.booking.userId, b.booking.hallId,
        (b.hall.map Hall.name).getD "Unknown", items, b.booking.startTime, b.booking.endTime,
        b.booking.totalPrice, b.booking.status, b.booking.createdAt⟩ := by
  rw [bookingResponse] at h
  cases hitems : seatResponses seats b.bookingSeats with
  | error e => rw [hitems] at h; cases h
  | ok items => rw [hitems] at h; exact ⟨items, rfl, (Except.ok.inj h).symm⟩

/-- The answer is about the booking it is built from. -/
theorem id_of_bookingResponse {seats : List Seat} (h : bookingResponse b seats = .ok a) :
    a.id = b.booking.id := by
  obtain ⟨items, -, rfl⟩ := bookingResponse_eq_ok h
  rfl

/-- The items of an answer are the seats of the booking, each with the place of its row. -/
theorem seatResponses_eq_ok {bs : BookingSeat} {rows : List BookingSeat} {seats : List Seat}
    {items : List BookingSeatResponse} (h : seatResponses seats (bs :: rows) = .ok items) :
    ∃ s rest, (seats.find? fun s => s.id = bs.seatId) = some s ∧
      seatResponses seats rows = .ok rest ∧ items = ⟨bs.seatId, s.row, s.number⟩ :: rest := by
  rw [seatResponses] at h
  cases hs : seats.find? fun s => s.id = bs.seatId with
  | none => rw [hs] at h; cases h
  | some s =>
    cases hrest : seatResponses seats rows with
    | error e => rw [hs, hrest] at h; cases h
    | ok rest => rw [hs, hrest] at h; exact ⟨s, rest, rfl, rfl, (Except.ok.inj h).symm⟩

theorem seatResponses_spec {rows : List BookingSeat} {seats : List Seat}
    {items : List BookingSeatResponse} (h : seatResponses seats rows = .ok items) :
    items.map BookingSeatResponse.id = rows.map BookingSeat.seatId ∧
      ∀ item ∈ items, ∃ s ∈ seats, s.id = item.id ∧ s.row = item.row ∧ s.number = item.number := by
  induction rows generalizing items with
  | nil =>
    obtain rfl := Except.ok.inj h
    exact ⟨rfl, fun _ h => absurd h List.not_mem_nil⟩
  | cons bs rows ih =>
    obtain ⟨s, rest, hs, hrest, rfl⟩ := seatResponses_eq_ok h
    obtain ⟨hids, hplaces⟩ := ih hrest
    refine ⟨by rw [List.map_cons, List.map_cons, hids], fun item hitem => ?_⟩
    rcases List.mem_cons.mp hitem with rfl | hitem
    · exact ⟨s, List.mem_of_find?_eq_some hs, by simpa using List.find?_some hs, rfl, rfl⟩
    · exact hplaces item hitem

/-! ### Answers in a later state of the tables -/

/-- The place of a seat stays. -/
theorem exists_find?_of_grows (hgrows : db.Grows db') {id : ℤ} {s : Seat}
    (hs : db.seats.find? id = some s) :
    ∃ s', db'.seats.find? id = some s' ∧ s'.place = s.place := by
  obtain ⟨hmem, hid⟩ := Table.find?_eq_some_iff.mp hs
  obtain ⟨s', hs', hplace⟩ := Table.exists_of_map_subset hgrows.seats hmem
  exact ⟨s', Table.find?_eq_some_iff.mpr ⟨hs', (Seat.id_eq_of_place hplace).trans hid⟩, hplace⟩

theorem seatResponses_of_grows (hgrows : db.Grows db') (hseats : b'.bookingSeats = b.bookingSeats)
    {rows : List BookingSeat} (hsub : rows ⊆ b.bookingSeats) {items : List BookingSeatResponse}
    (h : seatResponses (selectSeatsOf b db) rows = .ok items) :
    seatResponses (selectSeatsOf b' db') rows = .ok items := by
  induction rows generalizing items with
  | nil => exact h
  | cons bs rows ih =>
    have hbs : bs ∈ b.bookingSeats := hsub (List.mem_cons_self ..)
    obtain ⟨s, rest, hs, hrest, rfl⟩ := seatResponses_eq_ok h
    rw [find?_selectSeatsOf hbs] at hs
    obtain ⟨s', hs', hplace⟩ := exists_find?_of_grows hgrows hs
    have hrow : s'.row = s.row := congrArg (·.2.2.1) hplace
    have hnumber : s'.number = s.number := congrArg (·.2.2.2) hplace
    rw [seatResponses, find?_selectSeatsOf (hseats ▸ hbs), hs', ← hrow, ← hnumber,
      ih (fun x hx => hsub (List.mem_cons_of_mem _ hx)) hrest]
    rfl

/-- **An answer stays** as it is, up to the name of the hall and the status, while the booking keeps
its terms and its seats. -/
theorem bookingResponse_of_grows (b' : LoadedBooking) (hgrows : db.Grows db')
    (hseats : b'.bookingSeats = b.bookingSeats) (hterms : b'.booking.terms = b.booking.terms)
    (h : bookingResponse b (selectSeatsOf b db) = .ok a) :
    bookingResponse b' (selectSeatsOf b' db') = .ok { a with
      hallName := (b'.hall.map Hall.name).getD "Unknown", status := b'.booking.status } := by
  obtain ⟨items, hitems, rfl⟩ := bookingResponse_eq_ok h
  obtain ⟨h1, h2, h3, h4, h5, h6, h7⟩ : b'.booking.id = b.booking.id ∧
      b'.booking.userId = b.booking.userId ∧ b'.booking.hallId = b.booking.hallId ∧
      b'.booking.startTime = b.booking.startTime ∧ b'.booking.endTime = b.booking.endTime ∧
      b'.booking.totalPrice = b.booking.totalPrice ∧
      b'.booking.createdAt = b.booking.createdAt := by simpa [Booking.terms] using hterms
  rw [bookingResponse, hseats, seatResponses_of_grows hgrows hseats (List.Subset.refl _) hitems]
  simp only [Except.map, h1, h2, h3, h4, h5, h6, h7]

end BookingApi.BookingService
