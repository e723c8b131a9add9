import BookingApi.BookingService.Queries
import BookingApi.Reservation.Basic
import BookingApi.World.Sound

/-!
# The bookings as a ledger

A confirmed booking reserves its seats from its start to its end.  `Db.ledger` is the ledger of
these reservations, and `selectConflictingSeats_eq_nil_iff_ledger` says that the conflict query
returns no row exactly if the request clashes with none of them.  The commit of a new booking enters
its reservation (`ledger_newBooking`), and the commit of a cancellation strikes it out
(`ledger_updateBooking`).
-/

namespace BookingApi

open BookingService

namespace Db

/-- The seats and the interval of a booking. -/
def reservation (db : Db) (b : Booking) : Reservation ℤ Instant :=
  ⟨{s | s ∈ (db.seatsOf b.id).map BookingSeat.seatId}, b.startTime, b.endTime⟩

/-- The reservations of the confirmed bookings. -/
def ledger (db : Db) : Ledger ℤ ℤ Instant := fun id =>
  (db.bookings.find? id).bind fun b =>
    if b.status = .confirmed then some (db.reservation b) else none

variable {db db' : Db}

theorem ledger_eq_some_iff {id : ℤ} {res : Reservation ℤ Instant} :
    db.ledger id = some res ↔ ∃ b ∈ db.bookings.rows, b.id = id ∧ b.status = .confirmed ∧
      res = db.reservation b := by
  rw [ledger, Option.bind_eq_some_iff]
  constructor
  · rintro ⟨b, hb, hres⟩
    obtain ⟨hb, hid⟩ := Table.find?_eq_some_iff.mp hb
    split_ifs at hres with hs
    exact ⟨b, hb, hid, hs, (Option.some.inj hres).symm⟩
  · rintro ⟨b, hb, hid, hs, rfl⟩
    exact ⟨b, Table.find?_eq_some_iff.mpr ⟨hb, hid⟩, if_pos hs⟩

/-- The ledger depends on the two tables of bookings only. -/
theorem ledger_congr (hb : db'.bookings = db.bookings) (hs : db'.bookingSeats = db.bookingSeats) :
    db'.ledger = db.ledger := by
  funext id
  simp only [ledger, reservation, seatsOf, hb, hs]

theorem mem_reservation_seats {b : Booking} {s : ℤ} :
    s ∈ (db.reservation b).seats ↔
      ∃ bs ∈ db.bookingSeats.rows, bs.bookingId = b.id ∧ bs.seatId = s := by
  simp [reservation, seatsOf, and_assoc]

/-- No seat is in two confirmed bookings at the same time. -/
def NoDoubleBooking (db : Db) : Prop :=
  ∀ b ∈ db.bookings.rows, ∀ b' ∈ db.bookings.rows, b ≠ b' → b.status = .confirmed →
    b'.status = .confirmed → ¬ (db.reservation b).Clash (db.reservation b')

theorem noDoubleBooking_iff : db.NoDoubleBooking ↔ db.ledger.ClashFree := by
  constructor
  · intro h id id' res res' hres hres' hne
    obtain ⟨b, hb, rfl, hs, rfl⟩ := ledger_eq_some_iff.mp hres
    obtain ⟨b', hb', rfl, hs', rfl⟩ := ledger_eq_some_iff.mp hres'
    exact h b hb b' hb' (fun he => hne (congrArg Booking.id he)) hs hs'
  · intro h b hb b' hb' hne hs hs'
    refine h b.id b'.id _ _ (ledger_eq_some_iff.mpr ⟨b, hb, rfl, hs, rfl⟩)
      (ledger_eq_some_iff.mpr ⟨b', hb', rfl, hs', rfl⟩) fun hid => hne ?_
    exact Table.eq_of_key_eq hb hb' hid

/-- **The conflict query** for seats of one hall returns no row exactly if the request clashes with
no reservation. -/
theorem selectConflictingSeats_eq_nil_iff_ledger {hallId : ℤ} {seatIds : List ℤ}
    {startTime endTime : Instant}
    (hlinked : ∀ bs ∈ db.bookingSeats.rows, ∃ b ∈ db.bookings.rows,
      World.Linked db.seats.rows b bs)
    (hplaced : ∀ seatId ∈ seatIds, ∃ s ∈ db.seats.rows, s.id = seatId ∧ s.hallId = hallId) :
    selectConflictingSeats hallId seatIds startTime endTime none db = [] ↔
      ∀ id res, db.ledger id = some res → ¬ res.Clash ⟨{s | s ∈ seatIds}, startTime, endTime⟩ := by
  rw [selectConflictingSeats_eq_nil_iff]
  constructor
  · rintro h id res hres ⟨⟨seatId, hseat, hreq⟩, hlt⟩
    obtain ⟨b, hb, rfl, hstatus, rfl⟩ := ledger_eq_some_iff.mp hres
    obtain ⟨bs, hbs, hbid, rfl⟩ := mem_reservation_seats.mp hseat
    obtain ⟨b', hb', hbid', s, hs, hsid, hhall⟩ := hlinked bs hbs
    obtain rfl : b = b' := Table.eq_of_key_eq hb hb' (hbid.symm.trans hbid')
    -- the seat of the booking is the requested one, so the booking is in the hall
    obtain ⟨s', hs', hsid', hhall'⟩ := hplaced bs.seatId hreq
    obtain rfl : s = s' := Table.eq_of_key_eq hs hs' (hsid.trans hsid'.symm)
    exact h s hs (hsid ▸ hreq) bs hbs hsid.symm b hb hbid.symm (hhall.symm.trans hhall') hstatus hlt
  · intro h s hs hreq bs hbs hseat b hb hbid hhall hstatus hlt
    refine h b.id _ (ledger_eq_some_iff.mpr ⟨b, hb, rfl, hstatus, rfl⟩) ⟨⟨s.id, ?_, hreq⟩, hlt⟩
    exact mem_reservation_seats.mpr ⟨bs, hbs, hbid.symm, hseat⟩

/-! ### How the ledger changes -/

/-- A new confirmed booking enters its reservation. -/
theorem ledger_newBooking {b : Booking} {seatIds : List ℤ}
    (hrows : db'.bookings.rows = db.bookings.rows ++ [b])
    (hold : ∀ b' ∈ db.bookings.rows, db'.seatsOf b'.id = db.seatsOf b'.id)
    (hseats : (db'.seatsOf b.id).map BookingSeat.seatId = seatIds)
    (hstatus : b.status = .confirmed) :
    db'.ledger = db.ledger.enter b.id ⟨{s | s ∈ seatIds}, b.startTime, b.endTime⟩ := by
  have hnodup : (db'.bookings.rows.map Keyed.key).Nodup := db'.bookings.nodup
  rw [hrows, List.map_append, List.nodup_append_comm, List.map_singleton,
    List.singleton_append, List.nodup_cons] at hnodup
  funext id
  ext res
  rw [Ledger.enter, ledger_eq_some_iff, hrows]
  by_cases hid : id = b.id
  · subst hid
    rw [Function.update_self, Option.some_inj, eq_comm]
    constructor
    · rintro ⟨b', hb', hid', -, rfl⟩
      rcases List.mem_append.mp hb' with hb' | hb'
      · exact absurd (List.mem_map.mpr ⟨b', hb', hid'⟩) hnodup.1
      · rw [List.mem_singleton.mp hb', reservation, hseats]
    · rintro rfl
      exact ⟨b, List.mem_append_right _ (List.mem_singleton_self b), rfl, hstatus,
        by rw [reservation, hseats]⟩
  · rw [Function.update_of_ne hid, ledger_eq_some_iff]
    constructor
    · rintro ⟨b', hb', rfl, hs, rfl⟩
      rcases List.mem_append.mp hb' with hb' | hb'
      · exact ⟨b', hb', rfl, hs, by rw [reservation, reservation, hold b' hb']⟩
      · exact absurd (congrArg Booking.id (List.mem_singleton.mp hb')) hid
    · rintro ⟨b', hb', rfl, hs, rfl⟩
      exact ⟨b', List.mem_append_left _ hb', rfl, hs, by rw [reservation, reservation, hold b' hb']⟩

/-- A cancellation strikes out the reservation. -/
theorem ledger_updateBooking (db : Db) (id : ℤ) :
    ((Write.updateBooking id .cancelled).apply db).ledger = db.ledger.strike id := by
  funext id'
  rw [Ledger.strike, ledger, Write.apply, Table.find?_modify]
  by_cases hid : id' = id
  · subst hid
    rw [Function.update_self]
    cases hb : db.bookings.find? id' with
    | none => rfl
    | some b =>
      have hkey : Keyed.key b = id' := (Table.find?_eq_some_iff.mp hb).2
      simp only [Option.map_some, Option.bind_some, if_pos hkey, reduceCtorEq, if_false]
  · rw [Function.update_of_ne hid, ledger]
    cases hb : db.bookings.find? id' with
    | none => rfl
    | some b =>
      have hkey : Keyed.key b ≠ id := fun h => hid ((Table.find?_eq_some_iff.mp hb).2.symm.trans h)
      simp only [Option.map_some, Option.bind_some, if_neg hkey]
      rfl

end Db

end BookingApi
