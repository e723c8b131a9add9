import BookingApi.BookingService.CreateBooking
import BookingApi.Models.Writes
import BookingApi.Table.Counting

/-!
# What the queries and statements of a booking say

Each query and statement of `create_booking` in terms of the rows of the tables.
-/

namespace BookingApi.BookingService

variable {db : Db} {hallId : ℤ} {seatIds : List ℤ}

theorem selectActiveHall_eq_some {hall : Hall} (h : selectActiveHall hallId db = some hall) :
    hall ∈ db.halls.rows ∧ hall.id = hallId ∧ hall.isActive = true := by
  refine ⟨List.mem_of_find?_eq_some h, ?_⟩
  simpa using List.find?_some h

theorem exists_selectActiveHall (h : db.HallActive hallId) :
    ∃ hall, selectActiveHall hallId db = some hall := by
  obtain ⟨hall, hhall, hid, hactive⟩ := h
  exact Option.isSome_iff_exists.mp
    (List.find?_isSome.mpr ⟨hall, hhall, decide_eq_true ⟨hid, hactive⟩⟩)

theorem selectActiveSeats_eq :
    selectActiveSeats hallId seatIds db
      = db.seats.selectKeys seatIds fun s => s.hallId = hallId ∧ s.isActive = true := rfl

/-- The query returns as many rows as there are ids exactly when the ids are distinct and name
active seats of the hall. -/
theorem length_selectActiveSeats_eq_iff :
    (selectActiveSeats hallId seatIds db).length = seatIds.length ↔
      seatIds.Nodup ∧ ∀ seatId ∈ seatIds, ∃ s ∈ db.seats.rows,
        s.id = seatId ∧ s.hallId = hallId ∧ s.isActive = true := by
  rw [selectActiveSeats_eq]
  exact Table.length_selectKeys_eq_iff

/-- A seat has a confirmed booking of the hall that overlaps the interval. -/
theorem selectConflictingSeats_eq_nil_iff {startTime endTime : Instant} :
    selectConflictingSeats hallId seatIds startTime endTime none db = [] ↔
      ∀ s ∈ db.seats.rows, s.id ∈ seatIds → ∀ bs ∈ db.bookingSeats.rows, bs.seatId = s.id →
        ∀ b ∈ db.bookings.rows, b.id = bs.bookingId → b.hallId = hallId → b.status = .confirmed →
          ¬ (b.startTime < endTime ∧ startTime < b.endTime) := by
  simp only [selectConflictingSeats, List.flatMap_eq_nil_iff, List.mem_filter, List.map_eq_nil_iff,
    List.filter_eq_nil_iff, decide_eq_true_eq, true_or, and_true, gt_iff_lt]
  constructor
  · intro h s hs hid bs hbs hseat b hb hbid hhall hstatus hlt
    exact h s hs bs ⟨hbs, hseat⟩ b hb ⟨hbid, hid, hhall, hstatus, hlt⟩
  · rintro h s hs bs ⟨hbs, hseat⟩ b hb ⟨hbid, hid, hhall, hstatus, hlt⟩
    exact h s hs hid bs hbs hseat b hb hbid hhall hstatus hlt

theorem mem_bookingSeatRows {bookingId k : ℤ} {bs : BookingSeat}
    (h : bs ∈ bookingSeatRows bookingId k seatIds) :
    k ≤ bs.id ∧ bs.id < k + seatIds.length ∧ bs.bookingId = bookingId ∧ bs.seatId ∈ seatIds := by
  induction seatIds generalizing k with
  | nil => cases h
  | cons seatId seatIds ih =>
    rw [List.length_cons]
    rcases List.mem_cons.mp h with rfl | h
    · exact ⟨le_rfl, by push_cast; omega, rfl, List.mem_cons_self ..⟩
    · obtain ⟨h1, h2, h3, h4⟩ := ih h
      exact ⟨by omega, by push_cast; omega, h3, List.mem_cons_of_mem _ h4⟩

theorem nodup_bookingSeatRows (bookingId k : ℤ) (seatIds : List ℤ) :
    ((bookingSeatRows bookingId k seatIds).map BookingSeat.id).Nodup := by
  induction seatIds generalizing k with
  | nil => exact List.nodup_nil
  | cons seatId seatIds ih =>
    rw [bookingSeatRows, List.map_cons, List.nodup_cons]
    refine ⟨fun h => ?_, ih (k + 1)⟩
    obtain ⟨bs, hbs, hid⟩ := List.mem_map.mp h
    have := (mem_bookingSeatRows hbs).1
    simp only at hid
    omega

theorem map_seatId_bookingSeatRows (bookingId k : ℤ) (seatIds : List ℤ) :
    (bookingSeatRows bookingId k seatIds).map BookingSeat.seatId = seatIds := by
  induction seatIds generalizing k with
  | nil => rfl
  | cons seatId seatIds ih => rw [bookingSeatRows, List.map_cons, ih]

/-- An insertion that returns numbers the booking from the sequence. -/
theorem insertBooking_eq_ok {userId id : ℤ} {startTime endTime now : Instant} {price : Decimal}
    {status : BookingStatus} {seqs seqs' : Sequences} {ws : List Write}
    (h : insertBooking userId hallId startTime endTime price status now seqs db
      = (.ok (id, ws), seqs')) :
    ∃ b : Booking, b.id = seqs.bookings ∧ b.userId = userId ∧ b.hallId = hallId
      ∧ b.startTime = startTime ∧ b.endTime = endTime ∧ b.totalPrice = price.toHundredths
      ∧ b.status = status ∧ FitsNumeric price.toHundredths
      ∧ (db.users.find? userId).isSome ∧ (db.halls.find? hallId).isSome
      ∧ id = b.id ∧ ws = [.insertBooking b]
      ∧ seqs' = { seqs with bookings := seqs.bookings + 1 } := by
  rw [insertBooking, storeNumeric] at h
  by_cases hp : FitsNumeric price.toHundredths
  · rw [if_pos hp] at h
    by_cases hfk : (db.users.find? userId).isSome ∧ (db.halls.find? hallId).isSome
    · simp only [if_pos hfk, Prod.mk.injEq, Except.ok.injEq] at h
      obtain ⟨⟨rfl, rfl⟩, rfl⟩ := h
      exact ⟨_, rfl, rfl, rfl, rfl, rfl, rfl, rfl, hp, hfk.1, hfk.2, rfl, rfl, rfl⟩
    · simp only [if_neg hfk, Prod.mk.injEq, reduceCtorEq, false_and] at h
  · simp only [if_neg hp, Prod.mk.injEq, reduceCtorEq, false_and] at h

/-- One that raises uses up an id. -/
theorem insertBooking_eq_error {userId : ℤ} {startTime endTime now : Instant} {price : Decimal}
    {status : BookingStatus} {seqs seqs' : Sequences} {e : Exc}
    (h : insertBooking userId hallId startTime endTime price status now seqs db
      = (.error e, seqs')) : seqs' = { seqs with bookings := seqs.bookings + 1 } := by
  rw [insertBooking] at h
  split at h
  · exact (Prod.mk.inj h).2.symm
  · split_ifs at h
    · exact absurd (Prod.mk.inj h).1 (by simp)
    · exact (Prod.mk.inj h).2.symm

theorem insertBookingSeats_eq_ok {id : ℤ} {now : Instant} {seqs seqs' : Sequences} {u : Unit}
    {ws : List Write} (h : insertBookingSeats id seatIds now seqs db = (.ok (u, ws), seqs')) :
    (db.bookings.find? id).isSome ∧ (∀ s ∈ seatIds, (db.seats.find? s).isSome)
      ∧ ws = (bookingSeatRows id seqs.bookingSeats seatIds).map .insertBookingSeat
      ∧ seqs' = { seqs with bookingSeats := seqs.bookingSeats + seatIds.length } := by
  rw [insertBookingSeats] at h
  split_ifs at h with hfk
  · obtain ⟨h1, h2⟩ := Prod.mk.inj h
    exact ⟨hfk.1, hfk.2, (Prod.mk.inj (Except.ok.inj h1)).2.symm, h2.symm⟩
  · exact absurd (Prod.mk.inj h).1 (by simp)

theorem insertBookingSeats_eq_error {id : ℤ} {now : Instant} {seqs seqs' : Sequences} {e : Exc}
    (h : insertBookingSeats id seatIds now seqs db = (.error e, seqs')) :
    seqs' = { seqs with bookingSeats := seqs.bookingSeats + seatIds.length } := by
  rw [insertBookingSeats] at h
  split_ifs at h
  · exact absurd (Prod.mk.inj h).1 (by simp)
  · exact (Prod.mk.inj h).2.symm

end BookingApi.BookingService
