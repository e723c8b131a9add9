import BookingApi.Serial.CreateBooking

/-!
# The validation of seats

`validate_seats_exist` only compares the number of the rows that its query returns with the number
of the requested ids.  `validatesExactly`: this decides exactly whether the ids are distinct and
each of them is that of an active seat of the hall.
-/

namespace BookingApi.Serial

open Async BookingService

/-- The ids are distinct, and each one is the id of an active seat of the hall. -/
def ActiveSeatIds (db : Db) (hallId : ℤ) (seatIds : List ℤ) : Prop :=
  seatIds.Nodup ∧ ∀ seatId ∈ seatIds, ∃ s ∈ db.seats.rows,
    s.id = seatId ∧ s.hallId = hallId ∧ s.isActive = true

/-- The seats with the ids, each of them once. -/
structure AreSeats (db : Db) (seatIds : List ℤ) (seats : List Seat) : Prop where
  nodup : seats.Nodup
  ids : (seats.map Seat.id).Perm seatIds
  mem_iff : ∀ s, s ∈ seats ↔ s ∈ db.seats.rows ∧ s.id ∈ seatIds

/-- The validation returns the seats if the ids are those of active seats, and is refused
otherwise. -/
structure ValidatesExactly (db : Db) (hallId : ℤ) (seatIds : List ℤ)
    (result : Except Exc (List Seat)) : Prop where
  returns_iff : (∃ seats, result = .ok seats) ↔ ActiveSeatIds db hallId seatIds
  seats : ∀ seats, result = .ok seats → AreSeats db seatIds seats
  refused : ¬ ActiveSeatIds db hallId seatIds →
    ∃ detail, result = .error (.seatNotFoundError detail)

variable {db : Db} {hallId : ℤ} {seatIds : List ℤ}

theorem mem_selectActiveSeats {s : Seat} :
    s ∈ selectActiveSeats hallId seatIds db ↔
      s ∈ db.seats.rows ∧ s.id ∈ seatIds ∧ s.hallId = hallId ∧ s.isActive = true := by
  rw [selectActiveSeats_eq]
  exact Table.mem_selectKeys

/-- No seat with one of the ids is left out. -/
theorem areSeats_selectActiveSeats (h : ActiveSeatIds db hallId seatIds) :
    AreSeats db seatIds (selectActiveSeats hallId seatIds db) where
  nodup := (List.Nodup.of_map _ db.seats.nodup).filter _
  ids := Table.map_selectKeys_perm (length_selectActiveSeats_eq_iff.mpr h)
  mem_iff s := by
    rw [mem_selectActiveSeats]
    constructor
    · rintro ⟨hs, hid, -⟩
      exact ⟨hs, hid⟩
    · rintro ⟨hs, hid⟩
      obtain ⟨s', hs', hid', hhall, hactive⟩ := h.2 s.id hid
      obtain rfl : s' = s := Table.eq_of_key_eq hs' hs hid'
      exact ⟨hs, hid, hhall, hactive⟩

/-- **The validation is exact** for every state of the tables and every list of ids. -/
theorem validatesExactly (hallId : ℤ) (seatIds : List ℤ) (r : RequestId) (w : World) :
    ValidatesExactly (w.view r) hallId seatIds
      ((validateSeatsExist hallId seatIds).run (World.exec r) w).1 := by
  rw [run_validateSeatsExist]
  by_cases h : ActiveSeatIds (w.view r) hallId seatIds
  · rw [if_pos (length_selectActiveSeats_eq_iff.mpr h)]
    refine ⟨⟨fun _ => h, fun _ => ⟨_, rfl⟩⟩, fun seats hseats => ?_, fun hnot => absurd h hnot⟩
    obtain rfl := Except.ok.inj hseats
    exact areSeats_selectActiveSeats h
  · rw [if_neg (mt length_selectActiveSeats_eq_iff.mp h)]
    refine ⟨⟨?_, fun h' => absurd h' h⟩, ?_, fun _ => ⟨_, rfl⟩⟩
    · rintro ⟨seats, hseats⟩
      cases hseats
    · intro seats hseats
      cases hseats

/-- A repeated id is not missing. -/
example : seatsNotFound [1, 1] [⟨1, 1, 1, 1, true⟩] = .seatNotFoundError "Seats not found: set()" :=
  rfl

end BookingApi.Serial
