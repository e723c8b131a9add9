import BookingApi.Serial.Occupancy
import BookingApi.Serial.SeatNumbers

/-!
# The grid of seats

`bulk_create_seats` creates one seat for each row and each number, in row-major order, or raises and
creates none: `buildsGrid`.
-/

namespace BookingApi.SeatService

theorem rangeFromOne_eq (n : ℤ) :
    rangeFromOne n = (List.range n.toNat).map fun i : ℕ => (i : ℤ) + 1 := by
  rw [rangeFromOne, List.map_eq_flatMap, List.bind_eq_flatMap, List.flatMap_assoc,
    List.map_eq_flatMap]
  rfl

theorem mem_rangeFromOne_iff {n i : ℤ} : i ∈ rangeFromOne n ↔ 1 ≤ i ∧ i ≤ n := by
  rw [rangeFromOne_eq, List.mem_map]
  constructor
  · rintro ⟨k, hk, rfl⟩
    have hlt := List.mem_range.mp hk
    omega
  · rintro ⟨h1, hn⟩
    exact ⟨(i - 1).toNat, List.mem_range.mpr (by omega), by omega⟩

theorem pairwise_rangeFromOne (n : ℤ) : (rangeFromOne n).Pairwise (· < ·) := by
  rw [rangeFromOne_eq]
  refine List.Pairwise.map _ (fun i j hij => ?_) List.pairwise_lt_range
  omega

/-- `p` comes before `q` in row-major order. -/
def RowMajor (p q : ℤ × ℤ) : Prop := p.1 < q.1 ∨ p.1 = q.1 ∧ p.2 < q.2

instance (p q : ℤ × ℤ) : Decidable (RowMajor p q) := inferInstanceAs (Decidable (_ ∨ _))

theorem RowMajor.ne {p q : ℤ × ℤ} (h : RowMajor p q) : p ≠ q := by
  rintro rfl
  rcases h with h | ⟨-, h⟩ <;> omega

/-- The grid has every position of its rows and numbers. -/
theorem mem_seatGrid_iff {rows seatsPerRow : ℤ} {p : ℤ × ℤ} :
    p ∈ seatGrid rows seatsPerRow ↔ (1 ≤ p.1 ∧ p.1 ≤ rows) ∧ 1 ≤ p.2 ∧ p.2 ≤ seatsPerRow := by
  obtain ⟨row, number⟩ := p
  simp only [seatGrid, List.mem_flatMap, List.mem_map, Prod.mk.injEq, mem_rangeFromOne_iff]
  constructor
  · rintro ⟨i, hi, j, hj, rfl, rfl⟩
    exact ⟨hi, hj⟩
  · rintro ⟨hrow, hnumber⟩
    exact ⟨row, hrow, number, hnumber, rfl, rfl⟩

/-- They come in row-major order, none of them twice. -/
theorem pairwise_seatGrid (rows seatsPerRow : ℤ) :
    (seatGrid rows seatsPerRow).Pairwise RowMajor := by
  rw [seatGrid, List.pairwise_flatMap]
  constructor
  · intro row _
    exact (pairwise_rangeFromOne seatsPerRow).map _ fun i j hij => .inr ⟨rfl, hij⟩
  · refine (pairwise_rangeFromOne rows).imp fun {row row'} hlt p hp q hq => ?_
    obtain ⟨i, -, rfl⟩ := List.mem_map.mp hp
    obtain ⟨j, -, rfl⟩ := List.mem_map.mp hq
    exact .inl hlt

theorem nodup_seatGrid (rows seatsPerRow : ℤ) : (seatGrid rows seatsPerRow).Nodup :=
  (pairwise_seatGrid rows seatsPerRow).imp RowMajor.ne

theorem length_seatGrid (rows seatsPerRow : ℤ) :
    (seatGrid rows seatsPerRow).length = rows.toNat * seatsPerRow.toNat := by
  simp [seatGrid, rangeFromOne_eq, List.length_flatMap, Function.comp_def]

end BookingApi.SeatService

namespace BookingApi.Serial

open Async BookingService Concurrent HallService SeatService World

variable {w : World} {r : RequestId} {hallId : ℤ} {α : Type}

/-! ### Creating seats -/

/-- The rows that creating seats adds. -/
def newSeatRows (hallId : ℤ) (w : World) (positions : List (ℤ × ℤ)) : List Seat :=
  seatRows hallId w.sequences.seats positions

theorem table_seatWrites (hallId : ℤ) (w : World) (positions : List (ℤ × ℤ)) :
    ∀ x ∈ seatWrites hallId w positions, x.table = .seats := by
  intro x hx
  obtain ⟨s, -, rfl⟩ := List.mem_map.mp hx
  rfl

/-- The new rows are found by their ids. -/
theorem find?_seatWrites (hn : SeatsNumbered w) {positions : List (ℤ × ℤ)} {s : Seat}
    (hs : s ∈ newSeatRows hallId w positions) :
    (w.db.applyAll (seatWrites hallId w positions)).seats.find? s.id = some s := by
  rw [Table.find?_eq_some_iff, seats_applyAll_seatWrites hn]
  exact ⟨List.mem_append_right _ hs, rfl⟩

/-- Creating seats at positions that are free. -/
theorem serve_newSeats_of_free (hidle : w.writesOf r = []) {hall : Hall}
    (hfind : w.db.halls.find? hallId = some hall) {positions : List (ℤ × ℤ)}
    (hnodup : positions.Nodup) (hfree : positionTaken w.db hallId positions = false)
    (detail : String) {f : List ℤ → App α} {a : α}
    (hf : ∀ w' : World, w'.view r = w.db.applyAll (seatWrites hallId w positions) →
      (f ((newSeatRows hallId w positions).map Seat.id)).run (World.exec r) w' = (.ok a, w')) :
    (serve r ((getHallOrRaise hallId).bind fun _ =>
        orAlreadyExists detail ((flush (insertSeats hallId positions)).bind f)) w).1 = .ok a ∧
      (serve r ((getHallOrRaise hallId).bind fun _ =>
        orAlreadyExists detail ((flush (insertSeats hallId positions)).bind f)) w).2.db
          = w.db.applyAll (seatWrites hallId w positions) := by
  have hflush := run_insertSeats_bind_of_free hidle hfind hnodup hfree f
  have hread := hf _ (view_setSequences_stage hidle (seatsCounted w positions)
    (seatWrites hallId w positions))
  have hrun := run_orAlreadyExists_of_ok detail (hflush.trans hread)
  rw [← run_getHallOrRaise_bind_of_some hidle hfind fun _ =>
    orAlreadyExists detail ((flush (insertSeats hallId positions)).bind f)] at hrun
  obtain ⟨hresult, hdb, -⟩ := serve_of_run_stage hidle hrun
  exact ⟨hresult, hdb⟩

/-- Creating seats at positions of which one is taken. -/
theorem serve_newSeats_of_taken (hidle : w.writesOf r = []) {hall : Hall}
    (hfind : w.db.halls.find? hallId = some hall) {positions : List (ℤ × ℤ)}
    (htaken : positionTaken w.db hallId positions = true) (detail : String)
    (f : List ℤ → App α) :
    (serve r ((getHallOrRaise hallId).bind fun _ =>
        orAlreadyExists detail ((flush (insertSeats hallId positions)).bind f)) w).1
          = .error (.seatAlreadyExistsError detail) ∧
      (serve r ((getHallOrRaise hallId).bind fun _ =>
        orAlreadyExists detail ((flush (insertSeats hallId positions)).bind f)) w).2.db
          = w.db := by
  have hguard : ¬ (positions.Nodup ∧ positionTaken w.db hallId positions = false) := by
    rw [htaken]
    exact fun h => nomatch h.2
  have hrun := run_orAlreadyExists_of_integrityError detail
    (run_insertSeats_bind_of_taken hidle hguard f)
  rw [← run_getHallOrRaise_bind_of_some hidle hfind fun _ =>
    orAlreadyExists detail ((flush (insertSeats hallId positions)).bind f)] at hrun
  have hserve := serve_of_run_error hrun
  exact hserve

/-! ### The grid -/

/-- The hall has a seat, active or not, at a position of the grid. -/
def GridTaken (db : Db) (hallId rows seatsPerRow : ℤ) : Prop :=
  ∃ s ∈ db.seats.rows, s.hallId = hallId ∧ (1 ≤ s.row ∧ s.row ≤ rows) ∧
    1 ≤ s.number ∧ s.number ≤ seatsPerRow

/-- One active seat of the hall for each position of the grid, in row-major order. -/
structure IsGrid (hallId rows seatsPerRow : ℤ) (seats : List Seat) : Prop where
  active : ∀ s ∈ seats, s.hallId = hallId ∧ s.isActive = true
  mem_iff : ∀ row number, (row, number) ∈ seats.map (fun s => (s.row, s.number)) ↔
    (1 ≤ row ∧ row ≤ rows) ∧ 1 ≤ number ∧ number ≤ seatsPerRow
  ordered : (seats.map fun s => (s.row, s.number)).Pairwise RowMajor
  length : seats.length = rows.toNat * seatsPerRow.toNat

/-- Either a hall is missing, or the grid is refused, or it is built. -/
structure BuildsGrid (hallId rows seatsPerRow : ℤ) (db : Db) (result : Except Exc (List Seat))
    (db' : Db) : Prop where
  missing : (∀ hall ∈ db.halls.rows, hall.id ≠ hallId) → result = .error .hallNotFound ∧ db' = db
  raises_iff : (∃ hall ∈ db.halls.rows, hall.id = hallId) →
    ((∃ detail, result = .error (.seatAlreadyExistsError detail)) ↔
      GridTaken db hallId rows seatsPerRow)
  refused : GridTaken db hallId rows seatsPerRow → db' = db
  built : (∃ hall ∈ db.halls.rows, hall.id = hallId) → ¬ GridTaken db hallId rows seatsPerRow →
    ∃ seats, result = .ok seats ∧ IsGrid hallId rows seatsPerRow seats ∧
      db'.seats.rows = db.seats.rows ++ seats ∧ db' = { db with seats := db'.seats }

theorem positionTaken_seatGrid_iff {db : Db} {rows seatsPerRow : ℤ} :
    positionTaken db hallId (seatGrid rows seatsPerRow) = true ↔
      GridTaken db hallId rows seatsPerRow := by
  rw [positionTaken, List.any_eq_true, GridTaken]
  simp only [decide_eq_true_eq, mem_seatGrid_iff]

theorem isGrid_newSeatRows (hallId rows seatsPerRow : ℤ) (w : World) :
    IsGrid hallId rows seatsPerRow (newSeatRows hallId w (seatGrid rows seatsPerRow)) := by
  have hpositions := positions_seatRows hallId w.sequences.seats (seatGrid rows seatsPerRow)
  rw [← newSeatRows] at hpositions
  constructor
  · exact fun s hs => ⟨(mem_seatRows hs).1, (mem_seatRows hs).2.1⟩
  · intro row number
    rw [hpositions, mem_seatGrid_iff]
  · rw [hpositions]
    exact pairwise_seatGrid rows seatsPerRow
  · have hlength := congrArg List.length hpositions
    rw [List.length_map] at hlength
    rw [hlength, length_seatGrid]

/-- **Bulk creation builds the grid or nothing.** -/
theorem buildsGrid_bulkCreateSeats (hidle : w.writesOf r = []) (hn : SeatsNumbered w)
    (hallId rows seatsPerRow : ℤ) :
    BuildsGrid hallId rows seatsPerRow w.db
      (serve r (bulkCreateSeats hallId rows seatsPerRow) w).1
      (serve r (bulkCreateSeats hallId rows seatsPerRow) w).2.db := by
  rcases hfind : w.db.halls.find? hallId with _ | hall
  · -- the hall does not exist
    have hserve := serve_of_run_error
      (run_getHallOrRaise_bind_of_none (α := List Seat) hidle hfind fun _ =>
        orAlreadyExists "Some seats already exist"
          ((flush (insertSeats hallId (seatGrid rows seatsPerRow))).bind refreshSeats))
    have hmissing : ¬ ∃ hall ∈ w.db.halls.rows, hall.id = hallId := fun ⟨hall, hmem, hid⟩ =>
      Table.find?_eq_none_iff.mp hfind hall hmem hid
    exact ⟨fun _ => hserve, fun h => absurd h hmissing, fun _ => hserve.2,
      fun h => absurd h hmissing⟩
  obtain ⟨hmem, hid⟩ := Table.find?_eq_some_iff.mp hfind
  have hhall : ∃ hall ∈ w.db.halls.rows, hall.id = hallId := ⟨hall, hmem, hid⟩
  have hmissing : ¬ ∀ hall ∈ w.db.halls.rows, hall.id ≠ hallId := fun h => h hall hmem hid
  by_cases htaken : GridTaken w.db hallId rows seatsPerRow
  · obtain ⟨hresult, hdb⟩ := serve_newSeats_of_taken hidle hfind
      (positionTaken_seatGrid_iff.mpr htaken) "Some seats already exist" refreshSeats
    exact ⟨fun h => absurd h hmissing, fun _ => ⟨fun _ => htaken, fun _ => ⟨_, hresult⟩⟩,
      fun _ => hdb, fun _ h => absurd htaken h⟩
  · have hfree : positionTaken w.db hallId (seatGrid rows seatsPerRow) = false :=
      eq_false_of_ne_true fun h => htaken (positionTaken_seatGrid_iff.mp h)
    obtain ⟨hresult, hdb⟩ := serve_newSeats_of_free (f := refreshSeats) hidle hfind
      (nodup_seatGrid rows seatsPerRow) hfree "Some seats already exist" fun w' hview =>
        run_refreshSeats fun s hs => by rw [hview, find?_seatWrites hn hs]
    refine ⟨fun h => absurd h hmissing, fun _ => ⟨fun ⟨detail, he⟩ => ?_, fun h => absurd h htaken⟩,
      fun h => absurd h htaken, fun _ _ =>
        ⟨_, hresult, isGrid_newSeatRows hallId rows seatsPerRow w, ?_, ?_⟩⟩
    · cases hresult.symm.trans he
    · have hseats := congrArg (·.seats.rows) hdb
      exact hseats.trans (seats_applyAll_seatWrites hn hallId (seatGrid rows seatsPerRow))
    · have hothers := Db.applyAll_of_seats w.db
        (table_seatWrites hallId w (seatGrid rows seatsPerRow))
      rw [← hdb] at hothers
      exact hothers

open Concurrent.Scenario (hallBody) in
/-- Two rows of three seats in a new hall, and again in the same hall. -/
theorem buildsGrid_twoByThree :
    BuildsGrid 1 2 3 (run BookingApi.settings [.serve (.createHall hallBody)]).db
        (serve 1 (bulkCreateSeats 1 2 3)
          (run BookingApi.settings [.serve (.createHall hallBody)])).1
        (serve 1 (bulkCreateSeats 1 2 3)
          (run BookingApi.settings [.serve (.createHall hallBody)])).2.db ∧
      BuildsGrid 1 2 3
        (run BookingApi.settings
          [.serve (.bulkCreateSeats 1 2 3), .serve (.createHall hallBody)]).db
        (serve 2 (bulkCreateSeats 1 2 3)
          (run BookingApi.settings
            [.serve (.bulkCreateSeats 1 2 3), .serve (.createHall hallBody)])).1
        (serve 2 (bulkCreateSeats 1 2 3)
          (run BookingApi.settings
            [.serve (.bulkCreateSeats 1 2 3), .serve (.createHall hallBody)])).2.db :=
  ⟨buildsGrid_bulkCreateSeats (writesOf_run _ 1) (seatsNumbered_run _) 1 2 3,
    buildsGrid_bulkCreateSeats (writesOf_run _ 2) (seatsNumbered_run _) 1 2 3⟩

end BookingApi.Serial
