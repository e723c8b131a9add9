import BookingApi.Serial.Durability
import BookingApi.Serial.SeatGrid

/-!
# Creating, listing and deleting seats

`delete_seat` only clears `is_active`, while the constraint `uq_seat_position` ranges over all
seats.  So `create_seat` raises exactly if the position is listed or has a deleted seat, and a
position whose seat is deleted is lost for good: `agreesWithList`.
-/

namespace BookingApi.Serial

open Async BookingService Concurrent HallService SeatService World

variable {settings : Settings} {moves : List Move} {w : World} {r : RequestId}
  {hallId row number : ℤ}

/-- The seat is at the position. -/
def At (hallId row number : ℤ) (s : Seat) : Prop :=
  s.hallId = hallId ∧ s.row = row ∧ s.number = number

/-- Creating a seat there raises `SeatAlreadyExistsError`. -/
def CreationRaises (settings : Settings) (moves : List Move) (hallId row number : ℤ) : Prop :=
  ∃ detail, answer settings moves (createSeat hallId row number)
    = .error (.seatAlreadyExistsError detail)

/-- The list of the hall has a seat there. -/
def Listed (settings : Settings) (moves : List Move) (hallId row number : ℤ) : Prop :=
  ∃ seats, answer settings moves (listSeats hallId) = .ok seats ∧
    ∃ s ∈ seats, s.row = row ∧ s.number = number

/-- A deleted seat of the hall is there. -/
def Deleted (db : Db) (hallId row number : ℤ) : Prop :=
  ∃ s ∈ db.seats.rows, At hallId row number s ∧ s.isActive = false

/-- A request to book the seat succeeds, whoever asks for it and for whatever time, if the user
exists, the hall is active, the slot is valid and the price fits. -/
def CanBeBooked (settings : Settings) (moves : List Move) (s : Seat) : Prop :=
  ∀ args : CreateArgs, args.hallId = s.hallId → args.seatIds = [s.id] →
    (∃ u ∈ (run settings moves).db.users.rows, u.id = args.userId) →
    (run settings moves).db.HallActive args.hallId →
    validateTimeSlot settings args.startTime args.endTime = .ok () →
    (∀ hall ∈ (run settings moves).db.halls.rows, hall.id = args.hallId →
      FitsNumeric (price args hall).toHundredths) →
    ∃ a, answer settings moves (args.program settings) = .ok a

/-! ### Creating one seat -/

/-- The row that creating a seat adds. -/
def newSeat (hallId row number : ℤ) (w : World) : Seat :=
  ⟨w.sequences.seats, hallId, row, number, true⟩

theorem positionTaken_singleton_iff {db : Db} :
    positionTaken db hallId [(row, number)] = true ↔
      ∃ s ∈ db.seats.rows, At hallId row number s := by
  rw [positionTaken, List.any_eq_true]
  simp only [decide_eq_true_eq, List.mem_singleton, Prod.mk.injEq, At]

theorem serve_createSeat_of_taken (hidle : w.writesOf r = []) {hall : Hall}
    (hfind : w.db.halls.find? hallId = some hall)
    (htaken : ∃ s ∈ w.db.seats.rows, At hallId row number s) :
    ∃ detail, (serve r (createSeat hallId row number) w).1
      = .error (.seatAlreadyExistsError detail) := by
  have hserve := serve_newSeats_of_taken (α := Seat) hidle hfind
    (positionTaken_singleton_iff.mpr htaken) s!"Seat {row}-{number} already exists"
  exact ⟨_, (hserve _).1⟩

theorem serve_createSeat_of_free (hidle : w.writesOf r = []) (hn : SeatsNumbered w) {hall : Hall}
    (hfind : w.db.halls.find? hallId = some hall)
    (hfree : ¬ ∃ s ∈ w.db.seats.rows, At hallId row number s) :
    (serve r (createSeat hallId row number) w).1 = .ok (newSeat hallId row number w) ∧
      (serve r (createSeat hallId row number) w).2.db
        = w.db.applyAll (seatWrites hallId w [(row, number)]) := by
  have hfree' : positionTaken w.db hallId [(row, number)] = false :=
    eq_false_of_ne_true fun h => hfree (positionTaken_singleton_iff.mp h)
  have hnew : newSeat hallId row number w ∈ newSeatRows hallId w [(row, number)] :=
    List.mem_singleton_self _
  refine serve_newSeats_of_free hidle hfind (List.nodup_singleton _) hfree' _ fun w' hview => ?_
  show (refreshSeat (newSeat hallId row number w).id).run (World.exec r) w' = _
  rw [run_refreshSeat, hview, find?_seatWrites hn hnew]
  rfl

/-! ### The answers -/

/-- Creating a seat raises exactly if the hall has one at the position, active or not. -/
theorem creationRaises_iff
    (hhall : ∃ hall ∈ (run settings moves).db.halls.rows, hall.id = hallId) :
    CreationRaises settings moves hallId row number ↔
      ∃ s ∈ (run settings moves).db.seats.rows, At hallId row number s := by
  obtain ⟨hall, hmem, hid⟩ := hhall
  have hfind := Table.find?_eq_some_iff.mpr ⟨hmem, hid⟩
  constructor
  · rintro ⟨detail, hraises⟩
    by_contra hfree
    have hserve := serve_createSeat_of_free (writesOf_run moves moves.length)
      (seatsNumbered_run moves) hfind hfree
    cases hraises.symm.trans hserve.1
  · exact fun htaken => serve_createSeat_of_taken (writesOf_run moves moves.length) hfind htaken

theorem answer_listSeats (hhall : ∃ hall ∈ (run settings moves).db.halls.rows, hall.id = hallId) :
    ∃ seats, answer settings moves (listSeats hallId) = .ok seats ∧
      ∀ s, s ∈ seats ↔
        s ∈ (run settings moves).db.seats.rows ∧ s.hallId = hallId ∧ s.isActive = true := by
  obtain ⟨hall, hmem, hid⟩ := hhall
  have hidle : (run settings moves).writesOf moves.length = [] := writesOf_run _ _
  have hfind := Table.find?_eq_some_iff.mpr ⟨hmem, hid⟩
  rw [answer, serve_fst, listSeats, Program.bind_eq, run_getHallOrRaise_bind_of_some hidle hfind,
    run_execute, view_of_writesOf_nil hidle]
  refine ⟨_, rfl, fun s => ?_⟩
  rw [List.mem_mergeSort, List.mem_filter, decide_eq_true_eq]

theorem listed_iff (hhall : ∃ hall ∈ (run settings moves).db.halls.rows, hall.id = hallId) :
    Listed settings moves hallId row number ↔
      ∃ s ∈ (run settings moves).db.seats.rows, At hallId row number s ∧ s.isActive = true := by
  obtain ⟨seats, hanswer, hmem⟩ := answer_listSeats hhall
  constructor
  · rintro ⟨seats', hanswer', s, hs, hrow, hnumber⟩
    obtain rfl := Except.ok.inj (hanswer'.symm.trans hanswer)
    obtain ⟨hs, hhall, hactive⟩ := (hmem s).mp hs
    exact ⟨s, hs, ⟨hhall, hrow, hnumber⟩, hactive⟩
  · rintro ⟨s, hs, ⟨hhall, hrow, hnumber⟩, hactive⟩
    exact ⟨seats, hanswer, s, (hmem s).mpr ⟨hs, hhall, hactive⟩, hrow, hnumber⟩

/-! ### A created seat -/

theorem seats_createSeat (hhall : ∃ hall ∈ (run settings moves).db.halls.rows, hall.id = hallId)
    (hfree : ¬ CreationRaises settings moves hallId row number) :
    answer settings moves (createSeat hallId row number)
        = .ok (newSeat hallId row number (run settings moves)) ∧
      (run settings (.serve (.createSeat hallId row number) :: moves)).db
        = (run settings moves).db.applyAll
          (seatWrites hallId (run settings moves) [(row, number)]) := by
  rw [creationRaises_iff hhall] at hfree
  obtain ⟨hall, hmem, hid⟩ := hhall
  obtain ⟨hresult, hdb⟩ := serve_createSeat_of_free (writesOf_run moves moves.length)
    (seatsNumbered_run moves) (Table.find?_eq_some_iff.mpr ⟨hmem, hid⟩) hfree
  refine ⟨hresult, ?_⟩
  rw [run, Operation.handler, discard, serve_map]
  exact hdb

/-- The id of a new seat is in no booking. -/
theorem occ_newSeat (hhall : ∃ hall ∈ (run settings moves).db.halls.rows, hall.id = hallId)
    (hfree : ¬ CreationRaises settings moves hallId row number) (t : Instant) :
    occ (run settings (.serve (.createSeat hallId row number) :: moves)).db
      (newSeat hallId row number (run settings moves)).id t = none := by
  by_contra hocc
  obtain ⟨id, hid⟩ := Option.ne_none_iff_exists'.mp hocc
  obtain ⟨b, ⟨-, -, hcovers⟩, -⟩ := (occ_eq_some_iff (orderly_run _)).mp hid
  obtain ⟨bs, hbs, hseat⟩ := List.mem_map.mp hcovers.1
  have hold : bs ∈ (run settings moves).db.bookingSeats.rows := by
    have hmem := (List.mem_filter.mp hbs).1
    rwa [(seats_createSeat hhall hfree).2, Db.bookingSeats_applyAll] at hmem
    intro x hx
    rw [table_seatWrites _ _ _ x hx]
    exact TableName.noConfusion
  -- it is the seat of a row, and so has a number of the sequence
  obtain ⟨b', -, -, s, hs, hsid, -⟩ := (sound_run moves).linked bs hold
  have hlt := seatsNumbered_run moves s hs
  rw [hsid, hseat] at hlt
  exact lt_irrefl _ hlt

/-- **A created seat** is listed and can be booked. -/
theorem created (hhall : ∃ hall ∈ (run settings moves).db.halls.rows, hall.id = hallId)
    (hfree : ¬ CreationRaises settings moves hallId row number) :
    ∃ s, answer settings moves (createSeat hallId row number) = .ok s ∧ At hallId row number s ∧
      Listed settings (.serve (.createSeat hallId row number) :: moves) hallId row number ∧
      CanBeBooked settings (.serve (.createSeat hallId row number) :: moves) s := by
  obtain ⟨hresult, hdb⟩ := seats_createSeat hhall hfree
  have hmem : newSeat hallId row number (run settings moves) ∈
      (run settings (.serve (.createSeat hallId row number) :: moves)).db.seats.rows := by
    rw [hdb, seats_applyAll_seatWrites (seatsNumbered_run moves)]
    exact List.mem_append_right _ (List.mem_singleton_self _)
  refine ⟨_, hresult, ⟨rfl, rfl, rfl⟩, ?_,
    fun args hhallId hseatIds huser hactive hslot hfits => ?_⟩
  · obtain ⟨hall, hhall, hid⟩ := hhall
    obtain ⟨hall', hhall', hid'⟩ := Table.exists_of_map_subset (grows_cons _).halls hhall
    exact (listed_iff ⟨hall', hhall', hid'.trans hid⟩).mpr ⟨_, hmem, ⟨rfl, rfl, rfl⟩, rfl⟩
  · refine (createBooking_iff args hfits).mpr ⟨huser, hactive, hslot, ?_, ?_, ?_⟩
    · rw [hseatIds]
      exact List.nodup_singleton _
    · rw [hseatIds]
      intro seatId hseat
      rw [List.mem_singleton.mp hseat]
      exact ⟨_, hmem, rfl, hhallId.symm, rfl⟩
    · rw [hseatIds]
      intro seatId hseat t _ _
      rw [List.mem_singleton.mp hseat]
      exact occ_newSeat hhall hfree t

/-! ### A deleted seat -/

/-- Deactivating seats keeps the inactive ones. -/
theorem mem_seats_of_deactivates {db : Db} {ws : List Write}
    (hws : ∀ x ∈ ws, ∃ id, x = .updateSeat id false) {s : Seat} (hs : s ∈ db.seats.rows)
    (hoff : s.isActive = false) : s ∈ (db.applyAll ws).seats.rows := by
  induction ws generalizing db with
  | nil => exact hs
  | cons x ws ih =>
    refine ih (fun y hy => hws y (List.mem_cons_of_mem _ hy)) ?_
    obtain ⟨id, rfl⟩ := hws x (List.mem_cons_self ..)
    simp only [Write.apply]
    refine Table.mem_modify.mpr ⟨s, hs, ?_⟩
    split_ifs
    · rw [← hoff]
    · rfl

theorem SeatsEffect.mem_seats {w : World} {db : Db} (h : SeatsEffect w db) (hn : SeatsNumbered w)
    {s : Seat} (hs : s ∈ w.db.seats.rows) (hoff : s.isActive = false) : s ∈ db.seats.rows := by
  cases h with
  | keeps hseats => exact hseats ▸ hs
  | adds _ _ _ hdb =>
    rw [hdb, seats_applyAll_seatWrites hn]
    exact List.mem_append_left _ hs
  | deactivates hws hdb => exact hdb ▸ mem_seats_of_deactivates hws hs hoff

theorem mem_seats_cons (move : Move) {s : Seat} (hs : s ∈ (run settings moves).db.seats.rows)
    (hoff : s.isActive = false) : s ∈ (run settings (move :: moves)).db.seats.rows := by
  cases move with
  | env e => cases e <;> exact hs
  | serve op =>
    exact (seatsEffect_serve_handler settings (writesOf_run moves moves.length) op).mem_seats
      (seatsNumbered_run moves) hs hoff

/-- A deleted seat stays deleted. -/
theorem mem_seats_append (later : List Move) {s : Seat}
    (hs : s ∈ (run settings moves).db.seats.rows) (hoff : s.isActive = false) :
    s ∈ (run settings (later ++ moves)).db.seats.rows := by
  induction later with
  | nil => exact hs
  | cons move later ih => exact mem_seats_cons move ih hoff

/-- Deleting a seat of the hall succeeds, and its row becomes inactive. -/
theorem answer_deleteSeat (hhall : ∃ hall ∈ (run settings moves).db.halls.rows, hall.id = hallId)
    {s : Seat} (hs : s ∈ (run settings moves).db.seats.rows) (hof : s.hallId = hallId) :
    answer settings moves (deleteSeat hallId s.id) = .ok () ∧
      { s with isActive := false } ∈
        (run settings (.serve (.deleteSeat hallId s.id) :: moves)).db.seats.rows := by
  obtain ⟨hall, hmem, hid⟩ := hhall
  have hidle : (run settings moves).writesOf moves.length = [] := writesOf_run _ _
  have hfind := Table.find?_eq_some_iff.mpr ⟨hmem, hid⟩
  have hselect : (run settings moves).db.seats.rows.find?
      (fun t => t.id = s.id ∧ t.hallId = hallId) = some s := by
    cases hfound : (run settings moves).db.seats.rows.find?
        (fun t => t.id = s.id ∧ t.hallId = hallId) with
    | none => exact absurd (List.find?_eq_none.mp hfound s hs) (by simp [hof])
    | some t =>
      have hkey := List.find?_some hfound
      rw [decide_eq_true_eq] at hkey
      exact congrArg some (Table.eq_of_key_eq (List.mem_of_find?_eq_some hfound) hs hkey.1)
  have hrun : (deleteSeat hallId s.id).run (World.exec moves.length) (run settings moves)
      = (.ok (), ((run settings moves).setSequences (run settings moves).sequences).stage
        moves.length (if s.isActive then [.updateSeat s.id false] else [])) := by
    rw [deleteSeat, Program.bind_eq, run_getHallOrRaise_bind_of_some hidle hfind, Program.bind_eq,
      run_bind_ok (run_execute _ _ _), view_of_writesOf_nil hidle, hselect]
    exact (run_flush ..).trans (exec_flush_of_ok rfl)
  obtain ⟨hresult, hdb, -⟩ := serve_of_run_stage hidle hrun
  refine ⟨hresult, ?_⟩
  rw [run, Operation.handler, discard, serve_map, hdb]
  split_ifs with hactive
  · simp only [Db.applyAll_cons, Db.applyAll_nil, Write.apply]
    exact Table.mem_modify.mpr ⟨s, hs, (if_pos rfl).symm⟩
  · rw [← eq_false_of_ne_true hactive]
    exact hs

/-- **Creating and listing seats** agree but for the deleted ones, and a position whose seat is
deleted is lost. -/
structure AgreesWithList (settings : Settings) (moves : List Move) (hallId row number : ℤ) :
    Prop where
  raises_iff : CreationRaises settings moves hallId row number ↔
    Listed settings moves hallId row number ∨
      Deleted (run settings moves).db hallId row number
  created : ¬ CreationRaises settings moves hallId row number →
    ∃ s, answer settings moves (createSeat hallId row number) = .ok s ∧ At hallId row number s ∧
      Listed settings (.serve (.createSeat hallId row number) :: moves) hallId row number ∧
      CanBeBooked settings (.serve (.createSeat hallId row number) :: moves) s
  deleted : ∀ s ∈ (run settings moves).db.seats.rows, At hallId row number s →
    answer settings moves (deleteSeat hallId s.id) = .ok () ∧
      ∀ later, ¬ Listed settings (later ++ .serve (.deleteSeat hallId s.id) :: moves)
          hallId row number ∧
        CreationRaises settings (later ++ .serve (.deleteSeat hallId s.id) :: moves)
          hallId row number

theorem agreesWithList (hhall : ∃ hall ∈ (run settings moves).db.halls.rows, hall.id = hallId)
    (row number : ℤ) : AgreesWithList settings moves hallId row number := by
  refine ⟨?_, created hhall, fun s hs hat => ?_⟩
  · rw [creationRaises_iff hhall, listed_iff hhall]
    constructor
    · rintro ⟨s, hs, hat⟩
      cases hactive : s.isActive
      · exact .inr ⟨s, hs, hat, hactive⟩
      · exact .inl ⟨s, hs, hat, hactive⟩
    · rintro (⟨s, hs, hat, -⟩ | ⟨s, hs, hat, -⟩) <;> exact ⟨s, hs, hat⟩
  · obtain ⟨hanswer, hrow⟩ := answer_deleteSeat hhall hs hat.1
    refine ⟨hanswer, fun later => ?_⟩
    have hdeleted := mem_seats_append later hrow rfl
    obtain ⟨hall, hmem, hid⟩ := hhall
    obtain ⟨hall', hmem', hid'⟩ := Table.exists_of_map_subset
      ((grows_cons (.serve (.deleteSeat hallId s.id))).trans (grows_append later)).halls hmem
    have hhall' : ∃ hall ∈ (run settings
        (later ++ .serve (.deleteSeat hallId s.id) :: moves)).db.halls.rows, hall.id = hallId :=
      ⟨hall', hmem', hid'.trans hid⟩
    rw [creationRaises_iff hhall', listed_iff hhall']
    refine ⟨?_, _, hdeleted, hat⟩
    rintro ⟨s', hs', hat', hactive⟩
    have hposition : s'.position = ({ s with isActive := false } : Seat).position := by
      rw [Seat.position, hat'.1, hat'.2.1, hat'.2.2, Seat.position, hat.1, hat.2.1, hat.2.2]
    obtain rfl := (positionsUnique_run _).eq_of_position hs' hdeleted hposition
    cases hactive

namespace Scenario

/-- A hall with a seat, which is deleted. -/
def seatDeleted : List Move :=
  [.serve (.deleteSeat 1 1), .serve (.createSeat 1 1 1),
    .serve (.createHall Concurrent.Scenario.hallBody)]

end Scenario

open Scenario

theorem agreesWithList_seatDeleted : AgreesWithList BookingApi.settings seatDeleted 1 1 1 ∧
    AgreesWithList BookingApi.settings seatDeleted 1 1 2 :=
  ⟨agreesWithList (by decide +kernel) 1 1, agreesWithList (by decide +kernel) 1 2⟩

/-- The seat is not listed, and its position cannot be created again. -/
theorem creationRaises_seatDeleted : CreationRaises BookingApi.settings seatDeleted 1 1 1 ∧
    ¬ Listed BookingApi.settings seatDeleted 1 1 1 := by
  refine ⟨⟨"Seat 1-1 already exists", by decide +kernel⟩, ?_⟩
  rintro ⟨seats, hanswer, s, hs, -⟩
  have hnone : answer BookingApi.settings seatDeleted (listSeats 1) = .ok [] := by decide +kernel
  obtain rfl := Except.ok.inj (hanswer.symm.trans hnone)
  exact absurd hs List.not_mem_nil

end BookingApi.Serial
