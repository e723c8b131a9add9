import BookingApi.HallService.Basic

/-!
# Seats

`app/services/seat_service.py`.  The functions that create seats roll back and raise their own
exception when the flush violates the constraint `uq_seat_position`.
-/

namespace BookingApi.SeatService

open Async HallService

/-- Rows for seats of a hall, numbered from `id`. -/
def seatRows (hallId : ℤ) : ℤ → List (ℤ × ℤ) → List Seat
  | _, [] => []
  | id, (row, number) :: rest => ⟨id, hallId, row, number, true⟩ :: seatRows hallId (id + 1) rest

/-- A seat of the hall, active or not, has one of the positions. -/
def positionTaken (db : Db) (hallId : ℤ) (positions : List (ℤ × ℤ)) : Bool :=
  db.seats.rows.any fun s => s.hallId = hallId ∧ (s.row, s.number) ∈ positions

/-- The `INSERT`s of `Seat` objects, which return their ids. -/
def insertSeats (hallId : ℤ) (positions : List (ℤ × ℤ)) : Statement (List ℤ) := fun _ seqs db =>
  let seqs' := { seqs with seats := seqs.seats + positions.length }
  let rows := seatRows hallId seqs.seats positions
  if (db.halls.find? hallId).isSome ∧ positions.Nodup ∧ ¬ positionTaken db hallId positions then
    (.ok (rows.map Seat.id, rows.map .insertSeat), seqs')
  else (.error .integrityError, seqs')

def listSeats (hallId : ℤ) : App (List Seat) := do
  let _ ← getHallOrRaise hallId
  execute fun db => (db.seats.rows.filter fun s => s.hallId = hallId ∧ s.isActive).mergeSort
    fun s t => s.row < t.row ∨ (s.row = t.row ∧ s.number ≤ t.number)

/-- `db.refresh(seat)`. -/
def refreshSeat (seatId : ℤ) : App Seat := do
  match ← execute fun db => db.seats.find? seatId with
  | none => .raise .noResultFound
  | some seat => return seat

/-- `for seat in seats: await db.refresh(seat)`. -/
def refreshSeats : List ℤ → App (List Seat)
  | [] => return []
  | seatId :: rest => do
    let seat ← refreshSeat seatId
    let seats ← refreshSeats rest
    return seat :: seats

/-- `except IntegrityError: await db.rollback(); raise SeatAlreadyExistsError(detail)`. -/
def orAlreadyExists {α : Type} (detail : String) (p : App α) : App α :=
  p.tryCatch fun e =>
    if e = .integrityError then do
      Program.perform .rollback
      .raise (.seatAlreadyExistsError detail)
    else .raise e

def createSeat (hallId row number : ℤ) : App Seat := do
  let _ ← getHallOrRaise hallId
  orAlreadyExists s!"Seat {row}-{number} already exists" do
    let ids ← flush (insertSeats hallId [(row, number)])
    match ids with
    | seatId :: _ => refreshSeat seatId
    | [] => .raise .noResultFound

/-- `range(1, n + 1)`. -/
def rangeFromOne (n : ℤ) : List ℤ := (List.range n.toNat).map fun i => (i : ℤ) + 1

/-- The positions of the nested loop, in row-major order. -/
def seatGrid (rows seatsPerRow : ℤ) : List (ℤ × ℤ) :=
  (rangeFromOne rows).flatMap fun row => (rangeFromOne seatsPerRow).map fun number => (row, number)

def bulkCreateSeats (hallId rows seatsPerRow : ℤ) : App (List Seat) := do
  let _ ← getHallOrRaise hallId
  orAlreadyExists "Some seats already exist" do
    let ids ← flush (insertSeats hallId (seatGrid rows seatsPerRow))
    refreshSeats ids

/-- The flush of `seat.is_active = False`. -/
def deactivateSeat (seat : Seat) : Statement Unit := fun _ seqs _ =>
  (.ok ((), if seat.isActive then [.updateSeat seat.id false] else []), seqs)

def deleteSeat (hallId seatId : ℤ) : App Unit := do
  let _ ← getHallOrRaise hallId
  match ← execute fun db => db.seats.rows.find? fun s => s.id = seatId ∧ s.hallId = hallId with
  | none => .raise .seatNotFound
  | some seat => flush (deactivateSeat seat)

/-! ### The statements -/

theorem mem_insertSeats {hallId : ℤ} {positions : List (ℤ × ℤ)} {now : Instant} {seqs : Sequences}
    {db : Db} {b : List ℤ} {ws : List Write}
    (h : (insertSeats hallId positions now seqs db).1 = .ok (b, ws)) {x : Write} (hx : x ∈ ws) :
    ∃ s ∈ seatRows hallId seqs.seats positions, x = .insertSeat s := by
  rw [insertSeats] at h
  split_ifs at h
  obtain ⟨-, rfl⟩ := Prod.mk.inj (Except.ok.inj h)
  obtain ⟨s, hs, rfl⟩ := List.mem_map.mp hx
  exact ⟨s, hs, rfl⟩

theorem mem_deactivateSeat {seat : Seat} {now : Instant} {seqs : Sequences} {db : Db} {b : Unit}
    {ws : List Write} (h : (deactivateSeat seat now seqs db).1 = .ok (b, ws)) {x : Write}
    (hx : x ∈ ws) : x = .updateSeat seat.id false := by
  obtain ⟨-, rfl⟩ := Prod.mk.inj (Except.ok.inj h)
  split_ifs at hx
  · exact List.mem_singleton.mp hx
  · exact absurd hx List.not_mem_nil

theorem concerns_insertSeats (hallId : ℤ) (positions : List (ℤ × ℤ)) :
    Concerns [.seats] (insertSeats hallId positions) := by
  refine ⟨fun now seqs db table htable => ?_, fun now seqs db b ws h x hx => ?_⟩
  · rw [insertSeats]
    split_ifs <;> cases table <;> first | rfl | exact absurd (List.mem_singleton_self _) htable
  · obtain ⟨s, -, rfl⟩ := mem_insertSeats h hx
    exact List.mem_singleton_self _

theorem concerns_deactivateSeat (seat : Seat) : Concerns [.seats] (deactivateSeat seat) := by
  refine ⟨fun _ _ _ _ _ => rfl, fun now seqs db b ws h x hx => ?_⟩
  rw [mem_deactivateSeat h hx]
  exact List.mem_singleton_self _

/-! ### The operations of the routes -/

section

variable {P : ∀ β : Type, Op β → Prop} (hP : AllowsQueries P)

theorem uses_orAlreadyExists {α : Type} (hrollback : P _ .rollback) {detail : String} {p : App α}
    (h : p.Uses P) : (orAlreadyExists detail p).Uses P := by
  refine .tryCatch h fun e => ?_
  split_ifs
  · exact .bind (Program.uses_perform hrollback) fun _ => trivial
  · trivial

include hP

theorem uses_listSeats (hallId : ℤ) : (listSeats hallId).Uses P :=
  .bind (uses_getHallOrRaise hP hallId) fun _ => uses_execute hP _

theorem uses_refreshSeat (seatId : ℤ) : (refreshSeat seatId).Uses P :=
  .bind (uses_execute hP _) fun row => by cases row <;> trivial

theorem uses_refreshSeats (seatIds : List ℤ) : (refreshSeats seatIds).Uses P := by
  induction seatIds with
  | nil => trivial
  | cons seatId rest ih =>
    exact .bind (uses_refreshSeat hP seatId) fun _ => .bind ih fun _ => trivial

theorem uses_createSeat {hallId row number : ℤ} (hrollback : P _ .rollback)
    (hinsert : P _ (.flush (insertSeats hallId [(row, number)]))) :
    (createSeat hallId row number).Uses P := by
  refine .bind (uses_getHallOrRaise hP hallId) fun _ =>
    uses_orAlreadyExists hrollback (.bind (uses_flush hinsert) fun ids => ?_)
  cases ids with
  | nil => trivial
  | cons seatId _ => exact uses_refreshSeat hP seatId

theorem uses_bulkCreateSeats {hallId rows seatsPerRow : ℤ} (hrollback : P _ .rollback)
    (hinsert : P _ (.flush (insertSeats hallId (seatGrid rows seatsPerRow)))) :
    (bulkCreateSeats hallId rows seatsPerRow).Uses P :=
  .bind (uses_getHallOrRaise hP hallId) fun _ =>
    uses_orAlreadyExists hrollback (.bind (uses_flush hinsert) (uses_refreshSeats hP))

theorem uses_deleteSeat {hallId seatId : ℤ}
    (hdeactivate : ∀ seat, P _ (.flush (deactivateSeat seat))) :
    (deleteSeat hallId seatId).Uses P := by
  refine .bind (uses_getHallOrRaise hP hallId) fun _ => .bind (uses_execute hP _) fun row => ?_
  cases row with
  | none => trivial
  | some seat => exact uses_flush (hdeactivate seat)

end

end BookingApi.SeatService
