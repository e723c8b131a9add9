import BookingApi.Schemas.Patch
import BookingApi.Serial.Effects
import BookingApi.Serial.Routes

/-!
# Active seats of inactive halls

Deactivating a hall leaves its seats alone, and seats are created in a hall whether it is active or
not, so that an active seat may belong to an inactive hall.  `Strands` says which operations do this
in which state.  In a serial run without such an operation every active seat belongs to an active
hall: `seatsInActiveHalls_of_not_strands`.
-/

namespace BookingApi

/-- Every active seat belongs to an active hall. -/
def Db.SeatsInActiveHalls (db : Db) : Prop :=
  ∀ s ∈ db.seats.rows, s.isActive = true → db.HallActive s.hallId

/-- The hall has an active seat. -/
def Db.HasActiveSeat (db : Db) (hallId : ℤ) : Prop :=
  ∃ s ∈ db.seats.rows, s.hallId = hallId ∧ s.isActive = true

end BookingApi

namespace BookingApi.Serial

open Api Async BookingService Concurrent HallService SeatService UserService World

variable {settings : Settings} {w : World} {r : RequestId} {db db' : Db} {α : Type}

/-- There is an inactive hall, and its seats take none of the positions. -/
def InactiveAndFree (db : Db) (hallId : ℤ) (positions : List (ℤ × ℤ)) : Prop :=
  (∃ hall ∈ db.halls.rows, hall.id = hallId ∧ hall.isActive = false) ∧ positions ≠ [] ∧
    positionTaken db hallId positions = false

/-- The operation deactivates a hall with an active seat, or creates a seat in an inactive hall. -/
def Operation.Strands (db : Db) : Operation → Prop
  | .deleteHall hallId => db.HasActiveSeat hallId
  | .updateHall hallId data => data.isActive = some (some false) ∧ db.HasActiveSeat hallId ∧
      ∃ hall, db.halls.find? hallId = some hall ∧ Accepts hall data
  | .createSeat hallId row number => InactiveAndFree db hallId [(row, number)]
  | .bulkCreateSeats hallId rows seatsPerRow =>
      InactiveAndFree db hallId (seatGrid rows seatsPerRow)
  | _ => False

/-! ### Changes of halls and seats -/

/-- Changes keep every active seat in an active hall if they add seats to active halls only,
activate no seat, and deactivate no hall with an active seat. -/
theorem seatsInActiveHalls_applyAll (h : db.SeatsInActiveHalls) {ws : List Write}
    (hnew : ∀ s, .insertSeat s ∈ ws →
      db.HallActive s.hallId ∧ ∀ x ∈ ws, ¬ x.deactivatesHall s.hallId)
    (hseats : ∀ id, .updateSeat id true ∉ ws)
    (hhalls : ∀ id, db.HasActiveSeat id → ∀ x ∈ ws, ¬ x.deactivatesHall id) :
    (db.applyAll ws).SeatsInActiveHalls := by
  intro s hs hactive
  rcases Db.mem_seats_applyAll hseats hs hactive with hold | hinsert
  · exact (h s hold hactive).applyAll (hhalls _ ⟨s, hold, rfl, hactive⟩)
  · obtain ⟨hhall, hkept⟩ := hnew s hinsert
    exact hhall.applyAll hkept

/-- The change adds no seat, activates none, and deactivates no hall. -/
def Harmless : Write → Prop
  | .insertSeat _ => False
  | .updateSeat _ isActive => isActive = false
  | .updateHall _ p => p.isActive ≠ some false
  | _ => True

theorem seatsInActiveHalls_serve {p : App α} (hp : p.Uses (Touches Harmless fun _ => True))
    (hidle : w.writesOf r = []) (h : w.db.SeatsInActiveHalls) :
    (serve r p w).2.db.SeatsInActiveHalls := by
  obtain ⟨ws, hws, hdb⟩ := exists_applyAll_serve hp hidle
  have hkept (id : ℤ) (x : Write) (hx : x ∈ ws) : ¬ x.deactivatesHall id := by
    have hharmless := hws x hx
    cases x with
    | updateHall id' p => exact fun hd => hharmless (of_decide_eq_true hd).2
    | _ => exact Bool.false_ne_true
  rw [hdb]
  refine seatsInActiveHalls_applyAll h (fun s hs => (hws _ hs).elim) (fun id hid => ?_)
    fun id _ x hx => hkept id x hx
  exact absurd (hws _ hid) (by simp [Harmless])

/-! ### One operation -/

theorem harmless_of_table {x : Write} (hhalls : x.table ≠ .halls) (hseats : x.table ≠ .seats) :
    Harmless x := by
  cases x with
  | insertSeat s => exact hseats rfl
  | updateSeat id isActive => exact absurd rfl hseats
  | updateHall id p => exact absurd rfl hhalls
  | _ => trivial

theorem seatsInActiveHalls_insertSeats (hidle : w.writesOf r = []) (h : w.db.SeatsInActiveHalls)
    {hallId : ℤ} {positions : List (ℤ × ℤ)} (hsafe : ¬ InactiveAndFree w.db hallId positions)
    (detail : String) {f : List ℤ → App α} (hf : ∀ ids w, ((f ids).run (World.exec r) w).2 = w) :
    (serve r ((getHallOrRaise hallId).bind fun _ =>
      orAlreadyExists detail
        ((flush (insertSeats hallId positions)).bind f)) w).2.db.SeatsInActiveHalls := by
  rcases db_insertSeats hidle hallId positions detail hf with
    hdb | ⟨⟨hall, hmem, hid⟩, -, hfree, hdb⟩
  · rwa [hdb]
  have hinserts {x : Write}
      (hx : x ∈ (seatRows hallId w.sequences.seats positions).map .insertSeat) :
      ∃ s, s ∈ seatRows hallId w.sequences.seats positions ∧ x = .insertSeat s := by
    obtain ⟨s, hs, rfl⟩ := List.mem_map.mp hx
    exact ⟨s, hs, rfl⟩
  have hkept (id : ℤ) (x : Write)
      (hx : x ∈ (seatRows hallId w.sequences.seats positions).map .insertSeat) :
      ¬ x.deactivatesHall id := by
    obtain ⟨s, -, rfl⟩ := hinserts hx
    exact Bool.false_ne_true
  rw [hdb]
  refine seatsInActiveHalls_applyAll h (fun s hs => ⟨?_, hkept _⟩) (fun id hx => ?_)
    fun id _ => hkept id
  · obtain ⟨s', hs', he⟩ := hinserts hs
    obtain rfl := Write.insertSeat.inj he
    rw [(mem_seatRows hs').1]
    refine ⟨hall, hmem, hid, ?_⟩
    by_contra hinactive
    refine hsafe ⟨⟨hall, hmem, hid, eq_false_of_ne_true hinactive⟩, ?_, hfree⟩
    rintro rfl
    exact absurd hs' List.not_mem_nil
  · obtain ⟨s, -, he⟩ := hinserts hx
    cases he

/-- Deactivating a hall without active seats. -/
theorem seatsInActiveHalls_deactivate (h : db.SeatsInActiveHalls) {hallId : ℤ}
    (hseat : ¬ db.HasActiveSeat hallId) {ws : List Write}
    (hws : ∀ x ∈ ws, ∃ p, x = .updateHall hallId p) : (db.applyAll ws).SeatsInActiveHalls := by
  refine seatsInActiveHalls_applyAll h (fun s hs => ?_) (fun id hid => ?_)
    fun id hid x hx hoff => ?_
  · obtain ⟨p, hp⟩ := hws _ hs
    cases hp
  · obtain ⟨p, hp⟩ := hws _ hid
    cases hp
  · obtain ⟨p, rfl⟩ := hws x hx
    obtain ⟨rfl, -⟩ := of_decide_eq_true hoff
    exact hseat hid

theorem isActive_of_hallPatch {hall : Hall} {data : HallUpdate} {patch : HallPatch}
    (h : hallPatch hall data = .ok patch) (hoff : patch.isActive = some false) :
    data.isActive = some (some false) := by
  obtain ⟨-, -, -, -, hactive⟩ := hallPatch_eq_ok_iff.mp h
  rw [hoff] at hactive
  exact (PatchField.ne_of_column hactive).1

/-- **One operation** that does not strand a seat keeps the active seats in active halls. -/
theorem seatsInActiveHalls_serve_handler (hidle : w.writesOf r = [])
    (h : w.db.SeatsInActiveHalls) {op : Operation} (hsafe : ¬ op.Strands w.db) :
    (serve r (op.handler settings) w).2.db.SeatsInActiveHalls := by
  -- most operations write neither table
  by_cases hquiet : .halls ∉ op.tables ∧ .seats ∉ op.tables
  · refine seatsInActiveHalls_serve ((touches_handler settings op).mono fun _ _ hop =>
      hop.mono (fun x hx => harmless_of_table ?_ ?_) fun _ _ => trivial) hidle h
    · exact fun hx' => hquiet.1 (hx' ▸ hx)
    · exact fun hx' => hquiet.2 (hx' ▸ hx)
  cases op with
  | createHall data =>
    rw [Operation.handler, discard, serve_map]
    exact seatsInActiveHalls_serve (touches_createHall data fun _ _ => trivial) hidle h
  | deleteSeat hallId seatId =>
    rw [Operation.handler, discard, serve_map]
    exact seatsInActiveHalls_serve (touches_deleteSeat hallId seatId fun _ => rfl) hidle h
  | createSeat hallId row number =>
    rw [Operation.handler, discard, serve_map]
    refine seatsInActiveHalls_insertSeats hidle h hsafe _ fun ids w => ?_
    cases ids with
    | nil => rfl
    | cons seatId rest => exact world_refreshSeat seatId w
  | bulkCreateSeats hallId rows seatsPerRow =>
    rw [Operation.handler, discard, serve_map]
    exact seatsInActiveHalls_insertSeats hidle h hsafe _ world_refreshSeats
  | deleteHall hallId =>
    rw [Operation.handler, discard, serve_map]
    have huses : (HallService.deleteHall hallId).Uses
        (Touches (fun x => x = .updateHall hallId ⟨none, none, none, some false⟩)
          fun _ => True) := touches_deleteHall hallId rfl
    obtain ⟨ws, hws, hdb⟩ := exists_applyAll_serve huses hidle
    rw [hdb]
    exact seatsInActiveHalls_deactivate h hsafe fun x hx => ⟨_, hws x hx⟩
  | updateHall hallId data =>
    rw [Operation.handler, discard, serve_map]
    by_cases hoff : data.isActive = some (some false)
    · -- the hall has no active seat, or the body is not accepted
      rcases db_updateHall hidle hallId data with hdb | ⟨hall, patch, hfind, hpatch, hdb⟩
      · rwa [hdb]
      · have hseat : ¬ w.db.HasActiveSeat hallId := fun hseat =>
          hsafe ⟨hoff, hseat, hall, hfind, patch, hpatch⟩
        rw [hdb]
        refine seatsInActiveHalls_deactivate h hseat fun x hx => ?_
        rw [updateHallRow] at hx
        split_ifs at hx
        · exact absurd hx List.not_mem_nil
        · exact ⟨_, List.mem_singleton.mp hx⟩
    · exact seatsInActiveHalls_serve (touches_updateHall hallId data fun hall patch hpatch hp =>
        hoff (isActive_of_hallPatch hpatch hp)) hidle h
  | _ => exact absurd ⟨by simp [Operation.tables], by simp [Operation.tables]⟩ hquiet

/-! ### Runs -/

/-- **One run** without an operation that strands a seat. -/
theorem seatsInActiveHalls_run {moves : List Move}
    (hsafe : ∀ op earlier, .serve op :: earlier <:+ moves →
      ¬ op.Strands (run settings earlier).db) :
    (run settings moves).db.SeatsInActiveHalls := by
  induction moves with
  | nil => exact fun s hs => absurd hs List.not_mem_nil
  | cons move moves ih =>
    have hkept := ih fun op earlier hsuffix =>
      hsafe op earlier (hsuffix.trans (List.suffix_cons _ _))
    cases move with
    | env e => cases e <;> exact hkept
    | serve op =>
      exact seatsInActiveHalls_serve_handler (writesOf_run _ _) hkept
        (hsafe op moves List.suffix_rfl)

/-- **Active seats in active halls**: this holds in every state of a serial run in which no
operation deactivates a hall with an active seat or creates a seat in an inactive hall. -/
theorem seatsInActiveHalls_of_not_strands {moves : List Move}
    (hsafe : ∀ op earlier, .serve op :: earlier <:+ moves →
      ¬ op.Strands (run settings earlier).db) {reached : List Move} (hreached : reached <:+ moves) :
    (run settings reached).db.SeatsInActiveHalls :=
  seatsInActiveHalls_run fun op earlier hsuffix => hsafe op earlier (hsuffix.trans hreached)

namespace Scenario

/-- A hall and a seat, the latest first. -/
def hallWithSeat : List Move :=
  [.serve (.createSeat 1 1 1), .serve (.createHall Concurrent.Scenario.hallBody)]

end Scenario

open Scenario in
/-- The seat is removed before its hall. -/
theorem seatsInActiveHalls_deleted :
    (run BookingApi.settings (.serve (.deleteHall 1) :: .serve (.deleteSeat 1 1) ::
      hallWithSeat)).db.SeatsInActiveHalls := by
  refine seatsInActiveHalls_of_not_strands (fun op earlier hsuffix => ?_) List.suffix_rfl
  simp only [hallWithSeat, List.suffix_cons_iff, List.suffix_nil, List.cons.injEq,
    Move.serve.injEq, reduceCtorEq, or_false] at hsuffix
  rcases hsuffix with ⟨rfl, rfl⟩ | ⟨rfl, rfl⟩ | ⟨rfl, rfl⟩ | ⟨rfl, rfl⟩
  · rw [Operation.Strands, Db.HasActiveSeat]
    decide +kernel
  · exact id
  · rw [Operation.Strands, InactiveAndFree]
    decide +kernel
  · exact id

open Scenario in
/-- The hall is removed with its seat. -/
theorem exists_seat_of_inactive_hall :
    ∃ s ∈ (run BookingApi.settings (.serve (.deleteHall 1) :: hallWithSeat)).db.seats.rows,
      s.isActive = true ∧
        ¬ (run BookingApi.settings (.serve (.deleteHall 1) :: hallWithSeat)).db.HallActive s.hallId
    := by
  refine ⟨⟨1, 1, 1, 1, true⟩, ?_, rfl, ?_⟩
  · decide +kernel
  · rw [Db.HallActive]
    decide +kernel

end BookingApi.Serial
