import BookingApi.Serial.Operations

/-!
# Halls and seats, one request at a time

What the routes of `app/routers/halls.py`, the functions of `app/services/seat_service.py` and
`update_user` do when they are served alone.
-/

namespace BookingApi.Serial

open Async BookingService Concurrent HallService SeatService UserService World

variable {settings : Settings} {w w' : World} {r : RequestId} {α : Type} {hallId : ℤ}

/-! ### The end of the transaction -/

/-- A handler that raises changes nothing. -/
theorem serve_of_run_error {p : App α} {e : Exc} (hrun : p.run (World.exec r) w = (.error e, w')) :
    (serve r p w).1 = .error e ∧ (serve r p w).2.db = w'.db := by
  rw [serve_eq, hrun]
  exact ⟨rfl, rfl⟩

/-- The changes of one flush are committed. -/
theorem serve_of_run_stage (hidle : w.writesOf r = []) {p : App α} {a : α} {seqs : Sequences}
    {ws : List Write}
    (hrun : p.run (World.exec r) w = (.ok a, (w.setSequences seqs).stage r ws)) :
    (serve r p w).1 = .ok a ∧ (serve r p w).2.db = w.db.applyAll ws ∧
      (serve r p w).2.sequences = seqs := by
  have hidle' : (w.setSequences seqs).writesOf r = [] := hidle
  rw [serve_eq, hrun]
  refine ⟨rfl, ?_, rfl⟩
  show ((w.setSequences seqs).stage r ws).view r = _
  rw [view_stage, view_of_writesOf_nil hidle']
  rfl

theorem view_setSequences_stage (hidle : w.writesOf r = []) (seqs : Sequences) (ws : List Write) :
    ((w.setSequences seqs).stage r ws).view r = w.db.applyAll ws := by
  have hidle' : (w.setSequences seqs).writesOf r = [] := hidle
  rw [view_stage, view_of_writesOf_nil hidle']
  rfl

/-- A flush and what follows it. -/
theorem run_flush_bind_of_ok {β : Type} {statement : Statement β} {f : β → App α} (b : β)
    (ws : List Write) (seqs : Sequences)
    (h : statement w.now w.sequences (w.view r) = (.ok (b, ws), seqs)) :
    ((flush statement).bind f).run (World.exec r) w
      = (f b).run (World.exec r) ((w.setSequences seqs).stage r ws) :=
  run_bind_ok ((run_flush r w statement).trans (exec_flush_of_ok h))

theorem run_flush_bind_of_error {β : Type} {statement : Statement β} {f : β → App α} {e : Exc}
    (seqs : Sequences) (h : statement w.now w.sequences (w.view r) = (.error e, seqs)) :
    ((flush statement).bind f).run (World.exec r) w = (.error e, w.setSequences seqs) :=
  run_bind_error ((run_flush r w statement).trans (exec_flush_of_error h))

/-! ### Users -/

section

variable {userId : ℤ} {data : UserUpdate} {user : User}

end

/-! ### Halls -/

/-- The columns of the hall accept the fields of the body. -/
def Accepts (hall : Hall) (data : HallUpdate) : Prop := ∃ patch, hallPatch hall data = .ok patch

theorem run_getHallOrRaise (hidle : w.writesOf r = []) (hallId : ℤ) :
    (getHallOrRaise hallId).run (World.exec r) w
      = ((w.db.halls.find? hallId).elim (.error .hallNotFound) .ok, w) := by
  rw [getHallOrRaise, Program.bind_eq, run_bind_ok (run_execute _ _ _), view_of_writesOf_nil hidle]
  cases w.db.halls.find? hallId <;> rfl

/-- Without the hall nothing happens. -/
theorem run_getHallOrRaise_bind_of_none (hidle : w.writesOf r = [])
    (hfind : w.db.halls.find? hallId = none) (q : Hall → App α) :
    ((getHallOrRaise hallId).bind q).run (World.exec r) w = (.error .hallNotFound, w) := by
  have hrun := run_getHallOrRaise hidle hallId
  rw [hfind] at hrun
  exact run_bind_error hrun

theorem run_getHallOrRaise_bind_of_some (hidle : w.writesOf r = []) {hall : Hall}
    (hfind : w.db.halls.find? hallId = some hall) (q : Hall → App α) :
    ((getHallOrRaise hallId).bind q).run (World.exec r) w = (q hall).run (World.exec r) w := by
  have hrun := run_getHallOrRaise hidle hallId
  rw [hfind] at hrun
  exact run_bind_ok hrun

section

variable {data : HallUpdate} {hall : Hall}

theorem run_updateHall_of_error (hidle : w.writesOf r = [])
    (hfind : w.db.halls.find? hallId = some hall) {e : Exc} (h : hallPatch hall data = .error e) :
    (HallService.updateHall hallId data).run (World.exec r) w = (.error e, w) := by
  rw [HallService.updateHall, Program.bind_eq, run_getHallOrRaise_bind_of_some hidle hfind]
  refine run_flush_bind_of_error w.sequences ?_
  rw [updateLoadedHall, h]

theorem run_updateHall_of_ok (hidle : w.writesOf r = [])
    (hfind : w.db.halls.find? hallId = some hall) {patch : HallPatch}
    (hpatch : hallPatch hall data = .ok patch) :
    ∃ a, (HallService.updateHall hallId data).run (World.exec r) w
      = (.ok a, (w.setSequences w.sequences).stage r (updateHallRow hallId patch)) := by
  obtain ⟨hmem, hid⟩ := Table.find?_eq_some_iff.mp hfind
  obtain ⟨hall', hmem', hid'⟩ := Table.exists_of_map_subset
    (Db.grows_applyAll w.db (updateHallRow hallId patch)).halls hmem
  have hfind' : (w.db.applyAll (updateHallRow hallId patch)).halls.find? hallId = some hall' :=
    Table.find?_eq_some_iff.mpr ⟨hmem', hid'.trans hid⟩
  apply Exists.intro
  rw [HallService.updateHall, Program.bind_eq, run_getHallOrRaise_bind_of_some hidle hfind]
  refine (run_flush_bind_of_ok () (updateHallRow hallId patch) w.sequences ?_).trans ?_
  · rw [updateLoadedHall, hpatch]
  rw [Program.bind_eq, run_bind_ok (run_execute _ _ _), view_setSequences_stage hidle, hfind']
  rfl

/-- **Updating a hall alone**: the tables are as they were, or the columns that the body sets are
written. -/
theorem db_updateHall (hidle : w.writesOf r = []) (hallId : ℤ) (data : HallUpdate) :
    (serve r (HallService.updateHall hallId data) w).2.db = w.db ∨
      ∃ hall patch, w.db.halls.find? hallId = some hall ∧ hallPatch hall data = .ok patch ∧
        (serve r (HallService.updateHall hallId data) w).2.db
          = w.db.applyAll (updateHallRow hallId patch) := by
  rcases hfind : w.db.halls.find? hallId with _ | hall
  · have hrun := run_getHallOrRaise_bind_of_none (α := HallResponse) hidle hfind
    exact .inl (serve_of_run_error (hrun _)).2
  · cases hpatch : hallPatch hall data with
    | error e => exact .inl (serve_of_run_error (run_updateHall_of_error hidle hfind hpatch)).2
    | ok patch =>
      obtain ⟨a, hrun⟩ := run_updateHall_of_ok hidle hfind hpatch
      exact .inr ⟨hall, patch, rfl, hpatch, (serve_of_run_stage hidle hrun).2.1⟩

end

/-! ### New seats -/

section

variable {positions : List (ℤ × ℤ)} {id : ℤ}

/-- The new seats belong to the hall, are active, and are numbered in order. -/
theorem mem_seatRows {s : Seat} (h : s ∈ seatRows hallId id positions) :
    s.hallId = hallId ∧ s.isActive = true ∧ id ≤ s.id ∧ s.id < id + positions.length := by
  induction positions generalizing id with
  | nil => exact absurd h List.not_mem_nil
  | cons position positions ih =>
    rw [List.length_cons]
    push_cast
    rcases List.mem_cons.mp h with rfl | h
    · exact ⟨rfl, rfl, le_rfl, by simp only; omega⟩
    · obtain ⟨hhall, hactive, hlow, hhigh⟩ := ih h
      exact ⟨hhall, hactive, by omega, by omega⟩

theorem nodup_seatRows (hallId id : ℤ) (positions : List (ℤ × ℤ)) :
    ((seatRows hallId id positions).map Seat.id).Nodup := by
  induction positions generalizing id with
  | nil => exact List.nodup_nil
  | cons position positions ih =>
    rw [seatRows, List.map_cons, List.nodup_cons]
    refine ⟨fun hmem => ?_, ih (id + 1)⟩
    obtain ⟨s, hs, hid⟩ := List.mem_map.mp hmem
    have hlow := (mem_seatRows hs).2.2.1
    simp only at hid
    omega

/-- There is one for each position, in order. -/
theorem positions_seatRows (hallId id : ℤ) (positions : List (ℤ × ℤ)) :
    (seatRows hallId id positions).map (fun s => (s.row, s.number)) = positions := by
  induction positions generalizing id with
  | nil => rfl
  | cons position positions ih => rw [seatRows, List.map_cons, ih]

/-- The sequence after the new seats. -/
def seatsCounted (w : World) (positions : List (ℤ × ℤ)) : Sequences :=
  { w.sequences with seats := w.sequences.seats + positions.length }

/-- The changes of the flush. -/
def seatWrites (hallId : ℤ) (w : World) (positions : List (ℤ × ℤ)) : List Write :=
  (seatRows hallId w.sequences.seats positions).map .insertSeat

theorem run_insertSeats_bind_of_free (hidle : w.writesOf r = []) {hall : Hall}
    (hfind : w.db.halls.find? hallId = some hall) (hnodup : positions.Nodup)
    (hfree : positionTaken w.db hallId positions = false) (f : List ℤ → App α) :
    ((flush (insertSeats hallId positions)).bind f).run (World.exec r) w
      = (f ((seatRows hallId w.sequences.seats positions).map Seat.id)).run (World.exec r)
        ((w.setSequences (seatsCounted w positions)).stage r (seatWrites hallId w positions)) := by
  refine run_flush_bind_of_ok _ _ _ ?_
  rw [view_of_writesOf_nil hidle, insertSeats, hfind, hfree]
  exact if_pos ⟨rfl, hnodup, Bool.false_ne_true⟩

theorem run_insertSeats_bind_of_taken (hidle : w.writesOf r = [])
    (h : ¬ (positions.Nodup ∧ positionTaken w.db hallId positions = false)) (f : List ℤ → App α) :
    ((flush (insertSeats hallId positions)).bind f).run (World.exec r) w
      = (.error .integrityError, w.setSequences (seatsCounted w positions)) := by
  refine run_flush_bind_of_error _ ?_
  rw [view_of_writesOf_nil hidle, insertSeats]
  exact if_neg fun hguard => h ⟨hguard.2.1, eq_false_of_ne_true hguard.2.2⟩

theorem run_orAlreadyExists_of_ok {p : App α} {a : α} (detail : String)
    (hrun : p.run (World.exec r) w = (.ok a, w')) :
    (orAlreadyExists detail p).run (World.exec r) w = (.ok a, w') := by
  rw [orAlreadyExists, Program.run_tryCatch, hrun]

theorem run_orAlreadyExists_of_integrityError {p : App α} (detail : String)
    (hrun : p.run (World.exec r) w = (.error .integrityError, w')) :
    (orAlreadyExists detail p).run (World.exec r) w
      = (.error (.seatAlreadyExistsError detail), w'.close r) := by
  rw [orAlreadyExists, Program.run_tryCatch, hrun]
  rfl

/-- Whatever is raised, the tables are as they were. -/
theorem db_orAlreadyExists_of_error {p : App α} {e : Exc} (detail : String)
    (hrun : p.run (World.exec r) w = (.error e, w')) :
    (serve r (orAlreadyExists detail p) w).2.db = w'.db := by
  rw [serve_eq, orAlreadyExists, Program.run_tryCatch, hrun]
  by_cases he : e = .integrityError
  · simp only [if_pos he]
    rfl
  · simp only [if_neg he]
    rfl

/-- **New seats alone**: the tables are as they were, or there are seats in an existing hall at
distinct positions that were not taken. -/
theorem db_insertSeats (hidle : w.writesOf r = []) (hallId : ℤ) (positions : List (ℤ × ℤ))
    (detail : String) {f : List ℤ → App α} (hf : ∀ ids w, ((f ids).run (World.exec r) w).2 = w) :
    (serve r ((getHallOrRaise hallId).bind fun _ =>
        orAlreadyExists detail ((flush (insertSeats hallId positions)).bind f)) w).2.db = w.db ∨
      (∃ hall ∈ w.db.halls.rows, hall.id = hallId) ∧ positions.Nodup ∧
        positionTaken w.db hallId positions = false ∧
        (serve r ((getHallOrRaise hallId).bind fun _ =>
          orAlreadyExists detail ((flush (insertSeats hallId positions)).bind f)) w).2.db
            = w.db.applyAll (seatWrites hallId w positions) := by
  rcases hfind : w.db.halls.find? hallId with _ | hall
  · have hrun := run_getHallOrRaise_bind_of_none (α := α) hidle hfind
    exact .inl (serve_of_run_error (hrun _)).2
  obtain ⟨hmem, hid⟩ := Table.find?_eq_some_iff.mp hfind
  have hserve : serve r ((getHallOrRaise hallId).bind fun _ =>
      orAlreadyExists detail ((flush (insertSeats hallId positions)).bind f)) w
      = serve r (orAlreadyExists detail ((flush (insertSeats hallId positions)).bind f)) w := by
    rw [serve_eq, serve_eq, run_getHallOrRaise_bind_of_some hidle hfind]
  rw [hserve]
  by_cases hguard : positions.Nodup ∧ positionTaken w.db hallId positions = false
  · have hrun := run_insertSeats_bind_of_free hidle hfind hguard.1 hguard.2 f
    have hworld := hf ((seatRows hallId w.sequences.seats positions).map Seat.id)
      ((w.setSequences (seatsCounted w positions)).stage r (seatWrites hallId w positions))
    rcases hres : (f ((seatRows hallId w.sequences.seats positions).map Seat.id)).run
      (World.exec r) ((w.setSequences (seatsCounted w positions)).stage r
        (seatWrites hallId w positions)) with ⟨e | a, w'⟩ <;>
      rw [hres] at hworld hrun <;> obtain rfl := hworld
    · have hdb := db_orAlreadyExists_of_error detail hrun
      exact .inl hdb
    · have hstage := serve_of_run_stage hidle (run_orAlreadyExists_of_ok detail hrun)
      exact .inr ⟨⟨hall, hmem, hid⟩, hguard.1, hguard.2, hstage.2.1⟩
  · have hdb := db_orAlreadyExists_of_error detail (run_insertSeats_bind_of_taken hidle hguard f)
    exact .inl hdb

end

/-! ### Reading seats back -/

theorem run_refreshSeat (seatId : ℤ) (w : World) :
    (refreshSeat seatId).run (World.exec r) w
      = (((w.view r).seats.find? seatId).elim (.error .noResultFound) .ok, w) := by
  rw [refreshSeat, Program.bind_eq, run_bind_ok (run_execute _ _ _)]
  cases (w.view r).seats.find? seatId <;> rfl

theorem world_refreshSeat (seatId : ℤ) (w : World) :
    ((refreshSeat seatId).run (World.exec r) w).2 = w :=
  congrArg Prod.snd (run_refreshSeat seatId w)

/-- Refreshing changes nothing. -/
theorem world_refreshSeats (seatIds : List ℤ) (w : World) :
    ((refreshSeats seatIds).run (World.exec r) w).2 = w := by
  induction seatIds with
  | nil => rfl
  | cons seatId rest ih =>
    rw [refreshSeats, Program.bind_eq]
    rcases hfind : (w.view r).seats.find? seatId with _ | seat
    · have hseat := run_refreshSeat (r := r) seatId w
      rw [hfind] at hseat
      exact congrArg Prod.snd (run_bind_error hseat)
    · have hseat := run_refreshSeat (r := r) seatId w
      rw [hfind] at hseat
      rw [run_bind_ok hseat]
      simp only [Program.bind_eq, Program.run_bind]
      rcases hrest : (refreshSeats rest).run (World.exec r) w with ⟨e | seats, w'⟩ <;>
        rw [hrest] at ih <;> exact ih

/-- Rows that are there are read back. -/
theorem run_refreshSeats {rows : List Seat}
    (h : ∀ s ∈ rows, (w.view r).seats.find? s.id = some s) :
    (refreshSeats (rows.map Seat.id)).run (World.exec r) w = (.ok rows, w) := by
  induction rows with
  | nil => rfl
  | cons s rows ih =>
    have hseat := run_refreshSeat (r := r) s.id w
    rw [h s (List.mem_cons_self ..)] at hseat
    rw [List.map_cons, refreshSeats, Program.bind_eq, run_bind_ok hseat, Program.bind_eq,
      run_bind_ok (ih fun s' hs' => h s' (List.mem_cons_of_mem _ hs'))]
    rfl

end BookingApi.Serial
