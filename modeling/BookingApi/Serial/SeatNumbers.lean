import BookingApi.Serial.Effects
import BookingApi.Serial.Routes

/-!
# The numbers of the seats

Every seat has an id below its sequence (`SeatsNumbered`), and no two seats of a hall have one
position (`Db.PositionsUnique`): both hold in every state of a serial run (`seatsNumbered_run`,
`positionsUnique_run`).
-/

namespace BookingApi

/-- The hall and the position of a seat. -/
def Seat.position (s : Seat) : ℤ × ℤ × ℤ := (s.hallId, s.row, s.number)

/-- The constraint `uq_seat_position`. -/
def Db.PositionsUnique (db : Db) : Prop := (db.seats.rows.map Seat.position).Nodup

theorem Db.PositionsUnique.eq_of_position {db : Db} (h : db.PositionsUnique) {s s' : Seat}
    (hs : s ∈ db.seats.rows) (hs' : s' ∈ db.seats.rows) (hposition : s.position = s'.position) :
    s = s' :=
  List.inj_on_of_nodup_map h hs hs' hposition

end BookingApi

namespace BookingApi.Serial

open Api Async BookingService Concurrent HallService SeatService UserService World

variable {settings : Settings} {w : World} {r : RequestId} {α β : Type}

/-- New seats have numbers of the sequence, from the current one on. -/
def NumbersSeats : ∀ β : Type, Op β → Prop
  | _, .flush statement => ∀ now seqs db, seqs.seats ≤ (statement now seqs db).2.seats ∧
      ∀ b ws, (statement now seqs db).1 = .ok (b, ws) → ∀ s, .insertSeat s ∈ ws →
        s.id < (statement now seqs db).2.seats
  | _, _ => True

/-! ### The handlers -/

/-- A flush of other tables numbers no seat. -/
theorem numbersSeats_of_concerns {tables : List TableName} {statement : Statement β}
    (h : Concerns tables statement) (htables : .seats ∉ tables) :
    NumbersSeats _ (.flush statement) := by
  refine fun now seqs db => ⟨(h.next now seqs db _ htables).ge, fun b ws hs s hins => ?_⟩
  exact absurd (h.writes now seqs db b ws hs _ hins) htables

theorem numbersSeats_insertSeats (hallId : ℤ) (positions : List (ℤ × ℤ)) :
    NumbersSeats _ (.flush (insertSeats hallId positions)) := by
  refine fun now seqs db => ⟨?_, fun b ws h s hs => ?_⟩
  · rw [insertSeats]
    split_ifs <;> simp only <;> omega
  · rw [insertSeats] at h ⊢
    split_ifs at h ⊢ with hfree
    obtain ⟨-, rfl⟩ := Prod.mk.inj (Except.ok.inj h)
    obtain ⟨s', hs', he⟩ := List.mem_map.mp hs
    obtain rfl := Write.insertSeat.inj he
    exact (mem_seatRows hs').2.2.2

theorem numbersSeats_deactivateSeat (seat : Seat) :
    NumbersSeats _ (.flush (deactivateSeat seat)) := by
  refine fun now seqs db => ⟨le_rfl, fun b ws h s hs => ?_⟩
  cases mem_deactivateSeat h hs

/-- **Every operation** numbers its seats from the sequence. -/
theorem numbersSeats_handler (settings : Settings) (op : Operation) :
    (op.handler settings).Uses NumbersSeats := by
  by_cases hseats : .seats ∉ op.tables
  · refine (flushesIn_handler settings op).mono fun β o ho => ?_
    cases o with
    | flush statement => exact numbersSeats_of_concerns ho hseats
    | _ => trivial
  have hquery : AllowsQueries NumbersSeats := fun _ => trivial
  cases op with
  | createSeat =>
    exact uses_discard (uses_createSeat hquery trivial (numbersSeats_insertSeats ..))
  | bulkCreateSeats =>
    exact uses_discard (uses_bulkCreateSeats hquery trivial (numbersSeats_insertSeats ..))
  | deleteSeat => exact uses_discard (uses_deleteSeat hquery fun _ => numbersSeats_deactivateSeat _)
  | _ => exact absurd (by simp [Operation.tables]) hseats

/-! ### The numbers -/

/-- The next number of the sequence is greater than every id. -/
def SeatsNumbered (w : World) : Prop := ∀ s ∈ w.db.seats.rows, s.id < w.sequences.seats

/-- The same of the open transaction of a request. -/
structure Numbering (r : RequestId) (w : World) : Prop where
  committed : SeatsNumbered w
  pending : ∀ s, .insertSeat s ∈ w.writesOf r → s.id < w.sequences.seats

theorem Numbering.close (h : Numbering r w) : Numbering r (w.close r) :=
  ⟨h.committed, fun _ hs => absurd hs (by simp)⟩

theorem Numbering.commit (h : Numbering r w) : Numbering r (w.commit r) := by
  refine ⟨fun s hs => ?_, fun _ hs => absurd hs (by simp [World.commit])⟩
  obtain ⟨s₀, hs₀, hplace⟩ := Db.exists_place_of_mem_seats_applyAll hs
  rw [← Seat.id_eq_of_place hplace]
  rcases hs₀ with hs₀ | hs₀
  · exact h.committed s₀ hs₀
  · exact h.pending s₀ hs₀

theorem Numbering.exec (h : Numbering r w) {op : Op β} (hop : NumbersSeats β op) :
    Numbering r (World.exec r _ op w).2 := by
  cases op with
  | flush statement =>
    obtain ⟨hle, hnew⟩ := hop w.now w.sequences (w.view r)
    rcases exec_flush (w := w) (r := r) statement with
      ⟨b, ws, seqs, hs, he⟩ | ⟨e, seqs, hs, he⟩ <;> rw [he] <;> rw [hs] at hle hnew
    · refine ⟨fun s hmem => (h.committed s hmem).trans_le hle, fun s hmem => ?_⟩
      rw [writesOf_stage_self] at hmem
      rcases List.mem_append.mp hmem with hmem | hmem
      · exact (h.pending s hmem).trans_le hle
      · exact hnew b ws rfl s hmem
    · exact ⟨fun s hmem => (h.committed s hmem).trans_le hle,
        fun s hmem => (h.pending s hmem).trans_le hle⟩
  | commit => exact h.commit
  | rollback => exact h.close
  | _ => exact ⟨h.committed, h.pending⟩

theorem seatsNumbered_serve {p : App α} (hp : p.Uses NumbersSeats) (hidle : w.writesOf r = [])
    (h : SeatsNumbered w) : SeatsNumbered (serve r p w).2 := by
  have hrun : Numbering r (p.run (World.exec r) w).2 :=
    hp.run_rel _ (R := fun w w' => Numbering r w → Numbering r w') (fun _ h => h)
      (fun h h' hw => h' (h hw)) (fun _ _ hop h => h.exec hop) w
      ⟨h, fun _ hs => by simp [hidle] at hs⟩
  rw [serve_eq]
  rcases hp' : p.run (World.exec r) w with ⟨e | a, w'⟩ <;> rw [hp'] at hrun
  · exact hrun.close.committed
  · exact hrun.commit.committed

/-- **Seats are numbered** in every state of a serial run. -/
theorem seatsNumbered_run (moves : List Move) : SeatsNumbered (run settings moves) := by
  induction moves with
  | nil => exact fun s hs => absurd hs List.not_mem_nil
  | cons move moves ih =>
    cases move with
    | serve op => exact seatsNumbered_serve (numbersSeats_handler settings op) (writesOf_run _ _) ih
    | env e => cases e <;> exact ih

/-! ### The positions -/

/-- New seats, after the old ones. -/
theorem seats_applyAll_seatWrites (h : SeatsNumbered w) (hallId : ℤ) (positions : List (ℤ × ℤ)) :
    (w.db.applyAll (seatWrites hallId w positions)).seats.rows
      = w.db.seats.rows ++ seatRows hallId w.sequences.seats positions :=
  Db.seats_applyAll_inserts (nodup_seatRows ..) fun _ hs s' hs' =>
    ((h s' hs').trans_le (mem_seatRows hs).2.2.1).ne

theorem positionTaken_eq_false_iff {db : Db} {hallId : ℤ} {positions : List (ℤ × ℤ)} :
    positionTaken db hallId positions = false ↔
      ∀ s ∈ db.seats.rows, s.hallId = hallId → (s.row, s.number) ∉ positions := by
  rw [positionTaken, List.any_eq_false]
  simp only [decide_eq_true_eq, not_and]

theorem positionsUnique_seatWrites (hn : SeatsNumbered w) (h : w.db.PositionsUnique) {hallId : ℤ}
    {positions : List (ℤ × ℤ)} (hnodup : positions.Nodup)
    (hfree : positionTaken w.db hallId positions = false) :
    (w.db.applyAll (seatWrites hallId w positions)).PositionsUnique := by
  have hnew : (seatRows hallId w.sequences.seats positions).map Seat.position
      = positions.map fun p => (hallId, p.1, p.2) := by
    conv_rhs => rw [← positions_seatRows hallId w.sequences.seats positions]
    rw [List.map_map]
    refine List.map_congr_left fun s hs => ?_
    rw [Seat.position, (mem_seatRows hs).1]
    rfl
  rw [Db.PositionsUnique, seats_applyAll_seatWrites hn, List.map_append, hnew]
  refine List.nodup_append.mpr ⟨h, hnodup.map fun p q hpq => ?_, fun x hx y hy hxy => ?_⟩
  · exact Prod.ext (congrArg (·.2.1) hpq) (congrArg (·.2.2) hpq)
  · obtain ⟨s, hs, rfl⟩ := List.mem_map.mp hx
    obtain ⟨p, hp, rfl⟩ := List.mem_map.mp hy
    obtain ⟨hhall, hposition⟩ := Prod.mk.inj hxy
    exact positionTaken_eq_false_iff.mp hfree s hs hhall (hposition ▸ hp)

/-- Updates move no seat. -/
theorem positionsUnique_applyAll {db : Db} (h : db.PositionsUnique) {ws : List Write}
    (hws : ∀ s, .insertSeat s ∉ ws) : (db.applyAll ws).PositionsUnique := by
  induction ws generalizing db with
  | nil => exact h
  | cons x ws ih =>
    refine ih ?_ fun s hs => hws s (List.mem_cons_of_mem _ hs)
    cases x with
    | insertSeat s => exact absurd (List.mem_cons_self ..) (hws s)
    | updateSeat id isActive =>
      have hsame : (Write.apply db (.updateSeat id isActive)).seats.rows.map Seat.position
          = db.seats.rows.map Seat.position := by
        simp only [Write.apply, Table.modify, List.map_map]
        refine List.map_congr_left fun s _ => ?_
        rw [Function.comp_apply]
        split_ifs <;> rfl
      rw [Db.PositionsUnique, hsame]
      exact h
    | _ => exact h

/-- What a request does to the seats: nothing, or it adds seats to an existing hall at distinct free
positions, or it deactivates seats. -/
inductive SeatsEffect (w : World) (db : Db) : Prop
  | keeps : db.seats = w.db.seats → SeatsEffect w db
  | adds {hallId : ℤ} {positions : List (ℤ × ℤ)} : (∃ hall ∈ w.db.halls.rows, hall.id = hallId) →
      positions.Nodup → positionTaken w.db hallId positions = false →
      db = w.db.applyAll (seatWrites hallId w positions) → SeatsEffect w db
  | deactivates {ws : List Write} : (∀ x ∈ ws, ∃ id, x = .updateSeat id false) →
      db = w.db.applyAll ws → SeatsEffect w db

theorem seatsEffect_insertSeats (hidle : w.writesOf r = []) (hallId : ℤ)
    (positions : List (ℤ × ℤ)) (detail : String) {α : Type} {f : List ℤ → App α}
    (hf : ∀ ids w, ((f ids).run (World.exec r) w).2 = w) :
    SeatsEffect w (serve r (discard ((getHallOrRaise hallId).bind fun _ =>
      orAlreadyExists detail ((flush (insertSeats hallId positions)).bind f))) w).2.db := by
  rw [discard, serve_map]
  rcases db_insertSeats hidle hallId positions detail hf with hdb | ⟨hhall, hnodup, hfree, hdb⟩
  · exact .keeps (congrArg Db.seats hdb)
  · exact .adds hhall hnodup hfree hdb

/-- **What an operation does to the seats.** -/
theorem seatsEffect_serve_handler (settings : Settings) (hidle : w.writesOf r = [])
    (op : Operation) : SeatsEffect w (serve r (op.handler settings) w).2.db := by
  by_cases hseats : .seats ∉ op.tables
  · exact .keeps (seats_serve_handler hidle hseats)
  cases op with
  | createSeat hallId row number =>
    refine seatsEffect_insertSeats hidle hallId [(row, number)] _ fun ids w => ?_
    cases ids with
    | nil => rfl
    | cons seatId rest => exact world_refreshSeat seatId w
  | bulkCreateSeats hallId rows seatsPerRow =>
    exact seatsEffect_insertSeats hidle hallId _ _ world_refreshSeats
  | deleteSeat hallId seatId =>
    rw [Operation.handler, discard, serve_map]
    have huses : (SeatService.deleteSeat hallId seatId).Uses
        (Touches (fun x => ∃ id, x = .updateSeat id false) fun _ => True) :=
      touches_deleteSeat hallId seatId fun id => ⟨id, rfl⟩
    obtain ⟨ws, hws, hdb⟩ := exists_applyAll_serve huses hidle
    exact .deactivates hws hdb
  | _ => exact absurd (by simp [Operation.tables]) hseats

theorem SeatsEffect.positionsUnique {db : Db} (h : SeatsEffect w db) (hn : SeatsNumbered w)
    (hunique : w.db.PositionsUnique) : db.PositionsUnique := by
  cases h with
  | keeps hseats =>
    rw [Db.PositionsUnique, hseats]
    exact hunique
  | adds _ hnodup hfree hdb =>
    rw [hdb]
    exact positionsUnique_seatWrites hn hunique hnodup hfree
  | deactivates hws hdb =>
    rw [hdb]
    refine positionsUnique_applyAll hunique fun s hs => ?_
    obtain ⟨id, he⟩ := hws _ hs
    cases he

/-- **Positions are unique** in every state of a serial run. -/
theorem positionsUnique_run (moves : List Move) : (run settings moves).db.PositionsUnique := by
  induction moves with
  | nil => exact List.nodup_nil
  | cons move moves ih =>
    cases move with
    | serve op =>
      exact (seatsEffect_serve_handler settings (writesOf_run _ _) op).positionsUnique
        (seatsNumbered_run moves) ih
    | env e => cases e <;> exact ih

end BookingApi.Serial
