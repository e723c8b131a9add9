import BookingApi.Api.Contracts

/-!
# Halls and seats under interference

What the services for halls and seats ensure while other requests run.  A hall that was found stays,
and a position that is taken is taken for good, so that a refused seat exists.
-/

namespace BookingApi.Api

open Async HallService SeatService

variable {faults : Faults} {r : RequestId} {E : Failures} {α : Type} {w : World}

/-! ### Halls -/

theorem hallRecorded_ofHall {db : Db} {hall : Hall} (h : db.halls.find? hall.id = some hall)
    (totalSeats freeSeats : ℕ) :
    HallRecorded { HallResponse.ofHall hall with totalSeats, freeSeats } db :=
  ⟨hall, Db.records_of_row (Db.row_halls_eq_some.mpr h), rfl⟩

theorem meets_getHallOrRaise {ok : Hall → World → Prop} (hidle : Closed r w) (hallId : ℤ)
    (hE : ∀ db, E.may .hallNotFound db)
    (hok : ∀ hall t, Rely r w t → Inv t → t.db.halls.find? hallId = some hall →
      Stably r (ok hall) t) : Meets faults r E ok (getHallOrRaise hallId) w := by
  refine meets_execute_bind fun t hrely ht => ?_
  rw [hrely.view_of_idle hidle]
  cases hfind : t.db.halls.find? hallId with
  | none => exact meets_raise (hE t.db)
  | some hall => exact meets_ret (hok hall t hrely ht hfind)

theorem meets_listHalls :
    Meets faults r E (fun halls t => ∀ hall ∈ halls, HallRecorded hall (t.view r)) listHalls w := by
  refine meets_execute fun t _ _ => Lasting.stably
    (.forall_mem fun hall => lasting_hallRecorded hall) fun hall hhall => ?_
  obtain ⟨h, hh, rfl⟩ := List.mem_map.mp hhall
  have hmem := (List.mem_filter.mp (List.mem_mergeSort.mp hh)).1
  exact hallRecorded_ofHall (Table.find?_eq_some_iff.mpr ⟨hmem, rfl⟩) _ _

theorem meets_getHall (hallId : ℤ) :
    Meets faults r (.among [.hallNotFound])
      (fun hall t => hall.id = hallId ∧ HallRecorded hall (t.view r)) (getHall hallId) w := by
  refine meets_execute_bind fun t _ _ => ?_
  cases hfind : (t.view r).halls.find? hallId with
  | none => exact meets_raise (List.mem_cons_self ..)
  | some hall =>
    obtain rfl : hall.id = hallId := (Table.find?_eq_some_iff.mp hfind).2
    exact meets_ret (Lasting.stably (.and (lasting_const _) (lasting_hallRecorded _))
      ⟨rfl, hallRecorded_ofHall hfind _ _⟩)

theorem meets_createHall (data : HallCreate) :
    Meets faults r (.among [.dbapiError])
      (fun hall t => (hall.name = data.name ∧ hall.capacity = data.capacity) ∧
        HallRecorded hall (t.view r)) (createHall data) w := by
  refine meets_flush_bind fun t hrely ht => ?_
  have hpermits := permits_insertHall (r := r) ht data.name data.capacity data.hourlyRate
  refine ⟨hpermits, fun hallId ws seqs hs => ?_, fun e seqs hs => ?_⟩
  · have hws := hpermits.2 hallId ws (by rw [hs])
    rw [hs] at hws
    obtain ⟨rfl, rate, rfl⟩ := insertHall_eq_ok hs
    refine meets_execute_bind fun t' hrely' _ => ?_
    have hfind := Db.row_halls_eq_some.mp
      (hrely'.row_of_new ht hws (List.nodup_singleton _) (List.mem_singleton_self _) rfl)
    rw [hfind]
    exact meets_ret (Lasting.stably (.and (lasting_const _) (lasting_hallRecorded _))
      ⟨⟨rfl, rfl⟩, hallRecorded_ofHall hfind _ _⟩)
  · rw [insertHall_eq_error hs]
    exact List.mem_cons_self ..

theorem meets_updateHall (hidle : Closed r w) (hallId : ℤ) (data : HallUpdate) :
    Meets faults r (.among [.hallNotFound, .integrityError, .dbapiError])
      (fun hall t => hall.id = hallId ∧ HallRecorded hall (t.view r))
      (updateHall hallId data) w := by
  refine .bind (meets_getHallOrRaise hidle hallId (fun _ => List.mem_cons_self ..)
    fun hall t hrely ht hfind => Meets.stably ?_)
  have hidle₁ := hidle.of_rely hrely
  refine meets_flush_bind fun t' hrely' ht' => ?_
  have hrow : t'.db.row (.halls, hallId) ≠ none :=
    hrely'.later.row_ne_none (Db.row_halls_ne_none.mpr ⟨hall, hfind⟩)
  refine ⟨permits_updateHall ht' (hidle₁.of_rely hrely') hrow hall data, fun _ ws seqs hs => ?_,
    fun e seqs hs => ?_⟩
  · refine meets_execute_bind fun t'' hrely'' _ => ?_
    have hrow' : (t''.view r).row (.halls, hallId) ≠ none := by
      refine hrely''.later_view.row_ne_none (row_view_stage_ne_none ?_)
      rwa [hrely'.view_of_idle hidle₁]
    obtain ⟨hall', hfind'⟩ := Db.row_halls_ne_none.mp hrow'
    obtain rfl : hall'.id = hallId := (Table.find?_eq_some_iff.mp hfind').2
    rw [hfind']
    exact meets_ret (Lasting.stably (.and (lasting_const _) (lasting_hallRecorded _))
      ⟨rfl, hallRecorded_ofHall hfind' _ _⟩)
  · rw [updateLoadedHall] at hs
    cases hpatch : hallPatch hall data with
    | ok patch =>
      rw [hpatch] at hs
      cases (Prod.mk.inj hs).1
    | error e' =>
      rw [hpatch] at hs
      obtain rfl := Except.error.inj (Prod.mk.inj hs).1
      rcases hallPatch_eq_error hpatch with rfl | rfl
      · exact List.mem_cons_of_mem _ (List.mem_cons_self ..)
      · exact List.mem_cons_of_mem _ (List.mem_cons_of_mem _ (List.mem_cons_self ..))

/-- A statement that updates a row of the database, or nothing. -/
theorem meets_flush_update {ok : Unit → World → Prop} (hidle : Closed r w) {x : Write}
    (hins : x.inserts = false) (hrow : w.db.row x.target ≠ none) (hlegal : x.Legal)
    (hclaims : x.claims = none) (changes : Bool) (hok : ∀ t, ok () t) :
    Meets faults r E ok
      (flush fun _ seqs _ => (.ok ((), if changes then [x] else []), seqs)) w :=
  meets_flush fun _ hrely ht =>
    ⟨permits_update ht (hidle.of_rely hrely) hins (hrely.later.row_ne_none hrow) hlegal hclaims
      changes, fun _ _ _ _ _ _ _ => hok _, fun _ _ hs => by cases (Prod.mk.inj hs).1⟩

theorem meets_deleteHall (hidle : Closed r w) (hallId : ℤ) :
    Meets faults r (.among [.hallNotFound]) (fun _ _ => True) (deleteHall hallId) w := by
  refine .bind (meets_getHallOrRaise hidle hallId (fun _ => List.mem_cons_self ..)
    fun hall t hrely ht hfind => Meets.stably ?_)
  exact meets_flush_update (hidle.of_rely hrely)
    (x := .updateHall hallId ⟨none, none, none, some false⟩) rfl
    (Db.row_halls_ne_none.mpr ⟨hall, hfind⟩) (fun id he => by cases he) rfl hall.isActive
    fun _ => trivial

/-! ### Seats -/

theorem seatRecorded_of_find? {db : Db} {id : ℤ} {s : Seat} (h : db.seats.find? id = some s) :
    SeatRecorded s db := by
  obtain rfl : s.id = id := (Table.find?_eq_some_iff.mp h).2
  exact Db.records_of_row (Db.row_seats_eq_some.mpr h)

theorem meets_listSeats (hidle : Closed r w) (hallId : ℤ) :
    Meets faults r (.among [.hallNotFound])
      (fun seats t => ∀ s ∈ seats, s.hallId = hallId ∧ SeatRecorded s (t.view r))
      (listSeats hallId) w := by
  refine .bind (meets_getHallOrRaise hidle hallId (fun _ => List.mem_cons_self ..)
    fun hall t hrely ht hfind => Meets.stably ?_)
  refine meets_execute fun t' _ _ => Lasting.stably
    (.forall_mem fun s => .and (lasting_const _) (lasting_records _ _)) fun s hs => ?_
  obtain ⟨hmem, hhall⟩ := List.mem_filter.mp (List.mem_mergeSort.mp hs)
  exact ⟨(of_decide_eq_true hhall).1,
    seatRecorded_of_find? (Table.find?_eq_some_iff.mpr ⟨hmem, rfl⟩)⟩

theorem meets_refreshSeat {ok : Seat → World → Prop} {s : Seat}
    (hrow : ∀ t, Rely r w t → Inv t → (t.view r).seats.find? s.id = some s)
    (hok : Stably r (ok s) w) : Meets faults r E ok (refreshSeat s.id) w := by
  refine meets_execute_bind fun t hrely ht => ?_
  rw [hrow t hrely ht]
  exact meets_ret fun t' hrely' ht' => hok t' (hrely.trans hrely') ht'

/-- The refreshes return the new rows one by one. -/
theorem meets_refreshSeats {ok : List Seat → World → Prop} {seats : List Seat}
    (hrows : ∀ t, Rely r w t → ∀ s ∈ seats, (t.view r).seats.find? s.id = some s)
    (hok : Stably r (ok seats) w) : Meets faults r E ok (refreshSeats (seats.map Seat.id)) w := by
  induction seats generalizing w ok with
  | nil => exact meets_ret hok
  | cons s seats ih =>
    refine .bind (meets_refreshSeat (fun t hrely _ => hrows t hrely s (List.mem_cons_self ..))
      fun t hrely ht => .bind (ih (fun t' hrely' s' hs' => ?_) fun t' hrely' ht' => ?_))
    · exact hrows t' (hrely.trans hrely') s' (List.mem_cons_of_mem _ hs')
    · exact meets_ret fun t'' hrely'' => hok t'' ((hrely.trans hrely').trans hrely'')

/-- A position that the constraint finds taken is taken. -/
theorem positionTaken_of_insertSeats {db : Db} {hallId : ℤ} {positions : List (ℤ × ℤ)}
    (h : positionTaken db hallId positions = true) : PositionTaken hallId positions db := by
  obtain ⟨s, hs, hplace⟩ := List.any_eq_true.mp h
  obtain ⟨hhall, hposition⟩ := of_decide_eq_true hplace
  exact ⟨s, seatRecorded_of_find? (Table.find?_eq_some_iff.mpr ⟨hs, rfl⟩), hhall, hposition⟩

/-- New seats at different positions of a hall that exists are all there until the end of the
request, unless one of the positions is taken. -/
theorem meets_insertSeats {P : α → Db → Prop} (hidle : Closed r w) {hallId : ℤ}
    (hhall : w.db.row (.halls, hallId) ≠ none) {positions : List (ℤ × ℤ)}
    (hnodup : positions.Nodup) {f : List ℤ → App α}
    (hE : ∀ db, PositionTaken hallId positions db → E.may .integrityError db)
    (hf : ∀ seats t, SeatsCreated hallId positions seats (t.view r) →
      (∀ t', Rely r t t' → ∀ s ∈ seats, (t'.view r).seats.find? s.id = some s) →
      Meets faults r E (fun a t => P a (t.view r)) (f (seats.map Seat.id)) t) :
    Meets faults r E (fun a t => P a (t.view r))
      ((flush (insertSeats hallId positions)).bind f) w := by
  refine meets_flush_bind fun t hrely ht => ?_
  have hpermits := permits_insertSeats ht (hidle.of_rely hrely) hallId positions
  refine ⟨hpermits, fun ids ws seqs hs => ?_, fun e seqs hs => ?_⟩
  · have hws := hpermits.2 ids ws (by rw [hs])
    rw [hs] at hws
    obtain ⟨rfl, rfl⟩ := insertSeats_eq_ok hs
    set seats := seatRows hallId t.sequences.seats positions
    have htargets : ((seats.map Write.insertSeat).map Write.target).Nodup := by
      have hids := Serial.nodup_seatRows hallId t.sequences.seats positions
      have hmap := hids.map (f := fun id => (TableName.seats, id)) fun _ _ h => (Prod.mk.inj h).2
      rwa [List.map_map] at hmap ⊢
    -- a new row is what it was inserted as until the request ends
    have hfind {t' : World}
        (hrely' : Rely r ((t.setSequences seqs).stage r (seats.map .insertSeat)) t') (s : Seat)
        (hmem : s ∈ seats) : (t'.view r).seats.find? s.id = some s :=
      Db.row_seats_eq_some.mp
        (hrely'.row_of_new ht hws htargets (List.mem_map_of_mem hmem) rfl)
    refine hf _ _ ⟨fun s hmem => ?_, Serial.positions_seatRows _ _ _⟩ fun t' hrely' => hfind hrely'
    exact ⟨(Serial.mem_seatRows hmem).1, seatRecorded_of_find? (hfind (.refl r _) s hmem)⟩
  · obtain ⟨rfl, htaken⟩ := insertSeats_eq_error hs
    rw [hrely.view_of_idle hidle] at htaken
    refine hE t.db (positionTaken_of_insertSeats (htaken ?_ hnodup))
    exact Option.isSome_iff_exists.mpr
      (Db.row_halls_ne_none.mp (hrely.later.row_ne_none hhall))

/-- The exception of the constraint becomes one of the service, after a rollback. -/
theorem meets_orAlreadyExists {ok : α → World → Prop} {P : Db → Prop} (hP : Lasting P)
    {detail : String} {p : App α}
    (hp : Meets faults r ⟨fun e db => e = .integrityError ∧ P db, fun hlater h =>
      ⟨h.1, hP hlater h.2⟩⟩ ok p w)
    (hE : ∀ db, P db → E.may (.seatAlreadyExistsError detail) db) :
    Meets faults r E ok (orAlreadyExists detail p) w := by
  refine hp.tryCatch fun e t ht he => ?_
  rcases he with ⟨rfl, htaken⟩ | ⟨f, hfaults, hraises⟩
  · refine meets_call fun t' hrely _ => ⟨trivial, ?_, fun f e t'' hfaults hf => ?_⟩
    · exact meets_raise (hE _ (hP hrely.later htaken))
    · exact meets_raise_of_fault hfaults hf
  · have hne : e ≠ .integrityError := by
      rcases hraises.cases with rfl | rfl | rfl | rfl <;> simp
    show Meets faults r E ok (if e = .integrityError then _ else _) t
    rw [if_neg hne]
    exact fun _ _ _ => .inr ⟨f, hfaults, hraises⟩

theorem meets_createSeat (hidle : Closed r w) (hallId row number : ℤ) :
    Meets faults r (.either (.among [.hallNotFound])
        (.seatExists hallId [(row, number)] s!"Seat {row}-{number} already exists"))
      (fun seat t => SeatsCreated hallId [(row, number)] [seat] (t.view r))
      (createSeat hallId row number) w := by
  refine .bind (meets_getHallOrRaise hidle hallId (fun _ => .inl (List.mem_cons_self ..))
    fun hall t hrely ht hfind => Meets.stably ?_)
  refine meets_orAlreadyExists (lasting_positionTaken hallId [(row, number)]) ?_
    fun db htaken => .inr ⟨rfl, htaken⟩
  refine meets_insertSeats (hidle.of_rely hrely) (Db.row_halls_ne_none.mpr ⟨hall, hfind⟩)
    (List.nodup_singleton _) (fun db htaken => ⟨rfl, htaken⟩) fun seats t' hcreated hfound => ?_
  -- one position, one seat
  obtain ⟨s, rfl⟩ := List.length_eq_one_iff.mp
    ((List.length_map _).symm.trans (congrArg List.length hcreated.2))
  exact meets_refreshSeat (fun t'' hrely'' _ => hfound t'' hrely'' s (List.mem_singleton_self s))
    ((lasting_seatsCreated _ _ _).stably hcreated)

theorem meets_bulkCreateSeats (hidle : Closed r w) (hallId rows seatsPerRow : ℤ) :
    Meets faults r (.either (.among [.hallNotFound])
        (.seatExists hallId (seatGrid rows seatsPerRow) "Some seats already exist"))
      (fun seats t => SeatsCreated hallId (seatGrid rows seatsPerRow) seats (t.view r))
      (bulkCreateSeats hallId rows seatsPerRow) w := by
  refine .bind (meets_getHallOrRaise hidle hallId (fun _ => .inl (List.mem_cons_self ..))
    fun hall t hrely ht hfind => Meets.stably ?_)
  refine meets_orAlreadyExists (lasting_positionTaken hallId (seatGrid rows seatsPerRow)) ?_
    fun db htaken => .inr ⟨rfl, htaken⟩
  refine meets_insertSeats (hidle.of_rely hrely) (Db.row_halls_ne_none.mpr ⟨hall, hfind⟩)
    (nodup_seatGrid rows seatsPerRow) (fun db htaken => ⟨rfl, htaken⟩)
    fun seats t' hcreated hfound => ?_
  exact meets_refreshSeats hfound ((lasting_seatsCreated _ _ _).stably hcreated)

theorem meets_deleteSeat (hidle : Closed r w) (hallId seatId : ℤ) :
    Meets faults r (.among [.hallNotFound, .seatNotFound]) (fun _ _ => True)
      (deleteSeat hallId seatId) w := by
  refine .bind (meets_getHallOrRaise hidle hallId (fun _ => List.mem_cons_self ..)
    fun hall t hrely ht hfind => Meets.stably ?_)
  have hidle₁ := hidle.of_rely hrely
  refine meets_execute_bind fun t' hrely' ht' => ?_
  rw [hrely'.view_of_idle hidle₁]
  cases hseat : t'.db.seats.rows.find? fun s => s.id = seatId ∧ s.hallId = hallId with
  | none => exact meets_raise (List.mem_cons_of_mem _ (List.mem_cons_self ..))
  | some seat =>
    have hfound : t'.db.seats.find? seat.id = some seat :=
      Table.find?_eq_some_iff.mpr ⟨List.mem_of_find?_eq_some hseat, rfl⟩
    exact meets_flush_update (hidle₁.of_rely hrely') (x := .updateSeat seat.id false) rfl
      (Db.row_seats_ne_none.mpr ⟨seat, hfound⟩) (fun id he => by cases he) rfl seat.isActive
      fun _ => trivial

end BookingApi.Api
