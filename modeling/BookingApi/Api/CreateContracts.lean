import BookingApi.Api.BookingContracts

/-!
# Creating a booking under interference

What `create_booking` ensures while other requests run.  The rows that it inserts are its own until
the commit, whatever else is committed meanwhile (`newBooking_of_writes`); the rows of the user, the
hall and the seats that it has looked up are still there when it inserts them, so that no foreign
key is violated.
-/

namespace BookingApi.Api

open Async BookingService

variable {faults : Faults} {r : RequestId} {E : Failures} {α : Type} {w : World}

/-! ### The lock -/

/-- A cleanup that takes nothing back. -/
theorem Meets.tryFinally {P : α → Db → Prop} (hP : ∀ a, Lasting (P a)) {p : App α}
    {cleanup : App Unit} (h : Meets faults r E (fun a t => P a (t.view r)) p w)
    (hcleanup : ∀ t, Inv t → Meets faults r .none
      (fun _ u => (t.view r).Later (u.view r) ∧ t.db.Later u.db) cleanup t) :
    Meets faults r E (fun a t => P a (t.view r)) (p.tryFinally cleanup) w := by
  refine Program.Ensures.tryFinally (Program.Ensures.mono h fun res t ht hend => ?_)
  refine Program.Ensures.mono (hcleanup t ht) fun res' u _ hend' => ?_
  cases res' with
  | error e => exact hend'.imp_left False.elim
  | ok _ =>
    cases res with
    | ok a => exact hP a hend'.1 hend
    | error e => exact hend.imp_left (E.lasts hend'.2)

theorem meets_releaseLock (hallId : ℤ) (startTime : DateTime) (token : String) :
    Meets faults r .none (fun _ u => (w.view r).Later (u.view r) ∧ w.db.Later u.db)
      (do let _ ← releaseLock (lockKey hallId startTime) token) w := by
  have hkey (hallId' : ℤ) (date : Date) := cacheKey_ne_lockKey hallId' hallId date startTime
  refine .bind (meets_redisCall_bind (fun rd h => h.evalRelease hkey token) fun t hrely _ =>
    meets_ret fun t' hrely' _ => meets_ret fun u hrely'' _ => ?_)
  have hrely₂ := hrely'.trans hrely''
  exact ⟨hrely.later_view.trans hrely₂.later_view, hrely.later.trans hrely₂.later⟩

/-! ### The validations -/

theorem sub_of_validateTimeSlot {settings : Settings} {startTime endTime : DateTime}
    (h : validateTimeSlot settings startTime endTime = .ok ()) :
    ∃ duration, endTime.sub startTime = .ok duration :=
  ⟨_, if_pos (validateTimeSlot_eq_ok_iff.mp h).1⟩

theorem meets_checkSeatConflicts {ok : List Seat → World → Prop} (hallId : ℤ) (seatIds : List ℤ)
    (startTime endTime : DateTime) (hE : ∀ detail db, E.may (.bookingConflictError detail) db)
    (hok : ∀ seats t, Rely r w t → Inv t → ok seats t) :
    Meets faults r E ok (checkSeatConflicts hallId seatIds startTime endTime none) w := by
  refine meets_execute_bind fun t hrely _ => ?_
  show Meets faults r E ok (if _ then _ else _) t
  split_ifs
  · exact meets_raise (hE _ _)
  · exact meets_ret fun t' hrely' => hok _ t' (hrely.trans hrely')

/-- The seats that were found exist. -/
theorem meets_validateSeatsExist {ok : List Seat → World → Prop} (hidle : Closed r w) (hallId : ℤ)
    (seatIds : List ℤ) (hE : ∀ detail db, E.may (.seatNotFoundError detail) db)
    (hok : ∀ seats t, Rely r w t → (∀ seatId ∈ seatIds, t.db.row (.seats, seatId) ≠ none) →
      Stably r (ok seats) t) :
    Meets faults r E ok (validateSeatsExist hallId seatIds) w := by
  refine meets_execute_bind fun t hrely _ => ?_
  rw [hrely.view_of_idle hidle]
  show Meets faults r E ok (if _ then _ else _) t
  split_ifs with hlength
  · exact meets_raise (hE _ _)
  · refine meets_ret (hok _ t hrely fun seatId hseat => ?_)
    obtain ⟨s, hs, hid, -⟩ :=
      (length_selectActiveSeats_eq_iff.mp (not_not.mp hlength)).2 seatId hseat
    exact Db.row_seats_ne_none.mpr ⟨s, Table.find?_eq_some_iff.mpr ⟨hs, hid⟩⟩

/-! ### The new rows -/

theorem insertBooking_eq_error_of_rows {userId hallId : ℤ} {startTime endTime now : Instant}
    {price : Decimal} {status : BookingStatus} {seqs seqs' : Sequences} {db : Db} {e : Exc}
    (huser : db.row (.users, userId) ≠ none) (hhall : db.row (.halls, hallId) ≠ none)
    (h : insertBooking userId hallId startTime endTime price status now seqs db
      = (.error e, seqs')) : e = .dbapiError := by
  have hrows : (db.users.find? userId).isSome ∧ (db.halls.find? hallId).isSome :=
    ⟨Option.isSome_iff_exists.mpr (Db.row_users_ne_none.mp huser),
      Option.isSome_iff_exists.mpr (Db.row_halls_ne_none.mp hhall)⟩
  rw [insertBooking] at h
  split at h
  · rename_i e' hprice
    obtain rfl := Except.error.inj (Prod.mk.inj h).1
    exact storeNumeric_eq_error hprice
  · rw [if_pos hrows] at h
    cases (Prod.mk.inj h).1

theorem ne_error_of_rows {bookingId : ℤ} {seatIds : List ℤ} {now : Instant}
    {seqs seqs' : Sequences} {db : Db} {e : Exc} (hbooking : db.row (.bookings, bookingId) ≠ none)
    (hseats : ∀ seatId ∈ seatIds, db.row (.seats, seatId) ≠ none) :
    insertBookingSeats bookingId seatIds now seqs db ≠ (.error e, seqs') := by
  have hrows : (db.bookings.find? bookingId).isSome ∧
      ∀ s ∈ seatIds, (db.seats.find? s).isSome :=
    ⟨Option.isSome_iff_exists.mpr (Db.row_bookings_ne_none.mp hbooking),
      fun s hs => Option.isSome_iff_exists.mpr (Db.row_seats_ne_none.mp (hseats s hs))⟩
  intro h
  rw [insertBookingSeats, if_pos hrows] at h
  cases (Prod.mk.inj h).1

/-- **A new booking** looks as it was inserted until the request ends. -/
theorem newBooking_of_writes (h : Inv w) {b : Booking} {rows : List BookingSeat}
    (hwrites : w.writesOf r = .insertBooking b :: rows.map .insertBookingSeat)
    (hnodup : (rows.map BookingSeat.id).Nodup) (hnew : ∀ bs ∈ rows, bs.bookingId = b.id) :
    (w.view r).bookings.find? b.id = some b ∧ (w.view r).seatsOf b.id = rows := by
  have hbooking : Write.insertBooking b ∈ w.writesOf r := hwrites ▸ List.mem_cons_self ..
  have hfree : w.db.row (.bookings, b.id) = none := h.consistent.fresh hbooking rfl
  constructor
  · -- no other write has the row of the booking as its target
    have htargets : ((w.writesOf r).map Write.target).Nodup := by
      rw [hwrites, List.map_cons, List.map_map, List.nodup_cons]
      refine ⟨fun hmem => ?_, ?_⟩
      · obtain ⟨bs, -, he⟩ := List.mem_map.mp hmem
        cases he
      · have hmap := hnodup.map (f := fun id => (TableName.bookingSeats, id))
          fun _ _ h => (Prod.mk.inj h).2
        rwa [List.map_map] at hmap
    refine Db.row_bookings_eq_some.mp ?_
    rw [World.view, Db.row_applyAll]
    exact Transaction.Schema.applyAll_insert (S := schema) htargets hbooking hfree
  · rw [World.view, hwrites]
    refine Db.seatsOf_newBooking hnodup (fun bs hbs bs' hbs' hid => ?_) (fun bs hbs hid => ?_) hnew
    · -- the ids of the new rows are new
      have hmem : Write.insertBookingSeat bs ∈ w.writesOf r :=
        hwrites ▸ List.mem_cons_of_mem _ (List.mem_map_of_mem hbs)
      have hnone : w.db.row (.bookingSeats, bs.id) = none := h.consistent.fresh hmem rfl
      have hsome : w.db.row (.bookingSeats, bs.id) = some (.bookingSeat bs') :=
        Db.row_bookingSeats_eq_some.mpr (Table.find?_eq_some_iff.mpr ⟨hbs', hid⟩)
      cases hnone.symm.trans hsome
    · -- and no row refers to a booking that is not there
      have hsome : w.db.row (.bookingSeats, bs.id) = some (.bookingSeat bs) :=
        Db.row_bookingSeats_eq_some.mpr (Table.find?_eq_some_iff.mpr ⟨hbs, rfl⟩)
      have hclosed : w.db.row (.bookings, bs.bookingId) ≠ none :=
        h.consistent.base.closed (k := (.bookingSeats, bs.id)) hsome (List.mem_cons_self ..)
      exact hclosed (hid ▸ hfree)

/-! ### Creating a booking -/

/-- A loaded booking that was just created. -/
def NewlyBooked (hallId : ℤ) (seatIds : List ℤ) (startTime endTime : DateTime) (b : LoadedBooking)
    (db : Db) : Prop :=
  (b.booking.hallId = hallId ∧ b.booking.startTime = startTime.instant ∧
    b.booking.endTime = endTime.instant ∧ b.bookingSeats.map BookingSeat.seatId = seatIds) ∧
  LoadedRecorded b db

theorem lasting_newlyBooked (hallId : ℤ) (seatIds : List ℤ) (startTime endTime : DateTime)
    (b : LoadedBooking) : Lasting (NewlyBooked hallId seatIds startTime endTime b) :=
  .and (lasting_const _) (lasting_loadedRecorded b)

theorem meets_createBookingLocked {hall : Hall} {user : User} {userId hallId : ℤ}
    {seatIds : List ℤ} {startTime endTime : DateTime} (hidle : Closed r w)
    (huser : w.db.row (.users, userId) ≠ none) (hhall : w.db.row (.halls, hallId) ≠ none)
    (hseats : ∀ seatId ∈ seatIds, w.db.row (.seats, seatId) ≠ none)
    (hduration : ∃ duration, endTime.sub startTime = .ok duration)
    (hconflict : ∀ detail db, E.may (.bookingConflictError detail) db)
    (hprice : ∀ db, E.may .dbapiError db) :
    Meets faults r E (fun b t => NewlyBooked hallId seatIds startTime endTime b (t.view r))
      (createBookingLocked hall user userId hallId seatIds startTime endTime) w := by
  obtain ⟨duration, hduration⟩ := hduration
  refine .bind (meets_checkSeatConflicts hallId seatIds startTime endTime hconflict
    fun _ t hrely ht => .bind ?_)
  rw [hduration]
  refine meets_ret fun t' hrely' ht' => meets_flush_bind fun u hrely₁ hu => ?_
  have hrely₂ := (hrely.trans hrely').trans hrely₁
  have hidle₁ := hidle.of_rely hrely₂
  have hview : u.view r = u.db := World.view_of_writesOf_nil hidle₁
  have hpermits := permits_insertBooking (r := r) hu userId hallId startTime.instant
    endTime.instant (calculatePrice (.ofHundredths hall.hourlyRate)
      (truncate (durationHours duration))) .confirmed
  refine ⟨hpermits, fun bookingId ws seqs hs => ?_, fun e seqs hs => ?_⟩
  · -- the booking is all that the request has written
    have hws := hpermits.2 bookingId ws (by rw [hs])
    rw [hs] at hws
    obtain ⟨b, hid, -, hhallId, hstart, hend, -, -, -, -, -, rfl, rfl, -⟩ := insertBooking_eq_ok hs
    set u₁ := (u.setSequences seqs).stage r [.insertBooking b]
    have hwrites₁ : u₁.writesOf r = [.insertBooking b] := by
      rw [World.writesOf_stage_self, show (u.setSequences seqs).writesOf r = [] from hidle₁]
      rfl
    refine meets_flush_bind fun v hv hv' => ?_
    refine ⟨permits_insertBookingSeats hv' b.id seatIds, fun _ ws' seqs' hs' => ?_,
      fun e seqs' hs' => absurd hs' (ne_error_of_rows ?_ fun seatId hseat => ?_)⟩
    · obtain ⟨-, -, rfl, -⟩ := insertBookingSeats_eq_ok hs'
      set rows := bookingSeatRows b.id v.sequences.bookingSeats seatIds
      set v₁ := (v.setSequences seqs').stage r (rows.map .insertBookingSeat)
      have hwrites : v₁.writesOf r = .insertBooking b :: rows.map .insertBookingSeat := by
        rw [World.writesOf_stage_self,
          show (v.setSequences seqs').writesOf r = _ from hv.writes.trans hwrites₁]
        rfl
      -- what the request has written is what it reads, whoever runs in between
      have hnew {x : World} (hx : Rely r v₁ x) (hx' : Inv x) :=
        newBooking_of_writes hx' (hx.writes.trans hwrites) (nodup_bookingSeatRows _ _ _)
          fun bs hbs => (mem_bookingSeatRows hbs).2.2.1
      refine meets_execute_bind fun x hx hx' => ?_
      rw [(hnew hx hx').1]
      refine meets_execute_bind fun y hy hy' => ?_
      obtain ⟨hfind, hrows⟩ := hnew (hx.trans hy) hy'
      have hloaded := loadedRecorded_of_records (valid_view hy' r)
        (records_of_mem_bookings (Table.find?_eq_some_iff.mp hfind).1) (some hall)
      rw [hrows] at hloaded
      rw [hfind, hrows]
      refine meets_sendBookingEvent_bind fun z hz _ =>
        meets_ret ((lasting_newlyBooked _ _ _ _ _).stably ?_)
      exact ⟨⟨hhallId, hstart, hend, map_seatId_bookingSeatRows _ _ _⟩,
        lasting_loadedRecorded _ hz.later_view hloaded⟩
    · -- the rows that the new ones refer to are there: the booking, and each seat
      have hrow := hv.row_of_new hu hws (List.nodup_singleton _) (List.mem_singleton_self _) rfl
      exact fun hnone => by cases hrow.symm.trans hnone
    · refine hv.later_view.row_ne_none (row_view_stage_ne_none ?_)
      rw [hview]
      exact hrely₂.later.row_ne_none (hseats seatId hseat)
  · -- only the price can be refused: the user and the hall are there
    rw [insertBooking_eq_error_of_rows ?_ ?_ hs]
    · exact hprice u.db
    · rw [hview]
      exact hrely₂.later.row_ne_none huser
    · rw [hview]
      exact hrely₂.later.row_ne_none hhall

theorem meets_createBooking (session : Session) (settings : Settings) (hidle : Closed r w)
    {userId : ℤ} (huser : w.db.row (.users, userId) ≠ none) (data : BookingCreate)
    (token : String) :
    Meets faults r (.of (CreateBookingError settings data))
      (fun b t => NewlyBooked data.hallId data.seatIds data.startTime data.endTime b (t.view r))
      (createBooking session settings userId data.hallId data.seatIds data.startTime data.endTime
        token) w := by
  have hconflict (detail : String) (db : Db) :
      CreateBookingError settings data (.bookingConflictError detail) :=
    .inr (.inr (.inr (.inl ⟨detail, rfl⟩)))
  refine meets_execute_bind fun t hrely _ => ?_
  rw [hrely.view_of_idle hidle]
  cases hfind : selectActiveHall data.hallId t.db with
  | none => exact meets_raise (.inl rfl)
  | some hall =>
    obtain ⟨hmem, hid, -⟩ := selectActiveHall_eq_some hfind
    have hhall : t.db.row (.halls, data.hallId) ≠ none :=
      Db.row_halls_ne_none.mpr ⟨hall, Table.find?_eq_some_iff.mpr ⟨hmem, hid⟩⟩
    refine meets_execute_bind fun t' hrely' _ => ?_
    have hrely₁ := hrely.trans hrely'
    obtain ⟨user, hfound⟩ := Db.row_users_ne_none.mp (hrely₁.later.row_ne_none huser)
    rw [hrely₁.view_of_idle hidle, hfound]
    refine .bind (meets_ofExcept (fun _ hvalid => Meets.stably ?_)
      fun e he => .inr (.inl he))
    refine .bind (meets_validateSeatsExist (hidle.of_rely hrely₁) data.hallId data.seatIds
      (fun detail _ => .inr (.inr (.inl ⟨detail, rfl⟩))) fun _ u hu hseats => Meets.stably ?_)
    refine .bind (meets_checkSeatConflicts data.hallId data.seatIds data.startTime data.endTime
      hconflict fun _ v hv _ => ?_)
    -- the lock, and what is done under it
    have hkey (hallId : ℤ) (date : Date) :=
      cacheKey_ne_lockKey hallId data.hallId date data.startTime
    refine meets_redisCall_bind (fun rd h => h.setNx hkey _ _) fun x hx _ => ?_
    show Meets faults r _ _ (if _ then _ else _) _
    split_ifs
    · refine Meets.tryFinally (lasting_newlyBooked _ _ _ _) ?_ fun y _ => meets_releaseLock _ _ _
      have hv' := hv.trans hx
      have hu' := hu.trans hv'
      have hidle' := hidle.of_rely (hrely₁.trans hu')
      refine Meets.of_rely (meets_createBookingLocked (w := x) hidle' ?_ ?_ ?_ ?_ hconflict
        fun _ => .inr (.inr (.inr (.inr rfl)))) (.of_eq rfl rfl)
      · exact (hrely₁.trans hu').later.row_ne_none huser
      · exact (hrely'.trans hu').later.row_ne_none hhall
      · exact fun seatId hseat => hv'.later.row_ne_none (hseats seatId hseat)
      · exact sub_of_validateTimeSlot hvalid
    · exact meets_raise (hconflict _ x.db)

theorem meets_createBookingRoute (session : Session) (settings : Settings) (hidle : Closed r w)
    {userId : ℤ} (huser : w.db.row (.users, userId) ≠ none) (data : BookingCreate)
    (token : String) :
    Meets faults r (.of (CreateBookingError settings data))
      (fun booking t => Booked data booking (t.view r))
      (createBookingRoute session settings userId data.hallId data.seatIds data.startTime
        data.endTime token) w := by
  refine .bind ((meets_createBooking session settings hidle huser data token).mono
    fun b t _ hb => ?_)
  refine meets_buildBookingResponse hb.2 fun booking t' _ hloaded ha =>
    (lasting_booked data booking).stably ?_
  have hrecorded := bookingRecorded_of_bookingResponse hloaded ha
  obtain ⟨items, hitems, rfl⟩ := bookingResponse_eq_ok ha
  obtain ⟨hhallId, hstart, hend, hseatIds⟩ := hb.1
  refine ⟨⟨hhallId, hstart, hend, (seatResponses_spec hitems).1.trans hseatIds⟩, hrecorded,
    fun seatId hseat => ?_⟩
  rw [← hseatIds] at hseat
  obtain ⟨bs, hbs, rfl⟩ := List.mem_map.mp hseat
  exact ⟨bs, (hloaded.2 bs hbs).1, (hloaded.2 bs hbs).2.1, rfl⟩

end BookingApi.Api
