import BookingApi.BookingService.Ledger
import BookingApi.Concurrent.DoubleBooking
import BookingApi.Serial.Basic

/-!
# Creating a booking alone

What `POST /bookings` does when it is served without interruption and its lock is free:
`serve_createBooking_cases`.
-/

namespace BookingApi.Serial

open Async BookingService Concurrent World

variable {settings : Settings} {args : CreateArgs} {w : World} {r : RequestId} {hall : Hall}
  {user : User}

/-- What the checks of `create_booking` find in the tables if all of them pass. -/
structure Passes (settings : Settings) (args : CreateArgs) (db : Db) (hall : Hall) (user : User) :
    Prop where
  hall : selectActiveHall args.hallId db = some hall
  user : db.users.find? args.userId = some user
  slot : validateTimeSlot settings args.startTime args.endTime = .ok ()
  seats : (selectActiveSeats args.hallId args.seatIds db).length = args.seatIds.length
  conflicts : selectConflictingSeats args.hallId args.seatIds args.startTime.instant
    args.endTime.instant none db = []

/-- The price of the booking. -/
def price (args : CreateArgs) (hall : Hall) : Decimal :=
  bookingPrice hall (args.endTime.instant - args.startTime.instant)

/-- The row that the request inserts, and its seats. -/
def newBooking (args : CreateArgs) (hall : Hall) (w : World) : Booking :=
  ⟨w.sequences.bookings, args.userId, args.hallId, args.startTime.instant, args.endTime.instant,
    (price args hall).toHundredths, .confirmed, w.now⟩

def newSeats (args : CreateArgs) (w : World) : List BookingSeat :=
  bookingSeatRows w.sequences.bookings w.sequences.bookingSeats args.seatIds

/-- The changes of the transaction. -/
def newWrites (args : CreateArgs) (hall : Hall) (w : World) : List Write :=
  .insertBooking (newBooking args hall w) :: (newSeats args w).map .insertBookingSeat

/-- The world after the flush of the booking, and after that of its seats. -/
def drafted (args : CreateArgs) (hall : Hall) (r : RequestId) (w : World) : World :=
  (w.setSequences { w.sequences with bookings := w.sequences.bookings + 1 }).stage r
    [.insertBooking (newBooking args hall w)]

def filled (args : CreateArgs) (hall : Hall) (r : RequestId) (w : World) : World :=
  ((drafted args hall r w).setSequences
    { w.sequences with
      bookings := w.sequences.bookings + 1
      bookingSeats := w.sequences.bookingSeats + args.seatIds.length }).stage r
    ((newSeats args w).map .insertBookingSeat)

theorem run_bind_ok {α β : Type} {p : App α} {f : α → App β} {a : α} {w' : World}
    (h : p.run (World.exec r) w = (.ok a, w')) :
    (p.bind f).run (World.exec r) w = (f a).run (World.exec r) w' := by
  rw [Program.run_bind, h]

theorem run_bind_error {α β : Type} {p : App α} {f : α → App β} {e : Exc} {w' : World}
    (h : p.run (World.exec r) w = (.error e, w')) :
    (p.bind f).run (World.exec r) w = (.error e, w') := by
  rw [Program.run_bind, h]

theorem Passes.sub (h : Passes settings args w.db hall user) :
    args.endTime.sub args.startTime = .ok (args.endTime.instant - args.startTime.instant) := by
  rw [DateTime.sub, if_pos (validateTimeSlot_eq_ok_iff.mp h.slot).1]

theorem Passes.seat (h : Passes settings args w.db hall user) {seatId : ℤ}
    (hs : seatId ∈ args.seatIds) :
    ∃ s ∈ w.db.seats.rows, s.id = seatId ∧ s.hallId = args.hallId ∧ s.isActive = true :=
  (length_selectActiveSeats_eq_iff.mp h.seats).2 seatId hs

theorem run_releaseLock (key token : String) (w : World) :
    (do let _ ← releaseLock key token : App Unit).run (World.exec r) w
      = (.ok (), w.setRedis (w.redis.lockReleaseScript key token).2) := by
  simp only [releaseLock, Program.bind_eq, Program.pure_eq, Program.run_bind, run_redisCall,
    Program.run_ret, Redis.exec]

theorem view_stage (w : World) (r : RequestId) (ws : List Write) :
    (w.stage r ws).view r = (w.view r).applyAll ws := by
  rw [World.view, writesOf_stage_self, Db.applyAll_append]
  rfl

theorem run_checkSeatConflicts (hallId : ℤ) (seatIds : List ℤ) (startTime endTime : DateTime)
    (w : World) :
    (checkSeatConflicts hallId seatIds startTime endTime none).run (World.exec r) w
      = (if selectConflictingSeats hallId seatIds startTime.instant endTime.instant none (w.view r)
          = [] then .ok []
        else .error (seatsBooked (selectConflictingSeats hallId seatIds startTime.instant
          endTime.instant none (w.view r))), w) := by
  rw [checkSeatConflicts, Program.bind_eq, run_bind_ok (run_execute _ _ _)]
  by_cases h : selectConflictingSeats hallId seatIds startTime.instant endTime.instant none
    (w.view r) = []
  · rw [if_neg (not_not.mpr h), if_pos h, h]
    rfl
  · rw [if_pos h, if_neg h]
    rfl

theorem run_validateSeatsExist (hallId : ℤ) (seatIds : List ℤ) (w : World) :
    (validateSeatsExist hallId seatIds).run (World.exec r) w
      = (if (selectActiveSeats hallId seatIds (w.view r)).length = seatIds.length then
          .ok (selectActiveSeats hallId seatIds (w.view r))
        else .error (seatsNotFound seatIds (selectActiveSeats hallId seatIds (w.view r))), w) := by
  rw [validateSeatsExist, Program.bind_eq, run_bind_ok (run_execute _ _ _)]
  by_cases h : (selectActiveSeats hallId seatIds (w.view r)).length = seatIds.length
  · rw [if_neg (not_not.mpr h), if_pos h]
    rfl
  · rw [if_pos h, if_neg h]
    rfl

/-! ### The transaction -/

/-- The flush of the booking. -/
theorem run_insertBooking (hidle : w.writesOf r = []) (h : Passes settings args w.db hall user)
    (hfits : FitsNumeric (price args hall).toHundredths) :
    (flush (insertBooking args.userId args.hallId args.startTime.instant args.endTime.instant
        (price args hall) .confirmed)).run (World.exec r) w
      = (.ok w.sequences.bookings, drafted args hall r w) := by
  have hhall : (w.db.halls.find? args.hallId).isSome := by
    obtain ⟨hmem, hid, -⟩ := selectActiveHall_eq_some h.hall
    rw [Table.find?_eq_some_iff.mpr ⟨hmem, hid⟩]
    rfl
  have hins : insertBooking args.userId args.hallId args.startTime.instant args.endTime.instant
      (price args hall) .confirmed w.now w.sequences (w.view r)
      = (.ok (w.sequences.bookings, [.insertBooking (newBooking args hall w)]),
        { w.sequences with bookings := w.sequences.bookings + 1 }) := by
    rw [view_of_writesOf_nil hidle, insertBooking, storeNumeric, if_pos hfits]
    simp only [h.user, hhall, Option.isSome_some, and_self, if_true]
    rfl
  rw [run_flush, World.exec, hins, drafted]

theorem view_drafted (hidle : w.writesOf r = []) :
    (drafted args hall r w).view r = w.db.applyAll [.insertBooking (newBooking args hall w)] := by
  rw [drafted, view_stage]
  exact congrArg (Db.applyAll · _) (view_of_writesOf_nil hidle)

theorem view_filled (hidle : w.writesOf r = []) :
    (filled args hall r w).view r = w.db.applyAll (newWrites args hall w) := by
  rw [filled, view_stage]
  exact congrArg (Db.applyAll · _) (view_drafted hidle)

/-- The ids of the new rows are not taken. -/
theorem newBooking_fresh (hw : w.Sound) (args : CreateArgs) (hall : Hall) :
    (∀ b ∈ w.db.bookings.rows, b.id ≠ (newBooking args hall w).id) ∧
      (∀ bs ∈ newSeats args w, ∀ bs' ∈ w.db.bookingSeats.rows, bs'.id ≠ bs.id) ∧
      ∀ bs ∈ w.db.bookingSeats.rows, bs.bookingId ≠ (newBooking args hall w).id := by
  have hbooking : ∀ b ∈ w.db.bookings.rows, b.id ≠ (newBooking args hall w).id :=
    fun b hb => (hw.booking_lt b hb).ne
  refine ⟨hbooking, fun bs hbs bs' hbs' => ?_, fun bs hbs hid => ?_⟩
  · exact ((hw.seat_lt bs' hbs').trans_le (mem_bookingSeatRows hbs).1).ne
  · obtain ⟨b, hb, hid', -⟩ := hw.linked bs hbs
    exact hbooking b hb (hid'.symm.trans hid)

/-- The tables after the changes of the transaction. -/
theorem applyAll_newWrites (hw : w.Sound) (args : CreateArgs) (hall : Hall) :
    (w.db.applyAll (newWrites args hall w)).bookings.rows
        = w.db.bookings.rows ++ [newBooking args hall w] ∧
      (w.db.applyAll (newWrites args hall w)).seatsOf (newBooking args hall w).id
        = newSeats args w := by
  obtain ⟨hb, hfresh, hold⟩ := newBooking_fresh hw args hall
  constructor
  · exact (Db.applyAll_newBooking hb (nodup_bookingSeatRows _ _ _) hfresh).1
  · exact Db.seatsOf_newBooking (nodup_bookingSeatRows _ _ _) hfresh hold
      fun bs hbs => (mem_bookingSeatRows hbs).2.2.1

/-- They leave the seats of the other bookings alone. -/
theorem seatsOf_newWrites (hw : w.Sound) (args : CreateArgs) (hall : Hall) {b : Booking}
    (hb : b ∈ w.db.bookings.rows) :
    (w.db.applyAll (newWrites args hall w)).seatsOf b.id = w.db.seatsOf b.id := by
  refine Db.seatsOf_applyAll fun bs hbs hid => ?_
  rcases List.mem_cons.mp hbs with hbs | hbs
  · cases hbs
  · obtain ⟨bs', hbs', he⟩ := List.mem_map.mp hbs
    cases he
    exact (newBooking_fresh hw args hall).1 b hb (hid.symm.trans (mem_bookingSeatRows hbs').2.2.1)

theorem find?_filled (hidle : w.writesOf r = []) (hw : w.Sound) (args : CreateArgs) (hall : Hall) :
    ((filled args hall r w).view r).bookings.find? w.sequences.bookings
      = some (newBooking args hall w) := by
  rw [view_filled hidle, Table.find?_eq_some_iff, (applyAll_newWrites hw args hall).1]
  exact ⟨List.mem_append_right _ (List.mem_singleton_self _), rfl⟩

/-- The flush of the seats. -/
theorem run_insertBookingSeats (hidle : w.writesOf r = []) (hw : w.Sound)
    (h : Passes settings args w.db hall user) :
    (flush (insertBookingSeats w.sequences.bookings args.seatIds)).run (World.exec r)
        (drafted args hall r w)
      = (.ok (), filled args hall r w) := by
  have hfind : (((drafted args hall r w).view r).bookings.find? w.sequences.bookings).isSome := by
    have hrows : (w.db.applyAll [.insertBooking (newBooking args hall w)]).bookings.rows
        = w.db.bookings.rows ++ [newBooking args hall w] :=
      Table.rows_insert (newBooking_fresh hw args hall).1
    have hfind : ((drafted args hall r w).view r).bookings.find? w.sequences.bookings
        = some (newBooking args hall w) := by
      rw [view_drafted hidle, Table.find?_eq_some_iff, hrows]
      exact ⟨List.mem_append_right _ (List.mem_singleton_self _), rfl⟩
    rw [hfind]
    rfl
  have hseats : ∀ s ∈ args.seatIds, (((drafted args hall r w).view r).seats.find? s).isSome := by
    intro seatId hs
    obtain ⟨s, hs, hid, -⟩ := h.seat hs
    rw [view_drafted hidle]
    show (w.db.seats.find? seatId).isSome
    rw [Table.find?_eq_some_iff.mpr ⟨hs, hid⟩]
    rfl
  rw [run_flush, World.exec, insertBookingSeats, if_pos ⟨hfind, hseats⟩]
  rfl

/-- The `try` block, when all checks pass and the price fits its column. -/
theorem run_createBookingLocked (hidle : w.writesOf r = []) (hw : w.Sound)
    (h : Passes settings args w.db hall user) (hfits : FitsNumeric (price args hall).toHundredths) :
    (createBookingLocked hall user args.userId args.hallId args.seatIds args.startTime
        args.endTime).run (World.exec r) w
      = (.ok ⟨newBooking args hall w, some hall, newSeats args w⟩,
        (filled args hall r w).publish r
          (args.event hall user (price args hall) w.sequences.bookings)) := by
  have hfind := find?_filled hidle hw args hall
  have hseats : ((filled args hall r w).view r).seatsOf w.sequences.bookings = newSeats args w := by
    rw [view_filled hidle]
    exact (applyAll_newWrites hw args hall).2
  have hcheck :=
    run_checkSeatConflicts (r := r) args.hallId args.seatIds args.startTime args.endTime w
  rw [view_of_writesOf_nil hidle, if_pos h.conflicts] at hcheck
  rw [createBookingLocked, Program.bind_eq, run_bind_ok hcheck, h.sub, Program.ofExcept_ok,
    Program.bind_eq, Program.ret_bind, Program.bind_eq]
  refine (run_bind_ok (run_insertBooking hidle h hfits)).trans ?_
  rw [Program.bind_eq, run_bind_ok (run_insertBookingSeats hidle hw h), Program.bind_eq,
    run_bind_ok (run_execute _ _ _), hfind]
  simp only
  rw [Program.bind_eq, run_bind_ok (run_execute _ _ _), hfind, hseats]
  rfl

/-- The `try` block, when all checks pass and the price does not fit its column. -/
theorem run_createBookingLocked_of_not_fits (hidle : w.writesOf r = [])
    (h : Passes settings args w.db hall user)
    (hfits : ¬ FitsNumeric (price args hall).toHundredths) :
    ∃ e, (createBookingLocked hall user args.userId args.hallId args.seatIds args.startTime
        args.endTime).run (World.exec r) w
      = (.error e, w.setSequences { w.sequences with bookings := w.sequences.bookings + 1 }) := by
  have hcheck :=
    run_checkSeatConflicts (r := r) args.hallId args.seatIds args.startTime args.endTime w
  rw [view_of_writesOf_nil hidle, if_pos h.conflicts] at hcheck
  have hflush : (flush (insertBooking args.userId args.hallId args.startTime.instant
      args.endTime.instant (price args hall) .confirmed)).run (World.exec r) w
      = (.error .dbapiError,
        w.setSequences { w.sequences with bookings := w.sequences.bookings + 1 }) := by
    rw [run_flush, World.exec, insertBooking, storeNumeric, if_neg hfits]
  refine ⟨.dbapiError, ?_⟩
  rw [createBookingLocked, Program.bind_eq, run_bind_ok hcheck, h.sub, Program.ofExcept_ok,
    Program.bind_eq, Program.ret_bind, Program.bind_eq]
  exact run_bind_error hflush

/-! ### The request -/

/-- The session of a request that runs alone is as the tables are. -/
theorem run_program_of_idle (hidle : w.writesOf r = []) :
    (args.program settings).run (World.exec r) w
      = (createBookingRoute (.load args.userId w.db) settings args.userId args.hallId args.seatIds
          args.startTime args.endTime args.token.text).run (World.exec r) w :=
  run_withSession hidle

theorem Passes.object (h : Passes settings args w.db hall user) :
    (Session.load args.userId w.db).user user = user :=
  Session.user_load (Table.find?_eq_some_iff.mp h.user).1

/-- A request whose checks do not all pass changes nothing. -/
theorem run_program_of_not_passes (hidle : w.writesOf r = [])
    (h : ∀ hall user, ¬ Passes settings args w.db hall user) :
    ∃ e, (args.program settings).run (World.exec r) w = (.error e, w) := by
  have hview := view_of_writesOf_nil hidle
  have key : ∃ e, (createBooking (.load args.userId w.db) settings args.userId args.hallId
      args.seatIds args.startTime args.endTime args.token.text).run (World.exec r) w
        = (.error e, w) := by
    rw [createBooking, Program.bind_eq, run_bind_ok (run_execute _ _ _), hview]
    rcases hhall : selectActiveHall args.hallId w.db with _ | hall
    · exact ⟨_, rfl⟩
    simp only
    rw [Program.bind_eq, run_bind_ok (run_execute _ _ _), hview]
    rcases huser : w.db.users.find? args.userId with _ | user
    · exact ⟨_, rfl⟩
    simp only
    rcases hslot : validateTimeSlot settings args.startTime args.endTime with e | _
    · exact ⟨e, rfl⟩
    rw [Program.ofExcept_ok, Program.bind_eq, Program.ret_bind, Program.bind_eq]
    have hseats := run_validateSeatsExist (r := r) args.hallId args.seatIds w
    rw [hview] at hseats
    by_cases hlen : (selectActiveSeats args.hallId args.seatIds w.db).length = args.seatIds.length
    · rw [if_pos hlen] at hseats
      have hconf := run_checkSeatConflicts (r := r) args.hallId args.seatIds args.startTime
        args.endTime w
      rw [hview, if_neg fun hc => h hall user ⟨hhall, huser, hslot, hlen, hc⟩] at hconf
      rw [run_bind_ok hseats, Program.bind_eq, run_bind_error hconf]
      exact ⟨_, rfl⟩
    · rw [if_neg hlen] at hseats
      rw [run_bind_error hseats]
      exact ⟨_, rfl⟩
  obtain ⟨e, he⟩ := key
  exact ⟨e, (run_program_of_idle hidle).trans (run_bind_error he)⟩

/-- A request whose checks all pass, up to the lock. -/
theorem run_createBooking_of_passes (hidle : w.writesOf r = [])
    (hlock : w.redis args.lockKey = none) (h : Passes settings args w.db hall user) :
    (createBooking (.load args.userId w.db) settings args.userId args.hallId args.seatIds
        args.startTime args.endTime args.token.text).run (World.exec r) w
      = (Program.tryFinally (createBookingLocked hall user args.userId args.hallId args.seatIds
          args.startTime args.endTime) (do let _ ← releaseLock args.lockKey args.token.text)).run
        (World.exec r) (w.setRedis (Function.update w.redis args.lockKey
          (some ⟨args.token.text, settings.redisLockTimeout⟩))) := by
  have hview := view_of_writesOf_nil hidle
  have hseats := run_validateSeatsExist (r := r) args.hallId args.seatIds w
  have hconf := run_checkSeatConflicts (r := r) args.hallId args.seatIds args.startTime
    args.endTime w
  rw [hview, if_pos h.seats] at hseats
  rw [hview, if_pos h.conflicts] at hconf
  have hset : (redisCall (.setNx args.lockKey args.token.text settings.redisLockTimeout)).run
      (World.exec r) w = (.ok true, w.setRedis (Function.update w.redis args.lockKey
        (some ⟨args.token.text, settings.redisLockTimeout⟩))) := by
    rw [run_redisCall, Redis.exec, hlock]
    rfl
  rw [createBooking, Program.bind_eq, run_bind_ok (run_execute _ _ _), hview, h.hall]
  simp only
  rw [Program.bind_eq, run_bind_ok (run_execute _ _ _), hview, h.user]
  simp only
  rw [h.object, h.slot, Program.ofExcept_ok, Program.bind_eq, Program.ret_bind, Program.bind_eq,
    run_bind_ok hseats, Program.bind_eq, run_bind_ok hconf, Program.bind_eq]
  exact run_bind_ok hset

/-- A request whose checks all pass and whose lock is taken changes nothing. -/
theorem run_program_of_locked (hidle : w.writesOf r = []) {entry : RedisEntry}
    (hlock : w.redis args.lockKey = some entry) (h : Passes settings args w.db hall user) :
    ∃ e, (args.program settings).run (World.exec r) w = (.error e, w) := by
  have hview := view_of_writesOf_nil hidle
  have hseats := run_validateSeatsExist (r := r) args.hallId args.seatIds w
  have hconf := run_checkSeatConflicts (r := r) args.hallId args.seatIds args.startTime
    args.endTime w
  rw [hview, if_pos h.seats] at hseats
  rw [hview, if_pos h.conflicts] at hconf
  have hset : (redisCall (.setNx args.lockKey args.token.text settings.redisLockTimeout)).run
      (World.exec r) w = (.ok false, w) := by
    rw [run_redisCall, Redis.exec, hlock]
    rfl
  refine ⟨.bookingConflictError "Another booking in progress for this time slot",
    (run_program_of_idle hidle).trans (run_bind_error ?_)⟩
  rw [createBooking, Program.bind_eq, run_bind_ok (run_execute _ _ _), hview, h.hall]
  simp only
  rw [Program.bind_eq, run_bind_ok (run_execute _ _ _), hview, h.user]
  simp only
  rw [h.slot, Program.ofExcept_ok, Program.bind_eq, Program.ret_bind, Program.bind_eq,
    run_bind_ok hseats, Program.bind_eq, run_bind_ok hconf, Program.bind_eq]
  exact run_bind_ok hset

/-- The event of the new booking. -/
def newEvent (args : CreateArgs) (hall : Hall) (user : User) (w : World) : BookingEvent :=
  args.event hall user (price args hall) w.sequences.bookings

/-- The booking of a request, with its relationships loaded. -/
def loaded (args : CreateArgs) (hall : Hall) (w : World) : LoadedBooking :=
  ⟨newBooking args hall w, some hall, newSeats args w⟩

/-- A request whose checks all pass and whose price fits its column. -/
theorem run_program_of_passes (hidle : w.writesOf r = []) (hw : w.Sound)
    (hlock : w.redis args.lockKey = none) (h : Passes settings args w.db hall user)
    (hfits : FitsNumeric (price args hall).toHundredths) :
    ∃ answer, bookingResponse (loaded args hall w)
        (selectSeatsOf (loaded args hall w) (w.db.applyAll (newWrites args hall w))) = .ok answer ∧
      (args.program settings).run (World.exec r) w
        = (.ok answer, (filled args hall r w).publish r (newEvent args hall user w)) := by
  set rd := Function.update w.redis args.lockKey
    (some ⟨args.token.text, settings.redisLockTimeout⟩)
  have hlocked := run_createBookingLocked (w := w.setRedis rd) (r := r) hidle (hw.setRedis rd)
    h hfits
  have hcreate : (createBooking (.load args.userId w.db) settings args.userId args.hallId
      args.seatIds args.startTime args.endTime args.token.text).run (World.exec r) w
      = (.ok (loaded args hall w),
        (filled args hall r w).publish r (newEvent args hall user w)) := by
    rw [run_createBooking_of_passes hidle hlock h, Program.run_tryFinally, hlocked]
    simp only
    rw [run_releaseLock]
    -- the release restores Redis
    show (_, World.setRedis _ (Redis.lockReleaseScript rd args.lockKey args.token.text).2) = _
    rw [Redis.lockReleaseScript_update hlock]
    rfl
  have hseats : ∀ bs ∈ (loaded args hall w).bookingSeats,
      ∃ s ∈ (w.db.applyAll (newWrites args hall w)).seats.rows, s.id = bs.seatId := by
    intro bs hbs
    obtain ⟨s, hs, hid, -⟩ := h.seat (mem_bookingSeatRows hbs).2.2.2
    obtain ⟨s', hs', hp⟩ := Table.exists_of_map_subset (Db.grows_applyAll w.db _).seats hs
    exact ⟨s', hs', (Seat.id_eq_of_place hp).trans hid⟩
  obtain ⟨answer, hanswer⟩ := exists_bookingResponse hseats
  refine ⟨answer, hanswer, (run_program_of_idle hidle).trans ?_⟩
  refine (run_bind_ok hcreate).trans ?_
  have hview : ((filled args hall r w).publish r (newEvent args hall user w)).view r
      = w.db.applyAll (newWrites args hall w) := view_filled hidle
  rw [buildBookingResponse, Program.bind_eq, run_bind_ok (run_execute _ _ _), hview, hanswer]
  rfl

/-- A request whose checks all pass and whose price does not fit its column. -/
theorem run_program_of_not_fits (hidle : w.writesOf r = []) (hlock : w.redis args.lockKey = none)
    (h : Passes settings args w.db hall user)
    (hfits : ¬ FitsNumeric (price args hall).toHundredths) :
    ∃ e, (args.program settings).run (World.exec r) w
      = (.error e, w.setSequences { w.sequences with bookings := w.sequences.bookings + 1 }) := by
  set rd := Function.update w.redis args.lockKey
    (some ⟨args.token.text, settings.redisLockTimeout⟩)
  obtain ⟨e, hlocked⟩ := run_createBookingLocked_of_not_fits (w := w.setRedis rd) (r := r) hidle
    h hfits
  refine ⟨e, (run_program_of_idle hidle).trans (run_bind_error ?_)⟩
  rw [run_createBooking_of_passes hidle hlock h, Program.run_tryFinally, hlocked]
  simp only
  rw [run_releaseLock]
  show (_, World.setRedis _ (Redis.lockReleaseScript rd args.lockKey args.token.text).2) = _
  rw [Redis.lockReleaseScript_update hlock]
  rfl

end BookingApi.Serial
