import BookingApi.Serial.CreateBooking

/-!
# What a move does

For each kind of operation the result, the committed tables and the locks after it was served alone:
`serve_createBooking_cases`, `serve_cancelBooking_cases` and `serve_bookingFree`.  `moveStep` puts
them together: a move of a serial run creates a booking, cancels one, or leaves the bookings alone.
-/

namespace BookingApi.Serial

open Async BookingService Concurrent World

variable {settings : Settings} {w w' : World} {r : RequestId}

/-! ### Creating a booking -/

/-- **Creating a booking alone**: it fails and changes neither the tables nor Redis, or all checks
pass and the new booking is committed. -/
theorem serve_createBooking_cases (settings : Settings) (args : CreateArgs)
    (hidle : w.writesOf r = []) (hw : w.Sound) (hlock : w.redis args.lockKey = none) :
    (∃ e, (serve r (args.program settings) w).1 = .error e ∧
      (serve r (args.program settings) w).2.db = w.db ∧
      (serve r (args.program settings) w).2.redis = w.redis ∧
      ∀ hall user, Passes settings args w.db hall user →
        ¬ FitsNumeric (price args hall).toHundredths) ∨
    ∃ hall user answer, Passes settings args w.db hall user ∧
      bookingResponse (loaded args hall w)
        (selectSeatsOf (loaded args hall w) (w.db.applyAll (newWrites args hall w))) = .ok answer ∧
      (serve r (args.program settings) w).1 = .ok answer ∧
      (serve r (args.program settings) w).2.db = w.db.applyAll (newWrites args hall w) ∧
      (serve r (args.program settings) w).2.redis = w.redis := by
  rw [serve_eq]
  by_cases hpasses : ∃ hall user, Passes settings args w.db hall user
  · obtain ⟨hall, user, h⟩ := hpasses
    by_cases hfits : FitsNumeric (price args hall).toHundredths
    · obtain ⟨answer, hanswer, hrun⟩ := run_program_of_passes hidle hw hlock h hfits
      rw [hrun]
      exact .inr ⟨hall, user, answer, h, hanswer, rfl, view_filled hidle, rfl⟩
    · obtain ⟨e, hrun⟩ := run_program_of_not_fits hidle hlock h hfits
      rw [hrun]
      refine .inl ⟨e, rfl, rfl, rfl, fun hall' user' h' => ?_⟩
      obtain rfl : hall = hall' := Option.some.inj (h.hall.symm.trans h'.hall)
      exact hfits
  · obtain ⟨e, hrun⟩ := run_program_of_not_passes hidle fun hall user h => hpasses ⟨hall, user, h⟩
    rw [hrun]
    exact .inl ⟨e, rfl, rfl, rfl, fun hall user h => absurd ⟨hall, user, h⟩ hpasses⟩

/-! ### Cancelling a booking -/

/-- The request may cancel the booking. -/
def Cancellable (args : CancelArgs) (db : Db) : Prop :=
  ∃ b ∈ db.bookings.rows, b.id = args.bookingId ∧ b.userId = args.userId ∧ b.status = .confirmed

/-- The service, when the booking may not be cancelled. -/
theorem run_cancelBooking_of_not {args : CancelArgs} (hidle : w.writesOf r = [])
    (h : ¬ Cancellable args w.db) :
    ∃ e, (cancelBooking (.load args.userId w.db) args.bookingId args.userId).run (World.exec r) w
      = (.error e, w) := by
  rw [cancelBooking, Program.bind_eq, run_bind_ok (run_execute _ _ _), view_of_writesOf_nil hidle,
    selectBookingWithOwner]
  rcases hb : w.db.bookings.find? args.bookingId with _ | b
  · exact ⟨_, rfl⟩
  · obtain ⟨hmem, hid⟩ := Table.find?_eq_some_iff.mp hb
    simp only [Option.map_some, Session.booking_load hmem]
    by_cases hu : b.userId ≠ args.userId
    · rw [if_pos hu]
      exact ⟨_, rfl⟩
    · rw [if_neg hu]
      by_cases hs : b.status = .cancelled
      · rw [if_pos hs]
        exact ⟨_, rfl⟩
      · refine absurd ⟨b, hmem, hid, not_not.mp hu, ?_⟩ h
        cases hstatus : b.status
        · rfl
        · exact absurd hstatus hs

/-- The service, when the booking may be cancelled. -/
theorem run_cancelBooking {args : CancelArgs} (hidle : w.writesOf r = [])
    (h : Cancellable args w.db) :
    ∃ b event, (cancelBooking (.load args.userId w.db) args.bookingId args.userId).run
        (World.exec r) w
      = (.ok b, (w.stage r [.updateBooking args.bookingId .cancelled]).publish r event) := by
  obtain ⟨bookingId, userId⟩ := args
  obtain ⟨b, hmem, rfl, rfl, hs⟩ := h
  have hb : w.db.bookings.find? b.id = some b := Table.find?_eq_some_iff.mpr ⟨hmem, rfl⟩
  have hfind : ((w.stage r [.updateBooking b.id .cancelled]).view r).bookings.find? b.id
      = some { b with status := .cancelled } := by
    rw [view_stage, view_of_writesOf_nil hidle, Db.applyAll_cons, Db.applyAll_nil, Write.apply,
      Table.find?_modify, hb, Option.map_some, if_pos (show Keyed.key b = b.id from rfl)]
  have hflush : (flush (updateBookingStatus b.id .cancelled)).run (World.exec r) w
      = (.ok (), w.stage r [.updateBooking b.id .cancelled]) := by
    rw [run_flush]
    rfl
  refine ⟨{ b with status := .cancelled }, .bookingCancelled b.id b.userId
    ((((w.db.users.find? b.userId).map (Session.load b.userId w.db).user).map User.email).getD "")
    (((w.db.halls.find? b.hallId).map Hall.name).getD "Unknown"), ?_⟩
  rw [cancelBooking, Program.bind_eq, run_bind_ok (run_execute _ _ _), view_of_writesOf_nil hidle,
    selectBookingWithOwner, hb]
  simp only [Option.map_some, Session.booking_load hmem]
  rw [if_neg (not_not.mpr rfl), if_neg (by simp [hs]), Program.bind_eq, run_bind_ok hflush,
    Program.bind_eq, run_bind_ok (run_execute _ _ _), hfind]
  rfl

/-- **Cancelling a booking alone**: it fails and changes neither the tables nor Redis, or the
booking is cancelled. -/
theorem serve_cancelBooking_cases (args : CancelArgs) (hidle : w.writesOf r = []) :
    (∃ e, (serve r args.program w).1 = .error e ∧ (serve r args.program w).2.db = w.db ∧
      (serve r args.program w).2.redis = w.redis ∧ ¬ Cancellable args w.db) ∨
    Cancellable args w.db ∧ (serve r args.program w).1 = .ok () ∧
      (serve r args.program w).2.db = (Write.updateBooking args.bookingId .cancelled).apply w.db ∧
      (serve r args.program w).2.redis = w.redis := by
  rw [CancelArgs.program, serve_withSession hidle, serve_eq, cancelBookingRoute, Program.bind_eq]
  by_cases h : Cancellable args w.db
  · obtain ⟨b, event, hrun⟩ := run_cancelBooking hidle h
    rw [run_bind_ok hrun]
    refine .inr ⟨h, rfl, ?_, rfl⟩
    show (w.stage r [.updateBooking args.bookingId .cancelled]).view r = _
    rw [view_stage, view_of_writesOf_nil hidle]
    rfl
  · obtain ⟨e, hrun⟩ := run_cancelBooking_of_not hidle h
    rw [run_bind_error hrun]
    exact .inl ⟨e, rfl, rfl, rfl, h⟩

/-! ### The other operations -/

/-- Nothing of a booking and no lock has changed since the start of the request. -/
structure Quiet (r : RequestId) (w₀ w : World) : Prop where
  writes : ∀ x ∈ w.writesOf r, x.table ≠ .bookings ∧ x.table ≠ .bookingSeats
  bookings : w.db.bookings = w₀.db.bookings
  bookingSeats : w.db.bookingSeats = w₀.db.bookingSeats
  locks : ∀ hallId startTime,
    w.redis (lockKey hallId startTime) = w₀.redis (lockKey hallId startTime)

theorem Quiet.commit {w₀ : World} (h : Quiet r w₀ w) : Quiet r w₀ (w.commit r) :=
  ⟨fun _ hx => absurd hx (by simp [World.commit]),
    (Db.bookings_applyAll _ fun x hx => (h.writes x hx).1).trans h.bookings,
    (Db.bookingSeats_applyAll _ fun x hx => (h.writes x hx).2).trans h.bookingSeats, h.locks⟩

theorem Quiet.close {w₀ : World} (h : Quiet r w₀ w) : Quiet r w₀ (w.close r) :=
  ⟨fun _ hx => absurd hx (by simp), h.bookings, h.bookingSeats, h.locks⟩

theorem Quiet.step {w₀ : World} (h : Quiet r w₀ w) (hs : BystanderStep r w w') :
    Quiet r w₀ w' := by
  cases hs with
  | quiet => exact h
  | flush _ _ hws =>
    refine ⟨fun x hx => ?_, h.bookings, h.bookingSeats, h.locks⟩
    rcases mem_writesOf_stage hx with hx | ⟨-, hx⟩
    · exact h.writes x hx
    · exact hws x hx
  | setex hkey _ =>
    refine ⟨h.writes, h.bookings, h.bookingSeats, fun hallId startTime => ?_⟩
    exact (Function.update_of_ne (hkey hallId startTime).symm _ _).trans (h.locks hallId startTime)
  | commit => exact h.commit
  | rollback => exact h.close

/-- **The other operations alone** change no booking and no lock. -/
theorem serve_bookingFree {α : Type} {p : App α} (hp : p.Uses BookingFree)
    (hidle : w.writesOf r = []) : Quiet r w (serve r p w).2 := by
  have hrun : Quiet r w (p.run (World.exec r) w).2 :=
    hp.run_rel _ (R := fun w₁ w₂ => Quiet r w w₁ → Quiet r w w₂) (fun _ h => h)
      (fun h h' hw => h' (h hw)) (fun op _ hop h => h.step (bystanderStep_of_exec hop)) w
      ⟨by simp [hidle], rfl, rfl, fun _ _ => rfl⟩
  rw [serve_eq]
  rcases hp' : p.run (World.exec r) w with ⟨e | a, w'⟩ <;> rw [hp'] at hrun
  · exact hrun.close
  · exact hrun.commit

/-! ### The moves -/

/-- The result of a request that is served after some moves. -/
def answer {α : Type} (settings : Settings) (moves : List Move) (p : App α) : Except Exc α :=
  (serve moves.length p (run settings moves)).1

/-- The move serves a request that creates or cancels a booking, and the request succeeds. -/
def Books (settings : Settings) (moves : List Move) : Move → Prop
  | .serve (.createBooking args) => ∃ a, answer settings moves (args.program settings) = .ok a
  | .serve (.cancelBooking args) => answer settings moves args.program = .ok ()
  | _ => False

/-- What a move does to the bookings. -/
inductive MoveStep (settings : Settings) (moves : List Move) : Move → Prop
  | created {args : CreateArgs} {hall : Hall} {user : User} {a : BookingResponse} :
      Passes settings args (run settings moves).db hall user →
      answer settings moves (args.program settings) = .ok a →
      bookingResponse (loaded args hall (run settings moves))
        (selectSeatsOf (loaded args hall (run settings moves))
          (run settings (.serve (.createBooking args) :: moves)).db) = .ok a →
      (run settings (.serve (.createBooking args) :: moves)).db
        = (run settings moves).db.applyAll (newWrites args hall (run settings moves)) →
      MoveStep settings moves (.serve (.createBooking args))
  | cancelled {args : CancelArgs} :
      Cancellable args (run settings moves).db → answer settings moves args.program = .ok () →
      (run settings (.serve (.cancelBooking args) :: moves)).db
        = (Write.updateBooking args.bookingId .cancelled).apply (run settings moves).db →
      MoveStep settings moves (.serve (.cancelBooking args))
  | kept {move : Move} : ¬ Books settings moves move →
      (run settings (move :: moves)).db.bookings = (run settings moves).db.bookings →
      (run settings (move :: moves)).db.bookingSeats = (run settings moves).db.bookingSeats →
      MoveStep settings moves move

/-- No request holds a lock. -/
def Unlocked (w : World) : Prop :=
  ∀ hallId startTime, w.redis (lockKey hallId startTime) = none

theorem Unlocked.env {w : World} (h : Unlocked w) (e : World.Env) : Unlocked (World.env e w) := by
  intro hallId startTime
  cases e with
  | expire key =>
    -- A key that expires takes no lock.
    show Function.update w.redis key none (lockKey hallId startTime) = none
    rw [Function.update_apply, h, ite_self]
  | tick micros => exact h hallId startTime

theorem moveStep_createBooking {moves : List Move} (hfree : Unlocked (run settings moves))
    (args : CreateArgs) :
    MoveStep settings moves (.serve (.createBooking args)) ∧
      Unlocked (run settings (.serve (.createBooking args) :: moves)) := by
  have hrun : run settings (.serve (.createBooking args) :: moves)
      = (serve moves.length (args.program settings) (run settings moves)).2 := by
    rw [run, Operation.handler, discard, serve_map]
  have hunlocked : (serve moves.length (args.program settings) (run settings moves)).2.redis
      = (run settings moves).redis →
      Unlocked (run settings (.serve (.createBooking args) :: moves)) := by
    intro hredis hallId startTime
    rw [hrun, hredis, hfree]
  have hidle : (run settings moves).writesOf moves.length = [] := writesOf_run _ _
  rcases serve_createBooking_cases settings args hidle (sound_run moves) (hfree _ _) with
    ⟨e, hres, hdb, hredis, -⟩ | ⟨hall, user, a, hp, ha, hres, hdb, hredis⟩
  · have hfails : ¬ Books settings moves (.serve (.createBooking args)) := by
      rintro ⟨a, ha⟩
      rw [answer, hres] at ha
      cases ha
    exact ⟨.kept hfails (by rw [hrun, hdb]) (by rw [hrun, hdb]), hunlocked hredis⟩
  · have hstored : (run settings (.serve (.createBooking args) :: moves)).db
        = (run settings moves).db.applyAll (newWrites args hall (run settings moves)) := by
      rw [hrun, hdb]
    exact ⟨.created hp hres (by rw [hstored, ha]) hstored, hunlocked hredis⟩

theorem moveStep_cancelBooking {moves : List Move} (hfree : Unlocked (run settings moves))
    (args : CancelArgs) :
    MoveStep settings moves (.serve (.cancelBooking args)) ∧
      Unlocked (run settings (.serve (.cancelBooking args) :: moves)) := by
  have hrun : run settings (.serve (.cancelBooking args) :: moves)
      = (serve moves.length args.program (run settings moves)).2 := by
    rw [run, Operation.handler, discard, serve_map]
  rcases serve_cancelBooking_cases args (writesOf_run moves moves.length) with
    ⟨e, hres, hdb, hredis, -⟩ | ⟨hc, hres, hdb, hredis⟩
  · have hfails : ¬ Books settings moves (.serve (.cancelBooking args)) := by
      intro ha
      rw [Books, answer, hres] at ha
      cases ha
    refine ⟨.kept hfails (by rw [hrun, hdb]) (by rw [hrun, hdb]), ?_⟩
    rw [Unlocked, hrun, hredis]
    exact hfree
  · refine ⟨.cancelled hc hres (by rw [hrun, hdb]), ?_⟩
    rw [Unlocked, hrun, hredis]
    exact hfree

theorem moveStep_of_bookingFree {moves : List Move} (hfree : Unlocked (run settings moves))
    {op : Operation} (hop : (op.handler settings).Uses BookingFree)
    (hbooks : ¬ Books settings moves (.serve op)) :
    MoveStep settings moves (.serve op) ∧ Unlocked (run settings (.serve op :: moves)) := by
  have hq : Quiet moves.length (run settings moves) (run settings (.serve op :: moves)) :=
    serve_bookingFree hop (writesOf_run moves moves.length)
  refine ⟨.kept hbooks hq.bookings hq.bookingSeats, fun hallId startTime => ?_⟩
  exact (hq.locks hallId startTime).trans (hfree hallId startTime)

/-- A move from a state without locks: what it does to the bookings, and that it leaves no lock. -/
theorem moveStep_of_unlocked {moves : List Move} (hfree : Unlocked (run settings moves))
    (move : Move) :
    MoveStep settings moves move ∧ Unlocked (run settings (move :: moves)) := by
  cases move with
  | env e => exact ⟨.kept id (by cases e <;> rfl) (by cases e <;> rfl), hfree.env e⟩
  | serve op =>
    by_cases hcreate : ∃ args, op = .createBooking args
    · obtain ⟨args, rfl⟩ := hcreate
      exact moveStep_createBooking hfree args
    by_cases hcancel : ∃ args, op = .cancelBooking args
    · obtain ⟨args, rfl⟩ := hcancel
      exact moveStep_cancelBooking hfree args
    have hop := (op.cases.resolve_left hcreate).resolve_left hcancel
    refine moveStep_of_bookingFree hfree (hop settings) fun h => ?_
    cases op with
    | createBooking args => exact hcreate ⟨args, rfl⟩
    | cancelBooking args => exact hcancel ⟨args, rfl⟩
    | _ => exact h

theorem unlocked_run (moves : List Move) : Unlocked (run settings moves) := by
  induction moves with
  | nil => exact fun _ _ => rfl
  | cons move moves ih => exact (moveStep_of_unlocked ih move).2

/-- **What a move does** to the bookings. -/
theorem moveStep (moves : List Move) (move : Move) : MoveStep settings moves move :=
  (moveStep_of_unlocked (unlocked_run moves) move).1

end BookingApi.Serial
