import BookingApi.Concurrent.Bystanders
import BookingApi.Concurrent.Invariant

/-!
# Serial runs

A serial run is a list of moves, the latest first: an operation of the API is served, inside its own
`get_db` and without a fault, before the next one starts, or the environment acts.  `run` is the
world that a serial run ends in.

`exists_runOf`: a serial run is one of the interleaved runs, so that `sound_run` follows from the
invariant of concurrent requests.
-/

namespace BookingApi.Serial

open Async BookingService Concurrent HallService SeatService UserService World

/-- A request to the API, with its inputs. -/
inductive Operation
  | signup (hashPassword : String → String) (email password : String)
  | updateUser (userId : ℤ) (data : UserUpdate)
  | createHall (data : HallCreate)
  | updateHall (hallId : ℤ) (data : HallUpdate)
  | deleteHall (hallId : ℤ)
  | createSeat (hallId row number : ℤ)
  | bulkCreateSeats (hallId rows seatsPerRow : ℤ)
  | deleteSeat (hallId seatId : ℤ)
  | createBooking (args : CreateArgs)
  | cancelBooking (args : CancelArgs)
  | getBooking (bookingId userId : ℤ)

/-- A handler whose answer does not matter. -/
def discard {α : Type} (p : App α) : App Unit := p.bind (.ret ∘ fun _ => ())

def Operation.handler (settings : Settings) : Operation → App Unit
  | signup hashPassword email password => discard (UserService.signup hashPassword email password)
  | updateUser userId data => discard (UserService.updateUser userId data)
  | createHall data => discard (HallService.createHall data)
  | updateHall hallId data => discard (HallService.updateHall hallId data)
  | deleteHall hallId => discard (HallService.deleteHall hallId)
  | createSeat hallId row number => discard (SeatService.createSeat hallId row number)
  | bulkCreateSeats hallId rows seatsPerRow =>
    discard (SeatService.bulkCreateSeats hallId rows seatsPerRow)
  | deleteSeat hallId seatId => discard (SeatService.deleteSeat hallId seatId)
  | createBooking args => discard (args.program settings)
  | cancelBooking args => discard args.program
  | getBooking bookingId userId => discard (showBooking bookingId userId)

inductive Move
  | serve (op : Operation)
  | env (e : World.Env)

/-- The world after some moves, the latest first.  A request is known by the number of moves before
it. -/
def run (settings : Settings) : List Move → World
  | [] => .initial
  | .serve op :: moves => (serve moves.length (op.handler settings) (run settings moves)).2
  | .env e :: moves => World.env e (run settings moves)

variable {settings : Settings}

/-! ### The operations as requests -/

theorem uses_discard {P : ∀ β : Type, Op β → Prop} {α : Type} {p : App α} (h : p.Uses P) :
    (discard p).Uses P :=
  h.bind fun _ => trivial

/-- An operation creates a booking, cancels one, or has nothing to do with bookings. -/
theorem Operation.cases (op : Operation) : (∃ args, op = .createBooking args) ∨
    (∃ args, op = .cancelBooking args) ∨ ∀ settings, (op.handler settings).Uses BookingFree := by
  cases op with
  | createBooking args => exact .inl ⟨args, rfl⟩
  | cancelBooking args => exact .inr (.inl ⟨args, rfl⟩)
  | signup hashPassword email password =>
    exact .inr (.inr fun _ => uses_discard (bookingFree_signup ..))
  | updateUser userId data =>
    exact .inr (.inr fun _ => uses_discard (bookingFree_updateUser ..))
  | createHall data => exact .inr (.inr fun _ => uses_discard (bookingFree_createHall ..))
  | updateHall hallId data =>
    exact .inr (.inr fun _ => uses_discard (bookingFree_updateHall ..))
  | deleteHall hallId => exact .inr (.inr fun _ => uses_discard (bookingFree_deleteHall ..))
  | createSeat hallId row number =>
    exact .inr (.inr fun _ => uses_discard (bookingFree_createSeat ..))
  | bulkCreateSeats hallId rows seatsPerRow =>
    exact .inr (.inr fun _ => uses_discard (bookingFree_bulkCreateSeats ..))
  | deleteSeat hallId seatId =>
    exact .inr (.inr fun _ => uses_discard (bookingFree_deleteSeat ..))
  | getBooking bookingId userId =>
    exact .inr (.inr fun _ => uses_discard
      (uses_withSession (fun _ => trivial) fun _ => uses_getBookingRoute (fun _ => trivial) ..))

/-- An operation is served like a request that runs alone. -/
theorem exists_request (settings : Settings) (op : Operation) : ∃ request : Request,
    ∀ (r : RequestId) (w : World), ((request.program settings).run (World.exec r) w).2
      = (serve r (op.handler settings) w).2 := by
  obtain ⟨args, rfl⟩ | ⟨args, rfl⟩ | hfree := op.cases
  · refine ⟨.createBooking args, fun r w => ?_⟩
    rw [run_program_createBooking, Operation.handler, discard, serve_map]
  · refine ⟨.cancelBooking args, fun r w => ?_⟩
    rw [Request.program, Program.run_map, Operation.handler, discard, serve_map]
    rfl
  · refine ⟨.other (.ofHandler _ (hfree settings)), fun r w => ?_⟩
    rw [Request.program, Program.run_map, Bystander.ofHandler]
    exact congrArg Prod.snd (Program.run_map (World.exec r) (getDb (op.handler settings)) _ w)

/-! ### Serial runs are interleaved runs -/

/-- No transaction is open after a request was served alone. -/
theorem pending_serve {r : RequestId} {α : Type} (p : App α) {w : World} (hw : w.pending = []) :
    (serve r p w).2.pending = [] := by
  have hidle : OthersIdle r w := by simp [OthersIdle, hw]
  have hrun := hidle.run p
  rw [serve_eq]
  rcases hp : p.run (World.exec r) w with ⟨e | a, w'⟩ <;> rw [hp] at hrun <;>
    exact hrun.pending_close

theorem pending_run (moves : List Move) : (run settings moves).pending = [] := by
  induction moves with
  | nil => rfl
  | cons move moves ih =>
    cases move with
    | serve op => exact pending_serve _ ih
    | env e => cases e <;> exact ih

theorem writesOf_run (moves : List Move) (r : RequestId) :
    (run settings moves).writesOf r = [] := by
  rw [writesOf, pending_run]
  rfl

/-- Each request of a serial run is the operation that was served under its number. -/
def Matches (settings : Settings) : List Move → (RequestId → Request) → Prop
  | [], _ => True
  | .serve op :: moves, requests => Matches settings moves requests ∧
    ∀ r w, (((requests moves.length).program settings).run (World.exec r) w).2
      = (serve r (op.handler settings) w).2
  | .env _ :: moves, requests => Matches settings moves requests

theorem Matches.congr {moves : List Move} {requests requests' : RequestId → Request}
    (h : Matches settings moves requests) (hr : ∀ r < moves.length, requests' r = requests r) :
    Matches settings moves requests' := by
  induction moves with
  | nil => trivial
  | cons move moves ih =>
    have hr' : ∀ r < moves.length, requests' r = requests r :=
      fun r hlt => hr r (Nat.lt_succ_of_lt hlt)
    cases move with
    | serve op => exact ⟨ih h.1 hr', by rw [hr _ (Nat.lt_succ_self _)]; exact h.2⟩
    | env e => exact ih h hr'

theorem exists_matches (settings : Settings) (moves : List Move) :
    ∃ requests, Matches settings moves requests := by
  induction moves with
  | nil => exact ⟨fun _ => .other ⟨.ret (), trivial⟩, trivial⟩
  | cons move moves ih =>
    obtain ⟨requests, h⟩ := ih
    cases move with
    | serve op =>
      obtain ⟨request, hrequest⟩ := exists_request settings op
      refine ⟨Function.update requests moves.length request, h.congr fun r hr => ?_, ?_⟩
      · exact Function.update_of_ne hr.ne _ _
      · rwa [Function.update_self]
    | env e => exact ⟨requests, h⟩

/-- **A serial run is an interleaved run** of the same requests. -/
theorem exists_runOf {moves : List Move} {requests : RequestId → Request}
    (h : Matches settings moves requests) :
    ∃ tr c, RunOf settings requests tr c ∧ c.shared = run settings moves ∧
      ∀ r, moves.length ≤ r → c.threads r = (requests r).start := by
  induction moves with
  | nil => exact ⟨[], _, .refl, rfl, fun _ _ => rfl⟩
  | cons move moves ih =>
    cases move with
    | serve op =>
      obtain ⟨tr, c, hrun, hs, ht⟩ := ih h.1
      have hidle : OthersIdle moves.length c.shared := by simp [OthersIdle, hs, pending_run]
      obtain ⟨tr', c', hrun', -, hs', -, hothers⟩ :=
        run_alone_request settings (ht moves.length le_rfl) hidle
      refine ⟨tr' ++ tr, c', hrun.trans hrun', ?_, fun r hr => ?_⟩
      · rw [hs', h.2, hs]
        rfl
      · rw [hothers r (Nat.ne_of_gt hr)]
        exact ht r (Nat.le_of_succ_le hr)
    | env e =>
      obtain ⟨tr, c, hrun, hs, ht⟩ := ih h
      have hstep : step settings c (.env e) = some ⟨World.env e c.shared, c.threads⟩ := rfl
      exact ⟨_, _, hrun.tail hstep, by rw [hs]; rfl, fun r hr => ht r (Nat.le_of_succ_le hr)⟩

theorem sound_run (moves : List Move) : (run settings moves).Sound := by
  obtain ⟨requests, h⟩ := exists_matches settings moves
  obtain ⟨tr, c, hrun, hs, -⟩ := exists_runOf h
  exact hs ▸ (RunOf.inv hrun).sound

end BookingApi.Serial
