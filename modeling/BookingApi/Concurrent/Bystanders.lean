import BookingApi.Concurrent.Basic
import BookingApi.SeatService.Basic
import BookingApi.UserService.Basic

/-!
# The bystanders of the API

The requests that change users, halls and seats write no booking and touch no lock, so that each of
them is a `Bystander`.
-/

namespace BookingApi.Concurrent

open Async BookingService HallService SeatService UserService

variable {α β : Type}

theorem bookingFree_flush {statement : Statement β} (h : WritesNoBooking statement) :
    (flush statement).Uses BookingFree :=
  Program.uses_perform h

theorem bookingFree_getDb {p : App α} (h : p.Uses BookingFree) : (getDb p).Uses BookingFree :=
  uses_getDb h trivial trivial

/-- A handler inside `get_db`, as a bystander. -/
def Bystander.ofHandler (p : App α) (h : p.Uses BookingFree) : Bystander :=
  ⟨(getDb p).bind fun _ => .ret (), (bookingFree_getDb h).bind fun _ => trivial⟩

/-! ### The statements -/

/-- A statement that is confined to tables other than those of the bookings. -/
theorem writesNoBooking_of_concerns {tables : List TableName} {statement : Statement β}
    (h : Concerns tables statement)
    (htables : ∀ table ∈ tables, table ≠ .bookings ∧ table ≠ .bookingSeats) :
    WritesNoBooking statement :=
  fun now seqs db => ⟨h.next now seqs db .bookings fun hmem => (htables _ hmem).1 rfl,
    h.next now seqs db .bookingSeats fun hmem => (htables _ hmem).2 rfl,
    fun b ws hs x hx => htables _ (h.writes now seqs db b ws hs x hx)⟩

theorem bookingFree_signup (hashPassword : String → String) (email password : String) :
    (signup hashPassword email password).Uses BookingFree :=
  uses_signup (fun _ => trivial)
    (writesNoBooking_of_concerns (concerns_insertUser ..) (by decide))

theorem bookingFree_updateUser (userId : ℤ) (data : UserUpdate) :
    (updateUser userId data).Uses BookingFree :=
  uses_updateUser (fun _ => trivial) fun _ =>
    writesNoBooking_of_concerns (concerns_updateLoadedUser ..) (by decide)

theorem bookingFree_createHall (data : HallCreate) : (createHall data).Uses BookingFree :=
  uses_createHall (fun _ => trivial)
    (writesNoBooking_of_concerns (concerns_insertHall ..) (by decide))

theorem bookingFree_updateHall (hallId : ℤ) (data : HallUpdate) :
    (updateHall hallId data).Uses BookingFree :=
  uses_updateHall (fun _ => trivial) fun _ =>
    writesNoBooking_of_concerns (concerns_updateLoadedHall ..) (by decide)

theorem bookingFree_deleteHall (hallId : ℤ) : (deleteHall hallId).Uses BookingFree :=
  uses_deleteHall (fun _ => trivial) fun _ =>
    writesNoBooking_of_concerns (concerns_deactivateHall ..) (by decide)

theorem bookingFree_createSeat (hallId row number : ℤ) :
    (createSeat hallId row number).Uses BookingFree :=
  uses_createSeat (fun _ => trivial) trivial
    (writesNoBooking_of_concerns (concerns_insertSeats ..) (by decide))

theorem bookingFree_bulkCreateSeats (hallId rows seatsPerRow : ℤ) :
    (bulkCreateSeats hallId rows seatsPerRow).Uses BookingFree :=
  uses_bulkCreateSeats (fun _ => trivial) trivial
    (writesNoBooking_of_concerns (concerns_insertSeats ..) (by decide))

theorem bookingFree_deleteSeat (hallId seatId : ℤ) :
    (deleteSeat hallId seatId).Uses BookingFree :=
  uses_deleteSeat (fun _ => trivial) fun _ =>
    writesNoBooking_of_concerns (concerns_deactivateSeat _) (by decide)

/-! ### A small installation -/

namespace Scenario

def date : Date :=
  ⟨2026, 1, 5, by decide, by decide, by decide, by decide, by decide, by decide⟩

/-- A full hour of the day, in UTC. -/
def oclock (hour : ℕ) : DateTime :=
  ⟨date, Fin.ofNat 24 hour, 0, 0, 0, some ⟨0, by decide, by decide⟩⟩

/-- The token that consists of one digit. -/
def token (c : Char) (h : isHexDigit c) : Token :=
  ⟨String.ofList (List.replicate 32 c), by
    intro x hx
    rw [String.toList_ofList] at hx
    rwa [List.eq_of_mem_replicate hx]⟩

def hallBody : HallCreate := ⟨"Red", 10, ⟨1000, 2⟩, by decide, by decide, by decide⟩

/-- A user, a hall and its two seats, and then the requests of the scenario. -/
def requests (scenario : List Request) : RequestId → Request
  | 0 => .other (.ofHandler _ (bookingFree_signup id "ann@example.com" "secret"))
  | 1 => .other (.ofHandler _ (bookingFree_createHall hallBody))
  | 2 => .other (.ofHandler _ (bookingFree_bulkCreateSeats 1 1 2))
  | r + 3 => scenario.getD r (.other ⟨.ret (), trivial⟩)

/-- A request that is no bystander is one of the scenario. -/
theorem exists_getElem_of_requests {scenario : List Request} {r : RequestId} {request : Request}
    (h : requests scenario r = request) (hrequest : ∀ b, request ≠ .other b) :
    ∃ k, r = k + 3 ∧ ∃ hk : k < scenario.length, scenario[k] = request := by
  match r with
  | 0 | 1 | 2 => exact absurd h.symm (hrequest _)
  | k + 3 =>
    rw [requests, List.getD_eq_getElem?_getD] at h
    by_cases hk : k < scenario.length
    · exact ⟨k, rfl, hk, by simpa [hk] using h⟩
    · rw [List.getElem?_eq_none (Nat.le_of_not_lt hk), Option.getD_none] at h
      exact absurd h.symm (hrequest _)

/-- What holds of the requests of the scenario that create bookings, pairwise. -/
theorem forall_of_pairwise {scenario : List Request} {R : CreateArgs → CreateArgs → Prop}
    (hsymm : ∀ args args', R args args' → R args' args)
    (h : scenario.Pairwise fun a b =>
      ∀ args args', a = .createBooking args → b = .createBooking args' → R args args')
    {r r' : RequestId} {args args' : CreateArgs} (hr : requests scenario r = .createBooking args)
    (hr' : requests scenario r' = .createBooking args') (hne : r ≠ r') : R args args' := by
  obtain ⟨i, rfl, hi, hi'⟩ := exists_getElem_of_requests hr nofun
  obtain ⟨j, rfl, hj, hj'⟩ := exists_getElem_of_requests hr' nofun
  rw [List.pairwise_iff_getElem] at h
  rcases lt_trichotomy i j with hij | rfl | hij
  · exact h i j hi hj hij args args' hi' hj'
  · exact absurd rfl hne
  · exact hsymm _ _ (h j i hj hi hij args' args hj' hi')

theorem distinctTokens {scenario : List Request}
    (h : scenario.Pairwise fun a b => ∀ args args', a = .createBooking args →
      b = .createBooking args' → args.token ≠ args'.token) :
    DistinctTokens (requests scenario) := by
  intro r r' args args' hr hr' ht
  by_contra hne
  exact forall_of_pairwise (fun _ _ => Ne.symm) h hr hr' hne ht

def otherToken : Token := token 'b' (by decide)

/-- A booking of the first seat, from 10:00 to 12:00. -/
def booking : CreateArgs := ⟨1, 1, [1], oclock 10, oclock 12, token 'a' (by decide)⟩

/-- A number of undisturbed steps of one request. -/
def times (n : ℕ) (r : RequestId) : List Action := List.replicate n (.run r)

/-- The first three requests from start to end. -/
def setup : List Action := times 4 0 ++ times 3 1 ++ times 5 2

/-- The requests of a scenario, scheduled after the first three. -/
def run (scenario : List Request) (schedule : List Action) : Option Config :=
  replay (step settings) (setup ++ schedule) (start (requests scenario))

theorem exists_run {scenario : List Request} {schedule : List Action} (P : Config → Prop)
    [DecidablePred P] (h : ((run scenario schedule).map fun c => decide (P c)) = some true) :
    ∃ tr c, RunOf settings (requests scenario) tr c ∧ P c :=
  Run.exists_of_replay P h

/-- The same with a check of every step. -/
def runChecked (ok : Config → Action → Bool) (scenario : List Request) (schedule : List Action) :
    Option Config :=
  replay (checked (step settings) ok) (setup ++ schedule) (start (requests scenario))

theorem exists_run_checked {ok : Config → Action → Bool} {scenario : List Request}
    {schedule : List Action} (P : Config → Prop) [DecidablePred P]
    (h : ((runChecked ok scenario schedule).map fun c => decide (P c)) = some true) :
    ∃ tr c, RunOf settings (requests scenario) tr c ∧ (∀ t ∈ tr, ok t.before t.action) ∧ P c := by
  obtain ⟨tr, c, hrun, hP⟩ := Run.exists_of_replay P h
  obtain ⟨hrun, hok⟩ := Run.of_checked hrun
  exact ⟨tr, c, hrun, hok, hP⟩

end Scenario

end BookingApi.Concurrent
