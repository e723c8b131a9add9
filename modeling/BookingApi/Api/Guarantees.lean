import BookingApi.Api.Interleaved
import BookingApi.Api.Run

/-!
# What the API guarantees to concurrent clients

Any number of requests to any routes, and of runs of the script, interleave at every await, and any
operation may be hit by a fault.  In every state that is reached

* the tables satisfy their constraints (`integrity_of_run`),
* a request has ended with a response, with an exception of its route or the rate limiter, or with
  that of a fault which has hit it (`exception_of_run`),
* what a response says is committed, and stays so (`effect_of_run`),
* no row is lost, and what identifies a row never changes (`rows_of_run`),

and every request ends, if the scheduler goes on scheduling (`every_task_ends`).
-/

namespace BookingApi

open Async

/-- The constraints of the tables. -/
structure Db.Integrity (db : Db) : Prop where
  emails : ∀ u ∈ db.users.rows, ∀ u' ∈ db.users.rows, u.email = u'.email → u = u'
  positions : ∀ s ∈ db.seats.rows, ∀ s' ∈ db.seats.rows,
    s.hallId = s'.hallId → s.row = s'.row → s.number = s'.number → s = s'
  seats : ∀ s ∈ db.seats.rows, ∃ h ∈ db.halls.rows, h.id = s.hallId
  bookings : ∀ b ∈ db.bookings.rows,
    (∃ u ∈ db.users.rows, u.id = b.userId) ∧ ∃ h ∈ db.halls.rows, h.id = b.hallId
  bookingSeats : ∀ bs ∈ db.bookingSeats.rows,
    (∃ b ∈ db.bookings.rows, b.id = bs.bookingId) ∧ ∃ s ∈ db.seats.rows, s.id = bs.seatId

namespace Db

variable {db : Db}

theorem row_of_mem_users {u : User} (h : u ∈ db.users.rows) :
    db.row (.users, u.id) = some (.user u) :=
  row_users_eq_some.mpr (Table.find?_eq_some_iff.mpr ⟨h, rfl⟩)

theorem row_of_mem_seats {s : Seat} (h : s ∈ db.seats.rows) :
    db.row (.seats, s.id) = some (.seat s) :=
  row_seats_eq_some.mpr (Table.find?_eq_some_iff.mpr ⟨h, rfl⟩)

theorem integrity_of_valid (h : schema.Valid db.row) : db.Integrity where
  emails u hu u' hu' hemail := by
    have hrow := row_of_mem_users hu
    have hkey := h.unique hrow (row_of_mem_users hu') rfl
      (congrArg (some ∘ Unique.email) hemail.symm)
    rw [hkey, row_of_mem_users hu'] at hrow
    exact (Row.user.inj (Option.some.inj hrow)).symm
  positions s hs s' hs' hhall hrow hnumber := by
    have hclaim : Row.claim (.seat s') = some (.position s.hallId s.row s.number) := by
      rw [hhall, hrow, hnumber]
      rfl
    have hsome := row_of_mem_seats hs
    have hkey := h.unique hsome (row_of_mem_seats hs') rfl hclaim
    rw [hkey, row_of_mem_seats hs'] at hsome
    exact (Row.seat.inj (Option.some.inj hsome)).symm
  seats s hs := by
    obtain ⟨hall, hhall⟩ := row_halls_ne_none.mp
      (h.closed (row_of_mem_seats hs) (List.mem_cons_self ..))
    exact ⟨hall, Table.find?_eq_some_iff.mp hhall⟩
  bookings b hb := by
    have hrow : db.row (.bookings, b.id) = some (.booking b) :=
      row_bookings_eq_some.mpr (Table.find?_eq_some_iff.mpr ⟨hb, rfl⟩)
    obtain ⟨u, hu⟩ := row_users_ne_none.mp (h.closed hrow (List.mem_cons_self ..))
    obtain ⟨hall, hhall⟩ := row_halls_ne_none.mp
      (h.closed hrow (List.mem_cons_of_mem _ (List.mem_cons_self ..)))
    exact ⟨⟨u, Table.find?_eq_some_iff.mp hu⟩, hall, Table.find?_eq_some_iff.mp hhall⟩
  bookingSeats bs hbs := by
    have hrow : db.row (.bookingSeats, bs.id) = some (.bookingSeat bs) :=
      row_bookingSeats_eq_some.mpr (Table.find?_eq_some_iff.mpr ⟨hbs, rfl⟩)
    obtain ⟨b, hb⟩ := row_bookings_ne_none.mp (h.closed hrow (List.mem_cons_self ..))
    obtain ⟨s, hs⟩ := row_seats_ne_none.mp
      (h.closed hrow (List.mem_cons_of_mem _ (List.mem_cons_self ..)))
    exact ⟨⟨b, Table.find?_eq_some_iff.mp hb⟩, s, Table.find?_eq_some_iff.mp hs⟩

end Db

namespace Api

variable {security : Security} {settings : Settings} {now : RequestId → Instant}
  {tasks : RequestId → Option Task} {c c' : Config RequestId World (App Response)}
  {tr tr' : List (Transition (Config RequestId World (App Response))
    (Action RequestId World.Fault World.Env))} {r : RequestId}

/-! ### Two administrators want one seat -/

namespace Scenario

def seatBody : SeatCreate := ⟨1, 1, by decide, by decide⟩

/-- An administrator, a hall, and two requests for one seat of it. -/
def seatTasks : RequestId → Option Task
  | 0 => some (.createAdmin "" "ann@example.com" "secret")
  | 1 => some (.serve ⟨bearer admin, .createHall Concurrent.Scenario.hallBody⟩)
  | 2 | 3 => some (.serve ⟨bearer admin, .createSeat 1 seatBody⟩)
  | _ => none

def seatStart : Config RequestId World (App Response) :=
  start .transparent BookingApi.settings (fun _ => 0) seatTasks

/-- Both have found the hall when the first one inserts its seat and commits. -/
def firstSeat : List (Action RequestId World.Fault World.Env) :=
  [0, 0, 0, 0, 0, 1, 1, 1, 1, 2, 2, 2, 3, 3, 2, 2].map .run

def secondSeat : List (Action RequestId World.Fault World.Env) := [3, 3, 3].map .run

def seatExists : Exc := .seatAlreadyExistsError "Seat 1-1 already exists"

theorem exists_run_seats : ∃ tr tr' c c', Run Interleaving.Step seatStart tr c ∧
    (c.threads 2).result? = some (.ok (.seat ⟨1, 1, 1, 1, true⟩)) ∧
    Run Interleaving.Step c tr' c' ∧ (c'.threads 3).result? = some (.error seatExists) := by
  have hfirst : ((replay Interleaving.Step firstSeat seatStart).map fun c =>
      decide ((c.threads 2).result? = some (.ok (.seat ⟨1, 1, 1, 1, true⟩)) ∧
        ((replay Interleaving.Step secondSeat c).map fun c' =>
          decide ((c'.threads 3).result? = some (.error seatExists))) = some true)) =
      some true := by
    decide +kernel
  obtain ⟨tr, c, hrun, hseat, hsecond⟩ := Run.exists_of_replay _ hfirst
  obtain ⟨tr', c', hrun', hexists⟩ := Run.exists_of_replay _ hsecond
  exact ⟨tr, tr', c, c', hrun, hseat, hrun', hexists⟩

end Scenario

open Scenario

/-! ### The guarantees -/

/-- **Integrity**: the committed tables and the view of every open transaction satisfy the
constraints, an id is in use only below its sequence, and no row that a transaction inserts is taken
by another one. -/
theorem integrity_of_run (hrun : Run Interleaving.Step (start security settings now tasks) tr c) :
    c.shared.db.Integrity ∧ (∀ r, (c.shared.view r).Integrity) ∧
      (∀ key, c.shared.db.row key ≠ none → key.2 < c.shared.sequences.next key.1) ∧
      ∀ r, ∀ x ∈ c.shared.writesOf r, x.inserts = true → c.shared.db.row x.target = none := by
  have hinv : Inv c.shared := (holds_of_run_with_faults hrun).1
  exact ⟨Db.integrity_of_valid hinv.consistent.base,
    fun r => Db.integrity_of_valid (valid_view hinv r),
    fun key hkey => hinv.consistent.base_allocated hkey,
    fun r x hx hins => hinv.consistent.fresh hx hins⟩

theorem integrity_seats : ∃ tr c, Run Interleaving.Step seatStart tr c ∧
    (c.threads 2).result? = some (.ok (.seat ⟨1, 1, 1, 1, true⟩)) ∧ c.shared.db.Integrity := by
  obtain ⟨tr, _, c, _, hrun, hseat, -⟩ := exists_run_seats
  exact ⟨tr, c, hrun, hseat, (integrity_of_run hrun).1⟩

/-- An operation of the request has been hit by the fault. -/
def Hit (tr : List (Transition (Config RequestId World (App Response))
    (Action RequestId World.Fault World.Env))) (r : RequestId) (f : World.Fault) : Prop :=
  ∃ t ∈ tr, t.action = .fault r f

/-- How a task has ended. -/
theorem ends_of_run (hrun : Run Interleaving.Step (start security settings now tasks) tr c)
    {res : Except Exc Response} (hended : (c.threads r).result? = some res) :
    Ends (Hit tr r) (Task.failures security settings (now r) (tasks r))
      (fun response t => Task.effect security (tasks r) response t.db) res c.shared := by
  have hholds : (protocol (Hit tr)).Holds (Endings security settings (Hit tr) now tasks) c :=
    holds_of_run hrun fun t ht i f hf => ⟨t, ht, hf⟩
  exact (hholds.ended (Program.result?_eq_some_iff.mp hended)).2

/-- What the response to a request says when the request has ended. -/
theorem effect_of_ended (hrun : Run Interleaving.Step (start security settings now tasks) tr c)
    {request : Request} (htask : tasks r = some (.serve request)) {response : Response}
    (hended : (c.threads r).result? = some (.ok response)) :
    request.endpoint.effect security response c.shared.db := by
  have hend := ends_of_run hrun hended
  rwa [htask] at hend

/-- **Exceptions**: a request raises only what its route, or the rate limiter, may, and what the
exception says is true; if one of its operations was hit by a fault, it may raise the exception of
that fault. -/
theorem exception_of_run (hrun : Run Interleaving.Step (start security settings now tasks) tr c)
    {e : Exc} (hended : (c.threads r).result? = some (.error e)) :
    (Task.failures security settings (now r) (tasks r)).may e c.shared.db ∨
      ∃ f, Hit tr r f ∧ f.Raises e :=
  ends_of_run hrun hended

/-- The second request is refused, and the position is taken. -/
theorem positionTaken_seats : ∃ tr c, Run Interleaving.Step seatStart tr c ∧
    (c.threads 3).result? = some (.error seatExists) ∧
    PositionTaken 1 [(1, 1)] c.shared.db := by
  obtain ⟨tr, tr', c, c', hrun, -, hrun', hexists⟩ := exists_run_seats
  refine ⟨_, c', hrun.trans hrun', hexists, ?_⟩
  rcases exception_of_run (hrun.trans hrun') hexists with hmay | ⟨f, -, hraises⟩
  · rcases hmay with (hid | hdetail) | he | he | he
    · exact absurd hid (by decide +kernel)
    · exact absurd hdetail (by decide)
    · cases he
    · exact absurd (List.mem_singleton.mp he) (by decide)
    · exact he.2
  · rcases hraises.cases with h | h | h | h <;> cases h

/-- **Effects**: what a response says is committed when the request has ended, and stays so. -/
theorem effect_of_run (hrun : Run Interleaving.Step (start security settings now tasks) tr c)
    {request : Request} (htask : tasks r = some (.serve request)) {response : Response}
    (hended : (c.threads r).result? = some (.ok response))
    (hlater : Run Interleaving.Step c tr' c') :
    request.endpoint.effect security response c'.shared.db := by
  have hkeeps := later_of_run (holds_of_run_with_faults hrun) hlater
  exact request.endpoint.lasting_effect security response hkeeps
    (effect_of_ended hrun htask hended)

/-- The seat of the first request is there when the second one has been refused. -/
theorem seatCreated_seats : ∃ tr tr' c c', Run Interleaving.Step seatStart tr c ∧
    Run Interleaving.Step c tr' c' ∧ (c'.threads 3).result? = some (.error seatExists) ∧
    SeatsCreated 1 [(1, 1)] [⟨1, 1, 1, 1, true⟩] c'.shared.db := by
  obtain ⟨tr, tr', c, c', hrun, hseat, hrun', hexists⟩ := exists_run_seats
  have htask : seatTasks 2 = some (.serve ⟨bearer admin, .createSeat 1 seatBody⟩) := rfl
  exact ⟨tr, tr', c, c', hrun, hrun', hexists, effect_of_run hrun htask hseat hrun'⟩

/-- **Rows**: no committed row is ever lost.  The id and the password of a user, the id of a hall,
the place of a seat and the terms of a booking never change, and a cancelled booking stays
cancelled. -/
theorem rows_of_run (hrun : Run Interleaving.Step (start security settings now tasks) tr c)
    (hlater : Run Interleaving.Step c tr' c') : c.shared.db.Later c'.shared.db :=
  later_of_run (holds_of_run_with_faults hrun) hlater

theorem rows_seats : ∃ tr tr' c c', Run Interleaving.Step seatStart tr c ∧
    Run Interleaving.Step c tr' c' ∧ (c'.threads 3).result? = some (.error seatExists) ∧
    c.shared.db.Later c'.shared.db := by
  obtain ⟨tr, tr', c, c', hrun, -, hrun', hexists⟩ := exists_run_seats
  exact ⟨tr, tr', c, c', hrun, hrun', hexists, rows_of_run hrun hrun'⟩

/-- **Every task ends**, whatever the faults, and leaves no transaction open. -/
theorem every_task_ends (hfin : {r | tasks r ≠ none}.Finite)
    (x : Execution Interleaving.Step (start security settings now tasks)) (hfair : x.Fair) :
    ∃ N, ∀ n, N ≤ n → (x.state n).shared.pending = [] ∧
      ∀ r, ∃ res, ((x.state n).threads r).result? = some res := by
  have hholds (n : ℕ) : (protocol fun _ _ => True).Holds
      (Endings security settings (fun _ _ => True) now tasks) (x.state n) := by
    obtain ⟨tr, hrun, -⟩ := x.exists_run n
    exact holds_of_run_with_faults hrun
  have hleft : {r | ¬ ((start security settings now tasks).threads r).Ended} ⊆
      {r | tasks r ≠ none} := by
    intro r hr hnone
    have hprogram : (start security settings now tasks).threads r = .ret .noContent := by
      show Task.program security settings (now r) (tasks r) = _
      rw [hnone]
      rfl
    exact hr ⟨.ok .noContent, by rw [hprogram]; rfl⟩
  obtain ⟨N, hN⟩ := x.eventually_all_ended (hfin.subset hleft) hfair
    fun n hn => exists_enabled (hholds n) hn
  refine ⟨N, fun n hn => ⟨?_, fun r => ?_⟩⟩
  · refine List.eq_nil_iff_forall_not_mem.mpr fun p hp => ?_
    obtain ⟨res, hend⟩ := hN n hn p.1
    have hclosed : (x.state n).shared.writesOf p.1 = [] := ((hholds n).ended hend).1
    have hmem : p.2 ∈ (x.state n).shared.writesOf p.1 :=
      List.mem_map_of_mem (List.mem_filter.mpr ⟨hp, decide_eq_true rfl⟩)
    rw [hclosed] at hmem
    exact absurd hmem List.not_mem_nil
  · obtain ⟨res, hend⟩ := hN n hn r
    exact ⟨res, Program.result?_eq_some_iff.mpr hend⟩

namespace Scenario

theorem seatTasks_eq_none {r : RequestId} (h : 4 ≤ r) : seatTasks r = none := by
  obtain ⟨k, rfl⟩ := Nat.exists_eq_add_of_le' h
  rfl

theorem ended_seats : ∃ c, replay Interleaving.Step (firstSeat ++ secondSeat) seatStart = some c ∧
    ∀ r < 4, (c.threads r).Ended := by
  have hended : ((replay Interleaving.Step (firstSeat ++ secondSeat) seatStart).map fun c =>
      [0, 1, 2, 3].all fun r => (c.threads r).result?.isSome) = some true := by decide +kernel
  obtain ⟨c, hc, hall⟩ := Option.map_eq_some_iff.mp hended
  refine ⟨c, hc, fun r hr => ?_⟩
  have hmem : ∀ k : ℕ, k < 4 → k ∈ [0, 1, 2, 3] := by decide
  obtain ⟨res, hres⟩ := Option.isSome_iff_exists.mp (List.all_eq_true.mp hall r (hmem r hr))
  exact ⟨res, Program.result?_eq_some_iff.mp hres⟩

end Scenario

/-- When both requests have been answered, only the environment acts. -/
theorem every_task_ends_seats : ∃ x : Execution Interleaving.Step seatStart,
    ∃ N, ∀ n, N ≤ n → (x.state n).shared.pending = [] ∧
      ∀ r, ∃ res, ((x.state n).threads r).result? = some res := by
  obtain ⟨c, hc, hended⟩ := ended_seats
  obtain ⟨x, hact, hstate⟩ := exists_execution (e := .env (.tick 0))
    (f := fun c => ⟨World.env (.tick 0) c.shared, c.threads⟩) (fun _ => rfl) hc
  -- the clock goes on for ever after the schedule, and no request moves
  have hthreads (k : ℕ) (r : RequestId) :
      ((fun c : Config RequestId World (App Response) =>
        (⟨World.env (.tick 0) c.shared, c.threads⟩ : Config _ _ _))^[k] c).threads r
      = c.threads r := by
    induction k with
    | zero => rfl
    | succ k ih => rw [Function.iterate_succ_apply', ← ih]
  have hfin : {r | seatTasks r ≠ none}.Finite := by
    refine (Set.finite_lt_nat 4).subset fun r hr => ?_
    by_contra hge
    exact hr (seatTasks_eq_none (not_lt.mp hge))
  refine ⟨x, every_task_ends hfin x fun n hn => ?_⟩
  by_cases hlt : n < (firstSeat ++ secondSeat).length
  · -- an action of the schedule is a request's
    refine ⟨n, le_rfl, fun hnone => ?_⟩
    have hrun : ∀ a ∈ firstSeat ++ secondSeat, a.handler ≠ none := by decide
    exact hrun _ (hact n hlt) hnone
  · -- later on no request has a step left
    obtain ⟨i, c', hstep⟩ := hn
    have hsame : (x.state n).threads i = c.threads i := by
      rw [hstate n (not_lt.mp hlt), hthreads]
    have hend : ((x.state n).threads i).Ended := by
      by_cases hi : i < 4
      · rw [hsame]
        exact hended i hi
      · have hstart : ((x.state 0).threads i).Ended := by
          rw [x.state_zero]
          show (Task.program _ _ _ (seatTasks i)).Ended
          rw [seatTasks_eq_none (not_lt.mp hi)]
          exact ⟨_, rfl⟩
        rw [x.threads_eq_of_ended (Nat.zero_le n) hstart]
        exact hstart
    exact absurd hend (Program.not_ended_of_next (next_of_step hstep rfl))

end Api

end BookingApi
