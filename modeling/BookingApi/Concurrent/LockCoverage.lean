import BookingApi.BookingService.Keys
import BookingApi.Concurrent.Lock
import BookingApi.Serial.CreateBooking
import Mathlib.Data.List.Dedup

/-!
# What the lock covers

The key of the lock names the hall, and the date and the hour of the start as the client wrote them.
Two requests for one seat and overlapping intervals with different keys can be in the critical
section at once (`exists_two_in_section`), and `excludes_iff` says that this is so for all pairs
with different keys, unless a request names a seat twice and never asks for the lock.
-/

namespace BookingApi.Concurrent

open Async BookingService Serial World

variable {settings : Settings} {requests : RequestId → Request} {tr : Trace} {c c' : Config}
  {args args' : CreateArgs} {r r' : RequestId}

/-- Two accepted requests for a common seat of one hall at overlapping times. -/
structure Conflict (settings : Settings) (args args' : CreateArgs) : Prop where
  hall : args.hallId = args'.hallId
  slot : validateTimeSlot settings args.startTime args.endTime = .ok ()
  slot' : validateTimeSlot settings args'.startTime args'.endTime = .ok ()
  seat : ∃ seatId ∈ args.seatIds, seatId ∈ args'.seatIds
  overlap : args.startTime.instant < args'.endTime.instant ∧
    args'.startTime.instant < args.endTime.instant
  token : args.token ≠ args'.token

/-- In no run in which no lock expires while it is in use are the two requests between acquiring
their locks and releasing them at the same time. -/
def Excludes (settings : Settings) (args args' : CreateArgs) : Prop :=
  ∀ requests tr c, RunOf settings requests tr c → DistinctTokens requests →
    (∀ t ∈ tr, NoExpiryInUse t.before t.action) →
    ∀ r r', requests r = .createBooking args → requests r' = .createBooking args' →
      ∀ pc pc', c.threads r = .create args pc → c.threads r' = .create args' pc' →
        ¬ (InSection pc ∧ InSection pc')

/-! ### Requests that are kept apart -/

/-- The control points from the passed check of the seats to the release of the lock. -/
def AfterSeats : CreatePc → Prop
  | .checkConflicts _ _ | .acquire _ _ => True
  | pc => InSection pc

/-- The check of the seats counts rows, so it does not pass if a seat is named twice. -/
def NodupAfterSeats : Pc → Prop
  | .create args pc => AfterSeats pc → args.seatIds.Nodup
  | _ => True

theorem RunOf.nodupAfterSeats (h : RunOf settings requests tr c) :
    ∀ r, NodupAfterSeats (c.threads r) := by
  refine Run.invariant_of_step (I := fun c => ∀ r, NodupAfterSeats (c.threads r)) ?_ ?_ h
  · intro r
    show NodupAfterSeats (requests r).start
    cases requests r <;> first | exact False.elim | trivial
  intro c a c' ih hstep
  refine forall_threads hstep (fun r _ _ => ih r) ?_ (fun _ _ _ => trivial) (fun _ _ _ => trivial)
  intro i f args pc pc' _ hpc hs hin
  have hi := ih i
  rw [hpc] at hi
  generalize c.shared = w at *
  generalize c'.shared = w' at *
  cases hs with
  | selectSeats hlen => exact (length_selectActiveSeats_eq_iff.mp hlen).1
  | @abortLocked _ _ pc _ _ hlocked =>
    exact hi (by cases pc <;> first | exact hlocked.elim | exact trivial)
  | @release _ outcome => cases outcome <;> exact hin.elim
  | _ => first | exact hin.elim | exact hi trivial

theorem nodup_of_inSection (h : RunOf settings requests tr c) {pc : CreatePc}
    (hpc : c.threads r = .create args pc) (hin : InSection pc) : args.seatIds.Nodup := by
  have hr := RunOf.nodupAfterSeats h r
  rw [hpc] at hr
  exact hr (by cases pc <;> first | exact hin.elim | exact trivial)

/-! ### Requests that meet -/

/-- The rows that both requests need: the hall, the users and the seats. -/
def seedWrites (args args' : CreateArgs) : List Write :=
  .insertHall ⟨args.hallId, "Red", 1, 0, true, 0⟩ ::
    .insertUser ⟨args.userId, "ann@example.com", "", .user, true, 0⟩ ::
    .insertUser ⟨args'.userId, "bob@example.com", "", .user, true, 0⟩ ::
    (args.seatIds ++ args'.seatIds).dedup.map fun id => .insertSeat ⟨id, args.hallId, id, 1, true⟩

theorem writesNoBooking_seed (args args' : CreateArgs) :
    WritesNoBooking (fun _ seqs _ => (.ok ((), seedWrites args args'), seqs) : Statement Unit) := by
  intro now seqs db
  refine ⟨rfl, rfl, fun b ws h x hx => ?_⟩
  obtain ⟨-, rfl⟩ := Prod.mk.inj (Except.ok.inj h)
  simp only [seedWrites, List.mem_cons, List.mem_map] at hx
  rcases hx with rfl | rfl | rfl | ⟨id, -, rfl⟩ <;> simp [Write.table]

/-- A request that sets up the installation. -/
def seed (args args' : CreateArgs) : Bystander :=
  .ofHandler (flush fun _ seqs _ => (.ok ((), seedWrites args args'), seqs))
    (bookingFree_flush (writesNoBooking_seed args args'))

/-- The tables that the seed leaves. -/
def seedDb (args args' : CreateArgs) : Db := Db.empty.applyAll (seedWrites args args')

/-- The seed commits its tables and leaves everything else as it was. -/
theorem run_seed (settings : Settings) (args args' : CreateArgs) :
    ((Request.program settings (.other (seed args args'))).run (exec 0) initial).2
      = { initial with db := seedDb args args' } := by
  have hflush : (flush fun _ seqs _ => (.ok ((), seedWrites args args'), seqs)).run (exec 0) initial
      = (.ok (), (initial.setSequences .initial).stage 0 (seedWrites args args')) := by
    rw [run_flush]
    rfl
  have hserve : (serve 0 (flush fun _ seqs _ => (.ok ((), seedWrites args args'), seqs)) initial).2
      = { initial with db := seedDb args args' } := by
    rw [serve_eq, hflush]
    simp [World.commit, World.close, World.view, World.stage, World.setSequences, World.writesOf,
      World.initial, List.filter_map, Function.comp_def, seedDb]
  rw [← hserve]
  show ((((getDb _).bind (.ret ∘ fun _ => ())).bind (.ret ∘ fun _ => Reply.noContent)).run
    (exec 0) initial).2 = _
  rw [Program.run_map, Program.run_map]
  rfl

theorem seats_seedDb (args args' : CreateArgs) : (seedDb args args').seats.rows
    = (args.seatIds ++ args'.seatIds).dedup.map fun id => ⟨id, args.hallId, id, 1, true⟩ := by
  have hwrites : (args.seatIds ++ args'.seatIds).dedup.map
      (fun id => Write.insertSeat ⟨id, args.hallId, id, 1, true⟩)
      = ((args.seatIds ++ args'.seatIds).dedup.map
          fun id => (⟨id, args.hallId, id, 1, true⟩ : Seat)).map .insertSeat := by
    rw [List.map_map]
    rfl
  rw [seedDb, seedWrites, Db.applyAll_cons, Db.applyAll_cons, Db.applyAll_cons, hwrites,
    Db.seats_applyAll_inserts]
  · rfl
  · rw [List.map_map]
    exact List.Nodup.map (fun _ _ h => h) (List.nodup_dedup _)
  · exact fun _ _ _ h => absurd h List.not_mem_nil

/-- The seed leaves the seats, and everything else that the checks look at. -/
theorem passes_seedDb {a : CreateArgs} (hhall : a.hallId = args.hallId)
    (hslot : validateTimeSlot settings a.startTime a.endTime = .ok ())
    (huser : a.userId = args.userId ∨ a.userId = args'.userId)
    (hseats : a.seatIds ⊆ args.seatIds ++ args'.seatIds) (hnodup : a.seatIds.Nodup) :
    ∃ hall user, Passes settings a (seedDb args args') hall user := by
  have hother : ∀ x ∈ (args.seatIds ++ args'.seatIds).dedup.map
      (fun id => Write.insertSeat ⟨id, args.hallId, id, 1, true⟩), x.table = .seats := by
    intro x hx
    obtain ⟨id, -, rfl⟩ := List.mem_map.mp hx
    rfl
  have hhalls : (seedDb args args').halls.rows = [⟨args.hallId, "Red", 1, 0, true, 0⟩] := by
    rw [seedDb, seedWrites, Db.applyAll_cons, Db.applyAll_cons, Db.applyAll_cons,
      Db.halls_applyAll _ fun x hx => by simp [hother x hx]]
    rfl
  have husers : ∃ user, (seedDb args args').users.find? a.userId = some user := by
    rw [seedDb, seedWrites, Db.applyAll_cons, Db.applyAll_cons, Db.applyAll_cons,
      Db.users_applyAll _ fun x hx => by simp [hother x hx]]
    rcases huser with huser | huser <;> rw [huser]
    · exact Table.exists_find?_of_subset (Table.subset_insert _ _) (Table.exists_find?_insert
        (Table.empty : Table User) ⟨args.userId, "ann@example.com", "", .user, true, 0⟩)
    · exact Table.exists_find?_insert _
        (⟨args'.userId, "bob@example.com", "", .user, true, 0⟩ : User)
  obtain ⟨user, huser⟩ := husers
  refine ⟨⟨args.hallId, "Red", 1, 0, true, 0⟩, user, ?_, huser, hslot, ?_, ?_⟩
  · rw [selectActiveHall, hhalls]
    simp [hhall]
  · refine length_selectActiveSeats_eq_iff.mpr ⟨hnodup, fun seatId hid => ?_⟩
    refine ⟨⟨seatId, args.hallId, seatId, 1, true⟩, ?_, rfl, hhall.symm, rfl⟩
    rw [seats_seedDb, List.mem_map]
    exact ⟨seatId, List.mem_dedup.mpr (hseats hid), rfl⟩
  · have hbookingSeats : (seedDb args args').bookingSeats.rows = [] := by
      rw [seedDb, seedWrites, Db.applyAll_cons, Db.applyAll_cons, Db.applyAll_cons,
        Db.bookingSeats_applyAll _ fun x hx => by simp [hother x hx]]
      rfl
    rw [selectConflictingSeats, hbookingSeats]
    simp

/-- A query of a request that creates a booking returns. -/
theorem step_execute {w : World} {threads : RequestId → Pc} {pc : CreatePc} {β : Type}
    {query : Db → β} {resume : Except Exc β → CreatePc}
    (h : pc.next settings args = .call (.execute query) resume) :
    step settings ⟨w, Function.update threads r (.create args pc)⟩ (.run r)
      = some ⟨w, Function.update threads r (.create args (resume (.ok (query (w.view r)))))⟩ := by
  simp only [step, Async.step, Function.update_self, Pc.next, h, Await.map, World.semantics,
    World.enabled, World.exec, if_true, Function.update_idem, Function.comp_apply]

/-- A request that passes its checks and finds its lock free gets to the check under the lock. -/
theorem exists_run_to_recheck (hpc : c.threads r = .create args .load)
    (hview : c.shared.view r = c.shared.db) {hall : Hall} {user : User}
    (h : Passes settings args c.shared.db hall user) (hfree : c.shared.redis args.lockKey = none) :
    ∃ tr, Run (step settings) c tr
        ⟨c.shared.setRedis (Function.update c.shared.redis args.lockKey
            (some ⟨args.token.text, settings.redisLockTimeout⟩)),
          Function.update c.threads r (.create args (.recheck hall user))⟩ ∧
      ∀ t ∈ tr, t.action = .run r := by
  obtain ⟨w, threads⟩ := c
  simp only at hpc hview h hfree ⊢
  -- one step for each control point up to the lock
  have h0 : (⟨w, threads⟩ : Config)
      = ⟨w, Function.update threads r (.create args .load)⟩ := by
    rw [← hpc, Function.update_eq_self]
  have h1 : step settings ⟨w, Function.update threads r (.create args .load)⟩ (.run r)
      = some ⟨w, Function.update threads r
        (.create args (.selectHall (.load args.userId w.db)))⟩ := by
    rw [step_execute rfl, hview]
  have h2 : step settings ⟨w, Function.update threads r
        (.create args (.selectHall (.load args.userId w.db)))⟩ (.run r)
      = some ⟨w, Function.update threads r
        (.create args (.selectUser (.load args.userId w.db) hall))⟩ := by
    rw [step_execute rfl, hview, h.hall]
  have h3 : step settings ⟨w, Function.update threads r
        (.create args (.selectUser (.load args.userId w.db) hall))⟩ (.run r)
      = some ⟨w, Function.update threads r (.create args (.selectSeats hall user))⟩ := by
    rw [step_execute rfl, hview]
    simp only [h.user, h.slot, Session.user_load (Table.find?_eq_some_iff.mp h.user).1]
  have h4 : step settings ⟨w, Function.update threads r (.create args (.selectSeats hall user))⟩
      (.run r)
      = some ⟨w, Function.update threads r (.create args (.checkConflicts hall user))⟩ := by
    rw [step_execute rfl, hview]
    simp only [h.seats, ne_eq, not_true, if_false]
  have h5 : step settings ⟨w, Function.update threads r (.create args (.checkConflicts hall user))⟩
      (.run r) = some ⟨w, Function.update threads r (.create args (.acquire hall user))⟩ := by
    rw [step_execute rfl, hview]
    simp only [h.conflicts, ne_eq, not_true, if_false]
  have h6 : step settings ⟨w, Function.update threads r (.create args (.acquire hall user))⟩
      (.run r)
      = some ⟨w.setRedis (Function.update w.redis args.lockKey
          (some ⟨args.token.text, settings.redisLockTimeout⟩)),
        Function.update threads r (.create args (.recheck hall user))⟩ := by
    simp [step, Async.step, Pc.next, CreatePc.next, Await.map, World.semantics, World.enabled,
      World.exec, Redis.exec, hfree]
  rw [h0]
  refine ⟨_, (((((Run.single h1).tail h2).tail h3).tail h4).tail h5).tail h6, fun t ht => ?_⟩
  simp only [List.mem_cons, List.not_mem_nil, or_false] at ht
  rcases ht with rfl | rfl | rfl | rfl | rfl | rfl <;> rfl

/-- The seed and the two requests. -/
def meeting (args args' : CreateArgs) : RequestId → Request
  | 0 => .other (seed args args')
  | 1 => .createBooking args
  | 2 => .createBooking args'
  | _ => .other ⟨.ret (), trivial⟩

theorem distinctTokens_meeting (h : args.token ≠ args'.token) :
    DistinctTokens (meeting args args') := by
  intro r r' a a' hr hr' ht
  match r, r', hr, hr' with
  | 1, 1, _, _ => rfl
  | 2, 2, _, _ => rfl
  | 1, 2, rfl, rfl => exact absurd ht h
  | 2, 1, rfl, rfl => exact absurd ht.symm h

/-- Two conflicting requests with different keys meet in the critical section. -/
theorem exists_run_to_meeting (h : Conflict settings args args')
    (hkeys : args.lockKey ≠ args'.lockKey) (hnodup : args.seatIds.Nodup)
    (hnodup' : args'.seatIds.Nodup) :
    ∃ tr c, RunOf settings (meeting args args') tr c ∧
      (∀ t ∈ tr, NoExpiryInUse t.before t.action) ∧
      (∃ hall user, c.threads 1 = .create args (.recheck hall user)) ∧
      ∃ hall user, c.threads 2 = .create args' (.recheck hall user) := by
  -- the seed runs first, and fills the tables for both requests
  have hseed : (start (meeting args args')).threads 0
      = (Request.other (seed args args')).start := rfl
  obtain ⟨tr₀, c₀, hrun₀, hacts₀, hs₀, -, hthreads₀⟩ :=
    run_alone_request settings hseed (by simp [OthersIdle, start, World.initial])
  replace hs₀ : c₀.shared = { initial with db := seedDb args args' } :=
    hs₀.trans (run_seed settings args args')
  have hdb : c₀.shared.db = seedDb args args' := by rw [hs₀]
  have hview (r : RequestId) : c₀.shared.view r = c₀.shared.db := by
    rw [hs₀]
    rfl
  have hfree (key : String) : c₀.shared.redis key = none := by rw [hs₀]; rfl
  obtain ⟨hall, user, hpasses⟩ : ∃ hall user, Passes settings args (seedDb args args') hall user :=
    passes_seedDb rfl h.slot (.inl rfl) (List.subset_append_left _ _) hnodup
  obtain ⟨hall', user', hpasses'⟩ :
      ∃ hall user, Passes settings args' (seedDb args args') hall user :=
    passes_seedDb h.hall.symm h.slot' (.inr rfl) (List.subset_append_right _ _) hnodup'
  rw [← hdb] at hpasses hpasses'
  obtain ⟨tr₁, hrun₁, hacts₁⟩ := exists_run_to_recheck (r := 1)
    (hthreads₀ 1 (by decide)) (hview 1) hpasses (hfree _)
  -- the second request finds its own key free
  have hidle : Function.update c₀.threads 1 (.create args (.recheck hall user)) 2
      = .create args' .load := by
    rw [Function.update_of_ne (by decide)]
    exact hthreads₀ 2 (by decide)
  obtain ⟨tr₂, hrun₂, hacts₂⟩ := exists_run_to_recheck (r := 2)
    (c := ⟨c₀.shared.setRedis (Function.update c₀.shared.redis args.lockKey
      (some ⟨args.token.text, settings.redisLockTimeout⟩)),
      Function.update c₀.threads 1 (.create args (.recheck hall user))⟩)
    hidle (hview 2) hpasses'
    ((Function.update_of_ne hkeys.symm _ _).trans (hfree _))
  refine ⟨_, _, (hrun₀.trans hrun₁).trans hrun₂, fun t ht => ?_, ?_, ?_⟩
  · -- the environment does nothing
    have hact : ∃ r, t.action = .run r := by
      simp only [List.mem_append] at ht
      rcases ht with ht | ht | ht
      · exact ⟨_, hacts₂ t ht⟩
      · exact ⟨_, hacts₁ t ht⟩
      · exact ⟨_, hacts₀ t ht⟩
    obtain ⟨r, hr⟩ := hact
    rw [hr]
    trivial
  · refine ⟨hall, user, ?_⟩
    show Function.update (Function.update c₀.threads 1 (.create args (.recheck hall user))) 2
      (.create args' (.recheck hall' user')) 1 = _
    rw [Function.update_of_ne (by decide), Function.update_self]
  · refine ⟨hall', user', ?_⟩
    show Function.update (Function.update c₀.threads 1 (.create args (.recheck hall user))) 2
      (.create args' (.recheck hall' user')) 2 = _
    rw [Function.update_self]

/-- **What the lock covers**: two conflicting requests exclude each other exactly if their start
times, as written, have the same date and the same hour, or one of them names a seat twice. -/
theorem excludes_iff (h : Conflict settings args args') :
    Excludes settings args args' ↔
      (args.startTime.date = args'.startTime.date ∧ args.startTime.hour = args'.startTime.hour) ∨
        ¬ args.seatIds.Nodup ∨ ¬ args'.seatIds.Nodup := by
  have hkey : args.lockKey = args'.lockKey ↔
      args.startTime.date = args'.startTime.date ∧
        args.startTime.hour = args'.startTime.hour := by
    rw [CreateArgs.lockKey, CreateArgs.lockKey, lockKey_eq_iff]
    exact and_iff_right h.hall
  rw [← hkey]
  constructor
  · intro hexcludes
    by_contra hnot
    simp only [not_or, not_not] at hnot
    obtain ⟨hne, hnodup, hnodup'⟩ := hnot
    obtain ⟨tr, c, hrun, hexpiry, ⟨hall, user, hpc⟩, hall', user', hpc'⟩ :=
      exists_run_to_meeting h hne hnodup hnodup'
    exact hexcludes _ tr c hrun (distinctTokens_meeting h.token) hexpiry 1 2 rfl rfl _ _ hpc hpc'
      ⟨trivial, trivial⟩
  · rintro hcovered requests tr c hrun htokens hexpiry r r' hr hr' pc pc' hpc hpc' ⟨hin, hin'⟩
    rcases hcovered with hsame | hnot | hnot
    · obtain rfl := section_unique htokens hrun hexpiry hpc hpc' hin hin' hsame
      exact h.token (congrArg CreateArgs.token (Request.createBooking.inj (hr.symm.trans hr')))
    · exact hnot (nodup_of_inSection hrun hpc hin)
    · exact hnot (nodup_of_inSection hrun hpc' hin')

theorem conflict_later : Conflict BookingApi.settings Scenario.booking (Scenario.later 1) where
  hall := rfl
  slot := by decide +kernel
  slot' := by decide +kernel
  seat := ⟨1, by decide, by decide⟩
  overlap := by decide +kernel
  token := by decide

/-- A booking from 10:00 and one from 11:00 are not covered. -/
theorem exists_two_in_section :
    Conflict BookingApi.settings Scenario.booking (Scenario.later 1) ∧
      ¬ Excludes BookingApi.settings Scenario.booking (Scenario.later 1) := by
  refine ⟨conflict_later, fun h => ?_⟩
  obtain ⟨tr, c, hrun, hexpiry, ⟨hall, user, hpc⟩, hall', user', hpc'⟩ :=
    exists_run_to_meeting conflict_later (by decide +kernel) (by decide) (by decide)
  exact h _ tr c hrun (distinctTokens_meeting conflict_later.token) hexpiry 1 2 rfl rfl _ _ hpc hpc'
    ⟨trivial, trivial⟩

theorem conflict_sameHour : Conflict BookingApi.settings Scenario.booking
    { Scenario.booking with endTime := Scenario.oclock 13, token := Scenario.otherToken } where
  hall := rfl
  slot := by decide +kernel
  slot' := by decide +kernel
  seat := ⟨1, by decide, by decide⟩
  overlap := by decide +kernel
  token := by decide

/-- Two bookings from 10:00 are covered. -/
theorem excludes_sameHour : Excludes BookingApi.settings Scenario.booking
    { Scenario.booking with endTime := Scenario.oclock 13, token := Scenario.otherToken } :=
  (excludes_iff conflict_sameHour).mpr (.inl ⟨rfl, rfl⟩)

end BookingApi.Concurrent
