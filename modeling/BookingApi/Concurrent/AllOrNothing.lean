import BookingApi.Concurrent.Lock

/-!
# Creating a booking is all or nothing

`create_all_or_nothing`: a request that fails, wherever it fails and whatever the other requests do,
has changed no committed row; one that succeeds has added one booking and one row for each seat, in
one step.  Neither removes the lock of another request, and neither leaves its own token behind,
unless the release itself failed.
-/

namespace BookingApi.Concurrent

open Async BookingService World

variable {settings : Settings} {requests : RequestId → Request} {tr : Trace} {c c' : Config}

/-- The committed tables before and after a new booking. -/
def NewBooking (args : CreateArgs) (id : ℤ) (db db' : Db) : Prop :=
  ∃ b rows, b.id = id ∧ IsDraft args b ∧
    db'.bookings.rows = db.bookings.rows ++ [b] ∧
    db'.bookingSeats.rows = db.bookingSeats.rows ++ rows ∧
    rows.map BookingSeat.seatId = args.seatIds ∧ ∀ bs ∈ rows, bs.bookingId = id

/-- No step of the request has changed the committed tables. -/
def Keeps (tr : Trace) (r : RequestId) : Prop :=
  ∀ t ∈ tr, ∀ f, t.action = actionOf r f → t.after.shared.db = t.before.shared.db

/-- One step of the request has added a booking, and no other step has changed the committed
tables. -/
def Makes (tr : Trace) (r : RequestId) (args : CreateArgs) (id : ℤ) : Prop :=
  ∃ later t earlier, tr = later ++ t :: earlier ∧ t.action = .run r ∧
    NewBooking args id t.before.shared.db t.after.shared.db ∧ Keeps later r ∧ Keeps earlier r

/-- The answer of a request that has succeeded. -/
def answer? : CreatePc → Option BookingResponse
  | .done (.ok answer) => some answer
  | _ => none

/-- What a request has done to the committed tables. -/
def Effect (tr : Trace) (r : RequestId) : Pc → Prop
  | .create args pc => match answer? pc with
    | some answer => Makes tr r args answer.id
    | none => Keeps tr r
  | _ => True

theorem keeps_nil (r : RequestId) : Keeps [] r := fun _ ht => absurd ht List.not_mem_nil

theorem Keeps.cons {r : RequestId} (h : Keeps tr r) {t : Transition Config Action}
    (ht : ∀ f, t.action = actionOf r f → t.after.shared.db = t.before.shared.db) :
    Keeps (t :: tr) r := by
  intro t' ht' f hf
  rcases List.mem_cons.mp ht' with rfl | ht'
  · exact ht f hf
  · exact h t' ht' f hf

theorem effect_of_none {r : RequestId} {args : CreateArgs} {pc : CreatePc} (h : answer? pc = none) :
    Effect tr r (.create args pc) ↔ Keeps tr r := by
  rw [Effect, h]

theorem Effect.cons_of_ne {r : RequestId} {pc : Pc} (h : Effect tr r pc)
    {t : Transition Config Action} (ht : ∀ f, t.action ≠ actionOf r f) : Effect (t :: tr) r pc := by
  have keeps {tr : Trace} (h : Keeps tr r) : Keeps (t :: tr) r :=
    h.cons fun f hf => absurd hf (ht f)
  cases pc with
  | create args pc =>
    rw [Effect] at h ⊢
    split at h
    · obtain ⟨later, t', earlier, rfl, hact, hnew, hlater, hearlier⟩ := h
      exact ⟨t :: later, t', earlier, rfl, hact, hnew, keeps hlater, hearlier⟩
    · exact keeps h
  | _ => trivial

/-- Only the commit changes the committed tables. -/
theorem db_of_createStep {args : CreateArgs} {i : RequestId} {f : Option Fault} {w w' : World}
    {pc pc' : CreatePc} (hs : CreateStep settings args i f w pc w' pc') :
    (w'.db = w.db ∧ answer? pc = none ∧ answer? pc' = none) ∨
      ∃ answer, pc = .commit answer ∧ f = none ∧ w' = w.commit i ∧ pc' = .done (.ok answer) := by
  cases hs with
  | @commit _ answer => exact .inr ⟨answer, rfl, rfl, rfl, rfl⟩
  | @release _ outcome => exact .inl ⟨rfl, rfl, by cases outcome <;> rfl⟩
  | @abortEarly _ _ pc _ h => exact .inl ⟨rfl, by cases pc <;> first | rfl | exact h.elim, rfl⟩
  | @abortLocked _ _ pc _ _ h => exact .inl ⟨rfl, by cases pc <;> first | rfl | exact h.elim, rfl⟩
  | @lateFault _ _ pc _ h => exact .inl ⟨rfl, by cases pc <;> first | rfl | exact h.elim, rfl⟩
  | _ => exact .inl ⟨rfl, rfl, rfl⟩

theorem effect_start (requests : RequestId → Request) (r : RequestId) :
    Effect [] r ((start requests).threads r) := by
  show Effect [] r (requests r).start
  cases requests r with
  | createBooking args => exact keeps_nil r
  | _ => trivial

/-- **What a request has done** to the committed tables, at each of its control points. -/
theorem RunOf.effect (h : RunOf settings requests tr c) : ∀ r, Effect tr r (c.threads r) := by
  refine Run.trace_invariant (I := fun tr c => ∀ r, Effect tr r (c.threads r))
    (A := fun _ _ => True) (effect_start requests) ?_ h fun _ _ => trivial
  intro tr c a c' hrun ih _ hstep
  have hi := RunOf.inv hrun
  refine forall_threads hstep ?_ ?_ (fun _ _ _ => trivial) (fun _ _ _ => trivial)
  · exact fun r hne _ => (ih r).cons_of_ne hne
  · intro i f args pc pc' ha hpc hs
    have hkeeps := ih i
    rw [hpc] at hkeeps
    rcases db_of_createStep hs with ⟨hdb, hpc₁, hpc₂⟩ | ⟨answer, rfl, rfl, hw, rfl⟩
    · rw [effect_of_none hpc₁] at hkeeps
      rw [effect_of_none hpc₂]
      exact hkeeps.cons fun _ _ => hdb
    · -- the commit stores the booking and its seats, which are all that the transaction wrote
      obtain ⟨⟨b, k, hid, hd, hws⟩, -⟩ := hi.create hpc
      rw [← hid] at hws
      obtain ⟨hbookings, hseats⟩ := commit_filled hi.sound hws
      rw [← hw] at hbookings hseats
      refine ⟨[], _, tr, rfl, ha, ⟨b, _, hid, hd, hbookings, hseats, ?_, ?_⟩, keeps_nil i, hkeeps⟩
      · exact map_seatId_bookingSeatRows ..
      · exact fun bs hbs => (mem_bookingSeatRows hbs).2.2.1.trans hid

/-! ### What a successful request leaves -/

/-- The booking is committed, with these seats. -/
def HasSeats (w : World) (id : ℤ) (seatIds : List ℤ) : Prop :=
  Stored w id ∧ (w.db.seatsOf id).map BookingSeat.seatId = seatIds

theorem HasSeats.step {id : ℤ} {seatIds : List ℤ} (hi : Inv c) {a : Action}
    (h : HasSeats c.shared id seatIds) (hstep : step settings c a = some c') :
    HasSeats c'.shared id seatIds := by
  -- the booking stays, and no step attaches a seat to it
  have key {w' : World} (hg : c.shared.db.Grows w'.db)
      (hs : ∀ b ∈ c.shared.db.bookings.rows, w'.db.seatsOf b.id = c.shared.db.seatsOf b.id) :
      HasSeats w' id seatIds := by
    refine ⟨h.1.mono hg, ?_⟩
    obtain ⟨b, hb, rfl⟩ := h.1
    rw [hs b hb]
    exact h.2
  cases a with
  | run i =>
    obtain ⟨β, op, resume, -, -, hs, -⟩ := step_run hstep
    rw [hs]
    exact key (untouched_exec (Nat.succ_ne_self i)).grows fun b hb => hi.sound.seatsOf_exec hb op
  | fault i f =>
    obtain ⟨β, op, resume, e, -, hs, -⟩ := step_fault hstep
    have hdb := db_fault hs
    exact key (hdb ▸ .refl _) fun b _ => by rw [hdb]
  | env e =>
    obtain rfl := step_env hstep
    cases e <;> exact h

theorem hasSeats_commit {w : World} {r : RequestId} {args : CreateArgs} {id : ℤ} (hw : w.Sound)
    (h : Filled w r args id) : HasSeats (w.commit r) id args.seatIds := by
  obtain ⟨b, k, rfl, hd, hws⟩ := h
  exact ⟨⟨b, by rw [(commit_filled hw hws).1]; simp, rfl⟩, seatsOf_commit_filled hw hws⟩

/-- A request that has succeeded has left a booking with the requested seats. -/
def Left (w : World) : Pc → Prop
  | .create args pc => ∀ answer, answer? pc = some answer → HasSeats w answer.id args.seatIds
  | _ => True

theorem RunOf.left (h : RunOf settings requests tr c) : ∀ r, Left c.shared (c.threads r) := by
  refine Run.trace_invariant (I := fun _ c => ∀ r, Left c.shared (c.threads r))
    (A := fun _ _ => True) ?_ ?_ h fun _ _ => trivial
  · intro r
    show Left initial (requests r).start
    cases requests r with
    | createBooking args => exact nofun
    | _ => trivial
  intro tr c a c' hrun ih _ hstep
  have hi := RunOf.inv hrun
  refine forall_threads hstep ?_ ?_ (fun _ _ _ => trivial) (fun _ _ _ => trivial)
  · intro r _ _
    have hr := ih r
    cases hpc : c.threads r with
    | create args pc =>
      rw [hpc] at hr
      exact fun answer ha => (hr answer ha).step hi hstep
    | _ => trivial
  · intro i f args pc pc' ha hpc hs
    rcases db_of_createStep hs with ⟨-, -, hpc₂⟩ | ⟨answer, rfl, rfl, hw, rfl⟩
    · rw [Left, hpc₂]
      simp
    · rintro answer ⟨⟩
      rw [hw]
      exact hasSeats_commit hi.sound (hi.create hpc).1

/-- **All or nothing.**  Whatever the other requests do and wherever a request fails:

* a request that has failed has changed no committed row, and no change of it is left pending; one
  that has succeeded has added one booking and one row for each requested seat, in one step, and
  the booking still has these seats;
* no step of the request removes or changes a lock that holds another token than its own;
* when the request has ended, its token is nowhere in Redis, unless the release itself failed. -/
theorem create_all_or_nothing (htokens : DistinctTokens requests)
    (h : RunOf settings requests tr c) {r : RequestId} {args : CreateArgs}
    (hr : requests r = .createBooking args) :
    (∀ e, (c.threads r).result settings = some (.error e) →
      c.shared.writesOf r = [] ∧ Keeps tr r) ∧
    (∀ reply, (c.threads r).result settings = some (.ok reply) →
      ∃ answer, reply = .booking answer ∧ c.shared.writesOf r = [] ∧
        Makes tr r args answer.id ∧ HasSeats c.shared answer.id args.seatIds) ∧
    (∀ t ∈ tr, ∀ f, t.action = actionOf r f → ∀ key e, t.before.shared.redis key = some e →
      e.value ≠ args.token.text → t.after.shared.redis key = some e) ∧
    (∀ result, (c.threads r).result settings = some result → ¬ ReleaseFailed tr r →
      ∀ key, c.shared.redis.lookup key ≠ some args.token.text) := by
  obtain ⟨pc, hpc⟩ := (RunOf.create_iff h).mp hr
  have hi := (RunOf.inv h).create hpc
  have heffect := RunOf.effect h r
  rw [hpc] at heffect ⊢
  refine ⟨fun e he => ?_, fun reply hok => ?_, fun t ht f ha key e he hvalue => ?_,
    fun result hresult hrelease key hkey => ?_⟩
  · obtain ⟨e' | answer, rfl, he'⟩ := result_create he
    · exact ⟨hi, heffect⟩
    · cases he'
  · obtain ⟨e' | answer, rfl, hreply⟩ := result_create hok
    · cases hreply
    · have hleft := RunOf.left h r
      rw [hpc] at hleft
      exact ⟨answer, Except.ok.inj hreply, hi.1, heffect, hleft answer rfl⟩
  · obtain ⟨hstep, tr', hrun, -⟩ := Run.of_mem h ht
    obtain ⟨pc', hpc'⟩ := (RunOf.create_iff hrun).mp hr
    rw [ha] at hstep
    obtain ⟨pc'', hs, -⟩ := createStep_of_step hstep hpc'
    by_contra hlost
    have hown : e.value = args.token.text := (entry_of_createStep hs he hlost).2.2.2
    exact hvalue hown
  · have hstored := RunOf.tokenStored htokens h r
    rw [hpc] at hstored
    obtain ⟨result', rfl, -⟩ := result_create hresult
    exact (hstored key hkey).2.elim id hrelease

/-- Two requests for the same seat, one after the other. -/
def Scenario.sameSeat : List Request :=
  [.createBooking Scenario.booking,
    .createBooking { Scenario.booking with token := otherToken }]

/-- The first request succeeds, and the second one fails. -/
theorem create_all_or_nothing_sameSeat :
    ∃ tr c id, RunOf BookingApi.settings (Scenario.requests Scenario.sameSeat) tr c ∧
      Makes tr 3 Scenario.booking id ∧ HasSeats c.shared id [1] ∧ Keeps tr 4 := by
  have htokens : DistinctTokens (Scenario.requests Scenario.sameSeat) :=
    Scenario.distinctTokens (by simp [Scenario.sameSeat]; decide)
  have hreplay : ((Scenario.run Scenario.sameSeat
      (Scenario.times 15 3 ++ Scenario.times 6 4)).map fun c => decide
        (((c.threads 3).result BookingApi.settings).map Except.isOk = some true ∧
          ((c.threads 4).result BookingApi.settings).map Except.isOk = some false))
        = some true := by decide +kernel
  obtain ⟨tr, c, hrun, h3, h4⟩ := Scenario.exists_run _ hreplay
  obtain ⟨e | reply, h3, hok⟩ := Option.map_eq_some_iff.mp h3
  · cases hok
  obtain ⟨e | reply', h4, hfailed⟩ := Option.map_eq_some_iff.mp h4
  · obtain ⟨answer, -, -, hmakes, hseats⟩ := (create_all_or_nothing htokens hrun rfl).2.1 _ h3
    exact ⟨tr, c, answer.id, hrun, hmakes, hseats,
      ((create_all_or_nothing htokens hrun (r := 4) rfl).1 e h4).2⟩
  · cases hfailed

end BookingApi.Concurrent
