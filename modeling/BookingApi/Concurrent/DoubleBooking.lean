import BookingApi.BookingService.Ledger
import BookingApi.Concurrent.Bystanders
import BookingApi.Concurrent.Invariant

/-!
# Double bookings

The lock serializes the requests that start in the same hour, and only until it is released, which
is before the commit.  So a request may pass its locked conflict check while another request with a
clashing interval has passed its own and has not committed yet, and then both of them commit
(`exists_double_booking`).  `noDoubleBooking_of_recheckSafe`: this is the only way to a double
booking.
-/

namespace BookingApi

/-- The seats and the interval that a request asks for. -/
def CreateArgs.claim (args : CreateArgs) : Reservation ℤ Instant :=
  ⟨{s | s ∈ args.seatIds}, args.startTime.instant, args.endTime.instant⟩

end BookingApi

namespace BookingApi.Concurrent

open Async BookingService World

variable {settings : Settings} {requests : RequestId → Request} {tr : Trace} {c c' : Config}

/-- The control points from the passed re-check to the commit. -/
def Unsettled : CreatePc → Prop
  | .flushBooking _ _ _ | .flushSeats _ _ _ _ | .refresh _ _ _ _ | .reload _ _ _ _
  | .send _ _ _ _ _ | .release (.ok _) | .response _ | .commit _ => True
  | _ => False

/-- The request has passed its re-check and has not ended. -/
def Claims : Pc → Reservation ℤ Instant → Prop
  | .create args pc, res => Unsettled pc ∧ res = args.claim
  | _, _ => False

/-- The conflict query of the request returns no row. -/
def FindsNoConflict (w : World) (r : RequestId) (args : CreateArgs) : Prop :=
  selectConflictingSeats args.hallId args.seatIds args.startTime.instant args.endTime.instant none
    (w.view r) = []

/-- No request passes its re-check while a request with a clashing claim has passed its own and has
not ended. -/
def RecheckSafe (c : Config) : Action → Prop
  | .run r => ∀ args hall user, c.threads r = .create args (.recheck hall user) →
    FindsNoConflict c.shared r args →
    ∀ r' res, Claims (c.threads r') res → ¬ res.Clash args.claim
  | _ => True

/-! ### The ledger of the committed bookings -/

/-- The commit of a new booking enters the claim of its request. -/
theorem ledger_commit_filled {w : World} {r : RequestId} {args : CreateArgs} {id : ℤ}
    (hw : w.Sound) (h : Filled w r args id) :
    (w.commit r).db.ledger = w.db.ledger.enter id args.claim ∧ w.db.ledger id = none := by
  obtain ⟨b, k, rfl, hd, hws⟩ := h
  have hmem : .insertBooking b ∈ w.writesOf r := by rw [hws]; exact List.mem_cons_self ..
  have hold : ∀ b' ∈ w.db.bookings.rows, (w.commit r).db.seatsOf b'.id = w.db.seatsOf b'.id :=
    fun b' hb' => hw.seatsOf_exec hb' .commit
  constructor
  · rw [Db.ledger_newBooking (commit_filled hw hws).1 hold (seatsOf_commit_filled hw hws) hd.status,
      CreateArgs.claim, hd.startTime, hd.endTime]
  · rw [Option.eq_none_iff_forall_ne_some]
    intro res hres
    obtain ⟨b', hb', hid, -⟩ := Db.ledger_eq_some_iff.mp hres
    exact hw.draft_fresh r b hmem b' hb' hid

/-- What a step does to the ledger: a commit enters the claim of a request, or strikes out a
reservation. -/
inductive LedgerStep (c c' : Config) : Action → Prop
  | keep {a : Action} : c'.shared.db.ledger = c.shared.db.ledger → LedgerStep c c' a
  | enter {r : RequestId} {args : CreateArgs} {answer : BookingResponse} :
      c.threads r = .create args (.commit answer) →
      c'.threads r = .create args (.done (.ok answer)) →
      c'.shared.db.ledger = c.shared.db.ledger.enter answer.id args.claim →
      LedgerStep c c' (.run r)
  | strike {a : Action} {id : ℤ} :
      c'.shared.db.ledger = c.shared.db.ledger.strike id → LedgerStep c c' a

theorem ledgerStep_of_step (hi : Inv c) {a : Action} (h : step settings c a = some c') :
    LedgerStep c c' a := by
  cases dbStep_of_step h with
  | keep hdb => exact .keep (by rw [hdb])
  | create hpc ht hw =>
    refine .enter hpc (by rw [ht, Function.update_self]) ?_
    rw [hw]
    exact (ledger_commit_filled hi.sound (hi.create hpc).1).1
  | @cancel i args hpc ht hw =>
    refine .strike (?_ : c'.shared.db.ledger = c.shared.db.ledger.strike args.bookingId)
    rw [hw]
    show (c.shared.db.applyAll (c.shared.writesOf i)).ledger = _
    rw [(hi.cancel hpc).1, Db.applyAll_cons, Db.applyAll_nil, Db.ledger_updateBooking]
  | other hpc hw =>
    have hinv := hi.other hpc
    refine .keep ?_
    rw [hw]
    exact Db.ledger_congr (Db.bookings_applyAll _ fun x hx => (hinv.1 x hx).1)
      (Db.bookingSeats_applyAll _ fun x hx => (hinv.1 x hx).2)

/-! ### The claims of the unsettled requests -/

/-- The request has just found no conflict, and claims its seats. -/
def NewClaim (c c' : Config) (a : Action) (r : RequestId) (res : Reservation ℤ Instant) : Prop :=
  a = .run r ∧ c'.shared = c.shared ∧ ∃ args hall user,
    c.threads r = .create args (.recheck hall user) ∧ FindsNoConflict c.shared r args ∧
      res = args.claim

/-- A request that claims its seats after a step did so before, or has just found no conflict. -/
theorem claims_of_step {a : Action} (h : step settings c a = some c') :
    ∀ r res, Claims (c'.threads r) res → Claims (c.threads r) res ∨ NewClaim c c' a r res := by
  refine forall_threads h
    (Q := fun r pc => ∀ res, Claims pc res → Claims (c.threads r) res ∨ NewClaim c c' a r res)
    (fun r _ _ res => Or.inl) ?_ (fun _ _ _ _ => False.elim) (fun _ _ _ _ => False.elim)
  rintro i f args pc pc' rfl hpc hs res ⟨hun, rfl⟩
  rw [hpc]
  generalize hw : c.shared = w at *
  generalize hw' : c'.shared = w' at *
  cases hs with
  | @recheck _ hall user _ hnil =>
    exact .inr ⟨rfl, hw'.trans hw.symm, args, hall, user, hpc, hw ▸ hnil, rfl⟩
  | @release _ outcome =>
    cases outcome with
    | error e => exact hun.elim
    | ok b => exact .inl ⟨trivial, rfl⟩
  | _ => first | exact hun.elim | exact .inl ⟨trivial, rfl⟩

/-- Neither the committed bookings nor the unsettled requests clash with an unsettled request. -/
structure ClashInv (c : Config) : Prop where
  ledger : c.shared.db.ledger.ClashFree
  claims : ∀ r res, Claims (c.threads r) res →
    ∀ id res', c.shared.db.ledger id = some res' → ¬ res'.Clash res
  pairs : ∀ r r' res res', Claims (c.threads r) res → Claims (c.threads r') res' → r ≠ r' →
    ¬ res.Clash res'

theorem clashInv_start (requests : RequestId → Request) : ClashInv (start requests) := by
  have hnone (r : RequestId) (res : Reservation ℤ Instant) :
      ¬ Claims ((start requests).threads r) res := by
    show ¬ Claims (requests r).start res
    cases requests r <;> exact fun h => by cases h <;> contradiction
  exact ⟨nofun, fun r res h => absurd h (hnone r res),
    fun r r' res res' h => absurd h (hnone r res)⟩

theorem clashInv_step (hi : Inv c) (hc : ClashInv c) {a : Action} (hsafe : RecheckSafe c a)
    (h : step settings c a = some c') : ClashInv c' := by
  refine ⟨?ledger, ?claims, ?pairs⟩
  case ledger =>
    cases ledgerStep_of_step hi h with
    | keep hl => exact hl ▸ hc.ledger
    | @enter r args answer hpc _ hl =>
      have hclaim : Claims (c.threads r) args.claim := by
        rw [hpc]
        exact ⟨trivial, rfl⟩
      exact hl ▸ hc.ledger.enter (hc.claims r _ hclaim)
    | strike hl => exact hl ▸ hc.ledger.strike
  case claims =>
    intro r res hr id res' hid
    obtain hr' | ⟨rfl, hs, args, hall, user, hpc, hnil, rfl⟩ := claims_of_step h r res hr
    · cases ledgerStep_of_step hi h with
      | keep hl => exact hc.claims r res hr' id res' (hl ▸ hid)
      | @enter i args answer hpc hpc' hl =>
        rw [hl] at hid
        unfold Ledger.enter at hid
        rw [Function.update_apply] at hid
        split_ifs at hid with he
        · -- the new reservation was the claim of another request
          obtain rfl := Option.some.inj hid
          have hclaim : Claims (c.threads i) args.claim := by
            rw [hpc]
            exact ⟨trivial, rfl⟩
          have hne : i ≠ r := by
            rintro rfl
            rw [hpc'] at hr
            exact hr.1
          exact hc.pairs i r _ _ hclaim hr' hne
        · exact hc.claims r res hr' id res' hid
      | @strike _ id' hl =>
        rw [hl] at hid
        unfold Ledger.strike at hid
        rw [Function.update_apply] at hid
        split_ifs at hid with he
        exact hc.claims r res hr' id res' hid
    · -- the request has just seen that it clashes with no committed booking
      obtain ⟨hidle, hplaced⟩ := hi.create hpc
      rw [FindsNoConflict, view_of_idle hidle,
        Db.selectConflictingSeats_eq_nil_iff_ledger hi.sound.linked hplaced] at hnil
      exact hnil id res' (hs ▸ hid)
  case pairs =>
    -- of two requests that claim after the step, at most one did not claim before
    have key {r r' : RequestId} {res res' : Reservation ℤ Instant}
        (hr : Claims (c'.threads r) res) (hr' : Claims (c.threads r') res') (hne : r ≠ r') :
        ¬ res'.Clash res := by
      obtain hr | ⟨rfl, -, args, hall, user, hpc, hnil, rfl⟩ := claims_of_step h r res hr
      · exact hc.pairs r' r res' res hr' hr hne.symm
      · exact hsafe args hall user hpc hnil r' res' hr'
    intro r r' res res' hr hr' hne
    obtain hold | ⟨rfl, -⟩ := claims_of_step h r' res' hr'
    · exact fun hclash => key hr hold hne hclash.symm
    · obtain hold | ⟨ha, -⟩ := claims_of_step h r res hr
      · exact key hr' hold hne.symm
      · exact absurd (Action.run.inj ha).symm hne

theorem RunOf.clashInv (h : RunOf settings requests tr c)
    (hsafe : ∀ t ∈ tr, RecheckSafe t.before t.action) : ClashInv c :=
  Run.trace_invariant (I := fun _ c => ClashInv c) (clashInv_start requests)
    (fun hrun ih hsafe hstep => clashInv_step (RunOf.inv hrun) ih hsafe hstep) h hsafe

/-- **No double booking** in every run in which no request passes its re-check while a request with
a clashing claim is unsettled. -/
theorem noDoubleBooking_of_recheckSafe (h : RunOf settings requests tr c)
    (hsafe : ∀ t ∈ tr, RecheckSafe t.before t.action) : c.shared.db.NoDoubleBooking :=
  Db.noDoubleBooking_iff.mpr (RunOf.clashInv h hsafe).ledger

/-- Requests with claims that do not clash pass their re-checks safely. -/
theorem recheckSafe_of_claims (h : RunOf settings requests tr c)
    (hclaims : ∀ r r' args args', requests r = .createBooking args →
      requests r' = .createBooking args' → r ≠ r' → ¬ args.claim.Clash args'.claim) :
    ∀ t ∈ tr, RecheckSafe t.before t.action := by
  intro t ht
  obtain ⟨-, tr', hrun, -⟩ := Run.of_mem h ht
  cases ha : t.action with
  | run r =>
    intro args hall user hpc _ r' res hr'
    rcases hpc' : t.before.threads r' with ⟨args', pc'⟩ | _ | _ <;> rw [hpc'] at hr'
    · obtain ⟨hun, rfl⟩ := hr'
      refine hclaims r' r args' args ((RunOf.create_iff hrun).mpr ⟨_, hpc'⟩)
        ((RunOf.create_iff hrun).mpr ⟨_, hpc⟩) ?_
      rintro rfl
      -- a request that stands before its re-check has not passed it
      obtain ⟨-, rfl⟩ := Pc.create.inj (hpc.symm.trans hpc')
      exact hun
    · exact hr'.elim
    · exact hr'.elim
  | _ => trivial

namespace Scenario

/-- A booking from 11:00 to 13:00. -/
def later (seatId : ℤ) : CreateArgs :=
  ⟨1, 1, [seatId], oclock 11, oclock 13, otherToken⟩

end Scenario

/-- Two interleaved requests for different seats both succeed. -/
theorem noDoubleBooking_differentSeats :
    ∃ requests tr c, RunOf BookingApi.settings requests tr c ∧
      c.shared.db.bookings.rows.length = 2 ∧ c.shared.db.NoDoubleBooking := by
  have hreplay : ((Scenario.run [.createBooking Scenario.booking, .createBooking (Scenario.later 2)]
      (Scenario.times 14 3 ++ Scenario.times 14 4 ++ [.run 3, .run 4])).map
        fun c => decide (c.shared.db.bookings.rows.length = 2)) = some true := by decide +kernel
  obtain ⟨tr, c, hrun, hlen⟩ := Scenario.exists_run _ hreplay
  refine ⟨_, tr, c, hrun, hlen, noDoubleBooking_of_recheckSafe hrun (recheckSafe_of_claims hrun ?_)⟩
  intro r r' args args' hr hr' hne
  refine Scenario.forall_of_pairwise (R := fun args args' => ¬ args.claim.Clash args'.claim)
    (fun _ _ h hclash => h hclash.symm) ?_ hr hr' hne
  simp [CreateArgs.claim, Reservation.Clash, Scenario.booking, Scenario.later]

/-- The requests start in different hours, so they take different locks, and both of them commit. -/
theorem exists_double_booking :
    ∃ requests tr c, RunOf BookingApi.settings requests tr c ∧ ¬ c.shared.db.NoDoubleBooking := by
  have hreplay : ((Scenario.run [.createBooking Scenario.booking, .createBooking (Scenario.later 1)]
      (Scenario.times 14 3 ++ Scenario.times 14 4 ++ [.run 3, .run 4])).map fun c => decide
        (∃ b ∈ c.shared.db.bookings.rows, ∃ b' ∈ c.shared.db.bookings.rows, b ≠ b' ∧
          b.status = .confirmed ∧ b'.status = .confirmed ∧
          1 ∈ (c.shared.db.seatsOf b.id).map BookingSeat.seatId ∧
          1 ∈ (c.shared.db.seatsOf b'.id).map BookingSeat.seatId ∧
          b.startTime < b'.endTime ∧ b'.startTime < b.endTime)) = some true := by decide +kernel
  obtain ⟨tr, c, hrun, b, hb, b', hb', hne, hs, hs', hseat, hseat', hlt⟩ :=
    Scenario.exists_run _ hreplay
  exact ⟨_, tr, c, hrun, fun h => h b hb b' hb' hne hs hs' ⟨⟨1, hseat, hseat'⟩, hlt⟩⟩

end BookingApi.Concurrent
