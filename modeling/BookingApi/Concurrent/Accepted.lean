import BookingApi.Concurrent.AllOrNothing
import BookingApi.Concurrent.Payload

/-!
# What is checked before a booking

`create_booking` checks its hall, its time slot, its seats and the other bookings one after the
other, and other requests act in between.  `RunOf.accepted`: every committed booking is the one that
a request has asked for and checked, each check at some moment of the run.
-/

namespace BookingApi.Concurrent

open Async BookingService World

variable {settings : Settings} {requests : RequestId → Request} {tr : Trace} {c c' : Config}
  {args : CreateArgs}

/-- The seats are active seats of the hall. -/
def ActiveSeats (hallId : ℤ) (seatIds : List ℤ) (db : Db) : Prop :=
  ∀ seatId ∈ seatIds, ∃ s ∈ db.seats.rows,
    s.id = seatId ∧ s.hallId = hallId ∧ s.isActive = true

/-- No confirmed booking of the hall has one of the seats at the time. -/
def Free (hallId : ℤ) (seatIds : List ℤ) (startTime endTime : Instant) (db : Db) : Prop :=
  ∀ b ∈ db.bookings.rows, b.hallId = hallId → b.status = .confirmed →
    ∀ bs ∈ db.seatsOf b.id, bs.seatId ∈ seatIds →
      ¬ (b.startTime < endTime ∧ startTime < b.endTime)

/-- What a request has checked of its seats. -/
structure SeatsChecked (settings : Settings) (tr : Trace) (c : Config) (args : CreateArgs) :
    Prop where
  hall : Once tr c fun db => db.HallActive args.hallId
  slot : validateTimeSlot settings args.startTime args.endTime = .ok ()
  nodup : args.seatIds.Nodup
  seats : Once tr c (ActiveSeats args.hallId args.seatIds)

/-- All checks of a request. -/
structure Checked (settings : Settings) (tr : Trace) (c : Config) (args : CreateArgs) : Prop
    extends SeatsChecked settings tr c args where
  free : Once tr c (Free args.hallId args.seatIds args.startTime.instant args.endTime.instant)

/-- What a request has checked at each of its control points. -/
def Validated (settings : Settings) (tr : Trace) (c : Config) (args : CreateArgs) : CreatePc → Prop
  | .load | .selectHall _ | .release (.error _) | .rollback _ | .done (.error _) => True
  | .selectUser _ _ => Once tr c fun db => db.HallActive args.hallId
  | .selectSeats _ _ => (Once tr c fun db => db.HallActive args.hallId) ∧
    validateTimeSlot settings args.startTime args.endTime = .ok ()
  | .checkConflicts _ _ | .acquire _ _ | .recheck _ _ => SeatsChecked settings tr c args
  | _ => Checked settings tr c args

theorem SeatsChecked.cons (h : SeatsChecked settings tr c args) (a : Action) (c' : Config) :
    SeatsChecked settings (⟨c, a, c'⟩ :: tr) c' args :=
  ⟨h.hall.cons a c', h.slot, h.nodup, h.seats.cons a c'⟩

theorem Checked.cons (h : Checked settings tr c args) (a : Action) (c' : Config) :
    Checked settings (⟨c, a, c'⟩ :: tr) c' args :=
  ⟨h.toSeatsChecked.cons a c', h.free.cons a c'⟩

theorem Validated.cons {pc : CreatePc} (h : Validated settings tr c args pc) (a : Action)
    (c' : Config) : Validated settings (⟨c, a, c'⟩ :: tr) c' args pc := by
  cases pc with
  | selectUser session hall =>
    have hhall : Once tr c fun db => db.HallActive args.hallId := h
    exact hhall.cons a c'
  | selectSeats hall user => exact ⟨h.1.cons a c', h.2⟩
  | release outcome => cases outcome <;> first | trivial | exact Checked.cons h a c'
  | done outcome => cases outcome <;> first | trivial | exact Checked.cons h a c'
  | _ => first | trivial | exact SeatsChecked.cons h a c' | exact Checked.cons h a c'

/-- The second check for conflicts finds the seats free. -/
theorem free_of_recheck {w : World} {r : RequestId} (hidle : Idle w r) (hplaced : Placed w args)
    (h : selectConflictingSeats args.hallId args.seatIds args.startTime.instant
      args.endTime.instant none (w.view r) = []) :
    Free args.hallId args.seatIds args.startTime.instant args.endTime.instant w.db := by
  intro b hb hhall hconfirmed bs hbs hseat
  rw [view_of_idle hidle, selectConflictingSeats_eq_nil_iff] at h
  obtain ⟨s, hs, hid, -⟩ := hplaced bs.seatId hseat
  obtain ⟨hmem, hbooking⟩ := List.mem_filter.mp hbs
  have hbid : b.id = bs.bookingId := (of_decide_eq_true hbooking).symm
  exact h s hs (hid ▸ hseat) bs hmem hid.symm b hb hbid hhall hconfirmed

theorem validated_step {i : RequestId} {f : Option Fault} {pc pc' : CreatePc} {a : Action}
    (hinv : CreateInv c.shared i args pc) (h : Validated settings tr c args pc)
    (hs : CreateStep settings args i f c.shared pc c'.shared pc') :
    Validated settings (⟨c, a, c'⟩ :: tr) c' args pc' := by
  have hkept := h.cons a c'
  generalize hw : c.shared = w at hs
  generalize c'.shared = w' at hs
  subst hw
  cases hs with
  | selectHall hhall =>
    rw [view_of_idle hinv] at hhall
    have hactive : Once tr c fun db => db.HallActive args.hallId :=
      .inl ⟨_, selectActiveHall_eq_some hhall⟩
    exact hactive.cons a c'
  | selectUser _ hslot => exact ⟨hkept, hslot⟩
  | selectSeats hlen =>
    rw [view_of_idle hinv, length_selectActiveSeats_eq_iff] at hlen
    exact ⟨hkept.1, hkept.2, hlen.1, Once.cons (.inl hlen.2) a c'⟩
  | recheck hfree =>
    exact ⟨hkept, Once.cons (.inl (free_of_recheck hinv.1 hinv.2 hfree)) a c'⟩
  | @release _ outcome => cases outcome <;> exact hkept
  | _ => first | exact hkept | trivial

/-- The checks of the request of a control point. -/
def Checks (settings : Settings) (tr : Trace) (c : Config) : Pc → Prop
  | .create args pc => Validated settings tr c args pc
  | _ => True

theorem RunOf.checks (h : RunOf settings requests tr c) :
    ∀ r, Checks settings tr c (c.threads r) := by
  refine Run.trace_invariant (I := fun tr c => ∀ r, Checks settings tr c (c.threads r))
    (A := fun _ _ => True) ?_ ?_ h fun _ _ => trivial
  · intro r
    show Checks settings [] (start requests) (requests r).start
    cases requests r <;> trivial
  intro tr c a c' hrun ih _ hstep
  have hi := RunOf.inv hrun
  refine forall_threads hstep ?_ ?_ (fun _ _ _ => trivial) (fun _ _ _ => trivial)
  · intro r _ _
    have hr := ih r
    cases hpc : c.threads r with
    | create args pc =>
      rw [hpc] at hr
      exact Validated.cons hr a c'
    | _ => trivial
  · intro i f args pc pc' _ hpc hs
    have hchecks := ih i
    rw [hpc] at hchecks
    exact validated_step (hi.create hpc) hchecks hs

theorem RunOf.validated (h : RunOf settings requests tr c) {r : RequestId} {pc : CreatePc}
    (hpc : c.threads r = .create args pc) : Validated settings tr c args pc := by
  have hchecks := RunOf.checks h r
  rwa [hpc] at hchecks

/-- A booking ends after it starts, also while it is not committed. -/
theorem RunOf.start_lt_end (h : RunOf settings requests tr c) :
    ∀ b, Row c.shared b → b.startTime < b.endTime := by
  refine Run.trace_invariant (I := fun _ c => ∀ b, Row c.shared b → b.startTime < b.endTime)
    (A := fun _ _ => True) ?_ ?_ h fun _ _ => trivial
  · rintro b (hb | ⟨r, hb⟩)
    · exact absurd hb List.not_mem_nil
    · exact absurd hb List.not_mem_nil
  · intro tr c a c' hrun ih _ hstep b hb
    rcases row_of_step (RunOf.inv hrun) hstep hb with ⟨b₀, hb₀, hterms⟩ |
      ⟨r, args, hall, user, price, -, hpc, hins⟩
    · simp only [Booking.terms, Prod.mk.injEq] at hterms
      rw [hterms.2.2.2.1, hterms.2.2.2.2.1]
      exact ih b₀ hb₀
    · have hchecked : Checked settings tr c args := RunOf.validated hrun hpc
      rw [hins.books.1.startTime, hins.books.1.endTime]
      exact (validateTimeSlot_eq_ok_iff.mp hchecked.slot).2.1

/-! ### Committed bookings -/

/-- The booking is the one that was asked for. -/
structure Fits (args : CreateArgs) (b : Booking) : Prop where
  userId : b.userId = args.userId
  hallId : b.hallId = args.hallId
  startTime : b.startTime = args.startTime.instant
  endTime : b.endTime = args.endTime.instant

theorem Fits.congr {b b' : Booking} (h : Fits args b) (hterms : b'.terms = b.terms) :
    Fits args b' := by
  simp only [Booking.terms, Prod.mk.injEq] at hterms
  obtain ⟨-, hu, hh, hstart, hend, -⟩ := hterms
  exact ⟨hu.trans h.userId, hh.trans h.hallId, hstart.trans h.startTime, hend.trans h.endTime⟩

/-- **A new committed booking** is the one that a request commits. -/
theorem booking_of_step (hi : Inv c) {a : Action} (h : step settings c a = some c') {b : Booking}
    (hb : b ∈ c'.shared.db.bookings.rows) :
    (∃ b₀ ∈ c.shared.db.bookings.rows, b.terms = b₀.terms) ∨
      ∃ r args answer, c.threads r = .create args (.commit answer) ∧ Fits args b ∧
        HasSeats c'.shared b.id args.seatIds := by
  cases dbStep_of_step h with
  | keep hdb => exact .inl ⟨b, hdb ▸ hb, rfl⟩
  | @create i args answer hpc ht hw =>
    -- the commit adds the booking that the request has filled
    have hfilled : Filled c.shared i args answer.id := (hi.create hpc).1
    obtain ⟨b', k, hid, hdraft, hws⟩ := id hfilled
    rw [← hid] at hws
    rw [hw, (commit_filled hi.sound hws).1, List.mem_append, List.mem_singleton] at hb
    rcases hb with hb | rfl
    · exact .inl ⟨b, hb, rfl⟩
    · refine .inr ⟨i, args, answer, hpc, ?_, ?_⟩
      · exact ⟨hdraft.userId, hdraft.hallId, hdraft.startTime, hdraft.endTime⟩
      · rw [hw, hid]
        exact hasSeats_commit hi.sound hfilled
  | cancel hpc ht hw =>
    -- a cancellation only changes the status
    rw [hw] at hb
    obtain ⟨b₀, hb₀ | hb₀, hterms, -⟩ := mem_bookings_commit hb
    · exact .inl ⟨b₀, hb₀, hterms⟩
    · simp [(hi.cancel hpc).1] at hb₀
  | other hpc hw =>
    rw [hw] at hb
    obtain ⟨b₀, hb₀ | hb₀, hterms, -⟩ := mem_bookings_commit hb
    · exact .inl ⟨b₀, hb₀, hterms⟩
    · exact absurd rfl ((hi.other hpc).1 _ hb₀).1

/-- The booking and its seats are those of a request that has made all checks. -/
def Accepted (settings : Settings) (requests : RequestId → Request) (tr : Trace) (c : Config)
    (b : Booking) : Prop :=
  ∃ r args, requests r = .createBooking args ∧ Checked settings tr c args ∧ Fits args b ∧
    HasSeats c.shared b.id args.seatIds

/-- **Committed bookings have been checked.** -/
theorem RunOf.accepted (h : RunOf settings requests tr c) :
    ∀ b ∈ c.shared.db.bookings.rows, Accepted settings requests tr c b := by
  refine Run.trace_invariant
    (I := fun tr c => ∀ b ∈ c.shared.db.bookings.rows, Accepted settings requests tr c b)
    (A := fun _ _ => True) ?_ ?_ h fun _ _ => trivial
  · exact fun b hb => absurd hb List.not_mem_nil
  · intro tr c a c' hrun ih _ hstep b hb
    have hi := RunOf.inv hrun
    rcases booking_of_step hi hstep hb with
      ⟨b₀, hb₀, hterms⟩ | ⟨r, args, answer, hpc, hfits, hseats⟩
    · obtain ⟨r, args, hrequest, hchecked, hfits, hseats⟩ := ih b₀ hb₀
      refine ⟨r, args, hrequest, hchecked.cons a c', hfits.congr hterms, ?_⟩
      rw [Booking.id_eq_of_terms hterms]
      exact hseats.step hi hstep
    · have hchecked : Checked settings tr c args := RunOf.validated hrun hpc
      exact ⟨r, args, (RunOf.create_iff hrun).mpr ⟨_, hpc⟩, hchecked.cons a c', hfits, hseats⟩

end BookingApi.Concurrent
