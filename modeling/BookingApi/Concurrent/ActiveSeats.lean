import BookingApi.Concurrent.Bystanders
import BookingApi.Concurrent.Invariant

/-!
# Bookings on active halls and seats

`create_booking` reads its hall and its seats before it takes the lock, and does not look at them
again.  So an administrator can deactivate them before the booking is committed
(`exists_booking_of_inactive`).  `bookedActive_of_deactivationSafe`: this is the only way to a
booking on an inactive hall or seat.
-/

namespace BookingApi.Concurrent

open Async BookingService World

variable {settings : Settings} {requests : RequestId → Request} {tr : Trace} {c c' : Config}

/-- The request has read its hall as active, and may still commit. -/
def ReadHall : CreatePc → Prop
  | .load | .selectHall _ | .release (.error _) | .rollback _ | .done _ => False
  | _ => True

/-- The request has read its seats as active, and may still commit. -/
def ReadSeats : CreatePc → Prop
  | .selectUser _ _ | .selectSeats _ _ => False
  | pc => ReadHall pc

/-- The hall and the seats of a booking are active. -/
def OnActive (db : Db) (b : Booking) : Prop :=
  db.HallActive b.hallId ∧
    ∀ bs ∈ db.bookingSeats.rows, bs.bookingId = b.id → db.SeatActive bs.seatId

/-- When a booking was committed, its hall and its seats were active. -/
def BookedActive (tr : Trace) : Prop :=
  ∀ t ∈ tr, ∀ b ∈ t.after.shared.db.bookings.rows,
    (∀ b' ∈ t.before.shared.db.bookings.rows, b'.id ≠ b.id) → OnActive t.after.shared.db b

/-- No commit deactivates a hall or a seat that a request has read as active and may still book. -/
def DeactivationSafe (settings : Settings) (c : Config) : Action → Prop
  | .run r => ∀ resume, (c.threads r).next settings = .call .commit resume →
    ∀ x ∈ c.shared.writesOf r, ∀ r' args pc, c.threads r' = .create args pc →
      (ReadHall pc → ¬ x.deactivatesHall args.hallId) ∧
        (ReadSeats pc → ∀ seatId ∈ args.seatIds, ¬ x.deactivatesSeat seatId)
  | _ => True

/-- What a request has read as active is still active. -/
def StillActive (db : Db) : Pc → Prop
  | .create args pc => (ReadHall pc → db.HallActive args.hallId) ∧
    (ReadSeats pc → ∀ seatId ∈ args.seatIds, db.SeatActive seatId)
  | _ => True

theorem stillActive_of_step {a : Action} (hsafe : DeactivationSafe settings c a)
    (h : step settings c a = some c') {r : RequestId}
    (hr : StillActive c.shared.db (c.threads r)) : StillActive c'.shared.db (c.threads r) := by
  cases a with
  | run i =>
    obtain ⟨β, op, resume, hn, -, hs, -⟩ := step_run h
    rw [hs]
    cases op with
    | commit =>
      cases hpc : c.threads r with
      | create args pc =>
        rw [hpc] at hr
        have hread {x : Write} (hx : x ∈ c.shared.writesOf i) := hsafe resume hn x hx r args pc hpc
        refine ⟨fun hp => (hr.1 hp).applyAll fun x hx => (hread hx).1 hp, fun hp seatId hid => ?_⟩
        exact (hr.2 hp seatId hid).applyAll fun x hx => (hread hx).2 hp seatId hid
      | _ => trivial
    | flush statement => exact (db_exec_flush statement).symm ▸ hr
    | _ => exact hr
  | fault i f =>
    obtain ⟨β, op, resume, e, -, hs, -⟩ := step_fault h
    rwa [db_fault hs]
  | env e =>
    obtain rfl := step_env h
    cases e <;> exact hr

theorem stillActive_create {r : RequestId} {f : Option Fault} {args : CreateArgs} {w w' : World}
    {pc pc' : CreatePc} (hi : CreateInv w r args pc) (h : StillActive w.db (.create args pc))
    (hs : CreateStep settings args r f w pc w' pc') : StillActive w'.db (.create args pc') := by
  cases hs with
  | selectHall hhall =>
    rw [view_of_idle hi] at hhall
    obtain ⟨hmem, hid, hactive⟩ := selectActiveHall_eq_some hhall
    exact ⟨fun _ => ⟨_, hmem, hid, hactive⟩, False.elim⟩
  | selectSeats hlen =>
    -- the query returned one active row for each requested seat
    rw [view_of_idle hi, length_selectActiveSeats_eq_iff] at hlen
    refine ⟨fun _ => h.1 trivial, fun _ seatId hid => ?_⟩
    obtain ⟨s, hs, hsid, -, hactive⟩ := hlen.2 seatId hid
    exact ⟨s, hs, hsid, hactive⟩
  | @release _ outcome =>
    cases outcome with
    | error e => exact ⟨False.elim, False.elim⟩
    | ok b => exact h
  | _ => first | exact h | exact ⟨False.elim, False.elim⟩

theorem stillActive_step (hi : Inv c) (h : ∀ r, StillActive c.shared.db (c.threads r)) {a : Action}
    (hsafe : DeactivationSafe settings c a) (hstep : step settings c a = some c') :
    ∀ r, StillActive c'.shared.db (c'.threads r) := by
  refine forall_threads hstep ?_ ?_ (fun _ _ _ => trivial) (fun _ _ _ => trivial)
  · exact fun r _ _ => stillActive_of_step hsafe hstep (h r)
  · exact fun {i _ _ _ _} _ hpc hs => stillActive_create (hi.create hpc) (hpc ▸ h i) hs

/-- A transition that adds a booking is the commit of its request. -/
theorem commit_of_newBooking (hi : Inv c) {a : Action} (h : step settings c a = some c')
    {b : Booking} (hb : b ∈ c'.shared.db.bookings.rows)
    (hnew : ∀ b' ∈ c.shared.db.bookings.rows, b'.id ≠ b.id) :
    ∃ r args answer, c.threads r = .create args (.commit answer) ∧
      c'.shared = c.shared.commit r ∧ answer.id = b.id := by
  cases dbStep_of_step h with
  | keep hdb => exact absurd rfl (hnew b (hdb ▸ hb))
  | @create i args answer hpc ht hw =>
    obtain ⟨⟨b₀, k, hid, -, hws⟩, -⟩ := hi.create hpc
    rw [← hid] at hws
    rw [hw, (commit_filled hi.sound hws).1] at hb
    rcases List.mem_append.mp hb with hb | hb
    · exact absurd rfl (hnew b hb)
    · have hb₀ : b = b₀ := List.mem_singleton.mp hb
      exact ⟨i, args, answer, hpc, hw, by rw [hb₀, hid]⟩
  | cancel hpc ht hw =>
    -- a cancellation only changes the status
    rw [hw] at hb
    obtain ⟨b₀, hb₀ | hb₀, hterms, -⟩ := mem_bookings_commit hb
    · exact absurd (Booking.id_eq_of_terms hterms).symm (hnew b₀ hb₀)
    · simp [(hi.cancel hpc).1] at hb₀
  | other hpc hw =>
    rw [hw] at hb
    obtain ⟨b₀, hb₀ | hb₀, hterms, -⟩ := mem_bookings_commit hb
    · exact absurd (Booking.id_eq_of_terms hterms).symm (hnew b₀ hb₀)
    · exact absurd rfl ((hi.other hpc).1 _ hb₀).1

/-- A request that commits its booking books what is active. -/
theorem onActive_commit {w : World} {r : RequestId} {args : CreateArgs} {answer : BookingResponse}
    (hw : w.Sound) (h : Filled w r args answer.id)
    (hactive : StillActive w.db (.create args (.commit answer))) {b : Booking}
    (hb : b ∈ (w.commit r).db.bookings.rows) (hid : answer.id = b.id) :
    OnActive (w.commit r).db b := by
  obtain ⟨b₀, k, hid₀, hd, hws⟩ := h
  rw [← hid₀] at hws hid
  have hrows := (commit_filled hw hws).1
  have hb₀ : b₀ ∈ (w.commit r).db.bookings.rows := by rw [hrows]; simp
  -- ids are unique, so the booking is the one that the request has made
  obtain rfl : b₀ = b := Table.eq_of_key_eq hb₀ hb hid
  -- the commit changes neither halls nor seats
  have htable : ∀ x ∈ w.writesOf r, x.table ≠ .halls ∧ x.table ≠ .seats := by
    intro x hx
    rw [hws] at hx
    rcases List.mem_cons.mp hx with rfl | hx
    · simp [Write.table]
    · obtain ⟨bs, -, rfl⟩ := List.mem_map.mp hx
      simp [Write.table]
  have hhalls : (w.commit r).db.halls = w.db.halls :=
    Db.halls_applyAll _ fun x hx => (htable x hx).1
  have hseats : (w.commit r).db.seats = w.db.seats :=
    Db.seats_applyAll _ fun x hx => (htable x hx).2
  refine ⟨?_, fun bs hbs hbid => ?_⟩
  · rw [Db.HallActive, hhalls, hd.hallId]
    exact hactive.1 trivial
  · have hmem : bs.seatId ∈ ((w.commit r).db.seatsOf b₀.id).map BookingSeat.seatId :=
      List.mem_map_of_mem (List.mem_filter.mpr ⟨hbs, decide_eq_true hbid⟩)
    rw [seatsOf_commit_filled hw hws] at hmem
    rw [Db.SeatActive, hseats]
    exact hactive.2 trivial _ hmem

/-- **Bookings are on active halls and seats** in every run in which no commit deactivates a hall or
a seat that a request has read as active and may still book. -/
theorem bookedActive_of_deactivationSafe (h : RunOf settings requests tr c)
    (hsafe : ∀ t ∈ tr, DeactivationSafe settings t.before t.action) : BookedActive tr := by
  intro t ht b hb hnew
  obtain ⟨hstep, hi, -⟩ := RunOf.of_mem h ht
  have hstart (r : RequestId) :
      StillActive (start requests).shared.db ((start requests).threads r) := by
    show StillActive initial.db (requests r).start
    cases requests r with
    | createBooking args => exact ⟨False.elim, False.elim⟩
    | _ => trivial
  have hactive := (h.invariant_of_mem
    (I := fun c => Inv c ∧ ∀ r, StillActive c.shared.db (c.threads r))
    ⟨inv_start requests, hstart⟩
    (fun hI hsafe hstep => ⟨inv_step hI.1 hstep, stillActive_step hI.1 hI.2 hsafe hstep⟩)
    hsafe ht).2
  obtain ⟨r, args, answer, hpc, hcommit, hid⟩ := commit_of_newBooking hi hstep hb hnew
  rw [hcommit] at hb ⊢
  exact onActive_commit hi.sound (hi.create hpc).1 (hpc ▸ hactive r) hb hid

/-- The request has not updated a hall or a seat. -/
def noUpdates (c : Config) : Action → Bool
  | .run r => (c.shared.writesOf r).all fun
    | .updateHall _ _ | .updateSeat _ _ => false
    | _ => true
  | _ => true

theorem deactivationSafe_of_noUpdates {a : Action} (h : noUpdates c a) :
    DeactivationSafe settings c a := by
  cases a with
  | run r =>
    intro resume _ x hx r' args pc _
    have hok := List.all_eq_true.mp h x hx
    cases x with
    | updateHall id p => cases hok
    | updateSeat id isActive => cases hok
    | _ => exact ⟨fun _ => Bool.false_ne_true, fun _ _ _ => Bool.false_ne_true⟩
  | _ => trivial

theorem bookedActive_booking :
    ∃ requests tr c, RunOf BookingApi.settings requests tr c ∧
      c.shared.db.bookings.rows.length = 1 ∧ BookedActive tr := by
  have hreplay : ((Scenario.runChecked noUpdates [.createBooking Scenario.booking]
      (Scenario.times 15 3)).map fun c => decide (c.shared.db.bookings.rows.length = 1))
        = some true := by decide +kernel
  obtain ⟨tr, c, hrun, hok, hlen⟩ := Scenario.exists_run_checked _ hreplay
  exact ⟨_, tr, c, hrun, hlen, bookedActive_of_deactivationSafe hrun fun t ht =>
    deactivationSafe_of_noUpdates (hok t ht)⟩

/-- The hall is deleted while a request books it. -/
theorem exists_booking_of_inactive :
    ∃ requests tr c, RunOf BookingApi.settings requests tr c ∧ ¬ BookedActive tr := by
  have hreplay : ((Scenario.run [.createBooking Scenario.booking,
      .other (.ofHandler _ (bookingFree_deleteHall 1))]
      (Scenario.times 14 3 ++ Scenario.times 3 4)).map fun c => decide
        (c.shared.db.bookings.rows = [] ∧
          ((step BookingApi.settings c (.run 3)).map fun c' => decide
            (c'.shared.db.bookings.rows ≠ [] ∧
              ∀ hall ∈ c'.shared.db.halls.rows, hall.isActive = false)) = some true))
        = some true := by decide +kernel
  obtain ⟨tr, c, hrun, hnone, hstep⟩ := Scenario.exists_run _ hreplay
  obtain ⟨c', hstep, hdb⟩ := Option.map_eq_some_iff.mp hstep
  obtain ⟨hsome, hinactive⟩ := of_decide_eq_true hdb
  refine ⟨_, _, c', hrun.tail hstep, fun h => ?_⟩
  obtain ⟨b, hb⟩ := List.exists_mem_of_ne_nil _ hsome
  obtain ⟨⟨hall, hmem, -, hactive⟩, -⟩ := h _ (List.mem_cons_self ..) b hb (by rw [hnone]; simp)
  rw [hinactive hall hmem] at hactive
  cases hactive

end BookingApi.Concurrent
