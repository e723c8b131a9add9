import BookingApi.Api.Ownership
import BookingApi.Concurrent.Accepted

/-!
# Every booking has been checked

A committed booking, whatever else the API was asked for, is the one that a request of its user has
asked for, with exactly its seats, and the request has made all checks of `create_booking` in some
states of the run (`accepted_of_run`).
-/

namespace BookingApi.Api

open Async BookingService

variable {security : Security} {settings : Settings} {now : RequestId → Instant}
  {tasks : RequestId → Option Task} {c : Config RequestId World (App Response)}
  {tr : List (Transition (Config RequestId World (App Response))
    (Action RequestId World.Fault World.Env))} {b : Booking}

/-- In some state of the run. -/
def Seen (tr : List (Transition (Config RequestId World (App Response))
    (Action RequestId World.Fault World.Env))) (c : Config RequestId World (App Response))
    (P : Db → Prop) : Prop :=
  P c.shared.db ∨ ∃ t ∈ tr, P t.before.shared.db

theorem seen_of_once {tr' : Concurrent.Trace} {d : Concurrent.Config} (hskips : Skips tr tr')
    (hshared : d.shared = c.shared) {P : Db → Prop} (h : Concurrent.Once tr' d P) :
    Seen tr c P := by
  rcases h with h | ⟨t', ht', h⟩
  · rw [hshared] at h
    exact .inl h
  · obtain ⟨t, ht, heq, -⟩ := hskips.exists_origin ht'
    rw [heq] at h
    exact .inr ⟨t, ht, h⟩

/-- The booking is the one that the data asks for. -/
structure AsAsked (db : Db) (b : Booking) (data : BookingCreate) : Prop where
  hallId : b.hallId = data.hallId
  startTime : b.startTime = data.startTime.instant
  endTime : b.endTime = data.endTime.instant
  seats : (db.seatsOf b.id).map BookingSeat.seatId = data.seatIds

/-- **Every committed booking has been checked**: a request with a token of its user has asked for
it, the time slot is valid and the seats are different, and in some states of the run the hall was
active, the seats were active seats of it, and no confirmed booking had one of them at the time. -/
theorem accepted_of_run (hrun : Run Interleaving.Step (start security settings now tasks) tr c)
    (hb : b ∈ c.shared.db.bookings.rows) :
    ∃ r authorization data token,
      tasks r = some (.serve ⟨authorization, .createBooking data token⟩) ∧
      authenticatedId security (now r) authorization = .ok b.userId ∧
      AsAsked c.shared.db b data ∧
      (validateTimeSlot settings data.startTime data.endTime = .ok () ∧ data.seatIds.Nodup) ∧
      (Seen tr c fun db => db.HallActive b.hallId) ∧
      Seen tr c (Concurrent.ActiveSeats b.hallId data.seatIds) ∧
      Seen tr c (Concurrent.Free b.hallId data.seatIds b.startTime b.endTime) := by
  obtain ⟨requests, tr', d, hserves, hrun', hskips, hshared, -⟩ := follows_of_run hrun
  rw [← hshared] at hb ⊢
  obtain ⟨r, args, hrequest, hchecked, hfits, -, hseats⟩ := Concurrent.RunOf.accepted hrun' b hb
  obtain ⟨authorization, data, token, htask, hauth, hargs⟩ := (hserves r).create_inv hrequest
  have hhall := seen_of_once hskips hshared hchecked.hall
  have hactive := seen_of_once hskips hshared hchecked.seats
  have hfree := seen_of_once hskips hshared hchecked.free
  have hslot := hchecked.slot
  have hnodup := hchecked.nodup
  rw [← hfits.hallId] at hhall hactive hfree
  rw [← hfits.startTime, ← hfits.endTime] at hfree
  obtain ⟨huser, hhallId, hstart, hend⟩ := hfits
  rw [hargs] at hseats hactive hfree hslot hnodup hhallId hstart hend
  exact ⟨r, authorization, data, token, htask, huser ▸ hauth, ⟨hhallId, hstart, hend, hseats⟩,
    ⟨hslot, hnodup⟩, hhall, hactive, hfree⟩

open Scenario in
/-- The booking of the scenario has been checked. -/
theorem accepted_bookings : ∃ tr c, Run Interleaving.Step bookingStart tr c ∧
    ∃ b ∈ c.shared.db.bookings.rows, ∃ r authorization data token,
      bookingTasks r = some (.serve ⟨authorization, .createBooking data token⟩) ∧
      authenticatedId .transparent 0 authorization = .ok b.userId ∧
      AsAsked c.shared.db b data ∧
      (validateTimeSlot BookingApi.settings data.startTime data.endTime = .ok () ∧
        data.seatIds.Nodup) ∧
      (Seen tr c fun db => db.HallActive b.hallId) ∧
      Seen tr c (Concurrent.ActiveSeats b.hallId data.seatIds) ∧
      Seen tr c (Concurrent.Free b.hallId data.seatIds b.startTime b.endTime) := by
  obtain ⟨tr, c, hrun, b, hb, -⟩ := exists_run_bookings
    (fun c => ∃ b ∈ c.shared.db.bookings.rows, b.id = 1) (by decide +kernel)
  exact ⟨tr, c, hrun, b, hb, accepted_of_run hrun hb⟩

end BookingApi.Api
