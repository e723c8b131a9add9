import BookingApi.Concurrent.Notification
import BookingApi.Concurrent.Payload
import BookingApi.Worker.Basic

/-!
# Producer and worker

The events of concurrent requests, from the serializer of the producer through the deserializer of
the consumer to `process_event`: `deliver_of_mem_topic` says which mail becomes of each.
-/

namespace BookingApi.Worker

open Async BookingService Concurrent NotificationService World

variable {settings : Settings} {requests : RequestId → Request} {tr : Trace} {c : Config}
variable {repr : Json → Text} {sent : Email → Bool}

/-- What the worker does with an event of the producer: the result of `process_event`, and its calls
of `send_email`. -/
def deliver (repr : Json → Text) (sent : Email → Bool) (event : BookingEvent) :
    Except Exc Unit × List Email :=
  match Kafka.deserialize (Kafka.serialize (.obj event.members)) with
  | .error e => (.error e, [])
  | .ok value => process repr sent value

theorem deliver_eq (event : BookingEvent) :
    deliver repr sent event = process repr sent (.obj event.members) := by
  simp only [deliver, Kafka.deserialize_event]

/-- The mail of a new booking. -/
theorem deliver_of_announces (repr : Json → Text) (sent : Email → Bool) {args : CreateArgs}
    {event : BookingEvent}
    (hemail : ∀ user, Once tr c (fun db => user ∈ db.users.rows) → user.email ≠ "")
    (h : Announces tr c args event) :
    ∃ hall user price, Priced tr c args hall user price ∧
      RowBooks c.shared event.bookingId args price ∧
      deliver repr sent event = (.ok (), [confirmation event.bookingId user.email hall.name
        (Decimal.hundredthsText price.toHundredths) args.startTime args.endTime]) := by
  obtain ⟨hall, user, price, id, hpriced, hrow, rfl⟩ := h
  refine ⟨hall, user, price, hpriced, hrow, ?_⟩
  rw [deliver_eq]
  exact process_bookingCreated _ _ (hemail user hpriced.wasUser.2) _ _ _ _

/-- The mail of a cancellation. -/
theorem deliver_of_reports (repr : Json → Text) (sent : Email → Bool) {args : CancelArgs}
    {event : BookingEvent}
    (hemail : ∀ user, Once tr c (fun db => user ∈ db.users.rows) → user.email ≠ "")
    (h : Reports tr c args event) :
    ∃ b hall user, b ∈ c.shared.db.bookings.rows ∧ b.id = args.bookingId ∧
      b.userId = args.userId ∧ WasHall tr c b.hallId hall ∧ WasUser tr c args.userId user ∧
      event.bookingId = args.bookingId ∧
      deliver repr sent event = (.ok (), [cancellation b.id user.email hall.name]) := by
  obtain ⟨_, _, ⟨⟨user, huser, rfl⟩, b, hb, hid, hu, hall, hhall, rfl⟩, rfl⟩ := h
  refine ⟨b, hall, user, hb, hid, hu, hhall, huser, rfl, ?_⟩
  rw [deliver_eq, hid]
  exact process_bookingCancelled _ _ (hemail user huser.2) _

/-- **Producer and worker agree**, whatever the requests do and wherever they fail, as long as the
users have addresses.  Every booking that is stored has an event, and so has every one that is
cancelled.  An event is delivered without an exception and with one mail to the user:

* the event of a new booking is confirmed, with the name of the hall, the date and the times that
  were asked for, and the price, which is the one that the booking is stored with;
* the event of a cancellation is reported, with the name of the hall and the id of the booking. -/
theorem deliver_of_mem_topic (h : RunOf settings requests tr c)
    (hemail : ∀ user, Once tr c (fun db => user ∈ db.users.rows) → user.email ≠ "")
    (repr : Json → Text) (sent : Email → Bool) :
    (∀ b ∈ c.shared.db.bookings.rows,
      (∃ m ∈ c.shared.topic, m.event.isCreated ∧ m.event.bookingId = b.id) ∧
      (b.status = .cancelled →
        ∃ m ∈ c.shared.topic, m.event.isCreated = false ∧ m.event.bookingId = b.id)) ∧
    (∀ m ∈ c.shared.topic, m.event.isCreated → ∃ args hall user price,
      requests m.sender = .createBooking args ∧ Priced tr c args hall user price ∧
        (∀ b ∈ c.shared.db.bookings.rows, b.id = m.event.bookingId → Books args price b) ∧
        deliver repr sent m.event = (.ok (), [confirmation m.event.bookingId user.email hall.name
          (Decimal.hundredthsText price.toHundredths) args.startTime args.endTime])) ∧
    ∀ m ∈ c.shared.topic, m.event.isCreated = false → ∃ args b hall user,
      requests m.sender = .cancelBooking args ∧ b ∈ c.shared.db.bookings.rows ∧
        b.id = args.bookingId ∧ b.userId = args.userId ∧ WasHall tr c b.hallId hall ∧
        WasUser tr c args.userId user ∧ m.event.bookingId = args.bookingId ∧
        deliver repr sent m.event = (.ok (), [cancellation b.id user.email hall.name]) := by
  have hw := (RunOf.inv h).sound
  refine ⟨fun b hb => ⟨?_, hw.reported b hb⟩, fun m hm hcreated => ?_, fun m hm hcancelled => ?_⟩
  · have hone := hw.announced b hb
    obtain ⟨m, hm⟩ := List.exists_mem_of_length_pos (hone ▸ Nat.one_pos)
    obtain ⟨hmem, hprop⟩ := List.mem_filter.mp hm
    exact ⟨m, hmem, of_decide_eq_true hprop⟩
  · obtain ⟨-, args, hargs, hannounces⟩ | ⟨hcancelled, -⟩ := RunOf.announces_or_reports h hm
    · obtain ⟨hall, user, price, hpriced, hrow, hdeliver⟩ :=
        deliver_of_announces repr sent hemail hannounces
      exact ⟨args, hall, user, price, hargs, hpriced, fun b hb => hrow b (.inl hb), hdeliver⟩
    · rw [hcancelled] at hcreated
      cases hcreated
  · obtain ⟨hcreated, -⟩ | ⟨-, args, hargs, hreports⟩ := RunOf.announces_or_reports h hm
    · rw [hcreated] at hcancelled
      cases hcancelled
    · obtain ⟨b, hall, user, hb, hid, hu, hhall, huser, hevent, hdeliver⟩ :=
        deliver_of_reports repr sent hemail hreports
      exact ⟨args, b, hall, user, hargs, hb, hid, hu, hhall, huser, hevent, hdeliver⟩

/-- The schedule has users with addresses only. -/
theorem deliver_madeAndCancelled :
    ∃ tr c, RunOf BookingApi.settings (Concurrent.Scenario.requests
        Concurrent.Scenario.madeAndCancelled) tr c ∧ c.shared.topic.length = 2 ∧
      ∀ m ∈ c.shared.topic,
        (deliver (fun _ => []) (fun _ => true) m.event).1 = .ok () ∧
          (deliver (fun _ => []) (fun _ => true) m.event).2.length = 1 := by
  have hreplay : ((Concurrent.Scenario.runChecked
      (fun c _ => c.shared.db.users.rows.all fun user => user.email ≠ "")
      Concurrent.Scenario.madeAndCancelled
      (Concurrent.Scenario.times 15 3 ++ Concurrent.Scenario.times 6 4)).map fun c => decide
        (c.shared.topic.length = 2 ∧ ∀ user ∈ c.shared.db.users.rows, user.email ≠ ""))
        = some true := by decide +kernel
  obtain ⟨tr, c, hrun, hok, hlen, hemail⟩ := Concurrent.Scenario.exists_run_checked _ hreplay
  have hemails (user : User) (h : Once tr c fun db => user ∈ db.users.rows) : user.email ≠ "" := by
    rcases h with h | ⟨t, ht, h⟩
    · exact hemail user h
    · exact of_decide_eq_true (List.all_eq_true.mp (hok t ht) user h)
  obtain ⟨-, hcreated, hcancelled⟩ :=
    deliver_of_mem_topic hrun hemails (fun _ => []) fun _ => true
  refine ⟨tr, c, hrun, hlen, fun m hm => ?_⟩
  cases hkind : m.event.isCreated with
  | true =>
    obtain ⟨args, hall, user, price, -, -, -, hdeliver⟩ := hcreated m hm hkind
    rw [hdeliver]
    exact ⟨rfl, rfl⟩
  | false =>
    obtain ⟨args, b, hall, user, -, -, -, -, -, -, -, hdeliver⟩ := hcancelled m hm hkind
    rw [hdeliver]
    exact ⟨rfl, rfl⟩

/-- The mail of a cancellation does not say of which day the booking was. -/
theorem exists_cancellation_without_date :
    ∃ tr c, RunOf BookingApi.settings (Concurrent.Scenario.requests
        Concurrent.Scenario.madeAndCancelled) tr c ∧
      ∃ m ∈ c.shared.topic, m.event.isCreated = false ∧
        m.event.bookingId = 1 ∧ (∃ b ∈ c.shared.db.bookings.rows, b.id = 1 ∧
          b.startTime = Concurrent.Scenario.booking.startTime.instant) ∧
        ∃ mail, deliver (fun _ => []) (fun _ => true) m.event = (.ok (), [mail]) ∧
          ¬ Text.ofString Concurrent.Scenario.booking.startTime.date.isoformat <:+: mail.body := by
  have hreplay : ((Concurrent.Scenario.run Concurrent.Scenario.madeAndCancelled
      (Concurrent.Scenario.times 15 3 ++ Concurrent.Scenario.times 6 4)).map fun c => decide
        (⟨4, .bookingCancelled 1 1 "ann@example.com" "Red"⟩ ∈ c.shared.topic ∧
          ∃ b ∈ c.shared.db.bookings.rows, b.id = 1 ∧
            b.startTime = Concurrent.Scenario.booking.startTime.instant)) = some true := by
    decide +kernel
  obtain ⟨tr, c, hrun, hm, hb⟩ := Concurrent.Scenario.exists_run _ hreplay
  refine ⟨tr, c, hrun, _, hm, rfl, rfl, hb, cancellation 1 "ann@example.com" "Red", ?_, ?_⟩
  · rw [deliver_eq]
    exact process_bookingCancelled 1 1 (by decide) "Red"
  · decide +kernel

end BookingApi.Worker
