import BookingApi.Exceptions
import BookingApi.Json.RoundTrip
import BookingApi.World.Event

/-!
# The messages of the topic

`send_booking_event` and the serializer of the producer in `app/kafka.py`, and the deserializer of
the consumer in `app/worker.py`.  The serializer's `default=str` is for values that are not JSON; an
event has none.

`deserialize_serialize`: what the producer writes is read back.
-/

namespace BookingApi

namespace BookingEvent

def eventType : BookingEvent → String
  | bookingCreated .. => "booking_created"
  | bookingCancelled .. => "booking_cancelled"

def data : BookingEvent → List (Text × Json)
  | bookingCreated bookingId userId userEmail hallName startTime endTime totalPrice =>
    [(.ofString "booking_id", .int bookingId), (.ofString "user_id", .int userId),
      (.ofString "user_email", .string userEmail), (.ofString "hall_name", .string hallName),
      (.ofString "start_time", .string startTime), (.ofString "end_time", .string endTime),
      (.ofString "total_price", .string totalPrice)]
  | bookingCancelled bookingId userId userEmail hallName =>
    [(.ofString "booking_id", .int bookingId), (.ofString "user_id", .int userId),
      (.ofString "user_email", .string userEmail), (.ofString "hall_name", .string hallName)]

/-- The members of `{"type": event_type, **data}`. -/
def members (event : BookingEvent) : List (Text × Json) :=
  (.ofString "type", .string event.eventType) :: event.data

end BookingEvent

namespace Kafka

/-- `json.dumps(v, default=str).encode("utf-8")`. -/
def serialize (v : Json) : ByteArray := (Json.dumps v).toUTF8

/-- `json.loads(m.decode("utf-8"))`. -/
def deserialize (m : ByteArray) : Except Exc Json :=
  match String.fromUTF8? m with
  | none => .error .unicodeDecodeError
  | some s =>
    match Json.loads s with
    | none => .error .jsonDecodeError
    | some v => .ok v

theorem fromUTF8?_toUTF8 (s : String) : String.fromUTF8? s.toUTF8 = some s := by
  rw [String.toUTF8_eq_toByteArray, String.fromUTF8?, dif_pos s.isValidUTF8]
  rfl

theorem deserialize_serialize {v : Json} (h : v.Plain) : deserialize (serialize v) = .ok v := by
  rw [deserialize, serialize, fromUTF8?_toUTF8]
  simp only [Json.loads_dumps h]

theorem plain_members (event : BookingEvent) : (Json.obj event.members).Plain := by
  have hkeys : (["type", "booking_id", "user_id", "user_email", "hall_name", "start_time",
      "end_time", "total_price"].map Text.ofString).Nodup := by decide
  have hsub : List.Sublist (event.members.map Prod.fst) (["type", "booking_id", "user_id",
      "user_email", "hall_name", "start_time", "end_time", "total_price"].map Text.ofString) := by
    cases event with
    | bookingCreated => exact List.Sublist.refl _
    | bookingCancelled => exact List.sublist_append_left _ _
  have hmember : ∀ m ∈ event.members, (∃ key, m.1 = .ofString key) ∧ m.2.Plain := by
    cases event <;>
      simp [BookingEvent.members, BookingEvent.data, Json.string, Json.Plain.int, Json.Plain.str,
        Text.scalar_ofString]
  refine .obj (hkeys.sublist hsub) (fun m hm => ?_) fun m hm => (hmember m hm).2
  obtain ⟨key, hkey⟩ := (hmember m hm).1
  rw [hkey]
  exact Text.scalar_ofString key

/-- **An event is read back** as it was sent. -/
theorem deserialize_event (event : BookingEvent) :
    deserialize (serialize (.obj event.members)) = .ok (.obj event.members) :=
  deserialize_serialize (plain_members event)

end Kafka

end BookingApi
