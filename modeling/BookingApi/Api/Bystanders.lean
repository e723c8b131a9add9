import BookingApi.Api.Effects
import BookingApi.Concurrent.Bystanders

/-!
# The routes that have nothing to do with bookings

All routes but the two that create and cancel a booking, and the script, write no booking, number
none, send no event and touch no lock (`bystands_handler`, `bystands_createAdmin`).
-/

namespace BookingApi.Api

open Async BookingService HallService SeatService UserService

/-- The program is a bystander of the requests for bookings. -/
abbrev Bystands {α : Type} (p : App α) : Prop := p.Uses Concurrent.BookingFree

/-- What is cached is no token. -/
theorem dumps_ne_token (items : List Json) (token : Token) :
    Json.dumps (.arr items) ≠ token.text := by
  intro h
  have hmem := mem_dumps_arr items
  rw [h] at hmem
  exact absurd (token.hex _ hmem) (by decide)

/-- The route creates or cancels a booking. -/
def Endpoint.Books : Endpoint → Prop
  | .createBooking .. | .cancelBooking _ => True
  | _ => False

/-- **The other routes** are bystanders. -/
theorem bystands_handler (security : Security) (settings : Settings) (now : Instant)
    (request : Request) (h : ¬ request.endpoint.Books) :
    Bystands (request.handler security settings now) := by
  refine uses_handler (fun _ => trivial) ?_
  obtain ⟨auth, endpoint⟩ := request
  cases endpoint with
  | createBooking | cancelBooking => exact absurd trivial h
  | signup =>
    rw [Endpoint.Allows]
    exact Concurrent.writesNoBooking_of_concerns (concerns_insertUser ..) (by decide)
  | updateUser =>
    exact fun _ => Concurrent.writesNoBooking_of_concerns (concerns_updateLoadedUser ..)
      (by decide)
  | createHall =>
    rw [Endpoint.Allows]
    exact Concurrent.writesNoBooking_of_concerns (concerns_insertHall ..) (by decide)
  | updateHall =>
    exact fun _ => Concurrent.writesNoBooking_of_concerns (concerns_updateLoadedHall ..)
      (by decide)
  | deleteHall =>
    exact fun _ => Concurrent.writesNoBooking_of_concerns (concerns_deactivateHall ..) (by decide)
  | createSeat | bulkCreateSeats =>
    exact ⟨trivial, Concurrent.writesNoBooking_of_concerns (concerns_insertSeats ..) (by decide)⟩
  | deleteSeat =>
    exact fun _ => Concurrent.writesNoBooking_of_concerns (concerns_deactivateSeat _) (by decide)
  | getAvailability hallId date =>
    -- the slots are cached at a key that is no lock
    exact ⟨trivial, fun items => ⟨fun hallId' startTime =>
      cacheKey_ne_lockKey hallId hallId' date startTime, dumps_ne_token items⟩⟩
  | _ => trivial

/-- The script is a bystander. -/
theorem bystands_createAdmin (hashPassword : String → String) (email password : String) :
    Bystands (createAdmin hashPassword email password) :=
  uses_createAdmin (fun _ => trivial) trivial trivial
    (fun user => Concurrent.writesNoBooking_of_concerns (concerns_promoteUser user) (by decide))
    (Concurrent.writesNoBooking_of_concerns (concerns_insertUser ..) (by decide))

end BookingApi.Api
