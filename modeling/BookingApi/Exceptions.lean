import Mathlib.Data.Int.Notation
import Mathlib.Data.Nat.Notation

/-!
# Exceptions

The HTTP exceptions of `app/exceptions.py` with their detail texts, the Python exceptions that the
services can raise, and the exceptions of the three drivers.
-/

namespace BookingApi

inductive Exc
  | bookingConflictError (detail : String)
  | bookingNotFoundError (detail : String)
  | hallNotFoundError (detail : String)
  | seatNotFoundError (detail : String)
  | seatAlreadyExistsError (detail : String)
  | userNotFoundError (detail : String)
  | invalidTimeSlotError (detail : String)
  | unauthorizedError (detail : String)
  /-- `slowapi.errors.RateLimitExceeded`. -/
  | rateLimitExceeded
  /-- `HTTPException` itself. -/
  | httpException (status : ℕ) (detail : String)
  | typeError
  | valueError (message : String)
  | jsonDecodeError
  /-- `pydantic.ValidationError`. -/
  | validationError
  | keyError
  | attributeError
  | indexError
  | unicodeDecodeError
  /-- `sqlalchemy.exc.IntegrityError`: a NOT NULL, UNIQUE or FOREIGN KEY violation. -/
  | integrityError
  /-- `sqlalchemy.exc.NoResultFound` and `InvalidRequestError`: the row to load is not there. -/
  | noResultFound
  /-- `sqlalchemy.exc.DBAPIError`: the driver or the server refuses a statement, or a value that its
  column cannot hold. -/
  | dbapiError
  /-- The database cannot be reached, or closes the connection. -/
  | operationalError
  | redisError
  | kafkaError
deriving DecidableEq

namespace Exc

/-! The details that the classes have by default. -/

def bookingNotFound : Exc := bookingNotFoundError "Booking not found"
def hallNotFound : Exc := hallNotFoundError "Hall not found"
def seatNotFound : Exc := seatNotFoundError "Seat not found"
def userNotFound : Exc := userNotFoundError "User not found"

/-- The status code that `app/main.py` or FastAPI gives the response to an exception; any other one
becomes a 500 response. -/
def statusCode : Exc → Option ℕ
  | bookingConflictError _ => some 409
  | bookingNotFoundError _ => some 404
  | hallNotFoundError _ => some 404
  | seatNotFoundError _ => some 404
  | seatAlreadyExistsError _ => some 409
  | userNotFoundError _ => some 404
  | invalidTimeSlotError _ => some 400
  | unauthorizedError _ => some 401
  | rateLimitExceeded => some 429
  | httpException status _ => some status
  | _ => none

end Exc

end BookingApi
