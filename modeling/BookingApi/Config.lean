import Mathlib.Data.Int.Notation
import Mathlib.Data.Nat.Notation

/-!
# Settings

The limits and timeouts of `app/config.py` that the services read.  Every field can be overridden
from the process environment, so results are stated for arbitrary settings where they hold for
them; `settings` has the defaults.
-/

namespace BookingApi

structure Settings where
  /-- `REDIS_LOCK_TIMEOUT`, in seconds. -/
  redisLockTimeout : ℕ
  minBookingHours : ℤ
  maxBookingHours : ℤ
  sessionStartHour : ℤ
  sessionEndHour : ℤ
  /-- `ACCESS_TOKEN_EXPIRE_MINUTES`. -/
  accessTokenExpireMinutes : ℤ
deriving DecidableEq

def settings : Settings where
  redisLockTimeout := 10
  minBookingHours := 1
  maxBookingHours := 8
  sessionStartHour := 9
  sessionEndHour := 23
  accessTokenExpireMinutes := 30

end BookingApi
