import BookingApi.Config
import BookingApi.DateTime.Basic

/-!
# Passwords and access tokens

`app/core/security.py`.  The two libraries it calls are a parameter of the model: `Security` has the
functions of `passlib` and `jose` with the keys and the algorithms of the settings, and what is
assumed of them.
-/

namespace BookingApi

/-- The claims of a token apart from its expiry, which are strings in this program. -/
abbrev Claims := List (String × String)

/-- `payload.get(name)`. -/
def Claims.get (claims : Claims) (name : String) : Option String :=
  (claims.find? fun c => c.1 = name).map Prod.snd

/-- What `jwt.encode` signs. -/
structure Payload where
  claims : Claims
  exp : Instant
deriving DecidableEq

/-- `CryptContext(schemes=["bcrypt"])` and `jose.jwt`. -/
structure Security where
  /-- `pwd_context.hash(password)`, with the salt that it draws. -/
  hash (salt password : String) : String
  /-- `pwd_context.verify(plain_password, hashed_password)`. -/
  verify (plainPassword hashedPassword : String) : Bool
  encode (payload : Payload) : String
  /-- `jwt.decode(token)` at a time, or the text of the `JWTError`. -/
  decode (now : Instant) (token : String) : Except String Claims
  verify_hash : ∀ plainPassword salt password,
    verify plainPassword (hash salt password) = true ↔ plainPassword = password
  /-- A token that was made is decoded until it expires. -/
  decode_encode : ∀ now payload claims,
    decode now (encode payload) = .ok claims ↔ claims = payload.claims ∧ now < payload.exp
  encode_ne_empty : ∀ payload, encode payload ≠ ""

namespace Security

variable (security : Security) (settings : Settings) (now : Instant)

/-- `timedelta(minutes=settings.ACCESS_TOKEN_EXPIRE_MINUTES)`, in microseconds. -/
def accessTokenLifetime : ℤ := settings.accessTokenExpireMinutes * 60000000

def createAccessToken (data : Claims) : String :=
  security.encode ⟨data, now + accessTokenLifetime settings⟩

/-- A `JWTError` becomes a `ValueError`. -/
def decodeAccessToken (token : String) : Except Exc Claims :=
  (security.decode now token).mapError fun e => .valueError s!"Invalid token: {e}"

variable {security now} {token : String} {claims : Claims}

theorem decodeAccessToken_eq_ok_iff :
    security.decodeAccessToken now token = .ok claims ↔ security.decode now token = .ok claims := by
  unfold decodeAccessToken
  cases security.decode now token <;> simp [Except.mapError]

/-- Two payloads with one token are the same. -/
theorem payload_eq_of_encode_eq {p p' : Payload} (h : security.encode p = security.encode p') :
    p = p' := by
  have hmade (now : Instant) (claims : Claims) :
      (claims = p.claims ∧ now < p.exp) ↔ (claims = p'.claims ∧ now < p'.exp) := by
    rw [← security.decode_encode, h, security.decode_encode]
  have hclaims : p.claims = p'.claims :=
    ((hmade (p.exp - 1) p.claims).mp ⟨rfl, Int.sub_one_lt_of_le (le_refl p.exp)⟩).1
  have hlt (now : Instant) : now < p.exp ↔ now < p'.exp := by
    simpa [hclaims] using hmade now p.claims
  have hexp : p.exp = p'.exp := by
    refine le_antisymm (not_lt.mp fun hgt => ?_) (not_lt.mp fun hgt => ?_)
    · exact lt_irrefl _ ((hlt p'.exp).mp hgt)
    · exact lt_irrefl _ ((hlt p.exp).mpr hgt)
  cases p
  cases p'
  simp_all

end Security

end BookingApi
