import BookingApi.Core.Security
import BookingApi.Json.RoundTrip

/-!
# A security that hides nothing

An instance of `Security`: a hash is the password itself, and a token is the JSON text of its
payload, without spaces.  It shows that what is assumed of the two libraries is consistent, and it
lets runs be computed.
-/

namespace BookingApi

namespace Transparent

/-! ### Texts without spaces -/

def maskChar (c : Char) : List Char :=
  if c = ' ' then ['~', 's'] else if c = '~' then ['~', 't'] else [c]

def unmask : List Char → List Char
  | [] => []
  | [c] => [c]
  | c :: d :: cs =>
    if c = '~' then (if d = 's' then ' ' else '~') :: unmask cs else c :: unmask (d :: cs)

theorem unmask_maskChar (c : Char) (cs : List Char) :
    unmask (maskChar c ++ cs) = c :: unmask cs := by
  unfold maskChar
  split_ifs with hspace htilde
  · simp [unmask, hspace]
  · simp [unmask, htilde]
  · cases cs with
    | nil => rfl
    | cons d cs => simp [unmask, htilde]

theorem unmask_flatMap (cs : List Char) : unmask (cs.flatMap maskChar) = cs := by
  induction cs with
  | nil => rfl
  | cons c cs ih => rw [List.flatMap_cons, unmask_maskChar, ih]

/-! ### Tokens -/

def claimJson (claim : String × String) : Json := .arr [.string claim.1, .string claim.2]

def readClaim : Json → Option (String × String)
  | .arr [.str name, .str value] => some (name.toString, value.toString)
  | _ => none

def payloadJson (payload : Payload) : Json :=
  .arr [.arr (payload.claims.map claimJson), .int payload.exp]

def encode (payload : Payload) : String :=
  String.ofList ((Json.dumps (payloadJson payload)).toList.flatMap maskChar)

def readPayload (token : String) : Option Payload :=
  match Json.loads (String.ofList (unmask token.toList)) with
  | some (.arr [.arr claims, .int exp]) => (claims.mapM readClaim).map fun claims => ⟨claims, exp⟩
  | _ => none

def decode (now : Instant) (token : String) : Except String Claims :=
  match readPayload token with
  | none => .error "Not enough segments"
  | some payload =>
    if now < payload.exp then .ok payload.claims else .error "Signature has expired."

theorem mapM_readClaim (claims : Claims) : (claims.map claimJson).mapM readClaim = some claims := by
  induction claims with
  | nil => rfl
  | cons claim claims ih =>
    have hread : readClaim (claimJson claim) = some claim := by
      simp [claimJson, readClaim, Json.string, Text.toString_ofString]
    rw [List.map_cons, List.mapM_cons, hread, ih]
    rfl

theorem plain_payloadJson (payload : Payload) : Json.Plain (payloadJson payload) := by
  have hstr (s : String) : Json.Plain (.string s) := .str (Text.scalar_ofString s)
  have hclaim (claim : String × String) : Json.Plain (claimJson claim) := by
    refine .arr fun v hv => ?_
    simp only [List.mem_cons, List.not_mem_nil, or_false] at hv
    rcases hv with rfl | rfl <;> exact hstr _
  refine .arr fun v hv => ?_
  simp only [List.mem_cons, List.not_mem_nil, or_false] at hv
  rcases hv with rfl | rfl
  · refine .arr fun v hv => ?_
    obtain ⟨claim, -, rfl⟩ := List.mem_map.mp hv
    exact hclaim claim
  · exact .int _

theorem readPayload_encode (payload : Payload) : readPayload (encode payload) = some payload := by
  rw [readPayload, encode, String.toList_ofList, unmask_flatMap, String.ofList_toList,
    Json.loads_dumps (plain_payloadJson payload)]
  simp only [payloadJson, mapM_readClaim, Option.map_some]

end Transparent

def Security.transparent : Security where
  hash _ password := password
  verify plainPassword hashedPassword := plainPassword = hashedPassword
  encode := Transparent.encode
  decode := Transparent.decode
  verify_hash _ _ _ := decide_eq_true_iff
  decode_encode now payload claims := by
    rw [Transparent.decode, Transparent.readPayload_encode]
    simp only
    split_ifs with h
    · rw [Except.ok.injEq]
      exact ⟨fun he => ⟨he.symm, h⟩, fun he => he.1.symm⟩
    · exact ⟨fun he => absurd he (by simp), fun he => absurd he.2 h⟩
  encode_ne_empty payload h := by
    have hread := Transparent.readPayload_encode payload
    have hnone : Transparent.readPayload "" = none := by decide +kernel
    rw [h, hnone] at hread
    cases hread

end BookingApi
