import BookingApi.Json.Basic

/-!
# Reading JSON

`json.loads`: the scanner of Python's `json` module.  It accepts `NaN`, `Infinity` and `-Infinity`,
rejects control characters in strings, joins the escapes of two matching surrogates, and keeps the
last of the members with one key.  The interpreter's limits on the depth of a value and on the
digits of an integer are left out.
-/

namespace BookingApi.Json

def isSpace (c : Char) : Bool := c = ' ' ∨ c = '\t' ∨ c = '\n' ∨ c = '\r'

def skipSpace (cs : List Char) : List Char := cs.dropWhile isSpace

/-! ### Numbers -/

/-- At least one digit. -/
def digits (cs : List Char) : Option (List Char × List Char) :=
  match cs.takeWhile Char.isDigit with
  | [] => none
  | ds => some (ds, cs.dropWhile Char.isDigit)

/-- An integer part: zero, or digits that do not start with a zero. -/
def integerPart : List Char → Option (List Char × List Char)
  | [] => none
  | c :: cs => if c = '0' then some (['0'], cs) else digits (c :: cs)

/-- A point and digits, or nothing. -/
def fractionPart : List Char → List Char × List Char
  | [] => ([], [])
  | c :: cs =>
    if c = '.' then
      match digits cs with
      | some (ds, rest) => ('.' :: ds, rest)
      | none => ([], c :: cs)
    else ([], c :: cs)

/-- An `e`, a sign or none, and digits; or nothing. -/
def exponentPart : List Char → List Char × List Char
  | [] => ([], [])
  | c :: cs =>
    if c = 'e' ∨ c = 'E' then
      let sign := cs.takeWhile fun d => d = '+' ∨ d = '-'
      match decide (sign.length ≤ 1), digits (cs.drop sign.length) with
      | true, some (ds, rest) => (c :: sign ++ ds, rest)
      | _, _ => ([], c :: cs)
    else ([], c :: cs)

def unsignedNumber (negative : Bool) (cs : List Char) : Option (Json × List Char) :=
  match integerPart cs with
  | none => none
  | some (ds, rest) =>
    let (fraction, rest) := fractionPart rest
    let (exponent, rest) := exponentPart rest
    if fraction = [] ∧ exponent = [] then
      let n : ℤ := Nat.ofDigitChars 10 ds 0
      some (.int (if negative then -n else n), rest)
    else
      let sign := if negative then ['-'] else []
      some (.float (String.ofList (sign ++ ds ++ fraction ++ exponent)), rest)

def number : List Char → Option (Json × List Char)
  | [] => none
  | c :: cs => if c = '-' then unsignedNumber true cs else unsignedNumber false (c :: cs)

/-! ### Strings -/

def hexDigit (c : Char) : Option ℕ :=
  if '0' ≤ c ∧ c ≤ '9' then some (c.toNat - 48)
  else if 'a' ≤ c ∧ c ≤ 'f' then some (c.toNat - 87)
  else if 'A' ≤ c ∧ c ≤ 'F' then some (c.toNat - 55)
  else none

/-- The code unit of four hexadecimal digits. -/
def codeUnit (a b c d : Char) : Option ℕ := do
  let a ← hexDigit a
  let b ← hexDigit b
  let c ← hexDigit c
  let d ← hexDigit d
  return a * 4096 + b * 256 + c * 16 + d

/-- The character after a backslash, other than `u`. -/
def shortEscape (c : Char) : Option ℕ :=
  if c = '/' then some 47 else (shortEscapes.find? fun e => e.2 = c).map Prod.fst

/-- The code points of a string, up to the quote that ends it; a surrogate is one of them. -/
def stringBody : List Char → Option (Text × List Char)
  | [] => none
  | c :: cs =>
    if c = '"' then some ([], cs)
    else if c = '\\' then
      match cs with
      | [] => none
      | e :: cs =>
        if e = 'u' then
          match cs with
          | a :: b :: c :: d :: cs =>
            match codeUnit a b c d with
            | some n => (stringBody cs).map fun r => (n :: r.1, r.2)
            | none => none
          | _ => none
        else
          match shortEscape e with
          | some n => (stringBody cs).map fun r => (n :: r.1, r.2)
          | none => none
    else if c.toNat < 32 then none
    else (stringBody cs).map fun r => (c.toNat :: r.1, r.2)

def isHighSurrogate (n : ℕ) : Bool := 0xD800 ≤ n ∧ n ≤ 0xDBFF
def isLowSurrogate (n : ℕ) : Bool := 0xDC00 ≤ n ∧ n ≤ 0xDFFF

/-- Join a high surrogate and the low one after it. -/
def joinSurrogates : Text → Text
  | [] => []
  | [c] => [c]
  | c :: d :: s =>
    if isHighSurrogate c ∧ isLowSurrogate d then
      (0x10000 + (c - 0xD800) * 1024 + (d - 0xDC00)) :: joinSurrogates s
    else c :: joinSurrogates (d :: s)

def string? (cs : List Char) : Option (Text × List Char) :=
  (stringBody cs).map fun r => (joinSurrogates r.1, r.2)

/-! ### Values -/

/-- The constants, which are compared in this order. -/
def constants : List (String × Json) :=
  [("null", .null), ("true", .bool true), ("false", .bool false), ("NaN", .float "NaN"),
    ("Infinity", .float "Infinity"), ("-Infinity", .float "-Infinity")]

/-- The text after a constant. -/
def constant (cs : List Char) : Option (Json × List Char) :=
  constants.findSome? fun k =>
    if k.1.toList.isPrefixOf cs then some (k.2, cs.drop k.1.length) else none

/-- `dict` keeps the place of the first member with a key, and the value of the last one. -/
def setMember (members : List (Text × Json)) (m : Text × Json) : List (Text × Json) :=
  if m.1 ∈ members.map Prod.fst then members.map fun m' => if m'.1 = m.1 then m else m'
  else members ++ [m]

def dict (members : List (Text × Json)) : List (Text × Json) := members.foldl setMember []

mutual

/-- A value and the text after it.  The fuel bounds the number of recursive calls. -/
def value : ℕ → List Char → Option (Json × List Char)
  | 0, _ => none
  | _ + 1, [] => none
  | n + 1, c :: cs =>
    if c = '"' then (string? cs).map fun r => (.str r.1, r.2)
    else if c = '[' then
      if (skipSpace cs).head? = some ']' then some (.arr [], (skipSpace cs).tail)
      else (items n (skipSpace cs)).map fun r => (.arr r.1, r.2)
    else if c = '\x7b' then
      if (skipSpace cs).head? = some '\x7d' then some (.obj [], (skipSpace cs).tail)
      else (members n (skipSpace cs)).map fun r => (.obj (dict r.1), r.2)
    else (constant (c :: cs)).or (number (c :: cs))

/-- The items of an array, up to the bracket. -/
def items : ℕ → List Char → Option (List Json × List Char)
  | 0, _ => none
  | n + 1, cs =>
    match value n cs with
    | none => none
    | some (v, rest) =>
      match skipSpace rest with
      | [] => none
      | c :: rest =>
        if c = ',' then (items n (skipSpace rest)).map fun r => (v :: r.1, r.2)
        else if c = ']' then some ([v], rest)
        else none

/-- The members of an object, up to the brace. -/
def members : ℕ → List Char → Option (List (Text × Json) × List Char)
  | 0, _ => none
  | _ + 1, [] => none
  | n + 1, q :: cs =>
    if q = '"' then
      match string? cs with
      | none => none
      | some (k, rest) =>
        if (skipSpace rest).head? = some ':' then
          match value n (skipSpace (skipSpace rest).tail) with
          | none => none
          | some (v, rest) =>
            match skipSpace rest with
            | [] => none
            | c :: rest =>
              if c = ',' then (members n (skipSpace rest)).map fun r => ((k, v) :: r.1, r.2)
              else if c = '\x7d' then some ([(k, v)], rest)
              else none
        else none
    else none

end

/-- `json.loads(s)`, or none for a `JSONDecodeError` or another `ValueError`.  Two calls for each
character are enough. -/
def loads (s : String) : Option Json :=
  let cs := s.toList
  match value (2 * cs.length + 1) (skipSpace cs) with
  | none => none
  | some (v, rest) => if skipSpace rest = [] then some v else none

end BookingApi.Json
