import Mathlib.Data.Int.Notation
import Mathlib.Data.Nat.Notation

/-!
# JSON values and their text

The values that Python's `json` module reads and writes, and `json.dumps` with its default
separators and `ensure_ascii`.  A Python string is its list of code points: in contrast to a Lean
`String` it may contain a surrogate, which JSON can spell.  A float is the literal it was read from.
-/

namespace BookingApi

/-- A Python `str`. -/
abbrev Text := List ℕ

namespace Text

def ofString (s : String) : Text := s.toList.map Char.toNat

@[simp] theorem ofString_append (s t : String) : ofString (s ++ t) = ofString s ++ ofString t := by
  simp [ofString]

theorem ofString_injective : Function.Injective ofString := by
  intro s t h
  have hinj : Function.Injective Char.toNat := fun c d h => Char.toNat_inj.mp h
  exact String.toList_inj.mp ((List.map_inj_right fun _ _ h => hinj h).mp h)

/-- The Lean string of a text without surrogates. -/
def toString (s : Text) : String := String.ofList (s.map Char.ofNat)

theorem toString_ofString (s : String) : (ofString s).toString = s := by
  simp [toString, ofString, Function.comp_def]

end Text

inductive Json
  | null
  | bool (b : Bool)
  | int (n : ℤ)
  | float (literal : String)
  | str (s : Text)
  | arr (items : List Json)
  /-- The members in the order of their first insertion. -/
  | obj (members : List (Text × Json))

namespace Json

/-- A string that was written as a literal. -/
def string (s : String) : Json := .str (.ofString s)

/-- `dict.get(key)` on an object. -/
def lookup (members : List (Text × Json)) (key : Text) : Option Json :=
  (members.find? fun m => m.1 = key).map Prod.snd

/-! ### Writing -/

/-- The escape `\uXXXX` of a code unit. -/
def unicodeEscape (n : ℕ) : List Char :=
  ['\\', 'u', (n / 4096 % 16).digitChar, (n / 256 % 16).digitChar, (n / 16 % 16).digitChar,
    (n % 16).digitChar]

/-- A code point above the basic plane is two surrogates. -/
def highSurrogate (c : ℕ) : ℕ := 0xD800 + (c - 0x10000) / 1024 % 1024
def lowSurrogate (c : ℕ) : ℕ := 0xDC00 + (c - 0x10000) % 1024

/-- The characters that have an escape of their own. -/
def shortEscapes : List (ℕ × Char) :=
  [(34, '"'), (92, '\\'), (8, 'b'), (12, 'f'), (10, 'n'), (13, 'r'), (9, 't')]

def escape (c : ℕ) : List Char :=
  match shortEscapes.find? fun e => e.1 = c with
  | some e => ['\\', e.2]
  | none =>
    if 32 ≤ c ∧ c < 127 then [Char.ofNat c]
    else if c < 0x10000 then unicodeEscape c
    else unicodeEscape (highSurrogate c) ++ unicodeEscape (lowSurrogate c)

/-- A string and what follows it. -/
def quote (s : Text) : List Char := '"' :: s.flatMap escape ++ ['"']

mutual

def encode : Json → List Char
  | null => "null".toList
  | bool true => "true".toList
  | bool false => "false".toList
  | int n => (toString n).toList
  | float literal => literal.toList
  | str s => quote s
  | arr [] => ['[', ']']
  | arr (v :: vs) => '[' :: (encode v ++ encodeItems vs)
  | obj [] => ['\x7b', '\x7d']
  | obj ((k, v) :: ms) => '\x7b' :: (quote k ++ ':' :: ' ' :: (encode v ++ encodeMembers ms))

/-- The items after the first one, and the bracket. -/
def encodeItems : List Json → List Char
  | [] => [']']
  | v :: vs => ',' :: ' ' :: (encode v ++ encodeItems vs)

/-- The members after the first one, and the brace. -/
def encodeMembers : List (Text × Json) → List Char
  | [] => ['\x7d']
  | (k, v) :: ms => ',' :: ' ' :: (quote k ++ ':' :: ' ' :: (encode v ++ encodeMembers ms))

end

/-- `json.dumps(v)`. -/
def dumps (v : Json) : String := String.ofList (encode v)

end Json

end BookingApi
