import BookingApi.Exceptions
import BookingApi.Json.Basic
import BookingApi.Text.Python
import Mathlib.Algebra.Ring.Nat

/-!
# JSON values as Python objects

What Python code does with a value that `json.loads` has returned: `bool(v)`, its text in an
f-string, `v.split(sep)`, and `dict.get`.  The texts of floats, lists and dictionaries are left to a
parameter `repr`.
-/

namespace BookingApi.Json

/-- `float(literal) == 0.0`: a decimal up to `2^(-1075)`, half of the least positive float, is
rounded to zero.  The literals of `nan` and the infinities have no digits. -/
def isZeroLiteral (literal : String) : Bool :=
  let cs := literal.toList.dropWhile (· = '-')
  let mantissa := cs.takeWhile fun c => c.isDigit || c = '.'
  let fraction := (mantissa.dropWhile (· ≠ '.')).tail
  let exponent := (Python.parseInt (String.ofList (cs.drop (mantissa.length + 1)))).getD 0
  let m := Nat.ofDigitChars 10 (mantissa.filter Char.isDigit) 0
  let scale := exponent - fraction.length
  mantissa ≠ [] ∧ (m = 0 ∨ scale < 0 ∧ m * 2 ^ 1075 ≤ 10 ^ scale.natAbs)

example : ["0.0", "-0e5", "1e-400", "1e-300", "0.5", "NaN"].map isZeroLiteral
    = [true, true, true, false, false, false] := by decide +kernel

/-- `bool(v)`. -/
def truthy : Json → Bool
  | null => false
  | bool b => b
  | int n => n ≠ 0
  | float literal => !isZeroLiteral literal
  | str s => !s.isEmpty
  | arr items => !items.isEmpty
  | obj members => !members.isEmpty

/-- The text of a value in an f-string. -/
def format (repr : Json → Text) : Json → Text
  | null => .ofString "None"
  | bool true => .ofString "True"
  | bool false => .ofString "False"
  | int n => .ofString (toString n)
  | str s => s
  | v => repr v

/-- `v == s` for a string literal. -/
def isString (v : Json) (s : String) : Bool :=
  match v with
  | str t => t = .ofString s
  | _ => false

/-- `data.get(key, default)`. -/
def get (data : List (Text × Json)) (key : String) (default : Json) : Json :=
  (lookup data (.ofString key)).getD default

/-- `v.split(sep)` for a separator of one character. -/
def split (sep : Char) : Json → Except Exc (List Text)
  | str s => .ok (s.splitOn sep.toNat)
  | _ => .error .attributeError

/-- `v.split(sep)[i]`. -/
def splitItem (sep : Char) (i : ℕ) (v : Json) : Except Exc Text := do
  let items ← v.split sep
  match items[i]? with
  | some item => return item
  | none => .error .indexError

/-! ### Splitting -/

/-- The first item is always there. -/
theorem splitItem_zero_str (sep : Char) (s : Text) :
    ∃ item, splitItem sep 0 (.str s) = .ok item := by
  obtain ⟨item, items, hitems⟩ := List.exists_cons_of_ne_nil (List.splitOn_ne_nil sep.toNat s)
  refine ⟨item, ?_⟩
  simp only [splitItem, split, hitems]
  rfl

/-- A text with one separator. -/
theorem splitItem_append {sep : Char} {s t : Text} (hs : sep.toNat ∉ s) (ht : sep.toNat ∉ t) :
    splitItem sep 0 (.str (s ++ sep.toNat :: t)) = .ok s ∧
      splitItem sep 1 (.str (s ++ sep.toNat :: t)) = .ok t := by
  have hsplit : (s ++ sep.toNat :: t).splitOn sep.toNat = [s, t] := by
    rw [List.splitOn_append_cons_self_of_not_mem hs, List.splitOn_eq_singleton ht]
  simp only [splitItem, split, hsplit]
  exact ⟨rfl, rfl⟩

/-- **The second item** is there for the strings with a separator. -/
theorem splitItem_one_isOk (sep : Char) (v : Json) :
    (∃ item, splitItem sep 1 v = .ok item) ↔ ∃ s, v = .str s ∧ sep.toNat ∈ s := by
  constructor
  · rintro ⟨item, hitem⟩
    cases v with
    | str s =>
      refine ⟨s, rfl, ?_⟩
      by_contra hsep
      simp only [splitItem, split, List.splitOn_eq_singleton hsep] at hitem
      cases hitem
    | _ => cases hitem
  · rintro ⟨s, rfl, hsep⟩
    obtain ⟨before, after, rfl, hbefore⟩ := List.eq_append_cons_of_mem hsep
    obtain ⟨item, items, hitems⟩ :=
      List.exists_cons_of_ne_nil (List.splitOn_ne_nil sep.toNat after)
    have hsplit : (before ++ sep.toNat :: after).splitOn sep.toNat = before :: item :: items := by
      rw [List.splitOn_append_cons_self_of_not_mem hbefore, hitems]
    refine ⟨item, ?_⟩
    simp only [splitItem, split, hsplit]
    rfl

end BookingApi.Json
