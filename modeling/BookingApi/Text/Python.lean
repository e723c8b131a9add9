import BookingApi.Text.Basic

/-!
# String methods

The methods of Python's `str` that the program calls, on lists of characters, and `int(s)`.

* `removeAll_append`: `s.replace(old, "")` removes a prefix `old` and nothing else, if no other
  occurrence of `old` can start in what follows.
* `parseInt_toString`: `int(str(n)) == n`.
-/

namespace BookingApi.Python

/-! ### `str.replace` -/

/-- `s.replace(old, "")` for a nonempty `old`, where the next `skip` characters belong to an
occurrence that was found before. -/
def removeFrom (old : List Char) : ℕ → List Char → List Char
  | _, [] => []
  | skip + 1, _ :: cs => removeFrom old skip cs
  | 0, c :: cs =>
    if old.isPrefixOf (c :: cs) then removeFrom old (old.length - 1) cs
    else c :: removeFrom old 0 cs

def removeAll (old s : String) : String := String.ofList (removeFrom old.toList 0 s.toList)

theorem removeFrom_drop (old : List Char) (skip : ℕ) (cs : List Char) :
    removeFrom old skip cs = removeFrom old 0 (cs.drop skip) := by
  induction skip generalizing cs with
  | zero => rfl
  | succ skip ih =>
    cases cs with
    | nil => rfl
    | cons c cs => exact ih cs

/-- Nothing is removed from a text without one of the characters of `old`. -/
theorem removeFrom_of_notMem {old cs : List Char} {d : Char} (hold : d ∈ old) (hcs : d ∉ cs) :
    removeFrom old 0 cs = cs := by
  induction cs with
  | nil => rfl
  | cons c cs ih =>
    have hprefix : ¬ old.isPrefixOf (c :: cs) := by
      intro h
      exact hcs ((List.isPrefixOf_iff_prefix.mp h).subset hold)
    rw [removeFrom, if_neg hprefix, ih (List.not_mem_of_not_mem_cons hcs)]

theorem removeAll_append {old s : String} {d : Char} (hold : d ∈ old.toList)
    (hs : d ∉ s.toList) : removeAll old (old ++ s) = s := by
  obtain ⟨c, cs, hc⟩ : ∃ c cs, old.toList = c :: cs :=
    List.exists_cons_of_ne_nil (List.ne_nil_of_mem hold)
  have hprefix : (old.toList).isPrefixOf (old.toList ++ s.toList) :=
    List.isPrefixOf_iff_prefix.mpr (List.prefix_append _ _)
  rw [removeAll, String.toList_append]
  refine String.toList_inj.mp ?_
  rw [String.toList_ofList]
  rw [hc] at hprefix hold ⊢
  rw [List.cons_append, removeFrom, if_pos (by rwa [List.cons_append] at hprefix), removeFrom_drop,
    List.length_cons, Nat.add_sub_cancel, List.drop_left]
  exact removeFrom_of_notMem hold hs

/-! ### `int` -/

/-- The code points that `str.strip` takes for white space. -/
def isSpace (c : Char) : Bool :=
  c.toNat ∈ [0x9, 0xA, 0xB, 0xC, 0xD, 0x1C, 0x1D, 0x1E, 0x1F, 0x20, 0x85, 0xA0, 0x1680, 0x2028,
    0x2029, 0x202F, 0x205F, 0x3000] ∨ 0x2000 ≤ c.toNat ∧ c.toNat ≤ 0x200A

/-- `s.strip()`. -/
def strip (cs : List Char) : List Char :=
  ((cs.dropWhile isSpace).reverse.dropWhile isSpace).reverse

/-- The digits of a number, in which single underscores may stand between two digits. -/
def ungroup : List Char → Option (List Char)
  | [] => none
  | [c] => if c.isDigit then some [c] else none
  | c :: d :: cs =>
    if c.isDigit then (if d = '_' then ungroup cs else ungroup (d :: cs)).map (c :: ·) else none

def parseNat (cs : List Char) : Option ℕ := (ungroup cs).map fun ds => Nat.ofDigitChars 10 ds 0

/-- `int(s)`, or none for a `ValueError`.  Digits outside of ASCII are left out. -/
def parseInt (s : String) : Option ℤ :=
  match strip s.toList with
  | [] => none
  | c :: cs =>
    if c = '-' then (parseNat cs).map Int.negOfNat
    else if c = '+' then (parseNat cs).map Int.ofNat
    else (parseNat (c :: cs)).map Int.ofNat

theorem strip_eq_self {cs : List Char} (h : ∀ c ∈ cs, isSpace c = false) : strip cs = cs := by
  have hdrop : ∀ cs : List Char, (∀ c ∈ cs, isSpace c = false) → cs.dropWhile isSpace = cs := by
    intro cs h
    cases cs with
    | nil => rfl
    | cons c cs => exact List.dropWhile_cons_of_neg (by simp [h c (List.mem_cons_self ..)])
  rw [strip, hdrop cs h, hdrop cs.reverse fun c hc => h c (List.mem_reverse.mp hc),
    List.reverse_reverse]

theorem ungroup_of_isDigit {cs : List Char} (hne : cs ≠ []) (h : ∀ c ∈ cs, c.isDigit) :
    ungroup cs = some cs := by
  induction cs with
  | nil => exact absurd rfl hne
  | cons c cs ih =>
    have hc : c.isDigit := h c (List.mem_cons_self ..)
    cases cs with
    | nil => rw [ungroup, if_pos hc]
    | cons d cs =>
      have hd : d ≠ '_' := by
        rintro rfl
        cases h '_' (by simp)
      rw [ungroup, if_pos hc, if_neg hd, ih (List.cons_ne_nil _ _) fun e he =>
        h e (List.mem_cons_of_mem _ he)]
      rfl

theorem parseNat_toDigits (n : ℕ) : parseNat (Nat.toDigits 10 n) = some n := by
  rw [parseNat, ungroup_of_isDigit Nat.toDigits_ne_nil fun c hc => isDigit_of_mem_toDigits hc,
    Option.map_some, Nat.ofDigitChars_ten_toDigits]

theorem isSpace_of_isDigit {c : Char} (h : c.isDigit) : isSpace c = false := by
  have hrange : 48 ≤ c.toNat ∧ c.toNat ≤ 57 := by
    simpa [Char.isDigit, Char.le_def, UInt32.le_iff_toNat_le] using h
  simp only [isSpace, decide_eq_false_iff_not, List.mem_cons, List.not_mem_nil, or_false]
  omega

/-- **Reading an integer back.** -/
theorem parseInt_toString (n : ℤ) : parseInt (toString n) = some n := by
  have hspace : ∀ c ∈ (toString n).toList, isSpace c = false := by
    intro c hc
    rw [toList_toString_int] at hc
    split_ifs at hc
    · rcases List.mem_cons.mp hc with rfl | hc
      · rfl
      · exact isSpace_of_isDigit (isDigit_of_mem_toDigits hc)
    · exact isSpace_of_isDigit (isDigit_of_mem_toDigits hc)
  rw [parseInt, strip_eq_self hspace, toList_toString_int]
  split_ifs with hneg
  · simp only [if_true, parseNat_toDigits, Option.map_some, Option.some.injEq]
    rw [Int.negOfNat_eq, Int.ofNat_eq_natCast]
    omega
  · obtain ⟨d, ds, hds⟩ :=
      List.exists_cons_of_ne_nil (Nat.toDigits_ne_nil (b := 10) (n := n.natAbs))
    have hdigit : d.isDigit := isDigit_of_mem_toDigits (n := n.natAbs) (by simp [hds])
    have hminus : d ≠ '-' := by
      rintro rfl
      cases hdigit
    have hplus : d ≠ '+' := by
      rintro rfl
      cases hdigit
    have hread := parseNat_toDigits n.natAbs
    rw [hds] at hread ⊢
    simp only [if_neg hminus, if_neg hplus, hread, Option.map_some, Option.some.injEq]
    rw [Int.ofNat_eq_natCast]
    omega

end BookingApi.Python
