import BookingApi.Json.Parse
import BookingApi.Text.Basic
import Mathlib.Data.List.Nodup

/-!
# Reading what was written

`loads_dumps`: `json.loads` undoes `json.dumps` on the values without floats whose strings contain
no surrogates and whose objects have distinct keys (`Plain`).  The scanner reads the text of a value
off the front of any text that does not go on with a number (`Ends`).
-/

namespace BookingApi

/-- No code point is a surrogate. -/
def Text.Scalar (s : Text) : Prop := ∀ c ∈ s, c < 0xD800 ∨ 0xDFFF < c ∧ c < 0x110000

theorem Text.scalar_ofString (s : String) : (Text.ofString s).Scalar := by
  intro n hn
  obtain ⟨c, -, rfl⟩ := List.mem_map.mp hn
  exact c.valid

namespace Json

/-- A value that its text determines. -/
inductive Plain : Json → Prop
  | null : Plain .null
  | bool (b : Bool) : Plain (.bool b)
  | int (n : ℤ) : Plain (.int n)
  | str {s : Text} : s.Scalar → Plain (.str s)
  | arr {vs : List Json} : (∀ v ∈ vs, Plain v) → Plain (.arr vs)
  | obj {ms : List (Text × Json)} : (ms.map Prod.fst).Nodup → (∀ m ∈ ms, m.1.Scalar) →
      (∀ m ∈ ms, Plain m.2) → Plain (.obj ms)

/-! ### Strings -/

theorem hexDigit_digitChar {n : ℕ} (h : n < 16) : hexDigit n.digitChar = some n := by
  have hall : ∀ n < 16, hexDigit n.digitChar = some n := by decide
  exact hall n h

theorem toNat_ofNat_of_lt {n : ℕ} (h : n < 0xD800) : (Char.ofNat n).toNat = n := by
  rw [Char.ofNat, dif_pos (Or.inl h)]
  rfl

/-- An escape is read as its code unit. -/
theorem stringBody_unicodeEscape {n : ℕ} (h : n < 0x10000) (cs : List Char) :
    stringBody (unicodeEscape n ++ cs) = (stringBody cs).map fun r => (n :: r.1, r.2) := by
  have hunit : codeUnit (n / 4096 % 16).digitChar (n / 256 % 16).digitChar
      (n / 16 % 16).digitChar (n % 16).digitChar = some n := by
    unfold codeUnit
    simp only [hexDigit_digitChar (Nat.mod_lt _ (by omega : 0 < 16)), Option.bind_eq_bind,
      Option.bind_some, Option.pure_def, Option.some.injEq]
    omega
  rw [unicodeEscape, List.cons_append, stringBody.eq_def]
  simp [hunit]

theorem stringBody_shortEscape {n : ℕ} {e : Char} (h : (n, e) ∈ shortEscapes) (cs : List Char) :
    stringBody ('\\' :: e :: cs) = (stringBody cs).map fun r => (n :: r.1, r.2) := by
  have hne : e ≠ 'u' ∧ shortEscape e = some n := by
    have hall : ∀ p ∈ shortEscapes, p.2 ≠ 'u' ∧ shortEscape p.2 = some p.1 := by decide
    exact hall (n, e) h
  rw [stringBody.eq_def]
  simp [hne.1, hne.2]

/-- The code units of a code point. -/
def units (c : ℕ) : Text := if c < 0x10000 then [c] else [highSurrogate c, lowSurrogate c]

theorem stringBody_escape {c : ℕ} (h : c < 0x110000) (cs : List Char) :
    stringBody (escape c ++ cs) = (stringBody cs).map fun r => (units c ++ r.1, r.2) := by
  unfold escape
  cases hfind : shortEscapes.find? fun e => e.1 = c with
  | some e =>
    have hc : e.1 = c := by simpa using List.find?_some hfind
    have hmem : (c, e.2) ∈ shortEscapes := hc ▸ List.mem_of_find?_eq_some hfind
    have hlt : c < 0x10000 := by
      have hall : ∀ p ∈ shortEscapes, p.1 < 0x10000 := by decide
      exact hall _ hmem
    simp only [units, if_pos hlt]
    exact stringBody_shortEscape hmem cs
  | none =>
    simp only
    split_ifs with h1 h2
    · -- a printable character stands for itself
      have hnot : c ≠ 34 ∧ c ≠ 92 := by
        rw [List.find?_eq_none] at hfind
        have hquote := hfind (34, '"') (by decide)
        have hslash := hfind (92, '\\') (by decide)
        simp only [decide_eq_true_eq] at hquote hslash
        omega
      have hnat : (Char.ofNat c).toNat = c :=
        toNat_ofNat_of_lt (by omega)
      have hquote : Char.ofNat c ≠ '"' := fun he => hnot.1 (by rw [← hnat, he]; rfl)
      have hslash : Char.ofNat c ≠ '\\' := fun he => hnot.2 (by rw [← hnat, he]; rfl)
      have hprintable : ¬ c < 32 := by omega
      have hbasic : c < 0x10000 := by omega
      rw [List.singleton_append, stringBody.eq_def]
      simp only [if_neg hquote, if_neg hslash, hnat, if_neg hprintable, units, if_pos hbasic]
      rfl
    · rw [units, if_pos h2]
      exact stringBody_unicodeEscape h2 cs
    · have hhigh : highSurrogate c < 0x10000 := by
        unfold highSurrogate
        omega
      have hlow : lowSurrogate c < 0x10000 := by
        unfold lowSurrogate
        omega
      rw [units, if_neg h2, List.append_assoc, stringBody_unicodeEscape hhigh,
        stringBody_unicodeEscape hlow]
      cases stringBody cs <;> rfl

theorem stringBody_flatMap {s : Text} (h : s.Scalar) (cs : List Char) :
    stringBody (s.flatMap escape ++ '"' :: cs) = some (s.flatMap units, cs) := by
  induction s with
  | nil =>
    rw [List.flatMap_nil, List.nil_append, stringBody.eq_def]
    rfl
  | cons c s ih =>
    have hc : c < 0x110000 := by
      have := h c (List.mem_cons_self ..)
      omega
    rw [List.flatMap_cons, List.append_assoc, stringBody_escape hc,
      ih fun d hd => h d (List.mem_cons_of_mem _ hd), List.flatMap_cons]
    rfl

/-- The surrogates of a code point are joined again. -/
theorem joinSurrogates_units {c : ℕ} (h : c < 0xD800 ∨ 0xDFFF < c ∧ c < 0x110000) (s : Text) :
    joinSurrogates (units c ++ s) = c :: joinSurrogates s := by
  unfold units
  split_ifs with hc
  · -- a code point of the basic plane is no surrogate
    have hhigh : isHighSurrogate c = false := by
      simp only [isHighSurrogate, decide_eq_false_iff_not]
      omega
    cases s with
    | nil => rfl
    | cons d s =>
      rw [List.singleton_append, joinSurrogates]
      simp [hhigh]
  · have hhigh : isHighSurrogate (highSurrogate c) = true := by
      unfold isHighSurrogate highSurrogate
      exact decide_eq_true (by omega)
    have hlow : isLowSurrogate (lowSurrogate c) = true := by
      unfold isLowSurrogate lowSurrogate
      exact decide_eq_true (by omega)
    have hjoin : 0x10000 + (highSurrogate c - 0xD800) * 1024 + (lowSurrogate c - 0xDC00) = c := by
      unfold highSurrogate lowSurrogate
      omega
    rw [List.cons_append, List.singleton_append, joinSurrogates]
    simp only [hhigh, hlow, and_self, if_true, hjoin]

theorem joinSurrogates_flatMap {s : Text} (h : s.Scalar) :
    joinSurrogates (s.flatMap units) = s := by
  induction s with
  | nil => rfl
  | cons c s ih =>
    rw [List.flatMap_cons, joinSurrogates_units (h c (List.mem_cons_self ..)),
      ih fun d hd => h d (List.mem_cons_of_mem _ hd)]

theorem string?_quote {s : Text} (h : s.Scalar) (cs : List Char) :
    string? (s.flatMap escape ++ '"' :: cs) = some (s, cs) := by
  rw [string?, stringBody_flatMap h, Option.map_some, joinSurrogates_flatMap h]

/-! ### Numbers -/

/-- The text does not continue a number. -/
def Ends (cs : List Char) : Prop :=
  ∀ c ∈ cs.head?, c.isDigit = false ∧ c ≠ '.' ∧ c ≠ 'e' ∧ c ≠ 'E'

theorem ends_nil : Ends [] := by simp [Ends]

theorem ends_cons {c : Char} (cs : List Char)
    (h : c.isDigit = false ∧ c ≠ '.' ∧ c ≠ 'e' ∧ c ≠ 'E') : Ends (c :: cs) := by
  simpa [Ends] using h

theorem digits_append {ds cs : List Char} (hne : ds ≠ []) (hds : ∀ d ∈ ds, d.isDigit)
    (hcs : Ends cs) : digits (ds ++ cs) = some (ds, cs) := by
  have htake : cs.takeWhile Char.isDigit = [] := by
    cases cs with
    | nil => rfl
    | cons c cs => exact List.takeWhile_cons_of_neg (by simp [(hcs c (by simp)).1])
  have hdrop : cs.dropWhile Char.isDigit = cs := by
    cases cs with
    | nil => rfl
    | cons c cs => exact List.dropWhile_cons_of_neg (by simp [(hcs c (by simp)).1])
  unfold digits
  rw [List.takeWhile_append_of_pos hds, List.dropWhile_append_of_pos hds, htake, hdrop,
    List.append_nil]
  cases ds with
  | nil => exact absurd rfl hne
  | cons d ds => rfl

/-- Only the digits of zero start with a zero. -/
theorem head_toDigits {n : ℕ} (h : 0 < n) : ∃ d ds, Nat.toDigits 10 n = d :: ds ∧ d ≠ '0' := by
  induction n using Nat.strongRecOn with
  | ind n ih =>
    rcases Nat.lt_or_ge n 10 with hlt | hge
    · have hall : ∀ k < 10, 0 < k → k.digitChar ≠ '0' := by decide
      exact ⟨_, _, Nat.toDigits_of_lt_base hlt, hall n hlt h⟩
    · obtain ⟨d, ds, hds, hd⟩ := ih (n / 10) (by omega) (by omega)
      rw [Nat.toDigits_of_base_le (by decide) hge, hds]
      exact ⟨d, _, rfl, hd⟩

theorem integerPart_toDigits (n : ℕ) {cs : List Char} (hcs : Ends cs) :
    integerPart (Nat.toDigits 10 n ++ cs) = some (Nat.toDigits 10 n, cs) := by
  rcases Nat.eq_zero_or_pos n with rfl | hpos
  · rfl
  · obtain ⟨d, ds, hds, hd⟩ := head_toDigits hpos
    have hdigits : digits (Nat.toDigits 10 n ++ cs) = some (Nat.toDigits 10 n, cs) :=
      digits_append Nat.toDigits_ne_nil (fun c hc => isDigit_of_mem_toDigits hc) hcs
    rw [hds, List.cons_append] at hdigits ⊢
    rw [integerPart, if_neg hd, hdigits]

theorem fractionPart_of_ends {cs : List Char} (h : Ends cs) : fractionPart cs = ([], cs) := by
  cases cs with
  | nil => rfl
  | cons c cs => rw [fractionPart, if_neg (h c (by simp)).2.1]

theorem exponentPart_of_ends {cs : List Char} (h : Ends cs) : exponentPart cs = ([], cs) := by
  cases cs with
  | nil => rfl
  | cons c cs =>
    have hc : ¬ (c = 'e' ∨ c = 'E') := not_or.mpr (h c (by simp)).2.2
    rw [exponentPart, if_neg hc]

theorem unsignedNumber_toDigits (negative : Bool) (n : ℕ) {cs : List Char} (hcs : Ends cs) :
    unsignedNumber negative (Nat.toDigits 10 n ++ cs)
      = some (.int (if negative then -n else n), cs) := by
  rw [unsignedNumber, integerPart_toDigits n hcs]
  simp only [fractionPart_of_ends hcs, exponentPart_of_ends hcs, and_self, if_true,
    Nat.ofDigitChars_ten_toDigits]

theorem constant_of_isDigit {c : Char} (h : c.isDigit) (cs : List Char) :
    constant (c :: cs) = none := by
  have hne (d : Char) (hd : d.isDigit = false) : d ≠ c := by
    rintro rfl
    rw [h] at hd
    cases hd
  simp [constant, constants, hne 'n' rfl, hne 't' rfl, hne 'f' rfl, hne 'N' rfl, hne 'I' rfl,
    hne '-' rfl]

theorem constant_minus {c : Char} (h : c.isDigit) (cs : List Char) :
    constant ('-' :: c :: cs) = none := by
  have hne : 'I' ≠ c := by
    rintro rfl
    cases h
  simp [constant, constants, hne]

/-- The text of an integer is read as a number. -/
theorem value_int (n : ℕ) (k : ℤ) {cs : List Char} (hcs : Ends cs) :
    value (n + 1) ((toString k).toList ++ cs) = some (.int k, cs) := by
  obtain ⟨d, ds, hds⟩ := List.exists_cons_of_ne_nil (Nat.toDigits_ne_nil (b := 10) (n := k.natAbs))
  have hdigit : d.isDigit := isDigit_of_mem_toDigits (n := k.natAbs) (by simp [hds])
  rw [toList_toString_int]
  split_ifs with hneg
  · have hread := unsignedNumber_toDigits true k.natAbs hcs
    rw [hds, List.cons_append] at hread
    rw [hds, List.cons_append, List.cons_append, value, if_neg (by decide), if_neg (by decide),
      if_neg (by decide), constant_minus hdigit, Option.none_or, number, if_pos rfl, hread]
    have hk : -(k.natAbs : ℤ) = k := by omega
    simp only [if_true, hk]
  · have hread := unsignedNumber_toDigits false k.natAbs hcs
    have hne {e : Char} (he : e.isDigit = false) : d ≠ e := by
      rintro rfl
      rw [hdigit] at he
      cases he
    rw [hds, List.cons_append] at hread
    rw [hds, List.cons_append, value, if_neg (hne rfl), if_neg (hne rfl), if_neg (hne rfl),
      constant_of_isDigit hdigit, Option.none_or, number, if_neg (hne rfl), hread]
    have hk : (k.natAbs : ℤ) = k := by omega
    simp only [Bool.false_eq_true, if_false, hk]

/-! ### Values -/

theorem skipSpace_of_not {c : Char} (h : isSpace c = false) (cs : List Char) :
    skipSpace (c :: cs) = c :: cs :=
  List.dropWhile_cons_of_neg (by simp [h])

theorem skipSpace_space (cs : List Char) : skipSpace (' ' :: cs) = skipSpace cs :=
  List.dropWhile_cons_of_pos rfl

/-- The text of a value starts with a character that is no space and closes nothing. -/
theorem exists_cons_encode {v : Json} (hv : Plain v) :
    ∃ c cs, encode v = c :: cs ∧ isSpace c = false ∧ c ≠ ']' := by
  cases hv with
  | null => exact ⟨_, _, rfl, rfl, by decide⟩
  | bool b => cases b <;> exact ⟨_, _, rfl, rfl, by decide⟩
  | int n =>
    obtain ⟨d, ds, hds⟩ :=
      List.exists_cons_of_ne_nil (Nat.toDigits_ne_nil (b := 10) (n := n.natAbs))
    have hdigit : d.isDigit := isDigit_of_mem_toDigits (n := n.natAbs) (by simp [hds])
    rw [encode, toList_toString_int, hds]
    split_ifs
    · exact ⟨_, _, rfl, rfl, by decide⟩
    · refine ⟨d, ds, rfl, ?_, ?_⟩
      · by_contra hspace
        simp only [isSpace, decide_eq_true_eq, Bool.not_eq_false] at hspace
        rcases hspace with rfl | rfl | rfl | rfl <;> cases hdigit
      · rintro rfl
        cases hdigit
  | str _ => exact ⟨_, _, rfl, rfl, by decide⟩
  | @arr vs _ => cases vs <;> rw [encode] <;> exact ⟨_, _, rfl, rfl, by decide⟩
  | @obj ms _ _ _ =>
    rcases ms with _ | ⟨⟨k, v⟩, ms⟩ <;> rw [encode] <;> exact ⟨_, _, rfl, rfl, by decide⟩

theorem length_encode_pos {v : Json} (hv : Plain v) : 0 < (encode v).length := by
  obtain ⟨c, cs, h, -⟩ := exists_cons_encode hv
  rw [h]
  exact Nat.succ_pos _

theorem skipSpace_encode {v : Json} (hv : Plain v) (cs : List Char) :
    skipSpace (encode v ++ cs) = encode v ++ cs := by
  obtain ⟨c, cs', h, hspace, -⟩ := exists_cons_encode hv
  rw [h]
  exact skipSpace_of_not hspace _

/-- The scanner reads the text of the value off any text that does not continue a number. -/
def Reads (v : Json) : Prop :=
  ∀ n cs, 2 * (encode v).length ≤ n → Ends cs → value n (encode v ++ cs) = some (v, cs)

theorem ends_encodeItems (vs : List Json) (cs : List Char) : Ends (encodeItems vs ++ cs) := by
  cases vs <;> rw [encodeItems] <;> exact ends_cons _ (by decide)

theorem ends_encodeMembers (ms : List (Text × Json)) (cs : List Char) :
    Ends (encodeMembers ms ++ cs) := by
  rcases ms with _ | ⟨⟨k, v⟩, ms⟩ <;> rw [encodeMembers] <;> exact ends_cons _ (by decide)

/-- One item, and what follows it. -/
theorem items_succ {n : ℕ} {v : Json} (h : Reads v) (hn : 2 * (encode v).length ≤ n)
    {cs : List Char} (hcs : Ends cs) :
    items (n + 1) (encode v ++ cs) = match skipSpace cs with
      | [] => none
      | c :: rest =>
        if c = ',' then (items n (skipSpace rest)).map fun r => (v :: r.1, r.2)
        else if c = ']' then some ([v], rest)
        else none := by
  cases hrest : skipSpace cs <;> simp only [items, h n cs hn hcs, hrest]

theorem items_encode {v : Json} {vs : List Json} (hplain : ∀ w ∈ v :: vs, Plain w)
    (hreads : ∀ w ∈ v :: vs, Reads w) {n : ℕ}
    (hn : 2 * ((encode v).length + (encodeItems vs).length) ≤ n + 1) (cs : List Char) :
    items n (encode v ++ (encodeItems vs ++ cs)) = some (v :: vs, cs) := by
  induction vs generalizing v n with
  | nil =>
    simp only [encodeItems, List.length_singleton] at hn
    obtain ⟨m, rfl⟩ : ∃ m, n = m + 1 := ⟨n - 1, by omega⟩
    rw [items_succ (hreads v (List.mem_cons_self ..)) (by omega) (ends_encodeItems [] cs)]
    rfl
  | cons w ws ih =>
    have hv : 0 < (encode v).length := length_encode_pos (hplain v (List.mem_cons_self ..))
    have hw : Plain w := hplain w (by simp)
    simp only [encodeItems, List.length_append, List.length_cons] at hn
    obtain ⟨m, rfl⟩ : ∃ m, n = m + 1 := ⟨n - 1, by omega⟩
    have hrest : items m (encode w ++ (encodeItems ws ++ cs)) = some (w :: ws, cs) :=
      ih (fun x hx => hplain x (List.mem_cons_of_mem _ hx))
        (fun x hx => hreads x (List.mem_cons_of_mem _ hx)) (by omega)
    rw [items_succ (hreads v (List.mem_cons_self ..)) (by omega) (ends_encodeItems _ cs),
      encodeItems, List.cons_append, skipSpace_of_not rfl]
    simp only [if_true, List.cons_append, skipSpace_space, List.append_assoc, skipSpace_encode hw,
      hrest, Option.map_some]

theorem quote_append (k : Text) (cs : List Char) :
    quote k ++ cs = '"' :: (k.flatMap escape ++ '"' :: cs) := by
  simp [quote]

/-- One member, and what follows it. -/
theorem members_succ {n : ℕ} {k : Text} {v : Json} (hk : k.Scalar) (hv : Plain v) (h : Reads v)
    (hn : 2 * (encode v).length ≤ n) {cs : List Char} (hcs : Ends cs) :
    members (n + 1) (quote k ++ ':' :: ' ' :: (encode v ++ cs)) = match skipSpace cs with
      | [] => none
      | c :: rest =>
        if c = ',' then (members n (skipSpace rest)).map fun r => ((k, v) :: r.1, r.2)
        else if c = '\x7d' then some ([(k, v)], rest)
        else none := by
  rw [quote_append, members, if_pos rfl, string?_quote hk]
  have hcolon : isSpace ':' = false := rfl
  cases hrest : skipSpace cs <;>
    simp only [skipSpace_of_not hcolon, List.head?_cons, List.tail_cons, if_true, skipSpace_space,
      skipSpace_encode hv, h n cs hn hcs, hrest]

theorem members_encode {k : Text} {v : Json} {ms : List (Text × Json)}
    (hkeys : ∀ m ∈ (k, v) :: ms, m.1.Scalar) (hplain : ∀ m ∈ (k, v) :: ms, Plain m.2)
    (hreads : ∀ m ∈ (k, v) :: ms, Reads m.2) {n : ℕ}
    (hn : 2 * ((encode v).length + (encodeMembers ms).length) ≤ n + 1) (cs : List Char) :
    members n (quote k ++ ':' :: ' ' :: (encode v ++ (encodeMembers ms ++ cs)))
      = some ((k, v) :: ms, cs) := by
  have hk : k.Scalar := hkeys _ (List.mem_cons_self ..)
  have hv : Plain v := hplain _ (List.mem_cons_self ..)
  have hread : Reads v := hreads _ (List.mem_cons_self ..)
  have hlen : 0 < (encode v).length := length_encode_pos hv
  induction ms generalizing k v n with
  | nil =>
    simp only [encodeMembers, List.length_singleton] at hn
    obtain ⟨m, rfl⟩ : ∃ m, n = m + 1 := ⟨n - 1, by omega⟩
    rw [members_succ hk hv hread (by omega) (ends_encodeMembers [] cs)]
    rfl
  | cons m' ms ih =>
    obtain ⟨k', v'⟩ := m'
    simp only [encodeMembers, List.length_append, List.length_cons] at hn
    obtain ⟨m, rfl⟩ : ∃ m, n = m + 1 := ⟨n - 1, by omega⟩
    have hv' : Plain v' := hplain (k', v') (by simp)
    have hrest : members m (quote k' ++ ':' :: ' ' :: (encode v' ++ (encodeMembers ms ++ cs)))
        = some ((k', v') :: ms, cs) :=
      ih (fun x hx => hkeys x (List.mem_cons_of_mem _ hx))
        (fun x hx => hplain x (List.mem_cons_of_mem _ hx))
        (fun x hx => hreads x (List.mem_cons_of_mem _ hx)) (by omega) (hkeys (k', v') (by simp))
        hv' (hreads (k', v') (by simp)) (length_encode_pos hv')
    rw [members_succ hk hv hread (by omega) (ends_encodeMembers _ cs), encodeMembers,
      List.cons_append, skipSpace_of_not rfl]
    simp only [if_true, List.cons_append, skipSpace_space, List.append_assoc]
    rw [quote_append, skipSpace_of_not rfl, ← quote_append, hrest]
    rfl

/-- The members of an object with distinct keys are its dictionary. -/
theorem dict_of_nodup {ms : List (Text × Json)} (h : (ms.map Prod.fst).Nodup) : dict ms = ms := by
  have hfold : ∀ done ms : List (Text × Json), ((done ++ ms).map Prod.fst).Nodup →
      ms.foldl setMember done = done ++ ms := by
    intro done ms
    induction ms generalizing done with
    | nil => simp
    | cons m ms ih =>
      intro hnodup
      have hnew : m.1 ∉ done.map Prod.fst := by
        rw [List.map_append, List.map_cons] at hnodup
        intro hmem
        exact (List.nodup_append.mp hnodup).2.2 _ hmem _ (List.mem_cons_self ..) rfl
      rw [List.foldl_cons, setMember, if_neg hnew, ih _ (by simpa using hnodup)]
      simp
  exact hfold [] ms h

/-- **Reading a value back.** -/
theorem Plain.reads {v : Json} (hv : Plain v) : Reads v := by
  induction hv with
  | null =>
    intro n cs hn hcs
    obtain ⟨m, rfl⟩ : ∃ m, n = m + 1 := ⟨n - 1, by simp [encode] at hn; omega⟩
    rw [encode]
    rfl
  | bool b =>
    intro n cs hn hcs
    obtain ⟨m, rfl⟩ : ∃ m, n = m + 1 := ⟨n - 1, by cases b <;> simp [encode] at hn <;> omega⟩
    cases b <;> rw [encode] <;> rfl
  | int k =>
    intro n cs hn hcs
    have hlen := length_encode_pos (.int k)
    obtain ⟨m, rfl⟩ : ∃ m, n = m + 1 := ⟨n - 1, by omega⟩
    rw [encode]
    exact value_int m k hcs
  | str hs =>
    intro n cs hn hcs
    obtain ⟨m, rfl⟩ : ∃ m, n = m + 1 := ⟨n - 1, by simp [encode, quote] at hn; omega⟩
    rw [encode, quote_append, value, if_pos rfl, string?_quote hs]
    rfl
  | @arr vs hplain hreads =>
    intro n cs hn hcs
    cases vs with
    | nil =>
      simp only [encode, List.length_cons] at hn
      obtain ⟨m, rfl⟩ : ∃ m, n = m + 1 := ⟨n - 1, by omega⟩
      rfl
    | cons v vs =>
      simp only [encode, List.length_cons, List.length_append] at hn
      obtain ⟨m, rfl⟩ : ∃ m, n = m + 1 := ⟨n - 1, by omega⟩
      have hv : Plain v := hplain v (List.mem_cons_self ..)
      have hhead : (encode v ++ (encodeItems vs ++ cs)).head? ≠ some ']' := by
        obtain ⟨c, cs', h, -, hc⟩ := exists_cons_encode hv
        rw [h]
        simpa using hc
      rw [encode, List.cons_append, value, if_neg (by decide), if_pos rfl, List.append_assoc,
        skipSpace_encode hv, if_neg hhead, items_encode hplain hreads (by omega)]
      rfl
  | @obj ms hnodup hkeys hplain hreads =>
    intro n cs hn hcs
    rcases ms with _ | ⟨⟨k, v⟩, ms⟩
    · simp only [encode, List.length_cons] at hn
      obtain ⟨m, rfl⟩ : ∃ m, n = m + 1 := ⟨n - 1, by omega⟩
      rfl
    · simp only [encode, List.length_cons, List.length_append] at hn
      obtain ⟨m, rfl⟩ : ∃ m, n = m + 1 := ⟨n - 1, by omega⟩
      have hmembers := members_encode hkeys hplain hreads (n := m) (by omega) cs
      have hskip : ∀ cs, skipSpace (quote k ++ cs) = quote k ++ cs := by
        intro cs
        rw [quote_append]
        exact skipSpace_of_not rfl _
      have hhead : ∀ cs, (quote k ++ cs).head? ≠ some '\x7d' := by
        intro cs
        rw [quote_append]
        simp
      rw [encode, List.cons_append, value, if_neg (by decide), if_neg (by decide), if_pos rfl,
        List.append_assoc, hskip, if_neg (hhead _), List.cons_append, List.cons_append,
        List.append_assoc, hmembers]
      simp only [Option.map_some, dict_of_nodup hnodup]

/-- **The round trip.** -/
theorem loads_dumps {v : Json} (hv : Plain v) : loads (dumps v) = some v := by
  have hskip : skipSpace (encode v) = encode v := by
    simpa using skipSpace_encode hv []
  have hread := hv.reads (2 * (encode v).length + 1) [] (by omega) ends_nil
  rw [List.append_nil] at hread
  rw [loads, dumps, String.toList_ofList, hskip]
  simp only [hread]
  rfl

end Json

end BookingApi
