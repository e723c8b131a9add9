import Mathlib.Data.List.Basic
import Mathlib.Data.Int.Notation

/-!
# Decimal texts and texts with a separator

The decimal text of an integer determines it (`toString_int_injective`) and consists of digits and
perhaps a sign.  A text that is split at the first separator determines its parts
(`eq_of_separated`).
-/

namespace BookingApi

/-! ### Texts with a separator -/

/-- Two lists that are split at the first separator are split into the same parts. -/
theorem append_cons_inj {α : Type*} {c : α} {x y z w : List α} (hx : c ∉ x) (hy : c ∉ y)
    (h : x ++ c :: z = y ++ c :: w) : x = y ∧ z = w := by
  induction x generalizing y with
  | nil =>
    cases y with
    | nil => exact ⟨rfl, (List.cons.inj h).2⟩
    | cons d y => exact absurd (List.cons.inj h).1 (List.ne_of_not_mem_cons hy)
  | cons d x ih =>
    cases y with
    | nil => exact absurd (List.cons.inj h).1.symm (List.ne_of_not_mem_cons hx)
    | cons e y =>
      obtain ⟨rfl, htail⟩ := List.cons.inj h
      obtain ⟨rfl, rfl⟩ :=
        ih (List.not_mem_of_not_mem_cons hx) (List.not_mem_of_not_mem_cons hy) htail
      exact ⟨rfl, rfl⟩

theorem eq_of_separated {c : Char} {s s' t t' : String} (hs : c ∉ s.toList) (hs' : c ∉ s'.toList)
    (h : s ++ String.singleton c ++ t = s' ++ String.singleton c ++ t') : s = s' ∧ t = t' := by
  have hlist := congrArg String.toList h
  simp only [String.toList_append, String.toList_singleton, List.append_assoc,
    List.singleton_append] at hlist
  obtain ⟨h1, h2⟩ := append_cons_inj hs hs' hlist
  exact ⟨String.toList_inj.mp h1, String.toList_inj.mp h2⟩

/-! ### Decimal texts -/

theorem isDigit_of_mem_toDigits {n : ℕ} {c : Char} (h : c ∈ Nat.toDigits 10 n) : c.isDigit :=
  Nat.isDigit_of_mem_toDigits (by decide) (by decide) h

theorem toDigits_injective : Function.Injective (Nat.toDigits 10) := by
  intro n m h
  rw [← Nat.ofDigitChars_ten_toDigits (n := n), h, Nat.ofDigitChars_ten_toDigits]

theorem toString_nat_injective : Function.Injective (toString : ℕ → String) := by
  intro n m h
  have hdigits : Nat.toDigits 10 n = Nat.toDigits 10 m := by
    simpa [toString, Nat.toList_repr] using congrArg String.toList h
  exact toDigits_injective hdigits

theorem toList_toString_int (n : ℤ) : (toString n).toList
    = if n < 0 then '-' :: Nat.toDigits 10 n.natAbs else Nat.toDigits 10 n.natAbs := by
  cases n with
  | ofNat m => simp [toString, Int.repr, Nat.toList_repr]
  | negSucc m => simp [toString, Int.repr, Nat.toList_repr, Int.negSucc_lt_zero]

/-- The text of an integer has digits and perhaps a sign. -/
theorem notMem_toString_int {c : Char} (hc : c.isDigit = false) (hsign : c ≠ '-') (n : ℤ) :
    c ∉ (toString n).toList := by
  intro h
  have hdigits : c ∈ Nat.toDigits 10 n.natAbs := by
    rw [toList_toString_int] at h
    split_ifs at h
    · exact (List.mem_cons.mp h).resolve_left hsign
    · exact h
  rw [isDigit_of_mem_toDigits hdigits] at hc
  cases hc

theorem toString_int_injective : Function.Injective (toString : ℤ → String) := by
  have hsign : ∀ k : ℕ, '-' ∉ Nat.toDigits 10 k := by
    intro k h
    cases isDigit_of_mem_toDigits h
  intro n m h
  have hlist := congrArg String.toList h
  rw [toList_toString_int, toList_toString_int] at hlist
  split_ifs at hlist with hn hm hm
  · have habs := toDigits_injective (List.cons.inj hlist).2
    omega
  · exact absurd (hlist ▸ List.mem_cons_self ..) (hsign m.natAbs)
  · exact absurd (hlist ▸ List.mem_cons_self ..) (hsign n.natAbs)
  · have habs := toDigits_injective hlist
    omega

end BookingApi
