import BookingApi.Async.Program
import Mathlib.Data.Nat.Notation

/-!
# Retries

A loop that tries a body a number of times, until it returns something.  `run_retry`: the attempts
that return nothing lead from state to state, and what is left is the loop with fewer attempts.
-/

namespace BookingApi.Async.Program

variable {Op : Type → Type 1} {ε α σ : Type} {exec : ∀ β : Type, Op β → σ → Except ε β × σ}
  {body : ℕ → Program Op ε (Option α)} {giveUp : Program Op ε α} {s : ℕ → σ} {t : σ} {i k n : ℕ}

/-- Try the body `n` times, with the numbers from `i` on, and then give up. -/
def retry (body : ℕ → Program Op ε (Option α)) (giveUp : Program Op ε α) :
    ℕ → ℕ → Program Op ε α
  | 0, _ => giveUp
  | n + 1, i => (body i).bind fun
    | some a => ret a
    | none => retry body giveUp n (i + 1)

/-- The attempts that return nothing. -/
theorem run_retry (h : ∀ j < k, (body (i + j)).run exec (s j) = (.ok none, s (j + 1))) :
    (retry body giveUp (k + n) i).run exec (s 0)
      = (retry body giveUp n (i + k)).run exec (s k) := by
  induction k generalizing n with
  | zero => rw [Nat.zero_add, Nat.add_zero]
  | succ k ih =>
    have hearlier : ∀ j < k, (body (i + j)).run exec (s j) = (.ok none, s (j + 1)) :=
      fun j hj => h j (Nat.lt_succ_of_lt hj)
    have hlast := h k (Nat.lt_succ_self k)
    rw [Nat.add_right_comm, Nat.add_assoc, ih hearlier, retry, run_bind, hlast]
    rfl

/-- An attempt returns something. -/
theorem run_retry_of_some {a : α}
    (h : ∀ j < k, (body (i + j)).run exec (s j) = (.ok none, s (j + 1))) (hk : k < n)
    (hsome : (body (i + k)).run exec (s k) = (.ok (some a), t)) :
    (retry body giveUp n i).run exec (s 0) = (.ok a, t) := by
  obtain ⟨m, rfl⟩ := Nat.exists_eq_add_of_lt hk
  rw [Nat.add_assoc, run_retry h, retry, run_bind, hsome]
  rfl

/-- An attempt raises. -/
theorem run_retry_of_error {e : ε}
    (h : ∀ j < k, (body (i + j)).run exec (s j) = (.ok none, s (j + 1))) (hk : k < n)
    (herror : (body (i + k)).run exec (s k) = (.error e, t)) :
    (retry body giveUp n i).run exec (s 0) = (.error e, t) := by
  obtain ⟨m, rfl⟩ := Nat.exists_eq_add_of_lt hk
  rw [Nat.add_assoc, run_retry h, retry, run_bind, herror]

/-- No attempt returns anything. -/
theorem run_retry_of_none
    (h : ∀ j < n, (body (i + j)).run exec (s j) = (.ok none, s (j + 1))) :
    (retry body giveUp n i).run exec (s 0) = giveUp.run exec (s n) := by
  have hrun : (retry body giveUp (n + 0) i).run exec (s 0)
      = (retry body giveUp 0 (i + n)).run exec (s n) := run_retry h
  rwa [Nat.add_zero] at hrun

end BookingApi.Async.Program
