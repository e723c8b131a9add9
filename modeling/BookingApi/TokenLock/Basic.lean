import Mathlib.Logic.Function.Basic

/-!
# Locks that are released by token and may expire

A history of a set of locks is a list of events, the latest first: a client acquires the lock of a
free key, a client releases a key, which has an effect only while the key is its own, or a key
expires.  `store` is what a key-value server holds after a history, and `Held` says in terms of the
events alone that a client has the lock.

`held_iff_store`: in a valid history the two agree, so that every key has at most one holder
(`Valid.held_unique`).
-/

namespace BookingApi.TokenLock

variable {C K : Type*}

inductive Event (C K : Type*)
  | acquire (c : C) (k : K)
  | release (c : C) (k : K)
  | expire (k : K)

/-- The client has acquired the key, and since then neither released it nor seen it expire. -/
def Held : List (Event C K) → C → K → Prop
  | [], _, _ => False
  | .acquire c' k' :: h, c, k => (c = c' ∧ k = k') ∨ Held h c k
  | .release c' k' :: h, c, k => Held h c k ∧ ¬ (c = c' ∧ k = k')
  | .expire k' :: h, c, k => Held h c k ∧ k ≠ k'

variable [DecidableEq C] [DecidableEq K]

/-- The client stored under each key. -/
def store : List (Event C K) → K → Option C
  | [], _ => none
  | .acquire c k' :: h, k => if k = k' then some c else store h k
  | .release c k' :: h, k => if k = k' ∧ store h k = some c then none else store h k
  | .expire k' :: h, k => if k = k' then none else store h k

/-- Keys are acquired while they are free. -/
def Valid : List (Event C K) → Prop
  | [] => True
  | .acquire _ k :: h => store h k = none ∧ Valid h
  | .release _ _ :: h => Valid h
  | .expire _ :: h => Valid h

variable {h : List (Event C K)} {c c' : C} {k k' : K}

/-- **Holding is being stored.** -/
theorem held_iff_store (hv : Valid h) : Held h c k ↔ store h k = some c := by
  induction h with
  | nil => simp [Held, store]
  | cons e h ih =>
    cases e with
    | acquire c' k' =>
      have ih := ih hv.2
      rw [Held, store, ih]
      by_cases hk : k = k'
      · subst hk
        simp [hv.1, eq_comm]
      · simp [hk]
    | release c' k' =>
      have ih := ih hv
      rw [Held, store, ih]
      by_cases hk : k = k'
      · subst hk
        by_cases hc : store h k = some c'
        · simp [hc, eq_comm]
        · rw [if_neg fun hh => hc hh.2]
          refine and_iff_left_of_imp fun hs => ?_
          rintro ⟨rfl, -⟩
          exact hc hs
      · simp [hk]
    | expire k' =>
      have ih := ih hv
      rw [Held, store, ih]
      by_cases hk : k = k' <;> simp [hk]

/-- **Mutual exclusion**: a key has at most one holder. -/
theorem Valid.held_unique (hv : Valid h) (hc : Held h c k) (hc' : Held h c' k) : c = c' := by
  rw [held_iff_store hv] at hc hc'
  exact Option.some.inj (hc.symm.trans hc')

end BookingApi.TokenLock
