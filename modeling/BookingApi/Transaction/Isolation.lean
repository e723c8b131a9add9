import BookingApi.Transaction.Rows
import Mathlib.Data.Set.Basic

/-!
# Isolation

Transactions over one store: each has staged changes that only itself sees until it commits, and a
commit makes them to the rows that are committed by then (READ COMMITTED).  A transaction stages
changes that keep the constraints in its own view; it inserts rows under keys that were never handed
out before, and it waits for a transaction that has updated the same row or claimed the same unique
value.

`Consistent` is the invariant that the three steps keep (`Consistent.stage`, `Consistent.commit`,
`Consistent.abort`): the constraints hold of the committed rows and of every view, the open
transactions are apart from each other, and no insertion is lost.
-/

namespace BookingApi.Transaction

/-- The committed rows, the staged changes of every transaction, and the keys handed out so far. -/
structure State (κ ρ ω ι : Type*) where
  base : Store κ ρ
  changes : ι → List ω
  allocated : Set κ

variable {κ ρ ω ν ι : Type*} [DecidableEq κ] [DecidableEq ι] {S : Schema κ ρ ω ν}
  {T : State κ ρ ω ι} {i j : ι} {ws : List ω} {k : κ} {w : ω}

namespace State

/-- What a transaction sees. -/
def view (T : State κ ρ ω ι) (S : Schema κ ρ ω ν) (i : ι) : Store κ ρ :=
  S.applyAll T.base (T.changes i)

/-- Add changes to a transaction. -/
def stage (T : State κ ρ ω ι) (i : ι) (ws : List ω) (allocated : Set κ) : State κ ρ ω ι :=
  ⟨T.base, Function.update T.changes i (T.changes i ++ ws), allocated⟩

def commit (T : State κ ρ ω ι) (S : Schema κ ρ ω ν) (i : ι) : State κ ρ ω ι :=
  ⟨T.view S i, Function.update T.changes i [], T.allocated⟩

def abort (T : State κ ρ ω ι) (i : ι) : State κ ρ ω ι :=
  ⟨T.base, Function.update T.changes i [], T.allocated⟩

omit [DecidableEq κ] in
theorem changes_stage_self (allocated : Set κ) :
    (T.stage i ws allocated).changes i = T.changes i ++ ws := Function.update_self ..

omit [DecidableEq κ] in
theorem changes_stage_of_ne (h : j ≠ i) (allocated : Set κ) :
    (T.stage i ws allocated).changes j = T.changes j := Function.update_of_ne h _ _

theorem view_stage_self (allocated : Set κ) :
    (T.stage i ws allocated).view S i = S.applyAll (T.view S i) ws := by
  simp [view, stage, Schema.applyAll_append]

theorem view_stage_of_ne (h : j ≠ i) (allocated : Set κ) :
    (T.stage i ws allocated).view S j = T.view S j := by
  simp [view, stage, h]

theorem view_commit_self : (T.commit S i).view S i = T.view S i := by
  simp [view, commit]

theorem view_commit_of_ne (h : j ≠ i) :
    (T.commit S i).view S j = S.applyAll (T.view S i) (T.changes j) := by
  simp [view, commit, h]

theorem view_abort_self : (T.abort i).view S i = T.base := by
  simp [view, abort]

theorem view_abort_of_ne (h : j ≠ i) : (T.abort i).view S j = T.view S j := by
  simp [view, abort, h]

end State

open State

/-- The constraints hold, the open transactions are apart, and every inserted row has a key of its
own. -/
structure Consistent (S : Schema κ ρ ω ν) (T : State κ ρ ω ι) : Prop where
  base : S.Valid T.base
  views : ∀ i, S.Valid (T.view S i)
  apart : ∀ {i j}, i ≠ j → S.Apart (T.changes i) (T.changes j)
  fresh : ∀ {i w}, w ∈ T.changes i → S.inserts w = true → T.base (S.target w) = none
  base_allocated : ∀ {k}, T.base k ≠ none → k ∈ T.allocated
  changes_allocated : ∀ {i w}, w ∈ T.changes i → S.target w ∈ T.allocated

/-- Changes that a transaction may stage now. -/
structure Stageable (S : Schema κ ρ ω ν) (T : State κ ρ ω ι) (i : ι) (ws : List ω)
    (allocated : Set κ) : Prop where
  grows : T.allocated ⊆ allocated
  inserts : ∀ w ∈ ws, S.inserts w = true → S.target w ∉ T.allocated ∧ S.target w ∈ allocated
  updates : ∀ w ∈ ws, S.inserts w = false → T.view S i (S.target w) ≠ none
  valid : S.Valid (S.applyAll (T.view S i) ws)

/-- No other transaction has updated a row that the changes update, or claimed a value that they
claim. -/
def Unlocked (S : Schema κ ρ ω ν) (T : State κ ρ ω ι) (i : ι) (ws : List ω) : Prop :=
  ∀ w ∈ ws, ∀ j, j ≠ i → ∀ w' ∈ T.changes j,
    (S.inserts w = false → S.inserts w' = false → S.target w' ≠ S.target w) ∧
    ∀ v, S.claims w' = some v → S.claims w ≠ some v

namespace Consistent

omit [DecidableEq ι] in
/-- Every row that a transaction sees has a key that was handed out. -/
theorem view_allocated (h : Consistent S T) (hk : T.view S i k ≠ none) : k ∈ T.allocated := by
  by_cases hbase : T.base k = none
  · obtain ⟨w, hw, -, rfl⟩ := Schema.exists_insert hk hbase
    exact h.changes_allocated hw
  · exact h.base_allocated hbase

omit [DecidableEq ι] in
/-- A transaction does not see the rows that another one has inserted. -/
theorem view_eq_none (h : Consistent S T) (hij : i ≠ j) (hw : w ∈ T.changes j)
    (hins : S.inserts w = true) : T.view S i (S.target w) = none := by
  rw [view, (h.apart hij).symm.applyAll_target hw]
  exact h.fresh hw hins

omit [DecidableEq ι] in
/-- The staged changes are apart from those of the other transactions. -/
theorem apart_stage (h : Consistent S T) {allocated : Set κ}
    (hstage : Stageable S T i ws allocated) (hfree : Unlocked S T i ws) (hij : j ≠ i) :
    S.Apart ws (T.changes j) := by
  intro w hw w' hw'
  obtain ⟨hrow, hvalue⟩ := hfree w hw j hij w' hw'
  refine ⟨fun htarget => ?_, fun v hv hv' => hvalue v hv' hv⟩
  cases hins : S.inserts w with
  | true => exact (hstage.inserts w hw hins).1 (htarget ▸ h.changes_allocated hw')
  | false =>
    cases hins' : S.inserts w' with
    | true =>
      have hsees := hstage.updates w hw hins
      rw [htarget] at hsees
      exact hsees (h.view_eq_none hij.symm hw' hins')
    | false => exact hrow hins hins' htarget.symm

theorem stage (h : Consistent S T) {allocated : Set κ}
    (hstage : Stageable S T i ws allocated) (hfree : Unlocked S T i ws) :
    Consistent S (T.stage i ws allocated) where
  base := h.base
  views j := by
    by_cases hj : j = i
    · subst hj
      rw [view_stage_self]
      exact hstage.valid
    · rw [view_stage_of_ne hj]
      exact h.views j
  apart {j j'} hne := by
    -- only the changes of the transaction that writes are new
    have happart (j : ι) (hj : j ≠ i) : S.Apart (T.changes i ++ ws) (T.changes j) :=
      (h.apart hj.symm).append_left (h.apart_stage hstage hfree hj)
    by_cases hj : j = i
    · subst hj
      rw [changes_stage_self, changes_stage_of_ne hne.symm]
      exact happart j' hne.symm
    · rw [changes_stage_of_ne hj]
      by_cases hj' : j' = i
      · subst hj'
        rw [changes_stage_self]
        exact (happart j hj).symm
      · rw [changes_stage_of_ne hj']
        exact h.apart hne
  fresh {j w} hw hins := by
    by_cases hj : j = i
    · subst hj
      rw [changes_stage_self, List.mem_append] at hw
      rcases hw with hw | hw
      · exact h.fresh hw hins
      · -- a new row has a key that was never allocated
        by_contra hne
        exact (hstage.inserts w hw hins).1 (h.base_allocated hne)
    · rw [changes_stage_of_ne hj] at hw
      exact h.fresh hw hins
  base_allocated hk := hstage.grows (h.base_allocated hk)
  changes_allocated {j w} hw := by
    by_cases hj : j = i
    · subst hj
      rw [changes_stage_self, List.mem_append] at hw
      rcases hw with hw | hw
      · exact hstage.grows (h.changes_allocated hw)
      · cases hins : S.inserts w with
        | true => exact (hstage.inserts w hw hins).2
        | false => exact hstage.grows (h.view_allocated (hstage.updates w hw hins))
    · rw [changes_stage_of_ne hj] at hw
      exact hstage.grows (h.changes_allocated hw)

/-- A commit leaves the rows that another transaction has changed as they were. -/
theorem commit_target (h : Consistent S T) (hij : j ≠ i) (hw : w ∈ T.changes j) :
    (T.commit S i).base (S.target w) = T.base (S.target w) :=
  (h.apart hij).applyAll_target hw

omit [DecidableEq κ] in
theorem mem_changes_of_ended {w : ω}
    (hw : w ∈ Function.update T.changes i [] j) : j ≠ i ∧ w ∈ T.changes j := by
  by_cases hj : j = i
  · subst hj
    rw [Function.update_self] at hw
    exact absurd hw List.not_mem_nil
  · rw [Function.update_of_ne hj] at hw
    exact ⟨hj, hw⟩

theorem apart_of_ended (h : Consistent S T) {j j' : ι} (hne : j ≠ j') :
    S.Apart (Function.update T.changes i [] j) (Function.update T.changes i [] j') := by
  intro w hw w' hw'
  exact h.apart hne w (mem_changes_of_ended hw).2 w' (mem_changes_of_ended hw').2

theorem commit (h : Consistent S T) : Consistent S (T.commit S i) where
  base := h.views i
  views j := by
    by_cases hj : j = i
    · subst hj
      rw [view_commit_self]
      exact h.views j
    · rw [view_commit_of_ne hj]
      exact .merge (h.apart fun he => hj he.symm) (h.views i) (h.views j)
  apart := h.apart_of_ended
  fresh {j w} hw hins := by
    obtain ⟨hj, hw⟩ := mem_changes_of_ended hw
    rw [h.commit_target hj hw]
    exact h.fresh hw hins
  base_allocated hk := h.view_allocated hk
  changes_allocated hw := h.changes_allocated (mem_changes_of_ended hw).2

theorem abort (h : Consistent S T) : Consistent S (T.abort i) where
  base := h.base
  views j := by
    by_cases hj : j = i
    · subst hj
      rw [view_abort_self]
      exact h.base
    · rw [view_abort_of_ne hj]
      exact h.views j
  apart := h.apart_of_ended
  fresh hw := h.fresh (mem_changes_of_ended hw).2
  base_allocated := h.base_allocated
  changes_allocated hw := h.changes_allocated (mem_changes_of_ended hw).2

end Consistent

end BookingApi.Transaction
