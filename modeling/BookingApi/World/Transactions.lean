import BookingApi.Models.Rows
import BookingApi.World.Frame

/-!
# The open transactions of the world

A world as a state of `Transaction.State`: its committed rows, the changes of each open transaction,
and the ids that the sequences have handed out.  `commit`, `close` and `stage` are the steps of that
state, and a flush that need not wait meets no lock (`unlocked_of_enabled`), so that
`World.Consistent` is kept by every operation whose changes keep the constraints.
-/

namespace BookingApi

open Transaction

/-- The ids that were handed out. -/
def Sequences.allocated (seqs : Sequences) : Set RowKey := {key | key.2 < seqs.next key.1}

theorem Sequences.allocated_subset {seqs seqs' : Sequences}
    (h : ∀ name, seqs.next name ≤ seqs'.next name) : seqs.allocated ⊆ seqs'.allocated :=
  fun key hkey => lt_of_lt_of_le hkey (h key.1)

/-- A change waits for another one that updates the same row or gives the same unique value. -/
theorem Write.conflicts_iff {x y : Write} : x.conflicts y = true ↔
    (x.inserts = false ∧ y.inserts = false ∧ x.target = y.target) ∨
      ∃ v, x.claims = some v ∧ y.claims = some v := by
  cases x <;> cases y <;> simp [Write.conflicts, Write.inserts, Write.target, Write.claims]
  case insertUser.insertUser u u' => exact eq_comm
  case insertSeat.insertSeat s s' =>
    exact ⟨fun h => ⟨h.1.symm, h.2.1.symm, h.2.2.symm⟩, fun h => ⟨h.1.symm, h.2.1.symm, h.2.2.symm⟩⟩
  case updateUser.updateUser id p id' p' =>
    cases p.email <;> cases p'.email <;> simp [eq_comm]

namespace World

variable {w w' : World} {r r' : RequestId} {ws : List Write}

/-- The transactions of a world. -/
def transactions (w : World) : Transaction.State RowKey Row Write RequestId :=
  ⟨w.db.row, w.writesOf, w.sequences.allocated⟩

theorem row_view (w : World) (r : RequestId) :
    (w.view r).row = w.transactions.view schema r :=
  Db.row_applyAll w.db (w.writesOf r)

theorem transactions_stage (w : World) (r : RequestId) (ws : List Write) (seqs : Sequences) :
    ((w.setSequences seqs).stage r ws).transactions
      = w.transactions.stage r ws seqs.allocated := by
  have hwrites : ((w.setSequences seqs).stage r ws).writesOf
      = Function.update w.writesOf r (w.writesOf r ++ ws) := by
    funext r'
    by_cases hr : r' = r
    · subst hr
      rw [Function.update_self, writesOf_stage_self]
      rfl
    · rw [Function.update_of_ne hr, writesOf_stage_of_ne _ hr]
      rfl
  show Transaction.State.mk _ _ _ = _
  rw [hwrites]
  rfl

/-- The end of a transaction leaves the changes of the others. -/
theorem writesOf_close (w : World) (r : RequestId) :
    (w.close r).writesOf = Function.update w.writesOf r [] := by
  funext r'
  by_cases hr : r' = r
  · subst hr
    rw [Function.update_self, writesOf_close_self]
  · rw [Function.update_of_ne hr, writesOf_close_of_ne w hr]

theorem transactions_close (w : World) (r : RequestId) :
    (w.close r).transactions = w.transactions.abort r := by
  show Transaction.State.mk _ _ _ = _
  rw [writesOf_close]
  rfl

theorem transactions_commit (w : World) (r : RequestId) :
    (w.commit r).transactions = w.transactions.commit schema r := by
  have hwrites : (w.commit r).writesOf = Function.update w.writesOf r [] :=
    writesOf_close { w with db := w.view r } r
  show Transaction.State.mk (w.view r).row _ _ = _
  rw [hwrites, row_view]
  rfl

/-- The constraints hold of the committed rows and of every open transaction. -/
def Consistent (w : World) : Prop := Transaction.Consistent schema w.transactions

theorem row_empty (key : RowKey) : Db.empty.row key = none := by
  obtain ⟨name, id⟩ := key
  cases name <;> rfl

theorem valid_empty : schema.Valid Db.empty.row :=
  ⟨fun h => absurd h (by simp [row_empty]), fun h => absurd h (by simp [row_empty])⟩

theorem consistent_initial : initial.Consistent where
  base := valid_empty
  views _ := valid_empty
  apart _ := Schema.Apart.nil_left
  fresh hw := absurd hw List.not_mem_nil
  base_allocated h := absurd (row_empty _) h
  changes_allocated hw := absurd hw List.not_mem_nil

theorem Consistent.commit (h : w.Consistent) : (w.commit r).Consistent := by
  rw [Consistent, transactions_commit]
  exact Transaction.Consistent.commit h

theorem Consistent.close (h : w.Consistent) : (w.close r).Consistent := by
  rw [Consistent, transactions_close]
  exact Transaction.Consistent.abort h

/-- A flush that need not wait meets no lock. -/
theorem unlocked_of_enabled {β : Type} {statement : Statement β} {b : β} {seqs : Sequences}
    (henabled : enabled r β (.flush statement) w = true)
    (h : statement w.now w.sequences (w.view r) = (.ok (b, ws), seqs)) :
    Unlocked schema w.transactions r ws := by
  rw [enabled, h] at henabled
  intro x hx j hj y hy
  have hpending : (j, y) ∈ w.pending := by
    obtain ⟨p, hp, rfl⟩ := List.mem_map.mp (show y ∈ w.writesOf j from hy)
    obtain ⟨hmem, hsender⟩ := List.mem_filter.mp hp
    exact (of_decide_eq_true hsender : p.1 = j) ▸ hmem
  have hfree := List.all_eq_true.mp (List.all_eq_true.mp henabled x hx) (j, y) hpending
  have hno : ¬ y.conflicts x = true := (of_decide_eq_true hfree).resolve_left hj
  rw [Write.conflicts_iff, not_or, not_exists] at hno
  exact ⟨fun hins hins' htarget => hno.1 ⟨hins', hins, htarget⟩,
    fun v hv hv' => hno.2 v ⟨hv, hv'⟩⟩

theorem Consistent.stage (h : w.Consistent) {seqs : Sequences}
    (hstage : Transaction.Stageable schema w.transactions r ws seqs.allocated)
    (hfree : Unlocked schema w.transactions r ws) :
    ((w.setSequences seqs).stage r ws).Consistent := by
  rw [Consistent, transactions_stage]
  exact Transaction.Consistent.stage h hstage hfree

/-- Ids that are handed out and not used change nothing. -/
theorem Consistent.setSequences (h : w.Consistent) {seqs : Sequences}
    (hseqs : ∀ name, w.sequences.next name ≤ seqs.next name) :
    (w.setSequences seqs).Consistent where
  base := h.base
  views := h.views
  apart := h.apart
  fresh := h.fresh
  base_allocated hk := Sequences.allocated_subset hseqs (h.base_allocated hk)
  changes_allocated hw := Sequences.allocated_subset hseqs (h.changes_allocated hw)

/-- The operation of another request leaves the rows that `r` has changed as they were. -/
theorem Consistent.row_commit (h : w.Consistent) (hr : r' ≠ r) {x : Write}
    (hx : x ∈ w.writesOf r') :
    (w.commit r).db.row x.target = w.db.row x.target := by
  have hcommit := Transaction.Consistent.commit_target h hr hx
  rw [← transactions_commit] at hcommit
  exact hcommit

end World

end BookingApi
