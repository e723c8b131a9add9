import BookingApi.Table.Basic
import Mathlib.Data.List.Perm.Subperm

/-!
# Counting the rows of a query

A query for the rows with one of several keys.  As keys are unique, the number of its rows tells
whether the keys are distinct and each of them has such a row (`length_selectKeys_eq_iff`); nothing
can make up for a key that is repeated or has none.
-/

namespace BookingApi.Table

open Keyed (key)

variable {α κ : Type*} [Keyed α κ] [DecidableEq κ] {t : Table α} {ks : List κ} {p : α → Prop}
  [DecidablePred p] {a : α} {k : κ}

/-- The rows with one of the keys that satisfy a condition. -/
def selectKeys (t : Table α) (ks : List κ) (p : α → Prop) [DecidablePred p] : List α :=
  t.rows.filter fun a => key a ∈ ks ∧ p a

theorem mem_selectKeys : a ∈ t.selectKeys ks p ↔ a ∈ t.rows ∧ key a ∈ ks ∧ p a := by
  rw [selectKeys, List.mem_filter, decide_eq_true_eq]

theorem nodup_map_selectKeys : ((t.selectKeys ks p).map key).Nodup :=
  t.nodup.sublist (List.filter_sublist.map _)

theorem mem_map_selectKeys :
    k ∈ (t.selectKeys ks p).map key ↔ k ∈ ks ∧ ∃ a ∈ t.rows, key a = k ∧ p a := by
  rw [List.mem_map]
  constructor
  · rintro ⟨a, ha, rfl⟩
    obtain ⟨hrow, hk, hp⟩ := mem_selectKeys.mp ha
    exact ⟨hk, a, hrow, rfl, hp⟩
  · rintro ⟨hk, a, hrow, rfl, hp⟩
    exact ⟨a, mem_selectKeys.mpr ⟨hrow, hk, hp⟩, rfl⟩

theorem map_selectKeys_subset : (t.selectKeys ks p).map key ⊆ ks := fun _ hk =>
  (mem_map_selectKeys.mp hk).1

/-- If there are as many rows as keys, they are the rows with the keys. -/
theorem map_selectKeys_perm (h : (t.selectKeys ks p).length = ks.length) :
    ((t.selectKeys ks p).map key).Perm ks := by
  have hlength : ((t.selectKeys ks p).map key).length = ks.length := by rw [List.length_map, h]
  have hsub : ((t.selectKeys ks p).map key).Subperm ks :=
    nodup_map_selectKeys.subperm map_selectKeys_subset
  exact hsub.perm_of_length_le (Nat.le_of_eq hlength.symm)

/-- **Counting is exact.** -/
theorem length_selectKeys_eq_iff :
    (t.selectKeys ks p).length = ks.length ↔
      ks.Nodup ∧ ∀ k ∈ ks, ∃ a ∈ t.rows, key a = k ∧ p a := by
  constructor
  · intro hlength
    have hperm := map_selectKeys_perm hlength
    exact ⟨hperm.nodup nodup_map_selectKeys,
      fun k hk => (mem_map_selectKeys.mp (hperm.symm.subset hk)).2⟩
  · rintro ⟨hnodup, hrows⟩
    have hperm : ((t.selectKeys ks p).map key).Perm ks :=
      (List.perm_ext_iff_of_nodup nodup_map_selectKeys hnodup).mpr fun k =>
        mem_map_selectKeys.trans ⟨fun h => h.1, fun hk => ⟨hk, hrows k hk⟩⟩
    rw [← hperm.length_eq, List.length_map]

end BookingApi.Table
