import Mathlib.Data.List.Nodup

/-!
# Tables with a primary key

A `Table α` is a list of rows in which no two rows have the same key; the constraint is a field, so
that a table with a duplicate key cannot be built.  Inserting a row whose key is taken changes
nothing, and an update is a function that keeps the key.

Rows are looked up by key (`find?_eq_some_iff`); `rows_insert`, `mem_modify` and `find?_modify` say
what the two writes do.
-/

namespace BookingApi

/-- Rows of type `α` are identified by a key in `κ`. -/
class Keyed (α : Type*) (κ : outParam Type*) where
  key : α → κ

open Keyed (key)

/-- A list of rows with pairwise distinct keys. -/
structure Table (α : Type*) {κ : Type*} [Keyed α κ] where
  rows : List α
  nodup : (rows.map key).Nodup

namespace Table

variable {α κ : Type*} [Keyed α κ]

/-- The table without rows. -/
def empty : Table α := ⟨[], List.nodup_nil⟩

@[simp] theorem rows_empty : (empty : Table α).rows = [] := rfl

/-- Two rows with the same key are one row. -/
theorem eq_of_key_eq {t : Table α} {a b : α} (ha : a ∈ t.rows) (hb : b ∈ t.rows)
    (h : key a = key b) : a = b :=
  List.inj_on_of_nodup_map t.nodup ha hb h

variable [DecidableEq κ]

/-- The row with a given key. -/
def find? (t : Table α) (k : κ) : Option α := t.rows.find? fun a => key a = k

/-- Append a row; nothing happens if its key is taken. -/
def insert (t : Table α) (a : α) : Table α :=
  if h : key a ∈ t.rows.map key then t
  else ⟨t.rows ++ [a], by
    rw [List.map_append, List.map_singleton]
    exact List.nodup_append_comm.mp (List.nodup_cons.mpr ⟨h, t.nodup⟩)⟩

/-- Rewrite the row with key `k`, keeping its key. -/
def modify (t : Table α) (k : κ) (f : α → α) (hf : ∀ a, key (f a) = key a) : Table α :=
  ⟨t.rows.map fun a => if key a = k then f a else a, by
    have h : key ∘ (fun a : α => if key a = k then f a else a) = key := by
      funext a
      simp only [Function.comp_apply]
      split_ifs
      · exact hf a
      · rfl
    rw [List.map_map, h]
    exact t.nodup⟩

theorem find?_eq_some_iff {t : Table α} {k : κ} {a : α} :
    t.find? k = some a ↔ a ∈ t.rows ∧ key a = k := by
  constructor
  · intro h
    exact ⟨List.mem_of_find?_eq_some h, by simpa using List.find?_some h⟩
  · rintro ⟨ha, rfl⟩
    obtain ⟨b, hb⟩ := Option.isSome_iff_exists.mp
      (List.find?_isSome.mpr ⟨a, ha, decide_eq_true rfl⟩ :
        (t.rows.find? fun x => decide (key x = key a)).isSome)
    have hkey : key b = key a := by simpa using List.find?_some hb
    rw [find?, hb, eq_of_key_eq (List.mem_of_find?_eq_some hb) ha hkey]

theorem find?_eq_none_iff {t : Table α} {k : κ} :
    t.find? k = none ↔ ∀ a ∈ t.rows, key a ≠ k := by
  simp [find?]

/-! ### Inserting a row -/

theorem rows_insert {t : Table α} {a : α} (h : ∀ b ∈ t.rows, key b ≠ key a) :
    (t.insert a).rows = t.rows ++ [a] := by
  have hmem : key a ∉ t.rows.map key := by
    rw [List.mem_map]
    rintro ⟨b, hb, hk⟩
    exact h b hb hk
  rw [insert, dite_cond_eq_false (eq_false hmem)]

/-- An insertion removes nothing, and adds at most the row. -/
theorem subset_insert (t : Table α) (a : α) : t.rows ⊆ (t.insert a).rows := by
  rw [insert]
  split_ifs
  · exact List.Subset.refl _
  · exact List.subset_append_left _ _

/-- Rows with distinct keys that are not taken are appended in order. -/
theorem rows_foldl_insert {t : Table α} {l : List α} (hnodup : (l.map key).Nodup)
    (hfresh : ∀ a ∈ l, ∀ b ∈ t.rows, key b ≠ key a) : (l.foldl insert t).rows = t.rows ++ l := by
  induction l generalizing t with
  | nil => simp
  | cons a l ih =>
    rw [List.map_cons, List.nodup_cons] at hnodup
    have hrows : (t.insert a).rows = t.rows ++ [a] :=
      rows_insert (hfresh a (List.mem_cons_self ..))
    rw [List.foldl_cons, ih hnodup.2, hrows, List.append_assoc, List.singleton_append]
    intro b hb d hd
    rw [hrows, List.mem_append, List.mem_singleton] at hd
    rcases hd with hd | rfl
    · exact hfresh b (List.mem_cons_of_mem _ hb) d hd
    · intro he
      exact hnodup.1 (he ▸ List.mem_map_of_mem hb)

theorem mem_of_mem_insert {t : Table α} {a b : α} (h : b ∈ (t.insert a).rows) :
    b ∈ t.rows ∨ b = a := by
  rw [insert] at h
  split_ifs at h
  · exact Or.inl h
  · simpa using h

/-- A row that an insertion adds has a new key. -/
theorem key_ne_of_mem_insert {t : Table α} {a b : α} (h : b ∈ (t.insert a).rows) (hb : b ∉ t.rows) :
    b = a ∧ ∀ c ∈ t.rows, key c ≠ key a := by
  rw [insert] at h
  split_ifs at h with hmem
  · exact absurd h hb
  · refine ⟨(mem_of_mem_insert (by rw [insert, dif_neg hmem]; exact h)).resolve_left hb, ?_⟩
    exact fun c hc hkey => hmem (List.mem_map.mpr ⟨c, hc, hkey⟩)

/-- A row that was found is found among more rows. -/
theorem exists_find?_of_subset {t t' : Table α} (h : t.rows ⊆ t'.rows) {k : κ}
    (hk : ∃ a, t.find? k = some a) : ∃ a, t'.find? k = some a := by
  obtain ⟨a, ha⟩ := hk
  rw [find?_eq_some_iff] at ha
  exact ⟨a, find?_eq_some_iff.mpr ⟨h ha.1, ha.2⟩⟩

/-- After an insertion there is a row with the key. -/
theorem exists_find?_insert (t : Table α) (a : α) : ∃ b, (t.insert a).find? (key a) = some b := by
  by_cases h : ∃ b ∈ t.rows, key b = key a
  · obtain ⟨b, hb, hk⟩ := h
    exact ⟨b, find?_eq_some_iff.mpr ⟨subset_insert t a hb, hk⟩⟩
  · have hrows : (t.insert a).rows = t.rows ++ [a] :=
      rows_insert fun b hb hk => h ⟨b, hb, hk⟩
    exact ⟨a, find?_eq_some_iff.mpr ⟨by simp [hrows], rfl⟩⟩

/-- The row with a key after an insertion: the old one, if there was one. -/
theorem find?_insert (t : Table α) (a : α) (k : κ) :
    (t.insert a).find? k = if key a = k then (t.find? k).or (some a) else t.find? k := by
  by_cases hmem : key a ∈ t.rows.map key
  · have hold : t.insert a = t := dif_pos hmem
    rw [hold]
    split_ifs with hk
    · obtain ⟨b, hb, hkey⟩ := List.mem_map.mp hmem
      rw [find?_eq_some_iff.mpr ⟨hb, hkey.trans hk⟩, Option.some_or]
    · rfl
  · have hrows : (t.insert a).rows = t.rows ++ [a] :=
      rows_insert fun b hb hkey => hmem (List.mem_map.mpr ⟨b, hb, hkey⟩)
    rw [find?, hrows, List.find?_append, find?]
    split_ifs with hk
    · simp [hk]
    · simp [hk]

/-! ### Rewriting a row -/

theorem mem_modify {t : Table α} {k : κ} {f : α → α} {hf : ∀ a, key (f a) = key a} {b : α} :
    b ∈ (t.modify k f hf).rows ↔ ∃ a ∈ t.rows, b = if key a = k then f a else a := by
  rw [modify, List.mem_map]
  exact ⟨fun ⟨a, ha, h⟩ => ⟨a, ha, h.symm⟩, fun ⟨a, ha, h⟩ => ⟨a, ha, h.symm⟩⟩

theorem mem_modify_of_mem {t : Table α} {k : κ} {f : α → α} (hf : ∀ a, key (f a) = key a) {a : α}
    (ha : a ∈ t.rows) : (if key a = k then f a else a) ∈ (t.modify k f hf).rows :=
  mem_modify.mpr ⟨a, ha, rfl⟩

theorem find?_modify {t : Table α} {k k' : κ} {f : α → α} {hf : ∀ a, key (f a) = key a} :
    (t.modify k f hf).find? k' = (t.find? k').map fun a => if key a = k then f a else a := by
  have h : (fun a => decide (key a = k')) ∘ (fun a : α => if key a = k then f a else a)
      = fun a => decide (key a = k') := by
    funext a
    simp only [Function.comp_apply]
    split_ifs
    · rw [hf]
    · rfl
  rw [find?, modify, List.find?_map, h, find?]

omit [DecidableEq κ] in
theorem exists_of_map_subset {β : Type*} {t t' : Table α} {f : α → β}
    (h : t.rows.map f ⊆ t'.rows.map f) {a : α} (ha : a ∈ t.rows) : ∃ b ∈ t'.rows, f b = f a := by
  simpa using h (List.mem_map_of_mem ha)

/-- An insertion keeps every function of the rows. -/
theorem map_subset_insert {β : Type*} (f : α → β) (t : Table α) (a : α) :
    t.rows.map f ⊆ (t.insert a).rows.map f :=
  List.map_subset f (t.subset_insert a)

/-- A rewriting keeps what it does not rewrite. -/
theorem map_subset_modify {β : Type*} {f : α → β} (t : Table α) (k : κ) (g : α → α)
    (hg : ∀ a, key (g a) = key a) (h : ∀ a, f (g a) = f a) :
    t.rows.map f ⊆ (t.modify k g hg).rows.map f := by
  intro x hx
  obtain ⟨a, ha, rfl⟩ := List.mem_map.mp hx
  refine List.mem_map.mpr ⟨_, mem_modify.mpr ⟨a, ha, rfl⟩, ?_⟩
  split_ifs
  · exact h a
  · rfl

end Table

end BookingApi
