import Mathlib.Data.Option.Basic
import Mathlib.Logic.Basic

/-!
# Updates of a loaded row

A session loads a row, assigns the values of a request to some of its columns, and sends the columns
whose values have changed.  When two sessions have loaded the same row, the second update is stale:
it leaves out a column whose value is the loaded one, although the first update has changed it.

`serial_iff_not_skewed`: the row after both updates is the one of some serial order exactly if they
are not `Skewed`.
-/

namespace BookingApi.StaleUpdate

variable {κ : Type*} {V : κ → Type*}

/-- Values for some columns. -/
abbrev Columns (V : κ → Type*) := ∀ k, Option (V k)

/-- The row with the values set. -/
def assign (values : Columns V) (row : ∀ k, V k) : ∀ k, V k := fun k => (values k).getD (row k)

/-- What is sent of the values for a loaded row: a value is left out only if it is loaded. -/
structure Sends (loaded : ∀ k, V k) (values sent : Columns V) : Prop where
  sound : ∀ k v, sent k = some v → values k = some v
  omitted : ∀ k v, values k = some v → sent k = none → v = loaded k

variable {loaded : ∀ k, V k} {first second sent₁ sent₂ : Columns V}

theorem Sends.getD_eq (h : Sends loaded first sent₁) (k : κ) :
    (sent₁ k).getD (loaded k) = (first k).getD (loaded k) := by
  cases hsent : sent₁ k with
  | some v => rw [h.sound k v hsent]
  | none =>
    cases hfirst : first k with
    | none => rfl
    | some v => exact (h.omitted k v hfirst hsent).symm

/-- For the loaded row it makes no difference what is left out. -/
theorem Sends.assign_eq (h : Sends loaded first sent₁) :
    assign sent₁ loaded = assign first loaded :=
  funext h.getD_eq

/-! ### Two updates of one loaded row -/

/-- A column comes out as in the serial order of the updates, unless the second one leaves it out
and the first one sets another value. -/
theorem assign_assign_apply_eq_iff (h₁ : Sends loaded first sent₁) (h₂ : Sends loaded second sent₂)
    (k : κ) :
    assign sent₂ (assign sent₁ loaded) k = assign second (assign first loaded) k ↔
      ∀ v v', first k = some v → second k = some v' → sent₂ k = none → v = v' := by
  simp only [assign, h₁.getD_eq]
  cases hsent : sent₂ k with
  | some v' =>
    rw [h₂.sound k v' hsent]
    exact iff_of_true rfl nofun
  | none =>
    cases hsecond : second k with
    | none => exact iff_of_true rfl nofun
    | some v' =>
      obtain rfl := h₂.omitted k v' hsecond hsent
      cases hfirst : first k with
      | none => exact iff_of_true rfl nofun
      | some v =>
        refine ⟨fun h w w' hw hw' _ => ?_, fun h => h v _ rfl rfl rfl⟩
        obtain rfl := Option.some.inj hw
        obtain rfl := Option.some.inj hw'
        exact h

/-- It comes out as in the other order, unless the second one sends it and the first one sets
another value. -/
theorem assign_assign_apply_eq_swap_iff (h₁ : Sends loaded first sent₁)
    (h₂ : Sends loaded second sent₂) (k : κ) :
    assign sent₂ (assign sent₁ loaded) k = assign first (assign second loaded) k ↔
      ∀ v v', first k = some v → second k = some v' → sent₂ k ≠ none → v = v' := by
  simp only [assign, h₁.getD_eq]
  cases hsent : sent₂ k with
  | some v' =>
    rw [h₂.sound k v' hsent]
    cases hfirst : first k with
    | none => exact iff_of_true rfl nofun
    | some v =>
      refine ⟨fun h w w' hw hw' _ => ?_, fun h => (h v v' rfl rfl nofun).symm⟩
      obtain rfl := Option.some.inj hw
      obtain rfl := Option.some.inj hw'
      exact h.symm
  | none =>
    refine iff_of_true ?_ fun _ _ _ _ hsent' => absurd rfl hsent'
    cases hfirst : first k with
    | some v => rfl
    | none =>
      cases hsecond : second k with
      | none => rfl
      | some v' => exact (h₂.omitted k v' hsecond hsent).symm

/-- The second update leaves out a column that the first one sets to another value, and sends one
that the first one sets to another value. -/
def Skewed (first second sent₂ : Columns V) : Prop :=
  (∃ k v v', first k = some v ∧ second k = some v' ∧ sent₂ k = none ∧ v ≠ v') ∧
    ∃ k v v', first k = some v ∧ second k = some v' ∧ sent₂ k ≠ none ∧ v ≠ v'

/-- **When two updates of one loaded row are serializable.** -/
theorem serial_iff_not_skewed (h₁ : Sends loaded first sent₁) (h₂ : Sends loaded second sent₂) :
    (assign sent₂ (assign sent₁ loaded) = assign second (assign first loaded) ∨
        assign sent₂ (assign sent₁ loaded) = assign first (assign second loaded)) ↔
      ¬ Skewed first second sent₂ := by
  rw [funext_iff, funext_iff, Skewed, not_and_or]
  simp only [assign_assign_apply_eq_iff h₁ h₂, assign_assign_apply_eq_swap_iff h₁ h₂, not_exists,
    not_and, not_not]

/-- Updates of different columns are serializable. -/
theorem not_skewed_of_disjoint (h : ∀ k, first k = none ∨ second k = none) :
    ¬ Skewed first second sent₂ := by
  rintro ⟨⟨k, v, v', hfirst, hsecond, -⟩, -⟩
  rcases h k with hnone | hnone
  · cases hfirst.symm.trans hnone
  · cases hsecond.symm.trans hnone

end BookingApi.StaleUpdate
