import Mathlib.Order.Interval.Set.Basic

/-!
# Reservations and occupancy

A reservation claims a set of places for a half-open interval of a linear order.  A ledger assigns
to each holder its live reservation, if it has one.  Two reservations clash if they share a place
and their intervals meet; for nonempty intervals this is the same as a common cell
(`clash_iff_exists_cell`).

In a ledger without clashes every cell has at most one holder, and `occupancy` is the map from cells
to holders (`occupancy_eq_some_iff`).  Entering a reservation that clashes with none occupies
exactly its cells (`occupancy_enter`), and striking one out frees exactly its cells
(`occupancy_strike`).
-/

namespace BookingApi

variable {S T B : Type*} [LinearOrder T]

/-- A claim on the places `seats` from `start` up to, but not including, `stop`. -/
structure Reservation (S T : Type*) where
  seats : Set S
  start : T
  stop : T

namespace Reservation

/-- The reservation claims the cell `(s, t)`. -/
def Covers (r : Reservation S T) (s : S) (t : T) : Prop :=
  s ∈ r.seats ∧ t ∈ Set.Ico r.start r.stop

/-- A common place, and intervals that meet. -/
def Clash (r r' : Reservation S T) : Prop :=
  (∃ s, s ∈ r.seats ∧ s ∈ r'.seats) ∧ r.start < r'.stop ∧ r'.start < r.stop

theorem Clash.symm {r r' : Reservation S T} (h : r.Clash r') : r'.Clash r := by
  obtain ⟨⟨s, h1, h2⟩, h3, h4⟩ := h
  exact ⟨⟨s, h2, h1⟩, h4, h3⟩

/-- Nonempty intervals meet exactly when they have a point in common. -/
theorem exists_mem_Ico_iff {a b c d : T} (hab : a < b) (hcd : c < d) :
    (∃ t, t ∈ Set.Ico a b ∧ t ∈ Set.Ico c d) ↔ a < d ∧ c < b := by
  constructor
  · rintro ⟨t, ⟨h1, h2⟩, h3, h4⟩
    exact ⟨h1.trans_lt h4, h3.trans_lt h2⟩
  · rintro ⟨h1, h2⟩
    exact ⟨max a c, ⟨le_max_left _ _, max_lt hab h2⟩, le_max_right _ _, max_lt h1 hcd⟩

/-- Reservations with nonempty intervals clash exactly when they claim a common cell. -/
theorem clash_iff_exists_cell {r r' : Reservation S T} (h : r.start < r.stop)
    (h' : r'.start < r'.stop) : r.Clash r' ↔ ∃ s t, r.Covers s t ∧ r'.Covers s t := by
  rw [Clash, ← exists_mem_Ico_iff h h']
  constructor
  · rintro ⟨⟨s, h1, h2⟩, t, h3, h4⟩
    exact ⟨s, t, ⟨h1, h3⟩, h2, h4⟩
  · rintro ⟨s, t, ⟨h1, h3⟩, h2, h4⟩
    exact ⟨⟨s, h1, h2⟩, t, h3, h4⟩

end Reservation

/-! ### Ledgers -/

/-- The live reservation of each holder. -/
abbrev Ledger (B S T : Type*) := B → Option (Reservation S T)

namespace Ledger

variable {L : Ledger B S T}

/-- Different holders have reservations that do not clash. -/
def ClashFree (L : Ledger B S T) : Prop :=
  ∀ b b' r r', L b = some r → L b' = some r' → b ≠ b' → ¬ r.Clash r'

/-- Every live reservation has a nonempty interval. -/
def Proper (L : Ledger B S T) : Prop := ∀ b r, L b = some r → r.start < r.stop

/-- Holder `b` holds the cell `(s, t)`. -/
def Holds (L : Ledger B S T) (b : B) (s : S) (t : T) : Prop := ∃ r, L b = some r ∧ r.Covers s t

open Classical in
/-- Some holder satisfying `p`, if there is one. -/
noncomputable def pick (p : B → Prop) : Option B := if h : ∃ b, p b then some h.choose else none

/-- The holder of each cell. -/
noncomputable def occupancy (L : Ledger B S T) (s : S) (t : T) : Option B :=
  pick fun b => L.Holds b s t

/-- In a ledger without clashes a cell has at most one holder. -/
theorem ClashFree.holds_unique (h : L.ClashFree) (hp : L.Proper) {b b' : B} {s : S} {t : T}
    (hb : L.Holds b s t) (hb' : L.Holds b' s t) : b = b' := by
  obtain ⟨r, hr, hc⟩ := hb
  obtain ⟨r', hr', hc'⟩ := hb'
  by_contra hne
  exact h b b' r r' hr hr' hne
    ((Reservation.clash_iff_exists_cell (hp b r hr) (hp b' r' hr')).mpr ⟨s, t, hc, hc'⟩)

theorem occupancy_eq_none_iff {s : S} {t : T} :
    L.occupancy s t = none ↔ ∀ b, ¬ L.Holds b s t := by
  rw [occupancy, pick]
  split_ifs with h
  · simpa using h
  · simpa using h

theorem occupancy_eq_some_iff (h : L.ClashFree) (hp : L.Proper) {s : S} {t : T} {b : B} :
    L.occupancy s t = some b ↔ L.Holds b s t := by
  rw [occupancy, pick]
  split_ifs with hex
  · rw [Option.some_inj]
    constructor
    · rintro rfl
      exact hex.choose_spec
    · exact fun hb => h.holds_unique hp hex.choose_spec hb
  · exact iff_of_false (by simp) fun hb => hex ⟨b, hb⟩

/-- A cell that the same holders hold in two ledgers has the same occupancy in both. -/
theorem occupancy_congr {L' : Ledger B S T} {s : S} {t : T}
    (h : ∀ b, L.Holds b s t ↔ L'.Holds b s t) : L.occupancy s t = L'.occupancy s t :=
  congrArg pick (funext fun b => propext (h b))

/-- No cell of the reservation is held. -/
def Vacant (L : Ledger B S T) (r : Reservation S T) : Prop :=
  ∀ s t, r.Covers s t → L.occupancy s t = none

/-- A reservation finds its cells vacant exactly when it clashes with no live one. -/
theorem vacant_iff_forall_not_clash (hp : L.Proper) {r : Reservation S T} (hr : r.start < r.stop) :
    L.Vacant r ↔ ∀ b r', L b = some r' → ¬ r'.Clash r := by
  constructor
  · intro h b r' hb hclash
    obtain ⟨s, t, h1, h2⟩ := (Reservation.clash_iff_exists_cell (hp b r' hb) hr).mp hclash
    exact occupancy_eq_none_iff.mp (h s t h2) b ⟨r', hb, h1⟩
  · intro h s t hc
    rw [occupancy_eq_none_iff]
    rintro b ⟨r', hb, hc'⟩
    exact h b r' hb
      ((Reservation.clash_iff_exists_cell (hp b r' hb) hr).mpr ⟨s, t, hc', hc⟩)

variable [DecidableEq B]

/-- Enter a reservation for a holder. -/
def enter (L : Ledger B S T) (b : B) (r : Reservation S T) : Ledger B S T :=
  Function.update L b (some r)

/-- Strike out the reservation of a holder. -/
def strike (L : Ledger B S T) (b : B) : Ledger B S T := Function.update L b none

theorem Proper.enter (hp : L.Proper) {b : B} {r : Reservation S T} (hr : r.start < r.stop) :
    (L.enter b r).Proper := by
  intro b' r' h
  by_cases hb : b' = b
  · subst hb
    rw [Ledger.enter, Function.update_self] at h
    obtain rfl := Option.some.inj h
    exact hr
  · exact hp b' r' (by rwa [Ledger.enter, Function.update_of_ne hb] at h)

theorem Proper.strike (hp : L.Proper) {b : B} : (L.strike b).Proper := by
  intro b' r' h
  by_cases hb : b' = b
  · subst hb
    rw [Ledger.strike, Function.update_self] at h
    cases h
  · exact hp b' r' (by rwa [Ledger.strike, Function.update_of_ne hb] at h)

theorem ClashFree.enter (h : L.ClashFree) {b : B} {r : Reservation S T}
    (hr : ∀ b' r', L b' = some r' → ¬ r'.Clash r) : (L.enter b r).ClashFree := by
  intro b₁ b₂ r₁ r₂ h₁ h₂ hne
  by_cases hb₁ : b₁ = b
  · subst hb₁
    rw [Ledger.enter, Function.update_self] at h₁
    rw [Ledger.enter, Function.update_of_ne hne.symm] at h₂
    obtain rfl := Option.some.inj h₁
    exact fun hc => hr b₂ r₂ h₂ hc.symm
  · rw [Ledger.enter, Function.update_of_ne hb₁] at h₁
    by_cases hb₂ : b₂ = b
    · subst hb₂
      rw [Ledger.enter, Function.update_self] at h₂
      obtain rfl := Option.some.inj h₂
      exact hr b₁ r₁ h₁
    · rw [Ledger.enter, Function.update_of_ne hb₂] at h₂
      exact h b₁ b₂ r₁ r₂ h₁ h₂ hne

theorem ClashFree.strike (h : L.ClashFree) {b : B} : (L.strike b).ClashFree := by
  have keep : ∀ b' r', L.strike b b' = some r' → L b' = some r' := by
    intro b' r' h'
    by_cases hb : b' = b
    · subst hb
      rw [Ledger.strike, Function.update_self] at h'
      cases h'
    · rwa [Ledger.strike, Function.update_of_ne hb] at h'
  intro b₁ b₂ r₁ r₂ h₁ h₂
  exact h b₁ b₂ r₁ r₂ (keep _ _ h₁) (keep _ _ h₂)

/-- **Entering** a reservation of a new holder that finds its cells vacant occupies exactly these
cells. -/
theorem occupancy_enter (h : L.ClashFree) (hp : L.Proper) {b : B} (hb : L b = none)
    {r : Reservation S T} (hr : r.start < r.stop) (hv : L.Vacant r)
    (s : S) (t : T) [Decidable (r.Covers s t)] :
    (L.enter b r).occupancy s t = if r.Covers s t then some b else L.occupancy s t := by
  have hcf := h.enter (b := b) ((vacant_iff_forall_not_clash hp hr).mp hv)
  have hp' := hp.enter (b := b) hr
  have other : ∀ b', b' ≠ b → ((L.enter b r).Holds b' s t ↔ L.Holds b' s t) := by
    intro b' hne
    rw [Holds, Ledger.enter, Function.update_of_ne hne, Holds]
  split_ifs with hc
  · exact (occupancy_eq_some_iff hcf hp').mpr ⟨r, Function.update_self .., hc⟩
  · have self : ¬ (L.enter b r).Holds b s t := by
      rintro ⟨r', hr', hc'⟩
      rw [Ledger.enter, Function.update_self] at hr'
      exact hc (Option.some.inj hr' ▸ hc')
    have none' : ¬ L.Holds b s t := by
      rintro ⟨r', hr', -⟩
      rw [hb] at hr'
      cases hr'
    refine occupancy_congr fun b' => ?_
    by_cases hne : b' = b
    · subst hne
      exact iff_of_false self none'
    · exact other b' hne

/-- **Striking out** a reservation frees exactly the cells of its holder. -/
theorem occupancy_strike (h : L.ClashFree) (hp : L.Proper) {b : B} (s : S) (t : T) :
    (L.strike b).occupancy s t
      = if L.occupancy s t = some b then none else L.occupancy s t := by
  have other : ∀ b', b' ≠ b → ((L.strike b).Holds b' s t ↔ L.Holds b' s t) := by
    intro b' hne
    rw [Holds, Ledger.strike, Function.update_of_ne hne, Holds]
  have self : ¬ (L.strike b).Holds b s t := by
    rintro ⟨r', hr', -⟩
    rw [Ledger.strike, Function.update_self] at hr'
    cases hr'
  split_ifs with ho
  · rw [occupancy_eq_none_iff]
    intro b' hb'
    have hne : b' ≠ b := fun he => self (he ▸ hb')
    exact hne (h.holds_unique hp ((other b' hne).mp hb') ((occupancy_eq_some_iff h hp).mp ho))
  · have none' : ¬ L.Holds b s t := fun hb => ho ((occupancy_eq_some_iff h hp).mpr hb)
    refine occupancy_congr fun b' => ?_
    by_cases hne : b' = b
    · subst hne
      exact iff_of_false self none'
    · exact other b' hne

end Ledger

end BookingApi
