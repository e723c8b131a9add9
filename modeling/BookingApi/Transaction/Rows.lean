import Mathlib.Logic.Function.Basic

/-!
# Rows, changes and constraints

A store holds at most one row at each key.  A change acts on the row at one key: it inserts a row or
updates one, and no change removes a row.  A row may claim a value that no other row may have (a
unique column), and it refers to the keys of other rows (foreign keys).  `Valid` says that a store
keeps both kinds of constraints.

`Apart` is what locks and unique indexes ensure of two lists of changes: they concern different rows
and claim different values.  `Valid.merge` is the main result: if two such lists keep the
constraints when each is made alone, they keep them together.
-/

namespace BookingApi.Transaction

/-- How changes `ω` act on rows `ρ` at keys `κ`, and the constraints on rows: unique values in `ν`,
and references to keys. -/
structure Schema (κ ρ ω ν : Type*) where
  target : ω → κ
  act : ω → Option ρ → Option ρ
  inserts : ω → Bool
  /-- The unique value that a row has. -/
  claim : ρ → Option ν
  /-- The unique value that a change gives to its row. -/
  claims : ω → Option ν
  /-- The row refers to the key. -/
  refs : ρ → κ → Prop
  act_ne_none : ∀ w row, act w (some row) ≠ none
  act_none : ∀ w, inserts w = false → act w none = none
  claims_of_act : ∀ {w r row v}, act w r = some row → claim row = some v →
    claims w = some v ∨ ∃ row₀, r = some row₀ ∧ claim row₀ = some v
  refs_of_act : ∀ {w row₀ row k}, act w (some row₀) = some row → refs row k → refs row₀ k

/-- A partial map from keys to rows. -/
abbrev Store (κ ρ : Type*) := κ → Option ρ

namespace Schema

variable {κ ρ ω ν : Type*} [DecidableEq κ] (S : Schema κ ρ ω ν)

/-- The store after a change. -/
def apply (s : Store κ ρ) (w : ω) : Store κ ρ :=
  Function.update s (S.target w) (S.act w (s (S.target w)))

/-- The store after a list of changes. -/
def applyAll (s : Store κ ρ) (ws : List ω) : Store κ ρ := ws.foldl S.apply s

variable {S} {s s' : Store κ ρ} {w : ω} {ws ws' : List ω} {k : κ} {row : ρ} {v : ν}

@[simp] theorem applyAll_nil : S.applyAll s [] = s := rfl

@[simp] theorem applyAll_cons : S.applyAll s (w :: ws) = S.applyAll (S.apply s w) ws := rfl

theorem applyAll_append : S.applyAll s (ws ++ ws') = S.applyAll (S.applyAll s ws) ws' :=
  List.foldl_append ..

theorem apply_target : S.apply s w (S.target w) = S.act w (s (S.target w)) :=
  Function.update_self ..

theorem apply_of_ne (h : S.target w ≠ k) : S.apply s w k = s k := Function.update_of_ne h.symm _ _

/-! ### What changes do to one row -/

/-- Changes of other rows leave a row alone. -/
theorem applyAll_of_forall_ne (h : ∀ w ∈ ws, S.target w ≠ k) : S.applyAll s ws k = s k := by
  induction ws generalizing s with
  | nil => rfl
  | cons w ws ih =>
    rw [applyAll_cons, ih fun x hx => h x (List.mem_cons_of_mem _ hx),
      apply_of_ne (h w (List.mem_cons_self ..))]

/-- A row after some changes depends on this row before them only. -/
theorem applyAll_congr (h : s k = s' k) : S.applyAll s ws k = S.applyAll s' ws k := by
  induction ws generalizing s s' with
  | nil => exact h
  | cons w ws ih =>
    refine ih ?_
    by_cases hk : S.target w = k
    · subst hk
      rw [apply_target, apply_target, h]
    · rw [apply_of_ne hk, apply_of_ne hk, h]

/-- No row is removed. -/
theorem applyAll_ne_none (h : s k ≠ none) : S.applyAll s ws k ≠ none := by
  induction ws generalizing s with
  | nil => exact h
  | cons w ws ih =>
    refine ih ?_
    by_cases hk : S.target w = k
    · subst hk
      rw [apply_target]
      obtain ⟨row, hrow⟩ := Option.ne_none_iff_exists'.mp h
      rw [hrow]
      exact S.act_ne_none w row
    · rwa [apply_of_ne hk]

/-- A new row was inserted. -/
theorem exists_insert (h : S.applyAll s ws k ≠ none) (hk : s k = none) :
    ∃ w ∈ ws, S.inserts w = true ∧ S.target w = k := by
  induction ws generalizing s with
  | nil => exact absurd hk h
  | cons w ws ih =>
    by_cases hw : S.apply s w k = none
    · obtain ⟨x, hx, hx'⟩ := ih h hw
      exact ⟨x, List.mem_cons_of_mem _ hx, hx'⟩
    · have htarget : S.target w = k := by
        by_contra hne
        exact hw ((apply_of_ne hne).trans hk)
      refine ⟨w, List.mem_cons_self .., ?_, htarget⟩
      by_contra hins
      subst htarget
      rw [apply_target, hk] at hw
      exact hw (S.act_none w (eq_false_of_ne_true hins))

/-- A unique value of a row was there before or was claimed by a change of this row. -/
theorem claims_of_applyAll (h : S.applyAll s ws k = some row) (hv : S.claim row = some v) :
    (∃ row₀, s k = some row₀ ∧ S.claim row₀ = some v) ∨
      ∃ w ∈ ws, S.target w = k ∧ S.claims w = some v := by
  induction ws generalizing s with
  | nil => exact .inl ⟨row, h, hv⟩
  | cons w ws ih =>
    rcases ih h with ⟨row₁, hrow₁, hv₁⟩ | ⟨x, hx, hx'⟩
    · by_cases hk : S.target w = k
      · subst hk
        rw [apply_target] at hrow₁
        rcases S.claims_of_act hrow₁ hv₁ with hw | hold
        · exact .inr ⟨w, List.mem_cons_self .., rfl, hw⟩
        · exact .inl hold
      · rw [apply_of_ne hk] at hrow₁
        exact .inl ⟨row₁, hrow₁, hv₁⟩
    · exact .inr ⟨x, List.mem_cons_of_mem _ hx, hx'⟩

/-- The references of an old row are old. -/
theorem refs_of_applyAll {row₀ : ρ} {k' : κ} (hk : s k = some row₀)
    (h : S.applyAll s ws k = some row) (href : S.refs row k') : S.refs row₀ k' := by
  induction ws generalizing s row₀ with
  | nil =>
    obtain rfl := Option.some.inj (hk.symm.trans h)
    exact href
  | cons w ws ih =>
    by_cases hw : S.target w = k
    · subst hw
      obtain ⟨row₁, hrow₁⟩ := Option.ne_none_iff_exists'.mp (S.act_ne_none w row₀)
      refine S.refs_of_act hrow₁ (ih (s := S.apply s w) ?_ h)
      rw [apply_target, hk, hrow₁]
    · exact ih (s := S.apply s w) ((apply_of_ne hw).trans hk) h

/-- A row that is inserted under a new key of its own is there. -/
theorem applyAll_insert (hnodup : (ws.map S.target).Nodup) (hw : w ∈ ws)
    (hnew : s (S.target w) = none) : S.applyAll s ws (S.target w) = S.act w none := by
  induction ws generalizing s with
  | nil => exact absurd hw List.not_mem_nil
  | cons x ws ih =>
    rw [List.map_cons, List.nodup_cons] at hnodup
    rw [applyAll_cons]
    rcases List.mem_cons.mp hw with rfl | hw
    · have hrest : ∀ y ∈ ws, S.target y ≠ S.target w := fun y hy he =>
        hnodup.1 (he ▸ List.mem_map_of_mem hy)
      rw [applyAll_of_forall_ne hrest, apply_target, hnew]
    · have hne : S.target x ≠ S.target w := fun he =>
        hnodup.1 (he ▸ List.mem_map_of_mem hw)
      exact ih hnodup.2 hw ((apply_of_ne hne).trans hnew)

/-- The references of a new row are those of the row that was inserted. -/
theorem exists_insert_refs {k' : κ} (hk : s k = none) (h : S.applyAll s ws k = some row)
    (href : S.refs row k') :
    ∃ w ∈ ws, S.target w = k ∧ ∃ row₀, S.act w none = some row₀ ∧ S.refs row₀ k' := by
  induction ws generalizing s with
  | nil => exact absurd (hk.symm.trans h) (by simp)
  | cons w ws ih =>
    cases hw : S.apply s w k with
    | none =>
      obtain ⟨x, hx, hx'⟩ := ih hw h
      exact ⟨x, List.mem_cons_of_mem _ hx, hx'⟩
    | some row₀ =>
      have htarget : S.target w = k := by
        by_contra hne
        rw [apply_of_ne hne, hk] at hw
        cases hw
      subst htarget
      have hact := hw
      rw [apply_target, hk] at hact
      exact ⟨w, List.mem_cons_self .., rfl, row₀, hact, refs_of_applyAll hw h href⟩

/-- A row stays related to what it was, if every change keeps it related. -/
theorem applyAll_rel {R : ρ → ρ → Prop} (hrefl : ∀ row, R row row)
    (htrans : ∀ {row₁ row₂ row₃}, R row₁ row₂ → R row₂ row₃ → R row₁ row₃)
    (hact : ∀ w ∈ ws, ∀ row row', S.act w (some row) = some row' → R row row')
    (h : s k = some row) : ∃ row', S.applyAll s ws k = some row' ∧ R row row' := by
  induction ws generalizing s row with
  | nil => exact ⟨row, h, hrefl row⟩
  | cons w ws ih =>
    have htail : ∀ x ∈ ws, ∀ row row', S.act x (some row) = some row' → R row row' :=
      fun x hx => hact x (List.mem_cons_of_mem _ hx)
    by_cases hk : S.target w = k
    · subst hk
      obtain ⟨row₁, hrow₁⟩ := Option.ne_none_iff_exists'.mp (S.act_ne_none w row)
      have hs : S.apply s w (S.target w) = some row₁ := by rw [apply_target, h, hrow₁]
      obtain ⟨row', hrow', hR⟩ := ih htail hs
      exact ⟨row', hrow', htrans (hact w (List.mem_cons_self ..) _ _ hrow₁) hR⟩
    · exact ih htail ((apply_of_ne hk).trans h)

/-! ### Constraints -/

variable (S)

/-- The constraints on a store. -/
structure Valid (s : Store κ ρ) : Prop where
  unique : ∀ {k k' row row' v}, s k = some row → s k' = some row' → S.claim row = some v →
    S.claim row' = some v → k = k'
  closed : ∀ {k row k'}, s k = some row → S.refs row k' → s k' ≠ none

/-- The changes concern different rows and claim different values. -/
def Apart (ws ws' : List ω) : Prop :=
  ∀ w ∈ ws, ∀ w' ∈ ws', S.target w ≠ S.target w' ∧
    ∀ v, S.claims w = some v → S.claims w' ≠ some v

variable {S}

omit [DecidableEq κ] in
theorem Apart.symm (h : S.Apart ws ws') : S.Apart ws' ws :=
  fun w' hw' w hw => ⟨(h w hw w' hw').1.symm, fun v hv' hv => (h w hw w' hw').2 v hv hv'⟩

omit [DecidableEq κ] in
theorem Apart.nil_left : S.Apart [] ws := fun _ hw => absurd hw List.not_mem_nil

omit [DecidableEq κ] in
theorem Apart.append_left {ws₁ ws₂ : List ω} (h₁ : S.Apart ws₁ ws) (h₂ : S.Apart ws₂ ws) :
    S.Apart (ws₁ ++ ws₂) ws :=
  fun w hw => (List.mem_append.mp hw).elim (h₁ w) (h₂ w)

/-- The other list leaves the rows of the first one alone. -/
theorem Apart.applyAll_target (h : S.Apart ws ws') (hw : w ∈ ws) :
    S.applyAll s ws' (S.target w) = s (S.target w) :=
  applyAll_of_forall_ne fun w' hw' => ((h w hw w' hw').1).symm

/-- Both lists together: each row is as one of them leaves it. -/
theorem Apart.applyAll_applyAll (h : S.Apart ws ws') (k : κ) :
    ((∃ w' ∈ ws', S.target w' = k) ∧
        S.applyAll (S.applyAll s ws) ws' k = S.applyAll s ws' k ∧ S.applyAll s ws k = s k) ∨
      (S.applyAll (S.applyAll s ws) ws' k = S.applyAll s ws k ∧ S.applyAll s ws' k = s k) := by
  by_cases hk : ∃ w' ∈ ws', S.target w' = k
  · obtain ⟨w', hw', rfl⟩ := hk
    have hsame : S.applyAll s ws (S.target w') = s (S.target w') := h.symm.applyAll_target hw'
    exact .inl ⟨⟨w', hw', rfl⟩, applyAll_congr hsame, hsame⟩
  · have hne : ∀ w' ∈ ws', S.target w' ≠ k := fun w' hw' he => hk ⟨w', hw', he⟩
    exact .inr ⟨applyAll_of_forall_ne hne, applyAll_of_forall_ne hne⟩

/-- A row that one list leaves there is there after both. -/
theorem Apart.ne_none (h : S.Apart ws ws') {k : κ} (hk : S.applyAll s ws' k ≠ none) :
    S.applyAll (S.applyAll s ws) ws' k ≠ none := by
  rcases h.applyAll_applyAll (s := s) k with ⟨-, he, -⟩ | ⟨he, hs⟩
  · rwa [he]
  · rw [he]
    exact applyAll_ne_none (hs ▸ hk)

/-- Rows of the two versions with one unique value are one row. -/
theorem Apart.unique (h : S.Apart ws ws') (hv₁ : S.Valid (S.applyAll s ws))
    (hv₂ : S.Valid (S.applyAll s ws')) {k k' : κ} {row row' : ρ}
    (hk : S.applyAll s ws' k = some row) (hsame : S.applyAll s ws k = s k)
    (hk' : S.applyAll s ws k' = some row') (hsame' : S.applyAll s ws' k' = s k')
    (hc : S.claim row = some v) (hc' : S.claim row' = some v) : k = k' := by
  rcases claims_of_applyAll hk hc with ⟨row₀, hrow₀, hc₀⟩ | ⟨w', hw', -, hclaims'⟩
  · exact hv₁.unique (hsame.trans hrow₀) hk' hc₀ hc'
  · rcases claims_of_applyAll hk' hc' with ⟨row₀, hrow₀, hc₀⟩ | ⟨w, hw, -, hclaims⟩
    · exact hv₂.unique hk (hsame'.trans hrow₀) hc hc₀
    · exact absurd hclaims' ((h w hw w' hw').2 v hclaims)

/-- **Merging**: changes that concern different rows and claim different values keep the constraints
together if they keep them alone. -/
theorem Valid.merge (h : S.Apart ws ws') (hv₁ : S.Valid (S.applyAll s ws))
    (hv₂ : S.Valid (S.applyAll s ws')) : S.Valid (S.applyAll (S.applyAll s ws) ws') where
  unique {k k' row row' v} hk hk' hc hc' := by
    rcases h.applyAll_applyAll (s := s) k with ⟨-, he, hsame⟩ | ⟨he, hsame⟩ <;>
      rcases h.applyAll_applyAll (s := s) k' with ⟨-, he', hsame'⟩ | ⟨he', hsame'⟩ <;>
      rw [he] at hk <;> rw [he'] at hk'
    · exact hv₂.unique hk hk' hc hc'
    · exact h.unique hv₁ hv₂ hk hsame hk' hsame' hc hc'
    · exact (h.unique hv₁ hv₂ hk' hsame' hk hsame hc' hc).symm
    · exact hv₁.unique hk hk' hc hc'
  closed {k row k'} hk href := by
    rcases h.applyAll_applyAll (s := s) k with ⟨-, he, -⟩ | ⟨he, -⟩ <;> rw [he] at hk
    · exact h.ne_none (hv₂.closed hk href)
    · exact applyAll_ne_none (hv₁.closed hk href)

/-! ### Changes that keep the constraints -/

/-- The unique values stay unique if the changes claim different new ones. -/
theorem Valid.applyAll (h : S.Valid s)
    (hnew : ∀ w ∈ ws, ∀ v, S.claims w = some v → ∀ k row, s k = some row →
      S.claim row = some v → k = S.target w)
    (hdistinct : ∀ w ∈ ws, ∀ w' ∈ ws, ∀ v, S.claims w = some v → S.claims w' = some v →
      S.target w = S.target w')
    (hrefs : ∀ w ∈ ws, ∀ row k, S.act w none = some row → S.refs row k → s k ≠ none) :
    S.Valid (S.applyAll s ws) where
  unique {k k' row row' v} hk hk' hc hc' := by
    rcases claims_of_applyAll hk hc with ⟨row₀, hrow₀, hc₀⟩ | ⟨w, hw, rfl, hclaims⟩ <;>
      rcases claims_of_applyAll hk' hc' with ⟨row₁, hrow₁, hc₁⟩ | ⟨w', hw', rfl, hclaims'⟩
    · exact h.unique hrow₀ hrow₁ hc₀ hc₁
    · exact hnew w' hw' v hclaims' k row₀ hrow₀ hc₀
    · exact (hnew w hw v hclaims k' row₁ hrow₁ hc₁).symm
    · exact hdistinct w hw w' hw' v hclaims hclaims'
  closed {k row k'} hk href := by
    cases hold : s k with
    | none =>
      obtain ⟨w, hw, -, row₀, hact, href₀⟩ := exists_insert_refs hold hk href
      exact applyAll_ne_none (hrefs w hw row₀ k' hact href₀)
    | some row₀ => exact applyAll_ne_none (h.closed hold (refs_of_applyAll hold hk href))

/-- Changes that insert nothing and claim nothing keep the constraints. -/
theorem Valid.applyAll_of_no_claims (h : S.Valid s) (hclaims : ∀ w ∈ ws, S.claims w = none)
    (hinserts : ∀ w ∈ ws, S.inserts w = false) : S.Valid (S.applyAll s ws) := by
  refine h.applyAll (fun w hw v hv => ?_) (fun w hw _ _ v hv => ?_) fun w hw row k hact => ?_
  · exact absurd (hv.symm.trans (hclaims w hw)) (by simp)
  · exact absurd (hv.symm.trans (hclaims w hw)) (by simp)
  · exact absurd (hact.symm.trans (S.act_none w (hinserts w hw))) (by simp)

end Schema

end BookingApi.Transaction
