import BookingApi.Async.Run
import Mathlib.Order.Lattice
import Mathlib.Order.Nat

/-!
# Read-through caches without versions

A store passes through numbered versions, and any number of calls read it through a cache: a call
looks the cached version up, or reads the current version and stores it, in separate steps.  The
cache has no part in a commit and may lose what it has at any time.

Nothing keeps a call that has read an old version from storing it after another call has stored a
newer one (`LateStore`).  `not_older_or_lateStore`: this is the only way in which a call returns an
older version than a call that had returned before it started.
-/

namespace BookingApi.ReadThrough

open Async

/-- Where a call stands. -/
inductive Phase
  | idle
  /-- It has started and is about to look the version up. -/
  | looking
  /-- It has found nothing and is about to read. -/
  | reading
  | failed
  /-- It has read a version and is about to store it. -/
  | storing (v : ℕ)
  | returning (v : ℕ)
  | returned (v : ℕ)
deriving DecidableEq

/-- The current version, the cached one, the newest that was ever stored in the cache, and the
calls. -/
structure Config (ι : Type*) where
  version : ℕ
  cached : Option ℕ
  newest : ℕ
  calls : ι → Phase

inductive Action (ι : Type*)
  | start (i : ι)
  | look (i : ι)
  | read (i : ι)
  | fail (i : ι)
  | store (i : ι)
  | ret (i : ι)
  | commit
  | expire
  /-- Something that does not concern the cache. -/
  | other

variable {ι : Type*} [DecidableEq ι]

def Config.set (c : Config ι) (i : ι) (p : Phase) : Config ι :=
  { c with calls := Function.update c.calls i p }

def step (c : Config ι) : Action ι → Option (Config ι)
  | .start i => if c.calls i = .idle then some (c.set i .looking) else none
  | .look i =>
    if c.calls i = .looking then
      match c.cached with
      | none => some (c.set i .reading)
      | some v => some (c.set i (.returning v))
    else none
  | .read i => if c.calls i = .reading then some (c.set i (.storing c.version)) else none
  | .fail i => if c.calls i = .reading then some (c.set i .failed) else none
  | .store i =>
    match c.calls i with
    | .storing v =>
      some { c.set i (.returning v) with cached := some v, newest := max c.newest v }
    | _ => none
  | .ret i =>
    match c.calls i with
    | .returning v => some (c.set i (.returned v))
    | _ => none
  | .commit => some { c with version := c.version + 1 }
  | .expire => some { c with cached := none }
  | .other => some c

/-- No call has started, and the cache is empty. -/
def start : Config ι := ⟨0, none, 0, fun _ => .idle⟩

/-- A version is stored after a newer one. -/
def LateStore (t : Transition (Config ι) (Action ι)) (v : ℕ) : Prop :=
  ∃ i, t.action = .store i ∧ t.before.calls i = .storing v ∧ v < t.before.newest

/-! ### One step -/

/-- How a call moves on in a step. -/
inductive Moves (c c' : Config ι) : Phase → Phase → Prop
  | same (p : Phase) : Moves c c' p p
  | start : Moves c c' .idle .looking
  | miss : Moves c c' .looking .reading
  | hit {v : ℕ} : c.cached = some v → Moves c c' .looking (.returning v)
  | read : Moves c c' .reading (.storing c.version)
  | fail : Moves c c' .reading .failed
  | store {v : ℕ} : v ≤ c'.newest → Moves c c' (.storing v) (.returning v)
  | ret {v : ℕ} : Moves c c' (.returning v) (.returned v)

variable {c c' c₁ c₂ : Config ι} {a : Action ι}
variable {tr tr₁ tr₂ : List (Transition (Config ι) (Action ι))}

theorem moves_update {i : ι} {p : Phase} (hi : Moves c c' (c.calls i) p) (j : ι) :
    Moves c c' (c.calls j) (Function.update c.calls i p j) := by
  by_cases hj : j = i
  · subst hj
    rwa [Function.update_self]
  · rw [Function.update_of_ne hj]
    exact .same _

theorem step_calls (h : step c a = some c') (j : ι) : Moves c c' (c.calls j) (c'.calls j) := by
  cases a with
  | start i =>
    rw [step] at h
    split_ifs at h with hi
    obtain rfl := Option.some.inj h
    exact moves_update (hi ▸ .start) j
  | look i =>
    rw [step] at h
    split_ifs at h with hi
    split at h
    · obtain rfl := Option.some.inj h
      exact moves_update (hi ▸ .miss) j
    · next v hv =>
      obtain rfl := Option.some.inj h
      exact moves_update (hi ▸ .hit hv) j
  | read i =>
    rw [step] at h
    split_ifs at h with hi
    obtain rfl := Option.some.inj h
    exact moves_update (hi ▸ .read) j
  | fail i =>
    rw [step] at h
    split_ifs at h with hi
    obtain rfl := Option.some.inj h
    exact moves_update (hi ▸ .fail) j
  | store i =>
    simp only [step] at h
    split at h
    · next v hi =>
      obtain rfl := Option.some.inj h
      exact moves_update (hi ▸ .store (le_max_right _ _)) j
    · cases h
  | ret i =>
    simp only [step] at h
    split at h
    · next v hi =>
      obtain rfl := Option.some.inj h
      exact moves_update (hi ▸ .ret) j
    · cases h
  | commit =>
    obtain rfl := Option.some.inj h
    exact .same _
  | expire =>
    obtain rfl := Option.some.inj h
    exact .same _
  | other =>
    obtain rfl := Option.some.inj h
    exact .same _

/-- What a step does to the cache. -/
theorem step_cached (h : step c a = some c') : c.version ≤ c'.version ∧
    ((c'.cached = none ∨ c'.cached = c.cached) ∧ c'.newest = c.newest ∨
      ∃ i v, a = .store i ∧ c.calls i = .storing v ∧ c'.cached = some v ∧
        c'.newest = max c.newest v) := by
  cases a with
  | store i =>
    simp only [step] at h
    split at h
    · next v hi =>
      obtain rfl := Option.some.inj h
      exact ⟨le_rfl, .inr ⟨i, v, rfl, hi, rfl, rfl⟩⟩
    · cases h
  | look i =>
    rw [step] at h
    split_ifs at h
    split at h <;> obtain rfl := Option.some.inj h <;> exact ⟨le_rfl, .inl ⟨.inr rfl, rfl⟩⟩
  | start i | read i | fail i =>
    rw [step] at h
    split_ifs at h
    obtain rfl := Option.some.inj h
    exact ⟨le_rfl, .inl ⟨.inr rfl, rfl⟩⟩
  | ret i =>
    simp only [step] at h
    split at h
    · obtain rfl := Option.some.inj h
      exact ⟨le_rfl, .inl ⟨.inr rfl, rfl⟩⟩
    · cases h
  | commit =>
    obtain rfl := Option.some.inj h
    exact ⟨Nat.le_succ _, .inl ⟨.inr rfl, rfl⟩⟩
  | expire =>
    obtain rfl := Option.some.inj h
    exact ⟨le_rfl, .inl ⟨.inl rfl, rfl⟩⟩
  | other =>
    obtain rfl := Option.some.inj h
    exact ⟨le_rfl, .inl ⟨.inr rfl, rfl⟩⟩

/-- The newest version stored does not go back. -/
theorem newest_le (h : step c a = some c') : c.newest ≤ c'.newest := by
  rcases (step_cached h).2 with ⟨-, hnewest⟩ | ⟨i, v, -, -, -, hnewest⟩
  · exact hnewest.ge
  · exact hnewest ▸ le_max_left _ _

/-! ### Runs -/

/-- What holds in every state of a run: the cached version is the newest, or it was stored late. -/
structure Inv (tr : List (Transition (Config ι) (Action ι))) (c : Config ι) : Prop where
  newest_le : c.newest ≤ c.version
  storing_le : ∀ i v, c.calls i = .storing v → v ≤ c.version
  returning_le : ∀ i v, c.calls i = .returning v ∨ c.calls i = .returned v → v ≤ c.newest
  cached_le : ∀ v, c.cached = some v → v ≤ c.newest
  cached : ∀ v, c.cached = some v → v = c.newest ∨ ∃ t ∈ tr, LateStore t v

omit [DecidableEq ι] in
theorem inv_start : Inv [] (start : Config ι) := by
  constructor
  case newest_le => exact le_rfl
  case returning_le =>
    intro i v h
    rcases h with h | h <;> cases h
  all_goals
    intros
    contradiction

theorem Inv.step (hinv : Inv tr c) (h : step c a = some c') : Inv (⟨c, a, c'⟩ :: tr) c' := by
  obtain ⟨hversion, hcache⟩ := step_cached h
  have hnewest := ReadThrough.newest_le h
  have hlate {v : ℕ} (hv : ∃ t ∈ tr, LateStore t v) :
      ∃ t ∈ (⟨c, a, c'⟩ : Transition (Config ι) (Action ι)) :: tr, LateStore t v := by
    obtain ⟨t, ht, hv⟩ := hv
    exact ⟨t, List.mem_cons_of_mem _ ht, hv⟩
  constructor
  case newest_le =>
    rcases hcache with ⟨-, he⟩ | ⟨i, v, -, hi, -, he⟩
    · exact he ▸ hinv.newest_le.trans hversion
    · -- what is stored was read, so its version is not in the future
      exact he ▸ (max_le hinv.newest_le (hinv.storing_le i v hi)).trans hversion
  case storing_le =>
    intro i v hi
    have hmoves := step_calls h i
    rw [hi] at hmoves
    generalize hp : c.calls i = p at hmoves
    cases hmoves with
    | same => exact (hinv.storing_le i v hp).trans hversion
    | read => exact hversion
  case returning_le =>
    intro i v hi
    have hmoves := step_calls h i
    generalize hp : c.calls i = p at hmoves
    rcases hi with hi | hi
    · rw [hi] at hmoves
      cases hmoves with
      | same => exact (hinv.returning_le i v (.inl hp)).trans hnewest
      | hit hv => exact (hinv.cached_le v hv).trans hnewest
      | store hv => exact hv
    · rw [hi] at hmoves
      cases hmoves with
      | same => exact (hinv.returning_le i v (.inr hp)).trans hnewest
      | ret => exact (hinv.returning_le i v (.inl hp)).trans hnewest
  case cached_le =>
    intro v hv
    rcases hcache with ⟨hnone | hsame, he⟩ | ⟨i, v', -, -, hstored, he⟩
    · exact absurd (hv.symm.trans hnone) (by simp)
    · exact he ▸ hinv.cached_le v (hsame ▸ hv)
    · obtain rfl := Option.some.inj (hstored.symm.trans hv)
      exact he ▸ le_max_right _ _
  case cached =>
    intro v hv
    rcases hcache with ⟨hnone | hsame, he⟩ | ⟨i, v', rfl, hi, hstored, he⟩
    · exact absurd (hv.symm.trans hnone) (by simp)
    · exact (hinv.cached v (hsame ▸ hv)).imp (fun h => h.trans he.symm) hlate
    · obtain rfl := Option.some.inj (hstored.symm.trans hv)
      -- an older version than the newest one is stored late
      by_cases hold : v' < c.newest
      · exact .inr ⟨_, List.mem_cons_self .., i, rfl, hi, hold⟩
      · exact .inl (he ▸ (max_eq_right (not_lt.mp hold)).symm)

theorem inv_run (h : Run step (start : Config ι) tr c) : Inv tr c := by
  induction h with
  | refl => exact inv_start
  | tail _ hstep ih => exact ih.step hstep

/-- What holds of a call that starts after a version was stored: it knows no older version, but for
one that was stored late. -/
structure Since (tr : List (Transition (Config ι) (Action ι))) (floor : ℕ) (c : Config ι) (i : ι) :
    Prop where
  floor_le : floor ≤ c.newest
  storing : ∀ v, c.calls i = .storing v → floor ≤ v
  returning : ∀ v, c.calls i = .returning v ∨ c.calls i = .returned v →
    floor ≤ v ∨ ∃ t ∈ tr, LateStore t v

theorem Since.step {floor : ℕ} {i : ι} (hinv : Inv tr c) (hsince : Since tr floor c i)
    (h : step c a = some c') : Since (⟨c, a, c'⟩ :: tr) floor c' i := by
  have hlate {v : ℕ} (hv : ∃ t ∈ tr, LateStore t v) :
      ∃ t ∈ (⟨c, a, c'⟩ : Transition (Config ι) (Action ι)) :: tr, LateStore t v := by
    obtain ⟨t, ht, hv⟩ := hv
    exact ⟨t, List.mem_cons_of_mem _ ht, hv⟩
  have hmoves := step_calls h i
  generalize hp : c.calls i = p at hmoves
  refine ⟨hsince.floor_le.trans (newest_le h), fun v hv => ?_, fun v hv => ?_⟩
  · rw [hv] at hmoves
    cases hmoves with
    | same => exact hsince.storing v hp
    | read => exact hsince.floor_le.trans hinv.newest_le
  · rcases hv with hv | hv
    · rw [hv] at hmoves
      cases hmoves with
      | same => exact (hsince.returning v (.inl hp)).imp_right hlate
      | hit hcached =>
        -- what is found was the newest version stored, or was stored late
        rcases hinv.cached v hcached with rfl | hv
        · exact .inl hsince.floor_le
        · exact .inr (hlate hv)
      | store => exact .inl (hsince.storing v hp)
    · rw [hv] at hmoves
      cases hmoves with
      | same => exact (hsince.returning v (.inr hp)).imp_right hlate
      | ret => exact (hsince.returning v (.inl hp)).imp_right hlate

/-- **The order of versions.**  A call that starts after another has returned returns no older
version, unless that version was stored after a newer one. -/
theorem not_older_or_lateStore {i j : ι} {v v' : ℕ} (h₁ : Run step (start : Config ι) tr₁ c₁)
    (hi : c₁.calls i = .returned v) (hj : c₁.calls j = .idle) (h₂ : Run step c₁ tr₂ c₂)
    (hj' : c₂.calls j = .returned v') : v ≤ v' ∨ ∃ t ∈ tr₂ ++ tr₁, LateStore t v' := by
  have hinv₁ := inv_run h₁
  have hsince : Since (tr₂ ++ tr₁) v c₂ j := by
    clear hj'
    induction h₂ with
    | refl =>
      refine ⟨hinv₁.returning_le i v (.inr hi), fun v hv => ?_, fun v hv => ?_⟩
      · rw [hj] at hv
        cases hv
      · rw [hj] at hv
        rcases hv with hv | hv <;> cases hv
    | tail hrun hstep ih => exact ih.step (inv_run (h₁.trans hrun)) hstep
  exact hsince.returning v' (.inr hj')

end BookingApi.ReadThrough
