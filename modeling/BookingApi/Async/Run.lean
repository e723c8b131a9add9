import Mathlib.Data.List.Basic

/-!
# Runs of a transition system

A transition system is a partial step function `step : σ → α → Option σ`, where `α` is the type of
actions.  `Run step s₀ tr s` says that `s` is reached from `s₀` by the transitions of `tr`, the
latest first.

* `Run.invariant`: an invariant of every allowed step holds in every state that a run of allowed
  steps reaches, and `Run.invariant_of_mem` in every state it passes through.
* `Run.of_replay`: a schedule that replays is a run.
-/

namespace BookingApi.Async

universe u v

/-- One step of a run: the state before, the action, the state after. -/
structure Transition (σ : Type u) (α : Type v) where
  before : σ
  action : α
  after : σ

variable {σ : Type u} {α : Type v}

/-- `s` is reached from `s₀` by the transitions of the list, the latest first. -/
inductive Run (step : σ → α → Option σ) (s₀ : σ) : List (Transition σ α) → σ → Prop
  | refl : Run step s₀ [] s₀
  | tail {tr : List (Transition σ α)} {s s' : σ} {a : α} :
      Run step s₀ tr s → step s a = some s' → Run step s₀ (⟨s, a, s'⟩ :: tr) s'

/-- Perform the actions of a schedule in order, as long as each is possible. -/
def replay (step : σ → α → Option σ) : List α → σ → Option σ
  | [], s => some s
  | a :: as, s => (step s a).bind (replay step as)

/-- The steps that pass a check. -/
def checked (step : σ → α → Option σ) (ok : σ → α → Bool) (s : σ) (a : α) : Option σ :=
  if ok s a then step s a else none

namespace Run

variable {step : σ → α → Option σ} {s₀ s : σ} {tr : List (Transition σ α)}

/-- The transitions of a run are steps, each taken in a state that the run reaches. -/
theorem of_mem (h : Run step s₀ tr s) {t : Transition σ α} (ht : t ∈ tr) :
    step t.before t.action = some t.after ∧ ∃ tr', Run step s₀ tr' t.before ∧ tr' ⊆ tr := by
  induction h with
  | refl => simp at ht
  | tail hrun hstep ih =>
    rcases List.mem_cons.mp ht with rfl | ht
    · exact ⟨hstep, _, hrun, List.subset_cons_self _ _⟩
    · obtain ⟨h1, tr', h2, h3⟩ := ih ht
      exact ⟨h1, tr', h2, fun x hx => List.mem_cons_of_mem _ (h3 hx)⟩

/-- A run up to one of its transitions. -/
theorem of_append {later earlier : List (Transition σ α)} {t : Transition σ α}
    (h : Run step s₀ (later ++ t :: earlier) s) :
    Run step s₀ earlier t.before ∧ step t.before t.action = some t.after := by
  induction later generalizing s with
  | nil =>
    cases h with
    | tail hrun hstep => exact ⟨hrun, hstep⟩
  | cons t' later ih =>
    cases h with
    | tail hrun _ => exact ih hrun

/-- **Invariance**: what holds at the start and is kept by every allowed step holds at the end of
every run of allowed steps. -/
theorem invariant {I : σ → Prop} {A : σ → α → Prop} (h₀ : I s₀)
    (hstep : ∀ {s a s'}, I s → A s a → step s a = some s' → I s')
    (h : Run step s₀ tr s) (hall : ∀ t ∈ tr, A t.before t.action) : I s := by
  induction h with
  | refl => exact h₀
  | tail hrun hs ih =>
    exact hstep (ih fun t ht => hall t (List.mem_cons_of_mem _ ht))
      (hall _ (List.mem_cons_self ..)) hs

/-- What holds at the start and is kept by every step holds at the end of every run. -/
theorem invariant_of_step {I : σ → Prop} (h₀ : I s₀)
    (hstep : ∀ {s a s'}, I s → step s a = some s' → I s') (h : Run step s₀ tr s) : I s := by
  induction h with
  | refl => exact h₀
  | tail _ hs ih => exact hstep ih hs

/-- The same for an invariant of the state and of the transitions that led to it. -/
theorem trace_invariant {I : List (Transition σ α) → σ → Prop} {A : σ → α → Prop}
    (h₀ : I [] s₀)
    (hstep : ∀ {tr s a s'}, Run step s₀ tr s → I tr s → A s a → step s a = some s' →
      I (⟨s, a, s'⟩ :: tr) s')
    (h : Run step s₀ tr s) (hall : ∀ t ∈ tr, A t.before t.action) : I tr s := by
  induction h with
  | refl => exact h₀
  | tail hrun hs ih =>
    exact hstep hrun (ih fun t ht => hall t (List.mem_cons_of_mem _ ht))
      (hall _ (List.mem_cons_self ..)) hs

/-- An invariant holds before every transition of the run. -/
theorem invariant_of_mem {I : σ → Prop} {A : σ → α → Prop} (h₀ : I s₀)
    (hstep : ∀ {s a s'}, I s → A s a → step s a = some s' → I s')
    (h : Run step s₀ tr s) (hall : ∀ t ∈ tr, A t.before t.action)
    {t : Transition σ α} (ht : t ∈ tr) : I t.before := by
  obtain ⟨-, tr', hrun, hsub⟩ := h.of_mem ht
  exact hrun.invariant h₀ hstep fun t' ht' => hall t' (hsub ht')

/-- What every step keeps holds from a transition on. -/
theorem stays {P : σ → Prop} (hstep : ∀ {s a s'}, P s → step s a = some s' → P s')
    (h : Run step s₀ tr s) {t : Transition σ α} (ht : t ∈ tr) (hP : P t.after) : P s := by
  induction h with
  | refl => simp at ht
  | tail hrun hs ih =>
    rcases List.mem_cons.mp ht with rfl | ht
    · exact hP
    · exact hstep (ih ht) hs

/-- A run seen through a function of the states and one of the actions that carry steps to steps, in
states with an invariant. -/
theorem map {τ β : Type*} {step' : τ → β → Option τ} {f : σ → τ} {g : α → β} {I : σ → Prop}
    (h₀ : I s₀)
    (hstep : ∀ {s a s'}, I s → step s a = some s' → I s' ∧ step' (f s) (g a) = some (f s'))
    (h : Run step s₀ tr s) :
    I s ∧ Run step' (f s₀) (tr.map fun t => ⟨f t.before, g t.action, f t.after⟩) (f s) := by
  induction h with
  | refl => exact ⟨h₀, .refl⟩
  | tail _ hs ih =>
    obtain ⟨hI, hs'⟩ := hstep ih.1 hs
    exact ⟨hI, ih.2.tail hs'⟩

/-- Two runs in succession. -/
theorem trans {s' : σ} {tr' : List (Transition σ α)} (h : Run step s₀ tr s)
    (h' : Run step s tr' s') : Run step s₀ (tr' ++ tr) s' := by
  induction h' with
  | refl => exact h
  | tail _ hs ih => exact ih.tail hs

/-- A single step is a run. -/
theorem single {s' : σ} {a : α} (h : step s a = some s') : Run step s [⟨s, a, s'⟩] s' :=
  refl.tail h

/-- A schedule that replays is a run of its actions. -/
theorem of_replay_mem {as : List α} {s' : σ} (h : replay step as s = some s') :
    ∃ tr, Run step s tr s' ∧ ∀ t ∈ tr, t.action ∈ as := by
  induction as generalizing s with
  | nil =>
    obtain rfl := Option.some.inj h
    exact ⟨[], .refl, fun t ht => absurd ht List.not_mem_nil⟩
  | cons a as ih =>
    rw [replay, Option.bind_eq_some_iff] at h
    obtain ⟨s₁, h₁, h₂⟩ := h
    obtain ⟨tr, hrun, hacts⟩ := ih h₂
    refine ⟨tr ++ [⟨s, a, s₁⟩], (single h₁).trans hrun, fun t ht => ?_⟩
    rcases List.mem_append.mp ht with ht | ht
    · exact List.mem_cons_of_mem _ (hacts t ht)
    · rw [List.mem_singleton.mp ht]
      exact List.mem_cons_self ..

theorem of_replay {as : List α} {s' : σ} (h : replay step as s = some s') :
    ∃ tr, Run step s tr s' := by
  obtain ⟨tr, hrun, -⟩ := of_replay_mem h
  exact ⟨tr, hrun⟩

/-- A schedule that replays to a state with a decidable property gives a run to such a state. -/
theorem exists_of_replay (P : σ → Prop) [DecidablePred P] {as : List α}
    (h : ((replay step as s).map fun s' => decide (P s')) = some true) :
    ∃ tr s', Run step s tr s' ∧ P s' := by
  obtain ⟨s', hs, hP⟩ := Option.map_eq_some_iff.mp h
  obtain ⟨tr, hrun⟩ := of_replay hs
  exact ⟨tr, s', hrun, of_decide_eq_true hP⟩

/-- A run of checked steps is a run in which every step passes the check. -/
theorem of_checked {ok : σ → α → Bool} (h : Run (checked step ok) s₀ tr s) :
    Run step s₀ tr s ∧ ∀ t ∈ tr, ok t.before t.action := by
  induction h with
  | refl => exact ⟨.refl, fun t ht => absurd ht List.not_mem_nil⟩
  | tail _ hs ih =>
    rw [checked] at hs
    split_ifs at hs with hok
    refine ⟨ih.1.tail hs, fun t ht => ?_⟩
    rcases List.mem_cons.mp ht with rfl | ht
    · exact hok
    · exact ih.2 t ht

end Run

end BookingApi.Async
