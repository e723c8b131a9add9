import BookingApi.Async.Liveness

/-!
# What a handler does along a run

Until its first step a handler is where it started (`exists_first_step`).  Whatever holds of a
program and of everything that may be left of it holds of the handler later (`holds_of_next`), and
each of its steps is one of the operations that its program uses (`performs_of_run`).
-/

namespace BookingApi.Async

variable {Op : Type → Type 1} {ε Id σ α Fault Env : Type}

/-- The rest of a run after one of its transitions. -/
theorem Run.after {σ α : Type*} {step : σ → α → Option σ} {s₀ s : σ}
    {later earlier : List (Transition σ α)} {t : Transition σ α}
    (h : Run step s₀ (later ++ t :: earlier) s) : Run step t.after later s := by
  induction later generalizing s with
  | nil =>
    cases h with
    | tail hrun hstep => exact .refl
  | cons t' later ih =>
    cases h with
    | tail hrun hstep => exact .tail (ih hrun) hstep

namespace Program

/-- The program does not return. -/
def Fails : Program Op ε α → Prop
  | ret _ => False
  | raise _ => True
  | call _ next => ∀ r, (next r).Fails

theorem Fails.next {p q : Program Op ε α} (h : p.Fails) (hnext : Next p q) : q.Fails := by
  cases hnext with
  | call op next r => exact h r

theorem Fails.result?_ne {p : Program Op ε α} (h : p.Fails) (a : α) : p.result? ≠ some (.ok a) := by
  cases p with
  | ret b => exact h.elim
  | raise e => simp [result?]
  | call op next => simp [result?]

theorem Uses.next {P : ∀ β : Type, Op β → Prop} {p q : Program Op ε α} (h : p.Uses P)
    (hnext : Next p q) : q.Uses P := by
  cases hnext with
  | call op next r => exact h.2 r

end Program

/-- An operation of `P` of the handler leads from one state to the other. -/
def Semantics.Performs (sem : Semantics Op ε Id σ Fault Env) (P : ∀ β : Type, Op β → Prop) (i : Id)
    (s s' : σ) : Prop :=
  ∃ β, ∃ op : Op β, P β op ∧
    (s' = (sem.exec i β op s).2 ∨ ∃ φ e, sem.fault i β op φ s = some (e, s'))

variable [DecidableEq Id] {P : ∀ β : Type, Op β → Prop} {sem : Semantics Op ε Id σ Fault Env}
  {c c₀ c' : Config Id σ (Program Op ε α)} {i : Id} {a : Action Id Fault Env}
  {tr : List (Transition (Config Id σ (Program Op ε α)) (Action Id Fault Env))}

/-- What a program and all that may be left of it have in common. -/
theorem holds_of_next {H : Program Op ε α → Prop} (hnext : ∀ {p q}, H p → p.Next q → H q)
    (hrun : Run (step sem Program.await) c₀ tr c) (h : H (c₀.threads i)) : H (c.threads i) := by
  induction hrun with
  | refl => exact h
  | @tail tr c c' a hrun hstep ih =>
    by_cases ha : a.handler = some i
    · exact hnext ih (next_of_step hstep ha)
    · rwa [threads_of_step hstep ha]

theorem performs_of_step (hstep : step sem Program.await c a = some c') (ha : a.handler = some i)
    (hp : (c.threads i).Uses P) : sem.Performs P i c.shared c'.shared := by
  cases a with
  | run j =>
    obtain rfl : j = i := Option.some.inj ha
    obtain ⟨β, op, next, hawait, -, hs, -⟩ := step_run hstep
    rw [Program.await_eq_call_iff.mp hawait] at hp
    exact ⟨β, op, hp.1, .inl hs⟩
  | fault j φ =>
    obtain rfl : j = i := Option.some.inj ha
    obtain ⟨β, op, next, e, hawait, hfault, -⟩ := step_fault hstep
    rw [Program.await_eq_call_iff.mp hawait] at hp
    exact ⟨β, op, hp.1, .inr ⟨φ, e, hfault⟩⟩
  | env e => cases ha

/-- Every step of a handler is one of its operations. -/
theorem performs_of_run (hp : (c₀.threads i).Uses P)
    (hrun : Run (step sem Program.await) c₀ tr c)
    {t : Transition (Config Id σ (Program Op ε α)) (Action Id Fault Env)} (ht : t ∈ tr)
    (ha : t.action.handler = some i) : sem.Performs P i t.before.shared t.after.shared := by
  obtain ⟨hstep, tr', hbefore, -⟩ := hrun.of_mem ht
  exact performs_of_step hstep ha (holds_of_next (H := (·.Uses P)) Program.Uses.next hbefore hp)

/-- **The first step** of a handler, if it has moved. -/
theorem exists_first_step (hrun : Run (step sem Program.await) c₀ tr c) (i : Id) :
    ((∀ t ∈ tr, t.action.handler ≠ some i) ∧ c.threads i = c₀.threads i) ∨
      ∃ later t earlier, tr = later ++ t :: earlier ∧ t.action.handler = some i ∧
        (∀ t' ∈ earlier, t'.action.handler ≠ some i) ∧ t.before.threads i = c₀.threads i := by
  induction hrun with
  | refl => exact .inl ⟨fun t ht => absurd ht List.not_mem_nil, rfl⟩
  | @tail tr c c' a hrun hstep ih =>
    rcases ih with ⟨hnone, hsame⟩ | ⟨later, t, earlier, rfl, hact, hnone, hsame⟩
    · by_cases ha : a.handler = some i
      · exact .inr ⟨[], _, tr, rfl, ha, hnone, hsame⟩
      · refine .inl ⟨fun t ht => ?_, (threads_of_step hstep ha).trans hsame⟩
        rcases List.mem_cons.mp ht with rfl | ht
        · exact ha
        · exact hnone t ht
    · exact .inr ⟨_ :: later, t, earlier, rfl, hact, hnone, hsame⟩

end BookingApi.Async
