import BookingApi.Async.Protocol
import Mathlib.Data.Set.Finite.Lattice

/-!
# Every handler ends

A handler performs finitely many operations on every path, so along an infinite execution of
finitely many handlers all but finitely many actions are the environment's
(`Execution.eventually_env`).  If moreover some handler can always move while one has not ended, and
the scheduler does not let the environment act alone for ever, then every handler ends
(`Execution.eventually_all_ended`).
-/

namespace BookingApi.Async

universe u v

/-- An infinite run. -/
structure Execution {σ : Type u} {α : Type v} (step : σ → α → Option σ) (s₀ : σ) where
  state : ℕ → σ
  action : ℕ → α
  state_zero : state 0 = s₀
  step_state : ∀ n, step (state n) (action n) = some (state (n + 1))

/-- An execution up to a point is a run. -/
theorem Execution.exists_run {σ : Type u} {α : Type v} {step : σ → α → Option σ} {s₀ : σ}
    (x : Execution step s₀) (n : ℕ) :
    ∃ tr, Run step s₀ tr (x.state n) ∧ ∀ t ∈ tr, ∃ k, t.action = x.action k := by
  induction n with
  | zero =>
    rw [x.state_zero]
    exact ⟨[], .refl, by simp⟩
  | succ n ih =>
    obtain ⟨tr, hrun, hacts⟩ := ih
    refine ⟨_, hrun.tail (x.step_state n), fun t ht => ?_⟩
    rcases List.mem_cons.mp ht with rfl | ht
    · exact ⟨n, rfl⟩
    · exact hacts t ht

/-! ### Executions from schedules -/

section

variable {σ : Type u} {α : Type v} {step : σ → α → Option σ} {s s' : σ} {a e : α} {f : σ → σ}

/-- One action for ever. -/
def Execution.idle (h : ∀ s, step s e = some (f s)) (s : σ) : Execution step s where
  state n := f^[n] s
  action _ := e
  state_zero := rfl
  step_state n := by rw [h, Function.iterate_succ_apply']

/-- A step first. -/
def Execution.cons (h : step s a = some s') (x : Execution step s') : Execution step s where
  state
    | 0 => s
    | n + 1 => x.state n
  action
    | 0 => a
    | n + 1 => x.action n
  state_zero := rfl
  step_state
    | 0 => h.trans (congrArg some x.state_zero.symm)
    | n + 1 => x.step_state n

/-- A schedule that replays, and one action for ever after it. -/
theorem exists_execution (hidle : ∀ s, step s e = some (f s)) {as : List α}
    (h : replay step as s = some s') : ∃ x : Execution step s,
      (∀ n, n < as.length → x.action n ∈ as) ∧
      ∀ n, as.length ≤ n → x.state n = f^[n - as.length] s' := by
  induction as generalizing s with
  | nil =>
    obtain rfl := Option.some.inj h
    exact ⟨.idle hidle s, fun n hn => absurd hn (Nat.not_lt_zero n), fun n _ => rfl⟩
  | cons a as ih =>
    rw [replay, Option.bind_eq_some_iff] at h
    obtain ⟨s₁, hstep, hrest⟩ := h
    obtain ⟨x, hact, hstate⟩ := ih hrest
    refine ⟨.cons hstep x, fun n hn => ?_, fun n hn => ?_⟩
    · rcases n with _ | n
      · exact List.mem_cons_self ..
      · exact List.mem_cons_of_mem _ (hact n (Nat.lt_of_succ_lt_succ hn))
    · rcases n with _ | n
      · exact absurd hn (Nat.not_succ_le_zero _)
      · rw [List.length_cons, Nat.add_sub_add_right]
        exact hstate n (Nat.le_of_succ_le_succ hn)

end

variable {Op : Type → Type 1} {ε Id σ α Fault Env : Type}

namespace Program

/-- The program has come to an end. -/
def Ended (p : Program Op ε α) : Prop := ∃ r, p.await = .ended r

/-- The program `q` is what is left of `p` after its next operation. -/
inductive Next : Program Op ε α → Program Op ε α → Prop
  | call {β : Type} (op : Op β) (next : Except ε β → Program Op ε α) (r : Except ε β) :
    Next (.call op next) (next r)

theorem not_ended_of_next {p q : Program Op ε α} (h : Next p q) : ¬ p.Ended := by
  rintro ⟨r, hr⟩
  cases h
  simp [await] at hr

theorem wellFounded_next : WellFounded fun q p : Program Op ε α => Next p q := by
  refine ⟨fun p => ?_⟩
  induction p with
  | ret a => exact ⟨_, fun q h => nomatch h⟩
  | raise e => exact ⟨_, fun q h => nomatch h⟩
  | call op next ih =>
    refine ⟨_, fun q h => ?_⟩
    cases h with
    | call _ _ r => exact ih r

/-- **Finitely many operations**: a program that moves on at some times, and stays the same at the
others, moves on finitely often. -/
theorem eventually_still {f : ℕ → Program Op ε α} {moves : ℕ → Prop}
    (hmove : ∀ n, moves n → Next (f n) (f (n + 1))) (hstay : ∀ n, ¬ moves n → f (n + 1) = f n) :
    ∃ N, ∀ n, N ≤ n → ¬ moves n := by
  suffices hend : ∀ p, ∀ k, f k = p → ∃ N, ∀ n, N ≤ n → ¬ moves n from hend (f 0) 0 rfl
  intro p
  -- up to the next move the program is `p`, and the move leaves less of it
  induction p using wellFounded_next.induction with
  | h p ih =>
    intro k hk
    have hsame (d : ℕ) (hd : ∀ n, k ≤ n → n < k + d → ¬ moves n) : f (k + d) = p := by
      induction d with
      | zero => exact hk
      | succ d ihd =>
        have hf : f (k + d) = p := ihd fun n hn hlt => hd n hn (by omega)
        exact (hstay (k + d) (hd _ (by omega) (by omega))).trans hf
    by_cases hmoves : ∃ d, moves (k + d)
    · classical
      have hfirst : f (k + Nat.find hmoves) = p := by
        refine hsame _ fun n hn hlt hm => Nat.find_min hmoves (m := n - k) (by omega) ?_
        rwa [Nat.add_sub_cancel' hn]
      have hnext := hmove _ (Nat.find_spec hmoves)
      rw [hfirst] at hnext
      exact ih _ hnext _ rfl
    · refine ⟨k, fun n hn hm => hmoves ⟨n - k, ?_⟩⟩
      rwa [Nat.add_sub_cancel' hn]

end Program

/-! ### Infinite executions -/

variable [DecidableEq Id] {sem : Semantics Op ε Id σ Fault Env}
  {c c' c₀ : Config Id σ (Program Op ε α)} {a : Action Id Fault Env} {i : Id}

/-- An action moves its own handler on. -/
theorem next_of_step (h : step sem Program.await c a = some c') (ha : a.handler = some i) :
    Program.Next (c.threads i) (c'.threads i) := by
  cases a with
  | run j =>
    obtain rfl : j = i := Option.some.inj ha
    obtain ⟨β, op, next, hawait, -, -, hthreads⟩ := step_run h
    rw [hthreads, Function.update_self, Program.await_eq_call_iff.mp hawait]
    exact .call op next _
  | fault j f =>
    obtain rfl : j = i := Option.some.inj ha
    obtain ⟨β, op, next, e, hawait, -, hthreads⟩ := step_fault h
    rw [hthreads, Function.update_self, Program.await_eq_call_iff.mp hawait]
    exact .call op next _
  | env e => cases ha

/-- An action leaves the other handlers where they are. -/
theorem threads_of_step (h : step sem Program.await c a = some c') (ha : a.handler ≠ some i) :
    c'.threads i = c.threads i := by
  cases a with
  | run j =>
    obtain ⟨β, op, next, -, -, -, hthreads⟩ := step_run h
    rw [hthreads, Function.update_of_ne fun hij => ha (congrArg some hij.symm)]
  | fault j f =>
    obtain ⟨β, op, next, e, -, -, hthreads⟩ := step_fault h
    rw [hthreads, Function.update_of_ne fun hij => ha (congrArg some hij.symm)]
  | env e => rw [step_env h]

namespace Execution

variable (x : Execution (step sem Program.await) c₀)

/-- A handler that has ended stays where it is. -/
theorem threads_eq_of_ended {n m : ℕ} (hnm : n ≤ m) (h : ((x.state n).threads i).Ended) :
    (x.state m).threads i = (x.state n).threads i := by
  induction m, hnm using Nat.le_induction with
  | base => rfl
  | succ m _ ih =>
    rw [← ih] at h ⊢
    refine threads_of_step (x.step_state m) fun ha => ?_
    exact Program.not_ended_of_next (next_of_step (x.step_state m) ha) h

/-- One handler moves finitely often. -/
theorem eventually_not_handler (i : Id) : ∃ N, ∀ n, N ≤ n → (x.action n).handler ≠ some i :=
  Program.eventually_still (f := fun n => (x.state n).threads i)
    (fun n hn => next_of_step (x.step_state n) hn) fun n hn => threads_of_step (x.step_state n) hn

/-- **Finitely many handlers** move finitely often: from some time on only the environment acts. -/
theorem eventually_env (hfin : {i | ¬ (c₀.threads i).Ended}.Finite) :
    ∃ N, ∀ n, N ≤ n → (x.action n).handler = none := by
  choose last hlast using x.eventually_not_handler
  obtain ⟨N, hN⟩ := (hfin.image last).bddAbove
  refine ⟨N, fun n hn => Option.eq_none_iff_forall_ne_some.mpr fun i hi => ?_⟩
  by_cases hended : (c₀.threads i).Ended
  · -- a handler without operations does not move
    rw [← x.state_zero] at hended
    have hthreads := x.threads_eq_of_ended (Nat.zero_le n) hended
    exact Program.not_ended_of_next (next_of_step (x.step_state n) hi) (hthreads ▸ hended)
  · exact hlast i n (le_trans (hN (Set.mem_image_of_mem last hended)) hn) hi

/-- As long as a handler can move, one of them does so at some time. -/
def Fair : Prop :=
  ∀ n, (∃ i c', step sem Program.await (x.state n) (.run i) = some c') →
    ∃ m, n ≤ m ∧ (x.action m).handler ≠ none

/-- **Every handler ends**, if some handler can always move while one has not ended. -/
theorem eventually_all_ended (hfin : {i | ¬ (c₀.threads i).Ended}.Finite) (hfair : x.Fair)
    (hprogress : ∀ n, (∃ i, ¬ ((x.state n).threads i).Ended) →
      ∃ i c', step sem Program.await (x.state n) (.run i) = some c') :
    ∃ N, ∀ n, N ≤ n → ∀ i, ((x.state n).threads i).Ended := by
  obtain ⟨N, hN⟩ := x.eventually_env hfin
  refine ⟨N, fun n hn i => ?_⟩
  by_contra hi
  obtain ⟨m, hm, hact⟩ := hfair n (hprogress n ⟨i, hi⟩)
  exact hact (hN m (le_trans hn hm))

end Execution

end BookingApi.Async
