import BookingApi.Async.Interleaving

/-!
# Simulation of handlers

Two systems of handlers over one kind of world.  A handler of the first follows one of the second:
it awaits an operation that does the same to the world, or an operation that leaves the world as it
is and that the second does not make (`Simulation`).  Then every run of the first is a run of the
second with some steps left out that change nothing (`Simulation.run`).
-/

namespace BookingApi.Async

universe u v

variable {Op : Type → Type 1} {ε α α' Id σ Fault Env : Type} {Pc : Type u} {Pc' : Type v}

/-- The transitions of the first run are those of the second, and some that do not change the
world. -/
inductive Skips {A : Type} :
    List (Transition (Config Id σ Pc) A) → List (Transition (Config Id σ Pc') A) → Prop
  | nil : Skips [] []
  | keep {tr tr'} {t : Transition (Config Id σ Pc) A} {t' : Transition (Config Id σ Pc') A} :
    Skips tr tr' → t'.before.shared = t.before.shared → t'.action = t.action →
      t'.after.shared = t.after.shared → Skips (t :: tr) (t' :: tr')
  | skip {tr tr'} {t : Transition (Config Id σ Pc) A} :
    Skips tr tr' → t.after.shared = t.before.shared → Skips (t :: tr) tr'

/-- A transition that changes the world is kept. -/
theorem Skips.exists_of_mem {A : Type} {tr : List (Transition (Config Id σ Pc) A)}
    {tr' : List (Transition (Config Id σ Pc') A)} (h : Skips tr tr')
    {t : Transition (Config Id σ Pc) A} (ht : t ∈ tr) (hne : t.after.shared ≠ t.before.shared) :
    ∃ t' ∈ tr', t'.before.shared = t.before.shared ∧ t'.action = t.action ∧
      t'.after.shared = t.after.shared := by
  induction h with
  | nil => exact absurd ht List.not_mem_nil
  | @keep tr tr' t₁ t₁' _ hbefore haction hafter ih =>
    rcases List.mem_cons.mp ht with rfl | ht
    · exact ⟨t₁', List.mem_cons_self .., hbefore, haction, hafter⟩
    · obtain ⟨t', ht', heq⟩ := ih ht
      exact ⟨t', List.mem_cons_of_mem _ ht', heq⟩
  | skip _ hsame ih =>
    rcases List.mem_cons.mp ht with rfl | ht
    · exact absurd hsame hne
    · exact ih ht

/-- The transitions of the second run are transitions of the first one. -/
theorem Skips.exists_origin {A : Type} {tr : List (Transition (Config Id σ Pc) A)}
    {tr' : List (Transition (Config Id σ Pc') A)} (h : Skips tr tr')
    {t' : Transition (Config Id σ Pc') A} (ht' : t' ∈ tr') :
    ∃ t ∈ tr, t'.before.shared = t.before.shared ∧ t'.action = t.action ∧
      t'.after.shared = t.after.shared := by
  induction h with
  | nil => exact absurd ht' List.not_mem_nil
  | @keep tr tr' t₁ t₁' _ hbefore haction hafter ih =>
    rcases List.mem_cons.mp ht' with rfl | ht'
    · exact ⟨t₁, List.mem_cons_self .., hbefore, haction, hafter⟩
    · obtain ⟨t, ht, heq⟩ := ih ht'
      exact ⟨t, List.mem_cons_of_mem _ ht, heq⟩
  | skip _ _ ih =>
    obtain ⟨t, ht, heq⟩ := ih ht'
    exact ⟨t, List.mem_cons_of_mem _ ht, heq⟩

/-- In every state of the world the handlers `R` make steps with the same effect, up to steps of the
first that leave the world alone, and the steps of the others keep them so. -/
structure Simulation (sem : Semantics Op ε Id σ Fault Env) (next : Pc → Await Op ε α Pc)
    (next' : Pc' → Await Op ε α' Pc') (R : Id → σ → Pc → Pc' → Prop) : Prop where
  exec : ∀ {i s p q β} {op : Op β} {resume}, R i s p q → next p = .call op resume →
    (∃ (β' : Type) (op' : Op β') (resume' : Except ε β' → Pc'), next' q = .call op' resume' ∧
      (sem.enabled i β op s = true → sem.enabled i β' op' s = true) ∧
      (sem.exec i β' op' s).2 = (sem.exec i β op s).2 ∧
      R i (sem.exec i β op s).2 (resume (sem.exec i β op s).1) (resume' (sem.exec i β' op' s).1)) ∨
    (sem.exec i β op s).2 = s ∧ R i s (resume (sem.exec i β op s).1) q
  fault : ∀ {i s s' p q β} {op : Op β} {resume} {φ : Fault} {e : ε}, R i s p q →
    next p = .call op resume → sem.fault i β op φ s = some (e, s') →
    (∃ (β' : Type) (op' : Op β') (resume' : Except ε β' → Pc') (e' : ε),
      next' q = .call op' resume' ∧ sem.fault i β' op' φ s = some (e', s') ∧
      R i s' (resume (.error e)) (resume' (.error e'))) ∨
    s' = s ∧ R i s (resume (.error e)) q
  exec_other : ∀ {i j s p q β} {op : Op β}, R j s p q → j ≠ i → R j (sem.exec i β op s).2 p q
  fault_other : ∀ {i j s s' p q β} {op : Op β} {φ : Fault} {e : ε}, R j s p q → j ≠ i →
    sem.fault i β op φ s = some (e, s') → R j s' p q
  env : ∀ {j s p q} {e : Env}, R j s p q → R j (sem.env e s) p q

namespace Simulation

variable [DecidableEq Id] {sem : Semantics Op ε Id σ Fault Env} {next : Pc → Await Op ε α Pc}
  {next' : Pc' → Await Op ε α' Pc'} {R : Id → σ → Pc → Pc' → Prop} {c c' c₀ : Config Id σ Pc}
  {d d₀ : Config Id σ Pc'} {tr : List (Transition (Config Id σ Pc) (Action Id Fault Env))}

/-- The two configurations have the same world, and their handlers are in `R`. -/
structure Related (R : Id → σ → Pc → Pc' → Prop) (c : Config Id σ Pc) (d : Config Id σ Pc') :
    Prop where
  shared : d.shared = c.shared
  threads : ∀ i, R i c.shared (c.threads i) (d.threads i)

/-- The handler that has moved, and the others. -/
theorem related_update {i : Id} {s : σ} {p : Pc} {q : Pc'} (hi : R i s p q)
    (hothers : ∀ j, j ≠ i → R j s (c.threads j) (d.threads j)) :
    Related R ⟨s, Function.update c.threads i p⟩ ⟨s, Function.update d.threads i q⟩ := by
  refine ⟨rfl, fun j => ?_⟩
  show R j s (Function.update c.threads i p j) (Function.update d.threads i q j)
  by_cases hj : j = i
  · subst hj
    rw [Function.update_self, Function.update_self]
    exact hi
  · rw [Function.update_of_ne hj, Function.update_of_ne hj]
    exact hothers j hj

/-- **A step** is made by both, or changes nothing. -/
theorem step (hsim : Simulation sem next next' R) (hrel : Related R c d)
    {a : Action Id Fault Env} (hstep : Async.step sem next c a = some c') :
    (∃ d', Async.step sem next' d a = some d' ∧ Related R c' d') ∨
      c'.shared = c.shared ∧ Related R c' d := by
  obtain ⟨hshared, hthreads⟩ := hrel
  -- the second stays where it is
  have stay {i : Id} {p : Pc} {s : σ} (hc' : c' = ⟨s, Function.update c.threads i p⟩)
      (hs : s = c.shared) (hi : R i c.shared p (d.threads i)) :
      c'.shared = c.shared ∧ Related R c' d := by
    subst hc' hs
    refine ⟨rfl, ?_⟩
    have hrel := related_update hi fun j _ => hthreads j
    rw [Function.update_eq_self] at hrel
    exact ⟨hshared, hrel.threads⟩
  obtain ⟨s, threads⟩ := d
  obtain rfl : s = c.shared := hshared
  cases a with
  | run i =>
    obtain ⟨β, op, resume, hnext, henabled, hs, hupdate⟩ := step_run hstep
    have hc' : c' = ⟨(sem.exec i β op c.shared).2,
        Function.update c.threads i (resume (sem.exec i β op c.shared).1)⟩ := by
      rw [← hs, ← hupdate]
    rcases hsim.exec (hthreads i) hnext with
      ⟨β', op', resume', hnext', henabled', hexec, hR⟩ | ⟨hsame, hR⟩
    · refine .inl ⟨_, ?_, hc' ▸ related_update hR fun j hj => hsim.exec_other (hthreads j) hj⟩
      rw [Async.step]
      simp only [hnext', henabled' henabled, hexec, if_true]
    · exact .inr (stay hc' hsame hR)
  | fault i φ =>
    obtain ⟨β, op, resume, e, hnext, hfault, hupdate⟩ := step_fault hstep
    have hc' : c' = ⟨c'.shared, Function.update c.threads i (resume (.error e))⟩ := by
      rw [← hupdate]
    rcases hsim.fault (hthreads i) hnext hfault with
      ⟨β', op', resume', e', hnext', hfault', hR⟩ | ⟨hsame, hR⟩
    · have hrelated := related_update hR fun j hj => hsim.fault_other (hthreads j) hj hfault
      rw [← hc'] at hrelated
      refine .inl ⟨_, ?_, hrelated⟩
      rw [Async.step]
      simp only [hnext', hfault', Option.map_some]
    · exact .inr (stay hc' hsame hR)
  | env e =>
    obtain rfl := step_env hstep
    exact .inl ⟨_, rfl, rfl, fun j => hsim.env (hthreads j)⟩

/-- **Every run** of the first system is one of the second, up to steps that change nothing. -/
theorem run (hsim : Simulation sem next next' R)
    (hrun : Run (Async.step sem next) c₀ tr c) (hrel : Related R c₀ d₀) :
    ∃ tr' d, Run (Async.step sem next') d₀ tr' d ∧ Skips tr tr' ∧ Related R c d := by
  induction hrun with
  | refl => exact ⟨[], d₀, .refl, .nil, hrel⟩
  | @tail tr c c' a hrun hstep ih =>
    obtain ⟨tr', d, hrun', hskips, hrel'⟩ := ih
    rcases hsim.step hrel' hstep with ⟨d', hstep', hrel''⟩ | ⟨hsame, hrel''⟩
    · exact ⟨_, d', hrun'.tail hstep', .keep hskips hrel'.shared rfl hrel''.shared, hrel''⟩
    · exact ⟨tr', d, hrun', .skip hskips hsame, hrel''⟩

end Simulation

end BookingApi.Async
