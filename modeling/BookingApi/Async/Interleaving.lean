import BookingApi.Async.Program
import BookingApi.Async.Run

/-!
# Interleaved execution

Any number of handlers run over one shared world.  A handler is given by its control points: `next`
tells for each point whether the handler has ended there or which operation it awaits, and where it
resumes with the outcome.  `Presents next p pc` says that the handler at `pc` is exactly the
program `p`, so that a control-point machine can be compared with the program it was read from.

A step (`step`) lets one awaited operation return, lets it raise by a fault, or lets the environment
act.  `run_alone`: a handler that is scheduled without interruption ends as `Program.run` says.
-/

namespace BookingApi.Async

universe u

/-- What a handler does at a control point. -/
inductive Await (Op : Type → Type 1) (ε α : Type) (Pc : Type u) : Type (max 1 u)
  | ended (r : Except ε α)
  | call {β : Type} (op : Op β) (resume : Except ε β → Pc)

variable {Op : Type → Type 1} {ε α : Type} {Pc : Type u}

/-- The handler at control point `pc` is the program `p`. -/
inductive Presents (next : Pc → Await Op ε α Pc) : Program Op ε α → Pc → Prop
  | ret {a : α} {pc : Pc} : next pc = .ended (.ok a) → Presents next (.ret a) pc
  | raise {e : ε} {pc : Pc} : next pc = .ended (.error e) → Presents next (.raise e) pc
  | call {β : Type} {op : Op β} {k : Except ε β → Program Op ε α} {resume : Except ε β → Pc}
      {pc : Pc} : next pc = .call op resume → (∀ r, Presents next (k r) (resume r)) →
      Presents next (.call op k) pc

/-- A handler as part of a machine with more control points and more kinds of results. -/
def Await.map {α' : Type} {Pc' : Type*} (f : α → α') (g : Pc → Pc') :
    Await Op ε α Pc → Await Op ε α' Pc'
  | .ended r => .ended (r.map f)
  | .call op resume => .call op (g ∘ resume)

theorem Presents.map {α' : Type} {Pc' : Type*} {f : α → α'} {g : Pc → Pc'}
    {next : Pc → Await Op ε α Pc} {next' : Pc' → Await Op ε α' Pc'}
    (hg : ∀ pc, next' (g pc) = (next pc).map f g) {p : Program Op ε α} {pc : Pc}
    (h : Presents next p pc) : Presents next' (p.bind (.ret ∘ f)) (g pc) := by
  induction h with
  | ret hn => exact .ret (by rw [hg, hn]; rfl)
  | raise hn => exact .raise (by rw [hg, hn]; rfl)
  | call hn _ ih => exact .call (by rw [hg, hn]; rfl) ih

/-- How operations act on the shared world `σ` when handler `i` awaits them. -/
structure Semantics (Op : Type → Type 1) (ε Id σ Fault Env : Type) where
  /-- The operation returns or raises of its own accord. -/
  exec : Id → ∀ β : Type, Op β → σ → Except ε β × σ
  /-- The operation need not wait for another handler. -/
  enabled : Id → ∀ β : Type, Op β → σ → Bool
  /-- The operation is hit by a fault and raises. -/
  fault : Id → ∀ β : Type, Op β → Fault → σ → Option (ε × σ)
  /-- The environment acts. -/
  env : Env → σ → σ

/-- The shared world and the control point of every handler. -/
structure Config (Id σ : Type) (Pc : Type u) where
  shared : σ
  threads : Id → Pc

/-- What can happen next. -/
inductive Action (Id Fault Env : Type)
  | run (i : Id)
  | fault (i : Id) (f : Fault)
  | env (e : Env)
deriving DecidableEq

/-- An operation is hit by a fault. -/
def Action.isFault {Id Fault Env : Type} : Action Id Fault Env → Bool
  | .fault _ _ => true
  | _ => false

variable {Id σ Fault Env : Type} [DecidableEq Id] (sem : Semantics Op ε Id σ Fault Env)
  (next : Pc → Await Op ε α Pc)

/-- Perform one action, if it is possible. -/
def step (c : Config Id σ Pc) : Action Id Fault Env → Option (Config Id σ Pc)
  | .run i => match next (c.threads i) with
    | .ended _ => none
    | .call op resume =>
      if sem.enabled i _ op c.shared then
        let (r, s) := sem.exec i _ op c.shared
        some ⟨s, Function.update c.threads i (resume r)⟩
      else none
  | .fault i f => match next (c.threads i) with
    | .ended _ => none
    | .call op resume =>
      (sem.fault i _ op f c.shared).map fun (e, s) =>
        ⟨s, Function.update c.threads i (resume (.error e))⟩
  | .env e => some ⟨sem.env e c.shared, c.threads⟩

variable {sem next} {c c' : Config Id σ Pc}

/-- A handler's operation returned or raised of its own accord. -/
theorem step_run {i : Id} (h : step sem next c (.run i) = some c') :
    ∃ (β : Type) (op : Op β) (resume : Except ε β → Pc), next (c.threads i) = .call op resume ∧
      sem.enabled i β op c.shared = true ∧ c'.shared = (sem.exec i β op c.shared).2 ∧
      c'.threads = Function.update c.threads i (resume (sem.exec i β op c.shared).1) := by
  rw [step] at h
  split at h
  · simp at h
  · rename_i β op resume hn
    split_ifs at h with he
    obtain rfl := Option.some.inj h
    exact ⟨β, op, resume, hn, he, rfl, rfl⟩

/-- A handler's operation was hit by a fault. -/
theorem step_fault {i : Id} {f : Fault} (h : step sem next c (.fault i f) = some c') :
    ∃ (β : Type) (op : Op β) (resume : Except ε β → Pc) (e : ε),
      next (c.threads i) = .call op resume ∧ sem.fault i β op f c.shared = some (e, c'.shared) ∧
      c'.threads = Function.update c.threads i (resume (.error e)) := by
  rw [step] at h
  split at h
  · simp at h
  · rename_i β op resume hn
    rw [Option.map_eq_some_iff] at h
    obtain ⟨⟨e, s⟩, hf, rfl⟩ := h
    exact ⟨β, op, resume, e, hn, hf, rfl⟩

theorem step_env {e : Env} (h : step sem next c (.env e) = some c') :
    c' = ⟨sem.env e c.shared, c.threads⟩ :=
  (Option.some.inj h).symm

/-- A handler that has ended does not move. -/
theorem threads_of_ended {i : Id} {result : Except ε α} {a : Action Id Fault Env}
    (hended : next (c.threads i) = .ended result) (h : step sem next c a = some c') :
    c'.threads i = c.threads i := by
  have other {j : Id} {β : Type} {op : Op β} {resume : Except ε β → Pc}
      (hnext : next (c.threads j) = .call op resume) : i ≠ j := by
    rintro rfl
    cases hended.symm.trans hnext
  cases a with
  | run j =>
    obtain ⟨β, op, resume, hnext, -, -, hthreads⟩ := step_run h
    rw [hthreads, Function.update_of_ne (other hnext)]
  | fault j f =>
    obtain ⟨β, op, resume, e, hnext, -, hthreads⟩ := step_fault h
    rw [hthreads, Function.update_of_ne (other hnext)]
  | env e => rw [step_env h]

/-- **Running alone**: while nothing makes handler `i` wait, scheduling it without interruption
ends with the result and the world of `Program.run`. -/
theorem run_alone {i : Id} {Free : σ → Prop}
    (henabled : ∀ (β : Type) (op : Op β) (s : σ), Free s → sem.enabled i β op s = true)
    (hfree : ∀ (β : Type) (op : Op β) (s : σ), Free s → Free (sem.exec i β op s).2)
    {p : Program Op ε α} (hp : Presents next p (c.threads i)) (hc : Free c.shared) :
    ∃ tr c', Run (step sem next) c tr c' ∧ (∀ t ∈ tr, t.action = .run i) ∧
      c'.shared = (p.run (sem.exec i) c.shared).2 ∧
      next (c'.threads i) = .ended (p.run (sem.exec i) c.shared).1 ∧
      ∀ j, j ≠ i → c'.threads j = c.threads j := by
  induction p generalizing c with
  | ret a =>
    cases hp with
    | ret h => exact ⟨[], c, .refl, by simp, rfl, h, fun _ _ => rfl⟩
  | raise e =>
    cases hp with
    | raise h => exact ⟨[], c, .refl, by simp, rfl, h, fun _ _ => rfl⟩
  | @call β op k ih =>
    cases hp with
    | @call _ _ _ resume _ h hk =>
      -- one step of `i`, then the induction hypothesis from the world it leaves
      set c₁ : Config Id σ Pc := ⟨(sem.exec i β op c.shared).2,
        Function.update c.threads i (resume (sem.exec i β op c.shared).1)⟩ with hc₁
      have hstep : step sem next c (.run i) = some c₁ := by
        rw [step]
        simp only [h, henabled β op c.shared hc, if_true]
        rfl
      obtain ⟨tr, c', hrun, hact, hs, hn, hj⟩ := ih (sem.exec i β op c.shared).1 (c := c₁)
        (by simpa only [hc₁, Function.update_self] using hk _) (hfree β op _ hc)
      refine ⟨tr ++ [⟨c, .run i, c₁⟩], c', (Run.single hstep).trans hrun, ?_, hs, hn, ?_⟩
      · intro t ht
        rcases List.mem_append.mp ht with ht | ht
        · exact hact t ht
        · rw [List.mem_singleton.mp ht]
      · intro j hne
        exact (hj j hne).trans (Function.update_of_ne hne _ _)

end BookingApi.Async
