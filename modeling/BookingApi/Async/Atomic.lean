import BookingApi.Async.Liveness

/-!
# Programs with one effect

A program may keep its effect for its last operation: when an operation of a kind `P` returns, the
program returns too (`Program.ReturnsAfter`).  If nothing but an operation of `P` that returns
changes what is observed of the world (`Semantics.OnlyBy`), then in an interleaved run such a
program has changed it in no step, or in one step after which it has returned (`quiet_or_once`).
-/

namespace BookingApi.Async

universe u

variable {Op : Type → Type 1} {ε Id σ α β Fault Env : Type} {δ : Type u}

namespace Program

/-- When an operation of `P` returns, the program returns. -/
def ReturnsAfter (P : ∀ β : Type, Op β → Prop) : Program Op ε α → Prop
  | ret _ => True
  | raise _ => True
  | call op next => (P _ op → ∀ b, ∃ a, next (.ok b) = .ret a) ∧ ∀ r, (next r).ReturnsAfter P

variable {P : ∀ β : Type, Op β → Prop}

/-- A program without operations of `P`. -/
theorem Uses.returnsAfter {p : Program Op ε α} (hp : p.Uses fun β op => ¬ P β op) :
    p.ReturnsAfter P := by
  induction p with
  | ret a => trivial
  | raise e => trivial
  | call op next ih => exact ⟨fun hP => absurd hP hp.1, fun r => ih r (hp.2 r)⟩

/-- An operation of `P` at the end. -/
theorem Uses.returnsAfter_bind {p : Program Op ε α} (hp : p.Uses fun β op => ¬ P β op)
    (op : Op β) : (p.bind fun a => (perform op).bind fun _ => ret a).ReturnsAfter P := by
  induction p with
  | ret a =>
    refine ⟨fun _ b => ⟨a, rfl⟩, fun r => ?_⟩
    cases r <;> trivial
  | raise e => trivial
  | call op' next ih => exact ⟨fun hP => absurd hP hp.1, fun r => ih r (hp.2 r)⟩

/-- What a handler of exceptions does has no operation of `P`. -/
theorem ReturnsAfter.tryCatch {p : Program Op ε α} (hp : p.ReturnsAfter P)
    {handler : ε → Program Op ε α} (hh : ∀ e, (handler e).Uses fun β op => ¬ P β op) :
    (p.tryCatch handler).ReturnsAfter P := by
  induction p with
  | ret a => trivial
  | raise e => exact (hh e).returnsAfter
  | call op next ih =>
    refine ⟨fun hP b => ?_, fun r => ih r (hp.2 r)⟩
    obtain ⟨a, ha⟩ := hp.1 hP b
    exact ⟨a, congrArg (·.tryCatch handler) ha⟩

end Program

/-- Only an operation of `P` that returns changes the observation `f`. -/
structure Semantics.OnlyBy (sem : Semantics Op ε Id σ Fault Env) (P : ∀ β : Type, Op β → Prop)
    (f : σ → δ) : Prop where
  exec : ∀ {i β} {op : Op β} {s : σ}, ¬ P β op → f (sem.exec i β op s).2 = f s
  raised : ∀ {i β} {op : Op β} {s : σ} {e : ε}, (sem.exec i β op s).1 = .error e →
    f (sem.exec i β op s).2 = f s
  fault : ∀ {i β} {op : Op β} {φ : Fault} {s s' : σ} {e : ε},
    sem.fault i β op φ s = some (e, s') → f s' = f s

section

variable {Pc : Type*} {f : σ → δ} {i : Id}

/-- No step of the handler has changed the observation. -/
def Quiet (f : σ → δ) (i : Id) (tr : List (Transition (Config Id σ Pc) (Action Id Fault Env))) :
    Prop :=
  ∀ t ∈ tr, t.action.handler = some i → f t.after.shared = f t.before.shared

theorem quiet_nil : Quiet f i ([] : List (Transition (Config Id σ Pc) (Action Id Fault Env))) :=
  fun _ ht => absurd ht List.not_mem_nil

theorem Quiet.cons {tr : List (Transition (Config Id σ Pc) (Action Id Fault Env))}
    (h : Quiet f i tr) {t : Transition (Config Id σ Pc) (Action Id Fault Env)}
    (ht : t.action.handler = some i → f t.after.shared = f t.before.shared) :
    Quiet f i (t :: tr) := by
  intro t' ht'
  rcases List.mem_cons.mp ht' with rfl | ht'
  · exact ht
  · exact h t' ht'

/-- One step of the handler may have changed the observation. -/
def Once (f : σ → δ) (i : Id) (tr : List (Transition (Config Id σ Pc) (Action Id Fault Env))) :
    Prop :=
  ∃ later t earlier, tr = later ++ t :: earlier ∧ t.action = .run i ∧ Quiet f i later ∧
    Quiet f i earlier

theorem Once.cons {tr : List (Transition (Config Id σ Pc) (Action Id Fault Env))}
    (h : Once f i tr) {t : Transition (Config Id σ Pc) (Action Id Fault Env)}
    (ht : t.action.handler = some i → f t.after.shared = f t.before.shared) :
    Once f i (t :: tr) := by
  obtain ⟨later, t', earlier, rfl, hact, hlater, hearlier⟩ := h
  exact ⟨t :: later, t', earlier, rfl, hact, hlater.cons ht, hearlier⟩

end

variable [DecidableEq Id] {P : ∀ β : Type, Op β → Prop} {sem : Semantics Op ε Id σ Fault Env}
  {f : σ → δ} {c c₀ c' : Config Id σ (Program Op ε α)} {i : Id}
  {tr : List (Transition (Config Id σ (Program Op ε α)) (Action Id Fault Env))}

/-- A step of a program that keeps its effect for its last operation. -/
theorem quiet_or_ret_of_step (honly : sem.OnlyBy P f) {a : Action Id Fault Env}
    (hstep : step sem Program.await c a = some c') (ha : a.handler = some i)
    (hp : (c.threads i).ReturnsAfter P) :
    (f c'.shared = f c.shared ∧ (c'.threads i).ReturnsAfter P) ∨
      a = .run i ∧ ∃ b, c'.threads i = .ret b := by
  cases a with
  | run j =>
    obtain rfl : j = i := Option.some.inj ha
    obtain ⟨β, op, next, hawait, -, hs, hthreads⟩ := step_run hstep
    rw [Program.await_eq_call_iff.mp hawait] at hp
    rw [hs, hthreads, Function.update_self]
    by_cases hP : P β op
    · cases hres : (sem.exec j β op c.shared).1 with
      | error e => exact .inl ⟨honly.raised hres, hp.2 _⟩
      | ok b => exact .inr ⟨rfl, hp.1 hP b⟩
    · exact .inl ⟨honly.exec hP, hp.2 _⟩
  | fault j φ =>
    obtain rfl : j = i := Option.some.inj ha
    obtain ⟨β, op, next, e, hawait, hfault, hthreads⟩ := step_fault hstep
    rw [Program.await_eq_call_iff.mp hawait] at hp
    rw [hthreads, Function.update_self]
    exact .inl ⟨honly.fault hfault, hp.2 _⟩
  | env e => cases ha

/-- **One effect**: the program has changed nothing yet, or it has changed something in one step and
has returned. -/
theorem quiet_or_once (honly : sem.OnlyBy P f)
    (hrun : Run (step sem Program.await) c₀ tr c) (hp : (c₀.threads i).ReturnsAfter P) :
    (Quiet f i tr ∧ (c.threads i).ReturnsAfter P) ∨ Once f i tr ∧ ∃ b, c.threads i = .ret b := by
  induction hrun with
  | refl => exact .inl ⟨quiet_nil, hp⟩
  | @tail tr c c' a hrun hstep ih =>
    by_cases ha : a.handler = some i
    · rcases ih with ⟨hquiet, hp⟩ | ⟨-, b, hb⟩
      · rcases quiet_or_ret_of_step honly hstep ha hp with ⟨hf, hp'⟩ | ⟨hact, hret⟩
        · exact .inl ⟨hquiet.cons fun _ => hf, hp'⟩
        · exact .inr ⟨⟨[], _, tr, rfl, hact, quiet_nil, hquiet⟩, hret⟩
      · -- a program that has returned does not move
        exact absurd ⟨_, by rw [hb]; rfl⟩ (Program.not_ended_of_next (next_of_step hstep ha))
    · have hsame := threads_of_step hstep ha
      rw [hsame]
      exact ih.imp (fun h => ⟨h.1.cons fun h' => absurd h' ha, h.2⟩)
        fun h => ⟨h.1.cons fun h' => absurd h' ha, h.2⟩

end BookingApi.Async
