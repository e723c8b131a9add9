import BookingApi.Async.Liveness

/-!
# What a handler returns and raises

Let every operation end as `R` allows.  Then a handler that yields values of `P` and exceptions of
`E` ends with no others, whatever the other handlers do (`result_of_run`).
-/

namespace BookingApi.Async

variable {Op : Type → Type 1} {ε Id σ α β Fault Env : Type}
  {R : ∀ β : Type, Op β → Except ε β → Prop} {P Q : α → Prop} {E E' : ε → Prop}

namespace Program

/-- The program returns only values of `P`, and raises only exceptions of `E`. -/
def Yields (R : ∀ β : Type, Op β → Except ε β → Prop) (P : α → Prop) (E : ε → Prop) :
    Program Op ε α → Prop
  | ret a => P a
  | raise e => E e
  | call op next => ∀ r, R _ op r → (next r).Yields R P E

theorem yields_perform {op : Op α} (hok : ∀ a, R α op (.ok a) → P a)
    (herror : ∀ e, R α op (.error e) → E e) : (perform op : Program Op ε α).Yields R P E := by
  intro r hr
  cases r with
  | ok a => exact hok a hr
  | error e => exact herror e hr

theorem yields_ofExcept {x : Except ε α} (hok : ∀ a, x = .ok a → P a)
    (herror : ∀ e, x = .error e → E e) : (ofExcept x : Program Op ε α).Yields R P E := by
  cases x with
  | ok a => exact hok a rfl
  | error e => exact herror e rfl

theorem Yields.mono {p : Program Op ε α} (hp : p.Yields R P E) (h : ∀ a, P a → Q a) :
    p.Yields R Q E := by
  induction p with
  | ret a => exact h a hp
  | raise e => exact hp
  | call op next ih => exact fun r hr => ih r (hp r hr)

theorem Yields.bind {P : β → Prop} {p : Program Op ε α} {f : α → Program Op ε β}
    (hp : p.Yields R Q E) (hf : ∀ a, Q a → (f a).Yields R P E) : (p.bind f).Yields R P E := by
  induction p with
  | ret a => exact hf a hp
  | raise e => exact hp
  | call op next ih => exact fun r hr => ih r (hp r hr)

theorem Yields.tryCatch {p : Program Op ε α} {h : ε → Program Op ε α} (hp : p.Yields R P E')
    (hh : ∀ e, E' e → (h e).Yields R P E) : (p.tryCatch h).Yields R P E := by
  induction p with
  | ret a => exact hp
  | raise e => exact hh e hp
  | call op next ih => exact fun r hr => ih r (hp r hr)

/-- Any program returns something or raises something. -/
theorem yields_true (p : Program Op ε α) : p.Yields R (fun _ => True) fun _ => True := by
  induction p with
  | ret a => trivial
  | raise e => trivial
  | call op next ih => exact fun r _ => ih r

end Program

variable [DecidableEq Id] {sem : Semantics Op ε Id σ Fault Env}
  {c c₀ c' : Config Id σ (Program Op ε α)} {i : Id}
  {tr : List (Transition (Config Id σ (Program Op ε α)) (Action Id Fault Env))}

/-- In the state of the world the operations of the handler end as `R` allows. -/
def Semantics.Ends (sem : Semantics Op ε Id σ Fault Env) (i : Id)
    (R : ∀ β : Type, Op β → Except ε β → Prop) (s : σ) : Prop :=
  ∀ β (op : Op β), R β op (sem.exec i β op s).1 ∧
    ∀ φ e s', sem.fault i β op φ s = some (e, s') → R β op (.error e)

theorem yields_of_step (hends : sem.Ends i R c.shared) {a : Action Id Fault Env}
    (hstep : step sem Program.await c a = some c') (h : (c.threads i).Yields R P E) :
    (c'.threads i).Yields R P E := by
  by_cases ha : a.handler = some i
  · cases a with
    | run j =>
      obtain rfl : j = i := Option.some.inj ha
      obtain ⟨β, op, next, hawait, -, -, hupdate⟩ := step_run hstep
      rw [Program.await_eq_call_iff.mp hawait] at h
      rw [hupdate, Function.update_self]
      exact h _ (hends β op).1
    | fault j φ =>
      obtain rfl : j = i := Option.some.inj ha
      obtain ⟨β, op, next, e, hawait, hfault, hupdate⟩ := step_fault hstep
      rw [Program.await_eq_call_iff.mp hawait] at h
      rw [hupdate, Function.update_self]
      exact h _ ((hends β op).2 φ e _ hfault)
    | env e => cases ha
  · rwa [threads_of_step hstep ha]

theorem yields_of_run
    (hends : ∀ {tr c}, Run (step sem Program.await) c₀ tr c → sem.Ends i R c.shared)
    (h : (c₀.threads i).Yields R P E) (hrun : Run (step sem Program.await) c₀ tr c) :
    (c.threads i).Yields R P E := by
  induction hrun with
  | refl => exact h
  | tail hrun hstep ih => exact yields_of_step (hends hrun) hstep ih

/-- **How a handler has ended.** -/
theorem result_of_run
    (hends : ∀ {tr c}, Run (step sem Program.await) c₀ tr c → sem.Ends i R c.shared)
    (h : (c₀.threads i).Yields R P E) (hrun : Run (step sem Program.await) c₀ tr c) :
    (∀ a, (c.threads i).result? = some (.ok a) → P a) ∧
      ∀ e, (c.threads i).result? = some (.error e) → E e := by
  have hyields := yields_of_run hends h hrun
  refine ⟨fun a hended => ?_, fun e hended => ?_⟩
  · rwa [Program.await_eq_ended_iff.mp (Program.result?_eq_some_iff.mp hended)] at hyields
  · rwa [Program.await_eq_ended_iff.mp (Program.result?_eq_some_iff.mp hended)] at hyields

end BookingApi.Async
