import BookingApi.Async.Interleaving

/-!
# Programs under interference

Handlers that share a world cannot be understood one by one without saying what they do to each
other.  A `Protocol` says it: an invariant, what the others may do between two operations of a
handler (`rely`), which operations a handler may await (`permits`), and how these may end
(`outcome`).  `Program.Ensures P i Q p s` is the weakest precondition of the program `p` of handler
`i` under that protocol: whatever the others do, `p` awaits only what is permitted and ends as `Q`
says.  It has a rule for each way to build a program.

`Protocol.Sound` says that a semantics honours a protocol, and `ensures_of_run` that every handler
of an interleaved run then keeps what it ensures at its start.
-/

namespace BookingApi.Async

/-- What handlers that share a world `σ` promise each other. -/
structure Protocol (Op : Type → Type 1) (ε Id σ : Type) where
  inv : σ → Prop
  /-- What the other handlers and the environment may do to the world. -/
  rely : Id → σ → σ → Prop
  /-- The handler may await the operation in this world. -/
  permits : Id → ∀ β : Type, Op β → σ → Prop
  /-- How the operation may end, by itself or by a fault. -/
  outcome : Id → ∀ β : Type, Op β → σ → Except ε β → σ → Prop
  rely_refl : ∀ i s, rely i s s
  rely_trans : ∀ {i s t u}, rely i s t → rely i t u → rely i s u

variable {Op : Type → Type 1} {ε Id σ α β : Type}

namespace Program

variable (P : Protocol Op ε Id σ) (i : Id)

/-- Whatever the others do, `p` awaits only what is permitted and ends as `Q` says. -/
def Ensures (Q : Except ε α → σ → Prop) : Program Op ε α → σ → Prop
  | ret a, s => ∀ t, P.rely i s t → P.inv t → Q (.ok a) t
  | raise e, s => ∀ t, P.rely i s t → P.inv t → Q (.error e) t
  | call op next, s => ∀ t, P.rely i s t → P.inv t →
    P.permits i _ op t ∧ ∀ r u, P.outcome i _ op t r u → (next r).Ensures Q u

variable {P i} {Q Q' : Except ε α → σ → Prop} {p : Program Op ε α} {s t : σ}

/-- What the others do meanwhile does not matter. -/
theorem Ensures.of_rely (h : p.Ensures P i Q s) (hst : P.rely i s t) : p.Ensures P i Q t := by
  cases p <;> exact fun u htu hu => h u (P.rely_trans hst htu) hu

/-- It is enough to look at the worlds in which the handler goes on. -/
theorem ensures_of_forall (h : ∀ t, P.rely i s t → P.inv t → p.Ensures P i Q t) :
    p.Ensures P i Q s := by
  cases p <;> exact fun t hst ht => h t hst ht t (P.rely_refl i t) ht

theorem Ensures.mono (h : p.Ensures P i Q s) (hQ : ∀ r t, P.inv t → Q r t → Q' r t) :
    p.Ensures P i Q' s := by
  induction p generalizing s with
  | ret a => exact fun t hst ht => hQ _ t ht (h t hst ht)
  | raise e => exact fun t hst ht => hQ _ t ht (h t hst ht)
  | call op next ih =>
    intro t hst ht
    obtain ⟨hop, hnext⟩ := h t hst ht
    exact ⟨hop, fun r u hu => ih r (hnext r u hu)⟩

/-- The others cannot spoil the outcome. -/
theorem Ensures.stable (h : p.Ensures P i Q s) :
    p.Ensures P i (fun r t => ∀ u, P.rely i t u → P.inv u → Q r u) s := by
  induction p generalizing s with
  | ret a => exact fun t hst _ u htu hu => h u (P.rely_trans hst htu) hu
  | raise e => exact fun t hst _ u htu hu => h u (P.rely_trans hst htu) hu
  | call op next ih =>
    intro t hst ht
    obtain ⟨hop, hnext⟩ := h t hst ht
    exact ⟨hop, fun r u hu => ih r (hnext r u hu)⟩

/-! ### The rules -/

theorem Ensures.bind {Q : Except ε β → σ → Prop} {f : α → Program Op ε β}
    (h : p.Ensures P i (fun
      | .ok a, t => (f a).Ensures P i Q t
      | .error e, t => Q (.error e) t) s) : (p.bind f).Ensures P i Q s := by
  induction p generalizing s with
  | ret a => exact ensures_of_forall h
  | raise e => exact h
  | call op next ih =>
    intro t hst ht
    obtain ⟨hop, hnext⟩ := h t hst ht
    exact ⟨hop, fun r u hu => ih r (hnext r u hu)⟩

theorem Ensures.tryCatch {handler : ε → Program Op ε α}
    (h : p.Ensures P i (fun
      | .ok a, t => Q (.ok a) t
      | .error e, t => (handler e).Ensures P i Q t) s) : (p.tryCatch handler).Ensures P i Q s := by
  induction p generalizing s with
  | ret a => exact h
  | raise e => exact ensures_of_forall h
  | call op next ih =>
    intro t hst ht
    obtain ⟨hop, hnext⟩ := h t hst ht
    exact ⟨hop, fun r u hu => ih r (hnext r u hu)⟩

/-- The cleanup runs after any outcome, and an exception of its own replaces the outcome. -/
theorem Ensures.tryFinally {cleanup : Program Op ε Unit}
    (h : p.Ensures P i (fun r t => cleanup.Ensures P i (fun
      | .ok _, u => Q r u
      | .error e, u => Q (.error e) u) t) s) : (p.tryFinally cleanup).Ensures P i Q s := by
  induction p generalizing s with
  | ret a =>
    refine ensures_of_forall fun t hst ht => .bind ((h t hst ht).stable.mono ?_)
    rintro (e | _) u hu hQ
    · exact hQ u (P.rely_refl i u) hu
    · exact hQ
  | raise e =>
    refine ensures_of_forall fun t hst ht => .bind ((h t hst ht).stable.mono ?_)
    rintro (e' | _) u hu hQ
    · exact hQ u (P.rely_refl i u) hu
    · exact hQ
  | call op next ih =>
    intro t hst ht
    obtain ⟨hop, hnext⟩ := h t hst ht
    exact ⟨hop, fun r u hu => ih r (hnext r u hu)⟩

/-! ### Programs as control points -/

/-- What a program awaits first: a program is its own control point. -/
def await : Program Op ε α → Await Op ε α (Program Op ε α)
  | ret a => .ended (.ok a)
  | raise e => .ended (.error e)
  | call op next => .call op next

theorem await_eq_ended_iff {r : Except ε α} : p.await = .ended r ↔ p = ofExcept r := by
  cases p with
  | ret a => cases r <;> simp [await]
  | raise e => cases r <;> simp [await]
  | call op next => cases r <;> simp [await]

theorem await_eq_call_iff {op : Op β} {next : Except ε β → Program Op ε α} :
    p.await = .call op next ↔ p = .call op next := by
  cases p with
  | ret a => simp [await]
  | raise e => simp [await]
  | call op' next' =>
    rw [await, Program.call.injEq, Await.call.injEq]

/-- How a program has ended. -/
def result? : Program Op ε α → Option (Except ε α)
  | ret a => some (.ok a)
  | raise e => some (.error e)
  | call _ _ => none

theorem result?_eq_some_iff {p : Program Op ε α} {r : Except ε α} :
    p.result? = some r ↔ p.await = .ended r := by
  cases p <;> simp [result?, await]

end Program

/-! ### Interleaved runs -/

section

variable {Fault Env : Type}

/-- The handler that an action moves. -/
def Action.handler : Action Id Fault Env → Option Id
  | .run i => some i
  | .fault i _ => some i
  | .env _ => none

/-- The semantics honours the protocol, as far as the actions in `A` are concerned. -/
structure Protocol.Sound (P : Protocol Op ε Id σ) (sem : Semantics Op ε Id σ Fault Env)
    (A : Action Id Fault Env → Prop) : Prop where
  exec : ∀ {i β} {op : Op β} {s : σ}, A (.run i) → P.inv s → P.permits i β op s →
    sem.enabled i β op s = true → P.inv (sem.exec i β op s).2 ∧
    P.outcome i β op s (sem.exec i β op s).1 (sem.exec i β op s).2 ∧
    ∀ j, j ≠ i → P.rely j s (sem.exec i β op s).2
  fault : ∀ {i β} {op : Op β} {f : Fault} {s s' : σ} {e : ε}, A (.fault i f) → P.inv s →
    P.permits i β op s → sem.fault i β op f s = some (e, s') →
    P.inv s' ∧ P.outcome i β op s (.error e) s' ∧ ∀ j, j ≠ i → P.rely j s s'
  env : ∀ {e : Env} {s : σ}, A (.env e) → P.inv s →
    P.inv (sem.env e s) ∧ ∀ j, P.rely j s (sem.env e s)

variable {P : Protocol Op ε Id σ} {sem : Semantics Op ε Id σ Fault Env}
  {A : Action Id Fault Env → Prop} {Q : Id → Except ε α → σ → Prop}
  {c c₀ c' : Config Id σ (Program Op ε α)}

/-- The invariant holds, and every handler ensures its outcome. -/
def Protocol.Holds (P : Protocol Op ε Id σ) (Q : Id → Except ε α → σ → Prop)
    (c : Config Id σ (Program Op ε α)) : Prop :=
  P.inv c.shared ∧ ∀ i, (c.threads i).Ensures P i (Q i) c.shared

/-- A handler that has ended has ended as it ensured. -/
theorem Protocol.Holds.ended (h : P.Holds Q c) {i : Id} {r : Except ε α}
    (hend : (c.threads i).await = .ended r) : Q i r c.shared := by
  have hi := h.2 i
  rw [Program.await_eq_ended_iff.mp hend] at hi
  cases r <;> exact hi _ (P.rely_refl i _) h.1

/-- A handler awaits only what it may. -/
theorem Protocol.Holds.permits (h : P.Holds Q c) {i : Id} {op : Op β}
    {next : Except ε β → Program Op ε α} (hawait : (c.threads i).await = .call op next) :
    P.permits i β op c.shared := by
  have hi := h.2 i
  rw [Program.await_eq_call_iff.mp hawait] at hi
  exact (hi _ (P.rely_refl i _) h.1).1

variable [DecidableEq Id]

/-- One handler has moved; the others may rely on what it did. -/
theorem Protocol.Holds.update {i : Id} {p : Program Op ε α} {s : σ} (h : P.Holds Q c)
    (hinv : P.inv s) (hp : p.Ensures P i (Q i) s) (hrely : ∀ j, j ≠ i → P.rely j c.shared s) :
    P.Holds Q ⟨s, Function.update c.threads i p⟩ := by
  refine ⟨hinv, fun j => ?_⟩
  by_cases hj : j = i
  · subst hj
    simpa only [Function.update_self] using hp
  · simpa only [Function.update_of_ne hj] using (h.2 j).of_rely (hrely j hj)

theorem Protocol.Holds.step (hP : P.Sound sem A) {a : Action Id Fault Env} (h : P.Holds Q c)
    (ha : A a) (hstep : step sem Program.await c a = some c') : P.Holds Q c' := by
  cases a with
  | run i =>
    obtain ⟨β, op, next, hawait, henabled, hs, hthreads⟩ := step_run hstep
    have hi := h.2 i
    rw [Program.await_eq_call_iff.mp hawait] at hi
    obtain ⟨hop, hnext⟩ := hi _ (P.rely_refl i _) h.1
    obtain ⟨hinv, hout, hrely⟩ := hP.exec ha h.1 hop henabled
    obtain ⟨s', threads'⟩ := c'
    obtain rfl : s' = _ := hs
    obtain rfl : threads' = _ := hthreads
    exact h.update hinv (hnext _ _ hout) hrely
  | fault i f =>
    obtain ⟨β, op, next, e, hawait, hfault, hthreads⟩ := step_fault hstep
    have hi := h.2 i
    rw [Program.await_eq_call_iff.mp hawait] at hi
    obtain ⟨hop, hnext⟩ := hi _ (P.rely_refl i _) h.1
    obtain ⟨hinv, hout, hrely⟩ := hP.fault ha h.1 hop hfault
    obtain ⟨s', threads'⟩ := c'
    obtain rfl : threads' = _ := hthreads
    exact h.update hinv (hnext _ _ hout) hrely
  | env e =>
    rw [step_env hstep]
    obtain ⟨hinv, hrely⟩ := hP.env ha h.1
    exact ⟨hinv, fun j => (h.2 j).of_rely (hrely j)⟩

/-- What a handler may rely on while it does not move. -/
theorem Protocol.Holds.rely (hP : P.Sound sem A) {a : Action Id Fault Env} (h : P.Holds Q c)
    (ha : A a) (hstep : Async.step sem Program.await c a = some c') {j : Id}
    (hj : a.handler ≠ some j) :
    P.rely j c.shared c'.shared := by
  cases a with
  | run i =>
    obtain ⟨β, op, next, hawait, henabled, hs, -⟩ := step_run hstep
    rw [hs]
    exact (hP.exec ha h.1 (h.permits hawait) henabled).2.2 j fun he => hj (congrArg some he.symm)
  | fault i f =>
    obtain ⟨β, op, next, e, hawait, hfault, -⟩ := step_fault hstep
    exact (hP.fault ha h.1 (h.permits hawait) hfault).2.2 j fun he => hj (congrArg some he.symm)
  | env e =>
    rw [step_env hstep]
    exact (hP.env ha h.1).2 j

/-- **Soundness**: in a run of allowed actions the invariant holds, and every handler ensures what
it ensured at the start. -/
theorem Protocol.Holds.run (hP : P.Sound sem A) {tr : List (Transition _ (Action Id Fault Env))}
    (h₀ : P.Holds Q c₀) (hrun : Run (Async.step sem Program.await) c₀ tr c)
    (hall : ∀ t ∈ tr, A t.action) : P.Holds Q c :=
  hrun.invariant h₀ (A := fun _ a => A a) (fun h ha hstep => h.step hP ha hstep) hall

end

end BookingApi.Async
