import Mathlib.Logic.Function.Basic

/-!
# Programs that await

A request handler is a sequence of operations on a shared world, each of which it awaits: between
two of them other handlers may run, and any of them may raise.  `Program Op ε α` is such a handler
over an arbitrary family of operations `Op`, with exceptions in `ε` and a result in `α`.  The tree
is well founded, so a handler performs finitely many operations on every path.

`Program.run` executes a handler without interruption; the interleaved execution of many handlers
is in `Async/Interleaving.lean`.
-/

namespace BookingApi.Async

/-- A handler: a result, an exception, or an awaited operation and what follows it, which depends
on whether the operation returned or raised. -/
inductive Program (Op : Type → Type 1) (ε α : Type) : Type 1
  | ret (a : α)
  | raise (e : ε)
  | call {β : Type} (op : Op β) (next : Except ε β → Program Op ε α)

namespace Program

variable {Op : Type → Type 1} {ε α β γ : Type}

/-- Run `p`, then `f` on its result; an exception of `p` skips `f`. -/
def bind : Program Op ε α → (α → Program Op ε β) → Program Op ε β
  | ret a, f => f a
  | raise e, _ => raise e
  | call op next, f => call op fun r => (next r).bind f

instance : Monad (Program Op ε) where
  pure := ret
  bind := bind

/-- Await one operation. -/
def perform (op : Op β) : Program Op ε β :=
  call op fun
    | .ok b => ret b
    | .error e => raise e

/-- A step that awaits nothing. -/
def ofExcept : Except ε α → Program Op ε α
  | .ok a => ret a
  | .error e => raise e

/-- `try: p except e: handler(e)`. -/
def tryCatch : Program Op ε α → (ε → Program Op ε α) → Program Op ε α
  | ret a, _ => ret a
  | raise e, handler => handler e
  | call op next, handler => call op fun r => (next r).tryCatch handler

/-- `try: p finally: cleanup`.  An exception of `cleanup` replaces the outcome of `p`. -/
def tryFinally : Program Op ε α → Program Op ε Unit → Program Op ε α
  | ret a, cleanup => cleanup.bind fun _ => ret a
  | raise e, cleanup => cleanup.bind fun _ => raise e
  | call op next, cleanup => call op fun r => (next r).tryFinally cleanup

@[simp] theorem pure_eq (a : α) : (pure a : Program Op ε α) = ret a := rfl

@[simp] theorem bind_eq (p : Program Op ε α) (f : α → Program Op ε β) : p >>= f = p.bind f := rfl

@[simp] theorem ret_bind (a : α) (f : α → Program Op ε β) : (ret a).bind f = f a := rfl

@[simp] theorem raise_bind (e : ε) (f : α → Program Op ε β) : (raise e).bind f = raise e := rfl

@[simp] theorem call_bind (op : Op γ) (next : Except ε γ → Program Op ε α)
    (f : α → Program Op ε β) : (call op next).bind f = call op fun r => (next r).bind f := rfl

@[simp] theorem ofExcept_ok (a : α) : (ofExcept (.ok a) : Program Op ε α) = ret a := rfl

@[simp] theorem ofExcept_error (e : ε) : (ofExcept (.error e) : Program Op ε α) = raise e := rfl

@[simp] theorem ret_tryCatch (a : α) (h : ε → Program Op ε α) : (ret a).tryCatch h = ret a := rfl

@[simp] theorem raise_tryCatch (e : ε) (h : ε → Program Op ε α) : (raise e).tryCatch h = h e := rfl

@[simp] theorem call_tryCatch (op : Op γ) (next : Except ε γ → Program Op ε α)
    (h : ε → Program Op ε α) :
    (call op next).tryCatch h = call op fun r => (next r).tryCatch h := rfl

@[simp] theorem ret_tryFinally (a : α) (c : Program Op ε Unit) :
    (ret a).tryFinally c = c.bind fun _ => ret a := rfl

@[simp] theorem raise_tryFinally (e : ε) (c : Program Op ε Unit) :
    (raise e : Program Op ε α).tryFinally c = c.bind fun _ => raise e := rfl

@[simp] theorem call_tryFinally (op : Op γ) (next : Except ε γ → Program Op ε α)
    (c : Program Op ε Unit) :
    (call op next).tryFinally c = call op fun r => (next r).tryFinally c := rfl

/-! ### Uninterrupted execution -/

variable {σ : Type}

/-- Execute a handler alone: each operation acts on the world and returns or raises. -/
def run (exec : ∀ β : Type, Op β → σ → Except ε β × σ) : Program Op ε α → σ → Except ε α × σ
  | ret a, s => (.ok a, s)
  | raise e, s => (.error e, s)
  | call op next, s => (next (exec _ op s).1).run exec (exec _ op s).2

variable (exec : ∀ β : Type, Op β → σ → Except ε β × σ)

@[simp] theorem run_ret (a : α) (s : σ) : (ret a : Program Op ε α).run exec s = (.ok a, s) := rfl

@[simp] theorem run_raise (e : ε) (s : σ) :
    (raise e : Program Op ε α).run exec s = (.error e, s) := rfl

theorem run_call (op : Op β) (next : Except ε β → Program Op ε α) (s : σ) :
    (call op next).run exec s = (next (exec _ op s).1).run exec (exec _ op s).2 := rfl

@[simp] theorem run_perform (op : Op β) (s : σ) : (perform op).run exec s = exec _ op s := by
  rw [perform, run_call]
  cases h : exec _ op s with
  | mk r s' => cases r <;> rfl

/-- Sequencing: the second part runs on the world the first part leaves. -/
theorem run_bind (p : Program Op ε α) (f : α → Program Op ε β) (s : σ) :
    (p.bind f).run exec s = match p.run exec s with
      | (.ok a, s') => (f a).run exec s'
      | (.error e, s') => (.error e, s') := by
  induction p generalizing s with
  | ret a => rfl
  | raise e => rfl
  | call op next ih => exact ih _ _

/-- A function of the result. -/
theorem run_map (p : Program Op ε α) (f : α → β) (s : σ) :
    (p.bind (ret ∘ f)).run exec s = ((p.run exec s).1.map f, (p.run exec s).2) := by
  rw [run_bind]
  rcases p.run exec s with ⟨e | a, s'⟩ <;> rfl

theorem run_tryCatch (p : Program Op ε α) (h : ε → Program Op ε α) (s : σ) :
    (p.tryCatch h).run exec s = match p.run exec s with
      | (.ok a, s') => (.ok a, s')
      | (.error e, s') => (h e).run exec s' := by
  induction p generalizing s with
  | ret a => rfl
  | raise e => rfl
  | call op next ih => exact ih _ _

theorem run_tryFinally (p : Program Op ε α) (c : Program Op ε Unit) (s : σ) :
    (p.tryFinally c).run exec s = match p.run exec s with
      | (r, s') => match c.run exec s' with
        | (.ok _, s'') => (r, s'')
        | (.error e, s'') => (.error e, s'') := by
  induction p generalizing s with
  | ret a =>
    simp only [ret_tryFinally, run_bind, run_ret]
    cases c.run exec s with
    | mk r s' => cases r <;> rfl
  | raise e =>
    simp only [raise_tryFinally, run_bind, run_raise]
    cases c.run exec s with
    | mk r s' => cases r <;> rfl
  | call op next ih => exact ih _ _

/-! ### The operations a handler may perform -/

/-- Every operation that `p` performs, on any path, is in `P`. -/
def Uses (P : ∀ β : Type, Op β → Prop) : Program Op ε α → Prop
  | ret _ => True
  | raise _ => True
  | call op next => P _ op ∧ ∀ r, (next r).Uses P

variable {P : ∀ β : Type, Op β → Prop}

@[simp] theorem uses_ret (a : α) : (ret a : Program Op ε α).Uses P := trivial

@[simp] theorem uses_raise (e : ε) : (raise e : Program Op ε α).Uses P := trivial

theorem uses_ofExcept (x : Except ε α) : (ofExcept x : Program Op ε α).Uses P := by
  cases x <;> trivial

theorem uses_perform {op : Op β} (h : P _ op) : (perform op : Program Op ε β).Uses P :=
  ⟨h, fun r => by cases r <;> trivial⟩

theorem uses_of_forall (h : ∀ (β : Type) (op : Op β), P β op) (p : Program Op ε α) : p.Uses P := by
  induction p with
  | ret a => trivial
  | raise e => trivial
  | call op next ih => exact ⟨h _ op, ih⟩

theorem Uses.mono {Q : ∀ β : Type, Op β → Prop} {p : Program Op ε α} (hp : p.Uses P)
    (h : ∀ (β : Type) (op : Op β), P β op → Q β op) : p.Uses Q := by
  induction p with
  | ret a => trivial
  | raise e => trivial
  | call op next ih => exact ⟨h _ op hp.1, fun r => ih r (hp.2 r)⟩

theorem Uses.bind {p : Program Op ε α} {f : α → Program Op ε β} (hp : p.Uses P)
    (hf : ∀ a, (f a).Uses P) : (p.bind f).Uses P := by
  induction p with
  | ret a => exact hf a
  | raise e => trivial
  | call op next ih => exact ⟨hp.1, fun r => ih r (hp.2 r)⟩

theorem Uses.tryCatch {p : Program Op ε α} {h : ε → Program Op ε α} (hp : p.Uses P)
    (hh : ∀ e, (h e).Uses P) : (p.tryCatch h).Uses P := by
  induction p with
  | ret a => trivial
  | raise e => exact hh e
  | call op next ih => exact ⟨hp.1, fun r => ih r (hp.2 r)⟩

theorem Uses.tryFinally {p : Program Op ε α} {c : Program Op ε Unit} (hp : p.Uses P)
    (hc : c.Uses P) : (p.tryFinally c).Uses P := by
  induction p with
  | ret a => exact hc.bind fun _ => trivial
  | raise e => exact hc.bind fun _ => trivial
  | call op next ih => exact ⟨hp.1, fun r => ih r (hp.2 r)⟩

/-- A relation between worlds that every operation of `P` keeps is kept by an uninterrupted run. -/
theorem Uses.run_rel {p : Program Op ε α} (hp : p.Uses P) {R : σ → σ → Prop}
    (hrefl : ∀ s, R s s) (htrans : ∀ {s t u}, R s t → R t u → R s u)
    (hop : ∀ {β : Type} (op : Op β) (s : σ), P _ op → R s (exec _ op s).2) (s : σ) :
    R s (p.run exec s).2 := by
  induction p generalizing s with
  | ret a => exact hrefl s
  | raise e => exact hrefl s
  | call op next ih => exact htrans (hop op s hp.1) (ih _ (hp.2 _) _)

/-- Two uninterrupted runs from related worlds have one outcome, if every operation of `P` has one
outcome in related worlds and keeps them related. -/
theorem Uses.run_eq {p : Program Op ε α} (hp : p.Uses P) {R : σ → σ → Prop}
    (hop : ∀ {β : Type} (op : Op β) {s t : σ}, P _ op → R s t →
      (exec _ op s).1 = (exec _ op t).1 ∧ R (exec _ op s).2 (exec _ op t).2)
    {s t : σ} (h : R s t) :
    (p.run exec s).1 = (p.run exec t).1 ∧ R (p.run exec s).2 (p.run exec t).2 := by
  induction p generalizing s t with
  | ret a => exact ⟨rfl, h⟩
  | raise e => exact ⟨rfl, h⟩
  | call op next ih =>
    obtain ⟨hres, hrel⟩ := hop op hp.1 h
    rw [run_call, run_call, ← hres]
    exact ih _ (hp.2 _) hrel

end Program

end BookingApi.Async
