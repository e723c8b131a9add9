import BookingApi.Async.Program

/-!
# Programs with like operations

Two programs are alike if they await like operations in the same order, go on in the same way after
every outcome, and end in the same way.  If like operations act alike on related worlds, then alike
programs have one result, and leave related worlds: `Alike.run_eq`.
-/

namespace BookingApi.Async.Program

variable {Op : Type → Type 1} {ε α β σ : Type} {R : ∀ β : Type, Op β → Op β → Prop}

/-- The programs differ only in operations that `R` relates. -/
inductive Alike (R : ∀ β : Type, Op β → Op β → Prop) : Program Op ε α → Program Op ε α → Prop
  | ret (a : α) : Alike R (ret a) (ret a)
  | raise (e : ε) : Alike R (raise e) (raise e)
  | call {β : Type} {op op' : Op β} {k k' : Except ε β → Program Op ε α} :
      R β op op' → (∀ r, Alike R (k r) (k' r)) → Alike R (call op k) (call op' k')

namespace Alike

theorem refl (hR : ∀ (β : Type) (op : Op β), R β op op) (p : Program Op ε α) : Alike R p p := by
  induction p with
  | ret a => exact .ret a
  | raise e => exact .raise e
  | call op k ih => exact .call (hR _ op) ih

theorem perform {op op' : Op α} (h : R α op op') :
    Alike R (perform op : Program Op ε α) (.perform op') := by
  refine .call h fun r => ?_
  cases r with
  | ok a => exact .ret a
  | error e => exact .raise e

theorem bind {p p' : Program Op ε α} {f f' : α → Program Op ε β} (hp : Alike R p p')
    (hf : ∀ a, Alike R (f a) (f' a)) : Alike R (p.bind f) (p'.bind f') := by
  induction hp with
  | ret a => exact hf a
  | raise e => exact .raise e
  | call h _ ih => exact .call h ih

theorem tryCatch {p p' : Program Op ε α} {f f' : ε → Program Op ε α} (hp : Alike R p p')
    (hf : ∀ e, Alike R (f e) (f' e)) : Alike R (p.tryCatch f) (p'.tryCatch f') := by
  induction hp with
  | ret a => exact .ret a
  | raise e => exact hf e
  | call h _ ih => exact .call h ih

theorem tryFinally {p p' : Program Op ε α} {c c' : Program Op ε Unit} (hp : Alike R p p')
    (hc : Alike R c c') : Alike R (p.tryFinally c) (p'.tryFinally c') := by
  induction hp with
  | ret a => exact hc.bind fun _ => .ret a
  | raise e => exact hc.bind fun _ => .raise e
  | call h _ ih => exact .call h ih

variable {exec : ∀ β : Type, Op β → σ → Except ε β × σ}

/-- **Alike programs run alike.** -/
theorem run_eq {S : σ → σ → Prop}
    (hop : ∀ {β : Type} {op op' : Op β} {s s' : σ}, R β op op' → S s s' →
      (exec _ op s).1 = (exec _ op' s').1 ∧ S (exec _ op s).2 (exec _ op' s').2)
    {p p' : Program Op ε α} (hp : Alike R p p') {s s' : σ} (h : S s s') :
    (p.run exec s).1 = (p'.run exec s').1 ∧ S (p.run exec s).2 (p'.run exec s').2 := by
  induction hp generalizing s s' with
  | ret a => exact ⟨rfl, h⟩
  | raise e => exact ⟨rfl, h⟩
  | call hR _ ih =>
    obtain ⟨hres, hrel⟩ := hop hR h
    rw [run_call, run_call, ← hres]
    exact ih _ hrel

end Alike

end BookingApi.Async.Program
