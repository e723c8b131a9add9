import Mathlib.Data.Finset.Basic

/-!
# Dictionaries of sets

A Python `dict` whose values are sets, and loops of `d[k].add(a)`.  `Extends d d' P` says that `d'`
has the keys of `d` and holds, beside the elements of `d`, those that `P` says.  A loop whose every
iteration extends the dictionary extends it by all of them (`foldlM_extends`), and a loop that adds
the elements of a list under one key does just that (`foldlM_add`).
-/

namespace BookingApi

/-- A dictionary of finite sets. -/
abbrev SetDict (κ α : Type*) := κ → Option (Finset α)

namespace SetDict

variable {κ α β ε : Type*}

/-- `d[k].add(a)`, which raises if there is no key `k`. -/
def add [DecidableEq κ] [DecidableEq α] (keyError : ε) (d : SetDict κ α) (k : κ) (a : α) :
    Except ε (SetDict κ α) :=
  match d k with
  | none => .error keyError
  | some s => .ok (Function.update d k (some (insert a s)))

/-- The keys are the same, and the set of each key `k` has grown by the elements with `P k`. -/
structure Extends (d d' : SetDict κ α) (P : κ → α → Prop) : Prop where
  keys : ∀ k, (d' k).isSome = (d k).isSome
  mem : ∀ k s s', d k = some s → d' k = some s' → ∀ a, a ∈ s' ↔ a ∈ s ∨ P k a

variable {d d' d'' : SetDict κ α} {P Q : κ → α → Prop}

theorem Extends.refl (hP : ∀ k a, ¬ P k a) : Extends d d P :=
  ⟨fun _ => rfl, fun k s s' hs hs' a => by
    obtain rfl := Option.some.inj (hs.symm.trans hs')
    simp [hP]⟩

theorem Extends.trans (h : Extends d d' P) (h' : Extends d' d'' Q) :
    Extends d d'' fun k a => P k a ∨ Q k a := by
  refine ⟨fun k => (h'.keys k).trans (h.keys k), fun k s s'' hs hs'' a => ?_⟩
  obtain ⟨s', hs'⟩ : ∃ s', d' k = some s' := by
    rw [← Option.isSome_iff_exists, h.keys, hs]
    rfl
  rw [h'.mem k s' s'' hs' hs'', h.mem k s s' hs hs', or_assoc]

theorem Extends.congr (h : Extends d d' P) (hPQ : ∀ k a, P k a ↔ Q k a) : Extends d d' Q :=
  ⟨h.keys, fun k s s' hs hs' a => (h.mem k s s' hs hs' a).trans (or_congr_right (hPQ k a))⟩

/-- **A loop** whose iterations extend the dictionary, as long as it has some keys. -/
theorem foldlM_extends (keys : Set κ) {f : SetDict κ α → β → Except ε (SetDict κ α)}
    {P : β → κ → α → Prop} {l : List β}
    (hf : ∀ b ∈ l, ∀ d : SetDict κ α, (∀ k ∈ keys, (d k).isSome) →
      ∃ d', f d b = .ok d' ∧ Extends d d' (P b))
    (hd : ∀ k ∈ keys, (d k).isSome) :
    ∃ d', l.foldlM f d = .ok d' ∧ Extends d d' fun k a => ∃ b ∈ l, P b k a := by
  induction l generalizing d with
  | nil => exact ⟨d, rfl, .refl (by simp)⟩
  | cons b l ih =>
    obtain ⟨d₁, h₁, he₁⟩ := hf b (List.mem_cons_self ..) d hd
    obtain ⟨d₂, h₂, he₂⟩ := ih (fun b' hb' => hf b' (List.mem_cons_of_mem _ hb'))
      (d := d₁) fun k hk => (he₁.keys k).trans (hd k hk)
    refine ⟨d₂, ?_, (he₁.trans he₂).congr fun k a => by simp⟩
    rw [List.foldlM_cons, h₁]
    exact h₂

variable [DecidableEq κ] [DecidableEq α]

theorem add_extends {keyError : ε} {k : κ} {a : α} (hk : (d k).isSome) :
    ∃ d', d.add keyError k a = .ok d' ∧ Extends d d' fun k' a' => k' = k ∧ a' = a := by
  obtain ⟨s, hs⟩ := Option.isSome_iff_exists.mp hk
  refine ⟨Function.update d k (some (insert a s)), by rw [add, hs], fun k' => ?_, ?_⟩
  · by_cases h : k' = k
    · rw [h, Function.update_self, hs]
      rfl
    · rw [Function.update_of_ne h]
  · intro k' t t' ht ht' a'
    by_cases h : k' = k
    · subst h
      rw [Function.update_self] at ht'
      obtain rfl := Option.some.inj ht'
      obtain rfl := Option.some.inj (hs.symm.trans ht)
      rw [Finset.mem_insert, or_comm]
      simp
    · rw [Function.update_of_ne h] at ht'
      obtain rfl := Option.some.inj (ht.symm.trans ht')
      simp [h]

/-- The loop `for b in l: d[k].add(f(b))`. -/
theorem foldlM_add {keyError : ε} {k : κ} {l : List β} {f : β → α} (hk : (d k).isSome) :
    ∃ d', l.foldlM (fun d b => d.add keyError k (f b)) d = .ok d' ∧
      Extends d d' fun k' a => k' = k ∧ ∃ b ∈ l, f b = a := by
  obtain ⟨d', h, he⟩ := foldlM_extends {k} (l := l)
    (f := fun d b => add keyError d k (f b)) (P := fun b k' a => k' = k ∧ a = f b)
    (fun b _ d hd => add_extends (hd k rfl)) fun k' hk' => hk' ▸ hk
  refine ⟨d', h, he.congr fun k' a => ?_⟩
  constructor
  · rintro ⟨b, hb, hk', rfl⟩
    exact ⟨hk', b, hb, rfl⟩
  · rintro ⟨hk', b, hb, rfl⟩
    exact ⟨b, hb, hk', rfl⟩

end SetDict

end BookingApi
