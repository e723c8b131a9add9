import Mathlib.Data.List.Flatten
import Mathlib.Data.List.Induction

/-!
# Consumers

A consumer takes the messages of a stream one by one, decodes each and hands the value to a handler
that makes some calls.  An exception of the decoder ends the consumer; one of the handler is logged,
and the calls it has made until then count.

* `stopped_eq_none_iff`: a consumer is still running after some messages exactly when all of them
  decode.
* `run_filter_iff`: leaving out some of the messages changes nothing, and none of them stops the
  consumer, exactly when all messages decode and those left out make no call.
-/

namespace BookingApi.Consumer

variable {μ ν ε κ : Type*}

/-- A consumer after some messages: what has ended it, if anything has, and the calls so far. -/
structure State (ε κ : Type*) where
  stopped : Option ε
  calls : List κ

/-- One more message. -/
def step (decode : μ → Except ε ν) (calls : ν → List κ) (s : State ε κ) (m : μ) : State ε κ :=
  match s.stopped with
  | some _ => s
  | none =>
    match decode m with
    | .error e => ⟨some e, s.calls⟩
    | .ok v => ⟨none, s.calls ++ calls v⟩

def run (decode : μ → Except ε ν) (calls : ν → List κ) (messages : List μ) : State ε κ :=
  messages.foldl (step decode calls) ⟨none, []⟩

variable {decode : μ → Except ε ν} {calls : ν → List κ} {messages : List μ}

/-- Every message decodes. -/
def Decodes (decode : μ → Except ε ν) (messages : List μ) : Prop :=
  ∀ m ∈ messages, ∃ v, decode m = .ok v

/-- The calls for one message. -/
def callsOf (decode : μ → Except ε ν) (calls : ν → List κ) (m : μ) : List κ :=
  match decode m with
  | .error _ => []
  | .ok v => calls v

theorem run_concat (messages : List μ) (m : μ) :
    run decode calls (messages ++ [m]) = step decode calls (run decode calls messages) m := by
  rw [run, List.foldl_append]
  rfl

/-- While all messages decode, each adds its calls. -/
theorem run_of_decodes (h : Decodes decode messages) :
    run decode calls messages = ⟨none, messages.flatMap (callsOf decode calls)⟩ := by
  induction messages using List.reverseRecOn with
  | nil => rfl
  | append_singleton messages m ih =>
    obtain ⟨v, hv⟩ := h m (by simp)
    rw [run_concat, ih fun m' hm' => h m' (List.mem_append_left _ hm'), step]
    simp only [hv, List.flatMap_append, List.flatMap_singleton, callsOf]

/-- A consumer that has ended stays so. -/
theorem stopped_run_append {later : List μ} (h : (run decode calls messages).stopped ≠ none) :
    (run decode calls (messages ++ later)).stopped ≠ none := by
  induction later using List.reverseRecOn with
  | nil => rwa [List.append_nil]
  | append_singleton later m ih =>
    rw [← List.append_assoc, run_concat, step]
    cases hstopped : (run decode calls (messages ++ later)).stopped with
    | none => exact absurd hstopped ih
    | some e => simp only [hstopped, ne_eq, reduceCtorEq, not_false_eq_true]

/-- **A consumer is still running** exactly when all messages so far decode. -/
theorem stopped_eq_none_iff :
    (run decode calls messages).stopped = none ↔ Decodes decode messages := by
  constructor
  · intro h m hm
    obtain ⟨earlier, later, rfl⟩ := List.append_of_mem hm
    rw [List.append_cons] at h
    have hrunning : (run decode calls (earlier ++ [m])).stopped = none := by
      by_contra hstopped
      exact stopped_run_append hstopped h
    rw [run_concat, step] at hrunning
    cases hdecode : decode m with
    | ok v => exact ⟨v, rfl⟩
    | error e =>
      cases hearlier : (run decode calls earlier).stopped <;>
        simp only [hearlier, hdecode, reduceCtorEq] at hrunning
  · intro h
    rw [run_of_decodes h]

/-- Elements can be left out of a concatenation exactly when they contribute nothing. -/
theorem flatMap_filter_eq_iff {f : μ → List κ} {p : μ → Bool} :
    messages.flatMap f = (messages.filter p).flatMap f ↔
      ∀ m ∈ messages, p m = false → f m = [] := by
  induction messages with
  | nil => simp
  | cons m messages ih =>
    by_cases hp : p m
    · rw [List.filter_cons_of_pos hp, List.flatMap_cons, List.flatMap_cons,
        List.append_right_inj, ih]
      simp [hp]
    · rw [List.filter_cons_of_neg hp, List.flatMap_cons]
      constructor
      · intro h
        -- the rest is at most as long as the whole
        have hle : ((messages.filter p).flatMap f).length ≤ (messages.flatMap f).length :=
          (List.filter_sublist.flatMap f).length_le
        have hlen := congrArg List.length h
        rw [List.length_append] at hlen
        have hnil : f m = [] := List.eq_nil_of_length_eq_zero (by omega)
        rw [hnil, List.nil_append, ih] at h
        intro m' hm'
        rcases List.mem_cons.mp hm' with rfl | hm'
        · exact fun _ => hnil
        · exact h m' hm'
      · intro h
        rw [h m (List.mem_cons_self ..) (eq_false_of_ne_true hp), List.nil_append]
        exact ih.mpr fun m' hm' => h m' (List.mem_cons_of_mem _ hm')

/-- Some of the calls are all that some of the messages contribute. -/
theorem filter_flatMap_eq {f : μ → List κ} {p : κ → Bool} {q : μ → Bool}
    (h : ∀ m ∈ messages, ∀ x ∈ f m, p x = q m) :
    (messages.flatMap f).filter p = (messages.filter q).flatMap f := by
  induction messages with
  | nil => rfl
  | cons m messages ih =>
    rw [List.flatMap_cons, List.filter_append, ih fun m' hm' => h m' (List.mem_cons_of_mem _ hm')]
    have hm := h m (List.mem_cons_self ..)
    by_cases hq : q m = true
    · rw [List.filter_cons_of_pos hq, List.flatMap_cons,
        List.filter_eq_self.mpr fun x hx => (hm x hx).trans hq]
    · have hnone : (f m).filter p = [] := by
        rw [List.filter_eq_nil_iff]
        exact fun x hx => by rwa [hm x hx]
      rw [List.filter_cons_of_neg hq, hnone, List.nil_append]

/-- **Leaving out messages.** -/
theorem run_filter_iff {p : μ → Bool} (hp : ∀ m ∈ messages, p m → ∃ v, decode m = .ok v) :
    ((run decode calls messages).calls = (run decode calls (messages.filter p)).calls ∧
      ∀ earlier, earlier <+: messages → (run decode calls earlier).stopped = none) ↔
    ∀ m ∈ messages, ∃ v, decode m = .ok v ∧ (p m = false → calls v = []) := by
  have hfilter : Decodes decode (messages.filter p) := fun m hm =>
    hp m (List.mem_filter.mp hm).1 (List.mem_filter.mp hm).2
  have hcalls (h : Decodes decode messages) :
      (run decode calls messages).calls = (run decode calls (messages.filter p)).calls ↔
        ∀ m ∈ messages, p m = false → callsOf decode calls m = [] := by
    rw [run_of_decodes h, run_of_decodes hfilter]
    exact flatMap_filter_eq_iff
  constructor
  · rintro ⟨hsame, hrunning⟩ m hm
    have hdecodes := stopped_eq_none_iff.mp (hrunning messages (List.prefix_refl _))
    obtain ⟨v, hv⟩ := hdecodes m hm
    have hnone := (hcalls hdecodes).mp hsame m hm
    rw [callsOf, hv] at hnone
    exact ⟨v, hv, hnone⟩
  · intro h
    have hdecodes : Decodes decode messages := fun m hm => by
      obtain ⟨v, hv, -⟩ := h m hm
      exact ⟨v, hv⟩
    refine ⟨(hcalls hdecodes).mpr fun m hm hpm => ?_, fun earlier hearlier => ?_⟩
    · obtain ⟨v, hv, hnone⟩ := h m hm
      rw [callsOf, hv]
      exact hnone hpm
    · exact stopped_eq_none_iff.mpr fun m hm => hdecodes m (hearlier.subset hm)

end BookingApi.Consumer
