import Badging.Criterion.Method

/-!
# Where the evaluation of checks stops

A check leaves the verdict open if it gives the one answer that does not decide the method, and
every other outcome ends the evaluation, be it an answer or a failure. So an outcome other than
that answer is the outcome of evaluation if it is reached through checks that leave the verdict
open, and nothing behind it matters.
-/

namespace Badging

/-- Something with `Q` comes in the list, and all before it has `P`. -/
def Reached {ι : Type} (P Q : ι → Prop) (is : List ι) : Prop :=
  ∃ before i after, is = before ++ i :: after ∧ (∀ j ∈ before, P j) ∧ Q i

section

variable {ι : Type} {P P' Q Q' : ι → Prop} {i : ι} {is : List ι}

@[simp] theorem not_reached_nil : ¬ Reached P Q [] := fun ⟨before, i, after, h, _⟩ => by
  cases before <;> cases h

theorem reached_cons : Reached P Q (i :: is) ↔ Q i ∨ P i ∧ Reached P Q is := by
  constructor
  · rintro ⟨before, j, after, h, hbefore, hj⟩
    cases before with
    | nil =>
      cases h
      exact .inl hj
    | cons k before =>
      cases h
      exact .inr ⟨hbefore i List.mem_cons_self, before, j, after, rfl,
        fun k hk => hbefore k (List.mem_cons_of_mem _ hk), hj⟩
  · rintro (hi | ⟨hi, before, j, after, rfl, hbefore, hj⟩)
    · exact ⟨[], i, is, rfl, fun _ h => absurd h List.not_mem_nil, hi⟩
    · exact ⟨i :: before, j, after, rfl, List.forall_mem_cons.2 ⟨hi, hbefore⟩, hj⟩

theorem reached_congr (hP : ∀ i, P i ↔ P' i) (hQ : ∀ i, Q i ↔ Q' i) :
    Reached P Q is ↔ Reached P' Q' is := by
  simp only [Reached, hP, hQ]

/-- Where everything without `Q` has `P`, something with `Q` is reached if there is any. -/
theorem reached_iff_exists_mem (h : ∀ i ∈ is, ¬ Q i → P i) :
    Reached P Q is ↔ ∃ i ∈ is, Q i := by
  induction is with
  | nil => simp
  | cons i is ih =>
    rw [reached_cons, ih fun j hj => h j (List.mem_cons_of_mem _ hj)]
    simp only [List.mem_cons, exists_eq_or_imp]
    by_cases hi : Q i
    · simp only [hi, true_or]
    · simp only [hi, false_or, h i List.mem_cons_self hi, true_and]

end

namespace Method

variable {ε ι : Type} {f : ι → Except ε Bool} {method : Method} {is : List ι}

theorem evaluateRest_cons_undecided (method : Method) (vs : List (Except ε Bool)) :
    method.evaluateRest (.ok method.undecided :: vs) = method.evaluateRest vs := by
  cases method <;> rfl

theorem evaluateRest_cons_of_ne {v : Except ε Bool} (h : v ≠ .ok method.undecided)
    (vs : List (Except ε Bool)) : method.evaluateRest (v :: vs) = v := by
  cases v with
  | error e => rfl
  | ok a =>
    cases method <;> cases a
    · rfl
    · exact absurd rfl h
    · exact absurd rfl h
    · rfl

theorem evaluateRest_eq_undecided_iff :
    method.evaluateRest (is.map f) = .ok method.undecided ↔
      ∀ i ∈ is, f i = .ok method.undecided := by
  induction is with
  | nil => simp [evaluateRest, pure, Except.pure]
  | cons i is ih =>
    rw [List.map_cons, List.forall_mem_cons]
    by_cases hi : f i = .ok method.undecided
    · rw [hi, evaluateRest_cons_undecided, ih]
      simp
    · rw [evaluateRest_cons_of_ne hi]
      exact ⟨fun h => absurd h hi, fun h => h.1⟩

/-- Any other outcome is that of the first check that does not leave the verdict open. -/
theorem evaluateRest_eq_iff_of_ne {v : Except ε Bool} (hv : v ≠ .ok method.undecided) :
    method.evaluateRest (is.map f) = v ↔
      Reached (fun i => f i = .ok method.undecided) (fun i => f i = v) is := by
  induction is with
  | nil => exact ⟨fun h => absurd h.symm hv, fun h => absurd h not_reached_nil⟩
  | cons i is ih =>
    rw [List.map_cons, reached_cons]
    by_cases hi : f i = .ok method.undecided
    · rw [hi, evaluateRest_cons_undecided, ih]
      simp [hv.symm]
    · rw [evaluateRest_cons_of_ne hi]
      simp [hi]

theorem evaluate_map_eq_error_iff {e : ε} :
    method.evaluate (is.map f) = .error e ↔
      Reached (fun i => f i = .ok method.undecided) (fun i => f i = .error e) is := by
  cases is with
  | nil => exact ⟨fun h => (nomatch h), fun h => absurd h not_reached_nil⟩
  | cons i is => exact evaluateRest_eq_iff_of_ne fun h => nomatch h

theorem evaluate_all_map_eq_true_iff :
    Method.all.evaluate (is.map f) = .ok true ↔ is ≠ [] ∧ ∀ i ∈ is, f i = .ok true := by
  cases is with
  | nil => simp [pure, Except.pure]
  | cons i is =>
    simp only [ne_eq, reduceCtorEq, not_false_eq_true, true_and]
    exact evaluateRest_eq_undecided_iff

theorem evaluate_any_map_eq_true_iff :
    Method.any.evaluate (is.map f) = .ok true ↔
      Reached (fun i => f i = .ok false) (fun i => f i = .ok true) is := by
  cases is with
  | nil => simp [pure, Except.pure]
  | cons i is => exact evaluateRest_eq_iff_of_ne fun h => nomatch h

end Method

end Badging
