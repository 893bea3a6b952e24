import Badging.Proofs.Criterion.Stopping

/-!
# How far evaluation goes

Evaluation goes from check to check until one of them fails or decides the method, and that one is
the last that is run. What a check does when it is run is left open here: it changes a state in a
way of its own, so the state behind the evaluation shows which checks were run and in which order.
Counting them is the case of a state that grows by one with each check.
-/

namespace Badging

namespace Method

variable {ε σ : Type}

/-- A check with a known outcome, and what running it does to a state. -/
structure Probe (ε σ : Type) where
  outcome : Except ε Bool
  effect : σ → σ

def Probe.run (c : Probe ε σ) : ExceptT ε (StateM σ) Bool :=
  ExceptT.mk fun s => (c.outcome, c.effect s)

def Probe.counting (v : Except ε Bool) : Probe ε Nat := ⟨v, (· + 1)⟩

/-- What running checks one after the other does to a state. -/
def effects (cs : List (Probe ε σ)) (s : σ) : σ := cs.foldl (fun s c => c.effect s) s

/-- The outcomes that end evaluation: a failure, a `false` for `all`, a `true` for `any`. -/
inductive Stops : Method → Except ε Bool → Prop
  | failure (method : Method) (e : ε) : Stops method (.error e)
  | allFalse : Stops .all (.ok false)
  | anyTrue : Stops .any (.ok true)

/-- Evaluation of checks with these outcomes ends with `v` after `n` of them. It ends at the first
outcome that stops it, or else behind the last one. -/
inductive Ends (method : Method) : List (Except ε Bool) → Except ε Bool → Nat → Prop
  | stopped {before after : List (Except ε Bool)} {v : Except ε Bool}
      (hbefore : ∀ u ∈ before, ¬ method.Stops u) (hv : method.Stops v) :
      Ends method (before ++ v :: after) v (before.length + 1)
  | exhausted {vs : List (Except ε Bool)} (hvs : ∀ u ∈ vs, ¬ method.Stops u) :
      Ends method vs (.ok (method == .all && !vs.isEmpty)) vs.length

variable {method : Method} {c : Probe ε σ} {cs : List (Probe ε σ)} {v : Except ε Bool} {n : Nat}

theorem eq_undecided_of_not_stops (h : ¬ method.Stops v) : v = .ok method.undecided := by
  cases v with
  | error e => exact absurd (.failure method e) h
  | ok passed =>
    cases method <;> cases passed
    · exact absurd .allFalse h
    · rfl
    · rfl
    · exact absurd .anyTrue h

theorem evaluateRest_run_of_not_stops (h : ¬ method.Stops c.outcome) (s : σ) :
    (method.evaluateRest ((c :: cs).map Probe.run)).run.run s =
      (method.evaluateRest (cs.map Probe.run)).run.run (c.effect s) := by
  obtain ⟨v, f⟩ := c
  cases eq_undecided_of_not_stops h
  cases method <;> rfl

theorem evaluateRest_run_of_stops (h : method.Stops c.outcome) (s : σ) :
    (method.evaluateRest ((c :: cs).map Probe.run)).run.run s = (c.outcome, c.effect s) := by
  obtain ⟨v, f⟩ := c
  cases h <;> rfl

theorem evaluateRest_run_append {before : List (Probe ε σ)}
    (h : ∀ b ∈ before, ¬ method.Stops b.outcome) (s : σ) :
    (method.evaluateRest ((before ++ cs).map Probe.run)).run.run s =
      (method.evaluateRest (cs.map Probe.run)).run.run (effects before s) := by
  induction before generalizing s with
  | nil => rfl
  | cons b before ih =>
    obtain ⟨hb, hbefore⟩ := List.forall_mem_cons.1 h
    rw [List.cons_append, evaluateRest_run_of_not_stops hb, ih hbefore]
    rfl

theorem evaluate_run_of_ne_nil (method : Method) (h : cs ≠ []) :
    method.evaluate (cs.map Probe.run) = method.evaluateRest (cs.map Probe.run) := by
  cases cs with
  | nil => exact absurd rfl h
  | cons c cs => rfl

/-- Evaluation answers as it ends, and has done what the checks that were run do, and no more. -/
theorem evaluate_run_of_ends (h : method.Ends (cs.map (·.outcome)) v n) (s : σ) :
    (method.evaluate (cs.map Probe.run)).run.run s = (v, effects (cs.take n) s) := by
  generalize hvs : cs.map (·.outcome) = vs at h
  cases h with
  | @stopped before after _ hbefore hv =>
    obtain ⟨ran, rest, rfl, rfl, hrest⟩ := List.map_eq_append_iff.1 hvs
    obtain ⟨c, rest, rfl, rfl, -⟩ := List.map_eq_cons_iff.1 hrest
    have hran : ∀ b ∈ ran, ¬ method.Stops b.outcome := fun b hb =>
      hbefore _ (List.mem_map_of_mem hb)
    have htake : (ran ++ c :: rest).take ((ran.map (·.outcome)).length + 1) = ran ++ [c] := by
      rw [List.length_map, List.take_append, List.take_of_length_le (Nat.le_succ _),
        Nat.add_sub_cancel_left]
      rfl
    rw [evaluate_run_of_ne_nil method (by simp), evaluateRest_run_append hran,
      evaluateRest_run_of_stops hv, htake]
    simp only [effects, List.foldl_append, List.foldl_cons, List.foldl_nil]
  | exhausted hvs' =>
    subst hvs
    have hran : ∀ b ∈ cs, ¬ method.Stops b.outcome := fun b hb => hvs' _ (List.mem_map_of_mem hb)
    rw [List.length_map, List.take_length]
    by_cases hnil : cs = []
    · subst hnil
      cases method <;> rfl
    · have hrest : (method.evaluateRest ((cs ++ []).map Probe.run)).run.run s = _ :=
        evaluateRest_run_append hran s
      rw [List.append_nil] at hrest
      have hanswer : (method == .all && !(cs.map (·.outcome)).isEmpty) = method.undecided := by
        rw [List.isEmpty_map, List.isEmpty_eq_false_iff.2 hnil]
        cases method <;> rfl
      rw [evaluate_run_of_ne_nil method hnil, hrest, hanswer]
      rfl

theorem exists_ends (method : Method) (vs : List (Except ε Bool)) : ∃ v n, method.Ends vs v n := by
  by_cases h : ∀ u ∈ vs, ¬ method.Stops u
  · exact ⟨_, _, .exhausted h⟩
  · have hfirst : Reached (fun u => ¬ method.Stops u) (fun u => method.Stops u) vs := by
      rw [reached_iff_exists_mem fun u _ hu => hu]
      simpa using h
    obtain ⟨before, v, after, rfl, hbefore, hv⟩ := hfirst
    exact ⟨_, _, .stopped hbefore hv⟩

theorem Ends.le_length {vs : List (Except ε Bool)} (h : method.Ends vs v n) : n ≤ vs.length := by
  cases h with
  | stopped hbefore hv =>
    rw [List.length_append, List.length_cons]
    omega
  | exhausted hvs => exact Nat.le_refl _

theorem effects_counting (vs : List (Except ε Bool)) (k : Nat) :
    effects (vs.map Probe.counting) k = k + vs.length := by
  induction vs generalizing k with
  | nil => rfl
  | cons v vs ih =>
    rw [List.length_cons, Nat.add_comm vs.length, ← Nat.add_assoc, ← ih]
    rfl

/-- The number of checks that are run is what a state that counts them comes to. -/
theorem evaluateCounted_of_ends {vs : List (Except ε Bool)} (h : method.Ends vs v n) :
    method.evaluateCounted vs = (v, n) := by
  have hcounted : vs.map counted = (vs.map Probe.counting).map Probe.run := by
    rw [List.map_map]
    rfl
  have hvs : (vs.map Probe.counting).map (·.outcome) = vs := by
    rw [List.map_map]
    exact List.map_id vs
  have hn := h.le_length
  rw [← hvs] at h
  rw [evaluateCounted, hcounted, evaluate_run_of_ends h, ← List.map_take, effects_counting,
    List.length_take_of_le hn, Nat.zero_add]

/-- Evaluation runs the checks in order up to the first that fails or decides the method, answers as
that one does, and leaves the others alone. If there is none it runs them all, and the answer is
`true` only for `all` and some check. -/
theorem evaluate_runs_until_stopped (method : Method) (checks : List (Probe ε σ)) :
    ∃ v n, (∀ v' n', method.Ends (checks.map (·.outcome)) v' n' ↔ v' = v ∧ n' = n) ∧
      method.evaluateCounted (checks.map (·.outcome)) = (v, n) ∧
      ∀ s, (method.evaluate (checks.map Probe.run)).run.run s = (v, effects (checks.take n) s) := by
  obtain ⟨v, n, h⟩ := exists_ends method (checks.map (·.outcome))
  have hcounted := evaluateCounted_of_ends h
  refine ⟨v, n, fun v' n' => ⟨fun h' => ?_, ?_⟩, hcounted, evaluate_run_of_ends h⟩
  · have hcounted' := evaluateCounted_of_ends h'
    rw [hcounted, Prod.mk.injEq] at hcounted'
    exact ⟨hcounted'.1.symm, hcounted'.2.symm⟩
  · rintro ⟨rfl, rfl⟩
    exact h

example : Method.all.evaluateCounted [.ok true, .error "disk", .ok true] = (.error "disk", 2) := rfl

end Method

end Badging
