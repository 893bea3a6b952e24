import Badging.Proofs.Review.Check
import Badging.Proofs.Run.Triple
import Badging.Store.Ledger
import Mathlib.Data.List.Forall2

/-!
# Verdicts do not depend on the run

A program that only asks and reads finds the same value whenever it is run: the calls that were made
before do not matter, and neither do tokens. A call may fail, and then the program fails, but it
never finds something else. `Finds facts S x v` says this of the program `x` and the value `v`, for
the stores of which `S` holds; the rules follow the constructors of programs.

For a requirement the stores need only agree on the manual awards, so a verdict stays the same
while a review writes other rows. For the overall criterion the value is the verdict of its method
on the met records of the requirements.
-/

namespace Badging

namespace Method

/-- The verdict on answers that are all known. -/
def verdict : Method → List Bool → Bool
  | .all, answers => !answers.isEmpty && answers.all id
  | .any, answers => answers.any id

/-- What a method asks of things that have a property or not. -/
def Asks {α : Type} (P : α → Prop) (xs : List α) : Method → Prop
  | .all => ∀ x ∈ xs, P x
  | .any => ∃ x ∈ xs, P x

theorem Asks.mono {α : Type} {P P' : α → Prop} {xs : List α} {method : Method}
    (h : method.Asks P xs) (hP : ∀ x ∈ xs, P x → P' x) : method.Asks P' xs := by
  cases method with
  | all => exact fun x hx => hP x hx (h x hx)
  | any =>
    obtain ⟨x, hx, hPx⟩ := h
    exact ⟨x, hx, hP x hx hPx⟩

theorem verdict_map_eq_true_iff {α : Type} {xs : List α} {f : α → Bool} {method : Method} :
    method.verdict (xs.map f) = true ↔ xs ≠ [] ∧ method.Asks (fun x => f x = true) xs := by
  cases method with
  | all => cases xs <;> simp [verdict, Asks]
  | any =>
    cases xs with
    | nil => simp [verdict, Asks]
    | cons x xs => simp [verdict, Asks]

/-- A verdict does not depend on the order of the questions or on how often each is asked. -/
theorem verdict_map_congr_mem {α : Type} {xs ys : List α} {f : α → Bool} {method : Method}
    (h : ∀ x, x ∈ xs ↔ x ∈ ys) : method.verdict (xs.map f) = method.verdict (ys.map f) := by
  rw [Bool.eq_iff_iff, verdict_map_eq_true_iff, verdict_map_eq_true_iff]
  refine and_congr (not_congr ?_) ?_
  · simp only [List.eq_nil_iff_forall_not_mem, h]
  · cases method <;> simp only [Asks, h]

/-- The first answer that decides, or what is left if none does, is the verdict. -/
theorem getD_find?_decides {method : Method} {answers : List Bool} (h : answers ≠ []) :
    (answers.find? method.decides).getD method.undecided = method.verdict answers := by
  have hempty : answers.isEmpty = false := List.isEmpty_eq_false_iff.2 h
  cases hfind : answers.find? method.decides with
  | none =>
    have hnone := List.find?_eq_none.1 hfind
    cases method with
    | all => simpa [verdict, undecided, decides, hempty] using hnone
    | any => simpa [verdict, undecided, decides] using hnone
  | some d =>
    have hd := List.find?_some hfind
    have hmem := List.mem_of_find?_eq_some hfind
    cases method with
    | all =>
      obtain rfl : d = false := by simpa [decides] using hd
      simpa [verdict, hempty] using hmem
    | any =>
      obtain rfl : d = true := hd
      simpa [verdict] using hmem

end Method

/-- A setting with given facts in which no call fails. -/
def Setting.clean (facts : FactSource) : Setting := ⟨facts, .empty, fun _ => ""⟩

/-- Every question is answered. -/
def FactSource.Total (facts : FactSource) : Prop := ∀ q, ∃ a, facts q = .ok a

namespace Run

variable {σ ε ε' α β : Type} {facts : FactSource} {S : σ → Prop}

/-- Wherever `S` holds the program finds `v`, or fails because a call failed; it changes nothing and
tells nothing. -/
def Finds (facts : FactSource) (S : σ → Prop) (x : Run σ ε α) (v : Except ε α) : Prop :=
  ∀ setting w, setting.facts = facts → S w.store → ∃ ending w', x.exec setting w = (ending, w') ∧
    w'.store = w.store ∧ w'.sent = w.sent ∧
      (ending = .ofExcept v ∨ setting.faults ≠ .empty ∧ ∃ e, ending = .failed e)

/-- A program finds something, and the same everywhere; it finds a failure only if a question is
not answered. -/
def Steady (facts : FactSource) (S : σ → Prop) (x : Run σ ε α) : Prop :=
  ∃ v, Finds facts S x v ∧ (facts.Total → ∃ a, v = .ok a)

namespace Finds

variable {x : Run σ ε α} {v : Except ε α}

theorem pure (a : α) : Finds facts S (pure a : Run σ ε α) (.ok a) :=
  fun _ w _ _ => ⟨_, w, rfl, rfl, rfl, .inl rfl⟩

theorem bind {f : α → Run σ ε β} {g : α → Except ε β} (hx : Finds facts S x v)
    (hf : ∀ a, v = .ok a → Finds facts S (f a) (g a)) : Finds facts S (x >>= f) (v >>= g) := by
  intro setting w hfacts hS
  obtain ⟨ending, w', hexec, hstore, hsent, hending⟩ := hx setting w hfacts hS
  rw [exec_bind, hexec]
  rcases hending with rfl | ⟨hfaults, e, rfl⟩
  · cases v with
    | error e => exact ⟨_, w', rfl, hstore, hsent, .inl rfl⟩
    | ok a =>
      obtain ⟨ending, w'', hexec', hstore', hsent', hending'⟩ :=
        hf a rfl setting w' hfacts (by rwa [hstore])
      exact ⟨ending, w'', hexec', hstore'.trans hstore, hsent'.trans hsent, hending'⟩
  · exact ⟨_, w', rfl, hstore, hsent, .inr ⟨hfaults, e, rfl⟩⟩

theorem mapError {f : ε → ε'} (hx : Finds facts S x v) :
    Finds facts S (x.mapError f) (v.mapError f) := by
  intro setting w hfacts hS
  obtain ⟨ending, w', hexec, hstore, hsent, hending⟩ := hx setting w hfacts hS
  rw [exec_mapError, hexec]
  rcases hending with rfl | ⟨hfaults, e, rfl⟩
  · cases v <;> exact ⟨_, w', rfl, hstore, hsent, .inl rfl⟩
  · exact ⟨_, w', rfl, hstore, hsent, .inr ⟨hfaults, f e, rfl⟩⟩

theorem ask (q : Query) : Finds facts S (Run.ask q : Run σ SourceError q.Answer) (facts q) := by
  intro setting w hfacts _
  subst hfacts
  unfold Run.ask exec
  dsimp only
  cases hfault : setting.faults.facts w.calls q with
  | some e =>
    refine ⟨_, _, rfl, rfl, rfl, .inr ⟨fun h => ?_, e, rfl⟩⟩
    rw [h] at hfault
    cases hfault
  | none =>
    cases setting.facts q with
    | error e => exact ⟨_, _, rfl, rfl, rfl, .inl rfl⟩
    | ok a => exact ⟨_, _, rfl, rfl, rfl, .inl rfl⟩

theorem perform [Store σ] {op : Operation} {a : op.Answer}
    (hop : ∀ s, S s → Store.perform op s = .ok (a, s))
    (hreceived : ∀ plan h, received plan h op a = a) :
    Finds facts S (Run.perform op) (.ok a) := by
  intro setting w _ hS
  unfold Run.perform exec
  dsimp only
  cases hfault : setting.faults.store w.calls op with
  | some e =>
    refine ⟨_, _, rfl, rfl, rfl, .inr ⟨fun h => ?_, e, rfl⟩⟩
    rw [h] at hfault
    cases hfault
  | none =>
    rw [hop w.store hS]
    dsimp only
    rw [hreceived]
    exact ⟨_, _, rfl, rfl, rfl, .inl rfl⟩

theorem exec_clean {w : World σ} (h : Finds facts S x v) (hS : S w.store) :
    (x.exec (.clean facts) w).1 = .ofExcept v := by
  obtain ⟨ending, w', hexec, -, -, hending⟩ := h (.clean facts) w rfl hS
  rw [hexec]
  rcases hending with rfl | ⟨hfaults, -⟩
  · rfl
  · exact absurd rfl hfaults

theorem triple {setting : Setting} {P : Assertion σ} (h : Finds setting.facts S x v)
    (hP : ∀ s n, P s n → S s) :
    Triple setting P x (fun a s n => P s n ∧ v = .ok a)
      fun _ s n => P s n ∧ (setting.faults ≠ .empty ∨ ∃ e, v = .error e) := by
  intro w hw
  obtain ⟨ending, w', hexec, hstore, hsent, hending⟩ := h setting w rfl (hP _ _ hw)
  rw [hexec]
  rcases hending with rfl | ⟨hfaults, e, rfl⟩
  · cases v with
    | ok a => exact ⟨by rwa [hstore, hsent], rfl⟩
    | error e => exact ⟨by rwa [hstore, hsent], .inr ⟨e, rfl⟩⟩
  · exact ⟨by rwa [hstore, hsent], .inl hfaults⟩

end Finds

namespace Steady

theorem pure (a : α) : Steady facts S (pure a : Run σ ε α) := ⟨_, Finds.pure a, fun _ => ⟨a, rfl⟩⟩

theorem bind {x : Run σ ε α} {f : α → Run σ ε β} (hx : Steady facts S x)
    (hf : ∀ a, Steady facts S (f a)) : Steady facts S (x >>= f) := by
  obtain ⟨v, hv, hvok⟩ := hx
  choose g hg hgok using hf
  refine ⟨_, hv.bind fun a _ => hg a, fun htotal => ?_⟩
  obtain ⟨a, rfl⟩ := hvok htotal
  exact hgok a htotal

theorem mapError {f : ε → ε'} {x : Run σ ε α} (hx : Steady facts S x) :
    Steady facts S (x.mapError f) := by
  obtain ⟨v, hv, hvok⟩ := hx
  refine ⟨_, hv.mapError, fun htotal => ?_⟩
  obtain ⟨a, rfl⟩ := hvok htotal
  exact ⟨a, rfl⟩

end Steady

/-- A relation between programs and the values that they end with, which passes from the parts of a
program to the whole. -/
structure Determining (R : ∀ {α : Type}, Run σ ε α → α → Prop) : Prop where
  pure : ∀ {α : Type} (a : α), R (pure a : Run σ ε α) a
  bind : ∀ {α β : Type} {x : Run σ ε α} {f : α → Run σ ε β} {a : α} {b : β},
    R x a → R (f a) b → R (x >>= f) b

namespace Determining

variable {R : ∀ {α : Type}, Run σ ε α → α → Prop} (hR : Determining R)

include hR

theorem evaluateRest {checks : List (Run σ ε Bool)} {answers : List Bool} (method : Method)
    (h : List.Forall₂ R checks answers) :
    R (method.evaluateRest checks) ((answers.find? method.decides).getD method.undecided) := by
  induction h with
  | nil => exact hR.pure _
  | @cons x a xs as hx _ ih =>
    refine hR.bind hx ?_
    cases ha : method.decides a with
    | true =>
      rw [if_pos rfl, List.find?_cons_of_pos ha]
      exact hR.pure a
    | false =>
      rw [if_neg (by simp), List.find?_cons_of_neg (by simp [ha])]
      exact ih

theorem evaluate {checks : List (Run σ ε Bool)} {answers : List Bool} (method : Method)
    (h : List.Forall₂ R checks answers) :
    R (method.evaluate checks) (method.verdict answers) := by
  cases h with
  | nil => cases method <;> exact hR.pure _
  | @cons x a xs as hx hxs =>
    rw [← Method.getD_find?_decides (List.cons_ne_nil a as)]
    exact hR.evaluateRest method (.cons hx hxs)

end Determining

theorem determining_finds :
    Determining fun {α : Type} (x : Run σ ε α) a => Finds facts S x (.ok a) where
  pure := Finds.pure
  bind {_ _ _ _ _ b} hx hf := hx.bind (g := fun _ => .ok b) fun _ ha => by
    cases ha
    exact hf

/-- A verdict depends on which checks there are, and not on their order or on how many there are of
each. -/
theorem Steady.exists_finds_evaluate {xs ys : List (Run σ ε Bool)} (method : Method)
    (htotal : facts.Total) (h : ∀ x ∈ xs, Steady facts S x) (hmem : ∀ x, x ∈ xs ↔ x ∈ ys) :
    ∃ v, Finds facts S (method.evaluate xs) (.ok v) ∧
      Finds facts S (method.evaluate ys) (.ok v) := by
  have hanswer : ∀ x, ∃ a, x ∈ xs → Finds facts S x (.ok a) := fun x => by
    by_cases hx : x ∈ xs
    · obtain ⟨v, hv, hok⟩ := h x hx
      obtain ⟨a, rfl⟩ := hok htotal
      exact ⟨a, fun _ => hv⟩
    · exact ⟨false, fun hx' => absurd hx' hx⟩
  choose answer hanswer using hanswer
  have hfinds : ∀ zs : List (Run σ ε Bool), (∀ z ∈ zs, z ∈ xs) →
      Finds facts S (method.evaluate zs) (.ok (method.verdict (zs.map answer))) := fun zs hzs =>
    determining_finds.evaluate method (List.forall₂_map_right_iff.2 (List.forall₂_same.2 fun z hz =>
      hanswer z (hzs z hz)))
  refine ⟨_, hfinds xs fun _ hz => hz, ?_⟩
  rw [Method.verdict_map_congr_mem hmem]
  exact hfinds ys fun z hz => (hmem z).2 hz

end Run

namespace Review

open Run

variable {σ : Type} {facts : FactSource} {S : σ → Prop} {l : LearnerId}

theorem steady_ask (q : Query) : Steady facts S (ask q : Run σ ReviewError q.Answer) :=
  Steady.mapError ⟨_, Finds.ask q, fun htotal => htotal q⟩

theorem compositional_steady : Compositional fun x : Run σ ReviewError _ => Steady facts S x :=
  ⟨Steady.pure, Steady.bind⟩

theorem finds_call [Store σ] {op : Operation} {a : op.Answer}
    (hop : ∀ s, S s → Store.perform op s = .ok (a, s))
    (hreceived : ∀ plan h, received plan h op a = a) :
    Finds facts S (call op : Run σ ReviewError op.Answer) (.ok a) :=
  (Finds.perform hop hreceived).mapError

variable {s₀ : Ledger} {b : Badge} {c : Criterion}

/-- Whether a badge was granted by hand is answered alike by all stores of which `S` holds. -/
def TellsManual [Store σ] (S : σ → Prop) : Prop :=
  ∀ b l r, ∃ v, ∀ s, S s → Store.perform (.manualExists b l r) s = .ok (v, s)

theorem TellsManual.steady_call [Store σ] (hS : TellsManual S) (b : BadgeId) (l : LearnerId)
    (role : RoleId) : Steady facts S (call (.manualExists b l role) : Run σ ReviewError Bool) := by
  obtain ⟨v, hv⟩ := hS b l role
  exact ⟨.ok v, finds_call hv fun _ _ => rfl, fun _ => ⟨_, rfl⟩⟩

theorem steady_check [Store σ] (facts : FactSource) (hS : TellsManual S) (b : Badge) (l : LearnerId)
    (hc : c.isOverall = false) {x : Run σ ReviewError Bool} (hx : x ∈ checks b l c) :
    Steady facts S x :=
  compositional_steady.check (fun q _ => steady_ask q) (hS.steady_call _ l) hc hx

theorem steady_requirement (facts : FactSource) (s₀ : Ledger) (b : Badge) (l : LearnerId)
    (hc : c.isOverall = false) :
    Steady facts (fun s : Ledger => s.manual = s₀.manual) (criterion b l c) := by
  have htells : TellsManual fun s : Ledger => s.manual = s₀.manual := fun b l r => by
    refine ⟨s₀.manual.contains ⟨b, l, r⟩, fun s hs => ?_⟩
    show Except.ok (s.manual.contains ⟨b, l, r⟩, s) = _
    rw [hs]
  exact compositional_steady.requirement (fun q _ => steady_ask q) (htells.steady_call _ l) hc

/-- Whether a criterion has a met record of a learner. -/
def Recorded (s : Ledger) (l : LearnerId) (c : Criterion) : Prop :=
  s.met.contains ⟨c.id, l⟩ = true

instance (s : Ledger) (l : LearnerId) (c : Criterion) : Decidable (Recorded s l c) :=
  inferInstanceAs (Decidable (_ = true))

theorem finds_overall (facts : FactSource) (s₀ : Ledger) (b : Badge) (l : LearnerId)
    (hc : c.isOverall = true) :
    Finds facts (fun s : Ledger => s.met = s₀.met) (criterion b l c)
      (.ok (c.method.verdict (b.requirements.map fun d => s₀.met.contains ⟨d.id, l⟩))) := by
  unfold criterion
  rw [checks_of_isOverall hc]
  refine determining_finds.evaluate _ (List.forall₂_map_left_iff.2 (List.forall₂_map_right_iff.2
    (List.forall₂_same.2 fun d _ => ?_)))
  have hread : Finds facts (fun s : Ledger => s.met = s₀.met) (call (.criterionMet d.id l))
      (.ok (s₀.met.get? ⟨d.id, l⟩)) := by
    refine finds_call (fun s hs => ?_) fun _ _ => rfl
    show Except.ok (s.met.get? ⟨d.id, l⟩, s) = _
    rw [hs]
  exact hread.bind (g := fun record => .ok record.isSome) fun record _ => Finds.pure record.isSome

theorem verdict_overall_eq_true_iff {s : Ledger} :
    c.method.verdict (b.requirements.map fun d => s.met.contains ⟨d.id, l⟩) = true ↔
      b.requirements ≠ [] ∧ c.method.Asks (Recorded s l) b.requirements :=
  Method.verdict_map_eq_true_iff

/-- The review of a criterion, when no call fails, finds that the learner satisfies it. -/
def Holds (facts : FactSource) (s : Ledger) (b : Badge) (l : LearnerId) (c : Criterion) : Prop :=
  ((criterion b l c).exec (.clean facts) (.ofStore s)).1 = .done true

/-- The review of a requirement keeps everything, and its answer is whether the requirement held at
the start. -/
theorem triple_requirement {setting : Setting} {P : Assertion Ledger} (hc : c.isOverall = false)
    (hP : ∀ s n, P s n → s.manual = s₀.manual) :
    Triple setting P (criterion b l c)
      (fun v s n => P s n ∧ (v = true ↔ Holds setting.facts s₀ b l c))
      fun _ s n => P s n ∧ (setting.faults ≠ .empty ∨ ¬ setting.facts.Total) := by
  obtain ⟨v, hv, hvok⟩ := steady_requirement setting.facts s₀ b l hc
  have hholds : Holds setting.facts s₀ b l c ↔ v = .ok true := by
    have hclean := hv.exec_clean (w := World.ofStore s₀) rfl
    rw [Holds, hclean]
    cases v <;> simp [Ending.ofExcept]
  refine (hv.triple hP).weaken (fun _ _ h => h) ?_ ?_
  · rintro a s n ⟨hPs, rfl⟩
    refine ⟨hPs, ?_⟩
    rw [hholds]
    simp
  · rintro _ s n ⟨hPs, hfaults | ⟨e, rfl⟩⟩
    · exact ⟨hPs, .inl hfaults⟩
    · refine ⟨hPs, .inr fun htotal => ?_⟩
      obtain ⟨a, ha⟩ := hvok htotal
      cases ha

/-- The requirements do not depend on the records, so they hold alike in ledgers with the same
manual awards. -/
theorem holds_iff_of_manual {s : Ledger} (hc : c.isOverall = false) (hs : s.manual = s₀.manual) :
    Holds facts s b l c ↔ Holds facts s₀ b l c := by
  obtain ⟨v, hv, -⟩ := steady_requirement facts s₀ b l hc
  have h := hv.exec_clean (w := World.ofStore s) hs
  have h₀ := hv.exec_clean (w := World.ofStore s₀) rfl
  rw [Holds, Holds, h, h₀]

theorem triple_overall {setting : Setting} {P : Assertion Ledger} (hc : c.isOverall = true) :
    Triple setting P (criterion b l c)
      (fun v s n => P s n ∧
        (v = true ↔ b.requirements ≠ [] ∧ c.method.Asks (Recorded s l) b.requirements))
      fun _ s n => P s n ∧ setting.faults ≠ .empty := by
  refine Triple.intro fun s n hP => ?_
  have hfinds := finds_overall setting.facts s b l hc
  refine (hfinds.triple (P := fun s' n' => s' = s ∧ n' = n) ?_).weaken (fun _ _ h => h) ?_ ?_
  · rintro s' n' ⟨rfl, -⟩
    rfl
  · rintro a s' n' ⟨⟨rfl, rfl⟩, ha⟩
    refine ⟨hP, ?_⟩
    rw [← verdict_overall_eq_true_iff]
    cases ha
    exact Iff.rfl
  · rintro _ s' n' ⟨⟨rfl, rfl⟩, hfaults | ⟨e, he⟩⟩
    · exact ⟨hP, hfaults⟩
    · cases he

end Review

end Badging
