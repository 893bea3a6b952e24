import Badging.Proofs.Review.Locking

/-!
# What keeps a pass from its report

A pass reviews whatever is listed, and a review that fails is only noted. If the store and the
systems that know the learners answer, the report counts every badge that is reviewed and every
candidate. But a break ends the whole pass. It comes from one place: an award is due of a badge
whose period cannot be measured. Such a badge can be stored, since no operation looks at the period
of a new badge.
-/

namespace Badging

namespace Review

open Run

variable {σ : Type} [Store σ] {setting : Setting} {now : Instant} {bs : List Badge} {b : Badge}
  {l : LearnerId}

/-- A badge in a list is reviewed, and the period of its policy is told as too long. -/
def BreaksOff (facts : FactSource) (now : Instant) (bs : List Badge) (p : PeriodOverflow) : Prop :=
  ∃ b ∈ bs, Reviewable facts now b ∧ b.expiry = .afterPeriod p.seconds ∧ ¬ b.expiry.Measurable

/-- How a pass over a list of badges may end: with a report that counts all that is to be reviewed,
or with a break over one of them. -/
def EndsCounted (facts : FactSource) (now : Instant) (bs : List Badge) :
    Ending ReviewError Report → Prop
  | .done r => r.Counts facts now bs
  | .failed _ => False
  | .broken p => BreaksOff facts now bs p

theorem reviewKeeps_breaksOff (hb : b ∈ bs) (hreviewable : Reviewable setting.facts now b) :
    ReviewKeeps setting now (fun (_ : σ) _ => True)
      (fun (cut : Cut ReviewError) _ _ => ∃ p, cut = .broken p ∧ BreaksOff setting.facts now bs p)
      b l := by
  refine Triple.intro fun s n _ => ?_
  have hlearner : Triple setting (Along (Minor b l now) s n) (learner b l now) _ _ := triple_learner
  refine Triple.attempt (hlearner.starting ⟨.refl, rfl⟩) (fun _ _ _ _ => trivial)
    (fun _ _ _ _ => trivial) fun p _ _ h => ?_
  exact ⟨p, rfl, b, hb, hreviewable, Expiry.endOf_eq_error_iff.1 h.2⟩

theorem triple_pass_counts {s : σ} {n : List Notice} (hstore : setting.faults.SparesStore)
    (hfacts : setting.faults.SparesFacts) (htotal : setting.facts.Total)
    (hbs : Store.perform .badges s = .ok (bs, s)) :
    Triple setting (fun s' n' => s' = s ∧ n' = n) (pass now)
      (fun r _ _ => r.Counts setting.facts now bs)
      fun cut _ _ => ∃ p, cut = .broken p ∧ BreaksOff setting.facts now bs p := by
  refine (triple_pass_of (I := fun _ _ => True) hstore hbs trivial
    fun b hb hreviewable l _ => reviewKeeps_breaksOff hb hreviewable).weaken (fun _ _ h => h)
    (fun r _ _ h => ?_) fun _ _ _ h => h
  exact h.2.resolve_left fun hunanswered => hunanswered.elim (· hfacts) (· htotal)

/-- A pass that finds the badges of a store ends in one of the two ways. -/
def PassCounts (setting : Setting) (now : Instant) (w : World σ) : Prop :=
  ∃ bs, Store.perform .badges w.store = .ok (bs, w.store) ∧
    EndsCounted setting.facts now bs ((pass now).exec setting w).1

theorem passCounts {R : Ledger → σ → Prop} {form : Badge → Badge} (C : Catalog R form)
    (hstore : setting.faults.SparesStore) (hfacts : setting.faults.SparesFacts)
    (htotal : setting.facts.Total) {s : Ledger} {w : World σ} (hw : R s w.store) :
    PassCounts setting now w := by
  have hbs := C.badges hw
  refine ⟨_, hbs, ?_⟩
  have hpass : Triple setting (fun s' n' => s' = w.store ∧ n' = w.sent) (pass now) _ _ :=
    triple_pass_counts hstore hfacts htotal hbs
  have h := hpass w ⟨rfl, rfl⟩
  revert h
  rcases (pass now).exec setting w with ⟨r | e | p, w'⟩
  · exact id
  · rintro ⟨p, hp, -⟩
    cases hp
  · rintro ⟨p', hp, h⟩
    cases hp
    exact h

/-- A pass at either store, whatever was done to it before, ends with a report that counts every
reviewable badge and each of its candidates, unless it breaks off over a reviewable badge whose
period cannot be measured. Neither the notifier nor what is overlooked matters. -/
theorem ledger_and_tables_pass_counts (ops : List Operation) (facts : Snapshot) (faults : FaultPlan)
    (tokens : Nat → String) (now : Instant) (hstore : faults.SparesStore)
    (hfacts : faults.SparesFacts) :
    PassCounts ⟨facts.source, faults, tokens⟩ now (World.ofStore (Store.run Ledger.empty ops)) ∧
      PassCounts ⟨facts.source, faults, tokens⟩ now
        (World.ofStore (Store.run Tables.empty ops)) := by
  have htotal : facts.source.Total := fun q => ⟨_, rfl⟩
  obtain ⟨s, hs⟩ := Ledger.catalog.exists_of_reaches (s := .empty) rfl
    (Store.reaches_run Ledger.empty ops)
  obtain ⟨s', hs'⟩ := Tables.catalog.exists_of_reaches Tables.HasBadges.empty
    (Store.reaches_run Tables.empty ops)
  exact ⟨passCounts Ledger.catalog hstore hfacts htotal hs,
    passCounts Tables.catalog hstore hfacts htotal hs'⟩

/-- A pass over the badge for learners who are connected counts it and its one candidate. -/
theorem ledger_and_tables_pass_counts_networker :
    let now : Instant := ⟨0, 0, by decide, by decide, by decide, by decide⟩
    let setting : Setting := ⟨connectedLearner.source, .empty, fun _ => "token"⟩
    let ledger := World.ofStore (Store.run Ledger.empty networkBadge)
    let tables := World.ofStore (Store.run Tables.empty networkBadge)
    (setting.faults.SparesStore ∧ setting.faults.SparesFacts) ∧
      (((pass now).exec setting ledger).1 = .done ⟨1, 1, 1, []⟩ ∧
        ((pass now).exec setting tables).1 = .done ⟨1, 1, 1, []⟩) ∧
      PassCounts setting now ledger ∧ PassCounts setting now tables := by
  refine ⟨⟨fun _ _ => rfl, fun _ _ => rfl⟩, by decide +kernel, ?_⟩
  exact ledger_and_tables_pass_counts _ _ _ _ _ (fun _ _ => rfl) fun _ _ => rfl

/-- An import accepts a period that cannot be measured, and the pass that would award the badge
breaks off. -/
theorem imported_period_breaks_pass :
    let now : Instant := ⟨0, 0, by decide, by decide, by decide, by decide⟩
    let setting : Setting := ⟨connectedLearner.source, .empty, fun _ => "token"⟩
    let d := { networkerDefinition with expiry := .afterPeriod 9223372036854776 }
    let b := { networker .active with expiry := .afterPeriod 9223372036854776 }
    let ledger := (Definition.createAll [d]).exec setting (World.ofStore Ledger.empty)
    let tables := (Definition.createAll [d]).exec setting (World.ofStore Tables.empty)
    (ledger.1 = .done [b] ∧ tables.1 = .done [b]) ∧
      ((pass now).exec setting ledger.2).1 = .broken ⟨9223372036854776⟩ ∧
      ((pass now).exec setting tables.2).1 = .broken ⟨9223372036854776⟩ := by
  decide +kernel

end Review

end Badging
