import Badging.Proofs.Review.Carry
import Badging.Proofs.Review.Resolving
import Badging.Proofs.Review.Selection

/-!
# Passes carry reviews out

A pass is a list of reviews with questions between them. The questions change nothing, and what is
asked determines the `agenda`: what is reported of each badge, and whom it is reviewed for. So a
pass carries the reviews of its agenda out in order, and its report is `View.report`.

All this holds as long as no token that is drawn is taken. If one is, the pass still ends and leaves
the badges known as before. `Carries` says both of a program, and it has a rule for programs that
are run one after the other.
-/

namespace Badging

/-- The outcome without the token of the award. -/
def Review.Outcome.withoutToken : Outcome → Outcome
  | .awarded a => .awarded a.withoutToken
  | o => o

namespace Review

open Run

/-- Reviews learners for badges, one after the other. -/
def reviewEach {σ ε : Type} [Store σ] (now : Instant) :
    List (Badge × LearnerId) → Run σ ε (List (Except ReviewError Outcome))
  | [] => return []
  | p :: ps => do
    let outcome ← Run.attempt (learner p.1 p.2 now)
    let rest ← reviewEach now ps
    return outcome :: rest

/-- The award that a review may issue, without its token. -/
def awardOf (now : Instant) (p : Badge × LearnerId) : Award :=
  ⟨p.1.id, p.2, now, (p.1.expiry.endOf now).toOption.join, "", true⟩

theorem withoutToken_of_issue {b : Badge} {l : LearnerId} {now : Instant} {token : String}
    {a : Award} (h : Award.issue b l now token = .ok a) : a.withoutToken = awardOf now (b, l) := by
  obtain ⟨x, hx, rfl⟩ := Award.issue_eq_ok_iff.1 h
  rw [awardOf, hx]
  rfl

theorem Decision.outcome_withoutToken (d : Decision) (a : Award) :
    (d.outcome a).map Outcome.withoutToken = d.outcome a.withoutToken := by
  cases d <;> rfl

def Decision.report (p : Badge × LearnerId) : Decision → Report
  | .failed e => ⟨0, 1, 0, [⟨p.1.id, some p.2, e⟩]⟩
  | .granted => ⟨0, 1, 1, []⟩
  | .known | .pending _ _ => ⟨0, 1, 0, []⟩

theorem Decision.ofLearner_outcome (p : Badge × LearnerId) (d : Decision) (a : Award) :
    Report.ofLearner p.1.id p.2 (d.outcome a) = d.report p := by
  cases d <;> rfl

namespace Report

def total (rs : List Report) : Report := rs.foldr (· + ·) .empty

def ofReviews (ps : List (Badge × LearnerId)) (vs : List (Except ReviewError Outcome)) : Report :=
  total (List.zipWith (fun p v => .ofLearner p.1.id p.2 v) ps vs)

theorem ofLearner_withoutToken (b : BadgeId) (l : LearnerId) (v : Except ReviewError Outcome) :
    ofLearner b l (v.map Outcome.withoutToken) = ofLearner b l v := by
  match v with
  | .error e => rfl
  | .ok (.awarded a) => rfl
  | .ok (.pending met total) => rfl
  | .ok .alreadyAwarded => rfl

theorem ofReviews_withoutToken {ps : List (Badge × LearnerId)}
    {vs : List (Except ReviewError Outcome)} :
    ofReviews ps (vs.map (·.map Outcome.withoutToken)) = ofReviews ps vs := by
  simp only [ofReviews, List.zipWith_map_right, ofLearner_withoutToken]

end Report

theorem learners_eq {σ ε : Type} [Store σ] (b : Badge) (now : Instant) (ls : List LearnerId) :
    (learners b now ls : Run σ ε Report) = reviewEach now (ls.map fun l => (b, l)) >>= fun vs =>
      pure (.ofReviews (ls.map fun l => (b, l)) vs) := by
  induction ls with
  | nil => rfl
  | cons l ls ih =>
    simp only [learners, reviewEach, List.map_cons, ih, bind_assoc, pure_bind]
    rfl

namespace View

variable (answers : LearnerId → Criterion → Except ReviewError Bool)

/-- How reviews end, each in the view that the ones before it leave, apart from tokens. -/
def outcomes (now : Instant) (V : View) (ps : List (Badge × LearnerId)) :
    List (Except ReviewError Outcome) :=
  List.zipWith (fun p d => d.outcome (awardOf now p)) ps (V.decisions answers ps)

def tally (V : View) (ps : List (Badge × LearnerId)) : Report :=
  .total (List.zipWith (fun p d => d.report p) ps (V.decisions answers ps))

theorem ofReviews_outcomes (now : Instant) (V : View) (ps : List (Badge × LearnerId)) :
    Report.ofReviews ps (V.outcomes answers now ps) = V.tally answers ps := by
  rw [Report.ofReviews, outcomes, tally]
  generalize V.decisions answers ps = ds
  congr 1
  induction ps generalizing ds with
  | nil => rfl
  | cons p ps ih =>
    cases ds with
    | nil => rfl
    | cons d ds => simp only [List.zipWith_cons_cons, Decision.ofLearner_outcome, ih]

theorem tally_cons {V : View} {p : Badge × LearnerId} {ps : List (Badge × LearnerId)} :
    V.tally answers (p :: ps) =
      (V.resolution answers p).decision.report p + (V.review answers p).tally answers ps := rfl

theorem tally_lock {V : View} {b : Badge} {ls : List LearnerId} :
    V.tally answers (ls.map fun l => (b.lock, l)) = V.tally answers (ls.map fun l => (b, l)) := by
  rw [tally, tally, decisions_lock, List.zipWith_map_left, List.zipWith_map_left]
  rfl

/-- The report over an agenda, whose entries are reports with the reviews that come after them. -/
def report : View → List (Report × List (Badge × LearnerId)) → Report
  | _, [] => .empty
  | V, e :: es => e.1 + V.tally answers e.2 + report (V.carry answers e.2) es

end View

def selection (id : BadgeId) :
    Except SourceError Bool → Except SourceError (List LearnerId) → Report × List LearnerId
  | .error e, _ => (.ofBadgeFailure id e, [])
  | .ok false, _ => (.empty, [])
  | .ok true, .error e => (.ofBadgeFailure id e, [])
  | .ok true, .ok ls => (.ofBadge, ls)

section Agenda

variable (facts : FactSource) (now : Instant)

/-- Whether a badge is reviewed, or why that cannot be found out. -/
def reviewability (b : Badge) : Except SourceError Bool :=
  if b.status.isActive && b.hasCriteria then
    match b.owner with
    | .site => .ok true
    | .course c => (facts (.course c)).map fun found =>
      found.any fun info => info.visible && info.hasStarted now
  else .ok false

/-- What is reported of a badge before learners are reviewed, and who they are. -/
def selected (b : Badge) : Report × List LearnerId :=
  selection b.id (reviewability facts now b) (facts (.candidates b))

/-- What a pass over badges reports and reviews. It does not matter how the badges are locked, so
they are listed as locked. -/
def agenda (bs : List Badge) : List (Report × List (Badge × LearnerId)) :=
  bs.map fun b => ((selected facts now b).1, (selected facts now b).2.map fun l => (b.lock, l))

end Agenda

theorem ends_isReviewable {σ : Type} {setting : Setting} {now : Instant} {b : Badge} {q : Scene σ}
    (honly : setting.faults.OnlyNotices) :
    Ends setting (isReviewable b now : Run σ SourceError Bool) q
      (reviewability setting.facts now b) q := by
  unfold isReviewable reviewability
  split
  · cases b.owner with
    | site => exact .pure true
    | course c => exact (Ends.ask honly).bind_pure
  · exact .pure false

def reviews (es : List (Report × List (Badge × LearnerId))) : List (Badge × LearnerId) :=
  es.flatMap (·.2)

section Fresh

variable {σ : Type}

/-- From the `m`-th to the `n`-th no token is taken when it is drawn: none is at first, and if two
are the same it cannot be taken at all. -/
structure Fresh (Taken : σ → String → Prop) (tokens : Nat → String) (s : σ) (m n : Nat) :
    Prop where
  free : ∀ i, m ≤ i → i < n → ¬ Taken s (tokens i)
  differ : ∀ i j, m ≤ i → i < j → j < n → tokens i = tokens j → ∀ s, ¬ Taken s (tokens j)

variable {Taken : σ → String → Prop} {tokens : Nat → String} {s s' : σ} {m m' n n' : Nat}

theorem Fresh.shorten (h : Fresh Taken tokens s m n) (hle : n' ≤ n) :
    Fresh Taken tokens s m n' :=
  ⟨fun i hi hlt => h.free i hi (Nat.lt_of_lt_of_le hlt hle),
    fun i j hi hlt hj => h.differ i j hi hlt (Nat.lt_of_lt_of_le hj hle)⟩

theorem fresh_of_never (h : ∀ s token, ¬ Taken s token) : Fresh Taken tokens s m n :=
  ⟨fun i _ _ => h s (tokens i), fun _ j _ _ _ _ s => h s (tokens j)⟩

theorem Fresh.after (h : Fresh Taken tokens s m n) (hle : m ≤ m')
    (htaken : ∀ token, Taken s' token → Taken s token ∨ ∃ i, m ≤ i ∧ i < m' ∧ token = tokens i) :
    Fresh Taken tokens s' m' n := by
  refine ⟨fun j hj hlt htoken => ?_, fun i j hi => h.differ i j (Nat.le_trans hle hi)⟩
  rcases htaken _ htoken with hold | ⟨i, hi, hilt, heq⟩
  · exact h.free j (Nat.le_trans hle hj) hlt hold
  · exact h.differ i j hi (Nat.lt_of_lt_of_le hilt hj) hlt heq.symm s' htoken

end Fresh

section Carries

variable {σ ε ε' α β : Type} {now : Instant} (Shown : View → σ → Prop) (Taken : σ → String → Prop)
  (setting : Setting) (answers : LearnerId → Criterion → Except ReviewError Bool)

structure CarriedOut (V : View) (ps : List (Badge × LearnerId)) (q : Scene σ) (V' : View)
    (q' : Scene σ) : Prop where
  view : V' = V.carry answers ps
  taken : ∀ token, Taken q'.store token →
    Taken q.store token ∨ ∃ i, q.issued ≤ i ∧ i < q'.issued ∧ token = setting.tokens i
  still : (∀ p ∈ ps, (V.resolution answers p).AtRest) → q' = q

/-- The program ends. It carries the reviews out and ends with a value that is `good` unless it drew
a token that was taken, which it cannot have done if no review had anything to write. -/
def Carries (V : View) (q : Scene σ) (x : Run σ ε α) (ps : List (Badge × LearnerId))
    (good : α → Prop) : Prop :=
  ∃ a V' q', Ends setting x q (.ok a) q' ∧ Shown V' q'.store ∧ V.Leads V' ∧ q.issued ≤ q'.issued ∧
    (Fresh Taken setting.tokens q.store q.issued q'.issued ∨
        (∀ p ∈ ps, (V.resolution answers p).AtRest) →
      CarriedOut Taken setting answers V ps q V' q' ∧ good a)

variable {Shown Taken setting answers} {V V' : View} {q : Scene σ} {x : Run σ ε α}
  {ps : List (Badge × LearnerId)} {good : α → Prop}

theorem Carries.congr_reviews (h : Carries Shown Taken setting answers V q x ps good)
    (qs : List (Badge × LearnerId)) (hcarry : V.carry answers qs = V.carry answers ps)
    (hrest : (∀ p ∈ qs, (V.resolution answers p).AtRest) →
      ∀ p ∈ ps, (V.resolution answers p).AtRest) :
    Carries Shown Taken setting answers V q x qs good := by
  obtain ⟨a, V', q', hends, hshown, hleads, hissued, hcarried⟩ := h
  refine ⟨a, V', q', hends, hshown, hleads, hissued, fun h => ?_⟩
  obtain ⟨hout, ha⟩ := hcarried (h.imp_right hrest)
  exact ⟨⟨hout.view.trans hcarry.symm, hout.taken, fun h => hout.still (hrest h)⟩, ha⟩

theorem carry_of_atRest (h : ∀ p ∈ ps, (V.resolution answers p).AtRest) :
    V.carry answers ps = V := by
  induction ps with
  | nil => rfl
  | cons p ps ih =>
    rw [View.carry_cons, View.review_of_atRest (h p List.mem_cons_self)]
    exact ih fun p' hp' => h p' (List.mem_cons_of_mem p hp')

namespace Carries

theorem pure {a : α} (hshown : Shown V q.store) (ha : good a) :
    Carries Shown Taken setting answers V q (pure a : Run σ ε α) [] good :=
  ⟨a, V, q, .pure a, hshown, .refl, Nat.le_refl _,
    fun _ => ⟨⟨rfl, fun _ h => .inl h, fun _ => rfl⟩, ha⟩⟩

theorem after_ends {y : Run σ ε β} {b : β} {f : β → Run σ ε α} (hy : Ends setting y q (.ok b) q)
    (h : Carries Shown Taken setting answers V q (f b) ps good) :
    Carries Shown Taken setting answers V q (y >>= f) ps good := by
  obtain ⟨a, V', q', hends, hrest⟩ := h
  exact ⟨a, V', q', .bind hy hends, hrest⟩

theorem bind {f : α → Run σ ε β} (hx : Carries Shown Taken setting answers V q x ps good)
    (qs : List (Badge × LearnerId)) (good' : View → α → β → Prop)
    (hf : ∀ a V' q', Shown V' q'.store → V.Leads V' →
      Carries Shown Taken setting answers V' q' (f a) qs (good' V' a)) :
    Carries Shown Taken setting answers V q (x >>= f) (ps ++ qs) fun b =>
      ∃ a, good a ∧ good' (V.carry answers ps) a b := by
  obtain ⟨a, V₁, q₁, hends, hshown, hleads, hissued, hcarried⟩ := hx
  obtain ⟨b, V₂, q₂, hends', hshown', hleads', hissued', hcarried'⟩ := hf a V₁ q₁ hshown hleads
  refine ⟨b, V₂, q₂, .bind hends hends', hshown', hleads.trans hleads',
    Nat.le_trans hissued hissued', fun h => ?_⟩
  obtain ⟨hfirst, ha⟩ := hcarried (h.imp (·.shorten hissued') fun hrest p hp =>
    hrest p (List.mem_append_left qs hp))
  have hstill : (∀ p ∈ ps ++ qs, (V.resolution answers p).AtRest) →
      ∀ p ∈ qs, (V₁.resolution answers p).AtRest := fun hrest p hp => by
    rw [hfirst.view, carry_of_atRest fun p hp => hrest p (List.mem_append_left qs hp)]
    exact hrest p (List.mem_append_right ps hp)
  obtain ⟨hsecond, hb⟩ := hcarried' (h.imp (·.after hissued hfirst.taken) hstill)
  refine ⟨⟨?_, fun token h => ?_, fun hrest => ?_⟩, a, ha, hfirst.view ▸ hb⟩
  · rw [hsecond.view, hfirst.view, View.carry_append]
  · rcases hsecond.taken token h with h | ⟨i, hi, hlt, heq⟩
    · rcases hfirst.taken token h with h | ⟨i, hi, hlt, heq⟩
      · exact .inl h
      · exact .inr ⟨i, hi, Nat.lt_of_lt_of_le hlt hissued', heq⟩
    · exact .inr ⟨i, Nat.le_trans hissued hi, hlt, heq⟩
  · rw [hsecond.still (hstill hrest), hfirst.still fun p hp => hrest p (List.mem_append_left qs hp)]

theorem weaken {good' : α → Prop} (h : Carries Shown Taken setting answers V q x ps good)
    (hgood : ∀ a, good a → good' a) : Carries Shown Taken setting answers V q x ps good' := by
  obtain ⟨a, V', q', hends, hshown, hleads, hissued, hcarried⟩ := h
  exact ⟨a, V', q', hends, hshown, hleads, hissued,
    fun h => (hcarried h).imp_right (hgood a)⟩

theorem bind_pure {f : α → β} (h : Carries Shown Taken setting answers V q x ps good) :
    Carries Shown Taken setting answers V q (x >>= fun a => Pure.pure (f a)) ps fun b =>
      ∃ a, good a ∧ b = f a := by
  have hboth := h.bind [] (fun _ a b => b = f a) fun a V' q' hshown _ => pure hshown rfl
  rwa [List.append_nil] at hboth

/-- How a program ends that carries reviews out, if no token that it draws is taken. -/
theorem exec {w : World σ} (h : Carries Shown Taken setting answers V w.scene x ps good)
    (hfresh : Fresh Taken setting.tokens w.store w.issued (x.exec setting w).2.issued) :
    ∃ a, (x.exec setting w).1 = .done a ∧ good a ∧
      Shown (V.carry answers ps) (x.exec setting w).2.store := by
  obtain ⟨a, V', q', hends, hshown, -, -, hcarried⟩ := h
  obtain ⟨hdone, rfl⟩ := hends.exec_eq
  obtain ⟨hout, ha⟩ := hcarried (.inl hfresh)
  exact ⟨a, hdone, ha, hout.view ▸ hshown⟩

theorem exec_of_atRest {w : World σ} (h : Carries Shown Taken setting answers V w.scene x ps good)
    (hrest : ∀ p ∈ ps, (V.resolution answers p).AtRest) :
    ∃ a, (x.exec setting w).1 = .done a ∧ good a ∧ (x.exec setting w).2.scene = w.scene := by
  obtain ⟨a, V', q', hends, -, -, -, hcarried⟩ := h
  obtain ⟨hdone, rfl⟩ := hends.exec_eq
  obtain ⟨hout, ha⟩ := hcarried (.inr hrest)
  exact ⟨a, hdone, ha, hout.still hrest⟩

end Carries

variable [Store σ] (K : Viewable now Shown Taken) (honly : setting.faults.OnlyNotices)

include K honly

theorem carries_attempt {p : Badge × LearnerId} (hshown : Shown V q.store) (hp : V.Knows p.1)
    (hexpiry : p.1.expiry.Measurable) (hanswer : Answers σ setting V.granted p.2 (answers p.2)) :
    Carries Shown Taken setting answers V q
      (Run.attempt (learner p.1 p.2 now) : Run σ ε (Except ReviewError Outcome)) [p]
      fun v => v.map Outcome.withoutToken =
        (V.resolution answers p).decision.outcome (awardOf now p) := by
  obtain ⟨v, V', q', hends, hshown', hleads, hissued, hcarried⟩ :=
    resolves_learner K honly hshown hp hexpiry hanswer
  refine ⟨v, V', q', hends.attempt, hshown', hleads, hissued, fun h => ?_⟩
  rcases hcarried with ⟨⟨a, ha, hv⟩, hview, htaken, hstill⟩ | ⟨hlt, hnot, hclash⟩
  · refine ⟨⟨hview, fun token h => ?_, fun hrest => hstill (hrest p List.mem_cons_self)⟩, ?_⟩
    · exact (htaken token h).imp_right fun ⟨hlt, heq⟩ => ⟨q.issued, Nat.le_refl _, hlt, heq⟩
    · show v.map Outcome.withoutToken = _
      rw [hv, Decision.outcome_withoutToken, withoutToken_of_issue ha]
      rfl
  · rcases h with hfresh | hrest
    · exact absurd hclash (hfresh.free q.issued (Nat.le_refl _) hlt)
    · exact absurd (hrest p List.mem_cons_self) hnot

theorem carries_reviewEach (hshown : Shown V q.store)
    (hps : ∀ p ∈ ps, V.Knows p.1 ∧ p.1.expiry.Measurable)
    (hanswers : ∀ l, Answers σ setting V.granted l (answers l)) :
    Carries Shown Taken setting answers V q
      (reviewEach now ps : Run σ ε (List (Except ReviewError Outcome))) ps
      fun vs => vs.map (·.map Outcome.withoutToken) = V.outcomes answers now ps := by
  induction ps generalizing V q with
  | nil => exact .pure hshown rfl
  | cons p ps ih =>
    obtain ⟨hp, hexpiry⟩ := hps p List.mem_cons_self
    have hfirst := carries_attempt K honly (ε := ε) hshown hp hexpiry (hanswers p.2)
    refine (hfirst.bind ps (fun V' v vs =>
      ∃ vs', vs'.map (·.map Outcome.withoutToken) = V'.outcomes answers now ps ∧ vs = v :: vs')
      fun v V' q' hshown' hleads => (ih hshown' (fun p' hp' => ?_) ?_).bind_pure).weaken ?_
    · exact (hps p' (List.mem_cons_of_mem p hp')).imp_left hleads.knows
    · rw [hleads.granted]
      exact hanswers
    · rintro vs ⟨v, hv, vs', hvs', rfl⟩
      rw [List.map_cons, hv, hvs']
      rfl

theorem carries_badge {b : Badge} (hshown : Shown V q.store) (hb : V.Knows b)
    (hexpiry : b.expiry.Measurable) (hanswers : ∀ l, Answers σ setting V.granted l (answers l)) :
    Carries Shown Taken setting answers V q (badge b now : Run σ ε Report)
      ((selected setting.facts now b).2.map fun l => (b, l)) fun r =>
        r = (selected setting.facts now b).1 +
          V.tally answers ((selected setting.facts now b).2.map fun l => (b, l)) := by
  refine .after_ends (ends_isReviewable honly).attempt ?_
  unfold selected
  cases reviewability setting.facts now b with
  | error e => exact .pure hshown (Report.add_empty _).symm
  | ok holds =>
    cases holds with
    | false => exact .pure hshown (Report.add_empty _).symm
    | true =>
      refine .after_ends (Ends.ask honly).attempt ?_
      cases setting.facts (.candidates b) with
      | error e => exact .pure hshown (Report.add_empty _).symm
      | ok ls =>
        dsimp only
        rw [learners_eq, bind_assoc]
        simp only [pure_bind]
        refine (carries_reviewEach K honly hshown (fun p hp => ?_) hanswers).bind_pure.weaken ?_
        · obtain ⟨l, -, rfl⟩ := List.mem_map.1 hp
          exact ⟨hb, hexpiry⟩
        · rintro r ⟨vs, hvs, rfl⟩
          rw [← Report.ofReviews_withoutToken, hvs, View.ofReviews_outcomes]
          rfl

theorem carries_badges {bs : List Badge} (hshown : Shown V q.store)
    (hbs : ∀ b ∈ bs, V.Knows b ∧ b.expiry.Measurable)
    (hanswers : ∀ l, Answers σ setting V.granted l (answers l)) :
    Carries Shown Taken setting answers V q (badges now bs : Run σ ε Report)
      (reviews (agenda setting.facts now bs)) fun r =>
        r = V.report answers (agenda setting.facts now bs) := by
  induction bs generalizing V q with
  | nil => exact .pure hshown rfl
  | cons b bs ih =>
    obtain ⟨hb, hexpiry⟩ := hbs b List.mem_cons_self
    have hfirst := carries_badge K honly (ε := ε) hshown hb hexpiry hanswers
    have hlocked := hfirst.congr_reviews ((selected setting.facts now b).2.map fun l =>
      (b.lock, l)) View.carry_lock fun h p hp => ?_
    · refine (hlocked.bind (reviews (agenda setting.facts now bs))
        (fun V' r r' => ∃ rest, rest = V'.report answers (agenda setting.facts now bs) ∧
          r' = r + rest) fun r V' q' hshown' hleads =>
            (ih hshown' (fun d hd => ?_) ?_).bind_pure).weaken ?_
      · exact (hbs d (List.mem_cons_of_mem b hd)).imp_left hleads.knows
      · rw [hleads.granted]
        exact hanswers
      · rintro r ⟨r₁, rfl, r₂, rfl, rfl⟩
        rw [← View.tally_lock]
        rfl
    · obtain ⟨l, hl, rfl⟩ := List.mem_map.1 hp
      rw [← View.resolution_lock]
      exact h (b.lock, l) (List.mem_map_of_mem hl)

/-- A pass carries out the agenda of the badges that are stored. -/
theorem carries_pass (hshown : Shown V q.store)
    (hmeasurable : ∀ b ∈ V.badges.values, b.expiry.Measurable)
    (hanswers : ∀ l, Answers σ setting V.granted l (answers l)) :
    Carries Shown Taken setting answers V q (pass now)
      (reviews (agenda setting.facts now V.badges.values)) fun r =>
        r = V.report answers (agenda setting.facts now V.badges.values) := by
  refine .after_ends (ends_call honly (K.badges hshown)) ?_
  refine carries_badges K honly hshown (fun b hb => ?_) hanswers
  obtain ⟨id, hid⟩ := Register.mem_values_iff.1 hb
  exact ⟨(K.sound hshown).knows hid, hmeasurable b hb⟩

end Carries

end Review

end Badging
