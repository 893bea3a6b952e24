import Badging.Proofs.Review.Extent

/-!
# The account of a pass

A pass goes through the badges that were listed, and for each there is an `Entry` of what came of
it: it was passed over, something about it could not be found out, or its candidates were reviewed,
each with an outcome or an error. `Accounted` says that entries are those of a pass, by following it
from world to world as its parts are executed.

The report of a pass is a count of its entries, and so are the notices that it sends: one for each
award that a review issued. The rows of awards are counted by what is known of passes that are cut
short anywhere, where the notices that are sent make up for the rows that were added.
-/

namespace Badging

/-- The keys of the awards that were added since `s₀`. -/
def Ledger.awardsAdded (s₀ s : Ledger) : List (Pair BadgeId LearnerId) :=
  s.awards.keys.filter fun k => !s₀.awards.contains k

namespace Review

open Run

def issued? : Except ReviewError Outcome → Option Award
  | .ok (.awarded a) => some a
  | _ => none

def failure? (b : BadgeId) (l : LearnerId) : Except ReviewError Outcome → Option Failure
  | .ok _ => none
  | .error e => some ⟨b, some l, e⟩

/-- What comes of a badge in a pass. -/
inductive Entry where
  | passedOver (b : Badge)
  | unknown (b : Badge) (e : SourceError)
  | reviewed (b : Badge) (vs : List (LearnerId × Except ReviewError Outcome))

namespace Entry

def badge : Entry → Badge
  | .passedOver b | .unknown b _ | .reviewed b _ => b

def isReviewed : Entry → Bool
  | .reviewed _ _ => true
  | _ => false

/-- The reviews of the candidates, with how they came out. -/
def reviews : Entry → List (LearnerId × Except ReviewError Outcome)
  | .reviewed _ vs => vs
  | _ => []

def awards (e : Entry) : List Award := e.reviews.filterMap fun v => issued? v.2

/-- What failed: the badge as a whole, or reviews of its candidates. -/
def failures : Entry → List Failure
  | .passedOver _ => []
  | .unknown b e => [⟨b.id, none, .source e⟩]
  | .reviewed b vs => vs.filterMap fun v => failure? b.id v.1 v.2

def notices (e : Entry) : List Notice := e.awards.map fun a => a.notice e.badge

/-- What the facts say of a badge that was passed over, and of one that was reviewed. -/
def Accords (facts : FactSource) (now : Instant) : Entry → Prop
  | .passedOver b => ¬ Reviewable facts now b
  | .unknown _ _ => True
  | .reviewed b vs => Reviewable facts now b ∧ facts (.candidates b) = .ok (vs.map (·.1))

end Entry

namespace Report

def ofReviewed (b : Badge) (vs : List (LearnerId × Except ReviewError Outcome)) : Report :=
  ⟨0, vs.length, (Entry.reviewed b vs).awards.length, (Entry.reviewed b vs).failures⟩

def ofEntries (es : List Entry) : Report :=
  ⟨(es.filter Entry.isReviewed).length, (es.flatMap Entry.reviews).length,
    (es.flatMap Entry.awards).length, es.flatMap Entry.failures⟩

theorem ofReviewed_cons (b : Badge) (l : LearnerId) (v : Except ReviewError Outcome)
    (vs : List (LearnerId × Except ReviewError Outcome)) :
    ofReviewed b ((l, v) :: vs) = ofLearner b.id l v + ofReviewed b vs := by
  show _ = add _ _
  match v with
  | .error e | .ok (.awarded a) | .ok (.pending _ _) | .ok .alreadyAwarded =>
    simp [ofReviewed, ofLearner, add, Entry.awards, Entry.reviews, Entry.failures, issued?,
      failure?, Outcome.isAwarded, Nat.add_comm]

theorem ofEntries_cons (e : Entry) (es : List Entry) :
    ofEntries (e :: es) = ofEntries [e] + ofEntries es := by
  show _ = add _ _
  have hcons : e :: es = [e] ++ es := rfl
  simp only [ofEntries, add, hcons, List.filter_append, List.flatMap_append, List.length_append]

theorem ofEntries_reviewed (b : Badge) (vs : List (LearnerId × Except ReviewError Outcome)) :
    ofEntries [.reviewed b vs] = ofBadge + ofReviewed b vs := by
  show _ = add _ _
  have hfilter : [Entry.reviewed b vs].filter Entry.isReviewed = [.reviewed b vs] := rfl
  simp [ofEntries, ofBadge, ofReviewed, add, hfilter, Entry.reviews]

end Report

section Along

variable {σ : Type} [Store σ] (setting : Setting) (now : Instant)

/-- Learners are reviewed for a badge one after the other, with these results. -/
inductive Reviewed (b : Badge) :
    World σ → List (LearnerId × Except ReviewError Outcome) → World σ → Prop
  | nil {w : World σ} : Reviewed b w [] w
  | cons {w w' w'' : World σ} {l : LearnerId} {v : Except ReviewError Outcome}
      {vs : List (LearnerId × Except ReviewError Outcome)}
      (h : (learner b l now).exec setting w = (.ofExcept v, w')) (hrest : Reviewed b w' vs w'') :
      Reviewed b w ((l, v) :: vs) w''

/-- The entry tells what comes of its badge. -/
inductive Entered : World σ → Entry → World σ → Prop
  | passedOver {b : Badge} {w w' : World σ}
      (h : (isReviewable b now).exec setting w = (.done false, w')) :
      Entered w (.passedOver b) w'
  | ownerUnknown {b : Badge} {e : SourceError} {w w' : World σ}
      (h : (isReviewable b now).exec setting w = (.failed e, w')) : Entered w (.unknown b e) w'
  | candidatesUnknown {b : Badge} {e : SourceError} {w w' w'' : World σ}
      (h : (isReviewable b now).exec setting w = (.done true, w'))
      (hcandidates : (Run.ask (.candidates b)).exec setting w' = (.failed e, w'')) :
      Entered w (.unknown b e) w''
  | reviewed {b : Badge} {vs : List (LearnerId × Except ReviewError Outcome)}
      {w w' w'' w''' : World σ}
      (h : (isReviewable b now).exec setting w = (.done true, w'))
      (hcandidates : (Run.ask (.candidates b)).exec setting w' = (.done (vs.map (·.1)), w''))
      (hvs : Reviewed setting now b w'' vs w''') : Entered w (.reviewed b vs) w'''

/-- The entries tell what comes of their badges, one after the other. -/
inductive Accounted : World σ → List Entry → World σ → Prop
  | nil {w : World σ} : Accounted w [] w
  | cons {w w' w'' : World σ} {e : Entry} {es : List Entry} (h : Entered setting now w e w')
      (hrest : Accounted w' es w'') : Accounted w (e :: es) w''

variable {setting now} {b : Badge} {l : LearnerId} {w w' : World σ}

/-- A review ends with an outcome or an error, if the period of the badge can be measured. -/
theorem exec_learner (setting : Setting) (now : Instant) (hb : b.expiry.Measurable)
    (l : LearnerId) (w : World σ) :
    ∃ v w', (learner b l now).exec setting w = (.ofExcept v, w') := by
  have hcourse : Triple setting (Along (Minor b l now) w.store w.sent) (learner b l now) _ _ :=
    triple_learner
  have h := hcourse w ⟨.refl, rfl⟩
  revert h
  rcases (learner b l now).exec setting w with ⟨outcome | e | p, w'⟩ <;> intro h
  · exact ⟨.ok outcome, w', rfl⟩
  · exact ⟨.error e, w', rfl⟩
  · exact absurd hb (Expiry.endOf_eq_error_iff.1 h.2).2

theorem sent_of_exec_learner {v : Except ReviewError Outcome}
    (h : (learner b l now).exec setting w = (.ofExcept v, w')) :
    w'.sent = ((issued? v).map fun a => a.notice b).toList ++ w.sent := by
  have hcourse : Triple setting (Along (Minor b l now) w.store w.sent) (learner b l now) _ _ :=
    triple_learner
  have hsent := hcourse w ⟨.refl, rfl⟩
  rw [h] at hsent
  match v with
  | .error e => exact hsent.2
  | .ok (.awarded a) =>
    obtain ⟨_, _, _, -, -, -, -, hsent⟩ := hsent
    exact hsent
  | .ok (.pending _ _) | .ok .alreadyAwarded => exact hsent.2

theorem Reviewed.sent {vs : List (LearnerId × Except ReviewError Outcome)}
    (h : Reviewed setting now b w vs w') :
    w'.sent = (Entry.reviewed b vs).notices.reverse ++ w.sent := by
  induction h with
  | nil => rfl
  | @cons w w' w'' l v vs h _ ih =>
    rw [ih, sent_of_exec_learner h, ← List.append_assoc]
    congr 1
    cases hv : issued? v with
    | none => simp [Entry.notices, Entry.awards, Entry.reviews, Entry.badge, hv]
    | some a => simp [Entry.notices, Entry.awards, Entry.reviews, Entry.badge, hv]

section Asked

omit [Store σ]

theorem sent_of_exec_isReviewable {ending : Ending SourceError Bool}
    (h : (isReviewable b now).exec setting w = (ending, w')) : w'.sent = w.sent := by
  have hkeeps : Keeps setting (fun (_ : σ) n => n = w.sent) (isReviewable b now) :=
    triple_isReviewable.weaken (fun _ _ h => h) (fun _ _ _ h => h.1) fun cut _ _ h => by
      cases cut with
      | failed => exact h.1
      | broken => exact h.elim
  have hsent := hkeeps.after (w := w) rfl
  rwa [h] at hsent

theorem reviewable_of_exec {holds : Bool}
    (h : (isReviewable b now).exec setting w = (.done holds, w')) :
    holds = true ↔ Reviewable setting.facts now b :=
  (triple_isReviewable (P := fun _ _ => True) |>.of_exec_done trivial h).2

theorem sent_of_exec_ask {q : Query} {ending : Ending SourceError q.Answer}
    (h : (Run.ask q).exec setting w = (ending, w')) : w'.sent = w.sent := by
  have hupholds : Upholds setting (fun (_ : σ) n => n = w.sent) (Run.ask q) := Upholds.ask
  have hsent := hupholds.keeps.after (w := w) rfl
  rwa [h] at hsent

theorem answer_of_exec_ask {q : Query} {a : q.Answer}
    (h : (Run.ask q).exec setting w = (.done a, w')) : setting.facts q = .ok a :=
  (triple_askSource (P := fun _ _ => True) |>.of_exec_done trivial h).2

end Asked

/-- The questions about a badge send nothing, so the notices are those of its reviews. -/
theorem Entered.sent {e : Entry} (h : Entered setting now w e w') :
    w'.sent = e.notices.reverse ++ w.sent := by
  cases h with
  | passedOver h => exact sent_of_exec_isReviewable h
  | ownerUnknown h => exact sent_of_exec_isReviewable h
  | candidatesUnknown h hcandidates =>
    exact (sent_of_exec_ask hcandidates).trans (sent_of_exec_isReviewable h)
  | reviewed h hcandidates hvs =>
    rw [hvs.sent, sent_of_exec_ask hcandidates, sent_of_exec_isReviewable h]

theorem Accounted.sent {es : List Entry} (h : Accounted setting now w es w') :
    w'.sent = (es.flatMap Entry.notices).reverse ++ w.sent := by
  induction h with
  | nil => rfl
  | cons h _ ih =>
    rw [ih, h.sent, List.flatMap_cons, List.reverse_append, List.append_assoc]

theorem Entered.accords {e : Entry} (h : Entered setting now w e w') :
    e.Accords setting.facts now := by
  cases h with
  | passedOver h => exact fun hholds => Bool.false_ne_true ((reviewable_of_exec h).2 hholds)
  | ownerUnknown | candidatesUnknown => trivial
  | reviewed h hcandidates =>
    exact ⟨(reviewable_of_exec h).1 rfl, answer_of_exec_ask hcandidates⟩

theorem Accounted.accords {es : List Entry} (h : Accounted setting now w es w') :
    ∀ e ∈ es, e.Accords setting.facts now := by
  induction h with
  | nil => exact fun e he => absurd he List.not_mem_nil
  | cons h _ ih => exact List.forall_mem_cons.2 ⟨h.accords, ih⟩

variable {ε : Type}

theorem exec_learners (setting : Setting) (now : Instant) (hb : b.expiry.Measurable)
    (ls : List LearnerId) (w : World σ) :
    ∃ vs w', (learners b now ls : Run σ ε Report).exec setting w = (.done (.ofReviewed b vs), w') ∧
      Reviewed setting now b w vs w' ∧ vs.map (·.1) = ls := by
  induction ls generalizing w with
  | nil => exact ⟨[], w, rfl, .nil, rfl⟩
  | cons l ls ih =>
    obtain ⟨v, w₁, hv⟩ := exec_learner setting now hb l w
    obtain ⟨vs, w₂, hvs, hreviewed, rfl⟩ := ih w₁
    refine ⟨(l, v) :: vs, w₂, ?_, .cons hv hreviewed, rfl⟩
    rw [Report.ofReviewed_cons, learners, exec_bind_of_done (exec_attempt_of_exec hv),
      exec_bind_of_done hvs, exec_pure]

theorem exec_badge (setting : Setting) (now : Instant) (hb : b.expiry.Measurable) (w : World σ) :
    ∃ e w', (badge b now : Run σ ε Report).exec setting w = (.done (.ofEntries [e]), w') ∧
      Entered setting now w e w' ∧ e.badge = b := by
  have hasked : Triple setting (fun (_ : σ) _ => True) (isReviewable b now) _ _ :=
    triple_isReviewable
  obtain ⟨v, w₁, hv⟩ := hasked.exists_exec (w := w) trivial
  rw [badge, exec_bind_of_done (exec_attempt_of_exec hv)]
  match v with
  | .error e => exact ⟨.unknown b e, w₁, rfl, .ownerUnknown hv, rfl⟩
  | .ok false => exact ⟨.passedOver b, w₁, rfl, .passedOver hv, rfl⟩
  | .ok true =>
    have hlisted : Triple setting (fun (_ : σ) _ => True) (Run.ask (.candidates b)) _ _ :=
      triple_askSource
    obtain ⟨found, w₂, hfound⟩ := hlisted.exists_exec (w := w₁) trivial
    dsimp only
    rw [exec_bind_of_done (exec_attempt_of_exec hfound)]
    cases found with
    | error e => exact ⟨.unknown b e, w₂, rfl, .candidatesUnknown hv hfound, rfl⟩
    | ok ls =>
      obtain ⟨vs, w₃, hvs, hreviewed, rfl⟩ :=
        exec_learners (ε := ε) setting now hb ls w₂
      refine ⟨.reviewed b vs, w₃, ?_, .reviewed hv hfound hreviewed, rfl⟩
      dsimp only
      rw [exec_bind_of_done hvs, exec_pure, Report.ofEntries_reviewed]

/-- A pass over badges has an account, of which its report is the count. -/
theorem exec_badges (setting : Setting) (now : Instant) {bs : List Badge}
    (hbs : ∀ b ∈ bs, b.expiry.Measurable) (w : World σ) :
    ∃ es w', (badges now bs : Run σ ε Report).exec setting w = (.done (.ofEntries es), w') ∧
      Accounted setting now w es w' ∧ es.map Entry.badge = bs := by
  induction bs generalizing w with
  | nil => exact ⟨[], w, rfl, .nil, rfl⟩
  | cons b bs ih =>
    obtain ⟨e, w₁, he, hentered, rfl⟩ :=
      exec_badge (ε := ε) setting now (hbs b List.mem_cons_self) w
    obtain ⟨es, w₂, hes, haccounted, rfl⟩ := ih (fun d hd => hbs d (List.mem_cons_of_mem _ hd)) w₁
    refine ⟨e :: es, w₂, ?_, .cons hentered haccounted, rfl⟩
    rw [badges, exec_bind_of_done he, exec_bind_of_done hes, exec_pure, ← Report.ofEntries_cons]

end Along

/-- The report recounts a pass that lists the badges of a ledger and then goes through them: it
counts the entries of the account `es`, and with them the rows that were added and the notices that
were sent. -/
structure Recounts (setting : Setting) (now : Instant) (listed after : World Ledger)
    (es : List Entry) (r : Report) : Prop where
  happened : Accounted setting now listed es after
  badges : es.map Entry.badge = listed.store.badges.values
  accords : ∀ e ∈ es, e.Accords setting.facts now
  badgesReviewed : r.badgesReviewed = (es.filter Entry.isReviewed).length
  learnersEvaluated : r.learnersEvaluated = (es.flatMap Entry.reviews).length
  awardsAdded : r.awardsIssued = (listed.store.awardsAdded after.store).length
  noticesSent : listed.sent.length + r.awardsIssued = after.sent.length
  failures : r.failures = es.flatMap Entry.failures

theorem exec_call_badges (setting : Setting) (w : World Ledger) :
    (call .badges).exec setting w =
      (match setting.faults.store w.calls .badges with
        | some e => .failed (.store e)
        | none => .done w.store.badges.values,
      { w with calls := .store .badges :: w.calls }) := by
  rw [call, exec_mapError]
  unfold Run.perform exec
  dsimp only
  cases setting.faults.store w.calls .badges <;> rfl

theorem length_notices (es : List Entry) :
    (es.flatMap Entry.notices).length = (es.flatMap Entry.awards).length := by
  simp [List.length_flatMap, Entry.notices]

theorem Accounted.recounts {setting : Setting} {now : Instant} {listed after : World Ledger}
    {es : List Entry} (h : Accounted setting now listed es after)
    (hbadges : es.map Entry.badge = listed.store.badges.values)
    (hrows : (listed.store.awardsAdded after.store).length + listed.sent.length =
      after.sent.length) :
    Recounts setting now listed after es (.ofEntries es) := by
  have hsent : after.sent.length = (es.flatMap Entry.awards).length + listed.sent.length := by
    rw [h.sent, List.length_append, List.length_reverse, length_notices]
  refine ⟨h, hbadges, h.accords, rfl, rfl, ?_, ?_, rfl⟩
  · show (es.flatMap Entry.awards).length = _
    omega
  · show _ + (es.flatMap Entry.awards).length = _
    omega

/-- Whatever was done to a ledger before, if all its periods can be measured, a pass over it fails
only if the call that lists the badges does, and then it has done nothing else. Otherwise it ends
with a report, which recounts what happened, whichever of the later calls failed. -/
theorem pass_reports_what_happened (ops : List Operation)
    (hmeasurable : (Store.run Ledger.empty ops).Measurable) (w : World Ledger) (setting : Setting)
    (now : Instant) :
    let start : World Ledger := { w with store := Store.run Ledger.empty ops }
    let listed : World Ledger := { start with calls := .store .badges :: start.calls }
    match setting.faults.store start.calls .badges with
    | some e => (pass now).exec setting start = (.failed (.store e), listed)
    | none => ∃ es r after, (pass now).exec setting start = (.done r, after) ∧
        Recounts setting now listed after es r := by
  intro start listed
  have hcall := exec_call_badges setting start
  cases hfault : setting.faults.store start.calls .badges with
  | some e =>
    rw [hfault] at hcall
    dsimp only
    rw [pass, exec_bind, hcall]
  | none =>
    rw [hfault] at hcall
    have hbs : ∀ b ∈ start.store.badges.values, b.expiry.Measurable := fun b hb => by
      obtain ⟨id, hid⟩ := Register.mem_values_iff.1 hb
      exact hmeasurable hid
    obtain ⟨es, after, hes, haccounted, hbadges⟩ :=
      exec_badges (ε := ReviewError) setting now hbs listed
    have hpass : (pass now).exec setting start = (.done (.ofEntries es), after) := by
      rw [pass, exec_bind_of_done hcall, hes]
    refine ⟨es, _, after, hpass, haccounted.recounts hbadges ?_⟩
    -- There are as many new rows as notices, since reviews send a notice for each new award.
    have hunder : Under setting.facts now (ListedIn setting.facts now start.store) start.store
        start.sent.length (fun _ => True) ((pass now).exec setting start).2.store
        ((pass now).exec setting start).2.sent :=
      (keeps_pass_under (Ledger.sound_run ops) start.sent).after ⟨rfl, rfl⟩
    rw [hpass] at hunder
    obtain ⟨hadvance, hcount, -⟩ := hunder
    have hadded : (start.store.awardsAdded after.store).length + start.store.awards.size =
        after.store.awards.size := by
      refine Register.length_added_keys fun k hk => ?_
      obtain ⟨a, ha⟩ := Register.contains_eq_true_iff.1 hk
      exact Register.contains_eq_true_iff.2 ⟨a, hadvance.awards_kept ha⟩
    show (start.store.awardsAdded after.store).length + start.sent.length = after.sent.length
    dsimp only at hcount
    omega

/-- The plan by which no status can be changed and no notice is delivered. -/
def locksAndNoticesLost : FaultPlan := { locksLost with notifier := fun _ _ => true }

/-- The award of the first pass is counted although its badge is not locked and nobody is told. -/
theorem pass_reports_unlocked_award :
    let now : Instant := ⟨0, 0, by decide, by decide, by decide, by decide⟩
    let setting : Setting := ⟨connectedLearner.source, locksAndNoticesLost, fun _ => "token"⟩
    let start := World.ofStore (Store.run Ledger.empty networkBadge)
    let listed := { start with calls := .store .badges :: start.calls }
    (Store.run Ledger.empty networkBadge).Measurable ∧
      (((pass now).exec setting start).1 = .done ⟨1, 1, 1, []⟩ ∧
        ((pass now).exec setting start).2.notices = []) ∧
      ∃ es r after, (pass now).exec setting start = (.done r, after) ∧
        Recounts setting now listed after es r := by
  intro now setting start listed
  have hmeasurable : (Store.run Ledger.empty networkBadge).Measurable :=
    Ledger.measurable_of_values (by decide +kernel)
  exact ⟨hmeasurable, by decide +kernel,
    pass_reports_what_happened networkBadge hmeasurable start setting now⟩

end Review

end Badging
