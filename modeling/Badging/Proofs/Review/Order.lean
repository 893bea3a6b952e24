import Badging.Proofs.Review.Carrying
import Badging.Proofs.Review.View.Ledger

/-!
# The order of reviews

Reviews of different learners, or for different badges, do not see each other. So each comes to what
it would come to as the first one, and what they write is written to different places, or is a lock
that two of them put on the same badge. The view after all of them does not depend on their order,
nor does the ledger, if the tokens are left out.
-/

namespace Badging

theorem Register.modify_comm {κ α : Type} [Ord κ] [Std.LawfulEqOrd κ] [Std.TransOrd κ]
    (r : Register κ α) (i j : κ) (f : α → α) :
    (r.modify i f).modify j f = (r.modify j f).modify i f := by
  refine ext_get? fun k => ?_
  simp only [modify, get?_mapValues, Option.map_map]
  congr 1
  funext a
  dsimp only [Function.comp]
  split <;> split <;> rfl

namespace Review

open Run

namespace View

variable {V : View} {answers : LearnerId → Criterion → Except ReviewError Bool}
  {ps qs : List (Badge × LearnerId)}

/-- What is written by two reviews may be written in any order. -/
theorem after_comm {id id' : BadgeId} {l l' : LearnerId} {r r' : Resolution} :
    (V.after id l r).after id' l' r' = (V.after id' l' r').after id l r := by
  refine View.ext ?_ (funext₂ fun c m => ?_) (funext₂ fun b m => ?_) ?_
  · simp only [badges_after]
    cases r.decision.isGranted <;> cases r'.decision.isGranted <;> try rfl
    exact Register.modify_comm ..
  · simp only [recorded_after]
    exact Bool.or_right_comm ..
  · simp only [awarded_after]
    exact Bool.or_right_comm ..
  · simp only [granted_after]

section Apart

variable (hdistinct : (ps.map fun p => (p.1.id, p.2)).Nodup)

include hdistinct

/-- Reviews that are apart come to what each of them would come to as the first. -/
theorem carried_of_resolutions {res : Badge × LearnerId → Resolution} (hV : V.Sound)
    (hps : ∀ p ∈ ps, V.Knows p.1) (hres : ∀ p ∈ ps, V.resolution answers p = res p) :
    V.decisions answers ps = ps.map (fun p => (res p).decision) ∧
      V.carry answers ps = ps.foldl (fun W p => W.after p.1.id p.2 (res p)) V := by
  induction ps generalizing V with
  | nil => exact ⟨rfl, rfl⟩
  | cons p ps ih =>
    obtain ⟨hp, hrest⟩ := List.nodup_cons.1 hdistinct
    have hknown := hps p List.mem_cons_self
    have hreview : V.review answers p = V.after p.1.id p.2 (res p) := by
      rw [review, hres p List.mem_cons_self]
    have hleads : V.Leads (V.after p.1.id p.2 (res p)) := leads_after
    obtain ⟨hdecisions, hcarry⟩ := ih hrest (hV.leads hleads)
      (fun p' hp' => hleads.knows (hps p' (List.mem_cons_of_mem p hp'))) fun p' hp' => by
        rw [← hreview, resolution_review_of_ne hV hknown (hps p' (List.mem_cons_of_mem p hp')),
          hres p' (List.mem_cons_of_mem p hp')]
        exact fun hid hl => hp (List.mem_map.2 ⟨p', hp', by rw [hid, hl]⟩)
    refine ⟨?_, ?_⟩
    · rw [decisions, hreview, hdecisions, hres p List.mem_cons_self, List.map_cons]
    · rw [carry_cons, hreview, hcarry, List.foldl_cons]

theorem outcomes_eq_map {now : Instant} (hV : V.Sound) (hps : ∀ p ∈ ps, V.Knows p.1) :
    V.outcomes answers now ps =
      ps.map fun p => (V.resolution answers p).decision.outcome (awardOf now p) := by
  rw [outcomes, (carried_of_resolutions hdistinct hV hps fun _ _ => rfl).1, List.zipWith_map_right,
    List.zipWith_self]

theorem carry_perm (hV : V.Sound) (hps : ∀ p ∈ ps, V.Knows p.1) (hperm : qs.Perm ps) :
    V.carry answers qs = V.carry answers ps := by
  have hdistinct' : (qs.map fun p => (p.1.id, p.2)).Nodup := (hperm.map _).nodup_iff.2 hdistinct
  have hqs : ∀ p ∈ qs, V.Knows p.1 := fun p hp => hps p (hperm.mem_iff.1 hp)
  rw [(carried_of_resolutions hdistinct hV hps fun _ _ => rfl).2,
    (carried_of_resolutions hdistinct' hV hqs fun _ _ => rfl).2]
  exact hperm.foldl_eq' (fun p _ p' _ W => after_comm) V

end Apart

end View

theorem nodup_keys_of_stored {V : View} (hV : V.Sound) {ps : List (Badge × LearnerId)}
    (hdistinct : ps.Nodup) (hstored : ∀ p ∈ ps, p.1 ∈ V.badges.values) :
    (ps.map fun p => (p.1.id, p.2)).Nodup := by
  refine hdistinct.map_on fun p hp p' hp' heq => ?_
  obtain ⟨hid, hl⟩ := Prod.mk.inj heq
  obtain ⟨i, hi⟩ := Register.mem_values_iff.1 (hstored p hp)
  obtain ⟨j, hj⟩ := Register.mem_values_iff.1 (hstored p' hp')
  have hij : i = j := by rw [← hV.id_eq hi, ← hV.id_eq hj, hid]
  rw [← hij, hi, Option.some.injEq] at hj
  exact Prod.ext hj hl

theorem exec_reviewEach_of_sound {s : Ledger} {now : Instant} (setting : Setting)
    (honly : setting.faults.OnlyNotices) (hsound : s.Sound) {ps : List (Badge × LearnerId)}
    (hknown : ∀ p ∈ ps, s.view.Knows p.1) (hmeasurable : ∀ p ∈ ps, p.1.expiry.Measurable)
    (hdistinct : (ps.map fun p => (p.1.id, p.2)).Nodup)
    {answers : LearnerId → Criterion → Except ReviewError Bool}
    (hanswers : ∀ l, Answers Ledger setting s.view.granted l (answers l)) :
    let run := (reviewEach now ps : Run Ledger ReviewError _).exec setting (World.ofStore s)
    ∃ vs, run.1 = .done vs ∧ vs.map (·.map Outcome.withoutToken) =
        ps.map (fun p => (s.view.resolution answers p).decision.outcome (awardOf now p)) ∧
      Ledger.ShownBy now s (s.view.carry answers ps) run.2.store := by
  have hshown : Ledger.ShownBy now s s.view s := Ledger.shownBy_view hsound.toBadgesSound
  have hcarries : Carries (Ledger.ShownBy now s) (fun _ _ => False) setting answers s.view
      (World.ofStore s).scene (reviewEach now ps : Run Ledger ReviewError _) ps _ :=
    carries_reviewEach (Ledger.viewable now s) honly hshown
      (fun p hp => ⟨hknown p hp, hmeasurable p hp⟩) hanswers
  obtain ⟨vs, hdone, hvs, hleft⟩ := hcarries.exec (fresh_of_never fun _ _ => id)
  exact ⟨vs, hdone, hvs.trans (View.outcomes_eq_map hdistinct hshown.sound hknown), hleft⟩

/-- Different reviews of stored badges may be made in any order: each pair gets the same outcome,
and the ledger is the same afterwards, tokens aside. -/
theorem reviews_in_any_order (ops : List Operation) (facts : FactSource) (now : Instant)
    (faults faults' : FaultPlan) (tokens tokens' : Nat → String)
    (honly : faults.OnlyNotices) (honly' : faults'.OnlyNotices)
    {ps qs : List (Badge × LearnerId)} (hperm : qs.Perm ps) (hdistinct : ps.Nodup)
    (hstored : ∀ p ∈ ps, p.1 ∈ (Store.run Ledger.empty ops).badges.values)
    (hmeasurable : ∀ p ∈ ps, p.1.expiry.Measurable) :
    let start := World.ofStore (Store.run Ledger.empty ops)
    let there := (reviewEach now ps : Run Ledger ReviewError _).exec ⟨facts, faults, tokens⟩ start
    let back := (reviewEach now qs : Run Ledger ReviewError _).exec ⟨facts, faults', tokens'⟩ start
    ∃ (outcome : Badge × LearnerId → Except ReviewError Outcome)
      (vs ws : List (Except ReviewError Outcome)),
      (there.1 = .done vs ∧ vs.map (·.map Outcome.withoutToken) = ps.map outcome) ∧
      (back.1 = .done ws ∧ ws.map (·.map Outcome.withoutToken) = qs.map outcome) ∧
      back.2.store.withoutTokens = there.2.store.withoutTokens := by
  intro start there back
  have hsound : start.store.Sound := Ledger.sound_run ops
  have hV : start.store.view.Sound := Ledger.sound_view hsound.toBadgesSound
  choose answers hanswers using exists_answers Ledger facts start.store.view.granted
  have hknown : ∀ p ∈ ps, start.store.view.Knows p.1 := fun p hp => by
    obtain ⟨id, hid⟩ := Register.mem_values_iff.1 (hstored p hp)
    exact hV.knows hid
  have hkeys : (ps.map fun p => (p.1.id, p.2)).Nodup := nodup_keys_of_stored hV hdistinct hstored
  obtain ⟨vs, hthere, hvs, hleft⟩ := exec_reviewEach_of_sound ⟨facts, faults, tokens⟩ honly hsound
    hknown hmeasurable hkeys fun l => hanswers l _ honly fun _ _ => rfl
  obtain ⟨ws, hback, hws, hleft'⟩ := exec_reviewEach_of_sound ⟨facts, faults', tokens'⟩ honly'
    hsound (fun p hp => hknown p (hperm.mem_iff.1 hp))
    (fun p hp => hmeasurable p (hperm.mem_iff.1 hp)) ((hperm.map _).nodup_iff.2 hkeys)
    fun l => hanswers l _ honly' fun _ _ => rfl
  rw [View.carry_perm hkeys hV hknown hperm] at hleft'
  refine ⟨_, vs, ws, ⟨hthere, hvs⟩, ⟨hback, hws⟩, ?_⟩
  exact Ledger.Follows.withoutTokens_eq hsound.toBadgesSound hleft.follows hleft'.follows
    (hleft'.view_eq.symm.trans hleft.view_eq)

/-- One of two learners gets the badge, whichever is reviewed first. -/
theorem reviews_in_any_order_two_learners :
    let now : Instant := ⟨0, 0, by decide, by decide, by decide, by decide⟩
    let ps : List (Badge × LearnerId) := [(networker .active, ⟨7⟩), (networker .active, ⟨8⟩)]
    let setting : Setting := ⟨connectedLearner.source, .empty, fun _ => "token"⟩
    let start := World.ofStore (Store.run Ledger.empty networkBadge)
    let there := (reviewEach now ps : Run Ledger ReviewError _).exec setting start
    let back := (reviewEach now ps.reverse : Run Ledger ReviewError _).exec setting start
    (setting.faults.OnlyNotices ∧ ps.reverse.Perm ps ∧ ps.Nodup ∧
        (∀ p ∈ ps, p.1 ∈ start.store.badges.values) ∧ ∀ p ∈ ps, p.1.expiry.Measurable) ∧
      there.1 = .done [.ok (.awarded (networkAward now)), .ok (.pending 0 1)] ∧
      ∃ (outcome : Badge × LearnerId → Except ReviewError Outcome)
        (vs ws : List (Except ReviewError Outcome)),
        (there.1 = .done vs ∧ vs.map (·.map Outcome.withoutToken) = ps.map outcome) ∧
        (back.1 = .done ws ∧ ws.map (·.map Outcome.withoutToken) = ps.reverse.map outcome) ∧
        back.2.store.withoutTokens = there.2.store.withoutTokens := by
  have hstored : ∀ p ∈ ([(networker .active, ⟨7⟩), (networker .active, ⟨8⟩)] :
      List (Badge × LearnerId)), p.1 ∈ (Store.run Ledger.empty networkBadge).badges.values := by
    decide +kernel
  refine ⟨⟨FaultPlan.onlyNotices_empty, List.reverse_perm _, by decide +kernel, hstored,
    by decide +kernel⟩, by decide +kernel, ?_⟩
  exact reviews_in_any_order networkBadge connectedLearner.source _ .empty .empty
    (fun _ => "token") (fun _ => "token") FaultPlan.onlyNotices_empty FaultPlan.onlyNotices_empty
    (List.reverse_perm _) (by decide +kernel) hstored (by decide +kernel)

end Review

end Badging
