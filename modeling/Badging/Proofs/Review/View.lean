import Badging.Proofs.Review.Decision
import Badging.Proofs.Review.Locking
import Badging.Proofs.Run.Ends

/-!
# What reviews see of a store

Reviews do not look at times, tokens or issuers, and of rows they only ask whether there is one. A
`View` is what is left of a store then: the badges, and which met records, awards and manual awards
there are. `Viewable now Shown Taken` says of a relation `Shown` between views and stores that a
store answers the calls of a review at `now` as its view tells, and that the view of the store that
follows is known. An insert may come to nothing if the token of the award is `Taken`.

A store keeps more than its view, and `Shown` may say something about the rest. So what is proved
once of reviews of a viewable store is a statement about both stores, and about the rows of ledgers.
-/

namespace Badging

@[simp] theorem Badge.lock_afterAward (b : Badge) : b.afterAward.lock = b.lock := by
  unfold afterAward
  split
  · simp [lock]
  · rfl

namespace Review

/-- The badges of a store, and the rows that it has. -/
@[ext] structure View where
  badges : Register BadgeId Badge
  recorded : CriterionId → LearnerId → Bool
  awarded : BadgeId → LearnerId → Bool
  granted : BadgeId → LearnerId → RoleId → Bool

namespace View

/-- Badges are found under their identities, their criteria name them and have identities of their
own. -/
structure Sound (V : View) : Prop where
  id_eq : ∀ {id b}, V.badges.get? id = some b → b.id = id
  badge_eq : ∀ {id b}, V.badges.get? id = some b → ∀ c ∈ b.criteria, c.badge = id
  nodup : ∀ {id b}, V.badges.get? id = some b → (b.criteria.map (·.id)).Nodup
  owner_unique : ∀ {i j b b' c c'}, V.badges.get? i = some b → V.badges.get? j = some b' →
    c ∈ b.criteria → c' ∈ b'.criteria → c.id = c'.id → i = j

def locked (V : View) : Register BadgeId Badge := V.badges.mapValues fun _ b => b.lock

/-- The badge is stored, with whatever lock. -/
def Knows (V : View) (b : Badge) : Prop := V.locked.get? b.id = some b.lock

/-- What is seen of a learner and a badge. -/
def standing (V : View) (id : BadgeId) (l : LearnerId) : Standing :=
  ⟨V.awarded id l, fun c => V.recorded c l⟩

def record (V : View) (l : LearnerId) (ms : List Criterion) : View :=
  { V with recorded := fun id l' =>
      if l' = l then extend (fun id => V.recorded id l) ms id else V.recorded id l' }

def award (V : View) (id : BadgeId) (l : LearnerId) : View :=
  { V with awarded := fun id' l' => V.awarded id' l' || decide (id' = id ∧ l' = l) }

def lockBadge (V : View) (id : BadgeId) : View :=
  { V with badges := V.badges.modify id Badge.afterAward }

/-- The view after the review of a learner that came to a resolution. -/
def after (V : View) (id : BadgeId) (l : LearnerId) (r : Resolution) : View :=
  let W := V.record l r.marks
  if r.decision.isGranted then (W.award id l).lockBadge id else W

/-- What reviews leave as it is: the manual awards, and the badges except for their locks. -/
structure Leads (V V' : View) : Prop where
  granted : V'.granted = V.granted
  locked : V'.locked = V.locked

variable {V V' V'' : View} {b b' : Badge} {l : LearnerId} {id : BadgeId} {r : Resolution}

theorem Leads.refl : V.Leads V := ⟨rfl, rfl⟩

theorem Leads.trans (h : V.Leads V') (h' : V'.Leads V'') : V.Leads V'' :=
  ⟨h'.granted.trans h.granted, h'.locked.trans h.locked⟩

theorem Leads.knows (h : V.Leads V') (hb : V.Knows b) : V'.Knows b := by
  rw [Knows, h.locked]
  exact hb

theorem knows_iff : V.Knows b ↔ ∃ d, V.badges.get? b.id = some d ∧ d.lock = b.lock := by
  rw [Knows, locked, Register.get?_mapValues, Option.map_eq_some_iff]

theorem Sound.knows (hV : V.Sound) (hb : V.badges.get? id = some b) : V.Knows b :=
  knows_iff.2 ⟨b, by rwa [hV.id_eq hb], rfl⟩

/-- Badges that are known by one identity differ in their locks at most. -/
theorem Knows.lock_eq (hb : V.Knows b) (hb' : V.Knows b') (hid : b'.id = b.id) :
    b'.lock = b.lock := by
  rw [Knows, hid, hb, Option.some.injEq] at hb'
  exact hb'.symm

section Known

variable (hV : V.Sound) (hb : V.Knows b)

include hV hb

theorem Sound.nodup_of_knows : (b.criteria.map (·.id)).Nodup := by
  obtain ⟨d, hd, hlock⟩ := knows_iff.1 hb
  rw [← criteria_of_lock hlock]
  exact hV.nodup hd

theorem Sound.badge_eq_of_knows {c : Criterion} (hc : c ∈ b.criteria) : c.badge = b.id := by
  obtain ⟨d, hd, hlock⟩ := knows_iff.1 hb
  exact hV.badge_eq hd c (criteria_of_lock hlock ▸ hc)

theorem Sound.id_eq_of_knows (hb' : V.Knows b') {c c' : Criterion} (hc : c ∈ b.criteria)
    (hc' : c' ∈ b'.criteria) (hid : c.id = c'.id) : b.id = b'.id := by
  obtain ⟨d, hd, hlock⟩ := knows_iff.1 hb
  obtain ⟨d', hd', hlock'⟩ := knows_iff.1 hb'
  exact hV.owner_unique hd hd' (criteria_of_lock hlock ▸ hc) (criteria_of_lock hlock' ▸ hc') hid

end Known

theorem leads_record (ms : List Criterion) : V.Leads (V.record l ms) := ⟨rfl, rfl⟩

theorem leads_award : V.Leads (V.award id l) := ⟨rfl, rfl⟩

theorem leads_lockBadge : V.Leads (V.lockBadge id) := by
  refine ⟨rfl, Register.ext_get? fun k => ?_⟩
  simp only [View.locked, lockBadge, Register.modify, Register.get?_mapValues, Option.map_map]
  congr 1
  funext d
  dsimp only [Function.comp]
  split
  · rw [Badge.lock_afterAward]
  · rfl

/-- A badge that is not active is left as it is when it is awarded. -/
theorem lockBadge_of_ne {d : Badge} (hd : V.badges.get? id = some d)
    (hstatus : d.status ≠ .active) : V.lockBadge id = V := by
  have hbadges : V.badges.modify id Badge.afterAward = V.badges := by
    refine Register.ext_get? fun k => ?_
    rw [Register.modify, Register.get?_mapValues]
    by_cases hk : k = id
    · rw [hk, hd]
      simp [Badge.afterAward, hstatus]
    · simp [Ne.symm hk]
  rw [lockBadge, hbadges]

theorem leads_after : V.Leads (V.after id l r) := by
  unfold after
  split
  · exact ((leads_record r.marks).trans leads_award).trans leads_lockBadge
  · exact leads_record r.marks

@[simp] theorem record_nil : V.record l [] = V := by
  obtain ⟨badges, recorded, awarded, granted⟩ := V
  simp only [record, extend_nil, mk.injEq, true_and, and_true]
  funext id l'
  split
  · next h => rw [h]
  · rfl

theorem record_of_recorded {c : Criterion} (h : V.recorded c.id l = true) : V.record l [c] = V := by
  obtain ⟨badges, recorded, awarded, granted⟩ := V
  simp only [record, mk.injEq, true_and, and_true]
  funext id l'
  split
  · next hl =>
    subst hl
    by_cases hid : id = c.id
    · rw [hid, extend_of_recorded h]
      exact h.symm
    · exact extend_of_not_mem fun d hd => by
        rw [List.mem_singleton.1 hd]
        exact Ne.symm hid
  · rfl

theorem record_append (ms ms' : List Criterion) :
    V.record l (ms ++ ms') = (V.record l ms).record l ms' := by
  simp only [record, mk.injEq, true_and, and_true]
  funext id l'
  split
  · simp only [if_true]
    rw [extend_append]
  · rfl

theorem recorded_record (ms : List Criterion) :
    (fun id => (V.record l ms).recorded id l) = extend (fun id => V.recorded id l) ms := by
  funext id
  exact if_pos rfl

theorem standing_after : (V.after id l r).standing id l = (V.standing id l).after r := by
  unfold after Standing.after
  cases h : r.decision.isGranted with
  | true => simp [standing, record, award, lockBadge]
  | false => simp [standing, record]

theorem after_of_atRest (hr : r.AtRest) : V.after id l r = V := by
  simp [after, hr.marks, hr.decision]

theorem standing_after_of_ne (hV : V.Sound) (hb : V.Knows b) (hb' : V.Knows b') {l' : LearnerId}
    (hne : b'.id = b.id → l' ≠ l) (answer : Criterion → Except ReviewError Bool) (st : Standing) :
    ((V.after b.id l (resolve answer b st)).standing b'.id l').awarded = V.awarded b'.id l' ∧
      ∀ c ∈ b'.criteria, ((V.after b.id l (resolve answer b st)).standing b'.id l').recorded c.id =
        V.recorded c.id l' := by
  generalize hr : resolve answer b st = r
  have hmarks : ∀ c ∈ r.marks, c ∈ b.criteria := fun c hc => mem_of_mem_marks (hr ▸ hc)
  have hrecorded : ∀ c ∈ b'.criteria, (V.record l r.marks).recorded c.id l' =
      V.recorded c.id l' := fun c hc => by
    dsimp only [record]
    split
    · next hl =>
      subst hl
      refine extend_of_not_mem fun m hm heq => ?_
      exact hne (hV.id_eq_of_knows hb' hb hc (hmarks m hm) heq.symm) rfl
    · rfl
  have hawarded : (V.award b.id l).awarded b'.id l' = V.awarded b'.id l' := by
    have hnot : ¬ (b'.id = b.id ∧ l' = l) := fun h => hne h.1 h.2
    simp [award, hnot]
  unfold after
  split
  · exact ⟨hawarded, hrecorded⟩
  · exact ⟨rfl, hrecorded⟩

/-- What is sound stays sound under reviews. -/
theorem Sound.leads (hV : V.Sound) (h : V.Leads V') : V'.Sound := by
  have hstored : ∀ {id b'}, V'.badges.get? id = some b' →
      ∃ b, V.badges.get? id = some b ∧ b.lock = b'.lock := fun {id b'} hb' => by
    have hlocked := congrArg (fun B => Register.get? B id) h.locked
    simp only [locked, Register.get?_mapValues, hb', Option.map_some] at hlocked
    exact Option.map_eq_some_iff.1 hlocked.symm
  refine ⟨fun hb' => ?_, fun hb' c hc => ?_, fun hb' => ?_, fun hb' hd' hc hd hid => ?_⟩
  · obtain ⟨b, hb, hlock⟩ := hstored hb'
    rw [← id_of_lock hlock, hV.id_eq hb]
  · obtain ⟨b, hb, hlock⟩ := hstored hb'
    exact hV.badge_eq hb c (criteria_of_lock hlock ▸ hc)
  · obtain ⟨b, hb, hlock⟩ := hstored hb'
    rw [← criteria_of_lock hlock]
    exact hV.nodup hb
  · obtain ⟨b, hb, hlock⟩ := hstored hb'
    obtain ⟨d, hd₀, hlock'⟩ := hstored hd'
    exact hV.owner_unique hb hd₀ (criteria_of_lock hlock ▸ hc) (criteria_of_lock hlock' ▸ hd) hid

theorem Sound.of_badges {s : Ledger} (hs : s.BadgesSound) (form : Badge → Badge)
    (hform : ∀ b, (form b).id = b.id)
    (hcriteria : ∀ b, ∃ f : Criterion → Criterion, (form b).criteria = b.criteria.map f ∧
      ∀ c, (f c).id = c.id ∧ (f c).badge = c.badge)
    (hV : V.badges = s.badges.mapValues fun _ b => form b) : V.Sound := by
  have hstored : ∀ {id b'}, V.badges.get? id = some b' →
      ∃ b, s.badges.get? id = some b ∧ form b = b' := fun hb' => by
    rw [hV, Register.get?_mapValues] at hb'
    exact Option.map_eq_some_iff.1 hb'
  have hmem : ∀ {b c'}, c' ∈ (form b).criteria →
      ∃ c ∈ b.criteria, c.id = c'.id ∧ c.badge = c'.badge := fun {b c'} hc' => by
    obtain ⟨f, hf, hsame⟩ := hcriteria b
    rw [hf] at hc'
    obtain ⟨c, hc, rfl⟩ := List.mem_map.1 hc'
    exact ⟨c, hc, (hsame c).1.symm, (hsame c).2.symm⟩
  refine ⟨fun hb' => ?_, fun hb' c' hc' => ?_, fun hb' => ?_, fun hb' hd' hc' he' hid => ?_⟩
  · obtain ⟨b, hb, rfl⟩ := hstored hb'
    rw [hform, (hs.badge hb).id_eq]
  · obtain ⟨b, hb, rfl⟩ := hstored hb'
    obtain ⟨c, hc, -, hbadge⟩ := hmem hc'
    rw [← hbadge, (hs.badge hb).badge_eq c hc]
  · obtain ⟨b, hb, rfl⟩ := hstored hb'
    obtain ⟨f, hf, hsame⟩ := hcriteria b
    have hids : (form b).criteria.map (·.id) = b.criteria.map (·.id) := by
      rw [hf, List.map_map]
      exact List.map_congr_left fun c _ => (hsame c).1
    rw [hids]
    exact List.pairwise_map.2 ((hs.badge hb).ascending.imp fun hlt heq =>
      Int.ne_of_lt hlt (congrArg Ident.val heq))
  · obtain ⟨b, hb, rfl⟩ := hstored hb'
    obtain ⟨d, hd, rfl⟩ := hstored hd'
    obtain ⟨c, hc, hcid, -⟩ := hmem hc'
    obtain ⟨e, he, heid, -⟩ := hmem he'
    exact hs.owner_unique hb hd hc he (hcid.trans (hid.trans heid.symm))

end View

variable {σ : Type} [Store σ]

/-- A store answers the calls of a review as its view tells, and the view that follows is known. -/
structure Viewable (now : Instant) (Shown : View → σ → Prop) (Taken : σ → String → Prop) :
    Prop where
  sound : ∀ {V s}, Shown V s → V.Sound
  badge : ∀ {V s} (id : BadgeId), Shown V s →
    Store.perform (.badge id) s = .ok (V.badges.get? id, s)
  badges : ∀ {V s}, Shown V s → Store.perform .badges s = .ok (V.badges.values, s)
  criterionMet : ∀ {V s} (c : CriterionId) (l : LearnerId), Shown V s → ∃ r : Option MetRecord,
    Store.perform (.criterionMet c l) s = .ok (r, s) ∧ r.isSome = V.recorded c l
  manualExists : ∀ {V s} (b : BadgeId) (l : LearnerId) (r : RoleId), Shown V s →
    Store.perform (.manualExists b l r) s = .ok (V.granted b l r, s)
  award : ∀ {V s} (b : BadgeId) (l : LearnerId), Shown V s → ∃ a : Option Award,
    Store.perform (.award b l) s = .ok (a, s) ∧ a.isSome = V.awarded b l
  markMet : ∀ {V s b c} (l : LearnerId), Shown V s → V.Knows b → c ∈ b.criteria →
    ∃ added s', Store.perform (.markMet (c.met l now)) s = .ok (added, s') ∧
      Shown (V.record l [c]) s' ∧ ∀ token, Taken s' token → Taken s token
  lock : ∀ {V s id b}, Shown V s → V.badges.get? id = some b → b.status = .active →
    ∃ s', Store.perform (.setStatus id b.lock.status) s = .ok ((), s') ∧
      Shown (V.lockBadge id) s' ∧ ∀ token, Taken s' token → Taken s token
  insertAward : ∀ {V s b l a token}, Shown V s → V.Knows b → V.awarded b.id l = false →
    Award.issue b l now token = .ok a →
      (∃ s', Store.perform (.insertAward a) s = .ok (true, s') ∧ Shown (V.award b.id l) s' ∧
        ∀ token', Taken s' token' → Taken s token' ∨ token' = token) ∨
      Taken s token ∧ Store.perform (.insertAward a) s = .ok (false, s)

/-- More can be known of a store than its view shows, if what a review writes preserves it. -/
theorem Viewable.and {now : Instant} {Shown : View → σ → Prop} {Taken : σ → String → Prop}
    (K : Viewable now Shown Taken) {I : σ → Prop}
    (hmark : ∀ {V s s' b c l added}, Shown V s → I s → V.Knows b → c ∈ b.criteria →
      Store.perform (.markMet (c.met l now)) s = .ok (added, s') → I s')
    (hstatus : ∀ {s s' id status}, I s →
      Store.perform (.setStatus id status) s = .ok ((), s') → I s')
    (hinsert : ∀ {s s' a}, I s → Store.perform (.insertAward a) s = .ok (true, s') → I s') :
    Viewable now (fun V s => Shown V s ∧ I s) Taken where
  sound h := K.sound h.1
  badge id h := K.badge id h.1
  badges h := K.badges h.1
  criterionMet c l h := K.criterionMet c l h.1
  manualExists b l r h := K.manualExists b l r h.1
  award b l h := K.award b l h.1
  markMet l h hb hc := by
    obtain ⟨added, s', hop, hshown, htaken⟩ := K.markMet l h.1 hb hc
    exact ⟨added, s', hop, ⟨hshown, hmark h.1 h.2 hb hc hop⟩, htaken⟩
  lock h hb hactive := by
    obtain ⟨s', hop, hshown, htaken⟩ := K.lock h.1 hb hactive
    exact ⟨s', hop, ⟨hshown, hstatus h.2 hop⟩, htaken⟩
  insertAward h hb hnone ha := by
    refine (K.insertAward h.1 hb hnone ha).imp_left ?_
    rintro ⟨s', hop, hshown, htaken⟩
    exact ⟨s', hop, ⟨hshown, hinsert h.2 hop⟩, htaken⟩

end Review

end Badging
