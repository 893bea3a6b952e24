import Badging.Definition
import Badging.Proofs.Review.Course
import Badging.Proofs.Review.Selection
import Badging.Proofs.Store.Faithful

/-!
# The life of a badge

A badge begins as a draft, its status changes by transitions, and while it is editable criteria are
added. A `LifeLaw` is a statement about the place of one badge in a store, taken or not, that holds
through all of this. What removals do to it is not part of the law, since it depends on what is
removed: `Allows` says which operations a law can do with.

Statuses are written by three programs, and each of them has read the badge before: the creation of
a badge activates a copy that it has built itself, the lock after an award locks what it has just
read, and so does whoever changes a badge by a transition. So a status that is written is that of a
transition of the badge that is stored, and a law is kept by every program, whichever calls fail.
-/

namespace Badging

/-- Of one badge, a statement that holds through its life whether the badge is there or not. -/
structure LifeLaw (id : BadgeId) (Q : Option Badge → Prop) : Prop where
  new : ∀ new, Q none → Q (some (.ofNew id new))
  transition : ∀ {b b' t}, Q (some b) → b.apply t = .ok b' → Q (some b')
  criterion : ∀ {b cid r c}, Q (some b) → b.prepare cid r = .ok c →
    Q (some { b with criteria := b.criteria ++ [c] })

/-- The operation writes no status but that of a transition of the badge that is there, and what it
removes the statement can do without. -/
structure Operation.Allows (op : Operation) (id : BadgeId) (Q : Option Badge → Prop)
    (place : Option Badge) : Prop where
  setStatus : ∀ {status b}, op = .setStatus id status → place = some b →
    ∃ t, b.apply t = .ok { b with status := status }
  deleteBadge : op = .deleteBadge id → Q none
  deleteCriterion : ∀ {c b}, op = .deleteCriterion c → place = some b → b.isEditable = true →
    b.Owns c → Q (some b) → Q (some (b.without c))

namespace Operation.Allows

variable {op : Operation} {id : BadgeId} {Q : Option Badge → Prop} {place : Option Badge}

theorem of_ne (hstatus : ∀ id status, op ≠ .setStatus id status)
    (hbadge : ∀ id, op ≠ .deleteBadge id) (hcriterion : ∀ c, op ≠ .deleteCriterion c) :
    op.Allows id Q place where
  setStatus h := absurd h (hstatus _ _)
  deleteBadge h := absurd h (hbadge _)
  deleteCriterion h := absurd h (hcriterion _)

theorem of_not_editsBadges (h : op.editsBadges = false) : op.Allows id Q place := by
  refine of_ne ?_ ?_ ?_ <;> rintro _ <;> intros <;> rintro rfl <;> cases h

theorem deleteBadge_of {j : BadgeId} (h : j = id → Q none) :
    (Operation.deleteBadge j).Allows id Q place where
  setStatus h := by cases h
  deleteBadge heq := h (Operation.deleteBadge.inj heq)
  deleteCriterion h := by cases h

theorem setStatus_of_apply {j : BadgeId} {b b' : Badge} {t : Badge.Transition}
    {status : Status} (hb : j = id → place = some b) (ht : b.apply t = .ok b')
    (hb' : b' = { b with status := status }) :
    (Operation.setStatus j status).Allows id Q place where
  setStatus := by
    rintro status' d heq hd
    cases heq
    rw [hb rfl, Option.some.injEq] at hd
    exact ⟨t, by rw [← hd, ht, hb']⟩
  deleteBadge h := by cases h
  deleteCriterion h := by cases h

end Operation.Allows

theorem Badge.eq_of_apply {b b' : Badge} {t : Transition} (h : b.apply t = .ok b') :
    b' = { b with status := b'.status } := by
  cases t with
  | activate =>
    obtain ⟨-, -, -, rfl⟩ := activate_eq_ok_iff.1 h
    rfl
  | deactivate | lock | archive =>
    cases h
    rfl

theorem LifeLaw.effect {id : BadgeId} {Q : Option Badge → Prop} (L : LifeLaw id Q) {s s' : Ledger}
    (hs : s.Sound) (hQ : Q (s.badges.get? id)) {op : Operation} {a : op.Answer}
    (hop : op.Allows id Q (s.badges.get? id)) (h : Ledger.Effect s op a s') :
    Q (s'.badges.get? id) := by
  -- A badge that is written elsewhere leaves this place alone.
  have hput : ∀ {j : BadgeId} {b' : Badge}, (j = id → Q (some b')) →
      Q ((s.badges.insert j b').get? id) := fun {j b'} hb' => by
    by_cases hj : id = j
    · subst hj
      rw [Register.get?_insert_self]
      exact hb' rfl
    · rwa [Register.get?_insert_of_ne _ hj]
  cases h with
  | idle | markMet | recordManual | insertAward => exact hQ
  | insertBadge new =>
    refine hput ?_
    rintro rfl
    rw [hs.get?_next] at hQ
    exact L.new new hQ
  | setStatus hb =>
    refine hput ?_
    rintro rfl
    obtain ⟨t, ht⟩ := hop.setStatus rfl hb
    rw [hb] at hQ
    exact L.transition hQ ht
  | @deleteBadge j _ hb =>
    dsimp only
    rw [Register.get?_erase]
    split
    · next hj =>
      obtain rfl : j = id := Std.LawfulEqCmp.eq_of_compare hj
      exact hop.deleteBadge rfl
    · exact hQ
  | addCriterion hb hc =>
    refine hput ?_
    rintro rfl
    rw [hb] at hQ
    exact L.criterion hQ hc
  | deleteCriterion howner heditable =>
    obtain ⟨hb, hc⟩ := Ledger.get?_of_ownerOf? howner
    refine hput ?_
    rintro rfl
    rw [hb] at hQ
    exact hop.deleteCriterion rfl hb heditable hc hQ

/-- The statement holds of the place of a badge in a store. -/
def Stands {σ : Type} (R : Ledger → σ → Prop) (id : BadgeId) (Q : Option Badge → Prop) :
    Run.Assertion σ :=
  fun t _ => ∃ s, R s t ∧ Q (s.badges.get? id)

namespace LifeLaw

open Run Review

variable {σ : Type} [Store σ] {R : Ledger → σ → Prop} {form : Badge → Badge} {id : BadgeId}
  {Q : Option Badge → Prop} {setting : Setting} (C : FaithfulCatalog R form) (L : LifeLaw id Q)

include C L

theorem step {s : Ledger} {t t' : σ} {op : Operation} {a : op.Answer} (hs : R s t)
    (hQ : Q (s.badges.get? id)) (hop : op.Allows id Q (s.badges.get? id))
    (h : Store.perform op t = .ok (a, t')) : ∃ s', R s' t' ∧ Q (s'.badges.get? id) := by
  rcases C.step hs h with ⟨hs', -⟩ | ⟨s', hledger, hs'⟩
  · exact ⟨s, hs', hQ⟩
  · exact ⟨s', hs', L.effect (C.sound hs) hQ hop (Ledger.effect_of_perform hledger)⟩

theorem upholds_perform {op : Operation} (hop : ∀ place, op.Allows id Q place) :
    Upholds setting (Stands R id Q) (Run.perform op) := by
  apply Upholds.perform
  rintro a t t' n ⟨s, hs, hQ⟩ h
  exact L.step C hs hQ (hop _) h

omit L in
theorem triple_read (j : BadgeId) :
    Triple setting (Stands R id Q) (Run.perform (.badge j))
      (fun found t _ => ∃ s, R s t ∧ Q (s.badges.get? id) ∧ found = (s.badges.get? j).map form)
      (Unbroken (Stands R id Q)) := by
  refine Triple.perform (fun _ _ _ h _ => h) ?_
  rintro h found t t' n ⟨s, hs, hQ⟩ hop
  rw [C.badge j hs] at hop
  cases hop
  exact ⟨s, hs, hQ, rfl⟩

theorem upholds_setStatus {j : BadgeId} {b b' : Badge} {t : Badge.Transition} {status : Status}
    (ht : b.apply t = .ok b') (hb' : b' = { b with status := status }) :
    Triple setting (fun u _ => ∃ s, R s u ∧ Q (s.badges.get? id) ∧ s.badges.get? j = some b)
      (Run.perform (.setStatus j status)) (fun _ => Stands R id Q) (Unbroken (Stands R id Q)) := by
  refine Triple.perform ?_ ?_
  · rintro e u n ⟨s, hs, hQ, -⟩ -
    exact ⟨s, hs, hQ⟩
  · rintro h a u u' n ⟨s, hs, hQ, hb⟩ hop
    exact L.step C hs hQ (.setStatus_of_apply (fun hj => hj ▸ hb) ht hb') hop

theorem upholds_lock (j : BadgeId) : Upholds setting (Stands R id Q) (lockAwarded j) := by
  refine Triple.bind (triple_read C j) fun found => ?_
  cases found with
  | none =>
    refine Triple.pure ?_
    rintro t n ⟨s, hs, hQ, -⟩
    exact ⟨s, hs, hQ⟩
  | some stored =>
    dsimp only
    refine Triple.intro fun t n h => ?_
    obtain ⟨s, hs, hQ, hstored⟩ := h
    obtain ⟨b, hb, rfl⟩ := Option.map_eq_some_iff.1 hstored.symm
    rw [C.status_form]
    split
    · have hlock : (form b).lock.status = b.lock.status := by rw [← C.form_lock, C.status_form]
      rw [hlock]
      exact (L.upholds_setStatus C (t := .lock) (b := b) rfl rfl).starting ⟨s, hs, hQ, hb⟩
    · refine Triple.pure ?_
      rintro t' n' ⟨rfl, -⟩
      exact ⟨s, hs, hQ⟩

/-- A review keeps a law whatever badge it is given. -/
theorem keeps_learner (b : Badge) (l : LearnerId) (now : Instant) :
    Keeps setting (Stands R id Q) (learner b l now) := by
  have hother : ∀ {op : Operation}, op.editsBadges = false →
      Upholds setting (Stands R id Q) (Run.perform op) :=
    fun hop => L.upholds_perform C fun _ => .of_not_editsBadges hop
  refine triple_learner_of_issue (fun hop => hother (Operation.editsBadges_of_isReading hop))
    (fun _ _ => hother rfl) (fun _ _ _ h => h) (fun _ _ _ _ h => h) ?_
  refine Keeps.bind (Triple.freshToken fun _ _ _ h => h) fun token => ?_
  cases Award.issue b l now token with
  | error p => exact Triple.breakOff fun _ _ h => h
  | ok a =>
    refine Keeps.bind (upholds_call (hother rfl)).keeps fun added => ?_
    cases added with
    | false => exact Keeps.pure
    | true =>
      refine Keeps.bind (Keeps.attempt (L.upholds_lock C b.id).keeps) fun _ => ?_
      exact Keeps.bind (Triple.notify fun _ _ h => h) fun _ => Keeps.pure

theorem keeps_pass (now : Instant) : Keeps setting (Stands R id Q) (pass now) := by
  have hreview : ∀ b l, ReviewKeeps setting now (Stands R id Q)
      (fun (_ : Cut ReviewError) => Stands R id Q) b l :=
    fun b l => Keeps.attempt (L.keeps_learner C b l now)
  refine Keeps.bind (upholds_call (L.upholds_perform C fun _ => .of_not_editsBadges rfl)).keeps
    fun bs => ?_
  exact (triple_badges_of fun b _ _ l _ => hreview b l).weaken (fun _ _ h => h)
    (fun _ _ _ h => h.1) fun _ _ _ h => h

end LifeLaw

namespace LifeLaw

open Run Definition

variable {σ : Type} [Store σ] {R : Ledger → σ → Prop} {form : Badge → Badge} {id : BadgeId}
  {Q : Option Badge → Prop} {setting : Setting} (C : FaithfulCatalog R form) (L : LifeLaw id Q)

/-- The store has the badge as it was built so far, and the statement holds. -/
def Holding (R : Ledger → σ → Prop) (id : BadgeId) (Q : Option Badge → Prop) (b : Badge) :
    Assertion σ :=
  fun t _ => ∃ s, R s t ∧ Q (s.badges.get? id) ∧ s.badges.get? b.id = some b

omit [Store σ] in
theorem Holding.stands {b : Badge} {t : σ} {n : List Notice} (h : Holding R id Q b t n) :
    Stands R id Q t n := by
  obtain ⟨s, hs, hQ, -⟩ := h
  exact ⟨s, hs, hQ⟩

include C L

/-- While criteria are added, the copy of the badge stays equal to what is stored. -/
theorem triple_addCriteria (b : Badge) (rs : List Criterion.Record) :
    Triple setting (Holding R id Q b) (addCriteria b rs) (Holding R id Q)
      fun _ => Stands R id Q := by
  induction rs generalizing b with
  | nil => exact Triple.pure fun _ _ h => h
  | cons r rs ih =>
    have hadd : Triple setting (Holding R id Q b) (Definition.call (.addCriterion b.id r))
        (fun c => Holding R id Q { b with criteria := b.criteria ++ [c] })
        fun _ => Stands R id Q := by
      refine Triple.mapError (E := fun _ => Stands R id Q) (Triple.perform
        (fun _ _ _ h _ => h.stands) ?_) (fun _ _ _ h => h) fun _ _ _ h => h
      rintro h c t t' n ⟨s, hs, hQ, hb⟩ hop
      rcases C.step hs hop with ⟨-, hedit⟩ | ⟨s', hledger, hs'⟩
      · cases hedit
      · have heffect := Ledger.effect_of_perform hledger
        have hQ' := L.effect (C.sound hs) hQ (.of_ne (by rintro _ _ ⟨⟩) (by rintro _ ⟨⟩)
          (by rintro _ ⟨⟩)) heffect
        cases heffect with
        | idle hidle => cases hidle
        | addCriterion hb' hc =>
          rw [hb, Option.some.injEq] at hb'
          subst hb'
          exact ⟨_, hs', hQ', Register.get?_insert_self ..⟩
    exact Triple.bind hadd fun c => ih _

theorem keeps_configure (b : Badge) (d : Definition) :
    Triple setting (Holding R id Q b) (configure b d) (fun _ => Stands R id Q)
      fun _ => Stands R id Q := by
  refine Triple.bind (L.triple_addCriteria C b d.criteria) fun b' => ?_
  split
  · cases hactivate : b'.activate with
    | error e => exact Triple.fail fun _ _ h => h.stands
    | ok b'' =>
      have hb'' := Badge.eq_of_apply (t := .activate) hactivate
      have hid : b''.id = b'.id := by rw [hb'']
      dsimp only
      rw [hid]
      refine Triple.bind (Triple.mapError (L.upholds_setStatus C (t := .activate) hactivate hb'')
        (fun _ _ _ h => h) fun _ _ _ h => h.elim) fun _ => Triple.pure fun _ _ h => h
  · exact Triple.pure fun _ _ h => h.stands

/-- The creation of a badge keeps a law. If it takes the place of which the law speaks, the place
was free, and it is free again when the creation has failed and cleaned up. -/
theorem keeps_create (d : Definition) : Keeps setting (Stands R id Q) d.create := by
  have hinsert : Triple setting (Stands R id Q) (Definition.call (.insertBadge d.newBadge))
      (fun b t n => Holding R id Q b t n ∧ (b.id = id → Q none)) fun _ => Stands R id Q := by
    refine Triple.mapError (E := fun _ => Stands R id Q) (Triple.perform (fun _ _ _ h _ => h) ?_)
      (fun _ _ _ h => h) fun _ _ _ h => h
    rintro h b t t' n ⟨s, hs, hQ⟩ hop
    rcases C.step hs hop with ⟨-, hedit⟩ | ⟨s', hledger, hs'⟩
    · cases hedit
    · have heffect := Ledger.effect_of_perform hledger
      have hQ' := L.effect (C.sound hs) hQ (.of_ne (by rintro _ _ ⟨⟩) (by rintro _ ⟨⟩)
        (by rintro _ ⟨⟩)) heffect
      cases heffect with
      | idle hidle => cases hidle
      | insertBadge new =>
        refine ⟨⟨_, hs', hQ', Register.get?_insert_self ..⟩, fun hid => ?_⟩
        obtain rfl : id = ⟨s.lastBadge + 1⟩ := hid.symm
        rwa [(C.sound hs).get?_next] at hQ
  refine Triple.bind hinsert fun b => Triple.assume fun hnone => ?_
  refine Triple.bind_attempt (L.keeps_configure C b d) (fun b' => Keeps.pure) (fun e => ?_)
    fun _ _ _ h => h
  exact Keeps.bind (Keeps.attempt (L.upholds_perform C fun _ => .deleteBadge_of hnone).keeps)
    fun _ => Triple.fail fun _ _ h => h

end LifeLaw

end Badging
