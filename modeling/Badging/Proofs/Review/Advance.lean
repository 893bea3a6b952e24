import Badging.Proofs.Review.Verdict
import Badging.Proofs.Store.Ledger.Sound

/-!
# How far reviews have come

Reviews at one time against one set of facts take a ledger `s₀` forward. What they can reach does
not depend on which of their calls fail: a requirement gets a record only if it holds, an overall
criterion only if its method is satisfied, and an award comes last, after all records that it could
rest on. `Advance facts now D s₀ s` says that `s` was reached like this from `s₀` by reviews of the
badges and learners in `D`.

Since a requirement holds or does not hold at `s₀` already, everything that can still come is
decided there: `Earned` requirements have a record or will get one, and `Satisfied` says that those
suffice.
-/

namespace Badging

namespace Review

variable (facts : FactSource) (now : Instant) (D : BadgeId → LearnerId → Prop) (s₀ : Ledger)

/-- A requirement that has a record, or gets one when it is reviewed. -/
def Earned (b : Badge) (l : LearnerId) (c : Criterion) : Prop :=
  Recorded s₀ l c ∨ Holds facts s₀ b l c

/-- The records that there are and those that come suffice for the overall criterion. -/
def Satisfied (b : Badge) (l : LearnerId) (o : Criterion) : Prop :=
  b.requirements ≠ [] ∧ o.method.Asks (Earned facts s₀ b l) b.requirements

/-- Of the given requirements, those that hold have a record. -/
def SettledOn (b : Badge) (l : LearnerId) (cs : List Criterion) (s : Ledger) : Prop :=
  ∀ c ∈ cs, Holds facts s₀ b l c → Recorded s l c

/-- A record of a criterion that reviews may write. -/
structure Due (b : Badge) (l : LearnerId) (c : Criterion) : Prop where
  stored : s₀.badges.get? b.id = some b
  mem : c ∈ b.criteria
  pair : D b.id l
  complete : b.overall?.isSome = true
  requirement : c.isOverall = false → Holds facts s₀ b l c
  overall : c.isOverall = true → b.overall? = some c ∧ Satisfied facts s₀ b l c

/-- An award that reviews may insert, with the records that come before it. -/
structure Deserved (s : Ledger) (b : Badge) (l : LearnerId) (a : Award) : Prop where
  issued : ∃ token, Award.issue b l now token = .ok a
  overall : ∃ o, Due facts D s₀ b l o ∧ o.isOverall = true ∧ Recorded s l o
  settled : SettledOn facts s₀ b l b.requirements s

/-- The ledger `s` was reached from `s₀` by reviews of badges and learners in `D`. -/
structure Advance (s : Ledger) : Prop where
  lastBadge : s.lastBadge = s₀.lastBadge
  lastCriterion : s.lastCriterion = s₀.lastCriterion
  manual : s.manual = s₀.manual
  badges : s.badges.mapValues (fun _ b => b.lock) = s₀.badges.mapValues (fun _ b => b.lock)
  met_kept : ∀ {k r}, s₀.met.get? k = some r → s.met.get? k = some r
  met_new : ∀ {k r}, s.met.get? k = some r → s₀.met.get? k = some r ∨
    ∃ b l c, Due facts D s₀ b l c ∧ k = ⟨c.id, l⟩ ∧ r = c.met l now
  awards_kept : ∀ {k a}, s₀.awards.get? k = some a → s.awards.get? k = some a
  awards_new : ∀ {k a}, s.awards.get? k = some a → s₀.awards.get? k = some a ∨
    ∃ b l, Deserved facts now D s₀ s b l a ∧ k = ⟨b.id, l⟩

/-- Records and awards of `s` are also in `s'`. -/
structure Grown (s s' : Ledger) : Prop where
  met : ∀ {k r}, s.met.get? k = some r → s'.met.get? k = some r
  awards : ∀ {k a}, s.awards.get? k = some a → s'.awards.get? k = some a

/-- Nothing is left to do for a badge and a learner: there is an award, or all records are there and
they do not suffice. -/
def Finished (b : Badge) (l : LearnerId) (s : Ledger) : Prop :=
  (∃ a, s.awards.get? ⟨b.id, l⟩ = some a) ∨
    ∀ o, b.overall? = some o →
      SettledOn facts s₀ b l b.requirements s ∧ ¬ Satisfied facts s₀ b l o

/-- What stays true while records and awards are added. -/
def Lasting (X : Ledger → Prop) : Prop := ∀ {s s'}, Grown s s' → X s → X s'

variable {facts now D s₀} {s : Ledger} {b : Badge} {l : LearnerId} {c : Criterion}

theorem Recorded.grown {s' : Ledger} (h : Grown s s') (hc : Recorded s l c) : Recorded s' l c := by
  obtain ⟨r, hr⟩ := Register.contains_eq_true_iff.1 hc
  exact Register.contains_eq_true_iff.2 ⟨r, h.met hr⟩

theorem lasting_settledOn {cs : List Criterion} : Lasting (SettledOn facts s₀ b l cs) :=
  fun hgrown h c hc hholds => (h c hc hholds).grown hgrown

theorem lasting_finished : Lasting (Finished facts s₀ b l) := fun hgrown h => by
  rcases h with ⟨a, ha⟩ | h
  · exact .inl ⟨a, hgrown.awards ha⟩
  · exact .inr fun o ho => ⟨lasting_settledOn hgrown (h o ho).1, (h o ho).2⟩

theorem settledOn_cons {cs : List Criterion} : SettledOn facts s₀ b l (c :: cs) s ↔
    (Holds facts s₀ b l c → Recorded s l c) ∧ SettledOn facts s₀ b l cs s :=
  List.forall_mem_cons

theorem settledOn_nil : SettledOn facts s₀ b l [] s := fun _ hc => absurd hc List.not_mem_nil

theorem Lasting.and {X Y : Ledger → Prop} (hX : Lasting X) (hY : Lasting Y) :
    Lasting fun s => X s ∧ Y s :=
  fun hgrown h => ⟨hX hgrown h.1, hY hgrown h.2⟩

theorem Deserved.grown {s' : Ledger} {a : Award} (hgrown : Grown s s')
    (h : Deserved facts now D s₀ s b l a) : Deserved facts now D s₀ s' b l a := by
  obtain ⟨hissued, ⟨o, hdue, ho, hrecorded⟩, hsettled⟩ := h
  exact ⟨hissued, ⟨o, hdue, ho, hrecorded.grown hgrown⟩, lasting_settledOn hgrown hsettled⟩

theorem Advance.refl : Advance facts now D s₀ s₀ where
  lastBadge := rfl
  lastCriterion := rfl
  manual := rfl
  badges := rfl
  met_kept h := h
  met_new h := .inl h
  awards_kept h := h
  awards_new h := .inl h

theorem Advance.grown (h : Advance facts now D s₀ s) : Grown s₀ s :=
  ⟨h.met_kept, h.awards_kept⟩

theorem Advance.get?_badge (h : Advance facts now D s₀ s) {id : BadgeId}
    (hb : s₀.badges.get? id = some b) : ∃ b', s.badges.get? id = some b' ∧ b'.lock = b.lock := by
  have heq := congrArg (fun r => Register.get? r id) h.badges
  simp only [Register.get?_mapValues, hb, Option.map_some, Option.map_eq_some_iff] at heq
  exact heq

theorem Advance.get?_badge_start (h : Advance facts now D s₀ s) {id : BadgeId}
    (hb : s.badges.get? id = some b) : ∃ b', s₀.badges.get? id = some b' ∧ b'.lock = b.lock := by
  have heq := congrArg (fun r => Register.get? r id) h.badges
  simp only [Register.get?_mapValues, hb, Option.map_some] at heq
  exact Option.map_eq_some_iff.1 heq.symm

section Locked

variable {b b' : Badge} (hlock : b'.lock = b.lock)

include hlock

theorem id_of_lock : b'.id = b.id := by
  have hid := congrArg Badge.id hlock
  exact hid

theorem expiry_of_lock : b'.expiry = b.expiry := by
  have hexpiry := congrArg Badge.expiry hlock
  exact hexpiry

theorem owner_of_lock : b'.owner = b.owner := by
  have howner := congrArg Badge.owner hlock
  exact howner

theorem criteria_of_lock : b'.criteria = b.criteria := by
  have hcriteria := congrArg Badge.criteria hlock
  exact hcriteria

theorem requirements_of_lock : b'.requirements = b.requirements :=
  Badge.requirements_congr (criteria_of_lock hlock)

theorem overall?_of_lock : b'.overall? = b.overall? :=
  Badge.overall?_congr (criteria_of_lock hlock)

end Locked

theorem sound_of_lock {id : BadgeId} {last : Int} {b b' : Badge} (h : b'.Sound id last)
    (heq : b'.lock = b.lock) : b.Sound id last := by
  have hcriteria := criteria_of_lock heq
  refine ⟨(id_of_lock heq).symm.trans h.id_eq, ?_, ?_, ?_, ?_⟩
  · rw [← hcriteria]
    exact h.badge_eq
  · rw [← hcriteria]
    exact h.criterion_range
  · rw [← hcriteria]
    exact h.ascending
  · rw [← hcriteria]
    exact h.overall_le_one

theorem Advance.sound (hs₀ : s₀.Sound) (h : Advance facts now D s₀ s) : s.Sound := by
  refine ⟨⟨fun {id b} hb => ?_, fun {id b} hb => ?_, ?_, fun {i j b b' c c'} hi hj hc hc' => ?_⟩,
    fun {k r} hr => ?_, fun {k a} ha => ?_, fun {k a} ha => ?_⟩
  · obtain ⟨b₀, hb₀, heq⟩ := h.get?_badge_start hb
    rw [h.lastCriterion]
    exact sound_of_lock (hs₀.badge hb₀) heq
  · obtain ⟨b₀, hb₀, -⟩ := h.get?_badge_start hb
    rw [h.lastBadge]
    exact hs₀.badge_range hb₀
  · rw [h.lastBadge, h.lastCriterion]
    exact hs₀.counters
  · obtain ⟨b₀, hb₀, heq⟩ := h.get?_badge_start hi
    obtain ⟨b₀', hb₀', heq'⟩ := h.get?_badge_start hj
    rw [← criteria_of_lock heq] at hc
    rw [← criteria_of_lock heq'] at hc'
    exact hs₀.owner_unique hb₀ hb₀' hc hc'
  -- Each row is one from the start, or is about a badge that was stored at the start.
  · rcases h.met_new hr with hr | ⟨b, l, c, hdue, rfl, rfl⟩
    · obtain ⟨hk, b, hb, hc⟩ := hs₀.met hr
      obtain ⟨b', hb', heq⟩ := h.get?_badge hb
      exact ⟨hk, b', hb', by rwa [criteria_of_lock heq]⟩
    · obtain ⟨b', hb', heq⟩ := h.get?_badge hdue.stored
      have hbadge : (c.met l now).badge = b.id := (hs₀.badge hdue.stored).badge_eq c hdue.mem
      refine ⟨rfl, b', by rw [hbadge, hb'], c, ?_, rfl⟩
      rw [criteria_of_lock heq]
      exact hdue.mem
  · rw [h.manual] at ha
    obtain ⟨hk, b, hb⟩ := hs₀.manual ha
    obtain ⟨b', hb', -⟩ := h.get?_badge hb
    exact ⟨hk, b', hb'⟩
  · rcases h.awards_new ha with ha | ⟨b, l, hdeserved, rfl⟩
    · obtain ⟨hk, b, hb⟩ := hs₀.awards ha
      obtain ⟨b', hb', -⟩ := h.get?_badge hb
      exact ⟨hk, b', hb'⟩
    · obtain ⟨token, hissue⟩ := hdeserved.issued
      obtain ⟨x, -, rfl⟩ := Award.issue_eq_ok_iff.1 hissue
      obtain ⟨o, hdue, -⟩ := hdeserved.overall
      obtain ⟨b', hb', -⟩ := h.get?_badge hdue.stored
      exact ⟨rfl, b', hb'⟩

theorem Advance.earned (hs₀ : s₀.Sound) (h : Advance facts now D s₀ s)
    (hb : s₀.badges.get? b.id = some b) (hc : c ∈ b.requirements) (hrecorded : Recorded s l c) :
    Earned facts s₀ b l c := by
  obtain ⟨hc, hreq⟩ := Badge.mem_requirements_iff.1 hc
  obtain ⟨r, hr⟩ := Register.contains_eq_true_iff.1 hrecorded
  rcases h.met_new hr with hr | ⟨d, l', e, hdue, hk, -⟩
  · exact .inl (Register.contains_eq_true_iff.2 ⟨r, hr⟩)
  · obtain ⟨hid, rfl⟩ := Pair.mk.injEq .. ▸ hk
    have hbd : b.id = d.id := hs₀.owner_unique hb hdue.stored hc hdue.mem hid
    have hstored := hdue.stored
    rw [← hbd, hb, Option.some.injEq] at hstored
    subst hstored
    obtain rfl := (hs₀.badge hb).eq_of_id hc hdue.mem hid
    exact .inr (hdue.requirement hreq)

theorem Advance.satisfied (hs₀ : s₀.Sound) (h : Advance facts now D s₀ s)
    (hb : s₀.badges.get? b.id = some b) {o : Criterion} (hreq : b.requirements ≠ [])
    (hasks : o.method.Asks (Recorded s l) b.requirements) : Satisfied facts s₀ b l o :=
  ⟨hreq, hasks.mono fun _ hc hrecorded => h.earned hs₀ hb hc hrecorded⟩

/-- When everything that holds has its record, what is earned suffices only if records do. -/
theorem Advance.asks_of_satisfied (h : Advance facts now D s₀ s)
    (hsettled : SettledOn facts s₀ b l b.requirements s) {o : Criterion}
    (hsatisfied : Satisfied facts s₀ b l o) : o.method.Asks (Recorded s l) b.requirements := by
  refine hsatisfied.2.mono fun c hc hearned => ?_
  rcases hearned with hrecorded | hholds
  · exact hrecorded.grown h.grown
  · exact hsettled c hc hholds

section Steps

variable {s' : Ledger}

theorem Advance.markMet (h : Advance facts now D s₀ s) (hdue : Due facts D s₀ b l c)
    (hnone : s.met.get? ⟨c.id, l⟩ = none) :
    Advance facts now D s₀ { s with met := s.met.insert ⟨c.id, l⟩ (c.met l now) } ∧
      Grown s { s with met := s.met.insert ⟨c.id, l⟩ (c.met l now) } := by
  have hgrown : Grown s { s with met := s.met.insert ⟨c.id, l⟩ (c.met l now) } := by
    refine ⟨fun {k r} hr => ?_, fun ha => ha⟩
    rw [s.met.get?_insert_of_ne, hr]
    rintro rfl
    rw [hnone] at hr
    cases hr
  refine ⟨⟨h.lastBadge, h.lastCriterion, h.manual, h.badges, fun hr => hgrown.met (h.met_kept hr),
    fun {k r} hr => ?_, h.awards_kept, fun {k a} ha => ?_⟩, hgrown⟩
  · rcases Register.get?_insert_eq_some_iff.1 hr with ⟨rfl, rfl⟩ | ⟨-, hr⟩
    · exact .inr ⟨b, l, c, hdue, rfl, rfl⟩
    · exact h.met_new hr
  · rcases h.awards_new ha with ha | ⟨d, l', hdeserved, hk⟩
    · exact .inl ha
    · exact .inr ⟨d, l', hdeserved.grown hgrown, hk⟩

theorem Advance.insertAward (h : Advance facts now D s₀ s) {a : Award}
    (hdeserved : Deserved facts now D s₀ s b l a) (hnone : s.awards.get? ⟨b.id, l⟩ = none) :
    Advance facts now D s₀ { s with awards := s.awards.insert ⟨b.id, l⟩ a } ∧
      Grown s { s with awards := s.awards.insert ⟨b.id, l⟩ a } := by
  have hgrown : Grown s { s with awards := s.awards.insert ⟨b.id, l⟩ a } := by
    refine ⟨fun hr => hr, fun {k a'} ha => ?_⟩
    rw [s.awards.get?_insert_of_ne, ha]
    rintro rfl
    rw [hnone] at ha
    cases ha
  refine ⟨⟨h.lastBadge, h.lastCriterion, h.manual, h.badges, h.met_kept, h.met_new,
    fun ha => hgrown.awards (h.awards_kept ha), fun {k a'} ha => ?_⟩, hgrown⟩
  rcases Register.get?_insert_eq_some_iff.1 ha with ⟨rfl, rfl⟩ | ⟨-, ha⟩
  · exact .inr ⟨b, l, hdeserved.grown hgrown, rfl⟩
  · rcases h.awards_new ha with ha | ⟨d, l', hdeserved', hk⟩
    · exact .inl ha
    · exact .inr ⟨d, l', hdeserved'.grown hgrown, hk⟩

theorem Advance.lock (h : Advance facts now D s₀ s) {id : BadgeId}
    (hb : s.badges.get? id = some b) :
    Advance facts now D s₀ { s with badges := s.badges.insert id b.lock } := by
  have hgrown : Grown s { s with badges := s.badges.insert id b.lock } :=
    ⟨fun hr => hr, fun ha => ha⟩
  refine ⟨h.lastBadge, h.lastCriterion, h.manual, ?_, h.met_kept, h.met_new, h.awards_kept,
    fun {k a} ha => ?_⟩
  · rw [← h.badges]
    apply Register.ext_get?
    intro k
    rw [Register.get?_mapValues, Register.get?_mapValues]
    by_cases hk : k = id
    · subst hk
      rw [s.badges.get?_insert_self, hb, Option.map_some, Option.map_some]
      simp [Badge.lock]
    · rw [s.badges.get?_insert_of_ne hk]
  · rcases h.awards_new ha with ha | ⟨d, l', hdeserved, hk⟩
    · exact .inl ha
    · exact .inr ⟨d, l', hdeserved.grown hgrown, hk⟩

end Steps

end Review

end Badging
