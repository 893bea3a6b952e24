import Badging.Proofs.Store.Catalog
import Badging.Proofs.Store.Lookup
import Badging.Proofs.Store.Refinement

/-!
# Removals and refusals

What a removal takes away is told by the lookups: `Operation.withoutBadge` and
`Operation.withoutCriterion` take a badge or a criterion out of an answer with all that belongs to
it, and leave everything else of the answer. After a removal each lookup has the answer from before
without what was removed. An answer `false` leaves no trace at all, and neither does an error: a
store gives no state with it, since a transaction of the tables is one step.

This is found out for sound ledgers, where a removal is a filter of each register, and carried over
to the tables that mirror one. Tables mirror some ledger as long as met records name the badge of
their criterion. Their tokens may collide, since an award with a known token is not inserted.
-/

namespace Badging

def Badge.Owns (b : Badge) (c : CriterionId) : Prop := ∃ d ∈ b.criteria, d.id = c

instance (b : Badge) (c : CriterionId) : Decidable (b.Owns c) :=
  inferInstanceAs (Decidable (∃ d ∈ b.criteria, d.id = c))

def Badge.without (b : Badge) (c : CriterionId) : Badge :=
  { b with criteria := b.criteria.filter (·.id ≠ c) }

namespace Operation

/-- The answer without a badge, its criteria and its rows. -/
def withoutBadge (gone : Badge) : (op : Operation) → op.Answer → op.Answer
  | .badge id, b? => if id = gone.id then none else b?
  | .badges, bs => bs.filter (·.id ≠ gone.id)
  | .criterionMet c _, r? => if gone.Owns c then none else r?
  | .metRecords b _, rs => if b = gone.id then [] else rs
  | .manualExists b _ _, found => if b = gone.id then false else found
  | .award b _, a? => if b = gone.id then none else a?
  | .awards b, as => if b = gone.id then [] else as
  | _, a => a

/-- The answer without a criterion and its met records. -/
def withoutCriterion (gone : CriterionId) : (op : Operation) → op.Answer → op.Answer
  | .badge _, b? => b?.map (·.without gone)
  | .badges, bs => bs.map (·.without gone)
  | .criterionMet c _, r? => if c = gone then none else r?
  | .metRecords _ _, rs => rs.filter (·.criterion ≠ gone)
  | _, a => a

/-- The outcome is a refusal, or an answer with which nothing is done. -/
def Declined (op : Operation) : Except StoreError op.Answer → Prop
  | .error _ => True
  | .ok a => Store.Idle op a

end Operation

namespace Store

variable {σ : Type} [Store σ]

def badges (s : σ) : List Badge :=
  match perform .badges s with
  | .ok (bs, _) => bs
  | .error _ => []

/-- What removals and refusals leave of a store. -/
structure RemovesItsOwn (s : σ) : Prop where
  /-- No criterion belongs to two badges. -/
  owner_unique : ∀ {b b' c}, b ∈ badges s → b' ∈ badges s → b.Owns c → b'.Owns c → b = b'
  badge : ∀ {id s'}, perform (.deleteBadge id) s = .ok ((), s') →
    ∃ b, badge? s id = some b ∧ b.id = id ∧ AnswersBy (Operation.withoutBadge b) s s'
  criterion : ∀ {id s'}, perform (.deleteCriterion id) s = .ok ((), s') →
    ∃ b ∈ badges s, b.Owns id ∧ AnswersBy (Operation.withoutCriterion id) s s'
  /-- For an error this is so by the type of `perform`; what is said here is that an answer with
  which nothing is done changes nothing. -/
  declined : ∀ op : Operation, op.Declined (step op s).1 → (step op s).2 = s

theorem step_of_declined {s : σ} {op : Operation}
    (hidle : ∀ {a s'}, perform op s = .ok (a, s') → Idle op a → s' = s)
    (h : op.Declined (step op s).1) : (step op s).2 = s := by
  unfold step at h ⊢
  cases hop : perform op s with
  | error e => rfl
  | ok p =>
    rw [hop] at h
    exact hidle hop h

/-- A met record names the badge of its criterion, if the store lists one. -/
def NamesOwner (s : σ) : Operation → Prop
  | .markMet r => ∀ b ∈ badges s, b.Owns r.criterion → b.id = r.badge
  | _ => True

instance (s : σ) (op : Operation) : Decidable (NamesOwner s op) := by
  cases op <;> unfold NamesOwner <;> infer_instance

/-- Along a run every met record names the badge of its criterion. -/
def OwnersNamed : σ → List Operation → Prop
  | _, [] => True
  | s, op :: ops => NamesOwner s op ∧ OwnersNamed (step op s).2 ops

instance decidableOwnersNamed : (s : σ) → (ops : List Operation) → Decidable (OwnersNamed s ops)
  | _, [] => .isTrue trivial
  | s, op :: ops =>
    have := decidableOwnersNamed (step op s).2 ops
    inferInstanceAs (Decidable (NamesOwner s op ∧ OwnersNamed (step op s).2 ops))

end Store

namespace Ledger

variable {s s' : Ledger}

theorem Sound.deleteBadge_eq (hs : s.Sound) {id : BadgeId}
    (h : perform (.deleteBadge id) s = .ok ((), s')) :
    (∃ b, s.badges.get? id = some b) ∧ s' = { s with
      badges := s.badges.filter fun _ b => b.id ≠ id
      met := s.met.filter fun _ r => r.badge ≠ id
      manual := s.manual.filter fun _ a => a.badge ≠ id
      awards := s.awards.filter fun _ a => a.badge ≠ id } := by
  cases effect_of_perform h with
  | idle hidle => cases hidle
  | deleteBadge hb =>
    have hbadges : s.badges.erase id = s.badges.filter fun _ b => b.id ≠ id := by
      apply Register.filter_congr
      intro k b hb
      rw [(hs.badge hb).id_eq, decide_eq_decide, ne_eq, ne_eq, Std.LawfulEqCmp.compare_eq_iff_eq,
        eq_comm]
    have hmanual : (s.manual.filter fun k _ => k.fst ≠ id) =
        s.manual.filter fun _ a => a.badge ≠ id := by
      apply Register.filter_congr
      intro k a ha
      rw [(hs.manual ha).1]
    have hawards : (s.awards.filter fun k _ => k.fst ≠ id) =
        s.awards.filter fun _ a => a.badge ≠ id := by
      apply Register.filter_congr
      intro k a ha
      rw [(hs.awards ha).1]
    exact ⟨⟨_, hb⟩, by rw [hbadges, hmanual, hawards]⟩

/-- Removing a criterion takes it from whatever badge has it, which is one. -/
theorem Sound.deleteCriterion_eq (hs : s.Sound) {id : CriterionId}
    (h : perform (.deleteCriterion id) s = .ok ((), s')) :
    (∃ key b, s.badges.get? key = some b ∧ b.Owns id) ∧ s' = { s with
      badges := s.badges.mapValues fun _ b => b.without id
      met := s.met.filter fun _ r => r.criterion ≠ id } := by
  cases effect_of_perform h with
  | idle hidle => cases hidle
  | @deleteCriterion _ key b hb _ =>
    obtain ⟨hb, hc⟩ := get?_of_ownerOf? hb
    have hbadges : s.badges.insert key { b with criteria := b.criteria.filter (·.id ≠ id) } =
        s.badges.mapValues fun _ b => b.without id := by
      apply Register.ext_get?
      intro j
      rw [Register.get?_mapValues]
      by_cases hj : j = key
      · rw [hj, Register.get?_insert_self, hb]
        rfl
      · rw [Register.get?_insert_of_ne _ hj]
        cases hd : s.badges.get? j with
        | none => rfl
        | some d =>
          obtain ⟨c, hc, hid⟩ := hc
          have hkept : d.criteria.filter (·.id ≠ id) = d.criteria := by
            apply List.filter_eq_self.2
            intro e he
            have hne : e.id ≠ id := fun heq =>
              hj (hs.owner_unique hd hb he hc (heq.trans hid.symm))
            simpa using hne
          simp only [Option.map_some, Badge.without, hkept]
    have hmet : (s.met.filter fun k _ => k.fst ≠ id) =
        s.met.filter fun _ r => r.criterion ≠ id := by
      apply Register.filter_congr
      intro k r hr
      rw [(hs.met hr).1]
    exact ⟨⟨key, b, hb, hc⟩, by rw [hbadges, hmet]⟩

theorem Sound.answersBy_deleteBadge (hs : s.Sound) {id : BadgeId}
    (h : perform (.deleteBadge id) s = .ok ((), s')) :
    ∃ b, s.badges.get? id = some b ∧ Store.AnswersBy (Operation.withoutBadge b) s s' := by
  obtain ⟨⟨b, hb⟩, rfl⟩ := hs.deleteBadge_eq h
  obtain rfl : b.id = id := (hs.badge hb).id_eq
  refine ⟨b, hb, answersBy fun {op a a'} hop ha ha' => ?_⟩
  -- What a lookup asks for decides whether the filters take its answer away.
  cases op with
  | badge j =>
    cases ha
    cases ha'
    apply Register.get?_filter_of_iff
    intro d hd
    simp [(hs.badge hd).id_eq]
  | badges =>
    cases ha
    cases ha'
    exact s.badges.values_filter _
  | criterionMet c l =>
    cases ha
    cases ha'
    apply Register.get?_filter_of_iff
    intro r hr
    obtain ⟨hk, d, hd, hc⟩ := hs.met hr
    obtain ⟨rfl, -⟩ := Pair.mk.inj hk
    rw [decide_eq_true_iff, ne_eq, not_iff_not]
    constructor
    · intro hbadge
      rw [hbadge, hb, Option.some.injEq] at hd
      exact hd ▸ hc
    · rintro ⟨e, he, heq⟩
      obtain ⟨c, hc, hid⟩ := hc
      exact hs.owner_unique hd hb hc he (hid.trans heq.symm)
  | metRecords j l =>
    cases ha
    cases ha'
    simp only [metRecords, Register.values_filter]
    apply Tables.filter_filter_of_iff
    intro r _ hr
    simp_all
  | manualExists j l r =>
    cases ha
    cases ha'
    have hget : (s.manual.filter fun _ a => a.badge ≠ b.id).get? ⟨j, l, r⟩ =
        if j = b.id then none else s.manual.get? ⟨j, l, r⟩ := by
      apply Register.get?_filter_of_iff
      intro a ha
      obtain ⟨rfl, -⟩ := Pair.mk.inj (hs.manual ha).1
      simp
    show Option.isSome _ = if j = b.id then false else (s.manual.get? ⟨j, l, r⟩).isSome
    rw [hget]
    split <;> rfl
  | award j l =>
    cases ha
    cases ha'
    apply Register.get?_filter_of_iff
    intro a ha
    obtain ⟨rfl, -⟩ := Pair.mk.inj (hs.awards ha).1
    simp
  | awards j =>
    cases ha
    cases ha'
    simp only [awardsOf, Register.values_filter]
    apply Tables.filter_filter_of_iff
    intro r _ hr
    simp_all
  | _ => cases hop

theorem Sound.answersBy_deleteCriterion (hs : s.Sound) {id : CriterionId}
    (h : perform (.deleteCriterion id) s = .ok ((), s')) :
    (∃ key b, s.badges.get? key = some b ∧ b.Owns id) ∧
      Store.AnswersBy (Operation.withoutCriterion id) s s' := by
  obtain ⟨howner, rfl⟩ := hs.deleteCriterion_eq h
  refine ⟨howner, answersBy fun {op a a'} hop ha ha' => ?_⟩
  cases op with
  | badge j =>
    cases ha
    cases ha'
    exact s.badges.get?_mapValues _ j
  | badges =>
    cases ha
    cases ha'
    exact s.badges.values_mapValues _
  | criterionMet c l =>
    cases ha
    cases ha'
    apply Register.get?_filter_of_iff
    intro r hr
    obtain ⟨rfl, -⟩ := Pair.mk.inj (hs.met hr).1
    simp
  | metRecords j l =>
    cases ha
    cases ha'
    simp only [metRecords, Register.values_filter]
    exact List.filter_comm _ _ _
  | manualExists | award | awards =>
    cases ha
    cases ha'
    rfl
  | _ => cases hop

theorem Sound.removesItsOwn (hs : s.Sound) : Store.RemovesItsOwn s where
  owner_unique {b b' c} hb hb' hc hc' := by
    obtain ⟨k, hb⟩ := Register.mem_values_iff.1 hb
    obtain ⟨k', hb'⟩ := Register.mem_values_iff.1 hb'
    obtain ⟨d, hd, hid⟩ := hc
    obtain ⟨d', hd', hid'⟩ := hc'
    obtain rfl := hs.owner_unique hb hb' hd hd' (hid.trans hid'.symm)
    exact Option.some.inj (hb.symm.trans hb')
  badge h := by
    obtain ⟨b, hb, hanswers⟩ := hs.answersBy_deleteBadge h
    exact ⟨b, hb, (hs.badge hb).id_eq, hanswers⟩
  criterion h := by
    obtain ⟨⟨k, b, hb, howns⟩, hanswers⟩ := hs.answersBy_deleteCriterion h
    exact ⟨b, Register.mem_values_iff.2 ⟨k, hb⟩, howns, hanswers⟩
  declined _ h := Store.step_of_declined (fun hop => (effect_of_perform hop).eq_of_idle) h

end Ledger

theorem Badge.owns_rebuilt_iff {b : Badge} {c : CriterionId} : b.rebuilt.Owns c ↔ b.Owns c := by
  simp [Badge.Owns, Badge.rebuilt, Criterion.rebuilt]

theorem Badge.rebuilt_without (b : Badge) (c : CriterionId) :
    (b.without c).rebuilt = b.rebuilt.without c := by
  simp only [Badge.without, Badge.rebuilt, List.filter_map]
  rfl

namespace Operation

theorem shown_withoutBadge (b : Badge) (op : Operation) (a : op.Answer) :
    op.shown (op.withoutBadge b a) = op.withoutBadge b.rebuilt (op.shown a) := by
  have hid : b.rebuilt.id = b.id := rfl
  cases op with
  | badges =>
    simp only [shown, withoutBadge, hid, List.filter_map]
    rfl
  | badge | criterionMet | metRecords | award | awards =>
    simp only [shown, withoutBadge, hid, Badge.owns_rebuilt_iff]
    split <;> rfl
  | _ => rfl

theorem shown_withoutCriterion (c : CriterionId) (op : Operation) (a : op.Answer) :
    op.shown (op.withoutCriterion c a) = op.withoutCriterion c (op.shown a) := by
  cases op with
  | badge => cases a <;> simp [shown, withoutCriterion, Badge.rebuilt_without]
  | badges => simp [shown, withoutCriterion, Badge.rebuilt_without]
  | criterionMet =>
    simp only [shown, withoutCriterion]
    split <;> rfl
  | metRecords =>
    simp only [shown, withoutCriterion, List.filter_map]
    rfl
  | _ => rfl

end Operation

namespace Mirrors

variable {s : Ledger} {t t' : Tables} (M : Mirrors s t)

include M

theorem badges_eq : Store.badges t = s.badges.values.map Badge.rebuilt := by
  rw [Store.badges, show Store.perform .badges t = _ from M.lookup .badges rfl rfl]
  rfl

theorem badge?_eq_some {id : BadgeId} {b : Badge} (h : s.badges.get? id = some b) :
    Store.badge? t id = some b.rebuilt := by
  rw [Store.badge?, show Store.perform (.badge id) t = _ from M.lookup (.badge id) rfl rfl]
  simp only [Operation.shown, h, Option.map_some]

theorem exists_perform (op : Operation) {a' : op.Answer} (hop : s.Admits op)
    (h : Tables.perform op t = .ok (a', t')) :
    ∃ a s', Ledger.perform op s = .ok (a, s') ∧ Mirrors s' t' := by
  have hmatched := M.matched_perform hop
  rw [h] at hmatched
  generalize hs : Ledger.perform op s = x at hmatched
  cases hmatched with
  | answer _ M' => exact ⟨_, _, rfl, M'⟩

theorem removesItsOwn : Store.RemovesItsOwn t where
  owner_unique {b b' c} hb hb' hc hc' := by
    rw [M.badges_eq] at hb hb'
    obtain ⟨d, hd, rfl⟩ := List.mem_map.1 hb
    obtain ⟨d', hd', rfl⟩ := List.mem_map.1 hb'
    rw [Badge.owns_rebuilt_iff] at hc hc'
    rw [M.sound.removesItsOwn.owner_unique hd hd' hc hc']
  badge {id t'} h := by
    obtain ⟨_, s', hs', M'⟩ := M.exists_perform (.deleteBadge id) trivial h
    obtain ⟨b, hb, hanswers⟩ := M.sound.answersBy_deleteBadge hs'
    exact ⟨b.rebuilt, M.badge?_eq_some hb, (M.sound.badge hb).id_eq,
      M.answersBy M' (Operation.shown_withoutBadge b) hanswers⟩
  criterion {id t'} h := by
    obtain ⟨_, s', hs', M'⟩ := M.exists_perform (.deleteCriterion id) trivial h
    obtain ⟨⟨k, b, hb, howns⟩, hanswers⟩ := M.sound.answersBy_deleteCriterion hs'
    refine ⟨b.rebuilt, ?_, Badge.owns_rebuilt_iff.2 howns,
      M.answersBy M' (Operation.shown_withoutCriterion id) hanswers⟩
    rw [M.badges_eq]
    exact List.mem_map_of_mem (Register.mem_values_iff.2 ⟨k, hb⟩)
  declined _ h := Store.step_of_declined (fun hop => (Tables.effect_of_perform hop).eq_of_idle) h

theorem admits_markMet {r : MetRecord} (h : Store.NamesOwner t (.markMet r)) :
    s.Admits (.markMet r) := by
  intro id b c hb hc hid
  have hsound := M.sound.badge hb
  have hmem : b.rebuilt ∈ Store.badges t := by
    rw [M.badges_eq]
    exact List.mem_map_of_mem (Register.mem_values_iff.2 ⟨id, hb⟩)
  rw [hsound.badge_eq c hc, ← hsound.id_eq]
  exact h b.rebuilt hmem (Badge.owns_rebuilt_iff.2 ⟨c, hc, hid⟩)

/-- The tables decline an award whose token they know. -/
theorem step_insertAward {a : Award} (h : ¬ s.Admits (.insertAward a)) :
    (Store.step (.insertAward a) t).2 = t := by
  simp only [Ledger.Admits, not_forall] at h
  obtain ⟨k, a', ha', htoken, -⟩ := h
  have hknown : (t.issued.any fun x =>
      x.token == a.token || (x.badge == a.badge && x.learner == a.learner)) = true := by
    refine List.any_eq_true.2 ⟨a'.row, M.issued.mem_iff.2 ⟨k, a', ha', rfl⟩, ?_⟩
    simp [Award.row, htoken]
  simp only [Store.step, Store.perform, Tables.perform, Tables.insertAward, hknown, if_true]

/-- After an operation whose met record names the badge of its criterion, the tables mirror a ledger
again, if only the one from before. -/
theorem exists_step {op : Operation} (h : Store.NamesOwner t op) :
    ∃ s', Mirrors s' (Store.step op t).2 := by
  by_cases hop : s.Admits op
  · exact ⟨_, (Matched.step M (M.matched_perform hop)).2.2⟩
  · cases op with
    | markMet r => exact (hop (M.admits_markMet h)).elim
    | insertAward a => exact ⟨s, by rwa [M.step_insertAward hop]⟩
    | _ => exact absurd trivial hop

theorem exists_run {ops : List Operation} (h : Store.OwnersNamed t ops) :
    ∃ s', Mirrors s' (Store.run t ops) := by
  induction ops generalizing s t with
  | nil => exact ⟨s, M⟩
  | cons op ops ih =>
    obtain ⟨hop, hops⟩ := h
    obtain ⟨s', M'⟩ := M.exists_step hop
    exact ih M' hops

end Mirrors

/-- In whatever state a ledger was brought by operations, and tables by operations in which met
records name the badge of their criterion, a removal takes a badge or a criterion out of every
lookup with what belongs to it and leaves the rest, and what is declined leaves the store. -/
theorem ledger_and_tables_remove_their_own (ops : List Operation) :
    Store.RemovesItsOwn (Store.run Ledger.empty ops) ∧
      (Store.OwnersNamed Tables.empty ops → Store.RemovesItsOwn (Store.run Tables.empty ops)) := by
  refine ⟨(Ledger.sound_run ops).removesItsOwn, fun h => ?_⟩
  obtain ⟨s, M⟩ := mirrors_empty.exists_run h
  exact M.removesItsOwn

/-- The first award names the badge of its criterion. Its badge can be removed from the tables, and
the award is there to be taken along. -/
theorem ledger_and_tables_remove_first_award :
    Store.OwnersNamed Tables.empty (datedBadge ++ firstAward) ∧
      Store.RemovesItsOwn (Store.run Ledger.empty (datedBadge ++ firstAward)) ∧
      Store.RemovesItsOwn (Store.run Tables.empty (datedBadge ++ firstAward)) ∧
      (Store.step (.deleteBadge ⟨1⟩) (Store.run Tables.empty (datedBadge ++ firstAward))).1 =
        .ok () ∧
      (Store.step (.award ⟨1⟩ ⟨5⟩)
        (Store.run Tables.empty (datedBadge ++ firstAward))).1 ≠ .ok none := by
  have hnamed : Store.OwnersNamed Tables.empty (datedBadge ++ firstAward) := by decide +kernel
  obtain ⟨hledger, htables⟩ := ledger_and_tables_remove_their_own (datedBadge ++ firstAward)
  exact ⟨hnamed, hledger, htables hnamed, by decide +kernel, by decide +kernel⟩

end Badging
