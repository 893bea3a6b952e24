import Badging.Proofs.Life.Chronicle
import Badging.Proofs.Review.Locking

/-!
# A lock is permanent

Once a badge is locked or archived, its status is all that may change of it, and no status that is
written ever makes it editable again: a transition keeps what is fixed fixed, and the three programs
that write statuses write those of transitions. What guards the criteria of the badge is therefore
shut for good, until the badge is deleted.

An archived badge stays archived, and a pass selects none. So what a pass does is done to other
badges, and of the archived one no award is inserted and no notice is sent.
-/

namespace Badging

/-- Locked or archived: the criteria of a badge with this status are fixed. -/
def Status.Fixed (s : Status) : Prop := s.isLocked = true ∨ s = .archived

instance (s : Status) : Decidable s.Fixed := inferInstanceAs (Decidable (_ ∨ _))

theorem Status.fixed_iff {s : Status} : s.Fixed ↔ s.isEditable = false := by
  cases s <;> decide

theorem Badge.fixed_of_apply {b b' : Badge} {t : Transition} (hfixed : b.status.Fixed)
    (h : b.apply t = .ok b') :
    b'.status.Fixed ∧ (b.status = .archived → b'.status = .archived) := by
  rw [Status.fixed_iff] at hfixed ⊢
  cases t with
  | activate =>
    obtain ⟨hstatus, -, -, rfl⟩ := activate_eq_ok_iff.1 h
    exact ⟨by rw [Status.isEditable_activated, hfixed], fun harchived => absurd harchived hstatus⟩
  | deactivate =>
    cases h
    refine ⟨by rw [deactivate, Status.isEditable_deactivated, hfixed], fun harchived => ?_⟩
    rw [deactivate, harchived]
    rfl
  | lock =>
    cases h
    refine ⟨Status.isEditable_locked _, fun harchived => ?_⟩
    rw [lock, harchived]
    rfl
  | archive =>
    cases h
    exact ⟨rfl, fun _ => rfl⟩

/-- In the place of `b` there is `b` with a status that is fixed, and archived if that of `b` is. -/
def Badge.FixedIn (b : Badge) (place : Option Badge) : Prop :=
  ∃ status : Status, place = some { b with status := status } ∧ status.Fixed ∧
    (b.status = .archived → status = .archived)

theorem lifeLaw_fixedIn (b : Badge) (id : BadgeId) : LifeLaw id b.FixedIn where
  new := by
    rintro new ⟨status, hnone, -⟩
    cases hnone
  transition := by
    rintro d d' t ⟨status, hd, hfixed, harchived⟩ ht
    cases hd
    obtain ⟨hfixed', harchived'⟩ := Badge.fixed_of_apply hfixed ht
    refine ⟨d'.status, ?_, hfixed', fun h => harchived' (harchived h)⟩
    rw [Badge.eq_of_apply ht]
  criterion := by
    rintro d cid r c ⟨status, hd, hfixed, -⟩ hc
    cases hd
    have hedit : status.isEditable = true := (Badge.prepare_eq_ok_iff.1 hc).1
    rw [Status.fixed_iff.1 hfixed] at hedit
    cases hedit

namespace Store

variable {σ : Type} [Store σ]

def awardOf (s : σ) (b : BadgeId) (l : LearnerId) : Except StoreError (Option Award) :=
  (perform (.award b l) s).map (·.1)

/-- Operations that neither add an award of a badge nor remove the badge. -/
def LeavesAwards (id : BadgeId) : (op : Operation) → op.Answer → Prop
  | .insertAward a, added => added = true → a.badge ≠ id
  | .deleteBadge id', _ => id' ≠ id
  | _, _ => True

/-- Of a badge, the store changes an award only when one is added or the badge is removed. -/
def KeepsAwards (σ : Type) [Store σ] : Prop :=
  ∀ {s s' : σ} {op : Operation} {a : op.Answer} {id : BadgeId}, perform op s = .ok (a, s') →
    LeavesAwards id op a → ∀ l, awardOf s' id l = awardOf s id l

end Store

theorem Ledger.keepsAwards : Store.KeepsAwards Ledger := by
  intro s s' op a id h hleaves l
  suffices s'.awards.get? ⟨id, l⟩ = s.awards.get? ⟨id, l⟩ by
    show Except.ok (s'.awards.get? ⟨id, l⟩) = Except.ok (s.awards.get? ⟨id, l⟩)
    rw [this]
  cases effect_of_perform h with
  | deleteBadge =>
    dsimp only
    rw [Register.get?_filter]
    cases s.awards.get? ⟨id, l⟩ with
    | none => rfl
    | some a => simp [Option.filter, Ne.symm (b := id) hleaves]
  | insertAward =>
    refine Register.get?_insert_of_ne _ ?_ _
    intro heq
    exact hleaves rfl (congrArg Pair.fst heq).symm
  | _ => rfl

theorem Tables.keepsAwards : Store.KeepsAwards Tables := by
  intro s s' op a id h hleaves l
  suffices s'.issued.find? (fun r => r.badge == id && r.learner == l) =
      s.issued.find? fun r => r.badge == id && r.learner == l by
    show ((s'.award? id l).map (·, s')).map (·.1) = ((s.award? id l).map (·, s)).map (·.1)
    unfold award?
    rw [this]
    cases s.issued.find? fun r => r.badge == id && r.learner == l with
    | none => rfl
    | some r => cases hr : r.read <;> simp [hr, Except.map]
  cases effect_of_perform h with
  | deleteBadge =>
    dsimp only
    rw [List.find?_filter]
    congr 1
    funext r
    have hne : _ ≠ id := hleaves
    rw [Bool.eq_iff_iff]
    simp only [Bool.and_eq_true, decide_eq_true_eq, beq_iff_eq]
    exact ⟨And.right, fun hr => ⟨fun heq => hne (heq.symm.trans hr.1), hr⟩⟩
  | @insertAward aw =>
    have hother : aw.badge ≠ id := hleaves rfl
    simp [List.find?_append, Award.row, hother]
  | _ => rfl

namespace Review

open Run

variable {σ : Type} [Store σ] {R : Ledger → σ → Prop} {form : Badge → Badge} {setting : Setting}
  {now : Instant} {id : BadgeId} {t₀ : σ} {n₀ : List Notice}

/-- Since `t₀` nobody was awarded the badge, and nobody was told so. -/
def Unawarded (id : BadgeId) (t₀ : σ) (n₀ : List Notice) : Assertion σ := fun t n =>
  (∀ l, Store.awardOf t id l = Store.awardOf t₀ id l) ∧
    ∃ new, n = new ++ n₀ ∧ ∀ notice ∈ new, notice.badge ≠ id

theorem Unawarded.reaches {t t' : σ} {n : List Notice} (hkeeps : Store.KeepsAwards σ)
    (h : Unawarded id t₀ n₀ t n) (hpath : Store.Reaches (Store.LeavesAwards id) t t') :
    Unawarded id t₀ n₀ t' n := by
  refine ⟨fun l => ?_, h.2⟩
  rw [← h.1 l]
  exact hpath.preserves (I := fun u => Store.awardOf u id l = Store.awardOf t id l)
    (fun hu hop hleaves => (hkeeps hop hleaves l).trans hu) rfl

theorem Minor.leavesAwards {b : Badge} {l : LearnerId} {op : Operation} {a : op.Answer}
    (h : Minor b l now op a) : Store.LeavesAwards id op a := by
  cases op with
  | insertAward aw =>
    intro hadded
    rw [show a = false from h] at hadded
    cases hadded
  | deleteBadge => cases h
  | _ => trivial

theorem keeps_unawarded (hkeeps : Store.KeepsAwards σ) {b : Badge} (hb : b.id ≠ id)
    (l : LearnerId) : Keeps setting (Unawarded id t₀ n₀) (learner b l now) := by
  refine Triple.intro fun t n h => ?_
  have hminor : ∀ {u u' : σ}, Store.Reaches (Minor b l now) u u' →
      Store.Reaches (Store.LeavesAwards id) u u' := fun hpath =>
    hpath.mono fun _ _ => Minor.leavesAwards
  have hcourse : Triple setting (Along (Minor b l now) t n) (learner b l now) _ _ :=
    triple_learner
  refine hcourse.weaken ?_ (fun outcome t' n' hend => ?_) fun cut t' n' hend => ?_
  · rintro t' n' ⟨rfl, rfl⟩
    exact ⟨.refl, rfl⟩
  · cases outcome with
    | awarded a =>
      obtain ⟨t₁, t₂, token, hbefore, hissue, hinsert, hafter, rfl⟩ := hend
      have hbadge : a.badge ≠ id := by rwa [(Award.key_of_issue hissue).1]
      have hpath := ((hminor hbefore).step hinsert fun _ => hbadge).trans (hminor hafter)
      obtain ⟨hsame, new, rfl, hnew⟩ := h.reaches hkeeps hpath
      refine ⟨hsame, a.notice b :: new, rfl, fun notice hmem => ?_⟩
      rcases List.mem_cons.1 hmem with rfl | hmem
      · exact hb
      · exact hnew notice hmem
    | pending | alreadyAwarded =>
      obtain ⟨hpath, rfl⟩ := hend
      exact h.reaches hkeeps (hminor hpath)
  · obtain ⟨hpath, rfl⟩ := hend.kept
    exact h.reaches hkeeps (hminor hpath)

/-- A pass selects no archived badge, so it awards none. -/
theorem pass_unawarded (C : FaithfulCatalog R form) (hkeeps : Store.KeepsAwards σ) {s : Ledger}
    {w : World σ} {b : Badge} (hs : R s w.store) (hb : s.badges.get? id = some b)
    (harchived : b.status = .archived) :
    Unawarded id w.store w.sent ((pass now).exec setting w).2.store
      ((pass now).exec setting w).2.sent := by
  have hselected : ∀ d ∈ s.badges.values.map form, Reviewable setting.facts now d → d.id ≠ id := by
    intro d hd hreviewable hid
    have hactive := hreviewable.1
    rw [C.eq_form_of_id hs hb hd hid, C.status_form, harchived] at hactive
    cases hactive
  have hstart : Unawarded id w.store w.sent w.store w.sent :=
    ⟨fun _ => rfl, [], rfl, fun _ h => absurd h List.not_mem_nil⟩
  have hbadges : Keeps setting (Unawarded id w.store w.sent)
      (badges now (s.badges.values.map form) : Run σ ReviewError Report) :=
    (triple_badges_of fun d hd hreviewable l _ =>
      Keeps.attempt (keeps_unawarded hkeeps (hselected d hd hreviewable) l)).weaken
        (fun _ _ h => h) (fun _ _ _ h => h.1) fun _ _ _ h => h
  have hpass : Triple setting (fun t n => t = w.store ∧ n = w.sent) (pass now)
      (fun _ => Unawarded id w.store w.sent) fun _ => Unawarded id w.store w.sent :=
    triple_pass_listed (C.badges hs) (fun _ _ => hstart) (hbadges.starting hstart)
  exact hpass.after ⟨rfl, rfl⟩

end Review

/-- What is still true in a world of a badge `b` that was locked or archived. -/
structure KeptFixed {σ : Type} [Store σ] (b : Badge) (w : World σ) : Prop where
  /-- It is stored as it was but for its status, which is locked or archived. -/
  stored : ∃ status : Status, Store.badge? w.store b.id = some { b with status := status } ∧
    status.Fixed ∧ (b.status = .archived → status = .archived)
  addCriterion : ∀ r, Store.perform (.addCriterion b.id r) w.store = .error (.locked b.id)
  deleteCriterion : ∀ c, b.Owns c →
    Store.perform (.deleteCriterion c) w.store = .error (.locked b.id)
  /-- If it was archived, no pass awards it to anybody. -/
  unawarded : b.status = .archived → ∀ (setting : Setting) (now : Instant),
    Review.Unawarded b.id w.store w.sent ((Review.pass now).exec setting w).2.store
      ((Review.pass now).exec setting w).2.sent

/-- Once a badge is stored with a locked or archived status, it is kept fixed by every chronicle in
which it is not deleted. -/
def LocksLast {σ : Type} [Store σ] (start : σ) : Prop :=
  ∀ (past later : List Event) (id : BadgeId) (b : Badge),
    let w := (World.ofStore start).through past
    Store.badge? w.store id = some b → b.status.Fixed →
    w.Throughout (fun e w => ¬ e.performs (.deleteBadge id) w) later →
    KeptFixed b (w.through later)

section Catalog

variable {σ : Type} [Store σ] {R : Ledger → σ → Prop} {form : Badge → Badge}

theorem Event.spares_fixedIn {b : Badge} {id : BadgeId} (es : List Event) {w : World σ}
    (h : w.Throughout (fun e w => ¬ e.performs (.deleteBadge id) w) es) :
    w.Throughout (Event.Spares R id b.FixedIn) es := by
  induction es generalizing w with
  | nil => trivial
  | cons e es ih =>
    refine ⟨⟨fun hdelete => absurd hdelete h.1, ?_⟩, ih h.2⟩
    rintro c s d - - - hedit - ⟨status, hd, hfixed, -⟩
    cases hd
    rw [show Badge.isEditable _ = status.isEditable from rfl, Status.fixed_iff.1 hfixed] at hedit
    cases hedit

theorem FaithfulCatalog.locksLast (C : FaithfulCatalog R form) (hkeeps : Store.KeepsAwards σ)
    {start : σ} (hstart : ∃ s, R s start) : LocksLast start := by
  intro past later id b w hb hfixed hdelete
  obtain ⟨s, hs⟩ := C.exists_through (w := .ofStore start) hstart past
  obtain ⟨d, hd, rfl⟩ := C.exists_of_badge? hs hb
  have hid : (form d).id = id := by rw [C.id_form, ((C.sound hs).badge hd).id_eq]
  rw [C.status_form] at hfixed
  have hstands : Stands R id d.FixedIn w.store w.sent :=
    ⟨s, hs, d.status, hd, hfixed, fun h => h⟩
  obtain ⟨s', hs', status, hd', hfixed', harchived⟩ :=
    (lifeLaw_fixedIn d id).stands_through C later hstands (Event.spares_fixedIn later hdelete)
  have hedit : Badge.isEditable { d with status := status } = false := Status.fixed_iff.1 hfixed'
  have hshown : Store.badge? (w.through later).store id =
      some { form d with status := status } := by
    rw [C.badge?_eq hs', hd', Option.map_some, C.form_setStatus]
  constructor
  · refine ⟨status, (congrArg (Store.badge? _) hid).trans hshown, hfixed', ?_⟩
    rwa [C.status_form]
  · intro r
    rw [hid]
    exact C.addCriterion_locked r hs' hd' hedit
  · intro c hc
    rw [hid]
    refine C.deleteCriterion_locked hs' hd' hedit ?_
    exact (Badge.owns_of_roles (C.roles_form hs hd)).1 hc
  · intro h setting now
    rw [C.status_form] at h
    rw [hid]
    exact Review.pass_unawarded C hkeeps hs' hd' (harchived h)

end Catalog

/-- At either store a lock is permanent: whatever is done and whichever calls fail, a badge that was
stored as locked or archived stays so until it is deleted, its criteria stay as they are and refuse
to be changed, and if it is archived it stays archived and no pass awards it. -/
theorem ledger_and_tables_locks_last : LocksLast Ledger.empty ∧ LocksLast Tables.empty :=
  ⟨Ledger.faithfulCatalog.locksLast Ledger.keepsAwards ⟨_, rfl, Ledger.sound_empty⟩,
    Tables.faithfulCatalog.locksLast Tables.keepsAwards ⟨_, .empty⟩⟩

/-- A chronicle in which an archived badge is left alone: it cannot be activated again, it loses no
criterion, and a pass finds nobody to award it to. -/
def archivedChronicle (setting : Setting) (now : Instant) : List Event :=
  [⟨setting, .change ⟨1⟩ .activate⟩, ⟨setting, .operation (.deleteCriterion ⟨2⟩) rfl⟩,
    ⟨setting, .pass now⟩]

theorem ledger_and_tables_locks_last_archived :
    let now : Instant := ⟨0, 0, by decide, by decide, by decide, by decide⟩
    let setting : Setting := ⟨Review.connectedLearner.source, .empty, fun _ => "token"⟩
    let past : List Event :=
      [⟨setting, .create Review.networkerDefinition⟩, ⟨setting, .change ⟨1⟩ .archive⟩]
    let ledger := (World.ofStore Ledger.empty).through past
    let tables := (World.ofStore Tables.empty).through past
    (Store.badge? ledger.store ⟨1⟩ = some (Review.networker .archived) ∧
      Store.badge? tables.store ⟨1⟩ = some (Review.networker .archived)) ∧
    (Review.networker .archived).status.Fixed ∧
    KeptFixed (Review.networker .archived) (ledger.through (archivedChronicle setting now)) ∧
    KeptFixed (Review.networker .archived) (tables.through (archivedChronicle setting now)) := by
  intro now setting past ledger tables
  have hledger : Store.badge? ledger.store ⟨1⟩ = some (Review.networker .archived) := by
    decide +kernel
  have htables : Store.badge? tables.store ⟨1⟩ = some (Review.networker .archived) := by
    decide +kernel
  have hfixed : (Review.networker .archived).status.Fixed := .inr rfl
  have hkept : ∀ {σ : Type} [Store σ] (w : World σ),
      w.Throughout (fun e w => ¬ e.performs (.deleteBadge ⟨1⟩) w)
        (archivedChronicle setting now) := by
    intro σ _ w
    refine ⟨?_, ?_, ?_, trivial⟩ <;> rintro ⟨⟨_, hdeed⟩, -⟩ <;> cases hdeed
  exact ⟨⟨hledger, htables⟩, hfixed,
    ledger_and_tables_locks_last.1 past _ ⟨1⟩ _ hledger hfixed (hkept ledger),
    ledger_and_tables_locks_last.2 past _ ⟨1⟩ _ htables hfixed (hkept tables)⟩

end Badging
