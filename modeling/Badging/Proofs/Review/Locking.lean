import Badging.Proofs.History
import Badging.Proofs.Review.Again
import Badging.Proofs.Service
import Badging.Proofs.Store.Catalog

/-!
# The lock after an award

A badge should be locked with its first award. For this a review reads the badge once more when it
has issued it, and `Badge.afterAward` is what it then makes of the stored badge: one that is active
is locked, and every other one is left as it is. A draft is among the others. It can be awarded, as
a review does not ask whether the badge is available, and its criteria may be changed after that.

The argument is about the badges of a store only, so it is made for a `Catalog`, and ledgers and
tables are its instances.
-/

namespace Badging

/-- A stored badge after an award of it. -/
def Badge.afterAward (b : Badge) : Badge := if b.status = .active then b.lock else b

theorem Badge.isEditable_afterAward_iff {b : Badge} :
    b.afterAward.isEditable = true ↔ b.status = .draft := by
  unfold afterAward
  split
  · next h => simp [isEditable, lock, h]
  · next h => cases hb : b.status <;> simp_all [isEditable, Status.isEditable, Status.isLocked]

/-- A badge that is available, or was when it was locked, is locked after an award. -/
theorem Badge.afterAward_of_isActive {b d : Badge} (hb : b.status.isActive = true)
    (hd : d = b ∨ d = b.lock) : d.afterAward = b.lock := by
  have hstatus : b.status = .active ∨ b.lock = b := by
    obtain ⟨id, name, owner, status, expiry, criteria⟩ := b
    cases status <;> simp_all [lock, Status.isActive, Status.locked]
  rcases hstatus with hactive | hlocked
  · rcases hd with rfl | rfl
    · simp [afterAward, hactive]
    · simp [afterAward, lock, hactive, Status.locked]
  · have hdb : d = b := by
      rcases hd with rfl | rfl
      · rfl
      · exact hlocked
    subst hdb
    unfold afterAward
    split
    · rfl
    · exact hlocked.symm

theorem Catalog.form_afterAward {σ : Type} [Store σ] {R : Ledger → σ → Prop} {form : Badge → Badge}
    (C : Catalog R form) (b : Badge) : form b.afterAward = (form b).afterAward := by
  unfold Badge.afterAward
  rw [C.status_form]
  split
  · exact C.form_lock b
  · rfl

namespace Review

open Run

section Stored

variable {σ : Type} [Store σ] {R : Ledger → σ → Prop} {form : Badge → Badge}
  {B : Register BadgeId Badge} {setting : Setting} {b : Badge} {l : LearnerId} {now : Instant}

/-- The badges of a store after a review that started with those of `B`. -/
def Locks (R : Ledger → σ → Prop) (B : Register BadgeId Badge) (id : BadgeId) :
    Outcome → Assertion σ
  | .awarded _ => fun t _ => ∃ d, B.get? id = some d ∧ Shows R (B.insert id d.afterAward) t
  | _ => fun t _ => Shows R B t

variable (C : Catalog R form) (hspared : setting.faults.SparesStore)

include C hspared

theorem triple_lockAwarded {id : BadgeId} {d : Badge} (hd : B.get? id = some d) :
    Triple setting (fun t _ => Shows R B t) (lockAwarded id)
      (fun _ t _ => Shows R (B.insert id d.afterAward) t) fun _ _ _ => False := by
  have hread : Triple setting (fun t _ => Shows R B t) (Run.perform (.badge id))
      (fun stored t _ => stored = some (form d) ∧ Shows R B t)
      (fun _ _ _ => False) := by
    refine Triple.perform_spared hspared fun t n ht => ?_
    obtain ⟨s, hs, rfl⟩ := ht
    exact ⟨_, t, C.badge id hs, fun _ => ⟨by rw [hd]; rfl, s, hs, rfl⟩⟩
  refine Triple.bind hread fun stored => Triple.intro fun t n ht => ?_
  obtain ⟨rfl, ht⟩ := ht
  dsimp only
  rw [C.status_form]
  split
  · next hactive =>
    refine Triple.perform_spared hspared fun t' n' h => ?_
    obtain ⟨rfl, rfl⟩ := h
    obtain ⟨t', hperform, ht'⟩ := C.shows_setStatus (form d).lock.status ht hd
    refine ⟨(), t', hperform, fun _ => ?_⟩
    rw [Badge.afterAward, if_pos hactive]
    rwa [Badge.lock, C.status_form] at ht'
  · next hactive =>
    refine Triple.pure fun t' n' h => ?_
    obtain ⟨rfl, rfl⟩ := h
    rw [Badge.afterAward, if_neg hactive, Register.insert_of_get? hd]
    exact ht

/-- The insert of an award finds the badge, and the lock after it finds it, too. -/
theorem triple_issue_locks :
    Triple setting (fun t _ => Shows R B t) (issue b l now) (Locks R B b.id)
      fun _ t _ => Shows R B t := by
  refine Triple.bind (Triple.freshToken (Q := fun _ t _ => Shows R B t) fun _ _ _ h => h)
    fun token => ?_
  cases ha : Award.issue b l now token with
  | error p => exact Triple.breakOff fun _ _ h => h
  | ok a =>
    dsimp only
    have hbadge : a.badge = b.id := (Award.key_of_issue ha).1
    have hinsert : Triple setting (fun t _ => Shows R B t) (call (.insertAward a))
        (fun added t _ => Shows R B t ∧ (added = true → ∃ d, B.get? b.id = some d))
        fun _ t _ => Shows R B t := by
      refine Triple.mapError (Triple.perform (E := fun _ t _ => Shows R B t)
        (fun _ _ _ h _ => h) fun h added t t' n ht hop => ?_) (fun _ _ _ h => h) fun _ _ _ h => h
      refine ⟨C.shows_of_perform rfl ht hop, fun hadded => ?_⟩
      obtain ⟨s, hs, rfl⟩ := ht
      subst hadded
      rw [← hbadge]
      exact C.insertAward hs hop
    refine Triple.bind hinsert fun added => ?_
    cases added with
    | false => exact Triple.pure fun _ _ h => h.1
    | true =>
      refine Triple.assume fun hstored => ?_
      obtain ⟨d, hd⟩ := hstored rfl
      have hlock : Triple setting (fun t _ => Shows R B t) (lockAwarded b.id) _ _ :=
        triple_lockAwarded C hspared hd
      refine Triple.bind (Q := fun _ t _ => Shows R (B.insert b.id d.afterAward) t)
        (Triple.attempt hlock (fun _ _ _ h => h) (fun _ _ _ h => h.elim) fun _ _ _ h => h.elim)
        fun _ => ?_
      refine Triple.bind (Q := fun _ t _ => Shows R (B.insert b.id d.afterAward) t)
        (Triple.notify fun _ _ h => h) fun _ => ?_
      exact Triple.pure fun _ _ h => ⟨d, hd, h⟩

theorem triple_learner_locks :
    Triple setting (fun t _ => Shows R B t) (learner b l now) (Locks R B b.id)
      fun _ t _ => Shows R B t := by
  have hkept : ∀ {op : Operation}, op.editsBadges = false →
      Upholds setting (fun t _ => Shows R B t) (Run.perform op) :=
    fun hop => Upholds.perform fun _ _ _ _ ht hperform => C.shows_of_perform hop ht hperform
  refine triple_learner_of_issue (fun hop => hkept (Operation.editsBadges_of_isReading hop))
    (fun _ _ => hkept rfl) (fun _ _ _ h => h) (fun outcome t n hother h => ?_)
    (triple_issue_locks C hspared)
  cases outcome with
  | awarded a => cases hother
  | pending | alreadyAwarded => exact h

/-- What an award does to the stored badge: it can be edited afterwards exactly if it is stored as a
draft. -/
def LocksUnlessDraft (setting : Setting) (b : Badge) (l : LearnerId) (now : Instant) (w : World σ) :
    Prop :=
  ∀ a w', (learner b l now).exec setting w = (.done (.awarded a), w') →
    ∃ d, Store.badge? w.store b.id = some d ∧ Store.badge? w'.store b.id = some d.afterAward ∧
      (d.afterAward.isEditable = true ↔ d.status = .draft)

theorem locksUnlessDraft {w : World σ} (hw : Shows R B w.store) :
    LocksUnlessDraft setting b l now w := by
  intro a w' hexec
  have hlearner : Triple setting (fun t _ => Shows R B t) (learner b l now) _ _ :=
    triple_learner_locks C hspared
  obtain ⟨d, hd, hw'⟩ := hlearner.of_exec_done hw hexec
  refine ⟨form d, ?_, ?_, Badge.isEditable_afterAward_iff⟩
  · rw [C.badge?_eq hw, hd]
    rfl
  · rw [C.badge?_eq hw', Register.get?_insert_self, ← C.form_afterAward]
    rfl

end Stored

/-- At either store, whatever happened before, a badge that a review has awarded is locked or
archived unless it was stored as a draft, provided that the store does what it is asked. -/
theorem ledger_and_tables_lock_unless_draft (past : List Turn) (setting : Setting)
    (hspared : setting.faults.SparesStore) (b : Badge) (l : LearnerId) (now : Instant) :
    LocksUnlessDraft setting b l now ((World.ofStore Ledger.empty).after past) ∧
      LocksUnlessDraft setting b l now ((World.ofStore Tables.empty).after past) := by
  obtain ⟨s, hs⟩ := Ledger.catalog.exists_of_reaches (s := .empty) rfl
    (Turn.reaches_after (World.ofStore Ledger.empty) past)
  obtain ⟨s', hs'⟩ := Tables.catalog.exists_of_reaches Tables.HasBadges.empty
    (Turn.reaches_after (World.ofStore Tables.empty) past)
  exact ⟨locksUnlessDraft Ledger.catalog hspared ⟨s, hs, rfl⟩,
    locksUnlessDraft Tables.catalog hspared ⟨s', hs', rfl⟩⟩

/-- The operations of a list as turns in one setting. -/
def turns (setting : Setting) (ops : List Operation) : List Turn :=
  ops.map fun op => ⟨setting, .operation op⟩

/-- The badge that `networkBadge` makes, with a status. -/
def networker (status : Status) : Badge :=
  ⟨⟨1⟩, "Networker", .site, status, .never,
    [⟨⟨1⟩, ⟨1⟩, .all, none, .overall⟩, ⟨⟨2⟩, ⟨1⟩, .all, none, .social ["web"]⟩]⟩

def networkerDefinition : Definition :=
  ⟨"Networker", .site, .never, true, [⟨"overall", .all, none, .empty⟩,
    ⟨"social", .all, none, .ofList [("social_web", "")]⟩]⟩

/-- The only award of this badge that a review of the connected learner could issue. -/
def networkAward (now : Instant) : Award := ⟨⟨1⟩, ⟨7⟩, now, none, "token", true⟩

/-- The badge is awarded at either store while it is available. -/
theorem ledger_and_tables_lock_networker :
    let now : Instant := ⟨0, 0, by decide, by decide, by decide, by decide⟩
    let setting : Setting := ⟨connectedLearner.source, .empty, fun _ => "token"⟩
    let ledger := (World.ofStore Ledger.empty).after (turns setting networkBadge)
    let tables := (World.ofStore Tables.empty).after (turns setting networkBadge)
    setting.faults.SparesStore ∧
      ((learner (networker .active) ⟨7⟩ now).exec setting ledger).1 =
        .done (.awarded (networkAward now)) ∧
      ((learner (networker .active) ⟨7⟩ now).exec setting tables).1 =
        .done (.awarded (networkAward now)) ∧
      LocksUnlessDraft setting (networker .active) ⟨7⟩ now ledger ∧
      LocksUnlessDraft setting (networker .active) ⟨7⟩ now tables := by
  refine ⟨fun _ _ => rfl, by decide +kernel, by decide +kernel, ?_⟩
  exact ledger_and_tables_lock_unless_draft _ _ (fun _ _ => rfl) _ _ _

/-- The badge is awarded as well if nobody made it available, and it stays a draft. -/
theorem draft_stays_editable_after_award :
    let now : Instant := ⟨0, 0, by decide, by decide, by decide, by decide⟩
    let setting : Setting := ⟨connectedLearner.source, .empty, fun _ => "token"⟩
    let ledger := (World.ofStore Ledger.empty).after (turns setting networkBadge.dropLast)
    let tables := (World.ofStore Tables.empty).after (turns setting networkBadge.dropLast)
    let reviewLedger := (learner (networker .draft) ⟨7⟩ now).exec setting ledger
    let reviewTables := (learner (networker .draft) ⟨7⟩ now).exec setting tables
    (Store.badge? ledger.store ⟨1⟩ = some (networker .draft) ∧
      Store.badge? tables.store ⟨1⟩ = some (networker .draft)) ∧
    (reviewLedger.1 = .done (.awarded (networkAward now)) ∧
      reviewTables.1 = .done (.awarded (networkAward now))) ∧
    (Store.badge? reviewLedger.2.store ⟨1⟩ = some (networker .draft) ∧
      Store.badge? reviewTables.2.store ⟨1⟩ = some (networker .draft)) ∧
    (networker .draft).isEditable = true := by
  decide +kernel

end Review

end Badging
