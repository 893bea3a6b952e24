import Badging.Proofs.History
import Badging.Proofs.Store.Ledger.Sound
import Badging.Proofs.Store.Rows
import Badging.Proofs.Store.Tables.Effect

/-!
# An award is won once

Over a whole history a learner wins an award of a badge at most once, whatever the badges that
reviews are given, the facts, the times and the faults are. This rests on four laws of a store: an
insert is answered with `true` only for a badge that may have awards and a learner who has none; a
row that is there stays as it is until its badge is deleted; a deleted badge is spent; and a
spent badge stays spent, since no identity is given out twice.

So from the moment of an award on, the badge and the learner are closed: there is a row, or
the badge is spent. No operation opens them again.
-/

namespace Badging

/-- The rows that a ledger holds of a badge and a learner: at most one. -/
def Ledger.issuedTo (s : Ledger) (b : BadgeId) (l : LearnerId) : List Award :=
  (s.awards.get? ⟨b, l⟩).toList

/-- An award is won at most once, its row is kept, and it is announced once. `issuedTo` are the rows
of a badge and a learner, and `row` is the row of an award. -/
structure AwardsOnce {σ ρ : Type} [Store σ] (start : σ)
    (issuedTo : σ → BadgeId → LearnerId → List ρ) (row : Award → ρ) : Prop where
  /-- Of two turns that win an award, the awards are of two badges or of two learners. -/
  once : ∀ (before between : List Turn) (t t' : Turn) (a a' : Award),
    t.won? ((World.ofStore start).after before) = some a →
    t'.won? ((World.ofStore start).after (before ++ t :: between)) = some a' →
    ¬ (a.badge = a'.badge ∧ a.learner = a'.learner)
  /-- After an award there is its row and no other, until a turn deletes the badge. -/
  kept : ∀ (before later : List Turn) (t : Turn) (a : Award),
    t.won? ((World.ofStore start).after before) = some a →
    (∀ done t' rest, later = done ++ t' :: rest →
      ¬ t'.deletes a.badge ((World.ofStore start).after (before ++ t :: done))) →
    issuedTo ((World.ofStore start).after (before ++ t :: later)).store a.badge a.learner = [row a]
  /-- A turn sends one notice if it is a review that ends with an award, and none otherwise. -/
  announced : ∀ (before : List Turn) (t : Turn),
    ((World.ofStore start).after (before ++ [t])).sent =
      (t.notice? ((World.ofStore start).after before)).toList ++
        ((World.ofStore start).after before).sent
  /-- The award of a review is for the badge and the learner that were reviewed, at the time of the
  review, with the end that the policy of the badge gives. -/
  terms : ∀ (before : List Turn) (setting : Setting) (b : Badge) (l : LearnerId) (now : Instant)
    (a : Award),
    Turn.won? ⟨setting, .review b l now⟩ ((World.ofStore start).after before) = some a →
    a.badge = b.id ∧ a.learner = l ∧ a.issuedAt = now ∧ b.expiry.endOf now = .ok a.expiresAt

/-- What a store has to guarantee for an award to be won once. `Inv` holds of its states, and
`Spent` of the badges that were deleted. -/
structure AwardLaws {σ ρ : Type} [Store σ] (Inv : σ → Prop) (Spent : σ → BadgeId → Prop)
    (issuedTo : σ → BadgeId → LearnerId → List ρ) (row : Award → ρ) : Prop where
  inv : ∀ {s s' : σ} {op : Operation} {x : op.Answer},
    Inv s → Store.perform op s = .ok (x, s') → Inv s'
  insert : ∀ {s s' : σ} {a : Award}, Store.perform (.insertAward a) s = .ok (true, s') →
    ¬ Spent s a.badge ∧ issuedTo s a.badge a.learner = [] ∧
      issuedTo s' a.badge a.learner = [row a]
  keep : ∀ {s s' : σ} {op : Operation} {x : op.Answer} {b : BadgeId} {l : LearnerId},
    Store.perform op s = .ok (x, s') → Store.Sparing b op x → issuedTo s b l ≠ [] →
      issuedTo s' b l = issuedTo s b l
  delete : ∀ {s s' : σ} {b : BadgeId} {x : Unit}, Inv s →
    Store.perform (.deleteBadge b) s = .ok (x, s') → Spent s' b
  spent : ∀ {s s' : σ} {op : Operation} {x : op.Answer} {b : BadgeId},
    Spent s b → Store.perform op s = .ok (x, s') → Spent s' b

namespace AwardLaws

variable {σ ρ : Type} [Store σ] {Inv : σ → Prop} {Spent : σ → BadgeId → Prop}
  {issuedTo : σ → BadgeId → LearnerId → List ρ} {row : Award → ρ}
  {s s' : σ} {b : BadgeId} {l : LearnerId}

/-- A badge and a learner for whom no award can be inserted any more. -/
def Closed (Spent : σ → BadgeId → Prop) (issuedTo : σ → BadgeId → LearnerId → List ρ)
    (b : BadgeId) (l : LearnerId) (s : σ) : Prop :=
  issuedTo s b l ≠ [] ∨ Spent s b

theorem inv_of_reaches (laws : AwardLaws Inv Spent issuedTo row) (hs : Inv s)
    (h : Store.Reaches Store.Anything s s') : Inv s' :=
  h.preserves (fun hs hop _ => laws.inv hs hop) hs

theorem closed_step (laws : AwardLaws Inv Spent issuedTo row) {op : Operation} {x : op.Answer}
    (hs : Inv s) (hclosed : Closed Spent issuedTo b l s)
    (hop : Store.perform op s = .ok (x, s')) : Closed Spent issuedTo b l s' := by
  rcases hclosed with hrow | hspent
  · by_cases hsparing : Store.Sparing b op x
    · left
      rw [laws.keep hop hsparing hrow]
      exact hrow
    · right
      cases op with
      | deleteBadge id =>
        obtain rfl : id = b := not_not.1 hsparing
        exact laws.delete hs hop
      | _ => exact absurd trivial hsparing
  · exact .inr (laws.spent hspent hop)

theorem closed_of_reaches (laws : AwardLaws Inv Spent issuedTo row) (hs : Inv s)
    (hclosed : Closed Spent issuedTo b l s) (h : Store.Reaches Store.Anything s s') :
    Closed Spent issuedTo b l s' :=
  (h.preserves (I := fun s => Inv s ∧ Closed Spent issuedTo b l s)
    (fun hs hop _ => ⟨laws.inv hs.1 hop, laws.closed_step hs.1 hs.2 hop⟩) ⟨hs, hclosed⟩).2

theorem issuedTo_of_reaches (laws : AwardLaws Inv Spent issuedTo row)
    (h : Store.Reaches (Store.Sparing b) s s') (hrow : issuedTo s b l ≠ []) :
    issuedTo s' b l = issuedTo s b l := by
  induction h with
  | refl => rfl
  | step _ hop hsparing ih => rw [laws.keep hop hsparing (by rwa [ih]), ih]

theorem inv_after (laws : AwardLaws Inv Spent issuedTo row) {w : World σ} (hw : Inv w.store)
    (ts : List Turn) : Inv (w.after ts).store := by
  induction ts generalizing w with
  | nil => exact hw
  | cons t ts ih => exact ih (laws.inv_of_reaches hw (t.reaches w))

theorem closed_after (laws : AwardLaws Inv Spent issuedTo row) {w : World σ} (hw : Inv w.store)
    (hclosed : Closed Spent issuedTo b l w.store) (ts : List Turn) :
    Closed Spent issuedTo b l (w.after ts).store := by
  induction ts generalizing w with
  | nil => exact hclosed
  | cons t ts ih =>
    exact ih (laws.inv_of_reaches hw (t.reaches w))
      (laws.closed_of_reaches hw hclosed (t.reaches w))

theorem issuedTo_after (laws : AwardLaws Inv Spent issuedTo row) {w : World σ}
    (hrow : issuedTo w.store b l ≠ []) (ts : List Turn)
    (h : ∀ done t rest, ts = done ++ t :: rest → ¬ Turn.deletes t b (w.after done)) :
    issuedTo (w.after ts).store b l = issuedTo w.store b l := by
  induction ts generalizing w with
  | nil => rfl
  | cons t ts ih =>
    have hnext : issuedTo (t.next w).store b l = issuedTo w.store b l :=
      laws.issuedTo_of_reaches (Turn.reaches_sparing (h [] t ts rfl)) hrow
    have hrest := ih (w := t.next w) (by rwa [hnext]) fun done t' rest heq =>
      h (t :: done) t' rest (by rw [heq, List.cons_append])
    rw [World.after_cons, hrest, hnext]

/-- When an award is won, its badge and its learner were not closed and are so afterwards, with the
one row. -/
theorem of_won (laws : AwardLaws Inv Spent issuedTo row) {w : World σ} (hw : Inv w.store)
    {t : Turn} {a : Award} (h : t.won? w = some a) :
    ¬ Closed Spent issuedTo a.badge a.learner w.store ∧
      issuedTo (t.next w).store a.badge a.learner = [row a] := by
  obtain ⟨s₁, s₂, hs₁, hop, hs₂⟩ := Turn.reaches_of_won h
  obtain ⟨hspent, hnone, hrow⟩ := laws.insert hop
  constructor
  · intro hclosed
    rcases laws.closed_of_reaches hw hclosed hs₁ with hsome | hspent'
    · exact hsome hnone
    · exact hspent hspent'
  · rw [laws.issuedTo_of_reaches hs₂ (by rw [hrow]; exact List.cons_ne_nil _ _), hrow]

/-- The laws make an award be won once. -/
theorem awardsOnce (laws : AwardLaws Inv Spent issuedTo row) {start : σ} (hstart : Inv start) :
    AwardsOnce start issuedTo row where
  once before between t t' a a' h h' := by
    rintro ⟨hb, hl⟩
    have hw := laws.inv_after (w := World.ofStore start) hstart before
    rw [World.after_append, World.after_cons] at h'
    have hclosed : Closed Spent issuedTo a.badge a.learner
        (t.next ((World.ofStore start).after before)).store := by
      left
      rw [(laws.of_won hw h).2]
      exact List.cons_ne_nil _ _
    have hnext := laws.inv_of_reaches hw (t.reaches _)
    -- The second award asks for an open pair, but nothing opens the one that the first has closed.
    refine (laws.of_won (laws.inv_after hnext between) h').1 ?_
    rw [← hb, ← hl]
    exact laws.closed_after hnext hclosed between
  kept before later t a h hdelete := by
    have hw := laws.inv_after (w := World.ofStore start) hstart before
    have hrow := (laws.of_won hw h).2
    have hsome : issuedTo (t.next ((World.ofStore start).after before)).store a.badge a.learner ≠
        [] := by
      rw [hrow]
      exact List.cons_ne_nil _ _
    rw [World.after_append, World.after_cons, laws.issuedTo_after hsome later, hrow]
    intro done t' rest heq
    have := hdelete done t' rest heq
    rwa [World.after_append, World.after_cons] at this
  announced before t := by
    rw [World.after_append]
    exact t.sent_next _
  terms _ _ _ _ _ _ h := Turn.won_review h

end AwardLaws

namespace Ledger

variable {s s' : Ledger}

/-- A badge that was deleted: its identity was given out, and there is no badge with it. -/
def Spent (s : Ledger) (b : BadgeId) : Prop := b.val ≤ s.lastBadge ∧ s.badges.get? b = none

/-- No badge is stored again under an identity that was given out. -/
theorem Spent.step {op : Operation} {x : op.Answer} {b : BadgeId} (hs : s.Spent b)
    (h : Effect s op x s') : s'.Spent b := by
  obtain ⟨hle, hnone⟩ := hs
  have hother : ∀ {id : BadgeId} {d d' : Badge}, s.badges.get? id = some d →
      (s.badges.insert id d').get? b = none := fun {id d d'} hid => by
    rw [s.badges.get?_insert_of_ne, hnone]
    rintro rfl
    rw [hnone] at hid
    cases hid
  cases h with
  | idle => exact ⟨hle, hnone⟩
  | insertBadge new =>
    refine ⟨by dsimp only; omega, ?_⟩
    dsimp only
    rw [s.badges.get?_insert_of_ne, hnone]
    rintro rfl
    dsimp only at hle
    omega
  | setStatus h => exact ⟨hle, hother h⟩
  | deleteBadge h =>
    refine ⟨hle, ?_⟩
    dsimp only
    rw [Register.get?_erase, hnone, ite_self]
  | addCriterion h => exact ⟨hle, hother h⟩
  | deleteCriterion h => exact ⟨hle, hother (get?_of_ownerOf? h).1⟩
  | markMet => exact ⟨hle, hnone⟩
  | recordManual => exact ⟨hle, hnone⟩
  | insertAward => exact ⟨hle, hnone⟩

theorem issuedTo_ne_nil_iff {b : BadgeId} {l : LearnerId} :
    s.issuedTo b l ≠ [] ↔ s.awards.get? ⟨b, l⟩ ≠ none := by
  simp [issuedTo]

theorem issuedTo_step {op : Operation} {x : op.Answer} {b : BadgeId} {l : LearnerId}
    (h : Effect s op x s') (hsparing : Store.Sparing b op x) (hrow : s.issuedTo b l ≠ []) :
    s'.issuedTo b l = s.issuedTo b l := by
  unfold issuedTo
  congr 1
  cases h with
  | deleteBadge h =>
    dsimp only
    rw [Register.get?_filter]
    cases s.awards.get? ⟨b, l⟩ with
    | none => rfl
    | some a => simp [Option.filter, Ne.symm hsparing]
  | insertAward h ha =>
    dsimp only
    rw [s.awards.get?_insert_of_ne]
    intro heq
    rw [← heq] at ha
    exact issuedTo_ne_nil_iff.1 hrow ha
  | _ => rfl

theorem awardLaws : AwardLaws Sound Spent issuedTo (fun a => a) where
  inv hs hop := hs.effect (effect_of_perform hop)
  insert {s s' a} hop := by
    obtain ⟨⟨b, hb⟩, hnone, rfl⟩ := perform_insertAward_true_iff.1 hop
    refine ⟨fun hspent => ?_, ?_, ?_⟩
    · rw [hspent.2] at hb
      cases hb
    · rw [issuedTo, hnone]
      rfl
    · rw [issuedTo, s.awards.get?_insert_self]
      rfl
  keep hop := issuedTo_step (effect_of_perform hop)
  delete {s s' b x} hs hop := by
    cases effect_of_perform hop with
    | idle h => cases h
    | deleteBadge h => exact ⟨(hs.badge_range h).2, by simp⟩
  spent hspent hop := hspent.step (effect_of_perform hop)

end Ledger

namespace Tables

variable {s s' : Tables}

/-- The identities of stored badges were given out. -/
def BadgesNumbered (s : Tables) : Prop := ∀ r ∈ s.badges, r.id.val ≤ s.lastBadge

def Spent (s : Tables) (b : BadgeId) : Prop := b.val ≤ s.lastBadge ∧ ∀ r ∈ s.badges, r.id ≠ b

theorem mem_setStatus {badges : List BadgeRow} {id : BadgeId} {code : Nat} {r : BadgeRow}
    (h : r ∈ badges.map fun r => if r.id = id then { r with status := code } else r) :
    ∃ r' ∈ badges, r'.id = r.id := by
  obtain ⟨r', hr', rfl⟩ := List.mem_map.1 h
  refine ⟨r', hr', ?_⟩
  split <;> rfl

theorem BadgesNumbered.step {op : Operation} {x : op.Answer} (hs : s.BadgesNumbered)
    (h : Effect s op x s') : s'.BadgesNumbered := by
  cases h with
  | insertBadge new =>
    intro r hr
    rcases List.mem_append.1 hr with hr | hr
    · exact Int.le_trans (hs r hr) (Int.le_of_lt (Int.lt_succ _))
    · rw [List.mem_singleton.1 hr]
      exact Int.le_refl _
  | setStatus h =>
    intro r hr
    obtain ⟨r', hr', hid⟩ := mem_setStatus hr
    rw [← hid]
    exact hs r' hr'
  | deleteBadge h => exact fun r hr => hs r (List.mem_of_mem_filter hr)
  | _ => exact hs

theorem Spent.step {op : Operation} {x : op.Answer} {b : BadgeId} (hs : s.Spent b)
    (h : Effect s op x s') : s'.Spent b := by
  obtain ⟨hle, hnone⟩ := hs
  cases h with
  | insertBadge new =>
    refine ⟨by dsimp only; omega, fun r hr => ?_⟩
    rcases List.mem_append.1 hr with hr | hr
    · exact hnone r hr
    · rw [List.mem_singleton.1 hr]
      rintro rfl
      exact Int.not_le.2 (Int.lt_succ _) hle
  | setStatus h =>
    refine ⟨hle, fun r hr => ?_⟩
    obtain ⟨r', hr', hid⟩ := mem_setStatus hr
    rw [← hid]
    exact hnone r' hr'
  | deleteBadge h => exact ⟨hle, fun r hr => hnone r (List.mem_of_mem_filter hr)⟩
  | _ => exact ⟨hle, hnone⟩

theorem issuedTo_step {op : Operation} {x : op.Answer} {b : BadgeId} {l : LearnerId}
    (h : Effect s op x s') (hsparing : Store.Sparing b op x) (hrow : s.issuedTo b l ≠ []) :
    s'.issuedTo b l = s.issuedTo b l := by
  cases h with
  | deleteBadge h =>
    refine filter_filter_of_imp fun r _ hr => decide_eq_true ?_
    rw [beq_iff_eq.1 (Bool.and_eq_true_iff.1 hr).1]
    exact hsparing.symm
  | @insertAward a h ha =>
    have hother : ¬ (a.badge = b ∧ a.learner = l) := by
      rintro ⟨rfl, rfl⟩
      exact hrow ha
    have hrow' : (a.row.badge == b && a.row.learner == l) = false := by
      simpa [Award.row] using hother
    unfold issuedTo
    dsimp only
    rw [List.filter_append, List.filter_cons_of_neg (by simp [hrow']), List.filter_nil,
      List.append_nil]
  | _ => rfl

theorem awardLaws : AwardLaws BadgesNumbered Spent issuedTo Award.row where
  inv hs hop := hs.step (effect_of_perform hop)
  insert {s s' a} hop := by
    obtain ⟨⟨r, hr, hid⟩, hnone, -, rfl⟩ := perform_insertAward_true_iff.1 hop
    refine ⟨fun hspent => hspent.2 r hr hid, hnone, ?_⟩
    unfold issuedTo at hnone ⊢
    dsimp only
    rw [List.filter_append, hnone, List.nil_append]
    simp [Award.row]
  keep hop := issuedTo_step (effect_of_perform hop)
  delete {s s' b x} hs hop := by
    cases effect_of_perform hop with
    | idle h => cases h
    | deleteBadge h =>
      obtain ⟨r, hr, rfl⟩ := h
      exact ⟨hs r hr, fun r' hr' => by simpa using (List.mem_filter.1 hr').2⟩
  spent hspent hop := hspent.step (effect_of_perform hop)

end Tables

/-- At either store a learner is awarded a badge at most once in any history, the row of the award
is kept, and the award is announced once. In a ledger the row is the award; in the tables it holds
whole seconds. -/
theorem ledger_and_tables_award_once :
    AwardsOnce Ledger.empty Ledger.issuedTo (fun a => a) ∧
      AwardsOnce Tables.empty Tables.issuedTo Award.row :=
  ⟨Ledger.awardLaws.awardsOnce Ledger.sound_empty,
    Tables.awardLaws.awardsOnce fun _ h => absurd h List.not_mem_nil⟩

end Badging
