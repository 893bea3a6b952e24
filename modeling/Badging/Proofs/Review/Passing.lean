import Badging.Proofs.Review.Reviewing
import Badging.Proofs.Review.Selection

/-!
# Passes take a ledger forward

A pass reviews badges and learners in the order in which they are listed, so what holds of single
reviews holds of a pass by going through the lists. `Listed facts now b l` says that a pass at `now`
gets to the learner when it reviews the badge. After a pass that was not cut short from outside,
nothing is left to do for whoever is listed.
-/

namespace Badging

namespace Review

open Run

variable {ε : Type} {setting : Setting} {now : Instant} {D : BadgeId → LearnerId → Prop}
  {s₀ : Ledger} {n₀ : Int} {X : Ledger → Prop} {b : Badge}

/-- A learner for whom nothing is left to do, unless the review was cut short. -/
def Attended (setting : Setting) (s₀ : Ledger) (b : Badge) (l : LearnerId) (s : Ledger) : Prop :=
  Excuse setting s₀ ∨ Finished setting.facts s₀ b l s

theorem lasting_attended {l : LearnerId} : Lasting (Attended setting s₀ b l) :=
  fun hgrown h => h.imp_right (lasting_finished hgrown)

theorem Unanswered.excuse (h : Unanswered setting) : Excuse setting s₀ := by
  refine h.imp (fun hfaults hempty => hfaults ?_) .inl
  rw [hempty]
  exact fun _ _ => rfl

/-- Whoever may be reviewed for a badge belongs to `D` as long as no award is found. -/
def Admits (setting : Setting) (now : Instant) (D : BadgeId → LearnerId → Prop) (s₀ : Ledger)
    (b : Badge) (l : LearnerId) : Prop :=
  ∀ s h, Advance setting.facts now D s₀ s →
    received setting.faults h (.award b.id l) (s.awards.get? ⟨b.id, l⟩) = none → D b.id l

theorem triple_learners (hs₀ : s₀.Sound) (hX : Lasting X) (hb : s₀.badges.get? b.id = some b)
    (ls : List LearnerId) (hD : ∀ l ∈ ls, Admits setting now D s₀ b l) :
    Triple setting (Under setting.facts now D s₀ n₀ X) (learners b now ls : Run Ledger ε Report)
      (fun _ => Under setting.facts now D s₀ n₀ fun s =>
        X s ∧ ∀ l ∈ ls, Attended setting s₀ b l s)
      fun _ s n => Under setting.facts now D s₀ n₀ X s n ∧ Excuse setting s₀ := by
  induction ls generalizing X with
  | nil =>
    exact Triple.pure fun s n h => ⟨h.1, h.2.1, h.2.2, fun _ hl => absurd hl List.not_mem_nil⟩
  | cons l ls ih =>
    have hlearner : Triple setting (Under setting.facts now D s₀ n₀ X) (learner b l now) _ _ :=
      triple_learner_under hs₀ hX hb (hD l List.mem_cons_self)
    refine Triple.bind (Q := fun _ => Under setting.facts now D s₀ n₀ fun s =>
      X s ∧ Attended setting s₀ b l s) ?_ fun outcome => ?_
    · refine Triple.attempt hlearner ?_ ?_ ?_
      · exact fun _ s n h => ⟨h.1, h.2.1, h.2.2.1, .inr h.2.2.2⟩
      · exact fun _ s n h => ⟨h.1.1, h.1.2.1, h.1.2.2, h.2.imp_right (·.2)⟩
      · rintro p s n ⟨hP, hexcuse | ⟨⟨e, he⟩, -⟩⟩
        · exact ⟨hP, hexcuse⟩
        · cases he
    · have hX' : Lasting fun s => X s ∧ Attended setting s₀ b l s := hX.and lasting_attended
      refine Triple.bind ((ih hX' fun l' hl' => hD l' (List.mem_cons_of_mem _ hl')).weaken
        (fun _ _ h => h) (fun _ _ _ h => h) fun _ s n h => ⟨⟨h.1.1, h.1.2.1, h.1.2.2.1⟩, h.2⟩)
        fun rest => Triple.pure fun s n h => ⟨h.1, h.2.1, h.2.2.1.1, ?_⟩
      exact List.forall_mem_cons.2 ⟨h.2.2.1.2, h.2.2.2⟩

theorem triple_badge (hs₀ : s₀.Sound) (hX : Lasting X) (hb : s₀.badges.get? b.id = some b)
    (hD : ∀ l, Listed setting.facts now b l → Admits setting now D s₀ b l) :
    Triple setting (Under setting.facts now D s₀ n₀ X) (badge b now : Run Ledger ε Report)
      (fun _ => Under setting.facts now D s₀ n₀ fun s =>
        X s ∧ ∀ l, Listed setting.facts now b l → Attended setting s₀ b l s)
      fun _ s n => Under setting.facts now D s₀ n₀ X s n ∧ Excuse setting s₀ := by
  refine triple_badge_cases (fun hunanswered _ s n h => ⟨h.1, h.2.1, h.2.2, fun _ _ => ?_⟩)
    (fun hnot s n h => ⟨h.1, h.2.1, h.2.2, fun l hl => absurd hl.1 hnot⟩)
    fun ls hreviewable hls => ?_
  · exact .inl hunanswered.excuse
  · have hlisted : ∀ l, Listed setting.facts now b l ↔ l ∈ ls := fun l => by
      constructor
      · rintro ⟨-, ls', hls', hl⟩
        rw [hls] at hls'
        cases hls'
        exact hl
      · exact fun hl => ⟨hreviewable, ls, hls, hl⟩
    exact (triple_learners hs₀ hX hb ls fun l hl => hD l ((hlisted l).2 hl)).weaken (fun _ _ h => h)
      (fun _ s n h => ⟨h.1, h.2.1, h.2.2.1, fun l hl => h.2.2.2 l ((hlisted l).1 hl)⟩)
      fun _ _ _ h => h

theorem triple_badges (hs₀ : s₀.Sound) (hX : Lasting X) (bs : List Badge)
    (hbs : ∀ b ∈ bs, s₀.badges.get? b.id = some b)
    (hD : ∀ b ∈ bs, ∀ l, Listed setting.facts now b l → Admits setting now D s₀ b l) :
    Triple setting (Under setting.facts now D s₀ n₀ X) (badges now bs : Run Ledger ε Report)
      (fun _ => Under setting.facts now D s₀ n₀ fun s =>
        X s ∧ ∀ b ∈ bs, ∀ l, Listed setting.facts now b l → Attended setting s₀ b l s)
      fun _ s n => Under setting.facts now D s₀ n₀ X s n ∧ Excuse setting s₀ := by
  induction bs generalizing X with
  | nil =>
    exact Triple.pure fun s n h => ⟨h.1, h.2.1, h.2.2, fun _ hb => absurd hb List.not_mem_nil⟩
  | cons b bs ih =>
    have hX' : Lasting fun s =>
        X s ∧ ∀ l, Listed setting.facts now b l → Attended setting s₀ b l s :=
      fun hgrown h => ⟨hX hgrown h.1, fun l hl => lasting_attended hgrown (h.2 l hl)⟩
    refine Triple.bind (triple_badge hs₀ hX (hbs b List.mem_cons_self) (hD b List.mem_cons_self))
      fun report => ?_
    refine Triple.bind ((ih hX' (fun d hd => hbs d (List.mem_cons_of_mem _ hd))
      fun d hd => hD d (List.mem_cons_of_mem _ hd)).weaken (fun _ _ h => h) (fun _ _ _ h => h)
      fun _ s n h => ⟨⟨h.1.1, h.1.2.1, h.1.2.2.1⟩, h.2⟩) fun rest =>
      Triple.pure fun s n h => ⟨h.1, h.2.1, h.2.2.1.1, ?_⟩
    exact List.forall_mem_cons.2 ⟨h.2.2.1.2, h.2.2.2⟩

/-- A pass takes a ledger forward, and if nothing cut it short nothing is left to do for whoever is
listed. -/
theorem triple_pass (hs₀ : s₀.Sound)
    (hD : ∀ {id b}, s₀.badges.get? id = some b → ∀ l, Listed setting.facts now b l →
      Admits setting now D s₀ b l) (m : List Notice) :
    Triple setting (fun s n => s = s₀ ∧ n = m) (pass now)
      (fun _ => Under setting.facts now D s₀ m.length fun s => ∀ id b,
        s₀.badges.get? id = some b → ∀ l, Listed setting.facts now b l → Attended setting s₀ b l s)
      fun _ s n => Under setting.facts now D s₀ m.length (fun _ => True) s n ∧
        Excuse setting s₀ := by
  have hstart : Under setting.facts now D s₀ m.length (fun _ => True) s₀ m :=
    ⟨Advance.refl, rfl, trivial⟩
  have hcall : Triple setting (fun s n => s = s₀ ∧ n = m) (call .badges)
      (fun bs s n => (s = s₀ ∧ n = m) ∧ bs = s₀.badges.values)
      fun _ s n => (s = s₀ ∧ n = m) ∧ setting.faults ≠ .empty :=
    triple_call fun s n h => ⟨s.badges.values, s, rfl, fun _ => ⟨h, by rw [h.1]; rfl⟩⟩
  refine Triple.bind (hcall.weaken (fun _ _ h => h) (fun _ _ _ h => h) ?_) fun bs => ?_
  · rintro _ s n ⟨⟨rfl, rfl⟩, hfaults⟩
    exact ⟨hstart, .inl hfaults⟩
  · refine Triple.intro fun s n h => ?_
    obtain ⟨⟨rfl, rfl⟩, rfl⟩ := h
    have hmem : ∀ b, b ∈ s.badges.values ↔ s.badges.get? b.id = some b := fun b => by
      rw [Register.mem_values_iff]
      constructor
      · rintro ⟨k, hk⟩
        rwa [(hs₀.badge hk).id_eq]
      · exact fun hb => ⟨b.id, hb⟩
    refine (triple_badges hs₀ (fun _ _ => trivial) s.badges.values (fun b hb => (hmem b).1 hb)
      fun b hb => hD ((hmem b).1 hb)).weaken ?_ ?_ fun _ _ _ h => h
    · rintro s' n' ⟨rfl, rfl⟩
      exact hstart
    · refine fun _ s' n' h => ⟨h.1, h.2.1, fun id b hb => h.2.2.2 b ((hmem b).2 ?_)⟩
      rwa [(hs₀.badge hb).id_eq]

end Review

end Badging
