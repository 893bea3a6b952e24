import Badging.Facts.Snapshot
import Badging.Proofs.Criterion.Meaning
import Badging.Proofs.Review.Verdict

/-!
# Criteria that mean the same

A review makes one check for each condition, and its verdict depends on which checks there are but
not on their order. So criteria with the same conditions are satisfied by the same learners, if
nothing fails. A failure may come to light or not, depending on the order of the checks, so where
calls fail nothing of this kind holds.
-/

namespace Badging

namespace Review

open Run

variable {σ : Type} [Store σ] {b : Badge} {l : LearnerId} {c c' : Criterion}

theorem mem_map_congr {α β : Type} {f : α → β} {xs ys : List α} (h : ∀ a, a ∈ xs ↔ a ∈ ys) (y : β) :
    y ∈ xs.map f ↔ y ∈ ys.map f := by
  simp only [List.mem_map, h]

theorem mem_checks_iff (hkind : c.kind.Alike c'.kind) (hbadge : c'.badge = c.badge)
    (x : Run σ ReviewError Bool) : x ∈ checks b l c ↔ x ∈ checks b l c' := by
  obtain ⟨id, badge, method, description, kind⟩ := c
  obtain ⟨id', badge', method', description', kind'⟩ := c'
  obtain rfl : badge' = badge := hbadge
  cases kind with
  | overall =>
    cases kind' with
    | overall => exact Iff.rfl
    | _ => exact hkind.elim
  | activity cs =>
    cases kind' with
    | activity ds => exact mem_map_congr hkind x
    | _ => exact hkind.elim
  | manual rs =>
    cases kind' with
    | manual qs => exact mem_map_congr hkind x
    | _ => exact hkind.elim
  | social ns =>
    cases kind' with
    | social ms => exact mem_map_congr hkind x
    | _ => exact hkind.elim
  | course d =>
    cases kind' with
    | course d' =>
      obtain rfl : d = d' := hkind
      exact Iff.rfl
    | _ => exact hkind.elim
  | courseSet cs =>
    cases kind' with
    | courseSet ds => exact mem_map_congr hkind x
    | _ => exact hkind.elim
  | profile fs =>
    cases kind' with
    | profile gs => exact mem_map_congr hkind x
    | _ => exact hkind.elim

/-- If no call fails, reviews of the two criteria end alike, in any store and as criteria of any
badge. A requirement gets a verdict. -/
def SameVerdicts (σ : Type) [Store σ] (c c' : Criterion) : Prop :=
  ∀ (facts : Snapshot) (b : Badge) (l : LearnerId) (s : σ),
    ((criterion b l c').exec (.clean facts.source) (.ofStore s)).1 =
        ((criterion b l c).exec (.clean facts.source) (.ofStore s)).1 ∧
      (c.isOverall = false →
        ∃ v, ((criterion b l c).exec (.clean facts.source) (.ofStore s)).1 = .done v)

theorem sameVerdicts (htells : ∀ s : σ, TellsManual (· = s)) (hkind : c.kind.Alike c'.kind)
    (hbadge : c'.badge = c.badge) (hmethod : c'.method = c.method) : SameVerdicts σ c c' := by
  intro facts b l s
  have hreview : (criterion b l c' : Run σ ReviewError Bool) =
      c.method.evaluate (checks b l c') := by
    rw [criterion, hmethod]
  cases hoverall : c.isOverall with
  | true =>
    have hchecks : (checks b l c : List (Run σ ReviewError Bool)) = checks b l c' := by
      unfold checks
      unfold Criterion.isOverall Criterion.tag at hoverall
      cases hc : c.kind with
      | overall =>
        cases hc' : c'.kind with
        | overall => rfl
        | _ => simp [hc, hc', Criterion.Kind.Alike] at hkind
      | _ =>
        rw [hc] at hoverall
        cases hoverall
    rw [hreview, ← hchecks]
    exact ⟨rfl, fun h => by cases h⟩
  | false =>
    have htotal : facts.source.Total := fun q => ⟨_, rfl⟩
    obtain ⟨v, hv, hv'⟩ := Steady.exists_finds_evaluate c.method htotal
      (fun x => steady_check facts.source (htells s) b l hoverall) (mem_checks_iff hkind hbadge)
    have hclean := hv.exec_clean (w := World.ofStore s) rfl
    rw [hreview, hv'.exec_clean (w := World.ofStore s) rfl]
    exact ⟨hclean.symm, fun _ => ⟨v, hclean⟩⟩

end Review

end Badging
