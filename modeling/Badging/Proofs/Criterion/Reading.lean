import Badging.Criterion.Reading
import Badging.Proofs.Except

/-!
# What reading a record gives

A record that is read gives a criterion whose identity and badge are the ones it was read for. The
type and the parameters decide what kind it is of; the rest of the record is taken over.
-/

namespace Badging

namespace Criterion

theorem ofRecord_eq_ok_iff {id : CriterionId} {badge : BadgeId} {r : Record} {c : Criterion} :
    ofRecord id badge r = .ok c ↔ ∃ tag kind, Tag.parse r.criterionType = .ok tag ∧
      Kind.ofParams tag r.params = .ok kind ∧ c = ⟨id, badge, r.method, r.description, kind⟩ := by
  unfold ofRecord
  simp only [bind_eq_ok_iff]
  constructor
  · rintro ⟨tag, htag, kind, hkind, h⟩
    cases h
    exact ⟨tag, kind, htag, hkind, rfl⟩
  · rintro ⟨tag, kind, htag, hkind, rfl⟩
    exact ⟨tag, htag, kind, hkind, rfl⟩

theorem id_of_ofRecord {id : CriterionId} {badge : BadgeId} {r : Record} {c : Criterion}
    (h : ofRecord id badge r = .ok c) : c.id = id ∧ c.badge = badge := by
  obtain ⟨_, _, -, -, rfl⟩ := ofRecord_eq_ok_iff.1 h
  exact ⟨rfl, rfl⟩

end Criterion

end Badging
