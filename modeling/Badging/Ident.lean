import Badging.Register
import Badging.Number.Integer

/-!
# Identities

Badges, criteria, learners, courses, activities and roles are known by numbers. The number
alone does not say of what it is the number, so the type does: `Ident k` is the identity of a
thing of kind `k`, and a learner's number cannot be used where a course's is asked for.
Identities of one kind are ordered by their numbers.
-/

namespace Badging

/-- The kinds of things that have an identity. -/
inductive Entity where
  | badge
  | criterion
  | learner
  | course
  | activity
  | role

/-- The identity of a thing of kind `k`. -/
structure Ident (k : Entity) where
  val : Int
deriving DecidableEq, Repr

abbrev BadgeId := Ident .badge

abbrev CriterionId := Ident .criterion

abbrev LearnerId := Ident .learner

abbrev CourseId := Ident .course

abbrev ActivityId := Ident .activity

abbrev RoleId := Ident .role

namespace Ident

variable {k : Entity}

instance : Ord (Ident k) := ⟨fun a b => compare a.val b.val⟩

theorem compare_def (a b : Ident k) : compare a b = compare a.val b.val := rfl

instance : Std.TransOrd (Ident k) where
  eq_swap {a b} := @Std.OrientedCmp.eq_swap Int compare _ a.val b.val
  isLE_trans {a b c} := @Std.TransCmp.isLE_trans Int compare _ a.val b.val c.val

instance : Std.LawfulEqOrd (Ident k) where
  compare_self {a} := @Std.ReflCmp.compare_self Int compare _ a.val
  eq_of_compare {a b} h := by
    have := @Std.LawfulEqCmp.eq_of_compare Int compare _ a.val b.val h
    cases a; cases b; simp_all

theorem compare_eq_lt_iff {a b : Ident k} : compare a b = .lt ↔ a.val < b.val := by
  rw [compare_def]
  exact Int.compare_eq_lt

def text (a : Ident k) : String := Number.integerText a.val

end Ident

/-- The keys of things that several identities name together: they compare by the first
component in which they differ. -/
structure Pair (α β : Type) where
  fst : α
  snd : β
deriving DecidableEq, Repr

namespace Pair

variable {α β : Type} [Ord α] [Ord β]

instance : Ord (Pair α β) :=
  ⟨compareLex (compareOn Pair.fst) (compareOn Pair.snd)⟩

instance [Std.TransOrd α] [Std.TransOrd β] : Std.TransOrd (Pair α β) :=
  inferInstanceAs (Std.TransCmp (compareLex (compareOn Pair.fst) (compareOn Pair.snd)))

instance [Std.LawfulEqOrd α] [Std.LawfulEqOrd β] : Std.LawfulEqOrd (Pair α β) where
  compare_self {a} := by
    show compareLex (compareOn Pair.fst) (compareOn Pair.snd) a a = .eq
    simp [compareLex, compareOn]
  eq_of_compare {a b} h := by
    have h : compareLex (compareOn Pair.fst) (compareOn Pair.snd) a b = .eq := h
    obtain ⟨h₁, h₂⟩ := compareLex_eq_eq.1 h
    have h₁ : compare a.fst b.fst = .eq := h₁
    have h₂ : compare a.snd b.snd = .eq := h₂
    cases a; cases b
    rw [Std.LawfulEqCmp.compare_eq_iff_eq] at h₁ h₂
    simp_all

theorem compare_def (a b : Pair α β) :
    compare a b = (compare a.fst b.fst).then (compare a.snd b.snd) := rfl

theorem compare_fst [Std.ReflOrd β] {a b : Pair α β} (h : a.snd = b.snd) :
    compare a b = compare a.fst b.fst := by
  have hself : compare a.snd b.snd = .eq := by
    rw [h]
    exact Std.ReflCmp.compare_self
  rw [compare_def, hself]
  cases compare a.fst b.fst <;> rfl

theorem compare_snd [Std.ReflOrd α] {a b : Pair α β} (h : a.fst = b.fst) :
    compare a b = compare a.snd b.snd := by
  have hself : compare a.fst b.fst = .eq := by
    rw [h]
    exact Std.ReflCmp.compare_self
  rw [compare_def, hself]
  rfl

end Pair

end Badging
