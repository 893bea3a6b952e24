import Badging.Document.Definition
import Badging.Proofs.Document.Parts

/-!
# Documents read back

Every value that is exchanged as a document is read from its text, in either layout, as what it
was. That holds for all names and texts, for every field that may be missing, and for all times of
the calendar, leap seconds among them; the numbers have to lie within 64 bits, and whatever is read
from any text has numbers that do. Badges and criteria are written with their grades as texts, so
theirs is the one restriction: that there is no lowest grade.
-/

namespace Badging

open Json

structure NewBadge.InRange (b : NewBadge) : Prop where
  owner : b.owner.InRange
  expiry : b.expiry.InRange

theorem NewBadge.codec : Codec NewBadge.toJson NewBadge.ofJson? NewBadge.InRange Any where
  plain b := .record (PlainFields.cons (.text _) (.cons (Owner.codec.plain _)
    (.cons (Expiry.codec.plain _) .nil)))
  reads b hb _ := by
    rw [NewBadge.toJson, NewBadge.ofJson?, members?_record rfl (by decide)]
    simp only [List.map_cons, List.map_nil, Option.bind_eq_bind, Option.bind_some, required_some,
      defaulted_some, Codec.text.reads _ trivial trivial, Owner.codec.reads _ hb.owner trivial,
      Expiry.codec.reads _ hb.expiry trivial]
  inRange v b h := by
    simp only [NewBadge.ofJson?, Option.bind_eq_bind, Option.bind_eq_some_iff] at h
    obtain ⟨ms, -, h⟩ := h
    split at h
    · simp only [Option.bind_eq_some_iff] at h
      obtain ⟨_, -, owner, howner, expiry, hexpiry, h⟩ := h
      cases h
      exact ⟨Owner.codec.required howner, Expiry.codec.defaulted hexpiry trivial⟩
    · cases h

structure Badge.InRange (b : Badge) : Prop where
  id : b.id.InRange
  owner : b.owner.InRange
  expiry : b.expiry.InRange
  criteria : ∀ c ∈ b.criteria, c.InRange

def Badge.Ungraded (b : Badge) : Prop := ∀ c ∈ b.criteria, c.Ungraded

theorem Badge.codec : Codec Badge.toJson Badge.ofJson? Badge.InRange Badge.Ungraded where
  plain b := .record (PlainFields.cons (Ident.codec.plain _) (.cons (.text _)
    (.cons (Owner.codec.plain _) (.cons (Status.codec.plain _) (.cons (Expiry.codec.plain _)
    (.cons ((Criterion.codec 2).list.plain _) .nil))))))
  reads b hb hgrades := by
    rw [Badge.toJson, Badge.ofJson?, members?_record rfl (by decide)]
    simp only [List.map_cons, List.map_nil, Option.bind_eq_bind, Option.bind_some, required_some,
      defaulted_some, Ident.codec.reads _ hb.id trivial, Codec.text.reads _ trivial trivial,
      Owner.codec.reads _ hb.owner trivial, Status.codec.reads _ trivial trivial,
      Expiry.codec.reads _ hb.expiry trivial,
      (Criterion.codec 2).list.reads _ hb.criteria hgrades]
  inRange v b h := by
    simp only [Badge.ofJson?, Option.bind_eq_bind, Option.bind_eq_some_iff] at h
    obtain ⟨ms, -, h⟩ := h
    split at h
    · simp only [Option.bind_eq_some_iff] at h
      obtain ⟨id, hid, _, -, owner, howner, _, -, expiry, hexpiry, criteria, hcriteria, h⟩ := h
      cases h
      exact ⟨Ident.codec.required hid, Owner.codec.required howner,
        Expiry.codec.defaulted hexpiry trivial,
        (Criterion.codec 2).list.defaulted hcriteria (List.forall_mem_nil _)⟩
    · cases h

structure MetRecord.InRange (r : MetRecord) : Prop where
  criterion : r.criterion.InRange
  badge : r.badge.InRange
  learner : r.learner.InRange

theorem MetRecord.codec : Codec MetRecord.toJson MetRecord.ofJson? MetRecord.InRange Any where
  plain r := .record (PlainFields.cons (Ident.codec.plain _) (.cons (Ident.codec.plain _)
    (.cons (Ident.codec.plain _) (.cons (Instant.codec.plain _) .nil))))
  reads r hr _ := by
    rw [MetRecord.toJson, MetRecord.ofJson?, members?_record rfl (by decide)]
    simp only [List.map_cons, List.map_nil, Option.bind_eq_bind, Option.bind_some, required_some,
      Ident.codec.reads _ hr.criterion trivial, Ident.codec.reads _ hr.badge trivial,
      Ident.codec.reads _ hr.learner trivial, Instant.codec.reads _ trivial trivial]
  inRange v r h := by
    simp only [MetRecord.ofJson?, Option.bind_eq_bind, Option.bind_eq_some_iff] at h
    obtain ⟨ms, -, h⟩ := h
    split at h
    · simp only [Option.bind_eq_some_iff] at h
      obtain ⟨criterion, hcriterion, badge, hbadge, learner, hlearner, _, -, h⟩ := h
      cases h
      exact ⟨Ident.codec.required hcriterion, Ident.codec.required hbadge,
        Ident.codec.required hlearner⟩
    · cases h

structure ManualAward.InRange (a : ManualAward) : Prop where
  badge : a.badge.InRange
  recipient : a.recipient.InRange
  issuer : a.issuer.InRange
  issuerRole : a.issuerRole.InRange

theorem ManualAward.codec :
    Codec ManualAward.toJson ManualAward.ofJson? ManualAward.InRange Any where
  plain a := .record (PlainFields.cons (Ident.codec.plain _) (.cons (Ident.codec.plain _)
    (.cons (Ident.codec.plain _) (.cons (Ident.codec.plain _)
    (.cons (Instant.codec.plain _) .nil)))))
  reads a ha _ := by
    rw [ManualAward.toJson, ManualAward.ofJson?, members?_record rfl (by decide)]
    simp only [List.map_cons, List.map_nil, Option.bind_eq_bind, Option.bind_some, required_some,
      Ident.codec.reads _ ha.badge trivial, Ident.codec.reads _ ha.recipient trivial,
      Ident.codec.reads _ ha.issuer trivial, Ident.codec.reads _ ha.issuerRole trivial,
      Instant.codec.reads _ trivial trivial]
  inRange v a h := by
    simp only [ManualAward.ofJson?, Option.bind_eq_bind, Option.bind_eq_some_iff] at h
    obtain ⟨ms, -, h⟩ := h
    split at h
    · simp only [Option.bind_eq_some_iff] at h
      obtain ⟨badge, hbadge, recipient, hrecipient, issuer, hissuer, role, hrole, _, -, h⟩ := h
      cases h
      exact ⟨Ident.codec.required hbadge, Ident.codec.required hrecipient,
        Ident.codec.required hissuer, Ident.codec.required hrole⟩
    · cases h

structure Award.InRange (a : Award) : Prop where
  badge : a.badge.InRange
  learner : a.learner.InRange

theorem Award.codec : Codec Award.toJson Award.ofJson? Award.InRange Any where
  plain a := .record (PlainFields.cons (Ident.codec.plain _) (.cons (Ident.codec.plain _)
    (.cons (Instant.codec.plain _) (.cons (Instant.optionCodec.plain _) (.cons (.text _)
    (.cons (.bool _) .nil))))))
  reads a ha _ := by
    rw [Award.toJson, Award.jsonFields, Award.ofJson?, members?_record rfl (by decide)]
    simp only [List.map_cons, List.map_nil, Option.bind_eq_bind, Option.bind_some, required_some,
      optional_some, Ident.codec.reads _ ha.badge trivial, Ident.codec.reads _ ha.learner trivial,
      Instant.codec.reads _ trivial trivial, Instant.optionCodec.reads _ trivial trivial,
      Codec.text.reads _ trivial trivial, Codec.bool.reads _ trivial trivial]
  inRange v a h := by
    simp only [Award.ofJson?, Option.bind_eq_bind, Option.bind_eq_some_iff] at h
    obtain ⟨ms, -, h⟩ := h
    split at h
    · simp only [Option.bind_eq_some_iff] at h
      obtain ⟨badge, hbadge, learner, hlearner, _, -, _, -, _, -, _, -, h⟩ := h
      cases h
      exact ⟨Ident.codec.required hbadge, Ident.codec.required hlearner⟩
    · cases h

structure Notice.InRange (n : Notice) : Prop where
  badge : n.badge.InRange
  learner : n.learner.InRange

theorem Notice.codec : Codec Notice.toJson Notice.ofJson? Notice.InRange Any where
  plain n := .record (PlainFields.cons (Ident.codec.plain _) (.cons (.text _)
    (.cons (Ident.codec.plain _) (.cons (Instant.codec.plain _)
    (.cons (Instant.optionCodec.plain _) (.cons (.text _) .nil))))))
  reads n hn _ := by
    rw [Notice.toJson, Notice.ofJson?, members?_record rfl (by decide)]
    simp only [List.map_cons, List.map_nil, Option.bind_eq_bind, Option.bind_some, required_some,
      optional_some, Ident.codec.reads _ hn.badge trivial, Ident.codec.reads _ hn.learner trivial,
      Instant.codec.reads _ trivial trivial, Instant.optionCodec.reads _ trivial trivial,
      Codec.text.reads _ trivial trivial]
  inRange v n h := by
    simp only [Notice.ofJson?, Option.bind_eq_bind, Option.bind_eq_some_iff] at h
    obtain ⟨ms, -, h⟩ := h
    split at h
    · simp only [Option.bind_eq_some_iff] at h
      obtain ⟨badge, hbadge, _, -, learner, hlearner, _, -, _, -, _, -, h⟩ := h
      cases h
      exact ⟨Ident.codec.required hbadge, Ident.codec.required hlearner⟩
    · cases h

structure Definition.InRange (d : Definition) : Prop where
  owner : d.owner.InRange
  expiry : d.expiry.InRange

theorem Definition.codec :
    Codec Definition.toJson Definition.ofJson? Definition.InRange Any where
  plain d := .record (PlainFields.cons (.text _) (.cons (Owner.codec.plain _)
    (.cons (Expiry.codec.plain _) (.cons (.bool _)
    (.cons (Criterion.Record.codec.list.plain _) .nil)))))
  reads d hd _ := by
    rw [Definition.toJson, Definition.ofJson?, members?_record rfl (by decide)]
    simp only [List.map_cons, List.map_nil, Option.bind_eq_bind, Option.bind_some, required_some,
      defaulted_some, Codec.text.reads _ trivial trivial, Owner.codec.reads _ hd.owner trivial,
      Expiry.codec.reads _ hd.expiry trivial, Codec.bool.reads _ trivial trivial,
      Criterion.Record.codec.list.reads d.criteria (fun _ _ => trivial) fun _ _ => trivial]
  inRange v d h := by
    simp only [Definition.ofJson?, Option.bind_eq_bind, Option.bind_eq_some_iff] at h
    obtain ⟨ms, -, h⟩ := h
    split at h
    · simp only [Option.bind_eq_some_iff] at h
      obtain ⟨_, -, owner, howner, expiry, hexpiry, _, -, _, -, h⟩ := h
      cases h
      exact ⟨Owner.codec.required howner, Expiry.codec.defaulted hexpiry trivial⟩
    · cases h

end Badging
