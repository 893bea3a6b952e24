import Badging.Proofs.Service
import Mathlib.Data.List.Induction

/-!
# Awards are justified

In every ledger of a badge service each award rests on records that are there: its badge has an
overall criterion with a record of the learner, it requires something, and the records of the
learner satisfy the method of the overall criterion. A record of a requirement is only ever written
by a request against whose facts the requirement holds, and it bears the time of that request.

Nothing of this depends on which calls fail. A request that is cut short leaves a ledger that the
same request could have left on its way, and the award is the last thing on that way.
-/

namespace Badging

open Review

/-- Each award rests on records. -/
def Ledger.Justified (s : Ledger) : Prop :=
  ∀ {id l a}, s.awards.get? ⟨id, l⟩ = some a → ∃ b o, s.badges.get? id = some b ∧
    b.overall? = some o ∧ Recorded s l o ∧ b.requirements ≠ [] ∧
      o.method.Asks (Recorded s l) b.requirements

/-- A record that a request may write: it is of a criterion of a stored badge and bears the time of
the request, and the criterion held against the facts of the request if it is a requirement. -/
def Request.Writes (request : Request) (setting : Setting) (s : Ledger) (r : MetRecord) : Prop :=
  ∃ b c now, s.badges.get? b.id = some b ∧ c ∈ b.criteria ∧ request.time? = some now ∧
    r = c.met r.learner now ∧ (c.isOverall = false → Holds setting.facts s b r.learner c)

/-- What a request does to the ledger of a service that is in order. -/
structure Request.Proper (request : Request) (setting : Setting) (s s' : Ledger) : Prop where
  sound : s'.Sound
  justified : s'.Justified
  written : ∀ {k r}, s'.met.get? k = some r → s.met.get? k ≠ some r →
    request.Writes setting s r

variable {s s' : Ledger} {setting : Setting}

/-- Awards stay justified where badges keep their criteria, and awards and records that are gone
are those of deleted badges. -/
theorem Ledger.Justified.of_kept (hs : s.Justified)
    (h : ∀ {id l a b}, s'.awards.get? ⟨id, l⟩ = some a → s.badges.get? id = some b →
      s.awards.get? ⟨id, l⟩ = some a ∧ ∃ b', s'.badges.get? id = some b' ∧
        b'.criteria = b.criteria ∧ ∀ c ∈ b.criteria, Recorded s l c → Recorded s' l c)
    (hstored : ∀ {id l a}, s'.awards.get? ⟨id, l⟩ = some a → ∃ b, s.badges.get? id = some b) :
    s'.Justified := by
  intro id l a ha
  obtain ⟨b₀, hb₀⟩ := hstored ha
  obtain ⟨b, o, hb, ho, hrecorded, hreq, hasks⟩ := hs (h ha hb₀).1
  obtain ⟨-, b', hb', hcriteria, hmono⟩ := h ha hb
  have hoverall : b'.overall? = some o := (Badge.overall?_congr hcriteria).trans ho
  refine ⟨b', o, hb', hoverall, hmono o (List.mem_of_find?_eq_some ho) hrecorded, ?_⟩
  rw [Badge.requirements_congr hcriteria]
  exact ⟨hreq, hasks.mono fun c hc => hmono c (Badge.mem_requirements_iff.1 hc).1⟩

/-- Reviews and passes leave justified awards and write what they may write. -/
theorem Review.Advance.proper {D : BadgeId → LearnerId → Prop} {now : Instant} {request : Request}
    (hs : s.Sound) (hjustified : s.Justified) (h : Advance setting.facts now D s s')
    (hnow : request.time? = some now) : request.Proper setting s s' where
  sound := h.sound hs
  justified := by
    intro id l a ha
    rcases h.awards_new ha with hold | ⟨b, l', hdeserved, hk⟩
    · obtain ⟨b, o, hb, ho, hrecorded, hreq, hasks⟩ := hjustified hold
      obtain ⟨b', hb', hlock⟩ := h.get?_badge hb
      have hoverall : b'.overall? = some o := (overall?_of_lock hlock).trans ho
      refine ⟨b', o, hb', hoverall, hrecorded.grown h.grown, ?_⟩
      rw [requirements_of_lock hlock]
      exact ⟨hreq, hasks.mono fun c _ hc => hc.grown h.grown⟩
    · cases hk
      -- The award came last, so the records that its badge was found complete with are there.
      obtain ⟨o, hdue, ho, hrecorded⟩ := hdeserved.overall
      obtain ⟨hoverall, hsatisfied⟩ := hdue.overall ho
      obtain ⟨b', hb', hlock⟩ := h.get?_badge hdue.stored
      refine ⟨b', o, hb', (overall?_of_lock hlock).trans hoverall, hrecorded, ?_⟩
      rw [requirements_of_lock hlock]
      exact ⟨hsatisfied.1, h.asks_of_satisfied hdeserved.settled hsatisfied⟩
  written := by
    intro k r hr hnew
    rcases h.met_new hr with hold | ⟨b, l, c, hdue, -, rfl⟩
    · exact absurd hold hnew
    · exact ⟨b, c, now, hdue.stored, hdue.mem, hnow, rfl, hdue.requirement⟩

theorem Ledger.Extends.proper {request : Request} (hs : s.Sound) (hjustified : s.Justified)
    (hsound : s'.Sound) (h : s.Extends s') : request.Proper setting s s' where
  sound := hsound
  justified := by
    refine hjustified.of_kept (fun {id l a b} ha hb => ?_) fun {id l a} ha => ?_
    · rw [h.awards] at ha
      refine ⟨ha, b, h.badges hb, rfl, fun c _ hc => ?_⟩
      rwa [Recorded, h.met]
    · rw [h.awards] at ha
      obtain ⟨hk, b, hb⟩ := hs.awards ha
      cases hk
      exact ⟨b, hb⟩
  written := by
    intro k r hr hnew
    rw [h.met] at hr
    exact absurd hr hnew

/-- The deletion of a badge takes its awards with it, and the records of other badges stay. -/
theorem Ledger.Sound.proper_delete {id : BadgeId} {request : Request} (hs : s.Sound)
    (hjustified : s.Justified) (hop : Ledger.perform (.deleteBadge id) s = .ok ((), s')) :
    request.Proper setting s s' := by
  have heffect := Ledger.effect_of_perform hop
  have hsound := hs.effect heffect
  cases heffect with
  | idle h => cases h
  | deleteBadge =>
    refine ⟨hsound, hjustified.of_kept (fun {j l a b} ha hb => ?_) fun {j l a} ha => ?_,
      fun hr hnew => ?_⟩
    · obtain ⟨ha, hne⟩ := Register.get?_filter_eq_some_iff.1 ha
      have hj : j ≠ id := by simpa using hne
      refine ⟨ha, b, Register.get?_erase_eq_some_iff.2 ⟨hj, hb⟩, rfl, fun c hc hrecorded => ?_⟩
      obtain ⟨r, hr⟩ := Register.contains_eq_true_iff.1 hrecorded
      refine Register.contains_eq_true_iff.2
        ⟨r, Register.get?_filter_eq_some_iff.2 ⟨hr, ?_⟩⟩
      obtain ⟨hk, b', hb', c', hc', hid⟩ := hs.met hr
      have hck : c.id = r.criterion := congrArg Pair.fst hk
      have hjr : j = r.badge := hs.owner_unique hb hb' hc hc' (hck.trans hid.symm)
      simpa [← hjr] using hj
    · obtain ⟨ha, -⟩ := Register.get?_filter_eq_some_iff.1 ha
      obtain ⟨hk, b, hb⟩ := hs.awards ha
      cases hk
      exact ⟨b, hb⟩
    · exact absurd (Register.get?_filter_eq_some_iff.1 hr).1 hnew

theorem Ledger.Sound.proper_recordManual {m : ManualAward} {added : Bool} {request : Request}
    (hs : s.Sound) (hjustified : s.Justified)
    (hop : Ledger.perform (.recordManual m) s = .ok (added, s')) :
    request.Proper setting s s' := by
  have heffect := Ledger.effect_of_perform hop
  have hsound := hs.effect heffect
  cases heffect with
  | idle h => exact Ledger.Extends.refl.proper hs hjustified hs
  | recordManual => exact ⟨hsound, hjustified, fun hr hnew => absurd hr hnew⟩

/-- Every request leaves the service in order. -/
theorem Request.serve_proper {w : World Ledger} (hs : w.store.Sound)
    (hjustified : w.store.Justified) (request : Request) (setting : Setting) :
    request.Proper setting w.store (request.serve setting w).store := by
  have hrefl : request.Proper setting w.store w.store :=
    Ledger.Extends.refl.proper hs hjustified hs
  cases request with
  | create d =>
    have hextends : w.store.Extends (d.create.exec setting w).2.store :=
      (Definition.triple_create hs d w.sent).after ⟨rfl, rfl⟩
    have hkeeps : Run.Keeps setting (fun (s : Ledger) _ => s.Sound) d.create :=
      Definition.keeps_create (Run.Keeps.perform fun _ _ _ _ hs hop =>
        hs.effect (Ledger.effect_of_perform hop)) d
    exact hextends.proper hs hjustified (hkeeps.after hs)
  | delete id => exact Run.store_exec_perform hrefl fun hop => hs.proper_delete hjustified hop
  | recordManual m =>
    exact Run.store_exec_perform hrefl fun hop => hs.proper_recordManual hjustified hop
  | review id l now =>
    have hadvance : Advance setting.facts now (fun _ _ => True) w.store
        ((Review.stored id l now).exec setting w).2.store :=
      (triple_stored hs id w.sent).after ⟨rfl, rfl⟩
    exact hadvance.proper hs hjustified rfl
  | pass now =>
    have htriple : Run.Triple setting (fun s n => s = w.store ∧ n = w.sent) (Review.pass now)
        (fun _ s _ => Advance setting.facts now (fun _ _ => True) w.store s)
        fun _ s _ => Advance setting.facts now (fun _ _ => True) w.store s :=
      (triple_pass hs (fun _ _ _ _ _ _ _ => trivial) w.sent).weaken (fun _ _ h => h)
        (fun _ _ _ h => h.1) fun _ _ _ h => h.1.1
    exact (htriple.after ⟨rfl, rfl⟩).proper hs hjustified rfl

theorem served_concat (past : List (Setting × Request)) (setting : Setting) (request : Request) :
    served (past ++ [(setting, request)]) = request.serve setting (served past) := by
  rw [served, List.foldl_append]
  rfl

/-- A service is always in order. -/
theorem sound_and_justified_served (past : List (Setting × Request)) :
    (served past).store.Sound ∧ (served past).store.Justified := by
  induction past using List.reverseRecOn with
  | nil => exact ⟨Ledger.sound_empty, fun h => by cases h⟩
  | append_singleton past p ih =>
    rw [served_concat past p.1 p.2]
    have hproper := Request.serve_proper ih.1 ih.2 p.2 p.1
    exact ⟨hproper.sound, hproper.justified⟩

/-- Whatever a service was asked for and whichever calls failed, each of its awards rests on
records, and the next request writes a record only of a criterion of a stored badge, at its own
time, and of a requirement only if it holds against the facts of the request. -/
theorem served_awards_justified (past : List (Setting × Request)) :
    (served past).store.Justified ∧ ∀ (setting : Setting) (request : Request)
      (k : Pair CriterionId LearnerId) (r : MetRecord),
      (request.serve setting (served past)).store.met.get? k = some r →
      (served past).store.met.get? k ≠ some r →
      request.Writes setting (served past).store r := by
  obtain ⟨hsound, hjustified⟩ := sound_and_justified_served past
  refine ⟨hjustified, fun setting request k r hr hnew => ?_⟩
  exact (Request.serve_proper hsound hjustified request setting).written hr hnew

end Badging
