import Badging.Proofs.Review.Advance
import Badging.Review.Pass

/-!
# What a review decides

Of all that is stored, the review of a learner for a badge looks at little: whether there is an
award, and which of the criteria have a met record of the learner. This is the `Standing` of the
learner. With the answers to the requirements it determines what the review comes to, which is its
`Decision`, and which criteria get a record on the way. `resolve` computes both.

Two properties carry everything that follows. A resolution looks at the criteria of its badge only,
so it does not see what reviews for other badges or of other learners have written. And a resolution
that has been carried out is at rest: the next one writes nothing and comes to the same, except that
what was granted is then known.
-/

namespace Badging

namespace Review

/-- What a store says of a learner and a badge when a review begins. -/
structure Standing where
  awarded : Bool
  recorded : CriterionId → Bool

/-- What the review of a learner comes to. -/
inductive Decision where
  | failed (e : ReviewError)
  | known
  | pending (met total : Nat)
  | granted

/-- A decision, and the criteria that get a record. -/
structure Resolution where
  decision : Decision
  marks : List Criterion

/-- How many requirements are met, or why that is not known, and which of them get a record. -/
structure Settlement where
  count : Except ReviewError Nat
  marks : List Criterion

/-- The records after some criteria got one. -/
def extend (recorded : CriterionId → Bool) (ms : List Criterion) : CriterionId → Bool :=
  fun id => recorded id || ms.any (·.id == id)

@[simp] theorem extend_nil (recorded : CriterionId → Bool) : extend recorded [] = recorded := by
  funext id
  simp [extend]

theorem extend_append (recorded : CriterionId → Bool) (ms ms' : List Criterion) :
    extend recorded (ms ++ ms') = extend (extend recorded ms) ms' := by
  funext id
  simp [extend, Bool.or_assoc]

theorem extend_cons (recorded : CriterionId → Bool) (c : Criterion) (ms : List Criterion) :
    extend recorded (c :: ms) = extend (extend recorded [c]) ms :=
  extend_append recorded [c] ms

theorem extend_of_recorded {recorded : CriterionId → Bool} {ms : List Criterion} {id : CriterionId}
    (h : recorded id = true) : extend recorded ms id = true := by
  simp [extend, h]

theorem extend_of_not_mem {recorded : CriterionId → Bool} {ms : List Criterion} {id : CriterionId}
    (h : ∀ c ∈ ms, c.id ≠ id) : extend recorded ms id = recorded id := by
  have hany : ms.any (·.id == id) = false := by simpa using h
  rw [extend, hany, Bool.or_false]

def Settlement.counting (r : Settlement) : Settlement := { r with count := r.count.map (· + 1) }

/-- Settles requirements in order: one with a record is met, and one without gets a record if the
answer is that it holds. -/
def settlement (answer : Criterion → Except ReviewError Bool) :
    (CriterionId → Bool) → List Criterion → Settlement
  | _, [] => ⟨.ok 0, []⟩
  | recorded, c :: cs =>
    if recorded c.id then (settlement answer recorded cs).counting
    else match answer c with
      | .error e => ⟨.error e, []⟩
      | .ok false => settlement answer recorded cs
      | .ok true =>
        let rest := (settlement answer (extend recorded [c]) cs).counting
        { rest with marks := c :: rest.marks }

def resolve (answer : Criterion → Except ReviewError Bool) (b : Badge) (st : Standing) :
    Resolution :=
  if st.awarded then ⟨.known, []⟩
  else match b.overall? with
    | none => ⟨.failed (.missingOverall b.id), []⟩
    | some o =>
      let r := settlement answer st.recorded b.requirements
      match r.count with
      | .error e => ⟨.failed e, r.marks⟩
      | .ok met =>
        if o.method.verdict (b.requirements.map fun d => extend st.recorded r.marks d.id) then
          ⟨.granted, r.marks ++ [o]⟩
        else ⟨.pending met b.requirements.length, r.marks⟩

def Decision.again : Decision → Decision
  | .granted => .known
  | d => d

def Decision.isGranted : Decision → Bool
  | .granted => true
  | _ => false

/-- How a review ends that came to a decision, when `a` is the award that it issues. -/
def Decision.outcome (a : Award) : Decision → Except ReviewError Outcome
  | .failed e => .error e
  | .known => .ok .alreadyAwarded
  | .pending met total => .ok (.pending met total)
  | .granted => .ok (.awarded a)

def Standing.after (st : Standing) (r : Resolution) : Standing :=
  ⟨st.awarded || r.decision.isGranted, extend st.recorded r.marks⟩

/-- A resolution that writes nothing. -/
structure Resolution.AtRest (r : Resolution) : Prop where
  marks : r.marks = []
  decision : r.decision.isGranted = false

section Settling

variable {answer : Criterion → Except ReviewError Bool} {recorded recorded' : CriterionId → Bool}
  {cs : List Criterion}

theorem mem_of_mem_settlement {c : Criterion} (hc : c ∈ (settlement answer recorded cs).marks) :
    c ∈ cs := by
  fun_induction settlement answer recorded cs with
  | case1 => cases hc
  | case2 recorded d cs h ih => exact List.mem_cons_of_mem d (ih hc)
  | case3 => cases hc
  | case4 recorded d cs h hanswer ih => exact List.mem_cons_of_mem d (ih hc)
  | case5 recorded d cs h hanswer rest ih =>
    rcases List.mem_cons.1 hc with rfl | hc
    · exact List.mem_cons_self
    · exact List.mem_cons_of_mem d (ih hc)

theorem settlement_congr (h : ∀ c ∈ cs, recorded c.id = recorded' c.id) :
    settlement answer recorded cs = settlement answer recorded' cs := by
  induction cs generalizing recorded recorded' with
  | nil => rfl
  | cons c cs ih =>
    have hrest : ∀ d ∈ cs, recorded d.id = recorded' d.id :=
      fun d hd => h d (List.mem_cons_of_mem c hd)
    have hextend : ∀ d ∈ cs, extend recorded [c] d.id = extend recorded' [c] d.id := fun d hd => by
      rw [extend, extend, hrest d hd]
    simp only [settlement, h c List.mem_cons_self, ih hrest, ih hextend]

/-- Once requirements were settled, settling them again finds the same and writes nothing. -/
theorem settlement_extend (hnodup : (cs.map (·.id)).Nodup) :
    settlement answer (extend recorded (settlement answer recorded cs).marks) cs =
      ⟨(settlement answer recorded cs).count, []⟩ := by
  induction cs generalizing recorded with
  | nil => rfl
  | cons c cs ih =>
    obtain ⟨hc, hcs⟩ := List.nodup_cons.1 hnodup
    have hother : ∀ {recorded}, ∀ d ∈ (settlement answer recorded cs).marks, d.id ≠ c.id :=
      fun d hd heq => hc (List.mem_map.2 ⟨d, mem_of_mem_settlement hd, heq⟩)
    cases hrecorded : recorded c.id with
    | true =>
      simp only [settlement, hrecorded, if_true, Settlement.counting]
      rw [if_pos (extend_of_recorded hrecorded), ih hcs]
    | false =>
      cases hanswer : answer c with
      | error e =>
        simp only [settlement, hrecorded, hanswer, Bool.false_eq_true, if_false, extend_nil]
      | ok holds =>
        cases holds with
        | false =>
          simp only [settlement, hrecorded, hanswer, Bool.false_eq_true, if_false]
          rw [extend_of_not_mem hother, hrecorded, if_neg Bool.false_ne_true, ih hcs]
        | true =>
          have hmarked : extend recorded [c] c.id = true := by simp [extend]
          simp only [settlement, hrecorded, hanswer, Bool.false_eq_true, if_false,
            Settlement.counting]
          rw [extend_cons, if_pos (extend_of_recorded hmarked), ih hcs]

/-- Where all requirements are answered, those are met that have a record or hold, and the records
are those of the ones that hold and have none. -/
theorem settlement_of_answered {holds : Criterion → Bool} (hnodup : (cs.map (·.id)).Nodup)
    (h : ∀ c ∈ cs, answer c = .ok (holds c)) :
    settlement answer recorded cs =
      ⟨.ok (cs.countP fun c => recorded c.id || holds c),
        cs.filter fun c => !recorded c.id && holds c⟩ := by
  induction cs with
  | nil => rfl
  | cons c cs ih =>
    obtain ⟨hc, hcs⟩ := List.nodup_cons.1 hnodup
    have hrest := ih hcs fun d hd => h d (List.mem_cons_of_mem c hd)
    cases hrecorded : recorded c.id with
    | true => simp [settlement, hrecorded, hrest, Settlement.counting, Except.map]
    | false =>
      cases hholds : holds c with
      | false =>
        simp [settlement, hrecorded, h c List.mem_cons_self, hholds, hrest]
      | true =>
        -- The record of the criterion does not count for the others.
        have hextend : settlement answer (extend recorded [c]) cs = settlement answer recorded cs :=
          settlement_congr fun d hd => extend_of_not_mem fun e he heq => by
            rw [List.mem_singleton.1 he] at heq
            exact hc (List.mem_map.2 ⟨d, hd, heq.symm⟩)
        simp [settlement, hrecorded, h c List.mem_cons_self, hholds, hextend, hrest,
          Settlement.counting, Except.map]

theorem extend_of_answered {holds : Criterion → Bool} (hnodup : (cs.map (·.id)).Nodup)
    {c : Criterion} (hc : c ∈ cs) :
    extend recorded (cs.filter fun c => !recorded c.id && holds c) c.id =
      (recorded c.id || holds c) := by
  rw [extend, Bool.eq_iff_iff]
  simp only [Bool.or_eq_true, List.any_eq_true, List.mem_filter, beq_iff_eq]
  constructor
  · rintro (hrecorded | ⟨d, ⟨hd, hholds⟩, hid⟩)
    · exact .inl hrecorded
    · rw [List.inj_on_of_nodup_map hnodup hd hc hid] at hholds
      exact .inr (Bool.and_eq_true_iff.1 hholds).2
  · rintro (hrecorded | hholds)
    · exact .inl hrecorded
    · cases hrecorded : recorded c.id with
      | true => exact .inl rfl
      | false => exact .inr ⟨c, ⟨hc, by simp [hrecorded, hholds]⟩, rfl⟩

theorem countP_of_settled {n : Nat} (h : settlement answer recorded cs = ⟨.ok n, []⟩) :
    cs.countP (fun c => recorded c.id) = n := by
  induction cs generalizing n with
  | nil => cases h; rfl
  | cons c cs ih =>
    cases hrecorded : recorded c.id with
    | true =>
      simp only [settlement, hrecorded, if_true, Settlement.counting, Settlement.mk.injEq] at h
      obtain ⟨hcount, hmarks⟩ := h
      obtain ⟨m, hm, rfl⟩ := map_eq_ok_iff.1 hcount
      have hrest := ih (n := m) (by rw [← hm, ← hmarks])
      simp [hrecorded, hrest]
    | false =>
      simp only [settlement, hrecorded, Bool.false_eq_true, if_false] at h
      split at h
      · cases h
      · simp [hrecorded, ih h]
      · simp at h

theorem countP_of_settlement {n : Nat} (hnodup : (cs.map (·.id)).Nodup)
    (h : (settlement answer recorded cs).count = .ok n) :
    cs.countP (fun c => extend recorded (settlement answer recorded cs).marks c.id) = n :=
  countP_of_settled (by rw [settlement_extend hnodup, h])

end Settling

section Resolving

variable {answer : Criterion → Except ReviewError Bool} {b b' : Badge} {st st' : Standing}

/-- The ways in which a review comes to a resolution. -/
inductive Resolution.Of (answer : Criterion → Except ReviewError Bool) (b : Badge) (st : Standing) :
    Resolution → Prop
  | known (hawarded : st.awarded = true) : Of answer b st ⟨.known, []⟩
  | incomplete (hawarded : st.awarded = false) (ho : b.overall? = none) :
      Of answer b st ⟨.failed (.missingOverall b.id), []⟩
  | failed {o : Criterion} {e : ReviewError} (hawarded : st.awarded = false)
      (ho : b.overall? = some o)
      (hcount : (settlement answer st.recorded b.requirements).count = .error e) :
      Of answer b st ⟨.failed e, (settlement answer st.recorded b.requirements).marks⟩
  | granted {o : Criterion} {met : Nat} (hawarded : st.awarded = false) (ho : b.overall? = some o)
      (hcount : (settlement answer st.recorded b.requirements).count = .ok met)
      (hverdict : o.method.verdict (b.requirements.map fun d => extend st.recorded
        (settlement answer st.recorded b.requirements).marks d.id) = true) :
      Of answer b st ⟨.granted, (settlement answer st.recorded b.requirements).marks ++ [o]⟩
  | pending {o : Criterion} {met : Nat} (hawarded : st.awarded = false) (ho : b.overall? = some o)
      (hcount : (settlement answer st.recorded b.requirements).count = .ok met)
      (hverdict : o.method.verdict (b.requirements.map fun d => extend st.recorded
        (settlement answer st.recorded b.requirements).marks d.id) = false) :
      Of answer b st ⟨.pending met b.requirements.length,
        (settlement answer st.recorded b.requirements).marks⟩

theorem resolve_cases : Resolution.Of answer b st (resolve answer b st) := by
  unfold resolve
  cases hawarded : st.awarded with
  | true => exact .known hawarded
  | false =>
    rw [if_neg Bool.false_ne_true]
    cases ho : b.overall? with
    | none => exact .incomplete hawarded ho
    | some o =>
      dsimp only
      cases hcount : (settlement answer st.recorded b.requirements).count with
      | error e => exact .failed hawarded ho hcount
      | ok met =>
        dsimp only
        split
        · next hverdict => exact .granted hawarded ho hcount hverdict
        · next hverdict => exact .pending hawarded ho hcount (Bool.eq_false_iff.2 hverdict)

theorem mem_of_mem_marks {c : Criterion} (hc : c ∈ (resolve answer b st).marks) :
    c ∈ b.criteria := by
  have hsettled : ∀ d ∈ (settlement answer st.recorded b.requirements).marks, d ∈ b.criteria :=
    fun d hd => (Badge.mem_requirements_iff.1 (mem_of_mem_settlement hd)).1
  have hr : Resolution.Of answer b st (resolve answer b st) := resolve_cases
  generalize resolve answer b st = r at hc hr
  cases hr with
  | known | incomplete => cases hc
  | failed | pending => exact hsettled c hc
  | granted hawarded ho =>
    rcases List.mem_append.1 hc with hc | hc
    · exact hsettled c hc
    · rw [List.mem_singleton.1 hc]
      exact List.mem_of_find?_eq_some ho

theorem resolve_congr (hawarded : st.awarded = st'.awarded)
    (hrecorded : ∀ c ∈ b.criteria, st.recorded c.id = st'.recorded c.id) :
    resolve answer b st = resolve answer b st' := by
  have hreq : ∀ c ∈ b.requirements, st.recorded c.id = st'.recorded c.id :=
    fun c hc => hrecorded c (Badge.mem_requirements_iff.1 hc).1
  have hverdict : ∀ ms, (b.requirements.map fun d => extend st.recorded ms d.id) =
      b.requirements.map fun d => extend st'.recorded ms d.id := fun ms =>
    List.map_congr_left fun d hd => by rw [extend, extend, hreq d hd]
  simp only [resolve, hawarded, settlement_congr hreq, hverdict]

theorem resolve_of_known (h : (resolve answer b st).decision = .known) :
    st.awarded = true ∧ (resolve answer b st).AtRest := by
  have hr : Resolution.Of answer b st (resolve answer b st) := resolve_cases
  generalize resolve answer b st = r at h hr ⊢
  cases hr with
  | known hawarded => exact ⟨hawarded, rfl, rfl⟩
  | incomplete | failed | granted | pending => cases h

/-- While a badge is pending nobody has it, and what was counted is what has a record afterwards. -/
theorem resolve_of_pending {met total : Nat} (hnodup : (b.criteria.map (·.id)).Nodup)
    (h : (resolve answer b st).decision = .pending met total) :
    st.awarded = false ∧ total = b.requirements.length ∧
      b.requirements.countP (fun c => extend st.recorded (resolve answer b st).marks c.id) =
        met := by
  have hr : Resolution.Of answer b st (resolve answer b st) := resolve_cases
  generalize resolve answer b st = r at h hr ⊢
  cases hr with
  | pending hawarded ho hcount hverdict =>
    cases h
    exact ⟨hawarded, rfl, countP_of_settlement (Badge.nodup_requirements hnodup) hcount⟩
  | known | incomplete | failed | granted => cases h

theorem resolve_of_lock (hlock : b'.lock = b.lock) :
    resolve answer b' st = resolve answer b st := by
  simp only [resolve, overall?_of_lock hlock, requirements_of_lock hlock, id_of_lock hlock]

/-- A resolution that was carried out is at rest, and comes to the same at the next time. -/
theorem resolve_after (hnodup : (b.criteria.map (·.id)).Nodup) :
    resolve answer b (st.after (resolve answer b st)) =
      ⟨(resolve answer b st).decision.again, []⟩ := by
  have hsettled : settlement answer (extend st.recorded (settlement answer st.recorded
      b.requirements).marks) b.requirements =
        ⟨(settlement answer st.recorded b.requirements).count, []⟩ :=
    settlement_extend (Badge.nodup_requirements hnodup)
  cases hawarded : st.awarded with
  | true => simp [resolve, Standing.after, hawarded, Decision.again]
  | false =>
    cases ho : b.overall? with
    | none => simp [resolve, Standing.after, hawarded, ho, Decision.again, Decision.isGranted]
    | some o =>
      cases hcount : (settlement answer st.recorded b.requirements).count with
      | error e =>
        rw [hcount] at hsettled
        simp [resolve, Standing.after, hawarded, ho, hcount, hsettled, Decision.again,
          Decision.isGranted]
      | ok met =>
        rw [hcount] at hsettled
        cases hverdict : o.method.verdict (b.requirements.map fun d =>
            extend st.recorded (settlement answer st.recorded b.requirements).marks d.id) with
        | true =>
          simp [resolve, Standing.after, hawarded, ho, hcount, hverdict, Decision.again,
            Decision.isGranted]
        | false =>
          simp [resolve, Standing.after, hawarded, ho, hcount, hverdict, hsettled, Decision.again,
            Decision.isGranted]

end Resolving

end Review

end Badging
