import Badging.Proofs.Review.Locking
import Badging.Proofs.Review.Course

/-!
# What a review that fails leaves behind

A review that does not end with an outcome was cut short by a lookup, a question or a write, and all
that it wrote before stays. Those rows are met records, each for a criterion that was checked in
this very review and held. `CheckedAfter` says so of a criterion and the part of the review that
comes before its check: this part was executed, the check was executed in the world that it left and
answered with `true`, and the record was the next thing asked for.

The log of calls ties this to the review as a whole. Calls are only ever added to it, so what it
holds at the end is what was called in between.
-/

namespace Badging

namespace Run

variable {σ ε α β : Type}

variable {x : Run σ ε α} {f : α → Run σ ε β} {setting : Setting} {w : World σ}
  {I : World σ → Prop}

/-- The program leaves a world with the property, unless it ends with a value. -/
def CutLeaves (setting : Setting) (x : Run σ ε α) (w : World σ) (I : World σ → Prop) : Prop :=
  (∀ a, (x.exec setting w).1 ≠ .done a) → I (x.exec setting w).2

theorem cutLeaves_of_leaves (h : I (x.exec setting w).2) : CutLeaves setting x w I := fun _ => h

theorem cutLeaves_pure {a : α} : CutLeaves setting (pure a : Run σ ε α) w I :=
  fun h => absurd rfl (h a)

theorem cutLeaves_bind (hx : I (x.exec setting w).2)
    (hf : ∀ {a w₁}, x.exec setting w = (.done a, w₁) → I w₁ → CutLeaves setting (f a) w₁ I) :
    CutLeaves setting (x >>= f) w I := by
  rw [CutLeaves, exec_bind]
  rcases h : x.exec setting w with ⟨a | e | p, w₁⟩ <;> rw [h] at hx
  · exact hf h hx
  · exact fun _ => hx
  · exact fun _ => hx

theorem leaves_bind (hx : I (x.exec setting w).2)
    (hf : ∀ {a w₁}, x.exec setting w = (.done a, w₁) → I w₁ → I ((f a).exec setting w₁).2) :
    I ((x >>= f).exec setting w).2 := by
  rw [exec_bind]
  rcases h : x.exec setting w with ⟨a | e | p, w₁⟩ <;> rw [h] at hx
  · exact hf h hx
  · exact hx
  · exact hx

theorem exec_notify (setting : Setting) (n : Notice) (w : World σ) :
    ∃ w', (notify n : Run σ ε Unit).exec setting w = (.done (), w') := by
  unfold notify exec
  dsimp only
  split
  · exact ⟨_, rfl⟩
  · exact ⟨_, rfl⟩

/-- The program asks and looks up, but it neither changes the store nor sends anything. -/
def Quiet (x : Run σ ε α) : Prop :=
  ∀ setting w, (x.exec setting w).2.store = w.store ∧ (x.exec setting w).2.sent = w.sent ∧
    w.calls <:+ (x.exec setting w).2.calls

namespace Quiet

theorem pure (a : α) : Quiet (pure a : Run σ ε α) := fun _ _ => ⟨rfl, rfl, List.suffix_rfl⟩

theorem bind {x : Run σ ε α} {f : α → Run σ ε β} (hx : Quiet x) (hf : ∀ a, Quiet (f a)) :
    Quiet (x >>= f) := by
  intro setting w
  have h := hx setting w
  rw [exec_bind]
  revert h
  rcases x.exec setting w with ⟨a | _ | _, w₁⟩
  · rintro ⟨hstore, hsent, hcalls⟩
    obtain ⟨hstore', hsent', hcalls'⟩ := hf a setting w₁
    exact ⟨hstore'.trans hstore, hsent'.trans hsent, hcalls.trans hcalls'⟩
  · exact id
  · exact id

end Quiet

end Run

namespace Review

open Run

theorem compositional_quiet {σ : Type} :
    Compositional fun x : Run σ ReviewError _ => Quiet x :=
  ⟨Quiet.pure, Quiet.bind⟩

theorem quiet_ask {σ : Type} (q : Query) : Quiet (ask q : Run σ ReviewError q.Answer) := by
  intro setting w
  rw [ask, exec_mapError]
  unfold Run.ask exec
  dsimp only
  cases setting.faults.facts w.calls q with
  | some e => exact ⟨rfl, rfl, List.suffix_cons _ _⟩
  | none =>
    cases setting.facts q with
    | error e => exact ⟨rfl, rfl, List.suffix_cons _ _⟩
    | ok a => exact ⟨rfl, rfl, List.suffix_cons _ _⟩

variable {setting : Setting} {now : Instant} {b : Badge} {l : LearnerId} {c : Criterion}
  {w w' w'' : World Ledger}

theorem exec_call_cases (setting : Setting) (op : Operation) (w : World Ledger) :
    (∃ e, (call op).exec setting w = (.failed e, { w with calls := .store op :: w.calls })) ∨
      ∃ a s', Ledger.perform op w.store = .ok (a, s') ∧
        (call op).exec setting w = (.done (received setting.faults w.calls op a),
          { w with store := s', calls := .store op :: w.calls }) := by
  rw [call, exec_mapError]
  unfold Run.perform exec
  dsimp only
  cases setting.faults.store w.calls op with
  | some e => exact .inl ⟨_, rfl⟩
  | none =>
    cases hop : Store.perform op w.store with
    | error e => exact .inl ⟨_, rfl⟩
    | ok p => exact .inr ⟨p.1, p.2, hop, rfl⟩

theorem quiet_call {op : Operation} (h : op.isReading = true) :
    Quiet (call op : Run Ledger ReviewError op.Answer) := by
  intro setting w
  rcases exec_call_cases setting op w with ⟨e, hexec⟩ | ⟨a, s', hop, hexec⟩
  · rw [hexec]
    exact ⟨rfl, rfl, List.suffix_cons _ _⟩
  · rw [hexec]
    exact ⟨(Ledger.effect_of_perform hop).eq_of_idle (.of_isReading h a), rfl,
      List.suffix_cons _ _⟩

theorem quiet_criterion (b : Badge) (l : LearnerId) (c : Criterion) :
    Quiet (criterion b l c : Run Ledger ReviewError Bool) := by
  cases hc : c.isOverall with
  | true =>
    refine compositional_quiet.evaluate _ fun x hx => ?_
    rw [checks_of_isOverall hc] at hx
    obtain ⟨d, -, rfl⟩ := List.mem_map.1 hx
    exact (quiet_call rfl).bind fun _ => Quiet.pure _
  | false =>
    exact compositional_quiet.requirement (fun q _ => quiet_ask q) (fun _ => quiet_call rfl) hc

section Before

variable {σ : Type} [Store σ]

/-- The part of a review that comes before the check of a requirement, when those before it
were settled. -/
def beforeRequirement (b : Badge) (l : LearnerId) (now : Instant) (settled : List Criterion)
    (c : Criterion) : Run σ ReviewError (Option MetRecord) := do
  let _ ← call (.award b.id l)
  let _ ← settleAll b l now settled
  call (.criterionMet c.id l)

/-- The part of a review that comes before the check of the overall criterion. -/
def beforeOverall (b : Badge) (l : LearnerId) (now : Instant) : Run σ ReviewError Nat := do
  let _ ← call (.award b.id l)
  settleAll b l now b.requirements

/-- In a run that starts with `x` and leads from `w` to `w'`, the check of a criterion after `x` was
answered with `true`, and then its record was asked for. -/
def CheckedAfter {α : Type} (x : Run σ ReviewError α) (setting : Setting) (now : Instant)
    (b : Badge) (l : LearnerId) (w w' : World σ) (c : Criterion) : Prop :=
  ∃ a w₁ w₂, x.exec setting w = (.done a, w₁) ∧
    (criterion b l c).exec setting w₁ = (.done true, w₂) ∧
    .store (.markMet (c.met l now)) :: w₂.calls <:+ w'.calls

/-- In the review of a learner that leads from `w` to `w'`, the criterion was checked and held: it
is a requirement, checked after those before it were settled, or the overall criterion, checked
after all of them. -/
def CheckedIn (setting : Setting) (now : Instant) (b : Badge) (l : LearnerId) (w w' : World σ)
    (c : Criterion) : Prop :=
  (∃ settled rest, b.requirements = settled ++ c :: rest ∧
    CheckedAfter (beforeRequirement b l now settled c) setting now b l w w' c) ∨
  (b.overall? = some c ∧ CheckedAfter (beforeOverall b l now) setting now b l w w' c)

end Before

theorem CheckedAfter.later {α : Type} {x : Run Ledger ReviewError α}
    (h : CheckedAfter x setting now b l w w' c) (hcalls : w'.calls <:+ w''.calls) :
    CheckedAfter x setting now b l w w'' c := by
  obtain ⟨a, w₁, w₂, hx, hcheck, hmark⟩ := h
  exact ⟨a, w₁, w₂, hx, hcheck, hmark.trans hcalls⟩

theorem CheckedIn.later (h : CheckedIn setting now b l w w' c) (hcalls : w'.calls <:+ w''.calls) :
    CheckedIn setting now b l w w'' c := by
  rcases h with ⟨settled, rest, hc, h⟩ | ⟨ho, h⟩
  · exact .inl ⟨settled, rest, hc, h.later hcalls⟩
  · exact .inr ⟨ho, h.later hcalls⟩

/-- A review that starts at `w₀` and has come to `w` has sent no notice and changed nothing in the
ledger, except that it added met records of criteria that it had checked and that held. -/
structure OnlyChecked (setting : Setting) (now : Instant) (b : Badge) (l : LearnerId)
    (w₀ w : World Ledger) : Prop where
  rest : w.store = { w₀.store with met := w.store.met }
  sent : w.sent = w₀.sent
  kept : ∀ {k r}, w₀.store.met.get? k = some r → w.store.met.get? k = some r
  added : ∀ {k r}, w.store.met.get? k = some r → w₀.store.met.get? k = none →
    ∃ c ∈ b.criteria, CheckedIn setting now b l w₀ w c ∧ k = ⟨c.id, l⟩ ∧ r = ⟨c.id, b.id, l, now⟩

section Settling

variable {σ : Type} [Store σ]

theorem settleAll_singleton (b : Badge) (l : LearnerId) (now : Instant) (c : Criterion) :
    (settleAll b l now [c] : Run σ ReviewError Nat) =
      settle b l now c >>= fun met => pure (if met then 1 else 0) := rfl

theorem settleAll_append (b : Badge) (l : LearnerId) (now : Instant) (cs ds : List Criterion) :
    (settleAll b l now (cs ++ ds) : Run σ ReviewError Nat) =
      settleAll b l now cs >>= fun m => settleAll b l now ds >>= fun n => pure (m + n) := by
  induction cs with
  | nil => simp only [List.nil_append, settleAll, pure_bind, Nat.zero_add, bind_pure]
  | cons c cs ih =>
    simp only [List.cons_append, settleAll, ih, bind_assoc, pure_bind]
    refine bind_congr fun met => bind_congr fun m => bind_congr fun n => ?_
    cases met
    · rfl
    · rw [if_pos rfl, if_pos rfl, Nat.add_right_comm]

end Settling

namespace OnlyChecked

variable {w₀ : World Ledger}

theorem refl : OnlyChecked setting now b l w₀ w₀ where
  rest := rfl
  sent := rfl
  kept h := h
  added h hnone := by
    rw [hnone] at h
    cases h

theorem of_store_eq (h : OnlyChecked setting now b l w₀ w) (hstore : w'.store = w.store)
    (hsent : w'.sent = w.sent) (hcalls : w.calls <:+ w'.calls) :
    OnlyChecked setting now b l w₀ w' where
  rest := by rw [hstore, h.rest]
  sent := hsent.trans h.sent
  kept hr := hstore ▸ h.kept hr
  added hr hnone := by
    rw [hstore] at hr
    obtain ⟨c, hc, hchecked, heq⟩ := h.added hr hnone
    exact ⟨c, hc, hchecked.later hcalls, heq⟩

theorem quiet {α : Type} {x : Run Ledger ReviewError α} (h : OnlyChecked setting now b l w₀ w)
    (hx : Quiet x) : OnlyChecked setting now b l w₀ (x.exec setting w).2 :=
  h.of_store_eq (hx setting w).1 (hx setting w).2.1 (hx setting w).2.2

theorem markMet (h : OnlyChecked setting now b l w₀ w) (hc : c ∈ b.criteria)
    (hbadge : c.badge = b.id)
    (hchecked : ∀ {w'}, .store (.markMet (c.met l now)) :: w.calls <:+ w'.calls →
      CheckedIn setting now b l w₀ w' c) :
    OnlyChecked setting now b l w₀ ((call (.markMet (c.met l now))).exec setting w).2 := by
  rcases exec_call_cases setting (.markMet (c.met l now)) w with ⟨e, hexec⟩ | ⟨a, s', hop, hexec⟩
  · rw [hexec]
    exact h.of_store_eq rfl rfl (List.suffix_cons _ _)
  · rw [hexec]
    cases Ledger.effect_of_perform hop with
    | idle => exact h.of_store_eq rfl rfl (List.suffix_cons _ _)
    | markMet _ _ hnone =>
      refine ⟨by rw [h.rest], h.sent, fun {k r} hr => ?_, fun {k r} hr hnew => ?_⟩
      · dsimp only
        rw [w.store.met.get?_insert_of_ne, h.kept hr]
        rintro rfl
        rw [h.kept hr] at hnone
        cases hnone
      · rcases Register.get?_insert_eq_some_iff.1 hr with ⟨rfl, rfl⟩ | ⟨-, hr⟩
        · exact ⟨c, hc, hchecked List.suffix_rfl, rfl, by rw [Criterion.met, hbadge]⟩
        · obtain ⟨d, hd, hearlier, heq⟩ := h.added hr hnew
          exact ⟨d, hd, hearlier.later (List.suffix_cons _ _), heq⟩

/-- A requirement that is reviewed in its turn gets a record at most if it holds. -/
theorem settle (h : OnlyChecked setting now b l w₀ w) (hbadge : ∀ c ∈ b.criteria, c.badge = b.id)
    {settled rest : List Criterion} (hc : b.requirements = settled ++ c :: rest) {n : Nat}
    (hsettled : (call (.award b.id l) >>= fun _ => settleAll b l now settled).exec setting w₀ =
      (.done n, w)) :
    OnlyChecked setting now b l w₀ ((Review.settle b l now c).exec setting w).2 := by
  have hmem : c ∈ b.criteria := by
    refine (Badge.mem_requirements_iff.1 ?_).1
    rw [hc]
    exact List.mem_append_right _ List.mem_cons_self
  refine leaves_bind (h.quiet (quiet_call rfl)) fun {record w₁} hlookup h₁ => ?_
  split
  · exact h₁
  · refine leaves_bind (h₁.quiet (quiet_criterion b l c)) fun {holds w₂} hcheck h₂ => ?_
    cases holds with
    | false => exact h₂
    | true =>
      have hbefore :
          (beforeRequirement b l now settled c).exec setting w₀ = (.done record, w₁) := by
        rw [beforeRequirement, ← bind_assoc, exec_bind_of_done hsettled, hlookup]
      exact leaves_bind (h₂.markMet hmem (hbadge c hmem) fun hcalls =>
        .inl ⟨settled, rest, hc, record, w₁, w₂, hbefore, hcheck, hcalls⟩) fun _ h₃ => h₃

theorem settleAll (h : OnlyChecked setting now b l w₀ w)
    (hbadge : ∀ c ∈ b.criteria, c.badge = b.id) {settled cs : List Criterion}
    (hcs : b.requirements = settled ++ cs) {n : Nat}
    (hsettled : (call (.award b.id l) >>=
      fun _ => Review.settleAll b l now settled).exec setting w₀ = (.done n, w)) :
    OnlyChecked setting now b l w₀ ((Review.settleAll b l now cs).exec setting w).2 := by
  induction cs generalizing settled n w with
  | nil => exact h
  | cons c cs ih =>
    refine leaves_bind (h.settle hbadge hcs hsettled) fun {met w₁} hmet h₁ => ?_
    have hsettled' : (call (.award b.id l) >>= fun _ =>
        Review.settleAll b l now (settled ++ [c])).exec setting w₀ =
          (.done (n + if met then 1 else 0), w₁) := by
      simp only [settleAll_append, ← bind_assoc]
      rw [exec_bind_of_done hsettled, settleAll_singleton, bind_assoc, exec_bind_of_done hmet]
      rfl
    refine leaves_bind (ih h₁ ?_ hsettled') fun _ h₂ => h₂
    rw [hcs, List.append_assoc, List.singleton_append]

/-- After an award was inserted, nothing cuts a review short. -/
theorem exec_lock_notify (setting : Setting) (now : Instant) (b : Badge) (l : LearnerId) (a : Award)
    (w : World Ledger) :
    ∃ w', (do
      let _ ← Run.attempt (lockAwarded b.id)
      Run.notify (a.notice b)
      return .awarded a : Run Ledger ReviewError Outcome).exec setting w =
        (.done (.awarded a), w') := by
  have hlock : Upholds setting (Along (Minor b l now) w.store w.sent) (lockAwarded b.id) :=
    upholds_lockAwarded
  obtain ⟨v, w₁, hv⟩ := hlock.exists_exec (w := w) ⟨.refl, rfl⟩
  obtain ⟨w₂, hnotify⟩ := exec_notify (ε := ReviewError) setting (a.notice b) w₁
  exact ⟨w₂, by rw [exec_bind_of_done (exec_attempt_of_exec hv), exec_bind_of_done hnotify]; rfl⟩

/-- Issuing a badge adds nothing if it is cut short. -/
theorem issue (h : OnlyChecked setting now b l w₀ w) :
    CutLeaves setting (Review.issue b l now) w (OnlyChecked setting now b l w₀) := by
  refine cutLeaves_bind (x := freshToken) (h.of_store_eq rfl rfl List.suffix_rfl)
    fun {token w₁} _ h₁ => ?_
  cases ha : Award.issue b l now token with
  | error p => exact cutLeaves_of_leaves h₁
  | ok a =>
    dsimp only
    rcases exec_call_cases setting (.insertAward a) w₁ with ⟨e, hexec⟩ | ⟨added, s', hop, hexec⟩
    · rw [CutLeaves, exec_bind, hexec]
      exact fun _ => h₁.of_store_eq rfl rfl (List.suffix_cons _ _)
    · rw [CutLeaves, exec_bind_of_done hexec]
      cases added with
      | false => exact cutLeaves_pure
      | true =>
        obtain ⟨w₂, hdone⟩ := exec_lock_notify setting now b l a
          { w₁ with store := s', calls := .store (.insertAward a) :: w₁.calls }
        exact fun hcut => absurd (congrArg Prod.fst hdone) (hcut _)

end OnlyChecked

/-- The review of a learner that is cut short adds only records of what it checked. -/
theorem cutLeaves_learner (hbadge : ∀ c ∈ b.criteria, c.badge = b.id) (w₀ : World Ledger) :
    CutLeaves setting (learner b l now) w₀ (OnlyChecked setting now b l w₀) := by
  refine cutLeaves_bind (OnlyChecked.refl.quiet (quiet_call rfl)) fun {award w₁} haward h₁ => ?_
  split
  · exact cutLeaves_pure
  · cases ho : b.overall? with
    | none => exact cutLeaves_of_leaves h₁
    | some o =>
      have hmem : o ∈ b.criteria := List.mem_of_find?_eq_some ho
      have hnone : (call (.award b.id l) >>= fun _ => Review.settleAll b l now []).exec setting w₀ =
          (.done 0, w₁) := by
        rw [exec_bind_of_done haward]
        rfl
      refine cutLeaves_bind (h₁.settleAll hbadge rfl hnone) fun {met w₂} hmet h₂ => ?_
      refine cutLeaves_bind (h₂.quiet (quiet_criterion b l o)) fun {holds w₃} hcheck h₃ => ?_
      cases holds with
      | false => exact cutLeaves_pure
      | true =>
        have hbefore : (beforeOverall b l now).exec setting w₀ = (.done met, w₂) := by
          rw [beforeOverall, exec_bind_of_done haward, hmet]
        exact cutLeaves_bind (h₃.markMet hmem (hbadge o hmem) fun hcalls =>
          .inr ⟨ho, met, w₂, w₃, hbefore, hcheck, hcalls⟩) fun _ h₄ => h₄.issue

/-- A badge was read from a ledger and is reviewed in any world, whatever happened in between. If
the review comes to no outcome, it has sent nothing and changed nothing but for adding met records,
each of a criterion of the badge that it had checked and that held. -/
theorem cut_short_review_adds_checked_records (ops : List Operation) {id : BadgeId}
    {b : Badge} (hb : (Store.run Ledger.empty ops).badges.get? id = some b) (w : World Ledger)
    (setting : Setting) (l : LearnerId)
    (now : Instant) (hcut : ∀ outcome, ((learner b l now).exec setting w).1 ≠ .done outcome) :
    OnlyChecked setting now b l w ((learner b l now).exec setting w).2 :=
  cutLeaves_learner (fun c hc => ((Ledger.sound_run ops).badge hb).badge_eq c hc |>.trans
    ((Ledger.sound_run ops).badge hb).id_eq.symm) w hcut

/-- The review that loses the award fails, and leaves the records of both criteria. -/
theorem cut_short_review_adds_networker_records :
    let now : Instant := ⟨0, 0, by decide, by decide, by decide, by decide⟩
    let setting : Setting := ⟨connectedLearner.source, insertsLost, fun _ => "token"⟩
    let w := World.ofStore (Store.run Ledger.empty networkBadge)
    ∃ b, (Store.run Ledger.empty networkBadge).badges.get? ⟨1⟩ = some b ∧
      ((learner b ⟨7⟩ now).exec setting w).1 = .failed (.store .conflict) ∧
      ((learner b ⟨7⟩ now).exec setting w).2.store.met.keys = [⟨⟨1⟩, ⟨7⟩⟩, ⟨⟨2⟩, ⟨7⟩⟩] ∧
      OnlyChecked setting now b ⟨7⟩ w ((learner b ⟨7⟩ now).exec setting w).2 := by
  intro now setting w
  have hb : (Store.run Ledger.empty networkBadge).badges.get? ⟨1⟩ = some (networker .active) := by
    decide +kernel
  have hfailed : ((learner (networker .active) ⟨7⟩ now).exec setting w).1 =
      .failed (.store .conflict) := by
    decide +kernel
  refine ⟨networker .active, hb, hfailed, by decide +kernel, ?_⟩
  refine cut_short_review_adds_checked_records networkBadge hb w setting ⟨7⟩ now fun outcome h => ?_
  rw [hfailed] at h
  cases h

end Review

end Badging
