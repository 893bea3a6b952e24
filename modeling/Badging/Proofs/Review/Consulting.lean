import Badging.Proofs.Run.Triple
import Badging.Review.Verdict
import Badging.Store.Ledger
import Badging.Store.Tables

/-!
# Runs that only look things up

The review of a criterion asks for facts, for manual awards and for met records, and does nothing
else. `Lookups` is all that it can be told. Any of these lookups may fail, and whether one does may
depend on what was called before, so the same lookup can be answered in two ways during one review.
`Answered` goes through the calls that were made, with the calls before each of them carried along,
and says that every one was answered as some lookups say.

`Consults x d` is then the whole account of a program `x` that only looks things up: it leaves
everything but the list of calls as it was, it makes no other calls than lookups, and it ends with
what `d` makes of any lookups by which its calls were answered. The rules follow the constructors of
programs.
-/

namespace Badging

/-- What the rows of a store tell about learners, or why they cannot be read. -/
structure Rows where
  manual : BadgeId → LearnerId → RoleId → Except StoreError Bool
  met : CriterionId → LearnerId → Except StoreError (Option MetRecord)

/-- What there is to be looked up. -/
structure Lookups extends Rows where
  fact : (q : Query) → Except SourceError q.Answer

/-- A store answers lookups by its rows, and stays as it is. -/
structure Readable {σ : Type} [Store σ] (rows : σ → Rows) : Prop where
  manual : ∀ s b l r,
    Store.perform (.manualExists b l r) s = ((rows s).manual b l r).map (·, s)
  met : ∀ s c l, Store.perform (.criterionMet c l) s = ((rows s).met c l).map (·, s)

def Ledger.rows (s : Ledger) : Rows :=
  ⟨fun b l r => .ok (s.manual.contains ⟨b, l, r⟩), fun c l => .ok (s.met.get? ⟨c, l⟩)⟩

def Tables.rows (s : Tables) : Rows :=
  ⟨fun b l r => .ok (s.manualExists b l r), fun c l => s.criterionMet c l⟩

theorem Ledger.readable : Readable Ledger.rows := ⟨fun _ _ _ _ => rfl, fun _ _ _ => rfl⟩

theorem Tables.readable : Readable Tables.rows := ⟨fun _ _ _ _ => rfl, fun _ _ _ => rfl⟩

/-- The calls that look something up. -/
def Call.IsLookup : Call → Prop
  | .facts _ | .store (.manualExists _ _ _) | .store (.criterionMet _ _) => True
  | _ => False

/-- Which lookups fail does not depend on the calls before. -/
def FaultPlan.Fixed (plan : FaultPlan) : Prop :=
  ∀ h, plan.facts h = plan.facts [] ∧ plan.store h = plan.store []

namespace Lookups

/-- The lookups as they are answered after the calls `h`, with those failing that the plan says. -/
def under (plan : FaultPlan) (h : List Call) (L : Lookups) : Lookups where
  fact q := match plan.facts h q with
    | some e => .error e
    | none => L.fact q
  manual b l r := match plan.store h (.manualExists b l r) with
    | some e => .error e
    | none => L.manual b l r
  met c l := match plan.store h (.criterionMet c l) with
    | some e => .error e
    | none => L.met c l

/-- Two accounts of what there is give the same answer to a call. -/
def Agree (L L' : Lookups) : Call → Prop
  | .facts q => L.fact q = L'.fact q
  | .store (.manualExists b l r) => L.manual b l r = L'.manual b l r
  | .store (.criterionMet c l) => L.met c l = L'.met c l
  | _ => True

theorem under_of_fixed {plan : FaultPlan} (hplan : plan.Fixed) (h : List Call) (L : Lookups) :
    L.under plan h = L.under plan [] := by
  unfold under
  rw [(hplan h).1, (hplan h).2]

theorem under_empty (h : List Call) (L : Lookups) : L.under .empty h = L := rfl

theorem agree_self (L : Lookups) (call : Call) : L.Agree L call := by
  unfold Agree
  split <;> trivial

end Lookups

/-- The calls of a list, the latest first, which were made after the calls `earlier`, were answered
as `L` says, though there was `L₀` to be looked up. -/
def Answered (plan : FaultPlan) (L₀ L : Lookups) : List Call → List Call → Prop
  | _, [] => True
  | earlier, call :: made =>
    (L₀.under plan (made ++ earlier)).Agree L call ∧ Answered plan L₀ L earlier made

theorem answered_append {plan : FaultPlan} {L₀ L : Lookups} {earlier made made' : List Call} :
    Answered plan L₀ L earlier (made' ++ made) ↔
      Answered plan L₀ L (made ++ earlier) made' ∧ Answered plan L₀ L earlier made := by
  induction made' with
  | nil => simp [Answered]
  | cons call made' ih =>
    simp only [List.cons_append, Answered, ih, List.append_assoc, and_assoc]

/-- If the same calls fail whenever they are made, everything is answered as before any call. -/
theorem answered_of_fixed {plan : FaultPlan} (h : plan.Fixed) (L : Lookups)
    (earlier made : List Call) : Answered plan L (L.under plan []) earlier made := by
  induction made with
  | nil => trivial
  | cons call made ih =>
    refine ⟨?_, ih⟩
    rw [L.under_of_fixed h]
    exact Lookups.agree_self _ call

namespace Review

open Run

variable {σ α β : Type} {rows : σ → Rows} {setting : Setting}

/-- The program leaves all but the list of calls as it was, makes no calls but lookups, and ends
with what `d` makes of any lookups by which its calls were answered. -/
def Consults (rows : σ → Rows) (setting : Setting) (x : Run σ ReviewError α)
    (d : Lookups → Except ReviewError α) : Prop :=
  ∀ w : World σ, ∃ v made, x.exec setting w = (.ofExcept v, { w with calls := made ++ w.calls }) ∧
    (∀ call ∈ made, call.IsLookup) ∧
    ∀ L, Answered setting.faults ⟨rows w.store, setting.facts⟩ L w.calls made → v = d L

namespace Consults

theorem pure (a : α) : Consults rows setting (pure a : Run σ ReviewError α) fun _ => .ok a :=
  fun _ => ⟨.ok a, [], rfl, fun _ h => absurd h List.not_mem_nil, fun _ _ => rfl⟩

theorem bind {x : Run σ ReviewError α} {f : α → Run σ ReviewError β}
    {d : Lookups → Except ReviewError α} {e : α → Lookups → Except ReviewError β}
    (hx : Consults rows setting x d) (hf : ∀ a, Consults rows setting (f a) (e a)) :
    Consults rows setting (x >>= f) fun L => d L >>= fun a => e a L := by
  intro w
  obtain ⟨v, made, hexec, hlookups, hv⟩ := hx w
  cases v with
  | error err =>
    refine ⟨.error err, made, ?_, hlookups, fun L hL => ?_⟩
    · rw [exec_bind, hexec]
      rfl
    · dsimp only
      rw [← hv L hL]
      rfl
  | ok a =>
    obtain ⟨v', made', hexec', hlookups', hv'⟩ := hf a { w with calls := made ++ w.calls }
    refine ⟨v', made' ++ made, ?_, fun call hcall => ?_, fun L hL => ?_⟩
    · rw [exec_bind, hexec]
      dsimp only [Ending.ofExcept]
      rw [hexec', List.append_assoc]
      rfl
    · exact (List.mem_append.1 hcall).elim (hlookups' call) (hlookups call)
    · obtain ⟨hL', hL⟩ := answered_append.1 hL
      dsimp only
      rw [← hv L hL]
      exact hv' L hL'

theorem ite {p : Prop} [Decidable p] {x y : Run σ ReviewError α}
    {d e : Lookups → Except ReviewError α} (hx : Consults rows setting x d)
    (hy : Consults rows setting y e) :
    Consults rows setting (if p then x else y) fun L => if p then d L else e L := by
  by_cases h : p
  · simpa only [if_pos h] using hx
  · simpa only [if_neg h] using hy

theorem ask (q : Query) : Consults rows setting (ask q : Run σ ReviewError q.Answer)
    fun L => (L.fact q).mapError .source := by
  intro w
  refine ⟨((Lookups.under setting.faults w.calls
      ⟨rows w.store, setting.facts⟩).fact q).mapError .source,
    [.facts q], ?_, fun call hcall => ?_, fun L hL => congrArg _ hL.1⟩
  · unfold Review.ask Run.ask Run.mapError exec Lookups.under
    dsimp only
    cases setting.faults.facts w.calls q with
    | some e => rfl
    | none => cases setting.facts q <;> rfl
  · rw [List.mem_singleton.1 hcall]
    trivial

variable [Store σ]

theorem call (op : Operation) (read : Rows → Except StoreError op.Answer)
    (hperform : ∀ s, Store.perform op s = (read (rows s)).map (·, s))
    (hreceived : ∀ plan h a, received plan h op a = a) (hop : (Call.store op).IsLookup)
    (hunder : ∀ (plan : FaultPlan) h (L : Lookups), read (L.under plan h).toRows =
      match plan.store h op with
      | some e => .error e
      | none => read L.toRows)
    (hagree : ∀ L L' : Lookups, L.Agree L' (.store op) → read L.toRows = read L'.toRows) :
    Consults rows setting (call op : Run σ ReviewError op.Answer)
      fun L => (read L.toRows).mapError .store := by
  intro w
  refine ⟨(read (Lookups.under setting.faults w.calls
      ⟨rows w.store, setting.facts⟩).toRows).mapError .store,
    [.store op], ?_, fun call hcall => ?_, fun L hL => congrArg _ (hagree _ _ hL.1)⟩
  · rw [hunder]
    unfold Review.call Run.perform Run.mapError exec
    dsimp only
    cases setting.faults.store w.calls op with
    | some e => rfl
    | none =>
      rw [hperform]
      dsimp only
      cases read (rows w.store) with
      | error e => rfl
      | ok a =>
        dsimp only [Except.map]
        rw [hreceived]
        rfl
  · rw [List.mem_singleton.1 hcall]
    exact hop

theorem manualExists (h : Readable rows) (b : BadgeId) (l : LearnerId) (r : RoleId) :
    Consults rows setting (Review.call (.manualExists b l r) : Run σ ReviewError Bool)
      fun L => (L.manual b l r).mapError .store :=
  call (.manualExists b l r) (fun R => R.manual b l r) (fun s => h.manual s b l r)
    (fun _ _ _ => rfl) trivial (fun _ _ _ => rfl) fun _ _ h => h

theorem criterionMet (h : Readable rows) (c : CriterionId) (l : LearnerId) :
    Consults rows setting (Review.call (.criterionMet c l) : Run σ ReviewError (Option MetRecord))
      fun L => (L.met c l).mapError .store :=
  call (.criterionMet c l) (fun R => R.met c l) (fun s => h.met s c l) (fun _ _ _ => rfl) trivial
    (fun _ _ _ => rfl) fun _ _ h => h

omit [Store σ] in
theorem evaluateRest {ι : Type} (method : Method) {x : ι → Run σ ReviewError Bool}
    {d : ι → Lookups → Except ReviewError Bool} (is : List ι)
    (h : ∀ i ∈ is, Consults rows setting (x i) (d i)) :
    Consults rows setting (method.evaluateRest (is.map x))
      fun L => method.evaluateRest (is.map fun i => d i L) := by
  induction is with
  | nil => exact pure _
  | cons i is ih =>
    exact bind (h i List.mem_cons_self) fun passed =>
      ite (pure passed) (ih fun j hj => h j (List.mem_cons_of_mem _ hj))

omit [Store σ] in
theorem evaluate {ι : Type} (method : Method) {x : ι → Run σ ReviewError Bool}
    {d : ι → Lookups → Except ReviewError Bool} (is : List ι)
    (h : ∀ i ∈ is, Consults rows setting (x i) (d i)) :
    Consults rows setting (method.evaluate (is.map x))
      fun L => method.evaluate (is.map fun i => d i L) := by
  cases is with
  | nil => exact pure _
  | cons i is => exact evaluateRest method (i :: is) h

end Consults

end Review

end Badging
