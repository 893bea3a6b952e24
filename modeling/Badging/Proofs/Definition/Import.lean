import Badging.Proofs.Definition.Creation
import Badging.Proofs.Review.Locking
import Mathlib.Data.List.TakeWhile

/-!
# Importing definitions

Definitions are imported in order, up to the first that is not valid. Each one before it adds the
badge that it describes, under a new identity, and the first that is not valid adds nothing; the
definitions after it make no difference. So the contents after an import that failed are those after
an import of the definitions before.

A store that fails may leave a badge behind that could not be created. It has to fail twice for
that: once in the middle of the work, and once more when the badge is deleted again.
-/

namespace Badging

namespace Definition

open Run Ledger

/-- What has become of a ledger when the badges `bs` were made of the definitions `ds`. -/
structure Imported (ds : List Definition) (bs : List Badge) (s s' : Ledger) : Prop
    extends SameBut (bs.map (·.id)) s s' where
  describes : List.Forall₂ Describes ds bs
  fresh : ∀ b ∈ bs, s.badges.get? b.id = none
  distinct : (bs.map (·.id)).Nodup
  stored : ∀ b ∈ bs, s'.badges.get? b.id = some b

variable {setting : Setting} {w : World Ledger} {d : Definition} {ds : List Definition}
  {s s' s'' : Ledger} {b : Badge} {bs : List Badge} {n : List Notice}

theorem imported_nil : Imported [] [] s s :=
  ⟨.refl, .nil, fun _ h => absurd h List.not_mem_nil, .nil, fun _ h => absurd h List.not_mem_nil⟩

theorem Imported.cons (hbuilding : Building s b s' n) (hfresh : s.badges.get? b.id = none)
    (hdescribes : d.Describes b) (h : Imported ds bs s' s'') :
    Imported (d :: ds) (b :: bs) s s'' := by
  have hne : ∀ b' ∈ bs, b'.id ≠ b.id := fun b' hb' hid => by
    have hnone := h.fresh b' hb'
    rw [hid, hbuilding.2] at hnone
    cases hnone
  have hnew : b.id ∉ bs.map (·.id) := fun hmem => by
    obtain ⟨b', hb', hid⟩ := List.mem_map.1 hmem
    exact hne b' hb' hid
  refine ⟨hbuilding.1.trans h.toSameBut, .cons hdescribes h.describes,
    List.forall_mem_cons.2 ⟨hfresh, fun b' hb' => ?_⟩, List.nodup_cons.2 ⟨hnew, h.distinct⟩,
    List.forall_mem_cons.2 ⟨?_, h.stored⟩⟩
  · rw [← hbuilding.1.badges (by simpa using hne b' hb')]
    exact h.fresh b' hb'
  · rw [h.badges hnew, hbuilding.2]

theorem createAll_append {σ : Type} [Store σ] (ds ds' : List Definition) :
    (createAll (ds ++ ds') : Run σ _ _) = do
      let bs ← createAll ds
      let bs' ← createAll ds'
      return bs ++ bs' := by
  induction ds with
  | nil => simp [createAll]
  | cons d ds ih => simp [createAll, ih]

theorem sound_create (setting : Setting) (d : Definition) (hs : w.store.Sound) :
    (d.create.exec setting w).2.store.Sound :=
  Triple.after (keeps_create (I := fun (s : Ledger) _ => s.Sound) (Keeps.perform fun _ _ _ _ hs h =>
    hs.effect (effect_of_perform h)) d) hs

section Spared

variable (hspared : setting.faults.SparesStore)

include hspared

theorem exec_create_of_valid (hs : w.store.Sound) (hd : d.Valid) :
    ∃ b w', d.create.exec setting w = (.done b, w') ∧ Building w.store b w'.store w'.sent ∧
      w.store.badges.get? b.id = none ∧ d.Describes b ∧ w'.store.Sound := by
  have h := triple_create_exact hspared (d := d) hs w rfl
  have hsound := sound_create setting d hs
  revert h hsound
  rcases d.create.exec setting w with ⟨b | e | p, w'⟩
  · rintro ⟨hbuilding, hfresh, hdescribes, -⟩ hsound
    exact ⟨b, w', rfl, hbuilding, hfresh, hdescribes, hsound⟩
  · exact fun h => absurd hd h.2
  · exact False.elim

theorem exec_create_of_not_valid (hs : w.store.Sound) (hd : ¬ d.Valid) :
    ∃ e w', d.create.exec setting w = (.failed e, w') ∧ SameContents w.store w'.store := by
  have h := triple_create_exact hspared (d := d) hs w rfl
  revert h
  rcases d.create.exec setting w with ⟨b | e | p, w'⟩
  · exact fun h => absurd h.2.2.2 hd
  · exact fun h => ⟨e, w', rfl, h.1⟩
  · exact False.elim

theorem exec_createAll_of_valid (hs : w.store.Sound) (hds : ∀ d ∈ ds, d.Valid) :
    ∃ bs w', (createAll ds).exec setting w = (.done bs, w') ∧ Imported ds bs w.store w'.store ∧
      w'.store.Sound := by
  induction ds generalizing w with
  | nil => exact ⟨[], w, rfl, imported_nil, hs⟩
  | cons d ds ih =>
    obtain ⟨hd, hds⟩ := List.forall_mem_cons.1 hds
    obtain ⟨b, w', hexec, hbuilding, hfresh, hdescribes, hs'⟩ := exec_create_of_valid hspared hs hd
    obtain ⟨bs, w'', hexec', himported, hs''⟩ := ih hs' hds
    refine ⟨b :: bs, w'', ?_, .cons hbuilding hfresh hdescribes himported, hs''⟩
    rw [createAll, exec_bind_of_done hexec, exec_bind_of_done hexec']
    rfl

/-- The import of a list fails with the first definition that is not valid, whatever comes after
it. -/
theorem exec_createAll_of_not_valid {w' : World Ledger} (hs : w'.store.Sound)
    (hexec : (createAll ds).exec setting w = (.done bs, w')) (hd : ¬ d.Valid) :
    ∃ e w'', SameContents w'.store w''.store ∧
      ∀ rest, (createAll (ds ++ d :: rest)).exec setting w = (.failed e, w'') := by
  obtain ⟨e, w'', hfailed, hsame⟩ := exec_create_of_not_valid hspared hs hd
  refine ⟨e, w'', hsame, fun rest => ?_⟩
  rw [createAll_append, exec_bind_of_done hexec, createAll, exec_bind, exec_bind, hfailed]

end Spared

theorem sameBut_insertBadge (hs : s.Sound) {new : NewBadge}
    (h : Ledger.perform (.insertBadge new) s = .ok (b, s')) :
    SameBut [b.id] s s' ∧ s.badges.get? b.id = none := by
  cases effect_of_perform h with
  | idle hidle => cases hidle
  | insertBadge => exact ⟨SameBut.refl.insert List.mem_cons_self _ _ _, hs.get?_next⟩

/-- What can become of a badge in the making, as long as it is not deleted, is only about itself. -/
theorem keeps_sameBut (setting : Setting) (d : Definition) {s₀ : Ledger} (id : BadgeId)
    (hb : b.id = id) :
    Keeps setting (fun s _ => SameBut [id] s₀ s) (configure b d) := by
  subst hb
  refine keeps_configure (fun r => Keeps.perform fun c s s' n h hop => ?_)
    (fun status => Keeps.perform fun u s s' n h hop => ?_) d
  · cases effect_of_perform hop with
    | idle hidle => cases hidle
    | addCriterion => exact h.insert List.mem_cons_self _ _ _
  · cases effect_of_perform hop with
    | idle hidle => cases hidle
    | setStatus => exact h.insert List.mem_cons_self _ _ _

/-- The last call was to delete a badge, and it was made to fail. -/
def DeletionFaulted (setting : Setting) (calls : List Call) : Prop :=
  ∃ id history e, calls = .store (.deleteBadge id) :: history ∧
    setting.faults.store history (.deleteBadge id) = some e

theorem sameContents_of_cleanup (setting : Setting) {s₀ : Ledger} (hs₀ : s₀.Sound) {id : BadgeId}
    (hfresh : s₀.badges.get? id = none) (h : SameBut [id] s₀ w.store) :
    let w' := ((Run.perform (.deleteBadge id)).exec setting w).2
    SameContents s₀ w'.store ∨ DeletionFaulted setting w'.calls := by
  rcases exec_perform_cases setting (.deleteBadge id) w with
    ⟨e, w₁, hexec, -⟩ | ⟨a, w₁, hop, -, hexec⟩
  · rw [hexec]
    obtain ⟨rfl, hfault | hrefused⟩ := exec_perform_failed hexec
    · exact .inr ⟨id, _, e, rfl, hfault⟩
    · exact .inl (h.sameContents hfresh (get?_of_deleteBadge_refused hrefused))
  · rw [hexec]
    exact .inl (h.deleteBadge hs₀ hfresh hop)

/-- A badge that cannot be created leaves nothing behind unless its deletion was made to fail. -/
theorem sameContents_of_create_failed {e : DefinitionError} {w' : World Ledger}
    (hs : w.store.Sound) (h : d.create.exec setting w = (.failed e, w')) :
    SameContents w.store w'.store ∨
      (∃ b w₁, (Run.perform (.insertBadge d.newBadge)).exec setting w = (.done b, w₁)) ∧
        DeletionFaulted setting w'.calls := by
  rw [create, exec_bind, call, exec_mapError] at h
  rcases exec_perform_cases setting (.insertBadge d.newBadge) w with
    ⟨e₁, w₁, hexec, hstore, -⟩ | ⟨b, w₁, hop, -, hexec⟩
  · rw [hexec] at h
    cases h
    rw [hstore]
    exact .inl .refl
  · obtain ⟨hbut, hfresh⟩ := sameBut_insertBadge hs hop
    have hconfigured := (keeps_sameBut setting d b.id rfl).after hbut
    rw [hexec] at h
    dsimp only [received] at h
    rw [exec_bind, exec_attempt] at h
    revert hconfigured h
    -- Whatever configuring came to, if it failed the badge is deleted next.
    rcases (configure b d).exec setting w₁ with ⟨b' | e₂ | p, w₂⟩
    · exact nofun
    · intro h hbut'
      have hcleanup := sameContents_of_cleanup setting hs hfresh hbut'
      dsimp only at h
      rw [exec_bind, exec_attempt] at h
      revert hcleanup h
      rcases (Run.perform (.deleteBadge b.id)).exec setting w₂ with ⟨_ | _ | _, w₃⟩
      · rintro ⟨⟩ hcleanup
        exact hcleanup.imp_right fun hfaulted => ⟨⟨_, _, hexec⟩, hfaulted⟩
      · rintro ⟨⟩ hcleanup
        exact hcleanup.imp_right fun hfaulted => ⟨⟨_, _, hexec⟩, hfaulted⟩
      · exact nofun
    · exact nofun

/-- The last call was to delete a badge, and it was not made to fail. -/
def DeletionSpared (setting : Setting) (calls : List Call) : Prop :=
  ∃ id history, calls = .store (.deleteBadge id) :: history ∧
    setting.faults.store history (.deleteBadge id) = none

theorem DeletionSpared.not_faulted {calls : List Call} (h : DeletionSpared setting calls) :
    ¬ DeletionFaulted setting calls := by
  rintro ⟨id', history', e, hcalls', hfault⟩
  obtain ⟨id, history, hcalls, hspared⟩ := h
  rw [hcalls, List.cons.injEq, Call.store.injEq, Operation.deleteBadge.injEq] at hcalls'
  obtain ⟨rfl, rfl⟩ := hcalls'
  rw [hspared] at hfault
  cases hfault

/-- The definitions before the first that is not valid. -/
def validPrefix (ds : List Definition) : List Definition := ds.takeWhile fun d => decide d.Valid

theorem validPrefix_append_cons {rest : List Definition} (hds : ∀ d ∈ ds, d.Valid) (hd : d.Valid) :
    validPrefix (ds ++ d :: rest) = ds ++ d :: validPrefix rest := by
  rw [validPrefix, List.takeWhile_append_of_pos fun d hd => decide_eq_true (hds d hd),
    List.takeWhile_cons, if_pos (decide_eq_true hd)]
  rfl

/-- The badges of the definitions before the first that is not valid are created, and no other. -/
def ImportsValidPrefix (setting : Setting) (w : World Ledger) (ds : List Definition) : Prop :=
  ∃ bs w₁, (createAll (validPrefix ds)).exec setting w = (.done bs, w₁) ∧
    Imported (validPrefix ds) bs w.store w₁.store ∧
    ∀ d rest, ds = validPrefix ds ++ d :: rest → ∃ e w₂, SameContents w₁.store w₂.store ∧
      ∀ rest', (createAll (validPrefix ds ++ d :: rest')).exec setting w = (.failed e, w₂)

/-- A badge that cannot be created leaves nothing behind if it could not be added in the first
place, or if it could be deleted again. -/
def LeavesNothing (setting : Setting) (w : World Ledger) (d : Definition) : Prop :=
  ∀ e w', d.create.exec setting w = (.failed e, w') →
    (∃ e' w₁, (Run.perform (.insertBadge d.newBadge)).exec setting w = (.failed e', w₁)) ∨
      DeletionSpared setting w'.calls →
    SameContents w.store w'.store

theorem importsValidPrefix (hspared : setting.faults.SparesStore) (hs : w.store.Sound)
    (ds : List Definition) : ImportsValidPrefix setting w ds := by
  have hvalid : ∀ d ∈ validPrefix ds, d.Valid := fun d hd => by
    simpa using List.mem_takeWhile_imp hd
  obtain ⟨bs, w₁, hexec, himported, hs₁⟩ := exec_createAll_of_valid hspared hs hvalid
  refine ⟨bs, w₁, hexec, himported, fun d rest hds => ?_⟩
  have hinvalid : ¬ d.Valid := fun hd => by
    -- Otherwise there would be one valid definition more at the front.
    have hprefix := congrArg validPrefix hds
    rw [validPrefix_append_cons hvalid hd, List.self_eq_append_right] at hprefix
    cases hprefix
  exact exec_createAll_of_not_valid hspared hs₁ hexec hinvalid

theorem leavesNothing (hs : w.store.Sound) (d : Definition) : LeavesNothing setting w d := by
  intro e w' hexec hcause
  rcases sameContents_of_create_failed hs hexec with hsame | ⟨⟨b, w₁, hinserted⟩, hfaulted⟩
  · exact hsame
  · rcases hcause with ⟨e', w₂, hfailed⟩ | hspared
    · rw [hinserted] at hfailed
      cases hfailed
    · exact absurd hfaulted hspared.not_faulted

/-- Whatever was done to a ledger, an import into it takes each definition whole or not at all, and
stops at the first that is not valid, provided that the ledger does what it is asked. If it does
not, a badge is left behind only if its deletion was made to fail. -/
theorem ledger_imports_whole_definitions (ops : List Operation) (setting : Setting)
    (w : World Ledger) (hw : w.store = Store.run Ledger.empty ops) :
    (setting.faults.SparesStore → ∀ ds, ImportsValidPrefix setting w ds) ∧
      ∀ d, LeavesNothing setting w d := by
  have hs : w.store.Sound := hw ▸ sound_run ops
  exact ⟨fun hspared => importsValidPrefix hspared hs, leavesNothing hs⟩

/-- The plan by which no status is written. -/
def statusesLost : FaultPlan := { FaultPlan.empty with
  store := fun _ op => match op with
    | .setStatus _ _ => some (.unavailable "read only")
    | _ => none }

/-- Of three definitions the second asks for a badge without requirements. A badge whose status
cannot be written is deleted again. -/
theorem ledger_imports_whole_networkers :
    let incomplete :=
      { Review.networkerDefinition with criteria := [⟨"overall", .all, none, .empty⟩] }
    let ds := [Review.networkerDefinition, incomplete, Review.networkerDefinition]
    let setting : Setting := ⟨Review.connectedLearner.source, .empty, fun _ => "token"⟩
    let readOnly : Setting := ⟨Review.connectedLearner.source, statusesLost, fun _ => "token"⟩
    let start := World.ofStore (Store.run Ledger.empty Review.networkBadge)
    let refused := Review.networkerDefinition.create.exec readOnly start
    (setting.faults.SparesStore ∧ validPrefix ds = [Review.networkerDefinition] ∧
      ImportsValidPrefix setting start ds) ∧
    (refused.1 = .failed (.store (.unavailable "read only")) ∧
      DeletionSpared readOnly refused.2.calls ∧
      LeavesNothing readOnly start Review.networkerDefinition) := by
  refine ⟨⟨fun _ _ => rfl, by decide +kernel, ?_⟩, by decide +kernel, ⟨⟨2⟩, _, rfl, rfl⟩, ?_⟩
  · exact (ledger_imports_whole_definitions _ _ _ rfl).1 (fun _ _ => rfl) _
  · exact (ledger_imports_whole_definitions _ _ _ rfl).2 _

end Definition

end Badging
