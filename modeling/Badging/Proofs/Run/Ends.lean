import Badging.Proofs.Run.Triple

/-!
# Runs that are determined

Where nothing can fail but the delivery of notices, what a run does is determined by the facts and
the tokens, by the store, by the notices that were sent and by the number of tokens that were drawn.
A `Scene` is these three parts of a world. `Ends setting x q v q'` says that from the scene `q` the
program `x` ends with the outcome `v` in the scene `q'`, so it does not break off either. There is
one rule for each constructor of programs, and a whole run is put together from its steps.

A program that only asks and reads ends in the scene in which it began. `Tells setting S x v` says
that its outcome is `v` whatever the scene is, as long as `S` holds of the store.
-/

namespace Badging

namespace FaultPlan

/-- Nothing fails but the delivery of notices, and no award is overlooked. -/
structure OnlyNotices (plan : FaultPlan) : Prop where
  store : plan.SparesStore
  facts : plan.SparesFacts
  seen : ∀ h b l, plan.staleAward h b l = false

theorem onlyNotices_empty : FaultPlan.empty.OnlyNotices :=
  ⟨fun _ _ => rfl, fun _ _ => rfl, fun _ _ _ => rfl⟩

variable {plan : FaultPlan}

theorem OnlyNotices.received (h : plan.OnlyNotices) (history : List Call) (op : Operation)
    (a : op.Answer) : Run.received plan history op a = a := by
  cases op with
  | award b l =>
    unfold Run.received
    dsimp only
    rw [h.seen, if_neg Bool.false_ne_true]
  | _ => rfl

end FaultPlan

/-- What a run can make of a world, apart from the calls. -/
structure Scene (σ : Type) where
  store : σ
  sent : List Notice
  issued : Nat

def World.scene {σ : Type} (w : World σ) : Scene σ := ⟨w.store, w.sent, w.issued⟩

namespace Run

variable {σ ε ε' α β : Type} {setting : Setting} {S : σ → Prop}

/-- From the scene `q` the program ends with the outcome `v` in the scene `q'`. -/
def Ends (setting : Setting) (x : Run σ ε α) (q : Scene σ) (v : Except ε α) (q' : Scene σ) : Prop :=
  ∀ w : World σ, w.scene = q → ∃ w', x.exec setting w = (.ofExcept v, w') ∧ w'.scene = q'

theorem exec_perform_of_ok [Store σ] {op : Operation} {a : op.Answer} {s : σ} {w : World σ}
    (honly : setting.faults.OnlyNotices) (hop : Store.perform op w.store = .ok (a, s)) :
    (Run.perform op).exec setting w =
      (.done a, ⟨s, .store op :: w.calls, w.notices, w.issued⟩) := by
  unfold Run.perform exec
  dsimp only
  rw [honly.store]
  dsimp only
  rw [hop]
  dsimp only
  rw [honly.received]

namespace Ends

variable {x : Run σ ε α} {q q' q'' : Scene σ} {v : Except ε α} {a : α} {e : ε}

theorem pure (a : α) : Ends setting (pure a : Run σ ε α) q (.ok a) q :=
  fun w hw => ⟨w, rfl, hw⟩

theorem fail (e : ε) : Ends setting (Run.fail e : Run σ ε α) q (.error e) q :=
  fun w hw => ⟨w, rfl, hw⟩

theorem bind {f : α → Run σ ε β} {v : Except ε β} (hx : Ends setting x q (.ok a) q')
    (hf : Ends setting (f a) q' v q'') : Ends setting (x >>= f) q v q'' := by
  intro w hw
  obtain ⟨w', hexec, hw'⟩ := hx w hw
  obtain ⟨w'', hexec', hw''⟩ := hf w' hw'
  refine ⟨w'', ?_, hw''⟩
  rw [exec_bind, hexec]
  exact hexec'

/-- After its first part a program goes on from where that ended. -/
theorem goes_on {w : World σ} (hx : Ends setting x q (.ok a) q') (hw : w.scene = q) :
    ∃ w' : World σ, w'.scene = q' ∧ ∀ f : α → Run σ ε β,
      (x >>= f).exec setting w = (f a).exec setting w' := by
  obtain ⟨w', hexec, hw'⟩ := hx w hw
  exact ⟨w', hw', fun f => exec_bind_of_done hexec⟩

theorem bind_error {f : α → Run σ ε β} (hx : Ends setting x q (.error e) q') :
    Ends setting (x >>= f) q (.error e) q' := by
  intro w hw
  obtain ⟨w', hexec, hw'⟩ := hx w hw
  refine ⟨w', ?_, hw'⟩
  rw [exec_bind, hexec]
  rfl

theorem bind_pure {f : α → β} (hx : Ends setting x q v q') :
    Ends setting (x >>= fun a => Pure.pure (f a)) q (v.map f) q' := by
  cases v with
  | error e => exact bind_error hx
  | ok a => exact bind hx (pure (f a))

theorem mapError {f : ε → ε'} (hx : Ends setting x q v q') :
    Ends setting (x.mapError f) q (v.mapError f) q' := by
  intro w hw
  obtain ⟨w', hexec, hw'⟩ := hx w hw
  refine ⟨w', ?_, hw'⟩
  rw [exec_mapError, hexec]
  cases v <;> rfl

theorem attempt (hx : Ends setting x q v q') :
    Ends setting (Run.attempt x : Run σ ε' (Except ε α)) q (.ok v) q' := by
  intro w hw
  obtain ⟨w', hexec, hw'⟩ := hx w hw
  refine ⟨w', ?_, hw'⟩
  rw [exec_attempt, hexec]
  cases v <;> rfl

theorem perform [Store σ] {op : Operation} {a : op.Answer} {s : σ}
    (honly : setting.faults.OnlyNotices) (hop : Store.perform op q.store = .ok (a, s)) :
    Ends setting (Run.perform op) q (.ok a) { q with store := s } := by
  rintro w rfl
  exact ⟨_, exec_perform_of_ok honly hop, rfl⟩

theorem ask {query : Query} (honly : setting.faults.OnlyNotices) :
    Ends setting (Run.ask query : Run σ SourceError query.Answer) q (setting.facts query) q := by
  rintro w rfl
  refine ⟨{ w with calls := .facts query :: w.calls }, ?_, rfl⟩
  unfold Run.ask exec
  dsimp only
  rw [honly.facts]
  cases setting.facts query <;> rfl

theorem notify {notice : Notice} : Ends setting (Run.notify notice : Run σ ε Unit) q (.ok ())
    { q with sent := notice :: q.sent } := by
  rintro w rfl
  unfold Run.notify exec
  dsimp only
  split
  · exact ⟨_, rfl, rfl⟩
  · exact ⟨_, rfl, rfl⟩

theorem freshToken : Ends setting (Run.freshToken : Run σ ε String) q
    (.ok (setting.tokens q.issued)) { q with issued := q.issued + 1 } := by
  rintro w rfl
  exact ⟨{ w with issued := w.issued + 1 }, rfl, rfl⟩

theorem exec_eq {w : World σ} (hx : Ends setting x w.scene v q') :
    (x.exec setting w).1 = .ofExcept v ∧ (x.exec setting w).2.scene = q' := by
  obtain ⟨w', hexec, hw'⟩ := hx w rfl
  rw [hexec]
  exact ⟨rfl, hw'⟩

end Ends

/-- Wherever `S` holds of the store the program ends with `v` and changes nothing. -/
def Tells (setting : Setting) (S : σ → Prop) (x : Run σ ε α) (v : Except ε α) : Prop :=
  ∀ q : Scene σ, S q.store → Ends setting x q v q

namespace Tells

variable {x : Run σ ε α} {v : Except ε α}

theorem pure (a : α) : Tells setting S (pure a : Run σ ε α) (.ok a) := fun _ _ => .pure a

theorem bind {f : α → Run σ ε β} {g : α → Except ε β} (hx : Tells setting S x v)
    (hf : ∀ a, v = .ok a → Tells setting S (f a) (g a)) : Tells setting S (x >>= f) (v >>= g) := by
  intro q hq
  cases v with
  | error e => exact .bind_error (hx q hq)
  | ok a => exact .bind (hx q hq) (hf a rfl q hq)

theorem mapError {f : ε → ε'} (hx : Tells setting S x v) :
    Tells setting S (x.mapError f) (v.mapError f) := fun q hq => (hx q hq).mapError

theorem ask {query : Query} (honly : setting.faults.OnlyNotices) :
    Tells setting S (Run.ask query : Run σ SourceError query.Answer) (setting.facts query) :=
  fun _ _ => .ask honly

theorem perform [Store σ] {op : Operation} {a : op.Answer} (honly : setting.faults.OnlyNotices)
    (hop : ∀ s, S s → Store.perform op s = .ok (a, s)) :
    Tells setting S (Run.perform op) (.ok a) :=
  fun q hq => .perform honly (hop q.store hq)

end Tells

end Run

end Badging
