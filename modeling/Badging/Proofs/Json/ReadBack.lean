import Badging.Json.Reading
import Badging.Proofs.Json.Scanning

/-!
# JSON values read back from their text

The tokens of a value, given to the reader where a value is expected, put the value where it
belongs, whatever comes after them. So a plain value is read from its text in either layout.
-/

namespace Badging

namespace Json

def Expected.IsOpen (e : Expected) : Prop := e = .value ∨ e = .firstItem

/-- The reader places the value whose tokens it is given. -/
def Builds (v : Json) : Prop :=
  ∀ (e : Expected) (frames : List Frame) (ts : List Token), e.IsOpen →
    build? e frames (v.tokens ++ ts) = build? (place v frames).1 (place v frames).2 ts

theorem builds_string (s : Option String) : Builds (.string s) := by
  rintro e frames ts (rfl | rfl) <;> rfl

theorem builds_scalar {v : Json} (h : v.tokens = [.scalar v]) : Builds v := by
  intro e frames ts he
  rw [h]
  rcases he with rfl | rfl <;> rfl

theorem build?_items {v : Json} {vs : List Json} (h : ∀ w ∈ v :: vs, Builds w)
    (e : Expected) (he : e.IsOpen) (done : List Json) (frames : List Frame) (ts : List Token) :
    build? e (.items done :: frames) (commas ((v :: vs).map tokens) ++ ts) =
      build? .next (.items ((v :: vs).reverse ++ done) :: frames) ts := by
  induction vs generalizing v e done with
  | nil => exact h v List.mem_cons_self e (.items done :: frames) ts he
  | cons w ws ih =>
    have hrest := ih (fun u hu => h u (List.mem_cons_of_mem v hu)) .value (.inl rfl) (v :: done)
    rw [List.map_cons, List.map_cons, commas, List.append_assoc,
      h v List.mem_cons_self e (.items done :: frames) _ he, List.reverse_cons, List.append_assoc]
    exact hrest

theorem build?_field {f : Option String × Json} (h : Builds f.2) {e : Expected}
    (he : e = .firstKey ∨ e = .key) (done : List (Option String × Json)) (frames : List Frame)
    (ts : List Token) :
    build? e (.fields done :: frames) (.string f.1 :: .colon :: (tokens f.2 ++ ts)) =
      build? .next (.fields (f :: done) :: frames) ts := by
  have hvalue := h .value (.member done f.1 :: frames) ts (.inl rfl)
  rcases he with rfl | rfl <;> exact hvalue

theorem build?_fields {f : Option String × Json} {fs : List (Option String × Json)}
    (h : ∀ g ∈ f :: fs, Builds g.2) (e : Expected) (he : e = .firstKey ∨ e = .key)
    (done : List (Option String × Json)) (frames : List Frame) (ts : List Token) :
    build? e (.fields done :: frames)
        (commas ((f :: fs).map fun g => .string g.1 :: .colon :: tokens g.2) ++ ts) =
      build? .next (.fields ((f :: fs).reverse ++ done) :: frames) ts := by
  induction fs generalizing f e done with
  | nil => exact build?_field (h f List.mem_cons_self) he done frames ts
  | cons g gs ih =>
    have hrest := ih (fun k hk => h k (List.mem_cons_of_mem f hk)) .key (.inr rfl) (f :: done)
    rw [List.map_cons, List.map_cons, commas, List.append_assoc, List.reverse_cons,
      List.append_assoc]
    exact (build?_field (h f List.mem_cons_self) he done frames _).trans hrest

theorem builds_array {items : List Json} (h : ∀ v ∈ items, Builds v) : Builds (.array items) := by
  intro e frames ts he
  have hopen (us : List Token) : build? e frames (.openArray :: us) =
      build? .firstItem (.items [] :: frames) us := by
    rcases he with rfl | rfl <;> rfl
  rw [tokens, itemTokens_eq, List.cons_append, hopen, List.append_assoc]
  cases items with
  | nil => rfl
  | cons v vs =>
    rw [build?_items h .firstItem (.inr rfl), List.append_nil]
    show build? (place (.array (v :: vs).reverse.reverse) frames).1
      (place (.array (v :: vs).reverse.reverse) frames).2 ts = _
    rw [List.reverse_reverse]

theorem builds_object {fields : List (Option String × Json)} (h : ∀ f ∈ fields, Builds f.2) :
    Builds (.object fields) := by
  intro e frames ts he
  have hopen (us : List Token) : build? e frames (.openObject :: us) =
      build? .firstKey (.fields [] :: frames) us := by
    rcases he with rfl | rfl <;> rfl
  rw [tokens, fieldTokens_eq, List.cons_append, hopen, List.append_assoc]
  cases fields with
  | nil => rfl
  | cons f fs =>
    rw [build?_fields h .firstKey (.inl rfl), List.append_nil]
    show build? (place (.object (f :: fs).reverse.reverse) frames).1
      (place (.object (f :: fs).reverse.reverse) frames).2 ts = _
    rw [List.reverse_reverse]

theorem Plain.builds {v : Json} (h : Plain v) : Builds v := by
  induction h with
  | null => exact builds_scalar rfl
  | bool b => exact builds_scalar rfl
  | int n => exact builds_scalar rfl
  | text s => exact builds_string (some s)
  | array _ ih => exact builds_array ih
  | record _ ih => exact builds_object (List.forall_mem_map.2 ih)

theorem parse?_of_spells {v : Json} {s : String} (h : Plain v) (hs : Spells s.toList v.tokens) :
    parse? s = some v := by
  have hbuild := h.builds .value [] [] (.inl rfl)
  rw [List.append_nil] at hbuild
  rw [parse?, hs.tokens?, Option.bind_some, hbuild]
  rfl

theorem parse?_compact {v : Json} (h : Plain v) : parse? (compact v) = some v :=
  parse?_of_spells h h.spells_compact

theorem parse?_pretty {v : Json} (h : Plain v) : parse? (pretty v) = some v :=
  parse?_of_spells h (h.spells_indented 0)

end Json

end Badging
