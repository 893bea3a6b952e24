/-!
# Pieces of a text

A text is cut into pieces at every occurrence of a character, which belongs to no piece. There is
always one piece more than there are occurrences, so two of them side by side have an empty
piece between them, and joining the pieces with the character gives the text again.
-/

namespace Badging

namespace Text

def pieces (mark : Char) : List Char → List (List Char)
  | [] => [[]]
  | c :: cs =>
    if c = mark then [] :: pieces mark cs
    else match pieces mark cs with
      | [] => [[c]]
      | p :: ps => (c :: p) :: ps

@[simp] theorem pieces_nil (mark : Char) : pieces mark [] = [[]] := rfl

theorem pieces_ne_nil (mark : Char) (cs : List Char) : pieces mark cs ≠ [] := by
  cases cs with
  | nil => simp
  | cons c cs =>
    rw [pieces]
    split
    · simp
    · split <;> simp

theorem not_mem_of_mem_pieces {mark : Char} {cs p : List Char} (hp : p ∈ pieces mark cs) :
    mark ∉ p := by
  induction cs generalizing p with
  | nil => simp_all
  | cons c cs ih =>
    rw [pieces] at hp
    split at hp
    · rcases List.mem_cons.1 hp with rfl | hp
      · simp
      · exact ih hp
    · next hc =>
      cases hq : pieces mark cs with
      | nil => exact absurd hq (pieces_ne_nil mark cs)
      | cons q qs =>
        rw [hq] at hp ih
        rcases List.mem_cons.1 hp with rfl | hp
        · simp only [List.mem_cons, not_or]
          exact ⟨fun h => hc h.symm, ih List.mem_cons_self⟩
        · exact ih (List.mem_cons_of_mem _ hp)

/-- The pieces joined with the character give the text again. -/
theorem intercalate_pieces (mark : Char) (cs : List Char) :
    [mark].intercalate (pieces mark cs) = cs := by
  induction cs with
  | nil => rfl
  | cons c cs ih =>
    cases hq : pieces mark cs with
    | nil => exact absurd hq (pieces_ne_nil mark cs)
    | cons q qs =>
      rw [hq] at ih
      rw [pieces, hq]
      split
      · next hc =>
        rw [List.intercalate_cons_cons, ih, hc]
        rfl
      · cases qs with
        | nil => simpa using ih
        | cons r rs =>
          rw [List.intercalate_cons_cons] at ih ⊢
          rw [← ih]
          rfl

end Text

end Badging
