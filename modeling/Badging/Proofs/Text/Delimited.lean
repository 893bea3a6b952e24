import Badging.Text.Delimited

/-!
# Records of a text and of its beginnings

A record is complete once the character behind it was read, and from there on the reader is where
it was at the start. So the first records of a text are the records of a beginning of the text, the
one that ends where the last of them does.
-/

namespace Badging

namespace Text

namespace Delimited

/-- A character is taken into the record that is being read, or it completes the record and the
reader starts again. -/
theorem scan_cons (place : Place) (p : Partial) (c : Char) :
    (∃ place' p', ∀ done cs, scan place p done (c :: cs) = scan place' p' done cs) ∨
      ∀ done cs, scan place p done (c :: cs) = scan .recordStart .empty (p.record :: done) cs := by
  by_cases hquote : c = '"'
  · subst hquote
    cases place with
    | inQuotes => exact .inl ⟨.afterQuote, p, fun _ _ => rfl⟩
    | afterQuote => exact .inl ⟨.inQuotes, p.push '"', fun _ _ => rfl⟩
    | inField => exact .inl ⟨.inField, p.push '"', fun _ _ => rfl⟩
    | fieldStart => exact .inl ⟨.inQuotes, p, fun _ _ => rfl⟩
    | recordStart => exact .inl ⟨.inQuotes, p, fun _ _ => rfl⟩
  · by_cases hcomma : c = ','
    · subst hcomma
      cases place with
      | inQuotes => exact .inl ⟨.inQuotes, p.push ',', fun _ _ => rfl⟩
      | _ => exact .inl ⟨.fieldStart, p.endField, fun _ _ => rfl⟩
    · by_cases hbreak : isBreak c = true
      · cases place with
        | inQuotes => exact .inl ⟨.inQuotes, p.push c, fun _ _ => by simp [scan, hquote]⟩
        | recordStart => exact .inl ⟨.recordStart, p, fun _ _ => by simp [scan, hbreak]⟩
        | _ => exact .inr fun _ _ => by simp [scan, hquote, hcomma, hbreak]
      · cases place with
        | inQuotes => exact .inl ⟨.inQuotes, p.push c, fun _ _ => by simp [scan, hquote]⟩
        | _ => exact .inl ⟨.inField, p.push c, fun _ _ => by simp [scan, hquote, hcomma, hbreak]⟩

theorem scan_eq_append (place : Place) (p : Partial) (done : List (List String)) (cs : List Char) :
    scan place p done cs = done.reverse ++ scan place p [] cs := by
  induction cs generalizing place p done with
  | nil => by_cases h : place = .recordStart <;> simp [scan, h]
  | cons c cs ih =>
    rcases scan_cons place p c with ⟨place', p', h⟩ | h
    · rw [h, h]
      exact ih place' p' done
    · rw [h, h, ih _ _ (p.record :: done), ih _ _ [p.record]]
      simp

theorem length_scan_nil (place : Place) (p : Partial) : (scan place p [] []).length ≤ 1 := by
  by_cases h : place = .recordStart <;> simp [scan, h]

theorem exists_scan_take {place : Place} {p : Partial} {cs : List Char} {n : Nat}
    (hn : n < (scan place p [] cs).length) :
    ∃ k, scan place p [] (cs.take k) = (scan place p [] cs).take (n + 1) := by
  induction cs generalizing place p n with
  | nil =>
    refine ⟨0, ?_⟩
    rw [List.take_nil, List.take_of_length_le]
    exact Nat.le_trans (length_scan_nil place p) (Nat.le_add_left 1 n)
  | cons c cs ih =>
    rcases scan_cons place p c with ⟨place', p', h⟩ | h
    · rw [h] at hn ⊢
      obtain ⟨k, hk⟩ := ih hn
      exact ⟨k + 1, by rw [List.take_succ_cons, h, hk]⟩
    · have hstart : ∀ cs, scan place p [] (c :: cs) =
          p.record :: scan .recordStart .empty [] cs := fun cs => by
        rw [h, scan_eq_append]
        rfl
      rw [hstart] at hn ⊢
      cases n with
      | zero => exact ⟨1, by rw [List.take_succ_cons, List.take_zero, hstart]; rfl⟩
      | succ n =>
        obtain ⟨k, hk⟩ := ih (Nat.lt_of_succ_lt_succ hn)
        exact ⟨k + 1, by rw [List.take_succ_cons, hstart, hk, List.take_succ_cons]⟩

theorem dropMark_cons_of_ne {c : Char} (h : c ≠ '\ufeff') (cs : List Char) :
    dropMark (c :: cs) = c :: cs := by
  unfold dropMark
  split
  · next heq =>
    cases heq
    exact absurd rfl h
  · rfl

theorem exists_dropMark_eq_take (cs : List Char) (k : Nat) :
    ∃ cs', cs' <+: cs ∧ dropMark cs' = (dropMark cs).take k := by
  cases cs with
  | nil => exact ⟨[], List.prefix_rfl, List.take_nil.symm⟩
  | cons c cs =>
    by_cases hc : c = '\ufeff'
    · subst hc
      exact ⟨'\ufeff' :: cs.take k, List.cons_prefix_cons.2 ⟨rfl, List.take_prefix k cs⟩, rfl⟩
    · refine ⟨(c :: cs).take k, List.take_prefix k _, ?_⟩
      rw [dropMark_cons_of_ne hc]
      cases k with
      | zero => rfl
      | succ k => rw [List.take_succ_cons, dropMark_cons_of_ne hc]

/-- The first records of a text are the records of a beginning of it. -/
theorem exists_records_take {s : String} {n : Nat} (hn : n < (records s).length) :
    ∃ t : String, t.toList <+: s.toList ∧ records t = (records s).take (n + 1) := by
  obtain ⟨k, hk⟩ := exists_scan_take hn
  obtain ⟨cs, hprefix, hcs⟩ := exists_dropMark_eq_take s.toList k
  refine ⟨String.ofList cs, by rwa [String.toList_ofList], ?_⟩
  rw [records, String.toList_ofList, hcs]
  exact hk

end Delimited

end Text

end Badging
