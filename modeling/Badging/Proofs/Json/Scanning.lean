import Badging.Json.Printing
import Badging.Json.Token
import Mathlib.Data.List.Basic
import Mathlib.Data.List.TakeWhile

/-!
# Printed values are cut into their tokens

Both layouts print the same tokens, and what is between them is blanks. A printed piece spells its
tokens if the scanner, wherever it starts between two tokens, reads the piece as these tokens
whatever follows. Only numbers and words need to know something about what follows: that it does
not go on with them. After a value comes a comma, a closing bracket, a line break or nothing.

The values of which this holds are the plain ones: they are what the writers of documents make.
-/

namespace Badging

-- Powers of natural numbers are those of `Nat`, whatever else is in sight.
attribute [local instance (2000)] instPowNat

namespace Number

theorem head?_digits_ne {n : Nat} (h : n ≠ 0) : (digits n).head? ≠ some '0' := by
  induction n using Nat.strongRecOn with
  | ind n ih =>
    rcases Nat.lt_or_ge n 10 with hlt | hge
    · have hone : ∀ m < 10, m ≠ 0 → (digits m).head? ≠ some '0' := by decide
      exact hone n hlt h
    · rw [digits, Nat.toDigits_of_base_le (by decide) hge,
        List.head?_append_of_ne_nil _ Nat.toDigits_ne_nil]
      exact ih (n / 10) (by omega) (by omega)

theorem hexValue?_hexDigit {n : Nat} (h : n < 16) : hexValue? (Json.hexDigit n) = some n := by
  revert n
  decide

end Number

namespace Numeral

open Number

theorem readWhole?_digits (n : Nat) : readWhole? (digits n) = some (digits n, []) := by
  have hall : ∀ c ∈ digits n, c.isDigit = true := fun c hc => isDigit_of_mem_digits hc
  rw [readWhole?, List.takeWhile_eq_self_iff.2 hall, List.dropWhile_eq_nil_iff.2 hall]
  split
  · next hnil => exact absurd hnil (digits_ne_nil n)
  · next c cs hzero =>
    have hn : n = 0 := Decidable.of_not_not fun hn => head?_digits_ne hn (by rw [hzero]; rfl)
    rw [hn] at hzero
    cases hzero
  · rfl

theorem read?_ofInt (n : Int) :
    read? ((if n < 0 then ['-'] else []) ++ digits n.natAbs) = some (ofInt n) := by
  have hunsigned (negative : Bool) : readUnsigned? negative (digits n.natAbs) =
      some ⟨negative, digits n.natAbs, none, none⟩ := by
    simp only [readUnsigned?, readWhole?_digits, readPlaces?, readExponent?, Option.bind_eq_bind,
      Option.bind_some]
  by_cases hneg : n < 0
  · rw [if_pos hneg, ofInt, decide_eq_true hneg]
    exact hunsigned true
  · rw [if_neg hneg, ofInt, decide_eq_false hneg, List.nil_append]
    unfold read?
    split
    · next cs hsign =>
      have hdigit := isDigit_of_mem_digits (n := n.natAbs) (c := '-') (by simp [hsign])
      cases hdigit
    · exact hunsigned false

end Numeral

namespace Json

/-- The values that are spelled without loss: strings and keys are texts, and numbers are whole. -/
inductive Plain : Json → Prop where
  | null : Plain .null
  | bool (b : Bool) : Plain (.bool b)
  | int (n : Int) : Plain (.int n)
  | text (s : String) : Plain (.text s)
  | array {items : List Json} (h : ∀ v ∈ items, Plain v) : Plain (.array items)
  | record {fields : List (String × Json)} (h : ∀ f ∈ fields, Plain f.2) : Plain (.record fields)

def commas : List (List Token) → List Token
  | [] => []
  | [ts] => ts
  | ts :: us :: rest => ts ++ .comma :: commas (us :: rest)

mutual

/-- The tokens of which the text of a value consists. -/
def tokens : Json → List Token
  | .string s => [.string s]
  | .array items => .openArray :: (commas (itemTokens items) ++ [.closeArray])
  | .object fields => .openObject :: (commas (fieldTokens fields) ++ [.closeObject])
  | v => [.scalar v]

def itemTokens : List Json → List (List Token)
  | [] => []
  | v :: vs => tokens v :: itemTokens vs

def fieldTokens : List (Option String × Json) → List (List Token)
  | [] => []
  | (k, v) :: rest => (.string k :: .colon :: tokens v) :: fieldTokens rest

end

theorem itemTokens_eq (items : List Json) : itemTokens items = items.map tokens := by
  induction items with
  | nil => rfl
  | cons v vs ih => rw [itemTokens, ih, List.map_cons]

theorem fieldTokens_eq (fields : List (Option String × Json)) :
    fieldTokens fields = fields.map fun f => .string f.1 :: .colon :: tokens f.2 := by
  induction fields with
  | nil => rfl
  | cons f fs ih => rw [fieldTokens, ih, List.map_cons]

/-! ### Pieces of text and their tokens -/

/-- No number and no word goes on with what follows. -/
def Ends (rest : List Char) : Prop := ∀ c ∈ rest.head?, isNumeric c = false ∧ c.isAlpha = false

theorem ends_nil : Ends [] := nofun

theorem Ends.append {cs rest : List Char} (h : Ends cs) (hrest : Ends rest) :
    Ends (cs ++ rest) := by
  cases cs with
  | nil => exact hrest
  | cons c cs => exact h

/-- A piece of text is scanned as a row of tokens whatever ends it. -/
def Spells (cs : List Char) (ts : List Token) : Prop :=
  ∀ (done : List Token) (rest : List Char), Ends rest →
    scan? .between done (cs ++ rest) = scan? .between (ts.reverse ++ done) rest

theorem Spells.append {cs ds : List Char} {ts us : List Token} (h : Spells cs ts) (hds : Ends ds)
    (h' : Spells ds us) : Spells (cs ++ ds) (ts ++ us) := by
  intro done rest hrest
  rw [List.append_assoc, h done _ (hds.append hrest), h' _ rest hrest, List.reverse_append,
    List.append_assoc]

def IsMark (c : Char) (t : Token) : Prop :=
  Scan.start? c = some (.between, [t]) ∧ isNumeric c = false ∧ c.isAlpha = false

theorem IsMark.ends {c : Char} {t : Token} (h : IsMark c t) (cs : List Char) : Ends (c :: cs) := by
  rintro _ ⟨⟩
  exact h.2

theorem IsMark.spells {c : Char} {t : Token} (h : IsMark c t) {cs : List Char} {ts : List Token}
    (hcs : Spells cs ts) : Spells (c :: cs) (t :: ts) := by
  intro done rest hrest
  have hstep : Scan.between.step? c = some (.between, [t]) := h.1
  rw [List.cons_append, scan?, hstep, List.reverse_cons, List.append_assoc]
  exact hcs (t :: done) rest hrest

theorem isMark_comma : IsMark ',' .comma := ⟨rfl, rfl, rfl⟩

theorem isMark_colon : IsMark ':' .colon := ⟨rfl, rfl, rfl⟩

theorem isMark_openArray : IsMark '[' .openArray := ⟨rfl, rfl, rfl⟩

theorem isMark_closeArray : IsMark ']' .closeArray := ⟨rfl, rfl, rfl⟩

theorem isMark_openObject : IsMark '\x7b' .openObject := ⟨rfl, rfl, rfl⟩

theorem isMark_closeObject : IsMark '\x7d' .closeObject := ⟨rfl, rfl, rfl⟩

theorem Spells.nil : Spells [] [] := fun _ _ _ => rfl

/-! ### Blanks -/

/-- The blanks that the layouts put between tokens. -/
def IsGap (cs : List Char) : Prop := ∀ c ∈ cs, c = ' ' ∨ c = '\n'

theorem IsGap.ends {cs : List Char} (h : IsGap cs) : Ends cs := by
  intro c hc
  rcases h c (List.mem_of_mem_head? hc) with rfl | rfl <;> decide

theorem IsGap.spells {gap cs : List Char} {ts : List Token} (h : IsGap gap) (hcs : Spells cs ts) :
    Spells (gap ++ cs) ts := by
  intro done rest hrest
  induction gap with
  | nil => exact hcs done rest hrest
  | cons c gap ih =>
    have hstep : Scan.between.step? c = some (.between, []) := by
      rcases h c List.mem_cons_self with rfl | rfl <;> rfl
    rw [List.cons_append, List.cons_append, scan?, hstep]
    exact ih fun d hd => h d (List.mem_cons_of_mem c hd)

theorem isGap_nil : IsGap [] := nofun

theorem isGap_blank : IsGap [' '] := by
  rintro c (_ | ⟨_, ⟨⟩⟩)
  exact .inl rfl

theorem isGap_newLine (depth : Nat) : IsGap (newLine depth).toList := by
  intro c hc
  rw [newLine, String.toList_ofList] at hc
  rcases List.mem_cons.1 hc with rfl | hc
  · exact .inr rfl
  · exact .inl (List.eq_of_mem_replicate hc)

/-! ### Numbers and words -/

theorem scan?_close {state : Scan} {t : Token} (hclose : state.close? = some [t])
    (hstate : (∃ cs, state = .number cs) ∨ ∃ cs, state = .word cs) (done : List Token)
    {rest : List Char} (hrest : Ends rest) :
    scan? state done rest = scan? .between (t :: done) rest := by
  cases rest with
  | nil =>
    rw [scan?, hclose]
    rfl
  | cons c rest =>
    -- The character does not belong to the token, so it is read as it is read between tokens.
    obtain ⟨hnumeric, halpha⟩ := hrest c rfl
    have hstep : state.step? c = (Scan.start? c).map fun p => (p.1, p.2 ++ [t]) := by
      rcases hstate with ⟨cs, rfl⟩ | ⟨cs, rfl⟩
      · simp only [Scan.step?, hnumeric, hclose, Bool.false_eq_true, if_false]
        cases Scan.start? c <;> rfl
      · simp only [Scan.step?, halpha, hclose, Bool.false_eq_true, if_false]
        cases Scan.start? c <;> rfl
    rw [scan?, scan?, hstep, Scan.step?]
    cases Scan.start? c with
    | none => rfl
    | some p =>
      dsimp only [Option.map_some]
      rw [List.append_assoc, List.singleton_append]

theorem scan?_number {cs : List Char} (hcs : ∀ c ∈ cs, isNumeric c = true) (gathered : List Char)
    (done : List Token) (rest : List Char) :
    scan? (.number gathered) done (cs ++ rest) =
      scan? (.number (cs.reverse ++ gathered)) done rest := by
  induction cs generalizing gathered with
  | nil => rfl
  | cons c cs ih =>
    have hstep : (Scan.number gathered).step? c = some (.number (c :: gathered), []) := by
      rw [Scan.step?, if_pos (hcs c List.mem_cons_self)]
    rw [List.cons_append, scan?, hstep, List.reverse_cons, List.append_assoc]
    exact ih (fun d hd => hcs d (List.mem_cons_of_mem c hd)) (c :: gathered)

theorem start?_of_isDigit_or_minus {c : Char} (h : c.isDigit = true ∨ c = '-') :
    Scan.start? c = some (.number [c], []) := by
  have hother {d : Char} (hd : d.isDigit = false) (hminus : d ≠ '-') : c ≠ d := by
    rintro rfl
    rcases h with h | h
    · rw [hd] at h
      cases h
    · exact hminus h
  unfold Scan.start?
  rw [if_neg, if_neg (hother rfl (by decide)), if_neg (hother rfl (by decide)),
    if_neg (hother rfl (by decide)), if_neg (hother rfl (by decide)),
    if_neg (hother rfl (by decide)), if_neg (hother rfl (by decide)),
    if_neg (hother rfl (by decide)), if_pos h]
  rintro (h | h | h | h)
  all_goals exact hother rfl (by decide) h

theorem isNumeric_of_isDigit {c : Char} (h : c.isDigit = true) : isNumeric c = true := by
  simp only [isNumeric, h, Bool.true_or]

theorem spells_numeral {c : Char} {cs : List Char} {n : Numeral}
    (hc : c.isDigit = true ∨ c = '-') (hcs : ∀ d ∈ cs, isNumeric d = true)
    (hread : Numeral.read? (c :: cs) = some n) : Spells (c :: cs) [.scalar (.number n)] := by
  intro done rest hrest
  have hstep : Scan.between.step? c = some (.number [c], []) := start?_of_isDigit_or_minus hc
  have hclose : (Scan.number (cs.reverse ++ [c])).close? = some [.scalar (.number n)] := by
    rw [Scan.close?, List.reverse_append, List.reverse_reverse]
    exact congrArg (Option.map _) hread
  rw [List.cons_append, scan?, hstep]
  show scan? (.number [c]) done (cs ++ rest) = _
  rw [scan?_number hcs, scan?_close hclose (.inl ⟨_, rfl⟩) done hrest]
  rfl

theorem numeralText_ofInt (n : Int) : (numeralText (.ofInt n)).toList =
    (if n < 0 then ['-'] else []) ++ Number.digits n.natAbs := by
  simp only [numeralText, Numeral.ofInt, String.toList_append, String.toList_ofList,
    decide_eq_true_eq]
  split <;> simp

theorem spells_int (n : Int) :
    Spells (numeralText (.ofInt n)).toList [.scalar (.number (.ofInt n))] := by
  have hdigits : ∀ c ∈ Number.digits n.natAbs, c.isDigit = true :=
    fun c hc => Number.isDigit_of_mem_digits hc
  have hread := Numeral.read?_ofInt n
  rw [numeralText_ofInt]
  by_cases hneg : n < 0
  · rw [if_pos hneg] at hread ⊢
    exact spells_numeral (.inr rfl) (fun c hc => isNumeric_of_isDigit (hdigits c hc)) hread
  · rw [if_neg hneg, List.nil_append] at hread ⊢
    obtain ⟨c, cs, hcs⟩ := List.exists_cons_of_ne_nil (Number.digits_ne_nil n.natAbs)
    rw [hcs] at hread hdigits ⊢
    exact spells_numeral (.inl (hdigits c List.mem_cons_self))
      (fun d hd => isNumeric_of_isDigit (hdigits d (List.mem_cons_of_mem c hd))) hread

theorem spells_null : Spells "null".toList [.scalar .null] := by
  intro done rest hrest
  have hclose : (Scan.word ['l', 'l', 'u', 'n']).close? = some [.scalar .null] := rfl
  exact scan?_close hclose (.inr ⟨_, rfl⟩) done hrest

theorem spells_bool (b : Bool) :
    Spells (if b then "true" else "false").toList [.scalar (.bool b)] := by
  have hfalse : (Scan.word ['e', 's', 'l', 'a', 'f']).close? = some [.scalar (.bool false)] := rfl
  have htrue : (Scan.word ['e', 'u', 'r', 't']).close? = some [.scalar (.bool true)] := rfl
  intro done rest hrest
  cases b
  · exact scan?_close hfalse (.inr ⟨_, rfl⟩) done hrest
  · exact scan?_close htrue (.inr ⟨_, rfl⟩) done hrest

/-! ### Strings -/

/-- A character is its code number, which is half of no pair, so nothing is put together. -/
theorem joinHalves?_map_toNat (cs : List Char) : joinHalves? (cs.map Char.toNat) = some cs := by
  induction cs with
  | nil => rfl
  | cons c cs ih =>
    have hvalid : c.toNat < 0xD800 ∨ 0xDFFF < c.toNat ∧ c.toNat < 0x110000 := c.valid
    rw [List.map_cons]
    unfold joinHalves?
    rw [if_neg (by omega), if_neg (by omega), ih, Option.map_some, Char.ofNat_toNat]

theorem scan?_hexDigit {n : Nat} (h : n < 16) (ns : List Nat) (missing code : Nat)
    (done : List Token) (rest : List Char) :
    scan? (.hex ns missing code) done (hexDigit n :: rest) =
      scan? (if missing ≤ 1 then .string ((16 * code + n) :: ns)
        else .hex ns (missing - 1) (16 * code + n)) done rest := by
  have hstep : (Scan.hex ns missing code).step? (hexDigit n) =
      some (if missing ≤ 1 then .string ((16 * code + n) :: ns)
        else .hex ns (missing - 1) (16 * code + n), []) := by
    rw [Scan.step?, Number.hexValue?_hexDigit h, Option.map_some]
    split <;> rfl
  rw [scan?, hstep]
  rfl

theorem scan?_escapeChar (c : Char) (ns : List Nat) (done : List Token) (rest : List Char) :
    scan? (.string ns) done (escapeChar c ++ rest) = scan? (.string (c.toNat :: ns)) done rest := by
  unfold escapeChar
  split
  case h_8 hquote hbackslash _ _ _ _ _ =>
    split
    · next hcontrol =>
      have hcode : 16 * (16 * (16 * (16 * 0 + 0) + 0) + c.toNat / 16) + c.toNat % 16 = c.toNat := by
        omega
      show scan? (.hex ns 4 0) done (hexDigit 0 :: hexDigit 0 :: _ :: _ :: rest) = _
      rw [scan?_hexDigit (by decide), if_neg (by decide), scan?_hexDigit (by decide),
        if_neg (by decide), scan?_hexDigit (by omega), if_neg (by decide),
        scan?_hexDigit (by omega), if_pos (by decide), hcode]
    · next hplain =>
      have hstep : (Scan.string ns).step? c = some (.string (c.toNat :: ns), []) := by
        rw [Scan.step?, if_neg hquote, if_neg hbackslash, if_neg hplain]
      rw [List.singleton_append, scan?, hstep]
      rfl
  all_goals rfl

theorem spells_quote (s : String) : Spells (quote s).toList [.string (some s)] := by
  have hchars (cs : List Char) (ns : List Nat) (done : List Token) (rest : List Char) :
      scan? (.string ns) done (cs.flatMap escapeChar ++ rest) =
        scan? (.string ((cs.map Char.toNat).reverse ++ ns)) done rest := by
    induction cs generalizing ns with
    | nil => rfl
    | cons c cs ih =>
      rw [List.flatMap_cons, List.append_assoc, scan?_escapeChar, ih, List.map_cons,
        List.reverse_cons, List.append_assoc]
      rfl
  intro done rest _
  rw [quote, String.toList_ofList, List.cons_append, List.append_assoc]
  show scan? (.string []) done _ = _
  rw [hchars, List.append_nil]
  show scan? .between (.string _ :: done) rest = _
  rw [List.reverse_reverse, joinHalves?_map_toNat, Option.map_some, String.ofList_toList]
  rfl

/-! ### Containers and whole values -/

/-- What writes pieces with a comma between each two spells their rows with a comma between each
two. -/
theorem spells_commas {α : Type} (write : List α → String) (piece : α → String)
    {row : α → List Token} {as : List α} (hnil : write [] = "") (hone : ∀ a, write [a] = piece a)
    (hcons : ∀ a b as, write (a :: b :: as) = piece a ++ "," ++ write (b :: as))
    (h : ∀ a ∈ as, Spells (piece a).toList (row a)) :
    Spells (write as).toList (commas (as.map row)) := by
  induction as with
  | nil =>
    rw [hnil]
    exact .nil
  | cons a as ih =>
    have ha := h a List.mem_cons_self
    have has := ih fun b hb => h b (List.mem_cons_of_mem a hb)
    cases as with
    | nil =>
      rw [hone]
      exact ha
    | cons b bs =>
      rw [hcons, String.toList_append, String.toList_append, List.append_assoc]
      exact ha.append (isMark_comma.ends _) (isMark_comma.spells has)

theorem Spells.bracket {first last : Char} {firstMark lastMark : Token}
    (hfirst : IsMark first firstMark) (hlast : IsMark last lastMark) {cs gap : List Char}
    {ts : List Token} (hcs : Spells cs ts) (hgap : IsGap gap) :
    Spells (first :: (cs ++ (gap ++ [last]))) (firstMark :: (ts ++ [lastMark])) := by
  have hend : Spells (gap ++ [last]) [lastMark] := hgap.spells (hlast.spells .nil)
  exact hfirst.spells (hcs.append (hgap.ends.append (hlast.ends [])) hend)

theorem Spells.field {cs gap : List Char} {ts : List Token} (k : String) (hgap : IsGap gap)
    (hcs : Spells cs ts) :
    Spells ((quote k).toList ++ ':' :: (gap ++ cs)) (.string (some k) :: .colon :: ts) :=
  (spells_quote k).append (isMark_colon.ends _) (isMark_colon.spells (hgap.spells hcs))

theorem Plain.spells_compact {v : Json} (h : Plain v) : Spells (compact v).toList v.tokens := by
  induction h with
  | null => exact spells_null
  | bool b => exact spells_bool b
  | int n => exact spells_int n
  | text s => exact spells_quote s
  | @array items _ ih =>
    have hitems : Spells (compactItems items).toList (commas (itemTokens items)) := by
      rw [itemTokens_eq]
      exact spells_commas compactItems compact rfl (fun _ => rfl) (fun _ _ _ => rfl) ih
    rw [compact, String.toList_append, String.toList_append, tokens, List.append_assoc]
    exact hitems.bracket isMark_openArray isMark_closeArray isGap_nil
  | @record fields _ ih =>
    have hfields : Spells (compactFields (fields.map fun f => (some f.1, f.2))).toList
        (commas (fieldTokens (fields.map fun f => (some f.1, f.2)))) := by
      rw [fieldTokens_eq]
      refine spells_commas compactFields (fun f => quoteContent f.1 ++ ":" ++ compact f.2) rfl
        (fun _ => rfl) (fun _ _ _ => rfl) (List.forall_mem_map.2 fun f hf => ?_)
      have hfield := Spells.field f.1 isGap_nil (ih f hf)
      simp only [String.toList_append, List.append_assoc]
      exact hfield
    rw [Json.record, compact, String.toList_append, String.toList_append, tokens, List.append_assoc]
    exact hfields.bracket isMark_openObject isMark_closeObject isGap_nil

/-- The text of a plain value over several lines spells the same tokens. -/
theorem Plain.spells_indented {v : Json} (h : Plain v) (depth : Nat) :
    Spells (indented depth v).toList v.tokens := by
  induction h generalizing depth with
  | null => exact spells_null
  | bool b => exact spells_bool b
  | int n => exact spells_int n
  | text s => exact spells_quote s
  | @array items _ ih =>
    have hitems : Spells (indentedItems (depth + 1) items).toList (commas (itemTokens items)) := by
      rw [itemTokens_eq]
      refine spells_commas (indentedItems (depth + 1))
        (fun v => newLine (depth + 1) ++ indented (depth + 1) v) rfl (fun _ => rfl)
        (fun _ _ _ => rfl) fun v hv => ?_
      rw [String.toList_append]
      exact (isGap_newLine (depth + 1)).spells (ih v hv (depth + 1))
    -- Only an empty array has no line break in front of its closing bracket.
    cases items with
    | nil =>
      rw [indented, tokens, itemTokens]
      exact Spells.nil.bracket isMark_openArray isMark_closeArray isGap_nil
    | cons v vs =>
      simp only [indented, String.toList_append, tokens, List.append_assoc]
      exact hitems.bracket isMark_openArray isMark_closeArray (isGap_newLine depth)
  | @record fields _ ih =>
    have hfields : Spells
        (indentedFields (depth + 1) (fields.map fun f => (some f.1, f.2))).toList
        (commas (fieldTokens (fields.map fun f => (some f.1, f.2)))) := by
      rw [fieldTokens_eq]
      refine spells_commas (indentedFields (depth + 1))
        (fun f => newLine (depth + 1) ++ quoteContent f.1 ++ ": " ++ indented (depth + 1) f.2) rfl
        (fun _ => rfl) (fun _ _ _ => rfl) (List.forall_mem_map.2 fun f hf => ?_)
      have hfield := Spells.field f.1 isGap_blank (ih f hf (depth + 1))
      simp only [String.toList_append, List.append_assoc]
      exact (isGap_newLine (depth + 1)).spells hfield
    cases fields with
    | nil =>
      rw [Json.record, List.map_nil, indented, tokens, fieldTokens]
      exact Spells.nil.bracket isMark_openObject isMark_closeObject isGap_nil
    | cons f fs =>
      rw [List.map_cons] at hfields
      rw [Json.record, List.map_cons]
      simp only [indented, String.toList_append, tokens, List.append_assoc]
      exact hfields.bracket isMark_openObject isMark_closeObject (isGap_newLine depth)

theorem Spells.tokens? {cs : List Char} {ts : List Token} (h : Spells cs ts) :
    tokens? cs = some ts := by
  have hscan := h [] [] ends_nil
  rw [List.append_nil, List.append_nil] at hscan
  rw [Json.tokens?, hscan, scan?]
  exact congrArg some (List.reverse_reverse ts)

end Json

end Badging
