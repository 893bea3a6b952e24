import Badging.Json.Value

/-!
# Writing JSON text

Two layouts of one value. The compact one puts everything on a line without blanks. The
indented one gives every item and every field a line of its own, two blanks further in than
its container, and leaves empty containers as `[]` and `{}`.
-/

namespace Badging

namespace Json

def hexDigit (n : Nat) : Char := (Nat.digitChar n)

/-- A character inside a string. Quotes, backslashes and control characters are escaped. -/
def escapeChar (c : Char) : List Char :=
  match c with
  | '"' => ['\\', '"']
  | '\\' => ['\\', '\\']
  | '\n' => ['\\', 'n']
  | '\r' => ['\\', 'r']
  | '\t' => ['\\', 't']
  | '\x08' => ['\\', 'b']
  | '\x0c' => ['\\', 'f']
  | c =>
    if c.toNat < 0x20 then
      ['\\', 'u', '0', '0', hexDigit (c.toNat / 16), hexDigit (c.toNat % 16)]
    else [c]

def quote (s : String) : String :=
  String.ofList ('"' :: (s.toList.flatMap escapeChar ++ ['"']))

/-- A string in quotes; one that spells no text is written as the replacement character. -/
def quoteContent (s : Option String) : String := quote (s.getD "\ufffd")

def numeralText (n : Numeral) : String :=
  (if n.negative then "-" else "") ++ String.ofList n.whole ++
    (match n.places with
      | none => ""
      | some ds => "." ++ String.ofList ds) ++
    (match n.exponent with
      | none => ""
      | some e => "e" ++ Number.integerText e)

mutual

/-- The text of a value on one line. -/
def compact : Json → String
  | .null => "null"
  | .bool b => if b then "true" else "false"
  | .number n => numeralText n
  | .string s => quoteContent s
  | .array items => "[" ++ compactItems items ++ "]"
  | .object fields => "\x7b" ++ compactFields fields ++ "\x7d"

def compactItems : List Json → String
  | [] => ""
  | [v] => compact v
  | v :: vs => compact v ++ "," ++ compactItems vs

def compactFields : List (Option String × Json) → String
  | [] => ""
  | [(k, v)] => quoteContent k ++ ":" ++ compact v
  | (k, v) :: rest => quoteContent k ++ ":" ++ compact v ++ "," ++ compactFields rest

end

def newLine (depth : Nat) : String := String.ofList ('\n' :: List.replicate (2 * depth) ' ')

mutual

/-- The text of a value at a depth, one item or field a line. -/
def indented (depth : Nat) : Json → String
  | .array (v :: vs) =>
    "[" ++ indentedItems (depth + 1) (v :: vs) ++ newLine depth ++ "]"
  | .object (f :: fs) =>
    "\x7b" ++ indentedFields (depth + 1) (f :: fs) ++ newLine depth ++ "\x7d"
  | .array [] => "[]"
  | .object [] => "\x7b\x7d"
  | .null => "null"
  | .bool b => if b then "true" else "false"
  | .number n => numeralText n
  | .string s => quoteContent s

def indentedItems (depth : Nat) : List Json → String
  | [] => ""
  | [v] => newLine depth ++ indented depth v
  | v :: vs => newLine depth ++ indented depth v ++ "," ++ indentedItems depth vs

def indentedFields (depth : Nat) : List (Option String × Json) → String
  | [] => ""
  | [(k, v)] => newLine depth ++ quoteContent k ++ ": " ++ indented depth v
  | (k, v) :: rest =>
    newLine depth ++ quoteContent k ++ ": " ++ indented depth v ++ "," ++
      indentedFields depth rest

end

/-- The text of a value with one item or field a line. -/
def pretty (v : Json) : String := indented 0 v

end Json

end Badging
