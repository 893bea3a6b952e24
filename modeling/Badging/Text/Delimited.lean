/-!
# Delimited text

A delimited text is a list of records, and a record a list of fields. Commas end fields, line
breaks end records: a line feed, a carriage return, or both together. A field that starts
with a quote runs to the closing quote and may contain commas and line breaks; a doubled quote in
it stands for one, and characters after the closing quote belong to the field as they are.
Lines without any character are no records. A byte order mark at the start is no part of the
text.

Every text has records, so reading cannot fail. The reader is a recursion on the characters
that carries the record it is in the middle of.
-/

namespace Badging

namespace Text

namespace Delimited

/-- Where in a record the reader is. -/
inductive Place where
  | recordStart
  | fieldStart
  | inField
  | inQuotes
  | afterQuote
deriving DecidableEq, Repr

/-- The record that is being read: its complete fields and the characters of the next one, both
last one first. -/
structure Partial where
  fields : List String
  chars : List Char

namespace Partial

def empty : Partial := ⟨[], []⟩

def push (p : Partial) (c : Char) : Partial := ⟨p.fields, c :: p.chars⟩

def endField (p : Partial) : Partial := ⟨String.ofList p.chars.reverse :: p.fields, []⟩

/-- The record that is complete with the field being read. -/
def record (p : Partial) : List String := p.endField.fields.reverse

end Partial

def isBreak (c : Char) : Bool := c == '\n' || c == '\r'

/-- Reads the characters from a place on; `done` holds the complete records, last one first. -/
def scan (place : Place) (p : Partial) (done : List (List String)) :
    List Char → List (List String)
  | [] => if place = .recordStart then done.reverse else (p.record :: done).reverse
  | c :: cs =>
    match place with
    | .inQuotes =>
      if c = '"' then scan .afterQuote p done cs else scan .inQuotes (p.push c) done cs
    | .afterQuote =>
      if c = '"' then scan .inQuotes (p.push c) done cs
      else if c = ',' then scan .fieldStart p.endField done cs
      else if isBreak c then scan .recordStart .empty (p.record :: done) cs
      else scan .inField (p.push c) done cs
    | .inField =>
      if c = ',' then scan .fieldStart p.endField done cs
      else if isBreak c then scan .recordStart .empty (p.record :: done) cs
      else scan .inField (p.push c) done cs
    | .fieldStart =>
      if c = '"' then scan .inQuotes p done cs
      else if c = ',' then scan .fieldStart p.endField done cs
      else if isBreak c then scan .recordStart .empty (p.record :: done) cs
      else scan .inField (p.push c) done cs
    | .recordStart =>
      if isBreak c then scan .recordStart p done cs
      else if c = '"' then scan .inQuotes p done cs
      else if c = ',' then scan .fieldStart p.endField done cs
      else scan .inField (p.push c) done cs

def dropMark : List Char → List Char
  | '\ufeff' :: cs => cs
  | cs => cs

def records (s : String) : List (List String) := scan .recordStart .empty [] (dropMark s.toList)

end Delimited

end Text

end Badging
