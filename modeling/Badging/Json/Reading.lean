import Badging.Json.Token

/-!
# Reading JSON text

The reader places one token after the other. It carries the containers that are open, the
innermost first, and what may come next; a complete value goes into the innermost container
or, if none is open, is the result. So reading is a recursion on the tokens, and containers may
be nested to any depth.
-/

namespace Badging

namespace Json

/-- An open container with what is in it so far, last one first. A member is an object whose
next value belongs to the key. -/
inductive Frame where
  | items (done : List Json)
  | fields (done : List (Option String × Json))
  | member (done : List (Option String × Json)) (key : Option String)
deriving Repr

inductive Expected where
  | value
  | firstItem
  | firstKey
  | key
  | colon
  | next
  | nothing (result : Json)
deriving Repr

def place (v : Json) : List Frame → Expected × List Frame
  | [] => (.nothing v, [])
  | .items done :: rest => (.next, .items (v :: done) :: rest)
  | .member done key :: rest => (.next, .fields ((key, v) :: done) :: rest)
  | .fields done :: rest => (.next, .fields done :: rest)

def startValue? (frames : List Frame) : Token → Option (Expected × List Frame)
  | .openArray => some (.firstItem, .items [] :: frames)
  | .openObject => some (.firstKey, .fields [] :: frames)
  | .string s => some (place (.string s) frames)
  | .scalar v => some (place v frames)
  | _ => none

def startField? : List Frame → Token → Option (Expected × List Frame)
  | .fields done :: rest, .string key => some (.colon, .member done key :: rest)
  | _, _ => none

def close? : List Frame → Token → Option (Expected × List Frame)
  | .items done :: rest, .closeArray => some (place (.array done.reverse) rest)
  | .fields done :: rest, .closeObject => some (place (.object done.reverse) rest)
  | _, _ => none

def step? (frames : List Frame) : Expected → Token → Option (Expected × List Frame)
  | .value, t => startValue? frames t
  | .firstItem, .closeArray => close? frames .closeArray
  | .firstItem, t => startValue? frames t
  | .firstKey, .closeObject => close? frames .closeObject
  | .firstKey, t => startField? frames t
  | .key, t => startField? frames t
  | .colon, .colon => some (.value, frames)
  | .colon, _ => none
  | .next, .comma =>
    match frames with
    | .items _ :: _ => some (.value, frames)
    | .fields _ :: _ => some (.key, frames)
    | _ => none
  | .next, t => close? frames t
  | .nothing _, _ => none

def build? (expected : Expected) (frames : List Frame) : List Token → Option Json
  | [] =>
    match expected with
    | .nothing v => some v
    | _ => none
  | t :: ts =>
    match step? frames expected t with
    | none => none
    | some (expected, frames) => build? expected frames ts

/-- Reads a text that holds one value and nothing else. -/
def parse? (s : String) : Option Json := (tokens? s.toList).bind (build? .value [])

end Json

end Badging
