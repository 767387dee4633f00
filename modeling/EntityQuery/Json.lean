import EntityQuery.Number.Shortest
import EntityQuery.Text.Units
/-! JSON documents and their text: no blanks, members in their order, only the escapes that JSON
requires and those of halves of pairs, and `null` for numbers that are not finite. -/

namespace EntityQuery

inductive Json where
  | null
  | bool (value : Bool)
  | number (value : Number)
  | text (value : String)
  | array (items : List Json)
  | object (members : List (String × Json))
  deriving Repr, Inhabited

namespace Json

def hexDigits (n : Nat) : List Char := Text.padLeft 4 '0' (Nat.toDigits 16 n)

def escaped (c : Char) : List Char :=
  if c = '"' then ['\\', '"']
  else if c = '\\' then ['\\', '\\']
  else if c = '\n' then ['\\', 'n']
  else if c = '\r' then ['\\', 'r']
  else if c = '\t' then ['\\', 't']
  else if c.toNat = 8 then ['\\', 'b']
  else if c.toNat = 12 then ['\\', 'f']
  else if c.toNat < 32 then '\\' :: 'u' :: hexDigits c.toNat
  else
    match Text.half? c with
    | some unit => '\\' :: 'u' :: hexDigits unit
    | none => [c]

def quoted (s : String) : List Char := '"' :: s.toList.flatMap escaped ++ ['"']

def numberChars (n : Number) : List Char := if n.isFinite then n.toText.toList else "null".toList

mutual

def chars : Json → List Char
  | .null => "null".toList
  | .bool b => if b then "true".toList else "false".toList
  | .number n => numberChars n
  | .text s => quoted s
  | .array items => '[' :: itemChars items ++ [']']
  | .object members => '\x7b' :: memberChars members ++ ['\x7d']
termination_by structural j => j

def itemChars : List Json → List Char
  | [] => []
  | [item] => chars item
  | item :: rest => chars item ++ ',' :: itemChars rest
termination_by structural items => items

def memberChars : List (String × Json) → List Char
  | [] => []
  | [(name, value)] => quoted name ++ ':' :: chars value
  | (name, value) :: rest => quoted name ++ ':' :: chars value ++ ',' :: memberChars rest
termination_by structural members => members

end

def print (j : Json) : String := String.ofList j.chars

/-- Insert a member before the first one with a greater name, in the order of UTF-16 units. -/
def insertSorted (name : String) (value : Json) : List (String × Json) → List (String × Json)
  | [] => [(name, value)]
  | (key, old) :: rest =>
    if Text.compareUnits name key == .lt then (name, value) :: (key, old) :: rest
    else (key, old) :: insertSorted name value rest

mutual

/-- The document with the members of every object sorted by name. -/
def sorted : Json → Json
  | .array items => .array (sortedItems items)
  | .object members => .object (sortedMembers members)
  | .null => .null
  | .bool b => .bool b
  | .number n => .number n
  | .text s => .text s
termination_by structural j => j

def sortedItems : List Json → List Json
  | [] => []
  | item :: rest => sorted item :: sortedItems rest
termination_by structural items => items

def sortedMembers : List (String × Json) → List (String × Json)
  | [] => []
  | (name, value) :: rest => insertSorted name (sorted value) (sortedMembers rest)
termination_by structural members => members

end

/-- The text of a document that does not depend on the order of members. -/
def canonical (j : Json) : String := j.sorted.print

end Json

end EntityQuery
