import EntityQuery.Value
/-! Reading documents: the members of an object, each with a default where it is missing or of another
kind. -/

namespace EntityQuery.Value

def items : Value → List Value
  | .array items => items
  | _ => []

def isList : Value → Bool
  | .array _ => true
  | _ => false

def members : Value → Record Value
  | .object members => members
  | _ => []

/-- What a value goes through from one item to the next: the items of a list, or the characters of a
text. -/
def sequence? : Value → Option (List Value)
  | .array items => some items
  | .text s => some (s.toList.map fun c => .text (String.singleton c))
  | _ => none

/-- Does a value say that it has no items? -/
def hasNoLength : Value → Bool
  | .array items => items.isEmpty
  | .text s => s.isEmpty
  | .object members => ((Record.get? members "length").bind fun
    | .number n => some n.isZero
    | _ => none).getD false
  | _ => false

/-- The members of a value by name: those of an object, the items of a list and the units of a text by
position, and the parts of a key. -/
def entries : Value → Record Value
  | .object members => members
  | .array items => numbered items
  | .text s => numbered ((Text.unitTexts s).map .text)
  | .key k => [("variant", .object [("kind", .text k.kind.tag), ("value", k.value)])]
  | _ => []
where
  numbered (items : List Value) : Record Value := items.mapIdx fun i item => (Number.intText i, item)

def number? : Value → Option Number
  | .number n => some n
  | _ => none

def isTrue : Value → Bool
  | .bool b => b
  | _ => false

/-- A text, empty for anything else. -/
def textOr : Value → String
  | .text s => s
  | _ => ""

/-- The value at a position, absent where there is none. -/
def nth (values : List Value) (position : Nat) : Value := values[position]?.getD .absent

def textAt (v : Value) (name : String) : String := (v.member name).textOr

def textAt? (v : Value) (name : String) : Option String := (v.member name).text?

def flagAt (v : Value) (name : String) : Bool := (v.member name).isTrue

def itemsAt (v : Value) (name : String) : List Value := (v.member name).items

def textsAt (v : Value) (name : String) : List String := (v.itemsAt name).map textOr

/-- Named values given as a list of pairs, written one after another. -/
def pairs (v : Value) : Record Value :=
  Record.ofPairs (v.items.filterMap fun pair =>
    match pair with
    | .array [.text name, w] => some (name, w)
    | _ => none)

end EntityQuery.Value
