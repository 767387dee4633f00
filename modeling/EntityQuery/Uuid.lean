import EntityQuery.Text.Units
/-! The textual form of UUIDs: groups of hexadecimal digits, a version from one to five and the variant
of that layout, or the nil UUID. -/

namespace EntityQuery.Uuid

def isHex (c : Char) : Bool := c.isDigit || ('a' ≤ c && c ≤ 'f') || ('A' ≤ c && c ≤ 'F')

inductive Place where
  | hex | hyphen | version | variant
  deriving DecidableEq, Repr

def Place.admits : Place → Char → Bool
  | .hex, c => isHex c
  | .hyphen, c => c == '-'
  | .version, c => '1' ≤ c && c ≤ '5'
  | .variant, c => c == '8' || c == '9' || c == 'a' || c == 'b' || c == 'A' || c == 'B'

/-- Eight, four, four, four and twelve digits between hyphens. -/
def places : List Place :=
  List.replicate 8 .hex ++ .hyphen :: List.replicate 4 .hex ++ .hyphen :: .version :: List.replicate 3 .hex ++
    .hyphen :: .variant :: List.replicate 3 .hex ++ .hyphen :: List.replicate 12 .hex

def matches? : List Place → List Char → Bool
  | [], [] => true
  | p :: ps, c :: cs => p.admits c && matches? ps cs
  | _, _ => false

def nil : String := "00000000-0000-0000-0000-000000000000"

def isUuid (s : String) : Bool := matches? places s.toList || s == nil

/-- A UUID in small letters; its characters are all ASCII. -/
def normalize (s : String) : String := String.ofList (s.toList.map Char.toLower)

end EntityQuery.Uuid
