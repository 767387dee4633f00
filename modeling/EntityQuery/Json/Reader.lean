import EntityQuery.Json
import EntityQuery.Number.Reading
import EntityQuery.Record
/-! Reading JSON text. Objects keep the last value of a repeated name, and their members are ordered
as those of any record. -/

namespace EntityQuery.Json

def isGap (c : Char) : Bool := c == ' ' || c == '\t' || c == '\n' || c == '\r'

def skipGaps (cs : List Char) : List Char := cs.dropWhile isGap

/-- What is left of `cs` after a word that it starts with. -/
def afterWord? (word cs : List Char) : Option (List Char) :=
  if word.isPrefixOf cs then some (cs.drop word.length) else none

def fourHex? (cs : List Char) : Option (Nat × List Char) :=
  if (cs.take 4).length = 4 then (Number.ofDigitsIn? 16 (cs.take 4)).map fun n => (n, cs.drop 4) else none

/-- The character of an escaped unit, which may be a half of a pair. -/
def unitChar (n : Nat) : Char := if 0xD800 ≤ n ∧ n ≤ 0xDFFF then Text.halfChar n else Char.ofNat n

/-- The character of an escape, after its backslash. -/
def escape? : List Char → Option (Char × List Char)
  | '"' :: rest => some ('"', rest)
  | '\\' :: rest => some ('\\', rest)
  | '/' :: rest => some ('/', rest)
  | 'b' :: rest => some (Char.ofNat 8, rest)
  | 'f' :: rest => some (Char.ofNat 12, rest)
  | 'n' :: rest => some ('\n', rest)
  | 'r' :: rest => some ('\r', rest)
  | 't' :: rest => some ('\t', rest)
  | 'u' :: rest => (fourHex? rest).map fun (n, tail) => (unitChar n, tail)
  | _ => none

def textBody? : Nat → List Char → Option (List Char × List Char)
  | 0, _ => none
  | _, [] => none
  | _, '"' :: rest => some ([], rest)
  | fuel + 1, '\\' :: rest => do
    let (c, rest) ← escape? rest
    let (body, rest) ← textBody? fuel rest
    some (c :: body, rest)
  | fuel + 1, c :: rest =>
    if c.toNat < 32 then none
    else do
      let (body, rest) ← textBody? fuel rest
      some (c :: body, rest)

/-- A text, with the halves of pairs joined that stand next to each other once escapes are read. -/
def text? (cs : List Char) : Option (String × List Char) :=
  (textBody? (cs.length + 1) cs).map fun (body, rest) => (String.ofList (Text.join body), rest)

/-- The digits before the point: a zero alone, or digits that do not start with zero. -/
def wholeDigits? : List Char → Option (List Char × List Char)
  | '0' :: rest => some (['0'], rest)
  | cs =>
    let digits := cs.takeWhile Char.isDigit
    if digits.isEmpty then none else some (digits, cs.dropWhile Char.isDigit)

def fractionDigits? : List Char → Option (List Char × List Char)
  | '.' :: rest =>
    let digits := rest.takeWhile Char.isDigit
    if digits.isEmpty then none else some (digits, rest.dropWhile Char.isDigit)
  | cs => some ([], cs)

def exponentAfter? (cs : List Char) : Option (Int × List Char) :=
  let (negative, body) := Number.sign cs
  let digits := body.takeWhile Char.isDigit
  if digits.isEmpty then none
  else
    let n : Int := Number.ofDigits digits
    some (if negative then -n else n, body.dropWhile Char.isDigit)

def exponent? : List Char → Option (Int × List Char)
  | 'e' :: rest | 'E' :: rest => exponentAfter? rest
  | cs => some (0, cs)

def number? (cs : List Char) : Option (Number × List Char) := do
  let (negative, rest) := match cs with
    | '-' :: rest => (true, rest)
    | _ => (false, cs)
  let (whole, rest) ← wholeDigits? rest
  let (places, rest) ← fractionDigits? rest
  let (exponent, rest) ← exponent? rest
  some (Number.Decimal.toNumber ⟨negative, whole ++ places, exponent - places.length⟩, rest)

mutual

def value? : Nat → List Char → Option (Json × List Char)
  | 0, _ => none
  | fuel + 1, cs =>
    match skipGaps cs with
    | 'n' :: rest => (afterWord? "ull".toList rest).map fun tail => (.null, tail)
    | 't' :: rest => (afterWord? "rue".toList rest).map fun tail => (.bool true, tail)
    | 'f' :: rest => (afterWord? "alse".toList rest).map fun tail => (.bool false, tail)
    | '"' :: rest => (text? rest).map fun (s, tail) => (.text s, tail)
    | '[' :: rest =>
      match skipGaps rest with
      | ']' :: tail => some (.array [], tail)
      | _ => (items? fuel rest).map fun (items, tail) => (.array items, tail)
    | '\x7b' :: rest =>
      match skipGaps rest with
      | '\x7d' :: tail => some (.object [], tail)
      | _ => (members? fuel rest).map fun (members, tail) => (.object (Record.ofPairs members), tail)
    | cs => (number? cs).map fun (n, tail) => (.number n, tail)

def items? : Nat → List Char → Option (List Json × List Char)
  | 0, _ => none
  | fuel + 1, cs => do
    let (item, rest) ← value? fuel cs
    match skipGaps rest with
    | ',' :: tail => do
      let (items, rest) ← items? fuel tail
      some (item :: items, rest)
    | ']' :: tail => some ([item], tail)
    | _ => none

def members? : Nat → List Char → Option (List (String × Json) × List Char)
  | 0, _ => none
  | fuel + 1, cs =>
    match skipGaps cs with
    | '"' :: rest => do
      let (name, rest) ← text? rest
      match skipGaps rest with
      | ':' :: rest => do
        let (value, rest) ← value? fuel rest
        match skipGaps rest with
        | ',' :: tail => do
          let (members, rest) ← members? fuel tail
          some ((name, value) :: members, rest)
        | '\x7d' :: tail => some ([(name, value)], tail)
        | _ => none
      | _ => none
    | _ => none

end

def read? (s : String) : Option Json := do
  let cs := s.toList
  let (j, rest) ← value? (cs.length + 1) cs
  if (skipGaps rest).isEmpty then some j else none

end EntityQuery.Json
