import EntityQuery.Condition
import EntityQuery.Value.Display
/-! LIKE patterns: `%` stands for any text, `_` for any character, and a backslash takes the character
after it literally. -/

namespace EntityQuery.Sql

def isWildcard (c : Char) : Bool := c == '\\' || c == '%' || c == '_'

def escapeChars (cs : List Char) : List Char := cs.flatMap fun c => if isWildcard c then ['\\', c] else [c]

def escapeLike (s : String) : String := String.ofList (escapeChars s.toList)

/-- The pattern of the texts in which `part` occurs. -/
def occurrencePattern (o : Occurrence) (part : String) : String :=
  match o with
  | .contains => "%" ++ escapeLike part ++ "%"
  | .startsWith => escapeLike part ++ "%"
  | .endsWith => "%" ++ escapeLike part

/-- The pattern of the texts that a match accepts; a match that is not known has none. Only texts can be
looked for. -/
def likePattern (kind : TextMatch) (part : Value) : Except Failure Value := do
  match part, kind with
  | .text s, .equals => return .text (escapeLike s)
  | .text s, .part o => return .text (occurrencePattern o s)
  | .text _, .foreign _ => return .absent
  | part, _ =>
    let _ ← part.get "replace"
    throw (.wrongKind "value.replace is not a function")

end EntityQuery.Sql
