import EntityQuery.Text.Blank
import EntityQuery.Text.LetterCase
/-! Names and paths. A path separates its segments by `.` or `::`; entity names are written in Pascal
case, fields and tables in snake case. -/

namespace EntityQuery.Name

/-- The parts of a path between `.` and `::`, read from left to right; `current` holds the part being
read, last character first. -/
def splitFrom (current : List Char) : List Char → List (List Char)
  | [] => [current.reverse]
  | ':' :: ':' :: rest => current.reverse :: splitFrom [] rest
  | c :: rest => if c = '.' then current.reverse :: splitFrom [] rest else splitFrom (c :: current) rest

/-- The trimmed, non-empty segments of a path. -/
def segments (path : String) : List String :=
  ((splitFrom [] path.toList).map Text.trimChars).filterMap fun cs =>
    if cs.isEmpty then none else some (String.ofList cs)

/-- The last segment of a path, or the text itself when it has none. -/
def lastSegment (path : String) : String := (segments path).getLast?.getD path

/-- The segment before the last one, which names a module; a single segment names the entity. -/
def targetSegment (path : String) : String :=
  match (segments path).reverse with
  | _ :: target :: _ => target
  | [only] => only
  | [] => path

def isUpper (c : Char) : Bool := 'A' ≤ c && c ≤ 'Z'

def isLower (c : Char) : Bool := 'a' ≤ c && c ≤ 'z'

/-- Separate a run of capitals from the capitalised word that ends it: `HTTPServer` becomes
`HTTP_Server`. The flag says that a capital stands right before. -/
def splitAcronyms (afterUpper : Bool) : List Char → List Char
  | [] => []
  | c :: rest =>
    let startsWord := match rest with
      | next :: _ => isLower next
      | [] => false
    if afterUpper && isUpper c && startsWord then '_' :: c :: splitAcronyms false rest
    else c :: splitAcronyms (isUpper c) rest

/-- Separate a capital from a small letter or digit before it. -/
def splitCapitals (afterSmall : Bool) : List Char → List Char
  | [] => []
  | c :: rest =>
    let small := isLower c || c.isDigit
    if afterSmall && isUpper c then '_' :: c :: splitCapitals small rest
    else c :: splitCapitals small rest

def isSeparator (c : Char) : Bool := c == '-' || Text.isBlank c

/-- Replace each run of hyphens and blanks by one underscore. -/
def joinSeparators (afterSeparator : Bool) : List Char → List Char
  | [] => []
  | c :: rest =>
    if isSeparator c then
      if afterSeparator then joinSeparators true rest else '_' :: joinSeparators true rest
    else c :: joinSeparators false rest

def snakeChars (cs : List Char) : List Char :=
  Text.lowerFrom [] (joinSeparators false (splitCapitals false (splitAcronyms false cs)))

/-- Words in lower case, joined by underscores. -/
def toSnake (name : String) : String := String.ofList (snakeChars name.toList)

def words (cs : List Char) : List (List Char) := (cs.splitOn '_').filter fun word => !word.isEmpty

/-- The words of the snake case name, each with a capital, joined. -/
def toPascal (name : String) : String :=
  String.ofList ((words (snakeChars name.toList)).flatMap Text.capitalize)

def defaultTable (entity : String) : String := toSnake entity ++ "s"

/-- The name without underscores and case, by which entities are told apart. -/
def normalize (name : String) : String :=
  Text.toLower (String.ofList (name.toList.filter (· != '_')))

end EntityQuery.Name
