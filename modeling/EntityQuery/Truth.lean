/-! Three-valued truth: conditions on missing values are neither true nor false. A test of no known form
stands beside the truth values. -/

namespace EntityQuery

/-- True or false, unknown, or no truth value at all: lists pass over the last kind, and its negation says
whether it counted as true. -/
inductive Truth where
  | known (value : Bool)
  | unknown
  | beside (counted : Bool)
  deriving DecidableEq, Repr

namespace Truth

def isTrue (t : Truth) : Bool := t == known true

def negate : Truth → Truth
  | known b => known !b
  | unknown => unknown
  | beside counted => known !counted

/-- Conjunction: one false member makes it false, else an unknown one makes it unknown. -/
def all (ts : List Truth) : Truth :=
  if ts.contains (known false) then known false else if ts.contains unknown then unknown else known true

/-- Disjunction: one true member makes it true, else an unknown one makes it unknown. -/
def any (ts : List Truth) : Truth :=
  if ts.contains (known true) then known true else if ts.contains unknown then unknown else known false

def isProper : Truth → Bool
  | beside _ => false
  | _ => true

theorem negate_negate {t : Truth} (proper : t.isProper) : t.negate.negate = t := by
  cases t <;> simp_all [negate, isProper]

theorem isProper_negate (t : Truth) : t.negate.isProper := by
  cases t <;> rfl

end Truth

end EntityQuery
