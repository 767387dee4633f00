/-! The two channels that are told what happens. -/

namespace EntityQuery

inductive Channel where
  | db | error
  deriving DecidableEq, Repr

def Channel.tag : Channel → String
  | db => "db"
  | error => "error"

end EntityQuery
