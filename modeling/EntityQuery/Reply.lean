import EntityQuery.Failure
import EntityQuery.Row
/-! Replies of a database server. -/

namespace EntityQuery

/-- The answer to one query: rows with the number of rows concerned, or an error object. Where the query could not
even be sent, a failure of the library's own stands in for the answer. -/
inductive Reply where
  | rows (rows : List Row) (count : Option Number)
  | refused (error : Value)
  | unsent (failure : Failure)
  deriving Repr

end EntityQuery
