import EntityQuery.Reply
/-! A database server as the clients of a pool meet it: it lets clients connect or turns them away, and
every query takes the next of the replies that lie ready. Clients are numbered from one, in the order in
which they were made. -/

namespace EntityQuery.Connection

inductive Event where
  | opened (client : Nat)
  | refused (client : Nat)
  | asked (client : Nat) (text : String) (params : Option Value)
  | released (client : Nat)
  | closed (client : Nat)
  deriving Repr

/-- `refusals` are the errors with which clients are turned away, by number; `strict` servers take a
reply for the statements that a layer sends of its own, too. -/
structure Server where
  replies : List Reply
  refusals : List (Option Value)
  strict : Bool
  clients : Nat
  events : List Event

namespace Server

def start (replies : List Reply) (refusals : List (Option Value)) (strict : Bool) : Server :=
  ⟨replies, refusals, strict, 0, []⟩

def note (s : Server) (e : Event) : Server := { s with events := s.events ++ [e] }

def routine : List String := ["SELECT NOW()", "BEGIN", "COMMIT", "ROLLBACK"]

/-- Make a client and connect it; its number is returned. -/
def connect (s : Server) : Except Failure Nat × Server :=
  let client := s.clients + 1
  let s := { s with clients := client }
  match (s.refusals[s.clients - 1]?).join with
  | some error => (.error (.plain error), s.note (.refused client))
  | none => (.ok client, s.note (.opened client))

def answer (s : Server) (client : Nat) (text : String) (params : Option Value) : Except Failure (List Row) × Server :=
  let s := s.note (.asked client text params)
  if !s.strict && routine.contains text then (.ok [], s)
  else
    match s.replies with
    | [] => (.ok [], s)
    | .rows rows _ :: rest => (.ok rows, { s with replies := rest })
    | .refused error :: rest => (.error (.plain error), { s with replies := rest })
    | .unsent failure :: rest => (.error failure, { s with replies := rest })

end Server

end EntityQuery.Connection
