import ShadowCatalog.Json.Basic
import ShadowCatalog.Postgres.Row

/-!
# Statements and connections

A statement is sent over a connection. Connections are kept: one to read and
write, and one to read only, each made when it is first needed and made anew
when it was lost. Who answers the statements is left open here: a server is a
script of replies, of which each statement takes the next one, and it keeps a
record of what it was sent.
-/

namespace ShadowCatalog.Postgres

/-- A value bound to a parameter. -/
inductive Bound
  | text (value : String)
  | optionalText (value : Option String)
  | integer (value : Int)
  /-- A list of integers in JSON. -/
  | integers (values : List Int)
  | texts (values : List String)
  deriving DecidableEq, Repr

/-- A bound value in JSON. -/
def Bound.toJson : Bound → Json
  | .text value => .string value
  | .optionalText value => .ofOption .string value
  | .integer value => .int value
  | .integers values => .ofList .int values
  | .texts values => .ofList .string values

/-- A statement and the values bound to its parameters. -/
structure Request where
  text : String
  values : List Bound
  deriving DecidableEq, Repr

/-- A reply of the server. -/
inductive ServerReply
  | rows (columns : List ResultColumn) (rows : List (List Cell))
  /-- The number of rows that were touched. -/
  | touched (count : Nat)
  /-- The statement is refused when it is to be prepared. -/
  | unprepared
  /-- The statement is refused when it is to be carried out. -/
  | refused
  /-- The connection is lost. -/
  | closed
  /-- There is never an answer. -/
  | silent
  deriving DecidableEq, Repr

/-- A statement as the server got it. One that is refused when it is to be
    prepared never gets its values. -/
structure Sent where
  text : String
  values : Option (List Bound)
  deriving DecidableEq, Repr

/-- The connection of one kind. -/
inductive Link
  /-- There is none yet, or it was lost. -/
  | missing
  | made
  /-- There will be none again. -/
  | shut
  deriving DecidableEq, Repr

/-- What a connection is for. -/
inductive Access
  | readWrite
  | readOnly
  deriving DecidableEq, Repr

/-- Why there is no connection. -/
inductive PoolError
  /-- The server cannot be reached. -/
  | unreachable
  /-- There will be none again. -/
  | closed
  /-- The connection is in use, and does not come free in time. -/
  | exhausted
  deriving DecidableEq, Repr

/-- The words for why there is no connection. -/
def PoolError.message : PoolError → String
  | .unreachable =>
    "Error occurred while creating a new object: error communicating with the server"
  | .closed => "Pool has been closed"
  | .exhausted => "Timeout occurred while waiting for a slot to become available"

/-- A server and the connections to it. -/
structure Server where
  /-- The replies to come. -/
  replies : List ServerReply := []
  /-- No new connections are taken. -/
  refuses : Bool := false
  readWrite : Link := .missing
  readOnly : Link := .missing
  /-- What was sent, the last statement first. -/
  sent : List Sent := []
  deriving DecidableEq, Repr

/-- What becomes of a statement. -/
inductive Outcome
  | finished (result : Except StatementError ResultSet)
  /-- There is never an answer. -/
  | silent

namespace Server

variable (server : Server)

/-- The connection of a kind. -/
def link : Access → Link
  | .readWrite => server.readWrite
  | .readOnly => server.readOnly

/-- The server with another connection of a kind. -/
def setLink (link : Link) : Access → Server
  | .readWrite => { server with readWrite := link }
  | .readOnly => { server with readOnly := link }

/-- A connection is taken, and made if there is none. -/
def connect (access : Access) : Except PoolError Server :=
  match server.link access with
  | .made => .ok server
  | .shut => .error .closed
  | .missing =>
    if server.refuses then .error .unreachable else .ok (server.setLink .made access)

/-- The one connection of a kind is taken, and then asked for once more. -/
def connectTwice (access : Access) : PoolError × Server :=
  match server.connect access with
  | .error cause => (cause, server)
  | .ok later => (.exhausted, later)

/-- The connection of a kind is closed, and there will be none again. -/
def shutDown (access : Access) : Server := server.setLink .shut access

/-- The reply to the next statement. Where the script has ended, statements are
    refused. -/
def nextReply : ServerReply × Server :=
  match server.replies with
  | [] => (.refused, server)
  | reply :: replies => (reply, { server with replies })

/-- The server with one more statement on record. -/
def record (text : String) (values : Option (List Bound)) : Server :=
  { server with sent := ⟨text, values⟩ :: server.sent }

/-- What comes of a reply. -/
def outcomeOf : ServerReply → Outcome
  | .rows columns rows => .finished (.ok ⟨columns, rows, rows.length⟩)
  | .touched count => .finished (.ok ⟨[], [], count⟩)
  | .unprepared => .finished (.error .refused)
  | .refused => .finished (.error .refused)
  | .closed => .finished (.error .closed)
  | .silent => .silent

/-- A statement is sent over a connection that was taken. -/
def send (access : Access) (request : Request) : Outcome × Server :=
  let (reply, server) := server.nextReply
  let values := if reply = .unprepared then none else some request.values
  let server := server.record request.text values
  let server := if reply = .closed then server.setLink .missing access else server
  (outcomeOf reply, server)

/-- A statement is sent and waited for. The connection over which there is never
    an answer is as good as lost. -/
def execute (access : Access) (request : Request) : Except StatementError ResultSet × Server :=
  match server.send access request with
  | (.finished result, later) => (result, later)
  | (.silent, later) => (.error .closed, later.setLink .missing access)

/-- Several statements are sent as one text and waited for. None of them has
    parameters, and none is prepared. -/
def executeBatch (access : Access) (text : String) : Except StatementError Unit × Server :=
  let (result, later) := server.execute access ⟨text, []⟩
  (result.map fun _ => (), { later with sent := ⟨text, some []⟩ :: server.sent })

end Server

end ShadowCatalog.Postgres
