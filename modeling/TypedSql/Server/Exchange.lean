import TypedSql.Server.Row
import TypedSql.Server.Fault
import TypedSql.Sql.Statement
import TypedSql.Protocol.Encode
import TypedSql.Protocol.Decode

/-! Statements sent to a server: what goes out, and what is made of the answer. -/
namespace TypedSql.Server
open Sql Protocol

/-- How the run of a prepared statement ends. -/
inductive Ending where
  | fault (f : ServerFault)
  | hangUp
  | complete (tag : String) (rows : List (List (Option (List UInt8))))

/-- How a server answers to a statement. -/
structure Answer where
  /-- The fault with which it refuses to prepare the text. -/
  refusal : Option ServerFault
  params : List ServerType
  columns : List (String × ServerType)
  ending : Ending

/-- What was sent. -/
structure Sent where
  sql : Option String
  binds : List Payload

/-- An operation with a record of what was sent. -/
abbrev Exchange (α : Type) := Except Failure α × Sent

/-- The parameters as the server's types want them; the first that cannot be sent is told by its
index, counted from `index`. -/
def encodeParams (index : Nat) : List Parameter → List ServerType → Except LinkFailure (List Payload)
  | p :: params, t :: types =>
    match encode t p.value with
    | .ok payload => (payload :: ·) <$> encodeParams (index + 1) params types
    | .error _ => .error (.parameter index)
  | _, _ => .ok []

/-- Whether a text can be sent: the protocol ends texts with a null character. -/
def isSendable (sql : String) : Bool := !sql.toList.contains '\x00'

/-- Prepares and runs a statement, and hands what it completes with to `read`. -/
def run {α : Type} (r : Rendered) (answer : Answer)
    (read : String → List (List (Option (List UInt8))) → Except Failure α) : Exchange α :=
  match r.numberedSql with
  | .error e => (.error (.ofError e), ⟨none, []⟩)
  | .ok sql =>
    let fail (f : LinkFailure) : Except Failure α := .error ⟨[], .server (f.toError sql)⟩
    if !isSendable sql then (fail .unsendable, ⟨none, []⟩)
    else match answer.refusal with
      | some f => (fail (.fault f), ⟨some sql, []⟩)
      | none =>
        if r.params.length ≠ answer.params.length then
          (fail (.parameterCount answer.params.length r.params.length), ⟨some sql, []⟩)
        else match encodeParams 0 r.params answer.params with
          | .error f => (fail f, ⟨some sql, []⟩)
          | .ok binds =>
            match answer.ending with
            | .fault f => (fail (.fault f), ⟨some sql, binds⟩)
            | .hangUp => (fail .closed, ⟨some sql, binds⟩)
            | .complete tag rows => (read tag rows, ⟨some sql, binds⟩)

/-- The count at the end of a command tag; zero if there is none that fits in 64 bits. -/
def affectedRows (tag : String) : Nat :=
  let word := (tag.toList.reverse.takeWhile (· ≠ ' ')).reverse
  let digits := match word with
    | '+' :: digits => digits
    | _ => word
  if !digits.isEmpty && digits.all Char.isDigit then
    let n := digits.foldl (fun n c => n * 10 + (c.toNat - '0'.toNat)) 0
    if n < Nat.pow 2 64 then n else 0
  else 0

/-- Runs a statement and gives the count of rows it changed. -/
def execute (r : Rendered) (answer : Answer) : Exchange Nat :=
  run r answer fun tag _ => .ok (affectedRows tag)

/-- The column with a name; if none has it as it is, one that differs in the case of letters. -/
def findColumn? (name : String) (columns : List (String × ServerType)) : Option Nat :=
  (columns.findIdx? fun (n, _) => n = name) <|>
    columns.findIdx? fun (n, _) => n.toLower = name.toLower

/-- The value of an output in a row. -/
def readOutput (columns : List (String × ServerType)) (row : List (Option (List UInt8)))
    (o : Output) : Except Failure Wire :=
  let fail (lines : List String) : Except Failure Wire :=
    .error ⟨["reading column " ++ o.name], .messages lines⟩
  match findColumn? o.name columns with
  | none => fail ["invalid column `" ++ o.name ++ "`"]
  | some i =>
    match columns[i]?, (row[i]?).join with
    | some (_, type), some bytes =>
      match type.decode bytes with
      | .ok w => .ok w
      | .error .overflow => .error ⟨[], .breakdown CodecProblem.overflow.message⟩
      | .error problem => fail [s!"error deserializing column {i}", problem.message]
    | _, _ => .ok .null

/-- The record in a row of the answer. -/
def readRecord (outputs : List Output) (columns : List (String × ServerType))
    (row : List (Option (List UInt8))) : Except Failure Record := do
  let wires ← outputs.mapM (readOutput columns row)
  (decodeRow outputs wires).mapError fun e => ⟨["decoding result row"], .error e⟩

/-- Runs a statement and decodes the rows it returns. -/
def query (r : Rendered) (answer : Answer) : Exchange (List Record) :=
  run r answer fun _ rows => rows.mapM (readRecord r.outputs answer.columns)

end TypedSql.Server
