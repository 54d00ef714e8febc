import TypedSql.Text.Position
import TypedSql.Error

/-! Failures reported by the server or the link to it, placed in the text of the statement. -/
namespace TypedSql.Server
open Text

/-- The broad class of a failure. -/
inductive Category where
  | grammar
  | semantic
  | constraint
  | data
  | transaction
  | connection
  | other
  deriving DecidableEq, Repr

namespace Category

def text : Category → String
  | grammar => "syntax error"
  | semantic => "semantic error"
  | constraint => "constraint violation"
  | data => "data error"
  | transaction => "transaction error"
  | connection => "connection error"
  | other => "error"

/-- The class that the first two characters of a state code tell; one code is told apart whole. -/
def ofState (code : String) : Category :=
  if code = "42601" then grammar
  else match code.toList with
    | '4' :: '2' :: _ => semantic
    | '2' :: '3' :: _ => constraint
    | '2' :: '2' :: _ => data
    | '2' :: '5' :: _ | '4' :: '0' :: _ => transaction
    | '0' :: '8' :: _ => connection
    | _ => other

end Category

/-- A failure with its place in the statement. -/
structure ServerError where
  category : Category
  code : String
  message : String
  detail : Option String
  hint : Option String
  constraint : Option String
  location : Option Location
  deriving DecidableEq, Repr

/-- A part that is shown only where there is something to show. -/
def optional (label : String) : Option String → String
  | some s => label ++ s
  | none => ""

def ServerError.text (e : ServerError) : String :=
  e.category.text ++ ": " ++ e.message ++
    (if e.code.isEmpty then "" else s!" (SQLSTATE {e.code})") ++
    optional "" (e.location.map fun l => s!" at line {l.line}, column {l.column}") ++
    optional "\n  detail: " e.detail ++ optional "\n  constraint: " e.constraint ++
    optional "\n  hint: " e.hint

/-- What the server says about a failure. The position counts characters of the text it was sent. -/
structure ServerFault where
  code : String
  message : String
  detail : Option String
  hint : Option String
  constraint : Option String
  position : Option Nat
  deriving DecidableEq, Repr

/-- The lines in which a link shows a fault. -/
def ServerFault.lines (f : ServerFault) : List String :=
  ["db error",
    "ERROR: " ++ f.message ++ optional "\nDETAIL: " f.detail ++ optional "\nHINT: " f.hint]

/-- Why an exchange with the server came to nothing. -/
inductive LinkFailure where
  | fault (f : ServerFault)
  | closed
  | unsendable
  | parameterCount (expected given : Nat)
  | parameter (index : Nat)
  deriving DecidableEq, Repr

def LinkFailure.message : LinkFailure → String
  | fault f => f.message
  | closed => "connection closed"
  | unsendable => "error encoding message to server"
  | parameterCount expected given => s!"expected {expected} parameters but got {given}"
  | parameter index => s!"error serializing parameter {index}"

/-- The failure as reported to callers, placed in the text that was sent. -/
def LinkFailure.toError (sql : String) : LinkFailure → ServerError
  | fault f =>
    ⟨.ofState f.code, f.code, f.message, f.detail, f.hint, f.constraint,
      f.position.map (Location.ofPosition sql.toList)⟩
  | failure =>
    ⟨if failure = closed then .connection else .other, "", failure.message, none, none, none, none⟩

/-- What ends an operation on the server. -/
inductive Cause where
  | error (e : Error)
  | server (e : ServerError)
  /-- Messages from the outermost inwards. -/
  | messages (lines : List String)
  /-- The operation breaks off, and nothing is reported but this. -/
  | breakdown (line : String)

def Cause.lines : Cause → List String
  | error e => [e.message]
  | server e => [e.text]
  | messages lines => lines
  | breakdown line => [line]

/-- A cause and what was being done, from the outermost inwards. -/
structure Failure where
  context : List String
  cause : Cause

namespace Failure

def ofError (e : Error) : Failure := ⟨[], .error e⟩

def chain (f : Failure) : List String := f.context ++ f.cause.lines

/-- A fault met while doing something. -/
def during (context : String) (f : ServerFault) : Failure := ⟨[context], .messages f.lines⟩

end Failure
end TypedSql.Server
