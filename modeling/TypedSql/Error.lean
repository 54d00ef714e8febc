import TypedSql.Catalog.BaseType
import TypedSql.Sql.Token.Basic
import TypedSql.Text.Quoted

/-! What can go wrong in resolving types, converting values and writing statements, and its wording. -/
namespace TypedSql
open Text

/-- Why a type of the catalog cannot be used. -/
inductive ResolutionFailure where
  | unknownType
  | pseudoType (name : String)
  | unsupportedBaseType (name : String)
  | unknownKind (kind : String)
  | cycle (name : String)
  | tooDeep
  deriving DecidableEq, Repr

def ResolutionFailure.message : ResolutionFailure → String
  | unknownType => "no such type in catalog"
  | pseudoType name => s!"{name} is a pseudo type"
  | unsupportedBaseType name => s!"base type {name} has no native representation"
  | unknownKind kind => "unrecognized type kind " ++ quoted kind
  | cycle name => s!"composite type {name} refers back to itself"
  | tooDeep => "types nest too deeply"

/-- The clause that sets or names columns. -/
inductive Clause where
  | insert
  | insertRow
  | onConflict
  | doUpdate
  | update
  deriving DecidableEq, Repr

def Clause.text : Clause → String
  | insert => "INSERT"
  | insertRow => "INSERT row"
  | onConflict => "ON CONFLICT"
  | doUpdate => "DO UPDATE"
  | update => "UPDATE"

/-- Why a statement must not reach the server. -/
inductive StatementDefect where
  | missingColumn (table column : String)
  | noTargets
  | negativeLimit (limit : Int)
  | noRows
  | noColumns
  | unfilteredUpdate
  | unfilteredDelete
  | noAssignments
  | conflictWithoutTarget
  | conflictWithoutAssignment
  | foreignColumn (clause : Clause) (table column owner : String)
  | repeatedColumn (clause : Clause) (column : String)
  deriving DecidableEq, Repr

def StatementDefect.message : StatementDefect → String
  | missingColumn table column => s!"table {table} has no column {column}"
  | noTargets => "SELECT needs at least one target"
  | negativeLimit limit => s!"negative LIMIT {limit}"
  | noRows => "INSERT needs at least one row"
  | noColumns => "INSERT rows set no columns"
  | unfilteredUpdate => "UPDATE without WHERE; filter on Expr::always_true() to update every row"
  | unfilteredDelete => "DELETE without WHERE; filter on Expr::always_true() to delete every row"
  | noAssignments => "UPDATE needs at least one assignment"
  | conflictWithoutTarget => "ON CONFLICT DO UPDATE needs a conflict target"
  | conflictWithoutAssignment => "ON CONFLICT DO UPDATE needs at least one assignment"
  | foreignColumn clause table column owner =>
    clause.text ++ s!" column {table}.{column} does not belong to {owner}"
  | repeatedColumn clause column => clause.text ++ s!" sets column {column} twice"

/-- Why a value has no parameter form. -/
inductive ParameterProblem where
  | noArrayType (type : String)
  | untypedArray
  | untyped (label : String)
  deriving DecidableEq, Repr

def ParameterProblem.message : ParameterProblem → String
  | noArrayType type => s!"type {type} has no array type"
  | untypedArray => "array value without an element type"
  | untyped label => s!"{label} value without a catalog type"

/-- What a type asks for where a value does not fit. -/
inductive Expectation where
  | type (name : String)
  | labelOf (name : String)
  | fieldOf (name : String)
  | notNullField (field name : String)
  deriving DecidableEq, Repr

def Expectation.message : Expectation → String
  | type name => name
  | labelOf name => s!"{name} label"
  | fieldOf name => s!"field of {name}"
  | notNullField field name => s!"not null field {field} of {name}"

/-- What stands there instead. -/
inductive Finding where
  | kind (label : String)
  | label (text : String)
  | unknownField (name : String)
  deriving DecidableEq, Repr

def Finding.message : Finding → String
  | kind word => word
  | label text => quoted text
  | unknownField name => "unknown field " ++ quoted name

/-- Why a protocol value is no value of its column. -/
inductive DecodeProblem where
  | untypedColumn (label : String)
  | wrongKind (label type : String)
  | notALabel (label type : String)
  | fieldCount (type : String) (expected received : Nat)
  | nullField (field type : String)
  | rowWidth (columns outputs : Nat)
  | nullOutput (output : String)
  deriving DecidableEq, Repr

def DecodeProblem.message : DecodeProblem → String
  | untypedColumn label => s!"{label} value for a column of unknown type"
  | wrongKind label type => s!"{label} value for a {type} column"
  | notALabel label type => quoted label ++ s!" is not a label of {type}"
  | fieldCount type expected received => s!"{type} has {expected} fields, received {received}"
  | nullField field type => s!"field {field} of {type} is null but declared not null"
  | rowWidth columns outputs => s!"row has {columns} columns, statement has {outputs} outputs"
  | nullOutput output => s!"null in non-nullable column {output}"

/-- Why the placeholders of a text cannot be numbered. -/
inductive QueryProblem where
  | malformed (fault : Sql.TokenFault)
  | numbered (tag : String)
  | unlocated (start : Location)
  deriving DecidableEq, Repr

def QueryProblem.message : QueryProblem → String
  | malformed fault => fault.message
  | numbered tag => s!"numbered placeholder ${tag} mixed with ? placeholders"
  | unlocated start => s!"cannot locate placeholder at Location({start.line},{start.column})"

/-- Every failure ends the operation that raised it. -/
inductive Error where
  | unresolved (oid : Oid) (reason : ResolutionFailure)
  | statement (defect : StatementDefect)
  | parameter (problem : ParameterProblem)
  | mismatch (expected : Expectation) (found : Finding)
  | decode (problem : DecodeProblem)
  | query (problem : QueryProblem)
  deriving DecidableEq, Repr

def Error.message : Error → String
  | unresolved oid reason => s!"cannot resolve type {oid}: " ++ reason.message
  | statement defect => "invalid statement: " ++ defect.message
  | parameter problem => "cannot encode parameter: " ++ problem.message
  | mismatch expected found => "expected " ++ expected.message ++ " value, found " ++ found.message
  | decode problem => "cannot decode value: " ++ problem.message
  | query problem => "malformed query text: " ++ problem.message

end TypedSql
