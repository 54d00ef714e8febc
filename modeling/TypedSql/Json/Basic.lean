import TypedSql.Floating.Basic

/-! Documents: numbers, strings, arrays, and objects sorted by key. -/
namespace TypedSql

/-- A number of a document: a 64-bit integer, with or without sign, or a double. -/
inductive JsonNumber where
  | integer (n : Int)
  | decimal (x : Floating.Double)
  deriving DecidableEq, Repr

/-- A document. The fields of an object are sorted by key and no key occurs twice. -/
inductive Json where
  | null
  | bool (b : Bool)
  | number (n : JsonNumber)
  | string (s : String)
  | array (items : List Json)
  | object (fields : List (String × Json))
  deriving Repr

namespace JsonNumber

/-- Numbers of one form are compared by value; an integer never equals a decimal. -/
def equals : JsonNumber → JsonNumber → Bool
  | .integer m, .integer n => m = n
  | .decimal x, .decimal y => x.equals y
  | _, _ => false

end JsonNumber

namespace Json

mutual

/-- Whether two documents are the same, their decimals compared as numbers. -/
def equals : Json → Json → Bool
  | .null, .null => true
  | .bool a, .bool b => a = b
  | .number m, .number n => m.equals n
  | .string s, .string t => s = t
  | .array xs, .array ys => allEqual xs ys
  | .object xs, .object ys => allFieldsEqual xs ys
  | _, _ => false

def allEqual : List Json → List Json → Bool
  | [], [] => true
  | x :: xs, y :: ys => x.equals y && allEqual xs ys
  | _, _ => false

def allFieldsEqual : List (String × Json) → List (String × Json) → Bool
  | [], [] => true
  | (k, x) :: xs, (l, y) :: ys => k = l && x.equals y && allFieldsEqual xs ys
  | _, _ => false

end

/-- Sets a field among sorted fields, in place of an earlier one with its key. -/
def setField (key : String) (value : Json) : List (String × Json) → List (String × Json)
  | [] => [(key, value)]
  | (k, v) :: rest =>
    if key < k then (key, value) :: (k, v) :: rest
    else if key = k then (key, value) :: rest
    else (k, v) :: setField key value rest

/-- The object with these fields; of several with one key the last counts. -/
def ofFields (fields : List (String × Json)) : Json :=
  .object (fields.foldl (fun sorted (k, v) => setField k v sorted) [])

/-- The field of an object. -/
def field? (key : String) : Json → Option Json
  | .object fields => (fields.find? fun (k, _) => k = key).map Prod.snd
  | _ => none

end Json
end TypedSql
