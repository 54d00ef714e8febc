import TypedSql.Value.Scalar
import TypedSql.Value.Range

/-! Values as callers hold them and as the protocol carries them. -/
namespace TypedSql

/-- A value as callers build and receive it. -/
inductive Value where
  | null
  | scalar (s : Scalar)
  | enum (label : String)
  | domain (inner : Value)
  | record (fields : List (String × Value))
  | array (items : List Value)
  | range (r : Range Value)

/-- A value as the protocol carries it: labels are text, domains leave no trace, the fields of a
record stand in order, and an array names its element type. -/
inductive Wire where
  | null
  | scalar (s : Scalar)
  | array (element : String) (items : List Wire)
  | record (fields : List Wire)
  | range (r : Range Wire)

namespace Value

def isNull : Value → Bool
  | null => true
  | _ => false

/-- The word for this kind of value in messages. -/
def label : Value → String
  | null => "null"
  | scalar s => s.native.label
  | enum _ => "enum"
  | domain _ => "domain"
  | record _ => "record"
  | array _ => "array"
  | range _ => "range"

/-- The first value filed under a name. -/
def lookup (name : String) (fields : List (String × Value)) : Option Value :=
  (fields.find? fun (n, _) => n = name).map Prod.snd

/-- The field of a record by name; the first one where a name repeats. -/
def field? (name : String) : Value → Option Value
  | record fields => lookup name fields
  | _ => none

mutual

/-- The text shown to readers. -/
def display : Value → String
  | null => "NULL"
  | scalar s => s.display
  | enum label => label
  | domain inner => inner.display
  | record fields => "(" ++ ", ".intercalate (displayFields fields) ++ ")"
  | array items => "\x7b" ++ ", ".intercalate (displayItems items) ++ "\x7d"
  | range .empty => "empty"
  | range (.between lower upper) => displayLower lower ++ "," ++ displayUpper upper

def displayFields : List (String × Value) → List String
  | [] => []
  | (name, v) :: rest => (name ++ ": " ++ v.display) :: displayFields rest

def displayItems : List Value → List String
  | [] => []
  | v :: rest => v.display :: displayItems rest

def displayLower : Bound Value → String
  | .inclusive v => "[" ++ v.display
  | .exclusive v => "(" ++ v.display
  | .unbounded => "("

def displayUpper : Bound Value → String
  | .inclusive v => v.display ++ "]"
  | .exclusive v => v.display ++ ")"
  | .unbounded => ")"

end

mutual

/-- Whether two values are the same, floating point numbers compared as numbers. -/
def equals : Value → Value → Bool
  | null, null => true
  | scalar s, scalar t => s.equals t
  | enum a, enum b => a = b
  | domain v, domain w => v.equals w
  | record xs, record ys => equalFields xs ys
  | array xs, array ys => equalItems xs ys
  | range .empty, range .empty => true
  | range (.between a b), range (.between c d) => equalBounds a c && equalBounds b d
  | _, _ => false

def equalFields : List (String × Value) → List (String × Value) → Bool
  | [], [] => true
  | (n, v) :: xs, (m, w) :: ys => n = m && v.equals w && equalFields xs ys
  | _, _ => false

def equalItems : List Value → List Value → Bool
  | [], [] => true
  | v :: xs, w :: ys => v.equals w && equalItems xs ys
  | _, _ => false

def equalBounds : Bound Value → Bound Value → Bool
  | .inclusive v, .inclusive w => v.equals w
  | .exclusive v, .exclusive w => v.equals w
  | .unbounded, .unbounded => true
  | _, _ => false

end
end Value

namespace Wire

def text (s : String) : Wire := scalar (.text s)

def isNull : Wire → Bool
  | null => true
  | _ => false

/-- The word for this kind of value in messages. -/
def label : Wire → String
  | null => "null"
  | scalar s => s.native.label
  | array _ _ => "array"
  | record _ => "record"
  | range _ => "range"

mutual

/-- Whether two values are the same, floating point numbers compared as numbers. -/
def equals : Wire → Wire → Bool
  | null, null => true
  | scalar s, scalar t => s.equals t
  | array e xs, array f ys => e = f && equalItems xs ys
  | record xs, record ys => equalItems xs ys
  | range .empty, range .empty => true
  | range (.between a b), range (.between c d) => equalBounds a c && equalBounds b d
  | _, _ => false

def equalItems : List Wire → List Wire → Bool
  | [], [] => true
  | v :: xs, w :: ys => v.equals w && equalItems xs ys
  | _, _ => false

def equalBounds : Bound Wire → Bound Wire → Bool
  | .inclusive v, .inclusive w => v.equals w
  | .exclusive v, .exclusive w => v.equals w
  | .unbounded, .unbounded => true
  | _, _ => false

end
end Wire
end TypedSql
