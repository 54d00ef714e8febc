import TypedSql.Json.Basic

/-! Settings as trees, whatever format their text has. -/
namespace TypedSql

/-- A tree of settings. -/
inductive Setting where
  | null
  | flag (b : Bool)
  | integer (n : Int)
  | text (s : String)
  /-- Any other scalar: a fraction or a point in time. -/
  | other
  | list (items : List Setting)
  | table (fields : List (String × Setting))
  deriving Repr

namespace Setting

/-- How a format writes what the tree does not show. -/
structure Format where
  /-- Whether a list that stands for a record may have more items than the record has fields. -/
  dropsSurplus : Bool
  /-- What may follow the name of a choice that takes nothing. -/
  isNothing : Setting → Bool

/-- In documents a record has no surplus items, and null stands for nothing. -/
def Format.json : Format where
  dropsSurplus := false
  isNothing
    | .null => true
    | _ => false

/-- In configuration files surplus items are dropped, and an empty list or table stands for nothing. -/
def Format.toml : Format where
  dropsSurplus := true
  isNothing
    | .list [] => true
    | .table [] => true
    | _ => false

mutual

/-- The settings that a document holds. -/
def ofJson : Json → Setting
  | .null => .null
  | .bool b => .flag b
  | .number (.integer n) => .integer n
  | .number (.decimal _) => .other
  | .string s => .text s
  | .array items => .list (ofItems items)
  | .object fields => .table (ofFields fields)

def ofItems : List Json → List Setting
  | [] => []
  | item :: rest => ofJson item :: ofItems rest

def ofFields : List (String × Json) → List (String × Setting)
  | [] => []
  | (key, value) :: rest => (key, ofJson value) :: ofFields rest

end

def text? : Setting → Option String
  | .text s => some s
  | _ => none

def flag? : Setting → Option Bool
  | .flag b => some b
  | _ => none

def list? : Setting → Option (List Setting)
  | .list items => some items
  | _ => none

/-- The fields of a record with these names. Each is there or not; a list gives them by position. -/
def record? (format : Format) (names : List String) : Setting → Option (String → Option Setting)
  | .table fields => some fun name => (fields.find? fun (key, _) => key = name).map Prod.snd
  | .list items =>
    if format.dropsSurplus || items.length ≤ names.length then
      some fun name => (names.idxOf? name).bind fun i => items[i]?
    else none
  | _ => none

/-- The name of a choice, alone or as the only field of a table with nothing in it. -/
def choice? (format : Format) : Setting → Option String
  | .text s => some s
  | .table [(name, payload)] => if format.isNothing payload then some name else none
  | _ => none

end Setting
end TypedSql
