/-! The native forms that scalar values take. -/
namespace TypedSql

/-- The form in which the values of a base type are held. -/
inductive Native where
  | bool
  | int16
  | int32
  | int64
  | float32
  | float64
  | text
  | bytes
  | uuid
  | date
  | time
  | timestamp
  | timestampTz
  | json
  deriving DecidableEq, Repr

namespace Native

def all : List Native :=
  [bool, int16, int32, int64, float32, float64, text, bytes, uuid, date, time, timestamp,
    timestampTz, json]

def label : Native → String
  | bool => "bool"
  | int16 => "int16"
  | int32 => "int32"
  | int64 => "int64"
  | float32 => "float32"
  | float64 => "float64"
  | text => "text"
  | bytes => "bytes"
  | uuid => "uuid"
  | date => "date"
  | time => "time"
  | timestamp => "timestamp"
  | timestampTz => "timestamptz"
  | json => "json"

def ofLabel? (s : String) : Option Native := all.find? fun n => n.label = s

end Native
end TypedSql
