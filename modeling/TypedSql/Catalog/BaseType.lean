import TypedSql.Value.Native

/-! The built-in base types: catalog names, identifiers, native forms, and which need a cast. -/
namespace TypedSql

/-- An object identifier of the catalog. -/
abbrev Oid := UInt32

/-- The schema that holds the built-in types. -/
def systemSchema : String := "pg_catalog"

inductive BaseType where
  | bool
  | int2
  | int4
  | int8
  | float4
  | float8
  | numeric
  | text
  | varchar
  | bpchar
  | name
  | bytea
  | uuid
  | date
  | time
  | timestamp
  | timestamptz
  | interval
  | json
  | jsonb
  | xml
  | inet
  | cidr
  | macaddr
  deriving DecidableEq, Repr

namespace BaseType

def all : List BaseType :=
  [bool, int2, int4, int8, float4, float8, numeric, text, varchar, bpchar, name, bytea, uuid, date,
    time, timestamp, timestamptz, interval, json, jsonb, xml, inet, cidr, macaddr]

/-- The name in the catalog. -/
def typeName : BaseType → String
  | bool => "bool"
  | int2 => "int2"
  | int4 => "int4"
  | int8 => "int8"
  | float4 => "float4"
  | float8 => "float8"
  | numeric => "numeric"
  | text => "text"
  | varchar => "varchar"
  | bpchar => "bpchar"
  | name => "name"
  | bytea => "bytea"
  | uuid => "uuid"
  | date => "date"
  | time => "time"
  | timestamp => "timestamp"
  | timestamptz => "timestamptz"
  | interval => "interval"
  | json => "json"
  | jsonb => "jsonb"
  | xml => "xml"
  | inet => "inet"
  | cidr => "cidr"
  | macaddr => "macaddr"

def ofTypeName? (s : String) : Option BaseType := all.find? fun b => b.typeName = s

/-- The identifiers of the type and of its array type. -/
def oids : BaseType → Oid × Oid
  | bool => (16, 1000)
  | bytea => (17, 1001)
  | name => (19, 1003)
  | int8 => (20, 1016)
  | int2 => (21, 1005)
  | int4 => (23, 1007)
  | text => (25, 1009)
  | json => (114, 199)
  | xml => (142, 143)
  | cidr => (650, 651)
  | float4 => (700, 1021)
  | float8 => (701, 1022)
  | macaddr => (829, 1040)
  | inet => (869, 1041)
  | bpchar => (1042, 1014)
  | varchar => (1043, 1015)
  | date => (1082, 1182)
  | time => (1083, 1183)
  | timestamp => (1114, 1115)
  | timestamptz => (1184, 1185)
  | interval => (1186, 1187)
  | numeric => (1700, 1231)
  | uuid => (2950, 2951)
  | jsonb => (3802, 3807)

/-- The form in which values of the type are held; types without one of their own are text. -/
def native : BaseType → Native
  | bool => .bool
  | int2 => .int16
  | int4 => .int32
  | int8 => .int64
  | float4 => .float32
  | float8 => .float64
  | bytea => .bytes
  | uuid => .uuid
  | date => .date
  | time => .time
  | timestamp => .timestamp
  | timestamptz => .timestampTz
  | json | jsonb => .json
  | numeric | text | varchar | bpchar | name | interval | xml | inet | cidr | macaddr => .text

/-- Whether the server cannot infer the type of a parameter from the value it is sent. -/
def needsCast : BaseType → Bool
  | numeric | interval | json | jsonb | xml | inet | cidr | macaddr => true
  | _ => false

theorem ofTypeName?_typeName (b : BaseType) : ofTypeName? b.typeName = some b := by
  cases b <;> decide

end BaseType
end TypedSql
