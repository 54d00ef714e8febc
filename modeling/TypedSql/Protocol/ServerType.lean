import TypedSql.Catalog.BaseType

/-! Types as the server reports them for parameters and columns. -/
namespace TypedSql.Protocol

/-- The binary forms of built-in simple types; what has none of its own is text. -/
inductive Form where
  | bool
  | int2
  | int4
  | int8
  | oid
  | float4
  | float8
  | bytea
  | uuid
  | date
  | time
  | timestamp
  | timestamptz
  | json
  | jsonb
  | numeric
  | inet
  | cidr
  | macaddr
  | interval
  | text
  deriving DecidableEq, Repr

mutual

/-- A type reported by the server. -/
structure ServerType where
  name : String
  oid : Oid
  kind : ServerKind

/-- What a reported type is made of. Only built-in types have a binary form other than text. -/
inductive ServerKind where
  | simple (form : Form)
  | pseudo
  | enum (labels : List String)
  | array (element : ServerType)
  | range (subtype : ServerType)
  | domain (base : ServerType)
  | composite (fields : List (String × ServerType))

end

namespace ServerType

/-- The binary form of a built-in simple type. -/
def form (t : ServerType) : Form :=
  match t.kind with
  | .simple form => form
  | _ => .text

/-- A type that is not built in and has no parts. -/
def custom (name : String) (oid : Oid) : ServerType := ⟨name, oid, .simple .text⟩

def simples : List (String × Oid × Form) :=
  [("bool", 16, .bool), ("bytea", 17, .bytea), ("char", 18, .text), ("name", 19, .text),
    ("int8", 20, .int8), ("int2", 21, .int2), ("int4", 23, .int4), ("text", 25, .text),
    ("oid", 26, .oid), ("json", 114, .json), ("xml", 142, .text), ("cidr", 650, .cidr),
    ("float4", 700, .float4), ("float8", 701, .float8), ("unknown", 705, .text),
    ("macaddr", 829, .macaddr), ("inet", 869, .inet), ("bpchar", 1042, .text),
    ("varchar", 1043, .text), ("date", 1082, .date), ("time", 1083, .time),
    ("timestamp", 1114, .timestamp), ("timestamptz", 1184, .timestamptz),
    ("interval", 1186, .interval), ("numeric", 1700, .numeric), ("uuid", 2950, .uuid),
    ("jsonb", 3802, .jsonb)]

def pseudos : List (String × Oid) := [("record", 2249), ("void", 2278)]

/-- The built-in ranges with their subtypes. -/
def ranges : List (String × Oid × String) :=
  [("int4range", 3904, "int4"), ("numrange", 3906, "numeric"), ("tsrange", 3908, "timestamp"),
    ("daterange", 3912, "date"), ("int8range", 3926, "int8")]

/-- The built-in arrays with their elements. -/
def arrays : List (String × Oid × String) :=
  [("_bool", 1000, "bool"), ("_bytea", 1001, "bytea"), ("_int2", 1005, "int2"),
    ("_int4", 1007, "int4"), ("_text", 1009, "text"), ("_int8", 1016, "int8"),
    ("_float8", 1022, "float8"), ("_numeric", 1231, "numeric"), ("_inet", 1041, "inet"),
    ("_date", 1182, "date"), ("_uuid", 2951, "uuid"), ("_jsonb", 3807, "jsonb"),
    ("_int4range", 3905, "int4range")]

def simple? (name : String) : Option ServerType :=
  (simples.lookup name).map fun (oid, form) => ⟨name, oid, .simple form⟩

def range? (name : String) : Option ServerType := do
  let (oid, subtype) ← ranges.lookup name
  return ⟨name, oid, .range (← simple? subtype)⟩

def array? (name : String) : Option ServerType := do
  let (oid, element) ← arrays.lookup name
  return ⟨name, oid, .array (← simple? element <|> range? element)⟩

/-- The built-in type with a name. -/
def builtin? (name : String) : Option ServerType :=
  simple? name <|> (pseudos.lookup name).map (⟨name, ·, .pseudo⟩) <|> range? name <|> array? name

end ServerType
end TypedSql.Protocol
