import TypedSql.Catalog.Descriptor

/-! Names written in SQL: bare where the server reads them back unchanged, quoted otherwise. -/
namespace TypedSql.Sql

/-- Words the server refuses as bare names of tables or columns. -/
def reservedWords : List String :=
  ["all", "analyse", "analyze", "and", "any", "array", "as", "asc", "asymmetric", "both", "case",
    "cast", "check", "collate", "column", "constraint", "create", "current_catalog",
    "current_date", "current_role", "current_time", "current_timestamp", "current_user",
    "default", "deferrable", "desc", "distinct", "do", "else", "end", "except", "false", "fetch",
    "for", "foreign", "from", "grant", "group", "having", "in", "initially", "intersect", "into",
    "lateral", "leading", "limit", "localtime", "localtimestamp", "not", "null", "offset", "on",
    "only", "or", "order", "placing", "primary", "references", "returning", "select",
    "session_user", "some", "symmetric", "table", "then", "to", "trailing", "true", "union",
    "unique", "user", "using", "variadic", "when", "where", "window", "with"]

def isPlainStart (c : Char) : Bool := c.isLower || c = '_'
def isPlainChar (c : Char) : Bool := c.isLower || c.isDigit || c = '_'

/-- Whether a name can stand bare, reserved words aside. -/
def isPlain : List Char → Bool
  | [] => false
  | c :: rest => isPlainStart c && rest.all isPlainChar

/-- The name between double quotes, those in it doubled. -/
def quoteName (name : List Char) : List Char :=
  '"' :: name.flatMap (fun c => if c = '"' then ['"', '"'] else [c]) ++ ['"']

/-- A name as it stands in a statement: bare if that reads back as the same name. -/
def identifier (name : String) : String :=
  if isPlain name.toList && !reservedWords.contains name then name
  else String.ofList (quoteName name.toList)

/-- The type name in a cast. -/
def castType : TypeDescriptor → String
  | ⟨_, _, _, _, .array ⟨element, _⟩, _⟩ => castType element ++ "[]"
  | ⟨_, name, _, _, _, _⟩ => identifier name

end TypedSql.Sql
