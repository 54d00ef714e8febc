import TypedSql.Toml.Scan
import TypedSql.Toml.Scalar
import TypedSql.Toml.Document

/-! Settings read from configuration text. -/
namespace TypedSql.Toml

/-- How many parts a key has at most, and how deep lists and tables on one line nest. -/
def maxDepth : Nat := 79

mutual

/-- Reads the value a text starts with. Every call uses up a unit of fuel, at most two for each
character. -/
private def readValue : Nat → Nat → List Char → Option (Setting × List Char)
  | 0, _, _ => none
  | fuel + 1, depth, text =>
    match depth, text with
    | 0, '[' :: _ => none
    | 0, '\x7b' :: _ => none
    | depth + 1, '[' :: rest =>
      (readItems fuel depth rest).map fun (items, rest) => (.list items, rest)
    | depth + 1, '\x7b' :: rest =>
      match skipBlanks rest with
      | '\x7d' :: rest => some (.table [], rest)
      | rest => do
        let (values, rest) ← readInline fuel depth rest
        return (← inlineTable? values, rest)
    | _, text =>
      if text.head? = some '"' || text.head? = some '\'' then
        (readString text).map fun (chars, rest) => (.text (String.ofList chars), rest)
      else readScalar text

/-- Reads items up to the closing bracket; a comma may stand after the last. -/
private def readItems : Nat → Nat → List Char → Option (List Setting × List Char)
  | 0, _, _ => none
  | fuel + 1, depth, text => do
    match ← skipFiller false text with
    | ']' :: rest => return ([], rest)
    | text =>
      let (item, rest) ← readValue fuel depth text
      match ← skipFiller false rest with
      | ']' :: rest => return ([item], rest)
      | ',' :: rest =>
        let (items, rest) ← readItems fuel depth rest
        return (item :: items, rest)
      | _ => none

/-- Reads keys with their values up to the closing brace; at least one. -/
private def readInline : Nat → Nat → List Char → Option (List (List String × Setting) × List Char)
  | 0, _, _ => none
  | fuel + 1, depth, text => do
    let (path, rest) ← readKey maxDepth text
    match rest with
    | '=' :: rest =>
      let (value, rest) ← readValue fuel depth (skipBlanks rest)
      match skipBlanks rest with
      | '\x7d' :: rest => return ([(path, value)], rest)
      | ',' :: rest =>
        let (values, rest) ← readInline fuel depth rest
        return ((path, value) :: values, rest)
      | _ => none
    | _ => none

end

/-- A line that is not blank. -/
inductive Line where
  | header (header : Header)
  | entry (path : List String) (value : Setting)

/-- Reads one line; blank lines give nothing. -/
private def readLine (text : List Char) : Option (Option Line × List Char) :=
  match skipBlanks text with
  | '[' :: '[' :: rest => do
    let (path, rest) ← readKey maxDepth rest
    match rest with
    | ']' :: ']' :: rest => return (some (.header (.listItem path)), ← endLine? rest)
    | _ => none
  | '[' :: rest => do
    let (path, rest) ← readKey maxDepth rest
    match rest with
    | ']' :: rest => return (some (.header (.table path)), ← endLine? rest)
    | _ => none
  | text =>
    match endLine? text with
    | some rest => some (none, rest)
    | none => do
      let (path, rest) ← readKey maxDepth text
      match rest with
      | '=' :: rest =>
        let (value, rest) ← readValue (2 * rest.length + 2) maxDepth (skipBlanks rest)
        return (some (.entry path value), ← endLine? rest)
      | _ => none

/-- The lines of a text; each reading of a line uses up at least one character of fuel. -/
private def readLines : Nat → List Char → Option (List Line)
  | _, [] => some []
  | 0, _ => none
  | fuel + 1, text => do
    let (line, rest) ← readLine text
    let lines ← readLines fuel rest
    return line.toList ++ lines

/-- The values under each header, the lines before the first header first. -/
private def sections : Header → List Line → List (Header × List (List String × Setting))
  | header, lines =>
    let rec split :
        List Line → List (List String × Setting) × List (Header × List (List String × Setting))
      | [] => ([], [])
      | .header header :: rest => let (values, later) := split rest; ([], (header, values) :: later)
      | .entry path value :: rest => let (values, later) := split rest; ((path, value) :: values, later)
    let (values, later) := split lines
    (header, values) :: later

/-- The settings a text holds, a byte order mark before it aside. -/
def parse? (s : String) : Option Setting := do
  let text := match s.toList with
    | '\ufeff' :: rest => rest
    | text => text
  let lines ← readLines text.length text
  let root ← (sections .none lines).foldlM
    (fun (root : Entries) (header, values) => root.addSection header values) []
  return .table (settings root)

end TypedSql.Toml
