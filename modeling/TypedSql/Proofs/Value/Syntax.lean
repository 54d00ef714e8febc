import TypedSql.Value.Literal

/-! The server's syntax for values in text: arrays in braces, records in parentheses, ranges in brackets,
what they hold between commas. Text is read for the shape that is expected at its place. -/
namespace TypedSql.Literal

/-- What is expected at a place: a leaf, or a container and what is expected in it. How many elements
an array has is not known beforehand. -/
inductive Shape where
  | scalar
  | array (element : Nat → Shape)
  | record (fields : List Shape)
  | range (lower upper : Shape)

/-- A value as text tells it, with texts for leaves. -/
inductive Outline where
  | null
  | text (t : List Char)
  | array (items : List Outline)
  | record (fields : List Outline)
  | range (r : Range Outline)

/-- Puts a text in front of the first part. -/
def onto (p : List Char) : List (List Char) → List (List Char)
  | [] => []
  | q :: qs => (p ++ q) :: qs

/-- The parts of a text between its commas. Commas behind a backslash or within double quotes do not
count, nor do those within braces where braces nest; `depth` braces and perhaps a quote are open. -/
def split (nests : Bool) : Nat → Bool → List Char → Option (List (List Char))
  | depth, quoted, [] => if depth = 0 && !quoted then some [[]] else none
  | depth, quoted, '\\' :: c :: rest => onto ['\\', c] <$> split nests depth quoted rest
  | depth, quoted, c :: rest =>
    if c = '"' then onto [c] <$> split nests depth (!quoted) rest
    else if quoted then onto [c] <$> split nests depth true rest
    else if nests && c = '\x7b' then onto [c] <$> split nests (depth + 1) false rest
    else if nests && c = '\x7d' then
      if depth = 0 then none else onto [c] <$> split nests (depth - 1) false rest
    else if depth = 0 && c = ',' then ([] :: ·) <$> split nests 0 false rest
    else onto [c] <$> split nests depth false rest

/-- The text of a part: quotes are taken off, and backslashes and doubled quotes undone. -/
def unquote : Bool → List Char → Option (List Char)
  | quoted, [] => if quoted then none else some []
  | quoted, '\\' :: rest =>
    match rest with
    | [] => none
    | c :: rest => (c :: ·) <$> unquote quoted rest
  | true, '"' :: '"' :: rest => ('"' :: ·) <$> unquote true rest
  | quoted, c :: rest =>
    if c = '"' then unquote (!quoted) rest else (c :: ·) <$> unquote quoted rest

/-- The first character of a text, its last one, and what stands between them. -/
def enclosed : List Char → Option (Char × List Char × Char)
  | [] => none
  | c :: rest => rest.getLast?.map fun d => (c, rest.dropLast, d)

/-- Whether a text is a word, in letters of either case. -/
def isWord (word : String) (t : List Char) : Bool := t.map Char.toLower = word.toList

/-- The parts of an array, each as it is written. -/
def arrayParts (t : List Char) : Option (List (List Char)) :=
  match enclosed t with
  | some ('\x7b', body, '\x7d') => if body.isEmpty then some [] else split true 0 false body
  | _ => none

/-- An element of an array: nested arrays stand as they are, other elements are quoted or words. -/
def readElement (nested : Bool) (read : List Char → Option Outline) (part : List Char) : Option Outline :=
  if isWord "null" part then some .null
  else if part.isEmpty || nested != (part.head? = some '\x7b') then none
  else if nested then read part
  else unquote false part >>= read

def readElements (read : Nat → List Char → Option Outline) (i : Nat) :
    List (List Char) → Option (List Outline)
  | [] => some []
  | part :: parts => do return (← read i part) :: (← readElements read (i + 1) parts)

/-- The parts of a record. Between the parentheses of a record without fields there is nothing, of one
with a single field its only part. -/
def recordParts (arity : Nat) (t : List Char) : Option (List (List Char)) :=
  match enclosed t with
  | some ('(', body, ')') => if arity = 0 && body.isEmpty then some [] else split false 0 false body
  | _ => none

/-- A field of a record; nothing stands for null. -/
def readField (read : List Char → Option Outline) (part : List Char) : Option Outline :=
  if part.isEmpty then some .null else unquote false part >>= read

/-- A bound of a range; nothing stands for no bound. -/
def readBound (included : Bool) (read : List Char → Option Outline) (part : List Char) :
    Option (Bound Outline) :=
  if part.isEmpty then some .unbounded
  else (if included then .inclusive else .exclusive) <$> (unquote false part >>= read)

def readRange (lower upper : List Char → Option Outline) (t : List Char) : Option (Range Outline) :=
  if isWord "empty" t then some .empty
  else match enclosed t with
    | some (opening, body, closing) =>
      if (opening = '[' || opening = '(') && (closing = ']' || closing = ')') then
        match split false 0 false body with
        | some [first, second] => do
          return .between (← readBound (opening = '[') lower first)
            (← readBound (closing = ']') upper second)
        | _ => none
      else none
    | none => none

namespace Shape

def isArray : Shape → Bool
  | array _ => true
  | _ => false

mutual

/-- Reads a text for the shape of a value that is not null. -/
def read : Shape → List Char → Option Outline
  | scalar, t => some (.text t)
  | array element, t => do
    let parts ← arrayParts t
    .array <$> readElements (fun i => readElement (element i).isArray (element i).read) 0 parts
  | record fields, t => do
    let parts ← recordParts fields.length t
    .record <$> readFields fields parts
  | range lower upper, t => .range <$> readRange lower.read upper.read t

def readFields : List Shape → List (List Char) → Option (List Outline)
  | [], [] => some []
  | shape :: shapes, part :: parts => do
    return (← readField shape.read part) :: (← readFields shapes parts)
  | _, _ => none

end
end Shape

end TypedSql.Literal
