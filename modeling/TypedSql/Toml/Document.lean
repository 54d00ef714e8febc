import TypedSql.Setting.Basic

/-! Tables of a configuration text as they are built up from its lines. -/
namespace TypedSql.Toml

/-- How a table came to be: by its own header, by a longer header, or by a key with points. -/
inductive Origin where
  | header
  | implied
  | dotted
  deriving DecidableEq, Repr

/-- A value, a table or a list of tables with the newest first. -/
inductive Node where
  | leaf (value : Setting)
  | table (origin : Origin) (entries : List (String × Node))
  | tables (newestFirst : List (List (String × Node)))

abbrev Entries := List (String × Node)

namespace Entries

def find? (entries : Entries) (key : String) : Option Node :=
  (List.find? (fun (k, _) => k = key) entries).map Prod.snd

/-- Sets an entry, in place of an earlier one with its key. -/
def set (entries : Entries) (key : String) (node : Node) : Entries :=
  if entries.any (fun (k, _) => k = key) then
    entries.map fun (k, n) => if k = key then (k, node) else (k, n)
  else entries ++ [(key, node)]

/-- Changes the table at a path. Missing tables are created with the given origin. A value is no table; a
list of tables stands for its newest; and a key with points leads into no table with its own header. -/
def modifyAt (created : Origin) (change : Origin → Entries → Option Entries) :
    List String → Origin → Entries → Option Entries
  | [], origin, entries => change origin entries
  | key :: path, _, entries =>
    match entries.find? key with
    | none => do
      return entries.set key (.table created (← modifyAt created change path created []))
    | some (.leaf _) | some (.tables []) => none
    | some (.table origin inner) =>
      if created = .dotted && origin = .header then none
      else do return entries.set key (.table origin (← modifyAt created change path origin inner))
    | some (.tables (newest :: earlier)) => do
      return entries.set key (.tables ((← modifyAt created change path .header newest) :: earlier))

/-- Adds a value under the last part of a key. The table before it must have come from keys with points,
and the part must be new. -/
def insert (entries : Entries) (path : List String) (value : Setting) : Option Entries := do
  let key ← path.getLast?
  modifyAt .dotted (fun origin table =>
    if (origin = .dotted) = (path.dropLast = []) || (table.find? key).isSome then none
    else some (table.set key (.leaf value))) path.dropLast .header entries

/-- Adds several values in turn. -/
def insertAll (entries : Entries) (values : List (List String × Setting)) : Option Entries :=
  values.foldlM (fun entries (path, value) => entries.insert path value) entries

end Entries

mutual

/-- The settings in a node. -/
def Node.setting : Node → Setting
  | .leaf value => value
  | .table _ entries => .table (settings entries)
  | .tables newestFirst => .list (listSettings newestFirst).reverse

def settings : List (String × Node) → List (String × Setting)
  | [] => []
  | (key, node) :: rest => (key, node.setting) :: settings rest

def listSettings : List (List (String × Node)) → List Setting
  | [] => []
  | entries :: rest => .table (settings entries) :: listSettings rest

end

/-- The settings of a table written on one line. -/
def inlineTable? (values : List (List String × Setting)) : Option Setting :=
  (Entries.insertAll [] values).map fun entries => .table (settings entries)

/-- The header over a group of lines. -/
inductive Header where
  | none
  | table (path : List String)
  | listItem (path : List String)

/-- Adds the lines under a header. A header opens a table that is new or was only implied, or adds a table
to a list. -/
def Entries.addSection (root : Entries) (header : Header) (values : List (List String × Setting)) :
    Option Entries :=
  match header with
  | .none => root.insertAll values
  | .table path => do
    let key ← path.getLast?
    modifyAt .implied (fun _ parent => do
      let opened ← match parent.find? key with
        | .none => some []
        | some (.table .implied entries) => some entries
        | some _ => .none
      return parent.set key (.table .header (← insertAll opened values))) path.dropLast .header root
  | .listItem path => do
    let key ← path.getLast?
    modifyAt .implied (fun _ parent => do
      let earlier ← match parent.find? key with
        | .none => some []
        | some (.tables newestFirst) => some newestFirst
        | some _ => .none
      let added ← insertAll [] values
      return parent.set key (.tables (added :: earlier))) path.dropLast .header root

end TypedSql.Toml
