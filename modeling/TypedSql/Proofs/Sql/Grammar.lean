import TypedSql.Proofs.Sql.Words
import Mathlib.Logic.Relation

/-! A reference grammar of terms: a reader by precedence that knows nothing of how terms are written. -/
namespace TypedSql.Sql

/-- How tightly terms bind, from the loosest. -/
inductive Rank where
  | disjunction
  | conjunction
  | negation
  | comparison
  | matching
  | concatenation
  | sum
  | product
  | primary
  deriving DecidableEq

namespace Rank

def level : Rank → Nat
  | disjunction => 0
  | conjunction => 1
  | negation => 2
  | comparison => 3
  | matching => 4
  | concatenation => 5
  | sum => 6
  | product => 7
  | primary => 8

/-- The rank of operands, one tighter. -/
def next : Rank → Rank
  | disjunction => conjunction
  | conjunction => negation
  | negation => comparison
  | comparison => matching
  | matching => concatenation
  | concatenation => sum
  | sum => product
  | product | primary => primary

def ofOperator : Operator → Rank
  | .or => disjunction
  | .and => conjunction
  | .eq | .ne | .lt | .le | .gt | .ge => comparison
  | .like | .ilike => matching
  | .concat => concatenation
  | .plus | .minus => sum
  | .times | .divide => product

theorem level_next {r : Rank} (h : r ≠ primary) : r.next.level = r.level + 1 := by
  cases r <;> first | rfl | exact absurd rfl h

theorem level_le_primary (r : Rank) : r.level ≤ primary.level := by
  cases r <;> decide

/-- Whether operators of a rank may follow each other, and then group to the left. -/
def leftAssociative : Rank → Bool
  | disjunction | conjunction | concatenation | sum | product => true
  | _ => false

end Rank

/-- The operators whose chains mean the same however they are grouped. -/
def chainOperators : List Operator := [.and, .or, .plus, .times, .concat]

/-- What is bound at a placeholder, and the type it is cast to. -/
structure Slot where
  value : Option Wire
  type : TypeRef
  cast : Option String

/-- What may stand behind a term in a list. -/
inductive Suffix where
  | none
  | named (name : String)
  | descending
  deriving DecidableEq

mutual

/-- What a text says, parentheses aside. -/
inductive Tree where
  | column (owner : Option String) (name : String)
  | param (slot : Slot)
  | default
  | bool (b : Bool)
  | call (function : String) (args : List Tree)
  | binary (op : Operator) (left right : Tree)
  | not (t : Tree)
  | nullTest (t : Tree) (negated : Bool)
  | member (t : Tree) (array : Slot)
  /-- A select in parentheses, or only whether it has rows. -/
  | nested (existence : Bool) (q : Query)

/-- A term in the list of a select or in its order. -/
inductive Item where
  | mk (term : Tree) (suffix : Suffix)

/-- A select with the tables it reads, each with the other name it goes by. -/
inductive Query where
  | mk (entries : List Item) (tables : List (String × Option String)) (condition : Option Tree)
    (sorting : List Item) (lock : Option Lock) (limit : Option Slot)

end

def Item.term : Item → Tree
  | .mk t _ => t

def Item.suffix : Item → Suffix
  | .mk _ s => s

namespace Tree

/-- One chain of one operator, anywhere in a tree, grouped to the left. -/
inductive Regroup : Tree → Tree → Prop
  | chain {op : Operator} (h : op ∈ chainOperators) (a b c : Tree) :
    Regroup (binary op a (binary op b c)) (binary op (binary op a b) c)
  | left {op : Operator} {a a' : Tree} (b : Tree) : Regroup a a' → Regroup (binary op a b) (binary op a' b)
  | right {op : Operator} (a : Tree) {b b' : Tree} : Regroup b b' → Regroup (binary op a b) (binary op a b')
  | not {a a' : Tree} : Regroup a a' → Regroup (not a) (not a')
  | nullTest {a a' : Tree} (negated : Bool) :
    Regroup a a' → Regroup (nullTest a negated) (nullTest a' negated)
  | member {a a' : Tree} (array : Slot) : Regroup a a' → Regroup (member a array) (member a' array)
  | arg {function : String} (before : List Tree) {a a' : Tree} (behind : List Tree) : Regroup a a' →
    Regroup (call function (before ++ a :: behind)) (call function (before ++ a' :: behind))
  | entry {existence : Bool} (before : List Item) {a a' : Tree} (suffix : Suffix) (behind : List Item)
    {tables : List (String × Option String)} {condition : Option Tree} {sorting : List Item}
    {lock : Option Lock} {limit : Option Slot} : Regroup a a' →
    Regroup (nested existence ⟨before ++ ⟨a, suffix⟩ :: behind, tables, condition, sorting, lock, limit⟩)
      (nested existence ⟨before ++ ⟨a', suffix⟩ :: behind, tables, condition, sorting, lock, limit⟩)
  | condition {existence : Bool} {a a' : Tree} {entries : List Item}
    {tables : List (String × Option String)} {sorting : List Item} {lock : Option Lock}
    {limit : Option Slot} : Regroup a a' →
    Regroup (nested existence ⟨entries, tables, some a, sorting, lock, limit⟩)
      (nested existence ⟨entries, tables, some a', sorting, lock, limit⟩)
  | sorted {existence : Bool} (before : List Item) {a a' : Tree} (suffix : Suffix) (behind : List Item)
    {entries : List Item} {tables : List (String × Option String)} {condition : Option Tree}
    {lock : Option Lock} {limit : Option Slot} : Regroup a a' →
    Regroup (nested existence ⟨entries, tables, condition, before ++ ⟨a, suffix⟩ :: behind, lock, limit⟩)
      (nested existence ⟨entries, tables, condition, before ++ ⟨a', suffix⟩ :: behind, lock, limit⟩)

/-- The same tree but for how chains are grouped. -/
def Regroups : Tree → Tree → Prop := Relation.ReflTransGen Regroup

end Tree

/-- Where a list stands. -/
inductive Place where
  | argument
  | entry
  | sorting

def readSuffix : Place → List Word → Suffix × List Word
  | .entry, .label :: .name n :: ws => (.named n, ws)
  | .sorting, .descending :: ws => (.descending, ws)
  | _, ws => (.none, ws)

def readSlot : List Word → Option (Slot × List Word)
  | .mark p :: ws => some (⟨p.value, p.type, none⟩, ws)
  | .cast :: .opening :: .mark p :: .label :: .type s :: .closing :: ws =>
    some (⟨p.value, p.type, some s⟩, ws)
  | _ => none

def readTable : List Word → Option ((String × Option String) × List Word)
  | .name t :: .label :: .name other :: ws => some ((t, some other), ws)
  | .name t :: ws => some ((t, none), ws)
  | _ => none

/-- Tables with commas between them. -/
def readTables : List Word → Option (List (String × Option String) × List Word)
  | .name t :: .label :: .name other :: .comma :: ws => do
    let (ts, rest) ← readTables ws
    return ((t, some other) :: ts, rest)
  | .name t :: .comma :: ws => do
    let (ts, rest) ← readTables ws
    return ((t, none) :: ts, rest)
  | ws => do
    let (t, rest) ← readTable ws
    return ([t], rest)

def readLock : List Word → Option Lock × List Word
  | .lock :: .update :: .skip :: .locked :: ws => (some .skipLocked, ws)
  | .lock :: .update :: ws => (some .forUpdate, ws)
  | ws => (none, ws)

def readLimit : List Word → Option (Option Slot × List Word)
  | .bound :: ws => do
    let (slot, rest) ← readSlot ws
    return (some slot, rest)
  | ws => some (none, ws)

def readSource : List Word → Option (List (String × Option String) × List Word)
  | .source :: ws => readTables ws
  | _ => none

/-- The parenthesis that ends something. -/
def readClosing {α : Type} (a : α) : List Word → Option (α × List Word)
  | .closing :: ws => some (a, ws)
  | _ => none

mutual

/-- A term of at least a rank, as far as it reaches. Reading goes on behind something read only where it
has used up words. -/
def readAt (r : Rank) (ws : List Word) : Option (Tree × List Word) :=
  match r, ws with
  | .negation, .negation :: ws => do
    let (t, rest) ← readAt .negation ws
    return (.not t, rest)
  | r, ws =>
    if r = .primary then readPrimary ws
    else do
      let (t, rest) ← readAt r.next ws
      if rest.length < ws.length then readTail r t rest else none
termination_by 13 * ws.length + (9 - r.level)
decreasing_by
  · simp only [List.length_cons]
    omega
  · rename_i hr
    simp only [hr, Rank.level]
    omega
  · rename_i hr
    have hnext := Rank.level_next hr
    have hle : r.next.level ≤ 8 := r.next.level_le_primary
    omega
  · omega

/-- What follows the first operand at a rank. -/
def readTail (r : Rank) (left : Tree) (ws : List Word) : Option (Tree × List Word) :=
  match ws with
  | .operator op :: ws =>
    if Rank.ofOperator op ≠ r then some (left, .operator op :: ws)
    else match op, ws with
      | .eq, .any :: .opening :: ws => do
        let (array, rest) ← readSlot ws
        readClosing (.member left array) rest
      | op, ws => do
        let (right, rest) ← readAt r.next ws
        if ¬ r.leftAssociative then return (.binary op left right, rest)
        else if rest.length < ws.length then readTail r (.binary op left right) rest
        else none
  | .is :: ws =>
    if r ≠ .comparison then some (left, .is :: ws)
    else match ws with
      | .null :: ws => some (.nullTest left false, ws)
      | .negation :: .null :: ws => some (.nullTest left true, ws)
      | _ => none
  | ws => some (left, ws)
termination_by 13 * ws.length

/-- A term that is closed in itself. -/
def readPrimary (ws : List Word) : Option (Tree × List Word) :=
  match ws with
  | .name owner :: .dot :: .name n :: ws => some (.column (some owner) n, ws)
  | .name n :: ws => some (.column none n, ws)
  | .default :: ws => some (.default, ws)
  | .bool b :: ws => some (.bool b, ws)
  | .function f :: .opening :: .closing :: ws => some (.call f [], ws)
  | .function f :: .opening :: ws => do
    let (args, rest) ← readItems .argument ws
    readClosing (.call f (args.map Item.term)) rest
  | .existence :: .opening :: .selection :: ws => do
    let (q, rest) ← readQuery ws
    readClosing (.nested true q) rest
  | .opening :: .selection :: ws => do
    let (q, rest) ← readQuery ws
    readClosing (.nested false q) rest
  | .opening :: ws => do
    let (t, rest) ← readAt .disjunction ws
    readClosing t rest
  | ws => do
    let (slot, rest) ← readSlot ws
    return (.param slot, rest)
termination_by 13 * ws.length

def readItem (p : Place) (ws : List Word) : Option (Item × List Word) := do
  let (t, rest) ← readAt .disjunction ws
  let (suffix, rest) := readSuffix p rest
  return (⟨t, suffix⟩, rest)
termination_by 13 * ws.length + 10

/-- Terms with commas between them. -/
def readItems (p : Place) (ws : List Word) : Option (List Item × List Word) := do
  let (i, rest) ← readItem p ws
  match rest with
  | .comma :: rest =>
    if rest.length < ws.length then do
      let (items, rest) ← readItems p rest
      return (i :: items, rest)
    else none
  | rest => return ([i], rest)
termination_by 13 * ws.length + 11

def readCondition (ws : List Word) : Option (Option Tree × List Word) :=
  match ws with
  | .condition :: ws => do
    let (t, rest) ← readAt .disjunction ws
    return (some t, rest)
  | ws => some (none, ws)
termination_by 13 * ws.length

def readSorting (ws : List Word) : Option (List Item × List Word) :=
  match ws with
  | .sorting :: .key :: ws => readItems .sorting ws
  | ws => some ([], ws)
termination_by 13 * ws.length

/-- A select behind its first word. -/
def readQuery (ws : List Word) : Option (Query × List Word) := do
  let (entries, rest) ← readItems .entry ws
  let (tables, rest) ← readSource rest
  if rest.length ≤ ws.length then do
    let (condition, behind) ← readCondition rest
    if behind.length ≤ rest.length then do
      let (sorting, rest) ← readSorting behind
      let (lock, rest) := readLock rest
      let (limit, rest) ← readLimit rest
      return (⟨entries, tables, condition, sorting, lock, limit⟩, rest)
    else none
  else none
termination_by 13 * ws.length + 12

end

/-- The tree of a text that is a term from end to end. -/
def readTerm (ws : List Word) : Option Tree :=
  match readAt .disjunction ws with
  | some (t, []) => some t
  | _ => none

/-- The query of a text that is a select from end to end. -/
def readSelect : List Word → Option Query
  | .selection :: ws =>
    match readQuery ws with
    | some (q, []) => some q
    | _ => none
  | _ => none

end TypedSql.Sql
