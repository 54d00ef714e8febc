import TypedSql.Connection.Config
import TypedSql.Proofs.Text.Decimal

/-! The text that a connection is opened with, read as clients of the server read it: keywords and values with
equals signs between them, blanks in between, and values in quotes where they need them. Each of the seven
values is read back as it was configured, whatever is in it. -/
namespace TypedSql.Connection

/-- A keyword and its value. -/
structure KeyValue where
  keyword : String
  value : String
  deriving DecidableEq, Repr

namespace KeyValue

def isBlank (c : Char) : Bool := c ∈ [' ', '\t', '\n', '\x0b', '\x0c', '\r']

/-- The value behind an opening quote, and the text behind the closing one. A character with a backslash in
front is taken as it is. -/
def readQuoted : List Char → Option (List Char × List Char)
  | [] => none
  | '\\' :: c :: text => (readQuoted text).map fun (value, rest) => (c :: value, rest)
  | '\'' :: rest => some ([], rest)
  | c :: text => (readQuoted text).map fun (value, rest) => (c :: value, rest)

/-- A value without quotes, which reaches up to a blank. -/
def readBare : List Char → List Char × List Char
  | [] | ['\\'] => ([], [])
  | '\\' :: c :: text => (c :: (readBare text).1, (readBare text).2)
  | c :: text => if isBlank c then ([], text) else (c :: (readBare text).1, (readBare text).2)

def readValue : List Char → Option (List Char × List Char)
  | '\'' :: text => readQuoted text
  | text => some (readBare text)

/-- Keywords reach up to an equals sign or a blank. -/
def inKeyword (c : Char) : Bool := c ≠ '=' && !isBlank c

/-- The first keyword of a text with its value, and the text behind them. On both sides of the equals sign,
which must not be missing, there may be blanks. -/
def read? (text : List Char) : Option (KeyValue × List Char) :=
  match (text.dropWhile inKeyword).dropWhile isBlank with
  | '=' :: behind => (readValue (behind.dropWhile isBlank)).map fun (value, rest) =>
    (⟨String.ofList (text.takeWhile inKeyword), String.ofList value⟩, rest)
  | _ => none

/-- All keywords and values up to the end of a text. The fuel is more than their number. -/
def readFrom : Nat → List Char → Option (List KeyValue)
  | 0, _ => none
  | fuel + 1, text =>
    match text.dropWhile isBlank with
    | [] => some []
    | c :: text => do
      let (first, rest) ← read? (c :: text)
      return first :: (← readFrom fuel rest)

def readAll (text : List Char) : Option (List KeyValue) := readFrom (text.length + 1) text

end KeyValue

open KeyValue

/-- A text with a backslash in front of each `c`. -/
def backslashed (c : Char) (s : List Char) : List Char := s.flatMap fun d => if d = c then ['\\', c] else [d]

/-- Escaping is done in two passes, of which the one for backslashes comes first: otherwise those in front of
quotes would be doubled. -/
theorem escapeChar_eq_backslashed (s : List Char) :
    s.flatMap escapeChar = backslashed '\'' (backslashed '\\' s) := by
  rw [backslashed, backslashed, List.flatMap_assoc]
  refine congrArg (s.flatMap ·) (funext fun c => ?_)
  by_cases hslash : c = '\\'
  · subst hslash
    rfl
  · by_cases hquote : c = '\'' <;> simp [escapeChar, hslash, hquote]

example : backslashed '\\' (backslashed '\'' ['\'']) = ['\\', '\\', '\''] ∧
    ['\''].flatMap escapeChar = ['\\', '\''] := by decide

theorem readQuoted_escaped (s rest : List Char) :
    readQuoted (s.flatMap escapeChar ++ '\'' :: rest) = some (s, rest) := by
  induction s with
  | nil => rfl
  | cons c s ih =>
    rw [List.flatMap_cons, List.append_assoc]
    by_cases hslash : c = '\\'
    · subst hslash
      simp [escapeChar, readQuoted, ih]
    · by_cases hquote : c = '\''
      · subst hquote
        simp [escapeChar, readQuoted, ih]
      · have hplain : escapeChar c = [c] := by simp [escapeChar, hslash, hquote]
        rw [hplain, List.singleton_append, readQuoted, ih]
        · rfl
        · exact fun _ _ h _ => hslash h
        · exact hquote

/-- Nothing, or a text that a blank keeps apart from what is in front. -/
def Apart (tail : List Char) : Prop := tail = [] ∨ ∃ rest, tail = ' ' :: rest

/-- Characters that stand for themselves in a value without quotes. -/
def Bare (word : List Char) : Prop := ∀ c ∈ word, c ≠ '\\' ∧ isBlank c = false

instance (word : List Char) : Decidable (Bare word) :=
  List.decidableBAll (fun c => c ≠ '\\' ∧ isBlank c = false) word

theorem readBare_word {word tail : List Char} (hword : Bare word) (htail : Apart tail) :
    readBare (word ++ tail) = (word, tail.drop 1) := by
  induction word with
  | nil => obtain rfl | ⟨rest, rfl⟩ := htail <;> rfl
  | cons c word ih =>
    obtain ⟨⟨hslash, hblank⟩, hword⟩ := List.forall_mem_cons.mp hword
    rw [List.cons_append, readBare, ih hword, hblank]
    · rfl
    · exact fun h _ => hslash h
    · exact fun _ _ h _ => hslash h

/-- A value as it is written: in quotes, or as it is where it can do without them. -/
inductive Writes : String → String → Prop
  | quoted (value : String) : Writes value (quotedValue value)
  | bare {word : String} {c : Char} {s : List Char} (hword : word.toList = c :: s) (hquote : c ≠ '\'')
    (hbare : Bare (c :: s)) : Writes word word

section Reading

variable {value text keyword : String} {fuel : Nat} {tail : List Char}

theorem Writes.head (h : Writes value text) : ∃ c s, text.toList = c :: s ∧ isBlank c = false := by
  cases h with
  | quoted => exact ⟨'\'', _, String.toList_ofList, by decide⟩
  | @bare c s hword _ hbare => exact ⟨c, s, hword, (hbare c List.mem_cons_self).2⟩

/-- A value is read from what was written for it; the blank behind it may be taken with it. -/
theorem Writes.reads (h : Writes value text) (htail : Apart tail) : ∃ rest,
    readValue (text.toList ++ tail) = some (value.toList, rest) ∧ rest.dropWhile isBlank = tail.dropWhile isBlank := by
  cases h with
  | quoted =>
    refine ⟨tail, ?_, rfl⟩
    rw [quotedValue, String.toList_ofList, List.cons_append, List.cons_append, List.append_assoc]
    exact readQuoted_escaped _ _
  | @bare c s hword hquote hbare =>
    refine ⟨tail.drop 1, ?_, ?_⟩
    · rw [hword, List.cons_append, readValue, ← List.cons_append, readBare_word hbare htail]
      rintro _ ⟨⟩
      exact hquote rfl
    · obtain rfl | ⟨rest, rfl⟩ := htail <;> rfl

/-- A keyword with its value is read from the front of a text. -/
theorem read?_written (hkeyword : keyword.toList.all inKeyword = true) (h : Writes value text) (htail : Apart tail) :
    ∃ rest, read? (keyword.toList ++ '=' :: (text.toList ++ tail)) = some (⟨keyword, value⟩, rest) ∧
      rest.dropWhile isBlank = tail.dropWhile isBlank := by
  have hall := List.all_eq_true.mp hkeyword
  obtain ⟨rest, hread, hrest⟩ := h.reads htail
  obtain ⟨c, s, hhead, hblank⟩ := h.head
  have hdrop : (text.toList ++ tail).dropWhile isBlank = text.toList ++ tail := by
    rw [hhead, List.cons_append, List.dropWhile_cons_of_neg (by simp [hblank])]
  have hequals (behind : List Char) : ('=' :: behind).dropWhile inKeyword = '=' :: behind ∧
      ('=' :: behind).takeWhile inKeyword = [] ∧ ('=' :: behind).dropWhile isBlank = '=' :: behind := ⟨rfl, rfl, rfl⟩
  refine ⟨rest, ?_, hrest⟩
  rw [read?, List.dropWhile_append_of_pos hall, List.takeWhile_append_of_pos hall, (hequals _).1, (hequals _).2.1,
    (hequals _).2.2, List.append_nil, String.ofList_toList]
  simp only [hdrop, hread, Option.map_some, String.ofList_toList]

theorem readFrom_congr {s t : List Char} (h : s.dropWhile isBlank = t.dropWhile isBlank) (fuel : Nat) :
    readFrom fuel s = readFrom fuel t := by
  cases fuel with
  | zero => rfl
  | succ fuel => rw [readFrom, readFrom, h]

/-- Keywords with texts for their values, each behind a blank. -/
def spelled (pairs : List (KeyValue × String)) : List Char :=
  pairs.flatMap fun (pair, text) => ' ' :: (pair.keyword.toList ++ '=' :: text.toList)

/-- A keyword that is read as one, with a text that its value is read from. -/
def Readable (pair : KeyValue × String) : Prop :=
  pair.1.keyword.toList.all inKeyword = true ∧ Writes pair.1.value pair.2

theorem spelled_apart (pairs : List (KeyValue × String)) : Apart (spelled pairs) := by
  cases pairs with
  | nil => exact .inl rfl
  | cons pair pairs => exact .inr ⟨_, rfl⟩

theorem two_mul_le_spelled (pairs : List (KeyValue × String)) : 2 * pairs.length ≤ (spelled pairs).length := by
  induction pairs with
  | nil => exact Nat.le_refl _
  | cons pair pairs ih =>
    rw [spelled, List.flatMap_cons, ← spelled, List.length_append, List.length_cons, List.length_cons,
      List.length_append, List.length_cons]
    omega

/-- Keywords and values in a row are read back as they were written. -/
theorem readFrom_spelled {pairs : List (KeyValue × String)} (h : ∀ pair ∈ pairs, Readable pair)
    (hfuel : pairs.length < fuel) : readFrom fuel (spelled pairs) = some (pairs.map Prod.fst) := by
  induction pairs generalizing fuel with
  | nil =>
    obtain ⟨fuel, rfl⟩ := Nat.exists_eq_add_one_of_ne_zero (Nat.ne_of_gt hfuel)
    rfl
  | cons pair pairs ih =>
    obtain ⟨⟨hkeyword, hwrites⟩, hpairs⟩ := List.forall_mem_cons.mp h
    obtain ⟨fuel, rfl⟩ := Nat.exists_eq_add_one_of_ne_zero (Nat.ne_of_gt (Nat.zero_lt_of_lt hfuel))
    obtain ⟨⟨keyword, value⟩, text⟩ := pair
    obtain ⟨rest, hread, hrest⟩ := read?_written hkeyword hwrites (spelled_apart pairs)
    obtain ⟨c, s, hfirst, hblank⟩ : ∃ c s, keyword.toList ++ '=' :: (text.toList ++ spelled pairs) = c :: s ∧
        isBlank c = false := by
      cases hchars : keyword.toList with
      | nil => exact ⟨'=', _, rfl, by decide⟩
      | cons c s =>
        have hc : inKeyword c = true := List.all_eq_true.mp hkeyword c (by simp [hchars])
        exact ⟨c, _, rfl, by simpa [inKeyword] using (Bool.and_eq_true_iff.mp hc).2⟩
    have hspelled : (spelled ((⟨keyword, value⟩, text) :: pairs)).dropWhile isBlank = c :: s := by
      rw [spelled, List.flatMap_cons, ← spelled, List.cons_append, List.append_assoc, List.cons_append, hfirst]
      rw [List.dropWhile_cons_of_pos (by decide), List.dropWhile_cons_of_neg (by simp [hblank])]
    rw [readFrom, hspelled]
    rw [hfirst] at hread
    simp only [hread, Option.bind_eq_bind, Option.bind_some, readFrom_congr hrest,
      ih hpairs (Nat.lt_of_succ_lt_succ hfuel)]
    rfl

end Reading

theorem port_injective {port port' : UInt16} (h : port.toNat.repr = port'.toNat.repr) : port = port' := by
  have hdigits := congrArg (fun s => Nat.ofDigitChars 10 (String.toList s) 0) h
  simp only [Nat.toList_repr, Nat.ofDigitChars_ten_toDigits] at hdigits
  exact UInt16.toNat_inj.mp hdigits

theorem SslMode.keyword_injective {mode mode' : SslMode} (h : mode.keyword = mode'.keyword) : mode = mode' := by
  revert h
  cases mode <;> cases mode' <;> decide

theorem SslMode.keyword_writes (mode : SslMode) : Writes mode.keyword mode.keyword := by
  cases mode <;> exact .bare rfl (by decide) (by decide)

theorem repr_writes (n : Nat) : Writes n.repr n.repr := by
  have hdigit {c : Char} (hc : c ∈ n.repr.toList) : c.isDigit = true :=
    Text.Digits.toDigits n c (Nat.toList_repr ▸ hc)
  have hplain {c : Char} (hc : c.isDigit = true) : c ≠ '\'' ∧ c ≠ '\\' ∧ isBlank c = false := by
    refine ⟨?_, ?_, ?_⟩
    · rintro rfl
      cases hc
    · rintro rfl
      cases hc
    · rw [isBlank, decide_eq_false_iff_not]
      intro hmem
      simp only [List.mem_cons, List.not_mem_nil, or_false] at hmem
      rcases hmem with rfl | rfl | rfl | rfl | rfl | rfl <;> cases hc
  obtain ⟨c, s, hdigits⟩ := List.exists_cons_of_ne_nil (Nat.toDigits_ne_nil (n := n) (b := 10))
  rw [← Nat.toList_repr] at hdigits
  refine .bare hdigits (hplain (hdigit (by simp [hdigits]))).1 fun d hd => ?_
  exact (hplain (hdigit (hdigits ▸ hd))).2

namespace Config

/-- Keywords with their values, and the texts that are written for these. -/
def pairs (c : Config) : List (KeyValue × String) :=
  [(⟨"host", c.host⟩, quotedValue c.host), (⟨"port", c.port.toNat.repr⟩, c.port.toNat.repr),
    (⟨"dbname", c.database⟩, quotedValue c.database), (⟨"user", c.username⟩, quotedValue c.username),
    (⟨"password", c.password⟩, quotedValue c.password), (⟨"sslmode", c.sslMode.keyword⟩, c.sslMode.keyword),
    (⟨"connect_timeout", "10"⟩, "10")]

theorem connectionString_spelled (c : Config) : ' ' :: c.connectionString.toList = spelled c.pairs := by
  have hsame (s : String) : toString s = s := rfl
  simp [connectionString, pairs, spelled, hsame]

theorem pairs_readable (c : Config) : ∀ pair ∈ c.pairs, Readable pair := by
  have hten : Writes "10" "10" := repr_writes 10
  simp only [pairs, List.forall_mem_cons, Readable]
  exact ⟨⟨by decide, .quoted _⟩, ⟨by decide, repr_writes _⟩, ⟨by decide, .quoted _⟩, ⟨by decide, .quoted _⟩,
    ⟨by decide, .quoted _⟩, ⟨by decide, c.sslMode.keyword_writes⟩, ⟨by decide, hten⟩, List.forall_mem_nil _⟩

theorem readAll_connectionString (c : Config) : readAll c.connectionString.toList = some (c.pairs.map Prod.fst) := by
  have hfuel : c.pairs.length < c.connectionString.toList.length + 1 := by
    have hlength := two_mul_le_spelled c.pairs
    have hseven : c.pairs.length = 7 := rfl
    rw [← connectionString_spelled, List.length_cons] at hlength
    omega
  have hblank : c.connectionString.toList.dropWhile isBlank = (spelled c.pairs).dropWhile isBlank := by
    rw [← connectionString_spelled, List.dropWhile_cons_of_pos (by decide)]
  rw [readAll, readFrom_congr hblank, readFrom_spelled c.pairs_readable hfuel]

/-- The text that a connection is opened with is read as seven keywords, each of them once, with the values that
are configured. Two texts are therefore the same only if all of these values are. -/
theorem connectionString_reads_back (c : Config) :
    readAll c.connectionString.toList = some [⟨"host", c.host⟩, ⟨"port", c.port.toNat.repr⟩, ⟨"dbname", c.database⟩,
      ⟨"user", c.username⟩, ⟨"password", c.password⟩, ⟨"sslmode", c.sslMode.keyword⟩, ⟨"connect_timeout", "10"⟩] ∧
    ∀ d : Config, d.connectionString = c.connectionString ↔ d.host = c.host ∧ d.port = c.port ∧
      d.database = c.database ∧ d.username = c.username ∧ d.password = c.password ∧ d.sslMode = c.sslMode := by
  refine ⟨c.readAll_connectionString, fun d => ⟨fun h => ?_, ?_⟩⟩
  · have hread := d.readAll_connectionString
    rw [h, c.readAll_connectionString] at hread
    simp only [pairs, List.map_cons, List.map_nil, Option.some.injEq, List.cons.injEq, KeyValue.mk.injEq, true_and,
      and_true] at hread
    obtain ⟨hhost, hport, hdatabase, husername, hpassword, hmode⟩ := hread
    exact ⟨hhost.symm, (port_injective hport).symm, hdatabase.symm, husername.symm,
      hpassword.symm, (SslMode.keyword_injective hmode).symm⟩
  · rintro ⟨hhost, hport, hdatabase, husername, hpassword, hmode⟩
    simp only [connectionString, hhost, hport, hdatabase, husername, hpassword, hmode]

example : readAll "host = '' user=b\\'c ".toList = some [⟨"host", ""⟩, ⟨"user", "b'c"⟩] ∧
    readAll "host='a\\'".toList = none := by decide +kernel

end Config
end TypedSql.Connection
