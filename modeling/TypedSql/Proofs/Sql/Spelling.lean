import TypedSql.Proofs.Sql.Layout
import TypedSql.Proofs.Sql.Meaning
import TypedSql.Proofs.Sql.WordTokens

/-! Words in the text they are written with: read from left to right, the text of a term or a select falls into
the tokens of its words, as the blanks in it keep them apart. -/
namespace TypedSql.Sql
open TextToken (isNameStart)

/-- A name as it is read: between quotes unless it can stand bare. -/
def nameToken (name : String) : WordToken :=
  if isPlain name.toList && !reservedWords.contains name then .bare name else .quoted name

/-- The tokens a word is spelled with. Functions and types stand as they are written, with the points and
brackets in them. -/
def Word.tokens : Word → List WordToken
  | name s => [nameToken s]
  | function s | type s => (WordToken.read s.toList).getD []
  | mark _ => [.placeholder]
  | operator op => [.ofRun op.text.toList]
  | opening => [.sign "("]
  | closing => [.sign ")"]
  | comma => [.sign ","]
  | dot => [.sign "."]
  | negation => [.bare "not"]
  | is => [.bare "is"]
  | null => [.bare "null"]
  | any => [.bare "any"]
  | default => [.bare "default"]
  | bool b => [.bare (if b then "true" else "false")]
  | existence => [.bare "exists"]
  | selection => [.bare "select"]
  | source => [.bare "from"]
  | condition => [.bare "where"]
  | sorting => [.bare "order"]
  | key => [.bare "by"]
  | descending => [.bare "desc"]
  | bound => [.bare "limit"]
  | lock => [.bare "for"]
  | update => [.bare "update"]
  | skip => [.bare "skip"]
  | locked => [.bare "locked"]
  | cast => [.bare "cast"]
  | label => [.bare "as"]

/-- Blanks, keywords, operators and punctuation of terms and selects, and names that can stand bare. -/
def spelledRun (run : List Char) : Bool :=
  run = [' '] || (Word.spellings.lookup (String.ofList run)).isSome ||
    (isPlain run && !reservedWords.contains (String.ofList run))

def spelledText (s : String) : Bool := (Word.runs s).all spelledRun

def Piece.Spelled : Piece → Prop
  | .text s => spelledText s = true
  | _ => True

/-- Pieces whose texts are words of terms and selects. -/
def Fragment.Spelled (f : Fragment) : Prop := ∀ p ∈ f, p.Spelled

section Words

/-- Keywords, operators and punctuation are read as the words they are spelled for. -/
private theorem spellings_tokens : ∀ entry ∈ Word.spellings,
    entry.2.tokens = [.ofRun entry.1.toList] ∧ (Chunk.plain entry.1.toList).isSpelled = true := by
  decide +kernel

private theorem isPlain_ne_blank {s : List Char} (h : isPlain s = true) : s ≠ [' '] := by
  rintro rfl
  cases h

private theorem ofRun_plain {s : List Char} (h : isPlain s = true) : WordToken.ofRun s = .bare (String.ofList s) := by
  cases s with
  | nil => cases h
  | cons c rest =>
    obtain ⟨hc, hrest⟩ := Bool.and_eq_true_iff.mp h
    have hall : ∀ d ∈ c :: rest, isPlainChar d = true :=
      List.forall_mem_cons.mpr ⟨isPlainChar_of_start hc, List.all_eq_true.mp hrest⟩
    have hfold : (c :: rest).map Char.toLower = c :: rest :=
      (List.map_congr_left fun d hd => toLower_of_plain (hall d hd)).trans (List.map_id _)
    have hstart : (c :: rest).head?.any isNameStart = true := isNameStart_of_plain hc
    rw [WordToken.ofRun, if_pos hstart, hfold]

private theorem spelledRun_tokens {run : List Char} (h : spelledRun run = true) (hblank : run ≠ [' ']) :
    (Word.ofRun run).tokens = [.ofRun run] ∧ (Chunk.plain run).isSpelled = true := by
  cases hlookup : Word.spellings.lookup (String.ofList run) with
  | some w =>
    obtain ⟨front, behind, hsplit, -⟩ := List.lookup_eq_some_iff.mp hlookup
    have hmem : (String.ofList run, w) ∈ Word.spellings := by simp [hsplit]
    obtain ⟨htokens, hspelled⟩ := spellings_tokens _ hmem
    rw [String.toList_ofList] at htokens hspelled
    simp only [Word.ofRun, hlookup, Option.getD_some]
    exact ⟨htokens, hspelled⟩
  | none =>
    obtain ⟨hplain, hfree⟩ : isPlain run = true ∧ (!reservedWords.contains (String.ofList run)) = true := by
      simpa [spelledRun, hblank, hlookup] using h
    have hname : nameToken (String.ofList run) = .bare (String.ofList run) := by
      rw [nameToken, String.toList_ofList, hplain, hfree]
      rfl
    simp only [Word.ofRun, hlookup, Option.getD_none, Word.tokens, hname, ofRun_plain hplain, Chunk.isSpelled]
    simp [isWord_of_isPlain hplain]

private theorem runs_tokens {runs : List (List Char)} (h : ∀ run ∈ runs, spelledRun run = true) :
    (runs.map Chunk.plain).filterMap Chunk.token? =
      ((runs.filter (· ≠ [' '])).map Word.ofRun).flatMap Word.tokens := by
  induction runs with
  | nil => rfl
  | cons run runs ih =>
    obtain ⟨hrun, hruns⟩ := List.forall_mem_cons.mp h
    rw [List.map_cons, List.filterMap_cons]
    by_cases hblank : run = [' ']
    · rw [List.filter_cons_of_neg (by simpa using hblank), ← ih hruns, hblank]
      rfl
    · rw [List.filter_cons_of_pos (by simpa using hblank), List.map_cons, List.flatMap_cons,
        (spelledRun_tokens hrun hblank).1, ← ih hruns, Chunk.token?_plain hblank]
      rfl

private theorem text_tokens {s : String} (h : spelledText s = true) :
    (textChunks s).filterMap Chunk.token? = (Word.ofText s).flatMap Word.tokens :=
  runs_tokens (List.all_eq_true.mp h)

private theorem text_spelled {s : String} (h : spelledText s = true) :
    ∀ c ∈ textChunks s, c.isSpelled = true := by
  intro c hc
  obtain ⟨run, hrun, rfl⟩ := List.mem_map.mp hc
  by_cases hblank : run = [' ']
  · rw [hblank]
    decide
  · exact (spelledRun_tokens (List.all_eq_true.mp h run hrun) hblank).2

private theorem nameChunk_token (name : String) : (nameChunk name).token? = some (nameToken name) := by
  unfold nameChunk nameToken
  split
  case isTrue h =>
    have hplain := (Bool.and_eq_true_iff.mp h).1
    rw [Chunk.token?_plain (isPlain_ne_blank hplain), ofRun_plain hplain, String.ofList_toList]
  case isFalse => simp [Chunk.token?]

private theorem nameChunk_spelled (name : String) : (nameChunk name).isSpelled = true := by
  unfold nameChunk
  split
  case isTrue h => simp [Chunk.isSpelled, isWord_of_isPlain (Bool.and_eq_true_iff.mp h).1]
  case isFalse => rfl

private theorem typeChunks_spelled (d : TypeDescriptor) : ∀ c ∈ typeChunks d, c.isSpelled = true := by
  fun_induction typeChunks d with
  | case1 _ _ _ _ element _ _ ih => exact List.forall_mem_append.mpr ⟨ih, by decide⟩
  | case2 _ name => exact List.forall_mem_singleton.mpr (nameChunk_spelled name)

private theorem functionChunks_spelled {name : String} (h : plainFunction name = true) :
    ∀ c ∈ functionChunks name, c.isSpelled = true := by
  unfold functionChunks
  unfold plainFunction at h
  generalize name.toList.splitOn '.' = parts at h
  induction parts with
  | nil => nofun
  | cons part rest ih =>
    obtain ⟨hpart, hrest⟩ := Bool.and_eq_true_iff.mp h
    have hword : (Chunk.plain part).isSpelled = true := by simp [Chunk.isSpelled, hpart]
    cases rest with
    | nil => exact List.forall_mem_singleton.mpr hword
    | cons next rest => exact List.forall_mem_cons.mpr ⟨hword, List.forall_mem_cons.mpr ⟨rfl, ih hrest⟩⟩

/-- The text of tidy chunks is read as their tokens. -/
private theorem read_text {text : List Char} {chunks : List Chunk} (htext : chunksText chunks = text)
    (h : Tidy chunks) (hspelled : ∀ c ∈ chunks, c.isSpelled = true) :
    (WordToken.read text).getD [] = chunks.filterMap Chunk.token? := by
  rw [← htext, h.read_eq hspelled]
  rfl

/-- The chunks of a piece and its words have the same tokens. -/
theorem Piece.tokens_words {p : Piece} (hspelled : p.Spelled)
    (hplain : ∀ name, p = .function name → plainFunction name = true) :
    p.chunks.filterMap Chunk.token? = p.words.flatMap Word.tokens ∧ ∀ c ∈ p.chunks, c.isSpelled = true := by
  cases p with
  | text s => exact ⟨text_tokens hspelled, text_spelled hspelled⟩
  | name n =>
    refine ⟨?_, List.forall_mem_singleton.mpr (nameChunk_spelled n)⟩
    simp [chunks, words, nameChunk_token, Word.tokens]
  | function f =>
    have hf := hplain f rfl
    have hchunks : chunksText (functionChunks f) = f.toList := (Piece.function f).chunks_text
    refine ⟨?_, functionChunks_spelled hf⟩
    simp [chunks, words, Word.tokens, read_text hchunks (functionChunks_tidy hf) (functionChunks_spelled hf)]
  | parameter p =>
    have hcast : spelledText "CAST(" = true := by decide
    have hlabel : spelledText " AS " = true := by decide
    have hclose : spelledText ")" = true := by decide
    have htype := typeChunks_spelled p.type.descriptor
    have htokens := read_text (typeChunks_text p.type.descriptor) (typeChunks_tidy _) htype
    by_cases hc : p.type.needsCast
    · constructor
      · simp [chunks, words, hc, text_tokens hcast, text_tokens hlabel, text_tokens hclose, Word.tokens, htokens,
          Chunk.token?]
        rfl
      · simp only [chunks, if_pos hc, List.forall_mem_append, List.forall_mem_cons]
        exact ⟨⟨⟨text_spelled hcast, rfl, text_spelled hlabel⟩, htype⟩, text_spelled hclose⟩
    · simp [chunks, words, hc, Word.tokens, Chunk.token?, Chunk.isSpelled]

/-- The text of pieces that are kept apart is read as the tokens of their words. -/
theorem Fragment.read_sql {f : Fragment} (hspaced : Spaced f) (hspelled : f.Spelled)
    (hplain : ∀ name, Piece.function name ∈ f → plainFunction name = true) :
    WordToken.read f.sql.toList = some (f.words.flatMap Word.tokens) := by
  have hpieces {f : Fragment} (hspelled : f.Spelled)
      (hplain : ∀ name, Piece.function name ∈ f → plainFunction name = true) :
      f.chunks.filterMap Chunk.token? = f.words.flatMap Word.tokens ∧ ∀ c ∈ f.chunks, c.isSpelled = true := by
    induction f with
    | nil => exact ⟨rfl, nofun⟩
    | cons p f ih =>
      obtain ⟨hp, hf⟩ := List.forall_mem_cons.mp hspelled
      obtain ⟨htokens, hchunks⟩ := Piece.tokens_words hp fun name h => hplain name (h ▸ List.mem_cons_self)
      obtain ⟨htokens', hchunks'⟩ := ih hf fun name h => hplain name (List.mem_cons_of_mem p h)
      rw [chunks_cons, words_cons, List.filterMap_append, List.flatMap_append, htokens, htokens']
      exact ⟨rfl, List.forall_mem_append.mpr ⟨hchunks, hchunks'⟩⟩
  obtain ⟨htokens, hchunks⟩ := hpieces hspelled hplain
  rw [← f.chunks_text, (hspaced hplain).read_eq hchunks, htokens]

end Words

namespace Fragment.Spelled

variable {f g : Fragment}

theorem nil : Spelled [] := List.forall_mem_nil _

theorem text {s : String} (h : spelledText s = true) : Spelled [.text s] := List.forall_mem_singleton.mpr h

theorem name (n : String) : Spelled [.name n] := List.forall_mem_singleton.mpr trivial

theorem append (hf : f.Spelled) (hg : g.Spelled) : Spelled (f ++ g) := List.forall_mem_append.mpr ⟨hf, hg⟩

theorem behind {s : String} (hf : f.Spelled) (h : spelledText s = true) : Spelled (.text s :: f) :=
  List.forall_mem_cons.mpr ⟨h, hf⟩

theorem enclosed {s : String} (hf : f.Spelled) (h : spelledText s = true) :
    Spelled (.text s :: f ++ [.text ")"]) :=
  (hf.behind h).append (.text (by decide))

theorem joined {s : String} {fs : List Fragment} (hfs : ∀ f ∈ fs, Spelled f) (h : spelledText s = true) :
    Spelled (Sql.joined s fs) := by
  induction fs with
  | nil => exact .nil
  | cons f fs ih =>
    obtain ⟨hf, hrest⟩ := List.forall_mem_cons.mp hfs
    cases fs with
    | nil => exact hf
    | cons g fs => exact hf.append ((ih hrest).behind h)

theorem wrapped (hf : f.Spelled) (wrap : Bool) : Spelled (Sql.wrapped wrap f) := by
  cases wrap with
  | false => exact hf
  | true => exact hf.enclosed (by decide)

/-- Texts of items with a text between them. -/
theorem separated {α : Type} {items : List α} {pieces : α → Except Error Fragment} {s : String}
    (h : separatedPieces s (items.map pieces) = .ok f) (hitems : ∀ i ∈ items, ∀ g, pieces i = .ok g → Spelled g)
    (hs : spelledText s = true) : f.Spelled := by
  obtain ⟨fs, hfs, rfl⟩ := separatedPieces_ok h hitems
  refine .joined (fun g hg => ?_) hs
  obtain ⟨-, -, hg⟩ := forall₂_mem_right hfs hg
  exact hg

end Fragment.Spelled

section Clauses

variable {vis : List Column} {f : Fragment}

private theorem bindPieces_spelled {type : TypeRef} {v : Value} (h : bindPieces type v = .ok f) : f.Spelled := by
  obtain ⟨w, -, rfl⟩ := map_eq_ok.mp h
  exact List.forall_mem_singleton.mpr trivial

private theorem Table.pieces_spelled (t : Table) : t.pieces.Spelled := by
  obtain ⟨name, other | other, members⟩ := t
  · exact .name name
  · exact (Fragment.Spelled.name name).append ((Fragment.Spelled.name other).behind (by decide))

private theorem Column.pieces_spelled (vis : List Column) (c : Column) : (c.pieces vis).Spelled := by
  unfold Column.pieces
  split
  · exact (Fragment.Spelled.name c.owner).append ((Fragment.Spelled.name c.name).behind (by decide))
  · exact .name c.name

private theorem wherePieces_spelled {filters : List Expr}
    (hfilters : ∀ e ∈ filters, ∀ f, e.pieces vis = .ok f → f.Spelled)
    (h : wherePieces (filters.map (Expr.conjunctPieces vis)) = .ok f) : f.Spelled := by
  cases filters with
  | nil => cases h; exact .nil
  | cons e es =>
    obtain ⟨g, hg, rfl⟩ := map_eq_ok.mp h
    have hconjuncts : Fragment.Spelled g := by
      refine .separated hg (fun e he g hg => ?_) (by decide)
      obtain ⟨f, hf, rfl⟩ := map_eq_ok.mp hg
      exact (hfilters e he f hf).wrapped _
    exact hconjuncts.behind (by decide)

private theorem orderPieces_spelled {sorting : List SortTerm}
    (hsorting : ∀ t ∈ sorting, ∀ f, t.expr.pieces vis = .ok f → f.Spelled)
    (h : orderPieces (sorting.map (SortTerm.pieces vis)) = .ok f) : f.Spelled := by
  cases sorting with
  | nil => cases h; exact .nil
  | cons t ts =>
    obtain ⟨g, hg, rfl⟩ := map_eq_ok.mp h
    have hterms : Fragment.Spelled g := by
      refine .separated hg (fun t ht g hg => ?_) (by decide)
      obtain ⟨e, he, rfl⟩ := map_eq_ok.mp hg
      unfold sortPieces
      split
      · exact (hsorting t ht e he).append (.text (by decide))
      · exact (hsorting t ht e he).append .nil
    exact hterms.behind (by decide)

private theorem lockPieces_spelled (lock : Option Lock) : (lockPieces lock).Spelled := by
  rcases lock with _ | _ | _
  · exact .nil
  · exact .text (by decide)
  · exact .text (by decide)

private theorem limitPieces_spelled {limit : Option Int64} (h : limitPieces limit = .ok f) : f.Spelled := by
  cases limit with
  | none => cases h; exact .nil
  | some n =>
    obtain ⟨g, hg, rfl⟩ := map_eq_ok.mp h
    exact (bindPieces_spelled hg).behind (by decide)

private theorem clausePieces_spelled {s : Select}
    (hs : s.Each fun e => ∀ f, e.pieces vis = .ok f → f.Spelled)
    (h : s.clausePieces vis = .ok f) : f.Spelled := by
  obtain ⟨filters, sorting, limit, hfilters, hsorting, hlimit, rfl⟩ := Select.clausePieces_ok h
  have htables : (joined ", " ((s.table :: s.joins).map Table.pieces)).Spelled :=
    .joined (List.forall_mem_map.mpr fun t _ => t.pieces_spelled) (by decide)
  have hsource : Fragment.Spelled (.text " FROM " :: joined ", " ((s.table :: s.joins).map Table.pieces)) :=
    htables.behind (by decide)
  exact (((hsource.append (wherePieces_spelled hs.filters hfilters)).append
    (orderPieces_spelled hs.sorting hsorting)).append (lockPieces_spelled s.lock)).append
      (limitPieces_spelled hlimit)

private theorem Select.pieces_spelled {s : Select}
    (hs : s.Each fun e => ∀ vis f, e.pieces vis = .ok f → f.Spelled)
    (h : s.pieces vis = .ok f) : f.Spelled := by
  obtain ⟨-, list, clauses, hlist, hclauses, rfl⟩ := Select.pieces_ok h
  have hinner := hs.imp fun e he => he (inSight (s.table :: s.joins) vis)
  have hentries : list.Spelled := .separated hlist hinner.targets (by decide)
  exact (hentries.append (clausePieces_spelled hinner hclauses)).behind (by decide)

/-- All that is written of a term is its words. -/
theorem Expr.pieces_spelled (e : Expr) (vis : List Column) (f : Fragment) (h : e.pieces vis = .ok f) :
    f.Spelled := by
  refine Expr.pieces_induction (P := fun _ _ f => f.Spelled) ?column ?param ?default ?bool ?call ?binary
    ?not ?nullTest ?within ?subquery ?existence e vis f h
  case column => exact fun c vis => c.pieces_spelled vis
  case param => exact fun v type vis f hf => bindPieces_spelled hf
  case default => exact fun vis => .text (by decide)
  case bool =>
    intro b vis
    cases b <;> exact .text (by decide)
  case call =>
    intro function args vis fs hfs
    have hargs : (joined ", " fs).Spelled := by
      refine .joined (fun g hg => ?_) (by decide)
      obtain ⟨-, -, hg⟩ := forall₂_mem_right hfs hg
      exact hg
    exact List.forall_mem_cons.mpr ⟨trivial, hargs.enclosed (by decide)⟩
  case binary =>
    intro op left right vis f g hf hg
    have hop : spelledText op.text = true := by cases op <;> decide +kernel
    exact (hf.wrapped _).append ((((hg.wrapped _).behind (by decide)).behind hop).behind (by decide))
  case not => exact fun e vis f hf => (hf.wrapped _).behind (by decide)
  case nullTest =>
    intro e negated vis f hf
    refine (hf.wrapped _).append ?_
    cases negated <;> exact .text (by decide)
  case within =>
    intro e values element array vis f g _ hf hg
    rw [List.append_assoc]
    exact (hf.wrapped _).append ((bindPieces_spelled hg).enclosed (by decide))
  case subquery => exact fun s vis f ih hf => (Select.pieces_spelled ih hf).enclosed (by decide)
  case existence => exact fun s vis f ih hf => (Select.pieces_spelled ih hf).enclosed (by decide)

private theorem named_spelled (hf : f.Spelled) (index : Nat) : (namedPieces f index).Spelled := by
  have hplain : isPlain (Scope.outputName index).toList = true := by
    have hdigits : (Nat.toDigits 10 index).all isPlainChar = true :=
      List.all_eq_true.mpr fun c hc => by simp [isPlainChar, Word.outputName_digits hc]
    rw [Word.outputName_toList, isPlain, hdigits]
    rfl
  have hfree : Scope.outputName index ∉ reservedWords := by
    intro hmem
    have hscore : ∀ w ∈ reservedWords, w.toList.head? ≠ some '_' := by decide +kernel
    exact hscore _ hmem (by rw [Word.outputName_toList]; rfl)
  have hname : spelledText (Scope.outputName index) = true := by
    simp [spelledText, Word.runs_outputName, spelledRun, hplain, hfree]
  exact hf.append ((Fragment.Spelled.text hname).behind (by decide))

private theorem namedTexts_spelled {fs : List Fragment} (hfs : ∀ f ∈ fs, f.Spelled) (index : Nat) :
    ∀ g ∈ namedTexts index fs, g.Spelled := by
  induction fs generalizing index with
  | nil => nofun
  | cons f fs ih =>
    obtain ⟨hf, hrest⟩ := List.forall_mem_cons.mp hfs
    exact List.forall_mem_cons.mpr ⟨named_spelled hf index, ih hrest (index + 1)⟩

/-- All that is written of a select at the outermost level is its words, the names of its outputs included. -/
theorem Select.listed_spelled {s : Select} {l : Listed} (h : s.listed vis = .ok l) : l.1.Spelled := by
  obtain ⟨-, list, clauses, hlist, hclauses, rfl⟩ := Select.listed_ok h
  obtain ⟨entries, hentries, rfl⟩ := map_eq_ok.mp hlist
  have hwritten : ∀ f ∈ (Target.kept [] entries).map Prod.snd, Fragment.Spelled f := by
    intro f hf
    obtain ⟨e, he, rfl⟩ := List.mem_map.mp hf
    exact e.1.expr.pieces_spelled _ e.2 (Target.entries_mem hentries (Target.kept_subset [] entries he)).2
  have houtputs : (listPieces true 0 ((Target.kept [] entries).map Prod.snd)).Spelled := by
    rw [listPieces_joined]
    exact .joined (namedTexts_spelled hwritten 0) (by decide)
  have hbehind := clausePieces_spelled (.of_all fun e => e.pieces_spelled _) hclauses
  exact (houtputs.append hbehind).behind (by decide)

end Clauses

/-- Wherever a term is rendered, the text that is added is read as the tokens of its words, if its functions have
plain names. -/
theorem Expr.rendered_text (e : Expr) (c c' : Canvas) (h : e.render.run c = (.ok (), c')) :
    ∃ f, c'.written = c.written ++ f ∧
      ((∀ name, Piece.function name ∈ f → plainFunction name = true) →
        WordToken.read f.sql.toList = some (f.words.flatMap Word.tokens)) := by
  obtain ⟨f, hf, hwritten⟩ := (e.render_adds _).written h
  exact ⟨f, hwritten, Fragment.read_sql (e.pieces_spaced _ f hf) (e.pieces_spelled _ f hf)⟩

/-- The text of a select is read as the tokens of its words, if its functions have plain names. -/
theorem Select.rendered_text (s : Select) (r : Rendered) (h : (Statement.select s).render = .ok r)
    (hplain : ∀ name, Piece.function name ∈ r.body → plainFunction name = true) :
    WordToken.read r.sql.toList = some (r.body.words.flatMap Word.tokens) := by
  rw [Statement.render_eq] at h
  obtain ⟨l, hl, rfl⟩ := map_eq_ok.mp h
  exact Fragment.read_sql (Statement.listed_spaced hl) (Select.listed_spelled hl) hplain

/-- The keywords of terms and selects that are not on the list of reserved words. -/
def looseKeywords : List String := ["like", "ilike", "is", "exists", "by", "update", "skip", "locked"]

/-- A name is read like a keyword, an operator or a mark of punctuation only if it is one of the keywords that are
not reserved. -/
theorem nameToken_eq_keyword (name : String) :
    (∃ entry ∈ Word.spellings, [nameToken name] = entry.2.tokens) ↔ name ∈ looseKeywords := by
  constructor
  · rintro ⟨entry, hentry, hname⟩
    have hkeywords : ∀ entry ∈ Word.spellings, WordToken.ofRun entry.1.toList = .sign entry.1 ∨
        WordToken.ofRun entry.1.toList ∈ (reservedWords ++ looseKeywords).map .bare := by
      decide +kernel
    rw [(spellings_tokens entry hentry).1, List.singleton_inj] at hname
    have hword := hkeywords entry hentry
    rw [← hname, nameToken] at hword
    split at hword
    case isTrue h =>
      have hfree : name ∉ reservedWords := by simpa using (Bool.and_eq_true_iff.mp h).2
      have hmem : name ∈ reservedWords ++ looseKeywords := by simpa using hword
      exact (List.mem_append.mp hmem).resolve_left hfree
    case isFalse => simp at hword
  · intro hname
    have hfound : ∀ name ∈ looseKeywords, ∃ entry ∈ Word.spellings, [nameToken name] = entry.2.tokens := by
      decide +kernel
    exact hfound name hname

end TypedSql.Sql
