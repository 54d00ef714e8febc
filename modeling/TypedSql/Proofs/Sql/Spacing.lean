import TypedSql.Proofs.Sql.Marks
import TypedSql.Proofs.Sql.Words

/-! The pieces of a statement as chunks, and the ways of putting pieces together that keep them apart. -/
namespace TypedSql.Sql

/-- Whether each part of a name between points is one word. -/
def plainFunction (name : String) : Bool := (name.toList.splitOn '.').all Chunk.isWord

def textChunks (s : String) : List Chunk := (Word.runs s).map .plain

def nameChunk (name : String) : Chunk :=
  if isPlain name.toList && !reservedWords.contains name then .plain name.toList
  else .quoted name.toList

def functionChunks (name : String) : List Chunk :=
  ((name.toList.splitOn '.').intersperse ['.']).map .plain

def typeChunks : TypeDescriptor → List Chunk
  | ⟨_, _, _, _, .array ⟨element, _⟩, _⟩ => typeChunks element ++ [.plain ['['], .plain [']']]
  | ⟨_, name, _, _, _, _⟩ => [nameChunk name]

def Piece.chunks : Piece → List Chunk
  | .text s => textChunks s
  | .name n => [nameChunk n]
  | .function f => functionChunks f
  | .parameter p =>
    if p.type.needsCast then
      textChunks "CAST(" ++ .mark :: textChunks " AS " ++ typeChunks p.type.descriptor ++ textChunks ")"
    else [.mark]

def Fragment.chunks (f : Fragment) : List Chunk := f.flatMap Piece.chunks

@[simp] theorem Fragment.chunks_nil : Fragment.chunks [] = [] := rfl

@[simp] theorem Fragment.chunks_cons (p : Piece) (f : Fragment) :
    Fragment.chunks (p :: f) = p.chunks ++ Fragment.chunks f := rfl

@[simp] theorem Fragment.chunks_append (f g : Fragment) :
    Fragment.chunks (f ++ g) = Fragment.chunks f ++ Fragment.chunks g := by
  simp [chunks]

section Text

theorem chunksText_append (a b : List Chunk) : chunksText (a ++ b) = chunksText a ++ chunksText b :=
  List.flatMap_append

private theorem chunksText_plain (runs : List (List Char)) : chunksText (runs.map .plain) = runs.flatten := by
  have hplain : Chunk.text ∘ Chunk.plain = id := rfl
  simp [chunksText, List.flatMap_def, hplain]

theorem chunksText_text (s : String) : chunksText (textChunks s) = s.toList := by
  rw [textChunks, chunksText_plain, Word.runs, List.flatten_splitBy]

private theorem nameChunk_text (name : String) : (nameChunk name).text = (identifier name).toList := by
  unfold nameChunk identifier
  split <;> simp [Chunk.text]

theorem typeChunks_text (d : TypeDescriptor) : chunksText (typeChunks d) = (castType d).toList := by
  fun_induction typeChunks d with
  | case1 _ _ _ _ element _ _ ih =>
    rw [castType, chunksText_append, ih, String.toList_append]
    rfl
  | case2 _ name _ _ _ _ _ =>
    rw [castType]
    · simp [chunksText, nameChunk_text]
    · assumption

/-- The chunks of a piece make up its text, with a placeholder at its mark. -/
theorem Piece.chunks_text (p : Piece) : chunksText p.chunks = p.sql.toList := by
  cases p with
  | text s => exact chunksText_text s
  | name n => simp [chunks, chunksText, sql, nameChunk_text]
  | function f =>
    rw [chunks, functionChunks, chunksText_plain]
    exact List.intercalate_splitOn '.'
  | parameter p =>
    by_cases hc : p.type.needsCast
    · simp only [chunks, sql, Parameter.mark, if_pos hc, chunksText_append, chunksText_cons,
        chunksText_text, typeChunks_text, Chunk.text]
      simp
    · simp [chunks, sql, Parameter.mark, hc, chunksText, Chunk.text]

theorem Fragment.chunks_text (f : Fragment) : chunksText f.chunks = f.sql.toList := by
  induction f with
  | nil => rfl
  | cons p f ih =>
    rw [chunks_cons, chunksText_append, p.chunks_text, ih]
    simp [sql, String.join_cons]

end Text

section Tidiness

variable {a b : List Chunk}

/-- Nothing, or a gap at the start. -/
abbrev Opens (chunks : List Chunk) : Prop := ∀ c ∈ chunks.head?, c.isGap = true

/-- Nothing, or a gap at the end. -/
abbrev Closes (chunks : List Chunk) : Prop := ∀ c ∈ chunks.getLast?, c.isGap = true

theorem Tidy.append (ha : Tidy a) (hb : Tidy b) (h : Closes a ∨ Opens b) : Tidy (a ++ b) := by
  refine ⟨fun c hc => (List.mem_append.mp hc).elim (ha.sound c) (hb.sound c), ?_⟩
  refine List.isChain_append.mpr ⟨ha.apart, hb.apart, fun x hx y hy => ?_⟩
  exact h.imp (fun h => h x hx) fun h => h y hy

theorem Tidy.singleton {c : Chunk} (h : c.sound = true) : Tidy [c] :=
  ⟨fun d hd => by rwa [List.mem_singleton.mp hd], List.isChain_singleton c⟩

theorem Opens.append (ha : Opens a) (hb : Opens b) : Opens (a ++ b) := by
  cases a with
  | nil => exact hb
  | cons c a => exact ha

/-- A text of sound chunks with gaps between them. -/
def TidyText (s : String) : Prop :=
  (∀ c ∈ textChunks s, c.sound = true) ∧ (textChunks s).IsChain Chunk.Apart

instance (s : String) : Decidable (TidyText s) := inferInstanceAs (Decidable (_ ∧ _))

/-- A text with a gap at the start. -/
def opensGap (s : String) : Bool := (textChunks s).head?.any Chunk.isGap

/-- A text with a gap at the end. -/
def closesGap (s : String) : Bool := (textChunks s).getLast?.any Chunk.isGap

theorem TidyText.tidy {s : String} (h : TidyText s) : Tidy (textChunks s) := ⟨h.1, h.2⟩

theorem opens_text {s : String} (h : opensGap s = true) (b : List Chunk) : Opens (textChunks s ++ b) := by
  unfold opensGap at h
  intro c hc
  cases hs : textChunks s with
  | nil => simp [hs] at h
  | cons d rest =>
    rw [hs] at h hc
    cases hc
    exact h

theorem closes_text {s : String} (h : closesGap s = true) : Closes (textChunks s) := by
  unfold closesGap at h
  intro c hc
  rw [Option.mem_def.mp hc] at h
  exact h

theorem isWord_of_isPlain {s : List Char} (h : isPlain s = true) : Chunk.isWord s = true := by
  have hlower {c : Char} (hc : c.isLower = true) : Text.isLetter c = true :=
    Text.isLetter_of_isAlpha (Bool.or_eq_true_iff.mpr (.inr hc))
  cases s with
  | nil => cases h
  | cons c rest =>
    obtain ⟨hc, hrest⟩ := Bool.and_eq_true_iff.mp h
    refine Bool.and_eq_true_iff.mpr ⟨?_, List.all_eq_true.mpr fun d hd => ?_⟩
    · simp only [isPlainStart, Bool.or_eq_true] at hc
      simp only [isWordStart, Bool.or_eq_true]
      exact hc.imp_left hlower
    · have hd := List.all_eq_true.mp hrest d hd
      simp only [isPlainChar, Bool.or_eq_true] at hd
      simp only [isWordChar, Bool.or_eq_true]
      rcases hd with (hd | hd) | hd
      · exact .inl (.inl (.inl (hlower hd)))
      · exact .inl (.inl (.inr hd))
      · exact .inr hd

theorem nameChunk_sound (name : String) : (nameChunk name).sound = true := by
  unfold nameChunk
  split
  · rename_i h
    simp [Chunk.sound, isWord_of_isPlain (Bool.and_eq_true_iff.mp h).1]
  · rfl

theorem functionChunks_tidy {name : String} (h : plainFunction name = true) :
    Tidy (functionChunks name) := by
  unfold functionChunks
  unfold plainFunction at h
  generalize name.toList.splitOn '.' = parts at h
  induction parts with
  | nil => exact ⟨nofun, .nil⟩
  | cons part rest ih =>
    obtain ⟨hpart, hrest⟩ := Bool.and_eq_true_iff.mp h
    have hword : Tidy [.plain part] := .singleton (by simp [Chunk.sound, hpart])
    cases rest with
    | nil => exact hword
    | cons next rest =>
      have hdot : Tidy [.plain ['.']] := .singleton (by decide)
      exact hword.append (hdot.append (ih hrest) (.inl (by decide))) (.inr fun c hc => by cases hc; rfl)

theorem typeChunks_tidy (d : TypeDescriptor) : Tidy (typeChunks d) := by
  fun_induction typeChunks d with
  | case1 _ _ _ _ element _ _ ih =>
    exact ih.append ⟨by decide, by decide⟩ (.inr (by decide))
  | case2 _ name => exact .singleton (nameChunk_sound name)

theorem parameter_tidy (p : Parameter) : Tidy (Piece.parameter p).chunks := by
  rw [Piece.chunks]
  split
  · have hmark : Tidy [.mark] := .singleton rfl
    have hopen : Tidy (textChunks "CAST(") := ⟨by decide, by decide⟩
    have has : Tidy (textChunks " AS ") := ⟨by decide, by decide⟩
    have hclose : Tidy (textChunks ")") := ⟨by decide, by decide⟩
    have htype := has.append (typeChunks_tidy p.type.descriptor) (.inl (closes_text (by decide)))
    have hcast := hopen.append (hmark.append htype (.inr (opens_text (by decide) _)))
      (.inl (closes_text (by decide)))
    have hall := hcast.append hclose (.inr (by decide))
    simpa using hall
  · exact .singleton rfl

end Tidiness

/-- Pieces whose chunks are kept apart if every function has a plain name. -/
def Spaced (f : Fragment) : Prop :=
  (∀ name, Piece.function name ∈ f → plainFunction name = true) → Tidy (Fragment.chunks f)

/-- Pieces that may follow any others: nothing, or a gap and what stands behind it. -/
structure Follows (f : Fragment) : Prop where
  spaced : Spaced f
  opens : Opens (Fragment.chunks f)

namespace Spaced

variable {f g : Fragment}

theorem nil : Spaced [] := fun _ => ⟨nofun, .nil⟩

theorem text {s : String} (h : TidyText s) : Spaced [.text s] := by
  intro _
  rw [Fragment.chunks_cons, Fragment.chunks_nil, List.append_nil]
  exact h.tidy

theorem name (n : String) : Spaced [.name n] := fun _ => .singleton (nameChunk_sound n)

theorem function (n : String) : Spaced [.function n] := by
  intro hplain
  rw [Fragment.chunks_cons, Fragment.chunks_nil, List.append_nil]
  exact functionChunks_tidy (hplain n List.mem_cons_self)

theorem parameter (p : Parameter) : Spaced [.parameter p] := by
  intro _
  rw [Fragment.chunks_cons, Fragment.chunks_nil, List.append_nil]
  exact parameter_tidy p

theorem append (hf : Spaced f) (hg : Spaced g)
    (h : Closes (Fragment.chunks f) ∨ Opens (Fragment.chunks g)) : Spaced (f ++ g) := by
  intro hplain
  rw [Fragment.chunks_append]
  exact (hf fun n hn => hplain n (List.mem_append_left g hn)).append
    (hg fun n hn => hplain n (List.mem_append_right f hn)) h

/-- A text that ends in a gap, before anything. -/
theorem behind {s : String} (hg : Spaced g) (h : TidyText s ∧ closesGap s = true) :
    Spaced (.text s :: g) :=
  (text h.1).append hg (.inl (by simpa [Piece.chunks] using closes_text h.2))

theorem follow (hf : Spaced f) (hg : Follows g) : Spaced (f ++ g) := hf.append hg.spaced (.inr hg.opens)

end Spaced

namespace Follows

variable {f g : Fragment}

theorem nil : Follows [] := ⟨.nil, nofun⟩

/-- A text with gaps on both sides, before anything. -/
theorem text {s : String} (hg : Spaced g) (h : TidyText s ∧ closesGap s = true)
    (ho : opensGap s = true) : Follows (.text s :: g) :=
  ⟨hg.behind h, opens_text ho _⟩

/-- A text with a gap before it, at the end or before what may follow anything. -/
theorem word {s : String} (hg : Follows g) (h : TidyText s) (ho : opensGap s = true) :
    Follows (.text s :: g) :=
  ⟨(Spaced.text h).follow hg, opens_text ho _⟩

theorem append (hf : Follows f) (hg : Follows g) : Follows (f ++ g) := by
  refine ⟨hf.spaced.follow hg, ?_⟩
  rw [Fragment.chunks_append]
  exact hf.opens.append hg.opens

end Follows

theorem Spaced.joined {s : String} {fs : List Fragment} (hfs : ∀ f ∈ fs, Spaced f)
    (h : TidyText s ∧ closesGap s = true) (ho : opensGap s = true) : Spaced (Sql.joined s fs) := by
  induction fs with
  | nil => exact .nil
  | cons f fs ih =>
    cases fs with
    | nil => exact hfs f List.mem_cons_self
    | cons g fs =>
      have hrest := ih fun f' hf' => hfs f' (List.mem_cons_of_mem f hf')
      exact (hfs f List.mem_cons_self).follow (.text hrest h ho)

theorem Spaced.wrapped {f : Fragment} (hf : Spaced f) (wrap : Bool) : Spaced (Sql.wrapped wrap f) := by
  cases wrap with
  | false => exact hf
  | true => exact (hf.follow (.word .nil (by decide) (by decide))).behind (by decide)

end TypedSql.Sql
