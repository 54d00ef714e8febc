import TypedSql.Proofs.Sql.Binding
import TypedSql.Proofs.Sql.Layout

/-! The text of a statement with its placeholders numbered, and the parameters the numbers refer to. -/
namespace TypedSql.Sql

/-- A placeholder of any spelling, within a cast to the type of its parameter where the type needs one. -/
def Parameter.markWith (p : Parameter) (placeholder : String) : String :=
  if p.type.needsCast then "CAST(" ++ placeholder ++ " AS " ++ castType p.type.descriptor ++ ")"
  else placeholder

/-- The text with the k-th placeholder spelled as `mark k`, the first one counted as `k`. -/
def Fragment.sqlWith (mark : Nat → String) (k : Nat) : Fragment → String
  | [] => ""
  | .parameter p :: rest => p.markWith (mark k) ++ Fragment.sqlWith mark (k + 1) rest
  | p :: rest => p.sql ++ Fragment.sqlWith mark k rest

theorem Fragment.sql_eq (f : Fragment) (k : Nat) : f.sql = f.sqlWith (fun _ => "?") k := by
  induction f generalizing k with
  | nil => rfl
  | cons p f ih =>
    have hsql : Fragment.sql (p :: f) = p.sql ++ Fragment.sql f := by simp [sql, String.join_cons]
    rw [hsql]
    cases p with
    | parameter p =>
      have hmark : (Piece.parameter p).sql = p.markWith "?" := by
        simp only [Piece.sql, Parameter.mark, Parameter.markWith]
        have hopen : "CAST(" ++ "?" ++ " AS " = "CAST(? AS " := by decide
        rw [hopen]
      rw [sqlWith, ih (k + 1), hmark]
    | _ => rw [sqlWith, ih k]; simp

private theorem numberedText_plain {a : List Chunk} (h : Chunk.mark ∉ a) (k : Nat) (b : List Chunk) :
    numberedText k (a ++ b) = chunksText a ++ numberedText k b := by
  induction a with
  | nil => rfl
  | cons c a ih =>
    obtain ⟨hc, ha⟩ : Chunk.mark ≠ c ∧ Chunk.mark ∉ a := by simpa using h
    rw [List.cons_append, numberedText.eq_3 k c _ hc.symm, ih ha, chunksText_cons, List.append_assoc]

private theorem mark_notMem_plain (runs : List (List Char)) : Chunk.mark ∉ runs.map .plain := by
  simp

private theorem nameChunk_ne_mark (name : String) : Chunk.mark ≠ nameChunk name := by
  unfold nameChunk
  split <;> nofun

private theorem mark_notMem_type (d : TypeDescriptor) : Chunk.mark ∉ typeChunks d := by
  fun_induction typeChunks d with
  | case1 _ _ _ _ element _ _ ih => simpa using ih
  | case2 _ name => simpa using nameChunk_ne_mark name

private theorem numberedText_parameter (p : Parameter) (k : Nat) (b : List Chunk) :
    numberedText k ((Piece.parameter p).chunks ++ b) =
      (p.markWith ("$" ++ toString (k + 1))).toList ++ numberedText (k + 1) b := by
  have hnumber : ("$" ++ toString (k + 1)).toList = numberText (k + 1) := by
    simp [numberText]
  by_cases hc : p.type.needsCast
  · have hchunks : (Piece.parameter p).chunks ++ b = textChunks "CAST(" ++ (.mark ::
        (textChunks " AS " ++ (typeChunks p.type.descriptor ++ (textChunks ")" ++ b)))) := by
      simp [Piece.chunks, hc]
    have htext (s : String) : Chunk.mark ∉ textChunks s := mark_notMem_plain _
    rw [hchunks, numberedText_plain (htext _), numberedText, numberedText_plain (htext _),
      numberedText_plain (mark_notMem_type _), numberedText_plain (htext _), ← hnumber,
      Parameter.markWith, if_pos hc]
    simp [chunksText_text, typeChunks_text]
  · have hchunks : (Piece.parameter p).chunks ++ b = .mark :: b := by simp [Piece.chunks, hc]
    rw [hchunks, numberedText, ← hnumber, Parameter.markWith, if_neg hc]

/-- The numbered text of the chunks of some pieces. -/
theorem Fragment.numberedText_eq (f : Fragment) (k : Nat) :
    String.ofList (numberedText k f.chunks) = f.sqlWith (fun k => "$" ++ toString k) (k + 1) := by
  have hlist : numberedText k f.chunks = (f.sqlWith (fun k => "$" ++ toString k) (k + 1)).toList := by
    induction f generalizing k with
    | nil => rfl
    | cons p f ih =>
      rw [chunks_cons]
      cases p with
      | parameter p => rw [numberedText_parameter, ih, sqlWith, String.toList_append]
      | text s =>
        rw [sqlWith, String.toList_append, ← Piece.chunks_text, ← ih]
        · exact numberedText_plain (mark_notMem_plain _) k _
        · simp
      | name n =>
        rw [sqlWith, String.toList_append, ← Piece.chunks_text, ← ih]
        · exact numberedText_plain (by simpa [Piece.chunks] using nameChunk_ne_mark n) k _
        · simp
      | function n =>
        rw [sqlWith, String.toList_append, ← Piece.chunks_text, ← ih]
        · exact numberedText_plain (mark_notMem_plain _) k _
        · simp
  rw [hlist, String.ofList_toList]

/-- A rendered statement numbers its placeholders in the order of its text and changes nothing else of
it, if its functions have plain names; its parameters are the values it binds, clause by clause, entries
that share an output left out, each in the protocol form of its type. -/
theorem Statement.numbered_render (s : Statement) (r : Rendered) (h : s.render = .ok r)
    (hplain : ∀ name, Piece.function name ∈ r.body → plainFunction name = true) :
    (∃ outputs, s.listed = .ok (r.body, outputs)) ∧
      r.sql = r.body.sqlWith (fun _ => "?") 1 ∧
      r.numberedSql = .ok (r.body.sqlWith (fun k => "$" ++ toString k) 1) ∧
      List.Forall₂ Binding.Becomes s.bindings r.params := by
  rw [s.render_eq] at h
  obtain ⟨l, hl, rfl⟩ := map_eq_ok.mp h
  refine ⟨⟨l.2, hl⟩, l.1.sql_eq 1, ?_, Statement.listed_bind hl⟩
  have htidy := Statement.listed_spaced hl hplain
  have hnumber := htidy.numberPlaceholders_eq
  rw [Fragment.numberedText_eq, Fragment.chunks_text, String.ofList_toList] at hnumber
  exact hnumber

/-- A table whose name holds a question mark and a numbered parameter. -/
theorem Statement.numbered_render_delete :
    let c : Column := ⟨"a? $1", "n", limitType⟩
    let s : Statement := .delete ⟨.ofColumns "a? $1" [("n", limitType)], [],
      [.binary .eq (.call "pg_catalog.abs" [.column c]) (.value c (.scalar (.int64 3)))], []⟩
    ∃ r, s.render = .ok r ∧
      r.numberedSql = .ok "DELETE FROM \"a? $1\" WHERE pg_catalog.abs(n) = $1" := by
  intro c s
  have hrender : s.render = .ok ⟨.delete, [.text "DELETE FROM ", .name "a? $1", .text " WHERE ",
      .function "pg_catalog.abs", .text "(", .name "n", .text ")", .text " ", .text "=", .text " ",
      .parameter ⟨_, limitType⟩], []⟩ := rfl
  have hnumbered := Statement.numbered_render s _ hrender (by simp; decide)
  exact ⟨_, hrender, hnumbered.2.2.1.trans (by decide)⟩

end TypedSql.Sql
