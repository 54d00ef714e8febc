import TypedSql.Proofs.Sql.Spacing
import TypedSql.Proofs.Sql.Whole

/-! Every statement keeps its pieces apart, whatever its names contain. -/
namespace TypedSql.Sql

/-- Texts of items with a text between them. -/
theorem joined_spaced {α : Type} {items : List α} {fs : List Fragment} {s : String}
    (hfs : List.Forall₂ (fun _ f => Spaced f) items fs) (hs : TidyText s ∧ closesGap s = true)
    (ho : opensGap s = true) : Spaced (joined s fs) := by
  refine .joined ?_ hs ho
  induction hfs with
  | nil => exact List.forall_mem_nil _
  | cons hf _ ih => exact List.forall_mem_cons.mpr ⟨hf, ih⟩

theorem separated_spaced {α : Type} {items : List α} {pieces : α → Except Error Fragment} {f : Fragment}
    {s : String} (h : separatedPieces s (items.map pieces) = .ok f)
    (hitems : ∀ i ∈ items, ∀ g, pieces i = .ok g → Spaced g) (hs : TidyText s ∧ closesGap s = true)
    (ho : opensGap s = true) : Spaced f := by
  obtain ⟨fs, hfs, rfl⟩ := separatedPieces_ok h hitems
  exact joined_spaced hfs hs ho

theorem bindPieces_spaced {type : TypeRef} {v : Value} {f : Fragment} (h : bindPieces type v = .ok f) :
    Spaced f := by
  obtain ⟨w, -, rfl⟩ := map_eq_ok.mp h
  exact .parameter _

theorem Table.pieces_spaced (t : Table) : Spaced t.pieces := by
  obtain ⟨name, other | other, members⟩ := t
  · exact .name name
  · exact (Spaced.name name).follow (.text (.name other) (by decide) (by decide))

theorem Column.pieces_spaced (vis : List Column) (c : Column) : Spaced (c.pieces vis) := by
  unfold Column.pieces
  split
  · exact (Spaced.name c.owner).follow (.text (.name c.name) (by decide) (by decide))
  · exact .name c.name

theorem Operator.text_spaced (op : Operator) : Spaced [.text op.text] := by
  cases op <;> exact .text (by decide)

section Clauses

variable {vis : List Column} {f : Fragment}

theorem tables_spaced (tables : List Table) : Spaced (joined ", " (tables.map Table.pieces)) := by
  have hall : List.Forall₂ (fun _ f => Spaced f) tables (tables.map Table.pieces) := by
    rw [List.forall₂_map_right_iff, List.forall₂_same]
    exact fun t _ => t.pieces_spaced
  exact joined_spaced hall (by decide) (by decide)

theorem conjunct_spaced {e : Expr} (he : ∀ f, e.pieces vis = .ok f → Spaced f)
    (h : e.conjunctPieces vis = .ok f) : Spaced f := by
  obtain ⟨g, hg, rfl⟩ := map_eq_ok.mp h
  exact (he g hg).wrapped _

theorem wherePieces_follows {filters : List Expr}
    (hfilters : ∀ e ∈ filters, ∀ f, e.pieces vis = .ok f → Spaced f)
    (h : wherePieces (filters.map (Expr.conjunctPieces vis)) = .ok f) : Follows f := by
  cases filters with
  | nil => cases h; exact .nil
  | cons e es =>
    obtain ⟨g, hg, rfl⟩ := map_eq_ok.mp h
    exact .text (separated_spaced hg (fun e he g hg => conjunct_spaced (hfilters e he) hg)
      (by decide) (by decide)) (by decide) (by decide)

theorem orderPieces_follows {sorting : List SortTerm}
    (hsorting : ∀ t ∈ sorting, ∀ f, t.expr.pieces vis = .ok f → Spaced f)
    (h : orderPieces (sorting.map (SortTerm.pieces vis)) = .ok f) : Follows f := by
  cases sorting with
  | nil => cases h; exact .nil
  | cons t ts =>
    obtain ⟨g, hg, rfl⟩ := map_eq_ok.mp h
    refine .text (separated_spaced hg (fun t ht g hg => ?_) (by decide) (by decide)) (by decide) (by decide)
    obtain ⟨e, he, rfl⟩ := map_eq_ok.mp hg
    unfold sortPieces
    split
    · exact (hsorting t ht e he).follow (.word .nil (by decide) (by decide))
    · exact (hsorting t ht e he).follow .nil

theorem lockPieces_follows (lock : Option Lock) : Follows (lockPieces lock) := by
  rcases lock with _ | _ | _
  · exact .nil
  · exact .word .nil (by decide) (by decide)
  · exact .word .nil (by decide) (by decide)

theorem limitPieces_follows {limit : Option Int64} (h : limitPieces limit = .ok f) : Follows f := by
  cases limit with
  | none => cases h; exact .nil
  | some n =>
    obtain ⟨g, hg, rfl⟩ := map_eq_ok.mp h
    exact .text (bindPieces_spaced hg) (by decide) (by decide)

theorem clausePieces_follows {s : Select}
    (hs : s.Each fun e => ∀ f, e.pieces vis = .ok f → Spaced f)
    (h : s.clausePieces vis = .ok f) : Follows f := by
  obtain ⟨filters, sorting, limit, hfilters, hsorting, hlimit, rfl⟩ := Select.clausePieces_ok h
  have hsource : Follows (.text " FROM " :: joined ", " ((s.table :: s.joins).map Table.pieces)) :=
    .text (tables_spaced _) (by decide) (by decide)
  exact (((hsource.append (wherePieces_follows hs.filters hfilters)).append
    (orderPieces_follows hs.sorting hsorting)).append (lockPieces_follows s.lock)).append
      (limitPieces_follows hlimit)

theorem Select.pieces_spaced {s : Select}
    (hs : s.Each fun e => ∀ vis f, e.pieces vis = .ok f → Spaced f)
    (h : s.pieces vis = .ok f) : Spaced f := by
  obtain ⟨-, list, clauses, hlist, hclauses, rfl⟩ := Select.pieces_ok h
  have hinner := hs.imp fun e he => he (inSight (s.table :: s.joins) vis)
  have hspaced : Spaced list := separated_spaced hlist hinner.targets (by decide) (by decide)
  exact (hspaced.follow (clausePieces_follows hinner hclauses)).behind (by decide)

end Clauses

private theorem closed {f : Fragment} (hf : Spaced f) {s : String} (h : TidyText s ∧ closesGap s = true) :
    Spaced (.text s :: f ++ [.text ")"]) :=
  (hf.follow (.word .nil (by decide) (by decide))).behind h

/-- The pieces of a term are kept apart. -/
theorem Expr.pieces_spaced (e : Expr) (vis : List Column) (f : Fragment) (h : e.pieces vis = .ok f) :
    Spaced f := by
  refine Expr.pieces_induction (P := fun _ _ f => Spaced f) ?column ?param ?default ?bool ?call ?binary
    ?not ?nullTest ?within ?subquery ?existence e vis f h
  case column => exact fun c vis => c.pieces_spaced vis
  case param => exact fun v type vis f hf => bindPieces_spaced hf
  case default => exact fun vis => .text (by decide)
  case bool =>
    intro b vis
    cases b <;> exact .text (by decide)
  case call =>
    intro function args vis fs hfs
    have hargs : Spaced (joined ", " fs) := joined_spaced hfs (by decide) (by decide)
    have hinner := hargs.follow (.word .nil (s := ")") (by decide) (by decide))
    exact (Spaced.function function).follow (.text hinner (by decide) (by decide))
  case binary =>
    intro op left right vis f g hf hg
    have hright : Follows (.text " " :: right.operandPieces op.precedence op.chains g) :=
      .text (hg.wrapped _) (by decide) (by decide)
    exact (hf.wrapped _).follow (.text (op.text_spaced.follow hright) (by decide) (by decide))
  case not => exact fun e vis f hf => (hf.wrapped _).behind (by decide)
  case nullTest =>
    intro e negated vis f hf
    have htest : Follows [.text (if negated then " IS NOT NULL" else " IS NULL")] := by
      cases negated <;> exact .word .nil (by decide) (by decide)
    exact (hf.wrapped _).follow htest
  case within =>
    intro e values element array vis f g _ hf hg
    have hany : Follows (.text " = ANY(" :: g) := .text (bindPieces_spaced hg) (by decide) (by decide)
    exact ((hf.wrapped _).follow hany).follow (.word .nil (by decide) (by decide))
  case subquery => exact fun s vis f ih hf => closed (Select.pieces_spaced ih hf) (by decide)
  case existence => exact fun s vis f ih hf => closed (Select.pieces_spaced ih hf) (by decide)

section Statements

variable {vis : List Column} {f : Fragment}

private theorem named_spaced {f : Fragment} (hf : Spaced f) (index : Nat) :
    Spaced (namedPieces f index) := by
  have hname : Spaced [.text (Scope.outputName index)] := by
    have hword : Chunk.isWord (Scope.outputName index).toList = true := by
      have hdigits : (Nat.toDigits 10 index).all isWordChar = true :=
        List.all_eq_true.mpr fun c hc => by simp [isWordChar, Word.outputName_digits hc]
      have hstart : isWordStart '_' = true := by decide
      rw [Word.outputName_toList, Chunk.isWord, hstart, hdigits]
      rfl
    have hchunks : textChunks (Scope.outputName index) = [.plain (Scope.outputName index).toList] := by
      rw [textChunks, Word.runs_outputName]
      rfl
    refine .text ⟨?_, ?_⟩ <;> rw [hchunks]
    · simp [Chunk.sound, hword]
    · exact List.isChain_singleton _
  exact hf.follow (.text hname (by decide) (by decide))

private theorem listRest_follows {fs : List Fragment} (hfs : ∀ f ∈ fs, Spaced f) (index : Nat) :
    Follows (listRest index fs) := by
  induction fs generalizing index with
  | nil => exact .nil
  | cons f fs ih =>
    have hrest := ih (fun g hg => hfs g (List.mem_cons_of_mem f hg)) (index + 1)
    have hnamed := named_spaced (hfs f List.mem_cons_self) index
    exact .text (hnamed.follow hrest) (by decide) (by decide)

theorem Target.listed_spaced {targets : List Target} {l : Listed}
    (h : Target.listed vis targets = .ok l) : Spaced l.1 := by
  obtain ⟨es, hes, rfl⟩ := map_eq_ok.mp h
  have hfs : ∀ f ∈ (Target.kept [] es).map Prod.snd, Spaced f := by
    intro f hf
    obtain ⟨e, he, rfl⟩ := List.mem_map.mp hf
    exact e.1.expr.pieces_spaced vis e.2 (Target.entries_mem hes (Target.kept_subset [] es he)).2
  generalize (Target.kept [] es).map Prod.snd = fs at hfs
  cases fs with
  | nil => exact .nil
  | cons f fs =>
    exact (named_spaced (hfs f List.mem_cons_self) 0).follow
      (listRest_follows (fun g hg => hfs g (List.mem_cons_of_mem f hg)) 1)

private theorem returning_follows {targets : List Target} {l : Listed}
    (h : returningPieces vis targets = .ok l) : Follows l.1 := by
  unfold returningPieces at h
  split at h
  · cases h
    exact .nil
  · obtain ⟨l, hl, rfl⟩ := map_eq_ok.mp h
    exact .text (Target.listed_spaced hl) (by decide) (by decide)

private theorem names_spaced {columns : List Column} (h : namesPieces columns = .ok f) : Spaced f :=
  separated_spaced h (fun c _ g hg => by cases hg; exact .name c.name) (by decide) (by decide)

private theorem assignments_spaced {assignments : List Assignment}
    (h : assignmentsPieces vis assignments = .ok f) : Spaced f := by
  refine separated_spaced h (fun a _ g hg => ?_) (by decide) (by decide)
  obtain ⟨e, he, rfl⟩ := map_eq_ok.mp hg
  exact (Spaced.name a.column.name).follow (.text (a.expr.pieces_spaced vis e he) (by decide) (by decide))

private theorem filters_follow {filters : List Expr} (h : filtersPieces vis filters = .ok f) : Follows f :=
  wherePieces_follows (fun e _ => e.pieces_spaced vis) h

private theorem sources_follow {word : String} {sources : List Table}
    (hw : TidyText word ∧ closesGap word = true)
    (ho : opensGap word = true) (h : sourcesPieces word sources = .ok f) : Follows f := by
  unfold sourcesPieces at h
  split at h
  · cases h
    exact .nil
  · obtain ⟨g, hg, rfl⟩ := map_eq_ok.mp h
    rw [tablesPieces_ok hg]
    exact .text (tables_spaced sources) hw ho

private theorem row_spaced {columns : List Column} {row : List Assignment}
    (h : rowPieces vis columns row = .ok f) : Spaced f := by
  obtain ⟨g, hg, rfl⟩ := map_eq_ok.mp h
  have hseparated := separated_spaced hg (fun c _ => Expr.pieces_spaced _ vis) (by decide) (by decide)
  exact closed hseparated (by decide)

private theorem target_follows {c : OnConflict} (h : c.targetPieces = .ok f) : Follows f := by
  unfold OnConflict.targetPieces at h
  split at h
  · cases h
    exact .nil
  · obtain ⟨g, hg, rfl⟩ := map_eq_ok.mp h
    have hinner := (names_spaced hg).follow (.word .nil (s := ")") (by decide) (by decide))
    exact .text hinner (by decide) (by decide)

private theorem action_follows {t : Table} {action : ConflictAction} (h : action.pieces vis t = .ok f) :
    Follows f := by
  cases action with
  | nothing =>
    cases h
    exact .word .nil (by decide) (by decide)
  | update assignments filters =>
    obtain ⟨g, hg, h⟩ := bind_eq_ok.mp h
    obtain ⟨g', hg', h⟩ := bind_eq_ok.mp h
    cases h
    exact .text ((assignments_spaced hg).follow (filters_follow hg')) (by decide) (by decide)

private theorem conflict_follows {t : Table} {conflict : Option OnConflict}
    (h : conflictPieces vis t conflict = .ok f) : Follows f := by
  cases conflict with
  | none => cases h; exact .nil
  | some c =>
    obtain ⟨-, target, action, htarget, haction, rfl⟩ := OnConflict.pieces_ok h
    exact (Follows.word (target_follows htarget) (by decide) (by decide)).append (action_follows haction)

private theorem Insert.listed_spaced {i : Insert} {l : Listed} (h : i.listed = .ok l) : Spaced l.1 := by
  obtain ⟨-, names, rows, conflict, returning, hnames, hrows, hconflict, hreturning, rfl⟩ :=
    Insert.listed_ok h
  have hr : Spaced rows :=
    separated_spaced hrows (fun row _ g hg => row_spaced hg) (by decide) (by decide)
  have hvalues := hr.follow ((conflict_follows hconflict).append (returning_follows hreturning))
  have hcolumns := (names_spaced hnames).follow (.text (s := ") VALUES ") hvalues (by decide) (by decide))
  have htable := i.table.pieces_spaced.follow (.text (s := "(") hcolumns (by decide) (by decide))
  have hall : Spaced (.text "INSERT INTO " :: _) := htable.behind (by decide)
  simpa [Listed.behind] using hall

private theorem Update.listed_spaced {u : Update} {l : Listed} (h : u.listed = .ok l) : Spaced l.1 := by
  obtain ⟨-, assignments, sources, filters, returning, hassignments, hsources, hfilters, hreturning, rfl⟩ :=
    Update.listed_ok h
  have hclauses := ((sources_follow (by decide) (by decide) hsources).append
    (filters_follow hfilters)).append (returning_follows hreturning)
  have hset := (assignments_spaced hassignments).follow hclauses
  have htable := u.table.pieces_spaced.follow (.text (s := " SET ") hset (by decide) (by decide))
  have hall : Spaced (.text "UPDATE " :: _) := htable.behind (by decide)
  simpa [Listed.behind] using hall

private theorem Delete.listed_spaced {d : Delete} {l : Listed} (h : d.listed = .ok l) : Spaced l.1 := by
  obtain ⟨-, sources, filters, returning, hsources, hfilters, hreturning, rfl⟩ := Delete.listed_ok h
  have hclauses := ((sources_follow (by decide) (by decide) hsources).append
    (filters_follow hfilters)).append (returning_follows hreturning)
  have hall : Spaced (.text "DELETE FROM " :: _) :=
    (d.table.pieces_spaced.follow hclauses).behind (by decide)
  simpa [Listed.behind] using hall

private theorem Select.listed_spaced {s : Select} {l : Listed} (h : s.listed [] = .ok l) : Spaced l.1 := by
  obtain ⟨-, list, clauses, hlist, hclauses, rfl⟩ := Select.listed_ok h
  have hfollows := clausePieces_follows (.of_all fun e => e.pieces_spaced _) hclauses
  exact ((Target.listed_spaced hlist).follow hfollows).behind (by decide)

/-- The pieces of a statement are kept apart, whatever its tables, columns and types are called. -/
theorem Statement.listed_spaced {s : Statement} {l : Listed} (h : s.listed = .ok l) : Spaced l.1 := by
  cases s with
  | select s => exact Select.listed_spaced h
  | insert i => exact Insert.listed_spaced h
  | update u => exact Update.listed_spaced h
  | delete d => exact Delete.listed_spaced h

end Statements

end TypedSql.Sql
