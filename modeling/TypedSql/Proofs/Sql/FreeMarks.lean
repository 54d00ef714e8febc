import TypedSql.Proofs.Sql.Marks
import TypedSql.Proofs.Sql.Scanning

/-! In which texts numbering finds every free question mark: where the tokenizer, which takes in the
character behind a placeholder, is back in step before the next one. -/
namespace TypedSql.Sql
open Text

/-- Characters one by one. -/
def plains (s : List Char) : List Chunk := s.map fun c => .plain [c]

/-- The characters of a part, the question mark that a placeholder starts with as a mark. -/
def Part.chunks (p : Part) : List Chunk :=
  if p.token = .placeholder then .mark :: plains p.text.tail else plains p.text

/-- A text cut into parts, its placeholders marked. -/
def marked (parts : List Part) : List Chunk := parts.flatMap Part.chunks

/-- The tokens of parts that start at `l`. -/
def lexed (l : Location) : List Part → List Lexeme
  | [] => []
  | p :: rest => ⟨p.token, l⟩ :: lexed (l.advanceAll p.text) rest

@[simp] theorem plains_nil : plains [] = [] := rfl

@[simp] theorem plains_cons (c : Char) (s : List Char) : plains (c :: s) = .plain [c] :: plains s := rfl

@[simp] theorem plains_append (s s' : List Char) : plains (s ++ s') = plains s ++ plains s' :=
  List.map_append

@[simp] theorem marked_cons (p : Part) (parts : List Part) : marked (p :: parts) = p.chunks ++ marked parts :=
  rfl

@[simp] theorem marked_append (a b : List Part) : marked (a ++ b) = marked a ++ marked b :=
  List.flatMap_append

theorem marked_plain {parts : List Part} (h : ∀ p ∈ parts, p.token ≠ .placeholder) :
    marked parts = plains (partsText parts) := by
  induction parts with
  | nil => rfl
  | cons p parts ih =>
    obtain ⟨hp, hparts⟩ := List.forall_mem_cons.mp h
    rw [marked_cons, ih hparts, Part.chunks, if_neg hp, partsText_cons, plains_append]

theorem Part.Sound.mark {p : Part} (h : p.Sound) (hp : p.token = .placeholder) :
    p.text = '?' :: p.text.tail := by
  simp only [Part.Sound, hp] at h
  obtain ⟨s, hs, -⟩ := h
  rw [hs, List.tail_cons]

theorem chunksText_plains (s : List Char) : chunksText (plains s) = s := by
  induction s with
  | nil => rfl
  | cons c s ih => rw [plains_cons, chunksText_cons, ih, Chunk.text, List.singleton_append]

theorem chunksText_marked {parts : List Part} (h : ∀ p ∈ parts, p.Sound) :
    chunksText (marked parts) = partsText parts := by
  induction parts with
  | nil => rfl
  | cons p parts ih =>
    obtain ⟨hp, hparts⟩ := List.forall_mem_cons.mp h
    have happend : chunksText (marked (p :: parts)) = chunksText p.chunks ++ chunksText (marked parts) :=
      List.flatMap_append
    rw [happend, ih hparts, partsText_cons]
    by_cases htoken : p.token = .placeholder
    · rw [Part.chunks, if_pos htoken, chunksText_cons, chunksText_plains, hp.mark htoken]
      rfl
    · rw [Part.chunks, if_neg htoken, chunksText_plains]

section Numbering

private theorem marksAt_plains (l : Location) (s : List Char) (rest : List Chunk) :
    marksAt l (plains s ++ rest) = marksAt (l.advanceAll s) rest := by
  induction s generalizing l with
  | nil => rfl
  | cons c s ih => exact ih (l.advance c)

private theorem lexed_tokens (l : Location) (parts : List Part) :
    (lexed l parts).map Lexeme.token = parts.map Part.token := by
  induction parts generalizing l with
  | nil => rfl
  | cons p parts ih => rw [lexed, List.map_cons, List.map_cons, ih]

private theorem lexed_placeholders {parts : List Part} (h : ∀ p ∈ parts, p.Sound) (l : Location) :
    (lexed l parts).filter (fun x => x.token = .placeholder) = marksAt l (marked parts) := by
  induction parts generalizing l with
  | nil => rfl
  | cons p parts ih =>
    obtain ⟨hp, hparts⟩ := List.forall_mem_cons.mp h
    rw [lexed, marked_cons, Part.chunks]
    by_cases htoken : p.token = .placeholder
    · have hplace : l.advanceAll p.text = (l.advance '?').advanceAll p.text.tail := by
        conv_lhs => rw [hp.mark htoken]
        rfl
      rw [List.filter_cons_of_pos (by simp [htoken]), ih hparts, if_pos htoken, List.cons_append, marksAt,
        marksAt_plains, htoken, hplace]
    · rw [List.filter_cons_of_neg (by simp [htoken]), ih hparts, if_neg htoken, marksAt_plains]

private theorem lexemesFrom_cuts {parts : List Part} (h : Cuts scan [] parts) (l : Location) :
    lexemesFrom l 0 (partsText parts) = .ok (lexed l parts) := by
  induction h generalizing l with
  | nil => rfl
  | cons hscan _ ih =>
    rw [List.append_nil] at hscan
    exact (lexemesFrom_scan hscan l).trans (by rw [ih]; rfl)

private theorem cuts_of_lexemesFrom {text : List Char} {tokens : List Lexeme} {l : Location}
    (h : lexemesFrom l 0 text = .ok tokens) :
    ∃ parts, partsText parts = text ∧ Cuts scan [] parts ∧ lexed l parts = tokens := by
  induction hlength : text.length using Nat.strong_induction_on generalizing text tokens l with
  | h n ih =>
    cases text with
    | nil =>
      cases h
      exact ⟨[], rfl, .nil, rfl⟩
    | cons c rest =>
      cases hscan : scan c rest with
      | error fault => simp [lexemesFrom, hscan] at h
      | ok found =>
        obtain ⟨token, after⟩ := found
        obtain ⟨s, rfl, -⟩ := scan_takes hscan
        rw [← List.cons_append, lexemesFrom_scan hscan] at h
        obtain ⟨later, hlater, rfl⟩ := map_eq_ok.mp h
        have hshorter : after.length < n := by
          rw [← hlength, List.length_cons, List.length_append]
          omega
        obtain ⟨parts, rfl, hparts, rfl⟩ := ih _ hshorter hlater rfl
        refine ⟨⟨token, c :: s⟩ :: parts, rfl, .cons ?_ hparts, rfl⟩
        rwa [List.append_nil]

/-- Numbering replaces the question mark at the head of each placeholder that the tokenizer cuts and
changes nothing else. -/
theorem numberPlaceholders_cuts {own : List Part} (h : Cuts scan [] own)
    (hnumbered : ∀ tag, isNumbered tag = true → .parameter tag ∉ own.map Part.token) :
    numberPlaceholders (String.ofList (partsText own)) = .ok (String.ofList (numberedText 0 (marked own))) := by
  have hlexemes : lexemes (partsText own) = .ok (lexed .start own) := lexemesFrom_cuts h .start
  have hidle : ∀ x ∈ lexed .start own, decide (x.token = .placeholder) = false → x.token.isIdle = true := by
    intro x hx hplaceholder
    have hmem : x.token ∈ own.map Part.token := lexed_tokens .start own ▸ List.mem_map_of_mem hx
    cases htoken : x.token with
    | placeholder => simp [htoken] at hplaceholder
    | parameter tag =>
      rw [htoken] at hmem
      simpa [Token.isIdle] using fun htag => hnumbered tag htag hmem
    | _ => rfl
  have hnumber : numberLexemes (partsText own) (lexed .start own) = .ok (numberedText 0 (marked own)) := by
    rw [numberLexemes, numberFrom_filter _ _ _ _ _ hidle, lexed_placeholders h.sound,
      ← chunksText_marked h.sound]
    exact numberFrom_marksAt (marked own) [] [] 0
  simp only [numberPlaceholders, String.toList_ofList, hlexemes, hnumber]

end Numbering

section Marking

/-- Chunks of one character each. -/
def Spelled (chunks : List Chunk) : Prop := ∀ c ∈ chunks, c = .mark ∨ ∃ d, c = .plain [d]

theorem marked_spelled (parts : List Part) : Spelled (marked parts) := by
  intro c hc
  obtain ⟨p, -, hp⟩ := List.mem_flatMap.mp hc
  have hplains (s : List Char) (h : c ∈ plains s) : ∃ d, c = .plain [d] := by
    obtain ⟨d, -, rfl⟩ := List.mem_map.mp h
    exact ⟨d, rfl⟩
  unfold Part.chunks at hp
  split at hp
  · exact (List.mem_cons.mp hp).imp_right (hplains _)
  · exact .inr (hplains _ hp)

/-- What is numbered has no numbered parameter. -/
private theorem unnumbered_of_numberFrom {text out rest : List Char} {starts : List Nat} {cursor count : Nat}
    {tokens : List Lexeme} (h : numberFrom text starts cursor count rest tokens = .ok out) {tag : String}
    (htag : isNumbered tag = true) : .parameter tag ∉ tokens.map Lexeme.token := by
  induction tokens generalizing cursor count rest out with
  | nil => exact List.not_mem_nil
  | cons x tokens ih =>
    obtain ⟨token, start⟩ := x
    rw [List.map_cons, List.mem_cons, not_or]
    cases token with
    | placeholder =>
      rw [numberFrom] at h
      split at h
      case h_1 => cases h
      case h_2 =>
        obtain ⟨copied, hcopied, -⟩ := map_eq_ok.mp h
        exact ⟨by simp, ih hcopied⟩
    | parameter t =>
      rw [numberFrom] at h
      split_ifs at h with ht
      refine ⟨?_, ih h⟩
      rintro ⟨⟩
      exact ht htag
    | _ => exact ⟨by simp, ih h⟩

/-- A text that is numbered has some of its question marks replaced by the numbers from 1 on, and nothing else. -/
theorem numberPlaceholders_spelled {sql numbered : String} (h : numberPlaceholders sql = .ok numbered) :
    ∃ chunks, Spelled chunks ∧ chunksText chunks = sql.toList ∧ numberedText 0 chunks = numbered.toList := by
  cases htokens : lexemes sql.toList with
  | error fault => simp [numberPlaceholders, htokens] at h
  | ok tokens =>
    cases hnumber : numberLexemes sql.toList tokens with
    | error problem => simp [numberPlaceholders, htokens, hnumber] at h
    | ok text =>
      obtain ⟨own, hown, hcuts, rfl⟩ := cuts_of_lexemesFrom htokens
      have hcut := numberPlaceholders_cuts hcuts fun tag htag => by
        rw [← lexed_tokens .start own]
        exact unnumbered_of_numberFrom hnumber htag
      rw [hown, String.ofList_toList, h] at hcut
      refine ⟨marked own, marked_spelled own, (chunksText_marked hcuts.sound).trans hown, ?_⟩
      rw [Except.ok.inj hcut, String.toList_ofList]

/-- A dollar sign stands where a question mark did, so the numbered text tells what was marked. -/
theorem numberedText_injective {a b : List Chunk} (ha : Spelled a) (hb : Spelled b)
    (htext : chunksText a = chunksText b) {count : Nat} (h : numberedText count a = numberedText count b) :
    a = b := by
  induction a generalizing b count with
  | nil =>
    cases b with
    | nil => rfl
    | cons d b =>
      obtain rfl | ⟨e, rfl⟩ := hb d List.mem_cons_self <;> cases htext
  | cons c a ih =>
    obtain ⟨hc, ha'⟩ := List.forall_mem_cons.mp ha
    cases b with
    | nil => obtain rfl | ⟨e, rfl⟩ := hc <;> cases htext
    | cons d b =>
      obtain ⟨hd, hb'⟩ := List.forall_mem_cons.mp hb
      rcases hc with rfl | ⟨c, rfl⟩ <;> rcases hd with rfl | ⟨d, rfl⟩
      · rw [numberedText, numberedText] at h
        rw [ih ha' hb' (List.cons.inj htext).2 (List.append_cancel_left h)]
      · obtain ⟨rfl, -⟩ : '?' = d ∧ _ := List.cons.inj htext
        cases (List.cons.inj h).1
      · obtain ⟨rfl, -⟩ : c = '?' ∧ _ := List.cons.inj htext
        cases (List.cons.inj h).1
      · obtain ⟨rfl, hrest⟩ : c = d ∧ _ := List.cons.inj htext
        rw [ih ha' hb' hrest (List.cons.inj h).2]

/-- Plain text up to the first mark or the end. -/
theorem plains_append_inj {s s' : List Char} {a b : List Chunk} (ha : ∀ c ∈ a.head?, c = .mark)
    (hb : ∀ c ∈ b.head?, c = .mark) (h : plains s ++ a = plains s' ++ b) : s = s' ∧ a = b := by
  induction s generalizing s' with
  | nil =>
    cases s' with
    | nil => exact ⟨rfl, h⟩
    | cons d s' =>
      obtain rfl : a = .plain [d] :: (plains s' ++ b) := h
      cases ha _ rfl
  | cons c s ih =>
    cases s' with
    | nil =>
      obtain rfl : .plain [c] :: (plains s ++ a) = b := h
      cases hb _ rfl
    | cons d s' =>
      obtain ⟨hcd, hrest⟩ := List.cons.inj h
      cases hcd
      exact (ih hrest).imp_left (congrArg _)

end Marking

/-- Behind each placeholder the tokenizer, one character short, is back in step before the next one, and
has taken nothing for a placeholder on the way. -/
inductive Rejoins : List Part → Prop
  | nil : Rejoins []
  | skip {p : Part} {rest : List Part} (hp : p.token ≠ .placeholder) (hrest : Rejoins rest) : Rejoins (p :: rest)
  | mark {p : Part} {skipped aside rest : List Part} (hp : p.token = .placeholder)
      (hskipped : ∀ q ∈ skipped, q.token ≠ .placeholder) (haside : ∀ q ∈ aside, q.token ≠ .placeholder)
      (htext : partsText aside ++ partsText rest = (partsText (skipped ++ rest)).drop 1)
      (hcuts : Cuts scan (partsText rest) aside) (hrest : Rejoins rest) : Rejoins (p :: (skipped ++ rest))

section Steps

variable {free own : List Part}

/-- Parts are plain text up to the first placeholder. -/
private theorem marked_split (parts : List Part) :
    ∃ skipped rest, parts = skipped ++ rest ∧ (∀ p ∈ skipped, p.token ≠ .placeholder) ∧
      ∀ c ∈ (marked rest).head?, c = .mark := by
  induction parts with
  | nil => exact ⟨[], [], rfl, nofun, nofun⟩
  | cons p parts ih =>
    by_cases hp : p.token = .placeholder
    · refine ⟨[], p :: parts, rfl, nofun, ?_⟩
      rw [marked_cons, Part.chunks, if_pos hp]
      intro c hc
      cases hc
      rfl
    · obtain ⟨skipped, rest, rfl, hskipped, hrest⟩ := ih
      exact ⟨p :: skipped, rest, rfl, List.forall_mem_cons.mpr ⟨hp, hskipped⟩, hrest⟩

/-- What the tokenizer cuts is put together from the placeholders with a character each and what is read
on the way back into step. -/
private theorem own_of_rejoins (h : Rejoins free) (hfree : Cuts scanAlone [] free) :
    ∃ own, partsText own = partsText free ∧ Cuts scan [] own ∧ marked own = marked free := by
  induction h with
  | nil => exact ⟨[], rfl, .nil, rfl⟩
  | skip hp _ ih =>
    cases hfree with
    | cons hscan hrest =>
      obtain ⟨own, htext, hown, hmarked⟩ := ih hrest
      rw [← htext] at hscan
      refine ⟨_ :: own, ?_, .cons ((scanAlone_eq hp).mp hscan) hown, ?_⟩
      · rw [partsText_cons, partsText_cons, htext]
      · rw [marked_cons, marked_cons, hmarked]
  | @mark _ skipped aside rest hp hskipped haside htext hcuts _ ih =>
    cases hfree with
    | @cons _ _ token _ hscan hparts =>
      obtain rfl : token = .placeholder := hp
      obtain ⟨rfl, hs, htaken⟩ := scanAlone_placeholder hscan
      obtain ⟨own, hown, hcut, hmarked⟩ := ih (Cuts.append.mp hparts).2
      rw [List.append_nil] at hs htaken
      obtain rfl := List.self_eq_append_left.mp hs
      let behind := partsText (skipped ++ rest)
      have hbehind : partsText (aside ++ own) = behind.drop 1 := by rw [partsText_append, hown, htext]
      have hplain : behind.take 1 ++ partsText aside = partsText skipped := by
        have hwhole : behind.take 1 ++ partsText aside ++ partsText rest = partsText skipped ++ partsText rest := by
          rw [List.append_assoc, htext, List.take_append_drop]
          exact partsText_append skipped rest
        exact List.append_cancel_right hwhole
      refine ⟨⟨.placeholder, '?' :: behind.take 1⟩ :: (aside ++ own), ?_, .cons ?_ ?_, ?_⟩
      · rw [partsText_cons, partsText_cons, hbehind, List.cons_append, List.take_append_drop]
        rfl
      · rw [List.append_nil, hbehind, List.take_append_drop]
        exact htaken
      · refine Cuts.append.mpr ⟨?_, hcut⟩
        rwa [hown, List.append_nil]
      · rw [marked_cons, marked_cons, marked_append, marked_append, marked_plain haside, marked_plain hskipped,
          hmarked, ← hplain, plains_append, List.append_assoc]
        rfl

/-- Both ways of cutting start a part at each mark, so where the marks are the same they meet there. -/
private theorem rejoins_of_marked (hfree : Cuts scanAlone [] free) (hown : Cuts scan [] own)
    (htext : partsText own = partsText free) (hmarked : marked own = marked free) : Rejoins free := by
  induction hlength : free.length using Nat.strong_induction_on generalizing free own with
  | h n ih =>
    cases hfree with
    | nil => exact .nil
    | @cons c s token rest hscan hrest =>
      rw [List.append_nil] at hscan
      by_cases htoken : token = .placeholder
      · subst htoken
        obtain ⟨rfl, hs, htaken⟩ := scanAlone_placeholder hscan
        obtain rfl := List.self_eq_append_left.mp hs
        rw [List.nil_append] at htaken
        obtain ⟨taken, parts, rfl, hbehind, hparts, hcuts⟩ := hown.head htext htaken
        obtain ⟨skipped, rest, rfl, hskipped, hhead⟩ := marked_split rest
        obtain ⟨aside, own, rfl, haside, hhead'⟩ := marked_split parts
        obtain ⟨hcutsAside, hcutsOwn⟩ := Cuts.append.mp hcuts
        have hmarks : plains (taken ++ partsText aside) ++ marked own =
            plains (partsText skipped) ++ marked rest := by
          simpa [Part.chunks, marked_plain haside, marked_plain hskipped] using hmarked
        obtain ⟨hplain, hmarked⟩ := plains_append_inj hhead' hhead hmarks
        have hrejoin : partsText own = partsText rest := by
          have hwhole : partsText skipped ++ partsText rest = partsText skipped ++ partsText own := by
            rw [← partsText_append, ← hplain, List.append_assoc, ← partsText_append, hparts]
            exact hbehind
          exact (List.append_cancel_left hwhole).symm
        have hshorter : rest.length < n := by
          rw [← hlength, List.length_cons, List.length_append]
          omega
        rw [List.append_nil, hrejoin] at hcutsAside
        refine .mark rfl hskipped haside ?_ hcutsAside ?_
        · rw [← hrejoin, ← hparts, partsText_append]
        · exact ih _ hshorter (Cuts.append.mp hrest).2 hcutsOwn hrejoin hmarked rfl
      · obtain ⟨s', parts, rfl, hs, hparts, hcuts⟩ := hown.head htext ((scanAlone_eq htoken).mp hscan)
        obtain rfl := List.append_cancel_right hs
        have hshorter : rest.length < n := by rw [← hlength, List.length_cons]; omega
        exact .skip htoken (ih _ hshorter hrest hcuts hparts (List.append_cancel_left hmarked) rfl)

end Steps

/-- In a text without numbered parameters, numbering replaces the question marks at the head of the
placeholders the tokenizer cuts and changes nothing else. These are the free question marks, outside
literals, quoted names, comments and longer operators, if and only if the tokenizer rejoins the text behind
each of them. -/
theorem numberPlaceholders_free {sql : String} {tokens : List Lexeme} (h : lexemes sql.toList = .ok tokens)
    (hnumbered : ∀ tag, isNumbered tag = true → .parameter tag ∉ tokens.map Lexeme.token) :
    (∃ own, partsText own = sql.toList ∧ Cuts scan [] own ∧
      own.map Part.token = tokens.map Lexeme.token ∧ (∀ p ∈ own, p.Sound) ∧
      numberPlaceholders sql = .ok (String.ofList (numberedText 0 (marked own)))) ∧
    ∀ free, partsText free = sql.toList → Cuts scanAlone [] free →
      (∀ p ∈ free, p.Sound ∧ (p.token = .placeholder → p.text = ['?'])) ∧
      (numberPlaceholders sql = .ok (String.ofList (numberedText 0 (marked free))) ↔ Rejoins free) := by
  obtain ⟨own, hown, hcuts, rfl⟩ := cuts_of_lexemesFrom h
  have htokens := lexed_tokens .start own
  rw [htokens] at hnumbered
  have hnumber := numberPlaceholders_cuts hcuts hnumbered
  rw [hown, String.ofList_toList] at hnumber
  refine ⟨⟨own, hown, hcuts, htokens.symm, hcuts.sound, hnumber⟩, ?_⟩
  intro free hfree halone
  refine ⟨halone.sound_alone, ?_⟩
  rw [hnumber]
  constructor
  · intro hsame
    have hnumbered : numberedText 0 (marked own) = numberedText 0 (marked free) := by
      simpa [String.ofList_inj] using hsame
    have hmarked : marked own = marked free := by
      refine numberedText_injective (marked_spelled own) (marked_spelled free) ?_ hnumbered
      rw [chunksText_marked hcuts.sound, chunksText_marked fun p hp => (halone.sound_alone p hp).1, hown, hfree]
    exact rejoins_of_marked halone hcuts (hown.trans hfree.symm) hmarked
  · intro hrejoins
    obtain ⟨own', hown', hcuts', hmarked⟩ := own_of_rejoins hrejoins halone
    rw [hcuts.unique hcuts' (hown.trans (hown'.trans hfree).symm), hmarked]

/-- A colon behind a placeholder is half of an operator; what is left of it does no harm. -/
theorem numberPlaceholders_free_cast :
    let sql := "a=?::b"
    let free : List Part := [⟨.word, ['a']⟩, ⟨.symbol, ['=']⟩, ⟨.placeholder, ['?']⟩, ⟨.symbol, [':', ':']⟩,
      ⟨.word, ['b']⟩]
    (∃ tokens, lexemes sql.toList = .ok tokens ∧
      ∀ tag, isNumbered tag = true → .parameter tag ∉ tokens.map Lexeme.token) ∧
      partsText free = sql.toList ∧ Cuts scanAlone [] free ∧ Rejoins free ∧
      numberPlaceholders sql = .ok "a=$1::b" := by
  intro sql free
  have hlexemes : lexemes "a=?::b".toList =
      .ok [⟨.word, ⟨1, 1⟩⟩, ⟨.symbol, ⟨1, 2⟩⟩, ⟨.placeholder, ⟨1, 3⟩⟩, ⟨.symbol, ⟨1, 5⟩⟩, ⟨.word, ⟨1, 6⟩⟩] := rfl
  have hnumbered (tag : String) (_ : isNumbered tag = true) :
      .parameter tag ∉ [Token.word, .symbol, .placeholder, .symbol, .word] := by simp
  have htext : partsText free = "a=?::b".toList := rfl
  have hcuts : Cuts scanAlone [] free := .cons rfl (.cons rfl (.cons rfl (.cons rfl (.cons rfl .nil))))
  have hrejoins : Rejoins free := by
    have haside : Cuts scan ['b'] [⟨.symbol, [':']⟩] := .cons rfl .nil
    have hmark : Rejoins ([⟨.placeholder, ['?']⟩] ++ [⟨.symbol, [':', ':']⟩] ++ [⟨.word, ['b']⟩]) :=
      .mark rfl (by simp) (by simp) rfl haside (.skip nofun .nil)
    exact .skip nofun (.skip nofun hmark)
  have hfree := (numberPlaceholders_free hlexemes hnumbered).2 free htext hcuts
  exact ⟨⟨_, hlexemes, hnumbered⟩, htext, hcuts, hrejoins, hfree.2.mpr hrejoins⟩

/-- The character a placeholder takes in is lost to a comment, and a question mark goes with it: one in
the comment is numbered, and one behind another is not. -/
theorem numberPlaceholders_out_of_step :
    let start : List Part := [⟨.word, "SELECT".toList⟩, ⟨.blank, [' ']⟩, ⟨.placeholder, ['?']⟩]
    let commented := start ++ [⟨.comment, "--why?".toList⟩]
    let doubled := start ++ [⟨.placeholder, ['?']⟩]
    (partsText commented = "SELECT ?--why?".toList ∧ Cuts scanAlone [] commented ∧
      numberedText 0 (marked commented) = "SELECT $1--why?".toList ∧
      numberPlaceholders "SELECT ?--why?" = .ok "SELECT $1--why$2") ∧
    (partsText doubled = "SELECT ??".toList ∧ Cuts scanAlone [] doubled ∧
      numberedText 0 (marked doubled) = "SELECT $1$2".toList ∧
      numberPlaceholders "SELECT ??" = .ok "SELECT $1?") := by
  intro start commented doubled
  have hcommented : Cuts scanAlone [] commented := .cons rfl (.cons rfl (.cons rfl (.cons rfl .nil)))
  have hdoubled : Cuts scanAlone [] doubled := .cons rfl (.cons rfl (.cons rfl (.cons rfl .nil)))
  exact ⟨⟨rfl, hcommented, rfl, rfl⟩, rfl, hdoubled, rfl, rfl⟩

end TypedSql.Sql
