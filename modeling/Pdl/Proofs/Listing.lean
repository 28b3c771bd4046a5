import Pdl.Analysis
import Pdl.Diagnostic.Listing
import Pdl.Proofs.DiagnosticOrder
import Pdl.Proofs.Snippets
import Pdl.Text.Split

/-!
# The listing, line by line

The listing of the diagnostics of an analysis splits into the lines of its blocks,
an empty line behind each block, and the summary (`pointsAt_listing`).  In each
block the carets stand under the text that the diagnostic is about (`PointsAt`).

The text of a block is that of its lines (`unlines_block`), and none of them has a
newline in it: not the messages, which quote characters and lexemes
(`oneLine_of_mem_analyze`), and not the quoted line.  So the listing splits where
its lines end, and nowhere else.
-/

namespace Pdl

/-- The lines of a block that quotes the line of its diagnostic and points at the text that it is
about. -/
structure PointsAt (s : Source) (d : Diagnostic) (block : List (List Char)) : Prop where
  snippet_ok : ∃ q, s.snippet d.span = .ok q
  length_eq : block.length = 5 + d.notes.length + d.helps.length
  /-- The fourth line is the quoted one, behind its number.  The fifth has carets under the
  columns from that of the diagnostic up to `stop`, and no others. -/
  carets : ∃ line stop, Underlines s d.span line stop ∧
    block[3]? = some ((toString d.span.line).toList.leftpad (marginWidth d.span.line) ' '
      ++ " | ".toList ++ line) ∧
    ∃ cs, block[4]? = some cs ∧ ∀ c, 1 ≤ c →
      (cs[marginWidth d.span.line + 3 + (c - 1)]? = some '^' ↔ d.span.column ≤ c ∧ c < stop)

/-! ## Splitting -/

theorem toList_unlines (lines : List String) :
    (unlines lines).toList = lines.flatMap fun l => l.toList ++ ['\n'] := by
  rw [unlines, String.toList_join, List.flatMap_map]
  simp

theorem unlines_append (as bs : List String) : unlines (as ++ bs) = unlines as ++ unlines bs := by
  simp [← String.toList_inj, toList_unlines]

/-- Lines without newlines in them split into themselves. -/
theorem splitAtChar_unlines {lines : List String} (h : ∀ l ∈ lines, '\n' ∉ l.toList) :
    splitAtChar '\n' (unlines lines).toList = lines.map String.toList ++ [[]] := by
  rw [toList_unlines]
  induction lines with
  | nil => rfl
  | cons l lines ih =>
    rw [List.flatMap_cons, List.append_assoc, List.singleton_append, splitAtChar_append,
      splitAtChar_of_not_mem (h l (.head _)), ih fun l hl => h l (.tail _ hl)]
    rfl

/-! ## The lines of a block -/

/-- The lines that quote the line of a span. -/
def Source.quotation (s : Source) (span : Span) : List String :=
  match s.snippet span with
  | .ok q => [spaces (marginWidth span.line) ++ " |", q.quoteLine, q.caretLine]
  | .error _ => []

theorem Source.quotation_eq {s : Source} {span : Span} {q : Snippet}
    (h : s.snippet span = .ok q) :
    s.quotation span = [spaces (marginWidth span.line) ++ " |", q.quoteLine, q.caretLine] := by
  rw [quotation, h]

/-- The lines of the block of a diagnostic. -/
def Diagnostic.lines (s : Source) (d : Diagnostic) : List String :=
  [d.headline, spaces (marginWidth d.span.line - 1) ++ "--> " ++ s.name ++ ":"
      ++ d.span.position.text]
    ++ s.quotation d.span
    ++ d.notes.map (spaces (marginWidth d.span.line) ++ " = note: " ++ ·)
    ++ d.helps.map (spaces (marginWidth d.span.line) ++ " = help: " ++ ·)

theorem unlines_block (s : Source) (d : Diagnostic) :
    unlines (d.block s) = unlines (d.lines s) := by
  cases hq : s.snippet d.span with
  | error e => simp only [Diagnostic.block, Diagnostic.lines, Source.quotation, hq]
  | ok q =>
    have htext (l : String) : unlines [l, q.text] = unlines [l, q.quoteLine, q.caretLine] := by
      simp [← String.toList_inj, toList_unlines, Snippet.text]
    simp only [Diagnostic.block, Diagnostic.lines, Source.quotation, hq, unlines_append, htext]

theorem unlines_flatMap_block (s : Source) (ds : List Diagnostic) :
    unlines (ds.flatMap fun d => d.block s ++ [""])
      = unlines (ds.flatMap fun d => d.lines s ++ [""]) := by
  induction ds with
  | nil => rw [List.flatMap_nil, List.flatMap_nil]
  | cons d ds ih =>
    rw [List.flatMap_cons, List.flatMap_cons, unlines_append, unlines_append, unlines_append,
      unlines_append, unlines_block, ih]

theorem listing_eq_unlines (s : Source) (ds : List Diagnostic) :
    listing s ds = unlines (ds.flatMap (fun d => d.lines s ++ [""]) ++ [summary ds]) := by
  rw [listing, unlines_append, unlines_flatMap_block, unlines_append]

/-! ## No newlines -/

theorem newline_not_mem_toDigits (n : Nat) : '\n' ∉ Nat.toDigits 10 n :=
  newline_not_mem_toDigitsCore 10 (n + 1) n [] List.not_mem_nil

/-- A diagnostic of which no part has a newline in it. -/
structure Diagnostic.OneLine (d : Diagnostic) : Prop where
  message : '\n' ∉ d.message.toList
  notes : ∀ n ∈ d.notes, '\n' ∉ n.toList
  helps : ∀ n ∈ d.helps, '\n' ∉ n.toList
  code : ∀ c, d.code = some c → '\n' ∉ c.letter.toList

theorem newline_not_mem_summary (ds : List Diagnostic) : '\n' ∉ (summary ds).toList := by
  simp [summary, newline_not_mem_toDigits]

theorem Diagnostic.OneLine.newline_not_mem_headline {d : Diagnostic} (h : d.OneLine) :
    '\n' ∉ d.headline.toList := by
  have hlevel : '\n' ∉ d.level.name.toList := by cases d.level <;> decide
  cases hc : d.code with
  | none => simp [Diagnostic.headline, hc, hlevel, h.message]
  | some c =>
    simp [Diagnostic.headline, hc, hlevel, h.message, Code.text, h.code c hc,
      newline_not_mem_toDigits]

theorem newline_not_mem_dropReturn {cs : List Char} (h : '\n' ∉ cs) : '\n' ∉ dropReturn cs := by
  rw [dropReturn]
  split
  · exact fun hmem => h ((List.dropLast_sublist cs).subset hmem)
  · exact h

/-- A line of the source has no newline in it. -/
theorem Source.newline_not_mem_line? {s : Source} {n : Nat} {line : List Char}
    (h : s.line? n = some line) : '\n' ∉ line := by
  cases n with
  | zero => cases h
  | succ k =>
    have hlines : k < s.lineCount := by
      obtain ⟨first, hfirst, -⟩ := Option.bind_eq_some_iff.1 h
      exact (List.getElem?_eq_some_iff.1 hfirst).1
    rw [lineCount_eq] at hlines
    obtain ⟨before, rest, hsplit, rfl⟩ :=
      exists_split_of_le_count (Nat.le_of_lt_succ (Nat.add_comm _ _ ▸ hlines))
    rw [Nat.add_comm, line?_of_split hsplit, Option.some_inj] at h
    rw [← h]
    refine newline_not_mem_dropReturn ?_
    simp [newline_not_mem_lastLine, newline_not_mem_firstLine]

/-- The lines of a block are lines. -/
theorem newline_not_mem_lines {s : Source} (hname : '\n' ∉ s.name.toList) {d : Diagnostic}
    (h : d.OneLine) {q : Snippet} (hq : s.snippet d.span = .ok q) (hquotes : q.Quotes s d.span) :
    ∀ l ∈ d.lines s, '\n' ∉ l.toList := by
  have hline := Source.newline_not_mem_line? hquotes.underlines.line_eq
  have hspaces : ∀ n, '\n' ∉ (spaces n).toList := by simp [spaces]
  have hposition : '\n' ∉ d.span.position.text.toList := by
    simp [Position.text, newline_not_mem_toDigits]
  intro l hl
  simp only [Diagnostic.lines, Source.quotation_eq hq, List.mem_append, List.mem_cons,
    List.not_mem_nil, or_false, List.mem_map] at hl
  rcases hl with (((rfl | rfl) | rfl | rfl | rfl) | ⟨n, hn, rfl⟩) | ⟨n, hn, rfl⟩
  · exact h.newline_not_mem_headline
  · simp [hspaces, hname, hposition]
  · simp [hspaces]
  · simp [Snippet.quoteLine, hspaces, hline, newline_not_mem_toDigits]
  · simp [Snippet.caretLine, hspaces, hquotes.label_eq]
  · simp [hspaces, h.notes n hn]
  · simp [hspaces, h.helps n hn]

/-! ## Messages -/

/-- The lexeme of a token that the grammar sees has no newline in it. -/
theorem newline_not_mem_lexeme {text : String} {t : Token} (ht : t ∈ tokens text)
    (hsignificant : t.isSignificant = true) : '\n' ∉ t.lexeme.toList := by
  have hkind : t.kind.isTrivia = false ∧ t.kind ≠ .invalid := by
    simpa [Token.isSignificant, TokenKind.isSignificant] using hsignificant
  rcases nextLexeme_of_mem_tokensFrom ht with hend | ⟨b, part, -, hnext⟩
  · rw [lexeme_of_endOfInput ht hend]
    exact List.not_mem_nil
  · exact (hnext.inClass hkind.2).newline_not_mem hkind.1

theorem LexicalFault.eq_of_find?_keywordCase {limits : Limits} {kind : TokenKind}
    {lexeme lexeme' : String} {k : Keyword}
    (h : LexicalFault.find? limits kind lexeme = some (.keywordCase k lexeme')) :
    kind = .identifier ∧ lexeme' = lexeme := by
  cases kind with
  | identifier =>
    obtain ⟨k', -, heq⟩ := Option.map_eq_some_iff.1 h
    cases heq
    exact ⟨rfl, rfl⟩
  | invalid =>
    rw [LexicalFault.find?, LexicalFault.ofInvalid.eq_def] at h
    split at h <;> cases h
  | _ => simp [LexicalFault.find?] at h

theorem oneLine_of_lexicalDiagnostic? {limits : Limits} {text : String} {t : Token}
    (ht : t ∈ tokens text) {d : Diagnostic} (h : t.lexicalDiagnostic? limits = some d) :
    d.OneLine := by
  obtain ⟨f, hf, rfl⟩ := Option.map_eq_some_iff.1 h
  cases f with
  | keywordCase k lexeme =>
    obtain ⟨hkind, rfl⟩ := LexicalFault.eq_of_find?_keywordCase hf
    have hlexeme := newline_not_mem_lexeme ht (by rw [Token.isSignificant, hkind]; rfl)
    have hspelling : '\n' ∉ k.spelling.toList := by cases k <;> decide
    constructor <;> simp [LexicalFault.diagnostic, hlexeme, hspelling, Code.keywordCase]
  | invalidCharacter c =>
    have hquoted := newline_not_mem_quotedChar c
    constructor
    · simp [LexicalFault.diagnostic, hquoted]
    · simp [LexicalFault.diagnostic]
    · simp only [LexicalFault.diagnostic]
      split <;> simp
    · simp [LexicalFault.diagnostic, Code.invalidCharacter]
  | _ =>
    constructor <;> simp [LexicalFault.diagnostic, newline_not_mem_toDigits,
      Code.unterminatedString, Code.unterminatedComment, Code.integerTooLarge, Code.stringTooLong]

theorem newline_not_mem_describe (k : TokenKind) : '\n' ∉ k.describe.toList := by
  cases k with
  | keyword k => cases k <;> decide
  | operator o => cases o <;> decide
  | punctuation p => cases p <;> decide
  | _ => decide

theorem newline_not_mem_expectedText (e : Expected) : '\n' ∉ e.text.toList := by
  cases e with
  | token k => exact newline_not_mem_describe k
  | _ => decide

theorem SyntaxFault.oneLine_diagnostic (fault : SyntaxFault) {t : Token}
    (ht : '\n' ∉ t.lexeme.toList) : (fault.diagnostic t).OneLine := by
  have hexpected := newline_not_mem_expectedText fault.expected
  have hfound : '\n' ∉ t.describe.toList := by
    rw [Token.describe]
    split <;> simp [ht]
  constructor
  · simp only [diagnostic, Expected.diagnostic]
    split <;> simp [hexpected, hfound]
  · simp [diagnostic, Expected.diagnostic]
  · simp only [diagnostic, Expected.diagnostic]
    split <;> simp
  · intro c hc
    rcases (fault.reportsAt_diagnostic t).code with hcode | hcode | hcode <;>
    · rw [hc, Option.some_inj] at hcode
      rw [hcode]
      decide

/-- No part of what an analysis reports has a newline in it. -/
theorem oneLine_of_mem_analyze {limits : Limits} {text : String} {d : Diagnostic}
    (hd : d ∈ (analyze limits text).diagnostics) : d.OneLine := by
  rw [analyze_eq] at hd
  rcases List.mem_append.1 ((perm_sortByStart _).mem_iff.1 hd) with hd | hd
  · obtain ⟨t, ht, hreport⟩ := List.mem_filterMap.1 hd
    exact oneLine_of_lexicalDiagnostic? ht hreport
  · obtain ⟨fault, t, ht, hsignificant, rfl⟩ := exists_significant_of_mem_diagnostics hd
    exact fault.oneLine_diagnostic (newline_not_mem_lexeme ht hsignificant)

/-! ## Carets -/

theorem toList_quoteLine (q : Snippet) :
    q.quoteLine.toList = (toString q.number).toList.leftpad (marginWidth q.number) ' '
      ++ " | ".toList ++ q.line.toList := by
  simp only [Snippet.quoteLine, spaces, List.leftpad, String.toList_append, String.toList_ofList,
    String.length_toList]

/-- The carets stand under the columns of the span. -/
theorem getElem?_caretLine {q : Snippet} {s : Source} {span : Span} (h : q.Quotes s span)
    {c : Nat} (hc : 1 ≤ c) :
    q.caretLine.toList[marginWidth span.line + 3 + (c - 1)]? = some '^' ↔
      span.column ≤ c ∧ c < q.endColumn := by
  obtain ⟨hlabel, hnumber, hcolumn, hunderlines⟩ := h
  have hstart := hunderlines.column_pos
  have hstop := hunderlines.nonempty
  rw [← hcolumn] at hstart hstop ⊢
  rw [← hnumber]
  have hline : q.caretLine.toList = (List.replicate (marginWidth q.number) ' ' ++ " | ".toList)
      ++ (List.replicate (q.startColumn - 1) ' ' ++ List.replicate q.caretCount '^') := by
    simp [Snippet.caretLine, spaces, hlabel]
  have hmargin : (List.replicate (marginWidth q.number) ' ' ++ " | ".toList).length
      = marginWidth q.number + 3 := by simp
  have hcount : q.caretCount = q.endColumn - q.startColumn := by
    rw [Snippet.caretCount]
    omega
  rw [hline, List.getElem?_append_right (by omega), hmargin, Nat.add_sub_cancel_left, hcount]
  rcases Nat.lt_or_ge (c - 1) (q.startColumn - 1) with hlt | hge
  · rw [List.getElem?_append_left (by simpa using hlt), List.getElem?_replicate, if_pos hlt]
    have hblank : (' ' : Char) ≠ '^' := by decide
    simp only [Option.some_inj, hblank, false_iff]
    omega
  · rw [List.getElem?_append_right (by simpa using hge), List.length_replicate,
      List.getElem?_replicate]
    split
    · simp only [true_iff]
      omega
    · simp only [reduceCtorEq, false_iff]
      omega

/-- The lines of the block of a diagnostic with a snippet point at its text. -/
theorem pointsAt_lines {s : Source} {d : Diagnostic} {q : Snippet}
    (hq : s.snippet d.span = .ok q) (hquotes : q.Quotes s d.span) :
    PointsAt s d ((d.lines s).map String.toList) := by
  have hquotation := Source.quotation_eq hq
  have hquote := toList_quoteLine q
  rw [hquotes.number_eq] at hquote
  refine ⟨⟨q, hq⟩, ?_, q.line.toList, q.endColumn, hquotes.underlines, ?_, q.caretLine.toList, ?_,
    fun c hc => getElem?_caretLine hquotes hc⟩
  · simp only [Diagnostic.lines, hquotation, List.length_map, List.length_append, List.length_cons,
      List.length_nil]
  · simp [Diagnostic.lines, hquotation, hquote]
  · simp [Diagnostic.lines, hquotation]

/-! ## Analyses -/

/-- Each diagnostic of an analysis lies at a token that is neither a blank nor a comment. -/
theorem exists_content_of_mem_analyze {limits : Limits} {text : String} {d : Diagnostic}
    (hd : d ∈ (analyze limits text).diagnostics) :
    ∃ t ∈ tokens text, t.isTrivia = false ∧ d.span = t.span := by
  obtain ⟨ts, e, hcontent, hts, he⟩ := contentTokens_tokens text
  rw [analyze_eq] at hd
  have hmem := (perm_sortByStart _).mem_iff.1 hd
  obtain ⟨t, ht, hspan⟩ := exists_token_of_diagnostic hcontent hts he hmem
  obtain ⟨htext, hkind⟩ := mem_contentTokens.1 ht
  exact ⟨t, htext, hkind, hspan⟩

theorem exists_snippet_of_mem_analyze {limits : Limits} {text : String} (name : String)
    {d : Diagnostic} (hd : d ∈ (analyze limits text).diagnostics) :
    ∃ q, (Source.mk name text).snippet d.span = .ok q ∧ q.Quotes ⟨name, text⟩ d.span := by
  obtain ⟨t, ht, hkind, hspan⟩ := exists_content_of_mem_analyze hd
  obtain ⟨c, hplaced, hc, rfl⟩ := exists_cursor_of_mem_tokensFrom (Cursor.placed_ofText text) ht
  rw [hspan]
  exact snippet_tokenAt hplaced hc hkind

/-- The listing of the diagnostics of an analysis splits into blocks that point at the text that
they are about, with an empty line behind each of them, and the summary. -/
theorem pointsAt_listing (limits : Limits) (text : String) {name : String}
    (hname : '\n' ∉ name.toList) :
    ∃ blocks : List (List (List Char)),
      splitAtChar '\n' (listing ⟨name, text⟩ (analyze limits text).diagnostics).toList
        = blocks.flatMap (· ++ [[]]) ++ [(summary (analyze limits text).diagnostics).toList, []] ∧
      List.Forall₂ (PointsAt ⟨name, text⟩) (analyze limits text).diagnostics blocks := by
  have hlines : ∀ d ∈ (analyze limits text).diagnostics, ∀ l ∈ d.lines ⟨name, text⟩,
      '\n' ∉ l.toList := by
    intro d hd
    obtain ⟨q, hq, hquotes⟩ := exists_snippet_of_mem_analyze name hd
    exact newline_not_mem_lines hname (oneLine_of_mem_analyze hd) hq hquotes
  refine ⟨(analyze limits text).diagnostics.map fun d => (d.lines ⟨name, text⟩).map String.toList,
    ?_, ?_⟩
  · rw [listing_eq_unlines, splitAtChar_unlines]
    · simp [List.map_flatMap, List.flatMap_map]
    · intro l hl
      rcases List.mem_append.1 hl with hl | hl
      · obtain ⟨d, hd, hl⟩ := List.mem_flatMap.1 hl
        rcases List.mem_append.1 hl with hl | hl
        · exact hlines d hd l hl
        · simp [List.mem_singleton.1 hl]
      · rw [List.mem_singleton.1 hl]
        exact newline_not_mem_summary _
  · rw [List.forall₂_map_right_iff, List.forall₂_same]
    intro d hd
    obtain ⟨q, hq, hquotes⟩ := exists_snippet_of_mem_analyze name hd
    exact pointsAt_lines hq hquotes

/-- An unfinished string whose line ends in a carriage return. -/
theorem pointsAt_brokenString :
    '\n' ∉ "main".toList ∧
      (∃ d ∈ (analyze {} "put \"é\r\n").diagnostics, d.span = ⟨4, 8, 1, 5⟩) ∧
      ∃ blocks : List (List (List Char)),
        splitAtChar '\n' (listing ⟨"main", "put \"é\r\n"⟩
            (analyze {} "put \"é\r\n").diagnostics).toList
          = blocks.flatMap (· ++ [[]]) ++
            [(summary (analyze {} "put \"é\r\n").diagnostics).toList, []] ∧
        List.Forall₂ (PointsAt ⟨"main", "put \"é\r\n"⟩) (analyze {} "put \"é\r\n").diagnostics
          blocks := by
  have hname : '\n' ∉ "main".toList := by decide
  have hlexical : ∃ d ∈ (tokenize {} "put \"é\r\n").diagnostics, d.span = ⟨4, 8, 1, 5⟩ := by
    decide +kernel
  obtain ⟨d, hd, hspan⟩ := hlexical
  have hmem : d ∈ (analyze {} "put \"é\r\n").diagnostics := by
    rw [tokenize_eq] at hd
    rw [analyze_eq]
    exact (perm_sortByStart _).mem_iff.2 (List.mem_append_left _ hd)
  exact ⟨hname, ⟨d, hmem, hspan⟩, pointsAt_listing {} "put \"é\r\n" hname⟩

end Pdl
