import Pdl.Diagnostic.Snippet
import Pdl.Proofs.Lexing.Tiling

/-!
# Snippets of tokens

The snippet of a token quotes its line and underlines what the line has of it
(`snippet_tokenAt`).

A token that is reported begins with a character that is no end of a line.  If its
first line ends in a carriage return, then so does the line of the source
(`NextLexeme.quotable`): only an unfinished string or comment goes up to the end of
a line.  So what the quoted line leaves out of the token is what it leaves out of
the line itself.
-/

namespace Pdl

/-! ## Carriage returns -/

theorem dropReturn_of_getLast?_ne {cs : List Char} (h : cs.getLast? ≠ some '\r') :
    dropReturn cs = cs := if_neg h

theorem dropReturn_append {bs : List Char} (h : bs ≠ []) (as : List Char) :
    dropReturn (as ++ bs) = as ++ dropReturn bs := by
  rw [dropReturn, dropReturn, List.getLast?_append_of_ne_nil _ h, List.dropLast_append_of_ne_nil h]
  split <;> rfl

theorem dropReturn_cons_ne_nil {c : Char} (hc : c ≠ '\r') (cs : List Char) :
    dropReturn (c :: cs) ≠ [] := by
  cases cs with
  | nil => simp [dropReturn, hc]
  | cons d cs =>
    have happend := dropReturn_append (List.cons_ne_nil d cs) [c]
    rw [List.singleton_append] at happend
    rw [happend]
    exact List.cons_ne_nil _ _

theorem length_dropReturn_le (cs : List Char) : (dropReturn cs).length ≤ cs.length := by
  rw [dropReturn]
  split
  · simp
  · exact Nat.le_refl _

/-! ## Lexemes that are reported -/

/-- A lexeme `w` at the front of `cs` that a quoted line can show: it begins in the line, and its
first line ends in a carriage return only if the line does. -/
structure Quotable (w cs : List Char) : Prop where
  front : w <+: cs
  first : ∃ c ds, w = c :: ds ∧ c ≠ '\n' ∧ c ≠ '\r'
  ending : (firstLine w).getLast? ≠ some '\r' ∨ firstLine w = firstLine cs

/-- Characters of which none ends a line. -/
theorem quotable_of_forall {w cs : List Char} (hw : w ≠ []) (hfront : w <+: cs)
    (h : ∀ c ∈ w, c ≠ '\n' ∧ c ≠ '\r') : Quotable w cs := by
  obtain ⟨c, ds, rfl⟩ := List.exists_cons_of_ne_nil hw
  have hnewline : '\n' ∉ c :: ds := fun hmem => (h _ hmem).1 rfl
  refine ⟨hfront, ⟨c, ds, rfl, h c (.head _)⟩, .inl ?_⟩
  rw [firstLine_of_newline_not_mem hnewline]
  intro hlast
  exact (h _ (List.mem_of_getLast? hlast)).2 rfl

namespace InClass

variable {atStart : Bool} {k : TokenKind} {w : List Char}

/-- Blanks, comments and strings apart, no lexeme of a class has the end of a line in it. -/
theorem ne_of_mem (h : InClass atStart k w) (hk : k.isTrivia = false) (hstring : k ≠ .string) :
    ∀ c ∈ w, c ≠ '\n' ∧ c ≠ '\r' := by
  have hword : ∀ c, isWordRest c = true → c ≠ '\n' ∧ c ≠ '\r' := by
    rintro c hc
    constructor <;> (rintro rfl; revert hc; decide)
  have hdigit : ∀ c : Char, c.isDigit = true → c ≠ '\n' ∧ c ≠ '\r' := by
    rintro c hc
    constructor <;> (rintro rfl; revert hc; decide)
  have hall : ∀ w : List Char, w.all (fun c => c != '\n' && c != '\r') = true →
      ∀ c ∈ w, c ≠ '\n' ∧ c ≠ '\r' := by simp
  cases h with
  | keyword k => exact hall _ (by cases k <;> decide)
  | operator o => exact hall _ (by cases o <;> decide)
  | punctuation p => exact hall _ (by cases p <;> decide)
  | identifier hc hcs =>
    intro d hd
    refine hword d (isWordRest_of_mem_word (isWordStart_iff.2 hc) ?_ d hd)
    exact fun d hd => isWordRest_iff.2 (hcs d hd)
  | integer hne hds => exact fun d hd => hdigit d (hds d hd)
  | @float ds es hne hds hne' hes =>
    intro d hd
    rcases List.mem_append.1 hd with hd | hd
    · exact hdigit d (hds d hd)
    · rcases List.mem_cons.1 hd with rfl | hd
      · decide
      · exact hdigit d (hes d hd)
  | string => exact absurd rfl hstring
  | blanks | byteOrderMark | lineComment | blockComment => cases hk

theorem newline_not_mem (h : InClass atStart k w) (hk : k.isTrivia = false) : '\n' ∉ w := by
  by_cases hstring : k = .string
  · subst hstring
    cases h with
    | string hcs =>
      simp only [List.mem_cons, List.mem_append, List.not_mem_nil, or_false, not_or]
      exact ⟨by decide, fun hmem => (hcs _ hmem).2 rfl, by decide⟩
  · exact fun hmem => (h.ne_of_mem hk hstring _ hmem).1 rfl

theorem quotable {cs : List Char} (h : InClass atStart k w) (hk : k.isTrivia = false)
    (hfront : w <+: cs) : Quotable w cs := by
  by_cases hstring : k = .string
  · subst hstring
    have hline := firstLine_of_newline_not_mem (h.newline_not_mem hk)
    cases h with
    | string hcs =>
      refine ⟨hfront, ⟨_, _, rfl, by decide⟩, .inl ?_⟩
      rw [hline, ← List.cons_append, List.getLast?_concat]
      decide
  · exact quotable_of_forall h.ne_nil hfront (h.ne_of_mem hk hstring)

end InClass

/-- A lexeme that is neither a blank nor a comment can be shown on a quoted line. -/
theorem NextLexeme.quotable {atStart : Bool} {cs w : List Char} {k : TokenKind}
    (h : NextLexeme atStart cs k w) (hcs : cs ≠ []) (hk : k.isTrivia = false) :
    Quotable w cs := by
  cases h with
  | longest hclass hfront => exact hclass.quotable hk hfront
  | invalid hnone =>
    have hblank : ∀ c ds, cs = c :: ds → isBlank c = false := by
      rintro c ds rfl
      rw [← Bool.not_eq_true]
      intro hc
      have hclass : InClass atStart .whitespace [c] := .blanks (by simp) (by simpa using hc)
      exact hnone _ _ hclass ⟨ds, rfl⟩
    fun_cases invalidPart cs with
    | case1 cs =>
      have hline : firstLine (cs.takeWhile (· != '\n')) = firstLine cs :=
        firstLine_of_newline_not_mem (newline_not_mem_firstLine cs)
      refine ⟨(List.prefix_cons_inj _).2 (List.takeWhile_prefix _), ⟨_, _, rfl, by decide⟩,
        .inr ?_⟩
      rw [firstLine_cons (by decide), firstLine_cons (by decide), hline]
    | case2 cs => exact ⟨List.prefix_refl _, ⟨_, _, rfl, by decide⟩, .inr rfl⟩
    | case3 c cs =>
      have hc := hblank c cs rfl
      refine quotable_of_forall (by simp) ⟨cs, rfl⟩ ?_
      intro d hd
      rw [List.mem_singleton.1 hd]
      constructor <;> (rintro rfl; revert hc; decide)
    | case4 => exact absurd rfl hcs

/-- The line of the source has what the first line of the lexeme has, but for a carriage return
at its end. -/
theorem Quotable.exists_rest {w cs : List Char} (h : Quotable w cs) :
    ∃ r, dropReturn (firstLine cs) = dropReturn (firstLine w) ++ r ∧
      (dropReturn (firstLine w) = firstLine w ∨ r = []) := by
  rcases h.ending with hne | heq
  · obtain ⟨r, hr⟩ := firstLine_prefix h.front
    have hw := dropReturn_of_getLast?_ne hne
    by_cases hnil : r = []
    · rw [hnil, List.append_nil] at hr
      exact ⟨[], by rw [hr, List.append_nil], .inr rfl⟩
    · exact ⟨dropReturn r, by rw [← hr, dropReturn_append hnil, hw], .inl hw⟩
  · exact ⟨[], by rw [heq, List.append_nil], .inr rfl⟩

theorem Quotable.dropReturn_firstLine_ne_nil {w cs : List Char} (h : Quotable w cs) :
    dropReturn (firstLine w) ≠ [] := by
  obtain ⟨c, ds, rfl, hnewline, hreturn⟩ := h.first
  rw [firstLine_cons hnewline]
  exact dropReturn_cons_ne_nil hreturn _

/-- The line of the source, from the beginning of the lexeme on. -/
theorem Quotable.exists_line {w cs : List Char} (h : Quotable w cs) (before : List Char) :
    ∃ r, dropReturn (before ++ firstLine cs) = before ++ (dropReturn (firstLine w) ++ r) ∧
      (dropReturn (firstLine w) = firstLine w ∨ r = []) := by
  obtain ⟨r, hr, hends⟩ := h.exists_rest
  have hne : firstLine cs ≠ [] := by
    intro hnil
    rw [hnil] at hr
    exact h.dropReturn_firstLine_ne_nil (List.append_eq_nil_iff.1 hr.symm).1
  exact ⟨r, by rw [dropReturn_append hne, hr], hends⟩

/-! ## Underlined text -/

/-- The columns of the line from the beginning of the span up to `stop` have what the span covers
of that line. -/
structure Underlines (s : Source) (span : Span) (line : List Char) (stop : Nat) : Prop where
  line_eq : s.line? span.line = some line
  column_pos : 1 ≤ span.column
  nonempty : span.column < stop
  /-- The first line of the text that is covered, without a carriage return at its end. -/
  covers : span.isEmpty = false → ∃ cs, s.slice span = .ok cs ∧
    stop = span.column + (dropReturn (firstLine cs)).length ∧
    dropReturn (firstLine cs) <+: line.drop (span.column - 1)
  /-- An empty span is underlined in its own column. -/
  single : span.isEmpty = true → stop = span.column + 1

/-- The snippet quotes the line of the span and underlines the text of the span. -/
structure Snippet.Quotes (q : Snippet) (s : Source) (span : Span) : Prop where
  label_eq : q.label = none
  number_eq : q.number = span.line
  startColumn_eq : q.startColumn = span.column
  underlines : Underlines s span q.line.toList q.endColumn

/-- The snippet of a span, by its line and by the text that it covers. -/
theorem Source.snippet_eq {s : Source} {span : Span} {line cs : List Char}
    (hline : s.line? span.line = some line) (hslice : s.slice span = .ok cs) :
    s.snippet span = .ok {
      line := String.ofList line
      number := span.line
      startColumn := span.column
      endColumn := max (min (span.column + (firstLine cs).length) (line.length + 1))
        (span.column + 1) } := by
  rw [snippet, hline, firstLineWidth, hslice]
  rfl

/-- Only the token at the end of the text is empty. -/
theorem isEmpty_span_tokenAt {c : Cursor} (h : c.rest ≠ []) :
    (tokenAt c).1.span.isEmpty = false := by
  have hpos := byteCount_pos (take_tokenAt_ne_nil h)
  have hstop : (tokenAt c).1.span.stop
      = (tokenAt c).1.span.start + byteCount (c.rest.take (tokenAt c).2) := by
    rw [stop_tokenAt, Cursor.position_move, Position.offset_after]
    rfl
  rw [Span.isEmpty, hstop, beq_eq_false_iff_ne]
  omega

/-- A lexeme that can be shown is underlined as far as its line is quoted. -/
theorem underlines_of_quotable {s : Source} {span : Span} {before w cs : List Char}
    (hline : s.line? span.line = some (dropReturn (before ++ firstLine cs)))
    (hcolumn : span.column = 1 + before.length) (hslice : s.slice span = .ok w)
    (hempty : span.isEmpty = false) (h : Quotable w cs) :
    Underlines s span (dropReturn (before ++ firstLine cs))
      (max (min (span.column + (firstLine w).length)
        ((dropReturn (before ++ firstLine cs)).length + 1)) (span.column + 1)) := by
  obtain ⟨r, hr, hends⟩ := h.exists_line before
  have hpos := List.length_pos_iff.2 h.dropReturn_firstLine_ne_nil
  have hle := length_dropReturn_le (firstLine w)
  have hlength : (dropReturn (before ++ firstLine cs)).length
      = before.length + ((dropReturn (firstLine w)).length + r.length) := by
    rw [hr, List.length_append, List.length_append]
  have hstop : max (min (span.column + (firstLine w).length)
      ((dropReturn (before ++ firstLine cs)).length + 1)) (span.column + 1)
      = span.column + (dropReturn (firstLine w)).length := by
    rw [hlength]
    rcases hends with hsame | hnil
    · rw [hsame] at hpos ⊢
      omega
    · rw [hnil, List.length_nil]
      omega
  rw [hstop]
  refine ⟨hline, by omega, by omega, fun _ => ⟨w, hslice, rfl, ?_⟩, fun h => ?_⟩
  · rw [hr, hcolumn, Nat.add_sub_cancel_left, List.drop_left]
    exact List.prefix_append _ _
  · rw [hempty] at h
    cases h

/-- A token that is neither a blank nor a comment has a snippet that underlines it. -/
theorem snippet_tokenAt {s : Source} {c : Cursor} (hplaced : c.Placed)
    (hc : c.text = s.content.toList) (hk : (tokenAt c).1.isTrivia = false) :
    ∃ q, s.snippet (tokenAt c).1.span = .ok q ∧ q.Quotes s (tokenAt c).1.span := by
  have hsplit : s.content.toList = c.passed.reverse ++ c.rest := hc.symm
  have hposition : (tokenAt c).1.span.position = Position.start.after c.passed.reverse := hplaced
  rw [Position.start_after] at hposition
  have hnumber : (tokenAt c).1.span.line = 1 + c.passed.reverse.count '\n' :=
    congrArg Position.line hposition
  have hcolumn : (tokenAt c).1.span.column = 1 + (lastLine c.passed.reverse).length :=
    congrArg Position.column hposition
  have hline := Source.line?_of_split hsplit
  rw [← hnumber] at hline
  have hslice := slice_tokenAt hplaced hc
  refine ⟨_, Source.snippet_eq hline hslice, rfl, rfl, rfl, ?_⟩
  simp only [String.toList_ofList]
  by_cases hrest : c.rest = []
  · -- At the end of the text the token is empty.
    have hlexeme : (tokenAt c).1.lexeme.toList = [] := by simp [lexeme_tokenAt, hrest]
    have hempty : (tokenAt c).1.span.isEmpty = true := by
      rw [tokenAt_of_rest_nil hrest]
      simp [Span.isEmpty, Span.between]
    have hwidth : (firstLine (tokenAt c).1.lexeme.toList).length = 0 := by
      rw [hlexeme]
      rfl
    refine ⟨hline, by omega, by omega, fun h => ?_, fun _ => by omega⟩
    rw [hempty] at h
    cases h
  · have hnext := nextLexeme_munch (c.position.offset == 0) hrest
    refine underlines_of_quotable hline hcolumn hslice (isEmpty_span_tokenAt hrest) ?_
    rw [lexeme_tokenAt]
    exact hnext.quotable hrest hk

end Pdl
