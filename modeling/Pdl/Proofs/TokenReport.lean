import Pdl.Proofs.Listing
import Pdl.Report

/-!
# The token report, line by line

The report splits into one line for each token that is neither a blank nor a comment,
for none of the lines has a newline in it: a lexeme of a class has none, and an invalid
one is shown with its controls escaped (`newline_not_mem_text`).

A line is read back at its first comma, since no kind has a comma in its name
(`Token.lexeme_eq_of_text_eq`).  The name tells less than the kind, but a lexeme is of one kind
only.  So where nothing is invalid the report tells the kinds and the lexemes
(`Token.word_eq_of_text_eq`).
-/

namespace Pdl

/-- The report has a line for each of the tokens `ts`, and ends with the last of them. -/
structure ListsTokens (ts : List Token) (report : String) : Prop where
  /-- A line has the name of the kind and the lexeme, which is escaped if it is invalid. -/
  lines_eq : splitAtChar '\n' report.toList = ts.map (fun t => ("<" ++ t.kind.name ++ ", "
    ++ (if t.kind = .invalid then lineSafe t.lexeme else t.lexeme) ++ ">").toList) ++ [[]]
  count_eq : report.toList.count '\n' = ts.length

namespace Token

variable {text text' : String} {t u : Token}

/-! ## One line -/

theorem text_eq (ht : t ∈ tokens text) : t.text = "<" ++ t.kind.name ++ ", "
    ++ (if t.kind = .invalid then lineSafe t.lexeme else t.lexeme) ++ ">" := by
  rw [Token.text]
  split
  · rename_i hend
    rw [hend, lexeme_of_endOfInput ht hend]
    rfl
  · rename_i hinvalid
    rw [hinvalid, if_pos rfl]
    rfl
  · rename_i hinvalid
    rw [if_neg hinvalid]

theorem newline_not_mem_name (k : TokenKind) : '\n' ∉ k.name.toList := by
  cases k <;> simp [TokenKind.name]

theorem comma_not_mem_name (k : TokenKind) : ',' ∉ k.name.toList := by
  cases k <;> simp [TokenKind.name]

/-- A token of the report keeps to its line. -/
theorem newline_not_mem_text (ht : t ∈ tokens text) (htrivia : t.isTrivia = false) :
    '\n' ∉ t.text.toList := by
  have hname := newline_not_mem_name t.kind
  rw [text_eq ht]
  split
  · have hsafe := newline_not_mem_lineSafe t.lexeme
    simp [hname, hsafe]
  · rename_i hinvalid
    have hsignificant : t.isSignificant = true := by
      rw [isTrivia] at htrivia
      rw [isSignificant, TokenKind.isSignificant, htrivia, bne_iff_ne.2 hinvalid]
      rfl
    have hlexeme := newline_not_mem_lexeme ht hsignificant
    simp [hname, hlexeme]

/-- Two lines are the same only if the kinds have one name and the lexemes are the same. -/
theorem lexeme_eq_of_text_eq (ht : t ∈ tokens text) (hu : u ∈ tokens text')
    (htkind : t.kind ≠ .invalid) (hukind : u.kind ≠ .invalid) (h : t.text = u.text) :
    t.lexeme = u.lexeme := by
  rw [text_eq ht, text_eq hu, if_neg htkind, if_neg hukind, ← String.toList_inj] at h
  have hname : ∀ k : TokenKind, ',' ∉ '<' :: k.name.toList := by
    intro k
    simp [comma_not_mem_name]
  have hline : ('<' :: t.kind.name.toList) ++ ',' :: (' ' :: t.lexeme.toList ++ ['>'])
      = ('<' :: u.kind.name.toList) ++ ',' :: (' ' :: u.lexeme.toList ++ ['>']) := by
    simpa using h
  obtain ⟨-, hrest⟩ := eq_of_append_separator (hname _) (hname _) hline
  simpa [String.toList_inj] using hrest

/-- A token that is not invalid is the end of the text or a lexeme of a class. -/
theorem word_cases (ht : t ∈ tokens text) (hkind : t.kind ≠ .invalid) :
    t.word = (.endOfInput, []) ∨ ∃ b, InClass b t.kind t.lexeme.toList := by
  rcases nextLexeme_of_mem_tokensFrom ht with hend | ⟨b, part, -, hnext⟩
  · left
    rw [word, hend, lexeme_of_endOfInput ht hend]
    rfl
  · exact .inr ⟨b, hnext.inClass hkind⟩

/-- A line is that of one kind and one lexeme. -/
theorem word_eq_of_text_eq (ht : t ∈ contentTokens (tokens text))
    (hu : u ∈ contentTokens (tokens text')) (htkind : t.kind ≠ .invalid)
    (hukind : u.kind ≠ .invalid) (h : t.text = u.text) : t.word = u.word := by
  obtain ⟨ht, htcontent⟩ := mem_contentTokens.1 ht
  obtain ⟨hu, hucontent⟩ := mem_contentTokens.1 hu
  have hlexeme := lexeme_eq_of_text_eq ht hu htkind hukind h
  rcases word_cases ht htkind with htend | ⟨b, htclass⟩
  · rcases word_cases hu hukind with huend | ⟨b', huclass⟩
    · rw [htend, huend]
    · refine absurd ?_ huclass.ne_nil
      rw [← hlexeme]
      exact congrArg Prod.snd htend
  · rcases word_cases hu hukind with huend | ⟨b', huclass⟩
    · refine absurd ?_ htclass.ne_nil
      rw [hlexeme]
      exact congrArg Prod.snd huend
    · have hclass : InClass b u.kind t.lexeme.toList := hlexeme ▸ huclass.of_content hucontent b
      rw [word, word, hlexeme, htclass.kind_unique hclass]

end Token

/-! ## All lines -/

theorem splitAtChar_tokenReport (text : String) :
    splitAtChar '\n' (tokenReport (tokens text)).toList
      = (contentTokens (tokens text)).map (·.text.toList) ++ [[]] := by
  have hlines : ∀ l ∈ (contentTokens (tokens text)).map Token.text, '\n' ∉ l.toList := by
    intro l hl
    obtain ⟨t, ht, rfl⟩ := List.mem_map.1 hl
    obtain ⟨ht, hcontent⟩ := mem_contentTokens.1 ht
    exact Token.newline_not_mem_text ht hcontent
  have hsplit := splitAtChar_unlines hlines
  rwa [List.map_map] at hsplit

theorem listsTokens_tokens (text : String) :
    ListsTokens (contentTokens (tokens text)) (tokenReport (tokens text)) := by
  have hsplit := splitAtChar_tokenReport text
  constructor
  · rw [hsplit, List.append_cancel_right_eq]
    refine List.map_congr_left ?_
    intro t ht
    rw [Token.text_eq (mem_contentTokens.1 ht).1]
  · have hlength := congrArg List.length hsplit
    rw [length_splitAtChar] at hlength
    simpa using hlength

/-- Lists that agree after `f` agree after `g`, if `f` tells what `g` does of their members. -/
theorem map_eq_map_of_forall {α β γ : Type} {f : α → β} {g : α → γ} {as bs : List α}
    (h : as.map f = bs.map f) (hfg : ∀ a ∈ as, ∀ b ∈ bs, f a = f b → g a = g b) :
    as.map g = bs.map g := by
  induction as generalizing bs with
  | nil => rw [List.map_eq_nil_iff.1 h.symm]
  | cons a as ih =>
    cases bs with
    | nil => cases h
    | cons b bs =>
      obtain ⟨hhead, htail⟩ := List.cons_eq_cons.1 h
      have hrest := ih htail fun c hc d hd => hfg c (.tail _ hc) d (.tail _ hd)
      rw [List.map_cons, List.map_cons, hfg a (.head _) b (.head _) hhead, hrest]

/-- The token report of a text has a line for each token of its content, and tells the kinds and
the lexemes of all of them if none of them is invalid. -/
theorem listsTokens_tokenReport (limits limits' : Limits) (text text' : String) :
    ListsTokens (contentTokens (tokenize limits text).tokens)
        (tokenReport (tokenize limits text).tokens) ∧
      ((∀ t ∈ (tokenize limits text).tokens, t.kind ≠ .invalid) →
        (∀ t ∈ (tokenize limits' text').tokens, t.kind ≠ .invalid) →
        tokenReport (tokenize limits text).tokens = tokenReport (tokenize limits' text').tokens →
        (contentTokens (tokenize limits text).tokens).map Token.word
          = (contentTokens (tokenize limits' text').tokens).map Token.word) := by
  rw [tokenize_eq, tokenize_eq]
  refine ⟨listsTokens_tokens text, fun hvalid hvalid' hreport => ?_⟩
  have hlines : (contentTokens (tokens text)).map (·.text.toList)
      = (contentTokens (tokens text')).map (·.text.toList) := by
    have hsplit := congrArg (fun r : String => splitAtChar '\n' r.toList) hreport
    simp only [splitAtChar_tokenReport] at hsplit
    exact List.append_cancel_right hsplit
  refine map_eq_map_of_forall hlines ?_
  intro t ht u hu htext
  refine Token.word_eq_of_text_eq ht hu ?_ ?_ (String.toList_inj.1 htext)
  · exact hvalid t (mem_contentTokens.1 ht).1
  · exact hvalid' u (mem_contentTokens.1 hu).1

theorem listsTokens_respaced :
    (∀ t ∈ (tokenize {} "x  +1").tokens, t.kind ≠ .invalid) ∧
      (∀ t ∈ (tokenize {} "x + /* c */ 1").tokens, t.kind ≠ .invalid) ∧
      tokenReport (tokenize {} "x  +1").tokens = tokenReport (tokenize {} "x + /* c */ 1").tokens ∧
      (contentTokens (tokenize {} "x  +1").tokens).map Token.word
        = (contentTokens (tokenize {} "x + /* c */ 1").tokens).map Token.word := by
  have hvalid : ∀ t ∈ (tokenize {} "x  +1").tokens, t.kind ≠ .invalid := by decide +kernel
  have hvalid' : ∀ t ∈ (tokenize {} "x + /* c */ 1").tokens, t.kind ≠ .invalid := by
    decide +kernel
  have hreport : tokenReport (tokenize {} "x  +1").tokens
      = tokenReport (tokenize {} "x + /* c */ 1").tokens := by decide +kernel
  exact ⟨hvalid, hvalid', hreport, (listsTokens_tokenReport {} {} _ _).2 hvalid hvalid' hreport⟩

end Pdl
