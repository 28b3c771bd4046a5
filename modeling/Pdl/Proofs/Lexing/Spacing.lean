import Pdl.Proofs.Lexing.Words

/-!
# Words with blanks between them

`Spaced ws cs` says that the text `cs` is made of the words `ws` and of blanks,
and that there is a blank between two words.

If the words are the lexemes of another text, of which none is invalid, both
texts have the same content but for the places (`words_of_spaced`).  For a lexeme
ends in front of a blank, whatever made it end in the first text.
-/

namespace Pdl

/-- A token without its place. -/
def Token.word (t : Token) : TokenKind × List Char := (t.kind, t.lexeme.toList)

/-- The lexemes of the content, without the end. -/
def lexemesOf (ts : List Token) : List (List Char) :=
  ((contentTokens ts).takeWhile (·.kind != .endOfInput)).map (·.lexeme.toList)

/-- Words with any blanks before the first one and after the last one, and with at least one
blank between two of them. -/
inductive Spaced : List (List Char) → List Char → Prop where
  /-- Blanks alone. -/
  | nil {bs : List Char} (hbs : ∀ b ∈ bs, isBlank b = true) : Spaced [] bs
  /-- Blanks, a word, and further words that stand apart from it. -/
  | cons {bs w r : List Char} {ws : List (List Char)} (hbs : ∀ b ∈ bs, isBlank b = true)
      (hr : Apart r) (h : Spaced ws r) : Spaced (w :: ws) (bs ++ (w ++ r))

theorem Spaced.nil_inv {cs : List Char} (h : Spaced [] cs) : ∀ b ∈ cs, isBlank b = true := by
  cases h with
  | nil hbs => exact hbs

theorem Spaced.cons_inv {w cs : List Char} {ws : List (List Char)} (h : Spaced (w :: ws) cs) :
    ∃ bs r, cs = bs ++ (w ++ r) ∧ (∀ b ∈ bs, isBlank b = true) ∧ Apart r ∧ Spaced ws r := by
  cases h with
  | cons hbs hr h => exact ⟨_, _, rfl, hbs, hr, h⟩

/-! ## Cutting words with blanks between them -/

theorem contentTokens_of_rest_nil {c : Cursor} (h : c.rest = []) :
    (contentTokens (tokensFrom c)).map Token.word = [(.endOfInput, [])] := by
  rw [tokensFrom_eq, if_pos h, tokenAt_of_rest_nil h]
  rfl

theorem contentTokens_of_word {c : Cursor} {b : Bool} {k : TokenKind} {w r : List Char}
    (hclass : InClass b k w) (hk : k.isTrivia = false) (hr : Apart r) (hc : c.rest = w ++ r) :
    (contentTokens (tokensFrom c)).map Token.word
      = (k, w) :: (contentTokens (tokensFrom (c.move w.length))).map Token.word := by
  have hmunch : munch (c.position.offset == 0) c.rest = (k, w.length) := by
    rw [hc]
    exact (hclass.of_content hk _).munch_append_of_apart hk hr
  have hne : c.rest ≠ [] := by
    rw [hc]
    exact List.append_ne_nil_of_left_ne_nil hclass.ne_nil r
  have hlength : (tokenAt c).2 = w.length := by simp [tokenAt, hmunch]
  have hkind : (tokenAt c).1.kind = k := by simp [tokenAt, hmunch]
  have hword : (tokenAt c).1.word = (k, w) := by
    rw [Token.word, lexeme_tokenAt, hlength, hkind, hc, List.take_left]
  have hcontent : (tokenAt c).1.isTrivia = false := by rw [Token.isTrivia, hkind, hk]
  rw [tokensFrom_of_rest_ne_nil hne, contentTokens_cons_of_content hcontent, List.map_cons, hword,
    hlength]

/-- Words of the content are read one by one. -/
theorem contentTokens_of_spaced {words : List (TokenKind × List Char)} {c : Cursor}
    (hwords : ∀ w ∈ words, w.1.isTrivia = false ∧ ∃ b, InClass b w.1 w.2)
    (h : Spaced (words.map Prod.snd) c.rest) :
    (contentTokens (tokensFrom c)).map Token.word = words ++ [(.endOfInput, [])] := by
  induction words generalizing c with
  | nil =>
    have hrest : (c.move c.rest.length).rest = [] := List.drop_length
    rw [← contentTokens_move h.nil_inv (List.append_nil c.rest).symm,
      contentTokens_of_rest_nil hrest, List.nil_append]
  | cons w words ih =>
    obtain ⟨bs, r, hc, hbs, hr, hrest⟩ := h.cons_inv
    obtain ⟨hk, b, hclass⟩ := hwords w List.mem_cons_self
    have hword : (c.move bs.length).rest = w.2 ++ r := by
      change c.rest.drop bs.length = w.2 ++ r
      rw [hc, List.drop_left]
    have hnext : ((c.move bs.length).move w.2.length).rest = r := by
      change (c.move bs.length).rest.drop w.2.length = r
      rw [hword, List.drop_left]
    have hmore := ih (c := (c.move bs.length).move w.2.length)
      (fun v hv => hwords v (List.mem_cons_of_mem w hv)) (by rw [hnext]; exact hrest)
    rw [← contentTokens_move hbs hc, contentTokens_of_word hclass hk hr hword, hmore,
      List.cons_append]

/-! ## The words of a text -/

theorem lexeme_of_endOfInput {c : Cursor} {t : Token} (ht : t ∈ tokensFrom c)
    (hk : t.kind = .endOfInput) : t.lexeme = "" := by
  fun_induction tokensFrom c with
  | case1 c h =>
    rw [List.mem_singleton.1 ht, tokenAt_of_rest_nil h]
  | case2 c h ih =>
    rcases List.mem_cons.1 ht with rfl | ht
    · exact absurd hk (nextLexeme_munch _ h).kind_ne_endOfInput
    · exact ih ht

/-- The content of a text without invalid tokens. -/
theorem exists_contentTokens {text : String} (hvalid : ∀ t ∈ tokens text, t.kind ≠ .invalid) :
    ∃ ts e, contentTokens (tokens text) = ts ++ [e] ∧ e.word = (.endOfInput, []) ∧
      ∀ t ∈ ts, t.kind ≠ .endOfInput ∧ t.isTrivia = false ∧
        ∃ b, InClass b t.kind t.lexeme.toList := by
  obtain ⟨ts, e, hts, he, hlexemes⟩ := exists_lexemes_tokensFrom (.ofText text)
  have hmem : ∀ t, t ∈ tokens text ↔ t ∈ ts ++ [e] := by
    intro t
    rw [tokens, hts]
  have hlexeme : e.lexeme = "" :=
    lexeme_of_endOfInput ((hmem e).2 (List.mem_append_right ts List.mem_cons_self)) he
  refine ⟨contentTokens ts, e, ?_, ?_, ?_⟩
  · rw [tokens, hts, contentTokens_concat he]
  · rw [Token.word, he, hlexeme]
    rfl
  · intro t ht
    obtain ⟨ht, hcontent⟩ := mem_contentTokens.1 ht
    obtain ⟨b, part, -, hnext⟩ := hlexemes.exists_nextLexeme
      (List.mem_map_of_mem (f := fun t => (t.kind, t.lexeme.toList)) ht)
    have hkind := hvalid t ((hmem t).2 (List.mem_append_left _ ht))
    exact ⟨hnext.kind_ne_endOfInput, hcontent, b, hnext.inClass hkind⟩

/-- The lexemes of a text with blanks between them have its content. -/
theorem words_of_spaced {text text' : String} (hvalid : ∀ t ∈ tokens text, t.kind ≠ .invalid)
    (hspaced : Spaced (lexemesOf (tokens text)) text'.toList) :
    (contentTokens (tokens text')).map Token.word = (contentTokens (tokens text)).map Token.word := by
  obtain ⟨ts, e, hts, he, hclass⟩ := exists_contentTokens hvalid
  have hlexemes : lexemesOf (tokens text) = (ts.map Token.word).map Prod.snd := by
    have hend : e.kind = .endOfInput := congrArg Prod.fst he
    rw [lexemesOf, hts, List.takeWhile_append_of_pos, List.map_map]
    · simp [hend, Token.word, Function.comp_def]
    · intro t ht
      simpa using (hclass t ht).1
  rw [hlexemes] at hspaced
  have hwords : ∀ w ∈ ts.map Token.word, w.1.isTrivia = false ∧ ∃ b, InClass b w.1 w.2 := by
    intro w hw
    obtain ⟨t, ht, rfl⟩ := List.mem_map.1 hw
    exact (hclass t ht).2
  rw [hts, List.map_append, List.map_singleton, he]
  exact contentTokens_of_spaced (c := .ofText text') hwords hspaced

end Pdl
