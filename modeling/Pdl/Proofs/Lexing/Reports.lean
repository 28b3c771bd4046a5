import Mathlib.Data.List.Forall2
import Mathlib.Data.Nat.Digits.Defs
import Pdl.Proofs.Lexing.LongestMatch
import Pdl.Proofs.Text.Boundaries

/-!
# Lexical diagnostics

`Reported` is the table of what is reported about a lexeme: the lexemes that
are reported, each with its level and its code.  `ReportsOn` says that the
diagnostics of a token are the one of its row, at the place of the token, or
none where the table has no row.

`LexicalFault.find?` tests less than the table asks for.  It relies on what is
known of a lexeme by its kind: a string has its two quotes, an identifier is no
reserved word as it stands, an invalid lexeme has a character.
-/

namespace Pdl

/-- The value of a decimal digit. -/
def digitValue (d : Char) : Nat := d.toNat - '0'.toNat

/-- What is reported about a lexeme, by level and code. -/
inductive Reported (limits : Limits) : TokenKind → List Char → Level → Code → Prop where
  /-- An invalid lexeme that begins with a quote. -/
  | openString (cs : List Char) : Reported limits .invalid ('"' :: cs) .error ⟨"E", 1002⟩
  /-- An invalid lexeme that begins with a slash and a star. -/
  | openComment (cs : List Char) : Reported limits .invalid ('/' :: '*' :: cs) .error ⟨"E", 1005⟩
  /-- Any other invalid lexeme. -/
  | stray {cs : List Char} (hquote : ∀ ds, cs ≠ '"' :: ds) (hslash : ∀ ds, cs ≠ '/' :: '*' :: ds) :
      Reported limits .invalid cs .error ⟨"E", 1001⟩
  /-- An integer whose value is past the greatest. -/
  | large {ds : List Char} (h : limits.maxInteger < Nat.ofDigits 10 (ds.reverse.map digitValue)) :
      Reported limits .integer ds .error ⟨"E", 1003⟩
  /-- A string with too many characters between its quotes. -/
  | long {cs : List Char} (h : limits.maxStringChars < cs.length) :
      Reported limits .string ('"' :: (cs ++ ['"'])) .error ⟨"E", 1004⟩
  /-- An identifier that is a reserved word but for the case of its letters. -/
  | miscased {cs : List Char} (k : Keyword) (h : cs.map Char.toLower = k.spelling.toList) :
      Reported limits .identifier cs .warning ⟨"W", 1001⟩

/-- The diagnostics of a token. -/
inductive ReportsOn (limits : Limits) (t : Token) : List Diagnostic → Prop where
  /-- Nothing is wrong with the token. -/
  | none (h : ∀ l c, ¬ Reported limits t.kind t.lexeme.toList l c) : ReportsOn limits t []
  /-- The token is reported at its place. -/
  | one {d : Diagnostic} {c : Code} (hspan : d.span = t.span) (hcode : d.code = some c)
      (h : Reported limits t.kind t.lexeme.toList d.level c) : ReportsOn limits t [d]

/-! ## Values of literals -/

theorem decimalValue_concat (ds : List Char) (d : Char) :
    decimalValue (ds ++ [d]) = digitValue d + 10 * decimalValue ds := by
  rw [decimalValue, List.foldl_append, Nat.add_comm]
  rfl

theorem decimalValue_eq_ofDigits (ds : List Char) :
    decimalValue ds = Nat.ofDigits 10 (ds.reverse.map digitValue) := by
  induction ds using List.reverseRecOn with
  | nil => rfl
  | append_singleton ds d ih =>
    rw [decimalValue_concat, ih, List.reverse_append, List.reverse_singleton,
      List.singleton_append, List.map_cons, Nat.ofDigits_cons]

/-! ## Rows of the table -/

section

variable {limits : Limits} {cs : List Char} {l : Level} {c : Code}

theorem Reported.kind_inv {k : TokenKind} (h : Reported limits k cs l c) :
    k = .invalid ∨ k = .integer ∨ k = .string ∨ k = .identifier := by
  cases h <;> simp

theorem Reported.integer_inv (h : Reported limits .integer cs l c) :
    limits.maxInteger < Nat.ofDigits 10 (cs.reverse.map digitValue) := by
  cases h with
  | large h => exact h

theorem Reported.string_inv (h : Reported limits .string ('"' :: (cs ++ ['"'])) l c) :
    limits.maxStringChars < cs.length := by
  generalize hw : '"' :: (cs ++ ['"']) = w at h
  cases h with
  | long h =>
    obtain rfl := List.append_cancel_right (List.cons_eq_cons.1 hw).2
    exact h

theorem Reported.identifier_inv (h : Reported limits .identifier cs l c) :
    ∃ k : Keyword, cs.map Char.toLower = k.spelling.toList := by
  cases h with
  | miscased k h => exact ⟨k, h⟩

end

/-! ## One token -/

section

variable {limits : Limits} {t : Token}

theorem reportsOn_of_find?_none (hf : LexicalFault.find? limits t.kind t.lexeme = none)
    (h : ∀ l c, ¬ Reported limits t.kind t.lexeme.toList l c) :
    ReportsOn limits t (t.lexicalDiagnostic? limits).toList := by
  rw [Token.lexicalDiagnostic?, hf]
  exact .none h

theorem reportsOn_of_find?_some {f : LexicalFault} {c : Code}
    (hf : LexicalFault.find? limits t.kind t.lexeme = some f)
    (hcode : (f.diagnostic t.span).code = some c)
    (h : Reported limits t.kind t.lexeme.toList (f.diagnostic t.span).level c) :
    ReportsOn limits t (t.lexicalDiagnostic? limits).toList := by
  have hd : t.lexicalDiagnostic? limits = some (f.diagnostic t.span) := by
    rw [Token.lexicalDiagnostic?, hf, Option.map_some]
  rw [hd]
  exact .one (Token.span_of_lexicalDiagnostic? hd) hcode h

theorem reportsOn_invalid (hk : t.kind = .invalid) (hw : t.lexeme.toList ≠ []) :
    ReportsOn limits t (t.lexicalDiagnostic? limits).toList := by
  have hfind : LexicalFault.find? limits t.kind t.lexeme
      = LexicalFault.ofInvalid t.lexeme.toList := by rw [hk, LexicalFault.find?]
  generalize hcs : t.lexeme.toList = cs at hfind hw
  fun_cases LexicalFault.ofInvalid cs with
  | case1 cs =>
    refine reportsOn_of_find?_some hfind rfl ?_
    rw [hk, hcs]
    exact .openString cs
  | case2 cs =>
    refine reportsOn_of_find?_some hfind rfl ?_
    rw [hk, hcs]
    exact .openComment cs
  | case3 c cs hquote hslash =>
    refine reportsOn_of_find?_some (hfind.trans (LexicalFault.ofInvalid.eq_3 c cs hquote hslash))
      rfl ?_
    rw [hk, hcs]
    refine .stray ?_ ?_
    · rintro ds hds
      exact hquote (List.cons_eq_cons.1 hds).1
    · rintro ds hds
      exact hslash ds (List.cons_eq_cons.1 hds).1 (List.cons_eq_cons.1 hds).2
  | case4 => exact absurd rfl hw

theorem reportsOn_integer (hk : t.kind = .integer) :
    ReportsOn limits t (t.lexicalDiagnostic? limits).toList := by
  by_cases hlarge : limits.maxInteger < decimalValue t.lexeme.toList
  · refine reportsOn_of_find?_some (by rw [hk, LexicalFault.find?, if_pos hlarge]) rfl ?_
    rw [hk]
    rw [decimalValue_eq_ofDigits] at hlarge
    exact .large hlarge
  · refine reportsOn_of_find?_none (by rw [hk, LexicalFault.find?, if_neg hlarge]) ?_
    rw [decimalValue_eq_ofDigits] at hlarge
    rw [hk]
    exact fun l c h => hlarge h.integer_inv

theorem reportsOn_string {cs : List Char} (hk : t.kind = .string)
    (hw : t.lexeme.toList = '"' :: (cs ++ ['"'])) :
    ReportsOn limits t (t.lexicalDiagnostic? limits).toList := by
  have hlength : t.lexeme.toList.length - 2 = cs.length := by simp [hw]
  by_cases hlong : limits.maxStringChars < cs.length
  · refine reportsOn_of_find?_some (by rw [hk, LexicalFault.find?, hlength, if_pos hlong]) rfl ?_
    rw [hk, hw]
    exact .long hlong
  · refine reportsOn_of_find?_none (by rw [hk, LexicalFault.find?, hlength, if_neg hlong]) ?_
    rw [hk, hw]
    exact fun l c h => hlong h.string_inv

theorem Keyword.byteCount_spelling_le (k : Keyword) : byteCount k.spelling.toList ≤ 8 := by
  cases k <;> decide

/-- A character has as many bytes in lower case. -/
theorem utf8Size_toLower (c : Char) : c.toLower.utf8Size = c.utf8Size := by
  delta Char.toLower
  split
  · rename_i hupper
    have hZ : c.val.toNat ≤ 90 := UInt32.le_iff_toNat_le.1 hupper.2
    have hle : c.val ≤ 127 := UInt32.le_trans hupper.2 (by decide)
    have hlower : c.val + ('a'.val - 'A'.val) ≤ 127 := by
      rw [UInt32.le_iff_toNat_le, UInt32.toNat_add]
      show (c.val.toNat + 32) % 2 ^ 32 ≤ 127
      omega
    rw [Char.utf8Size_eq_one_iff.2 hle, Char.utf8Size_eq_one_iff.2 hlower]
  · rfl

theorem byteCount_map_toLower (cs : List Char) : byteCount (cs.map Char.toLower) = byteCount cs := by
  induction cs with
  | nil => rfl
  | cons c cs ih => rw [List.map_cons, byteCount_cons, byteCount_cons, ih, utf8Size_toLower]

/-- What is too long for a reserved word is none in lower case. -/
theorem ofSpelling?_lower_of_long {s : String} (h : "function".utf8ByteSize < s.utf8ByteSize) :
    Keyword.ofSpelling? (String.ofList (s.toList.map Char.toLower)) = none := by
  rw [Option.eq_none_iff_forall_ne_some]
  intro k hk
  have hle := k.byteCount_spelling_le
  rw [Keyword.spelling_of_ofSpelling? hk, String.toList_ofList, byteCount_map_toLower,
    byteCount_eq_utf8ByteSize, String.ofList_toList] at hle
  exact absurd h (Nat.not_lt_of_le hle)

theorem miscased?_eq {s : String} (h : ∀ k : Keyword, k.spelling.toList ≠ s.toList) :
    Keyword.miscased? s = Keyword.ofSpelling? (String.ofList (s.toList.map Char.toLower)) := by
  have hnone : (Keyword.ofSpelling? s).isSome = false := by
    rw [Option.isSome_eq_false_iff, Option.isNone_iff_eq_none, Option.eq_none_iff_forall_ne_some]
    intro k hk
    exact h k (congrArg String.toList (Keyword.spelling_of_ofSpelling? hk))
  rw [Keyword.miscased?, hnone, Bool.or_false]
  split
  · rename_i hlong
    rw [ofSpelling?_lower_of_long (of_decide_eq_true hlong)]
  · rfl

theorem reportsOn_identifier (hk : t.kind = .identifier)
    (hw : ∀ k : Keyword, k.spelling.toList ≠ t.lexeme.toList) :
    ReportsOn limits t (t.lexicalDiagnostic? limits).toList := by
  have hfind : LexicalFault.find? limits t.kind t.lexeme
      = (Keyword.ofSpelling? (String.ofList (t.lexeme.toList.map Char.toLower))).map
        (LexicalFault.keywordCase · t.lexeme) := by
    rw [hk, LexicalFault.find?, miscased?_eq hw]
  cases hlower : Keyword.ofSpelling? (String.ofList (t.lexeme.toList.map Char.toLower)) with
  | some k =>
    rw [hlower] at hfind
    refine reportsOn_of_find?_some hfind rfl ?_
    rw [hk]
    refine .miscased k ?_
    rw [Keyword.spelling_of_ofSpelling? hlower, String.toList_ofList]
  | none =>
    rw [hlower] at hfind
    refine reportsOn_of_find?_none hfind ?_
    rw [hk]
    intro l c h
    obtain ⟨k, hspelling⟩ := h.identifier_inv
    rw [hspelling, String.ofList_toList, Keyword.ofSpelling?_spelling] at hlower
    cases hlower

theorem reportsOn_other (h : t.kind ∉ [.invalid, .integer, .string, .identifier]) :
    ReportsOn limits t (t.lexicalDiagnostic? limits).toList := by
  refine reportsOn_of_find?_none ?_ ?_
  · cases hk : t.kind with
    | invalid | integer | string | identifier => simp [hk] at h
    | _ => rfl
  · intro l c hreported
    exact h (by simpa using hreported.kind_inv)

/-- A token that is a lexeme of a text is reported as the table has it. -/
theorem reportsOn_of_nextLexeme {atStart : Bool} {part : List Char} (hpart : part ≠ [])
    (h : NextLexeme atStart part t.kind t.lexeme.toList) :
    ReportsOn limits t (t.lexicalDiagnostic? limits).toList := by
  generalize hk : t.kind = k at h
  generalize hw : t.lexeme.toList = w at h
  cases h with
  | longest hclass =>
    cases hclass with
    | identifier hc hcs hspelling => exact reportsOn_identifier hk (by rw [hw]; exact hspelling)
    | integer => exact reportsOn_integer hk
    | string => exact reportsOn_string hk hw
    | _ => exact reportsOn_other (by simp [hk])
  | invalid => exact reportsOn_invalid hk (by rw [hw]; exact invalidPart_ne_nil hpart)

end

/-- The diagnostics of a text are those of its tokens, one after the other. -/
theorem diagnostics_reportsOn (limits : Limits) (text : String) :
    ∃ reports : List (List Diagnostic),
      (tokenize limits text).diagnostics = reports.flatten ∧
      List.Forall₂ (ReportsOn limits) (tokenize limits text).tokens reports := by
  rw [tokenize_eq]
  refine ⟨(tokens text).map fun t => (t.lexicalDiagnostic? limits).toList, ?_, ?_⟩
  · rw [← List.flatMap_def]
    exact List.filterMap_eq_flatMap_toList _ _
  · rw [List.forall₂_map_right_iff, List.forall₂_same]
    intro t ht
    rcases nextLexeme_of_mem_tokensFrom ht with hkind | ⟨b, part, hpart, hnext⟩
    · exact reportsOn_other (by simp [hkind])
    · exact reportsOn_of_nextLexeme hpart hnext

end Pdl
