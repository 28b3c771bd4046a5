import Mathlib.Data.List.Pairwise
import Pdl.Proofs.Parsing.FaultOrder
import Pdl.Proofs.Reformatting
import Pdl.Proofs.Text.PositionOrder

/-!
# The order of the diagnostics

An analysis merges the diagnostics of its two phases by their places (`Merges`).

Sorting is stable, so a part of the list that is in order already comes out as it
was (`filter_sortByStart`).  The diagnostics of each phase are such a part: the
tokens start at later and later places, a lexeme is reported at most once, and no
fault of the grammar lies in front of an earlier one.  So are the diagnostics at one
place, of which the lexical ones come first.

All places are those of tokens, and where a token starts later it also has a later
line, or a later column in the same line.  So the places are in order too.
-/

namespace Pdl

/-- The phase that a diagnostic belongs to. -/
def Diagnostic.phase? (d : Diagnostic) : Option Phase := d.code.bind Code.phase?

/-- The diagnostics `ds` are those of both phases, merged by their places. -/
structure Merges (lexical grammatical ds : List Diagnostic) : Prop where
  perm : ds.Perm (lexical ++ grammatical)
  /-- Each phase keeps the order in which it reports. -/
  lexical_eq : ds.filter (·.phase? == some .lexical) = lexical
  grammatical_eq : ds.filter (·.phase? == some .grammatical) = grammatical
  starts : ds.Pairwise fun d e => d.span.start ≤ e.span.start
  /-- Lines do not go back, nor do the columns of one line. -/
  places : ds.Pairwise fun d e => d.span.line < e.span.line ∨
    d.span.line = e.span.line ∧ d.span.column ≤ e.span.column
  /-- At one place the lexical diagnostics come first. -/
  lexical_first : ds.Pairwise fun d e => d.phase? = some .grammatical →
    e.phase? = some .lexical → d.span.start < e.span.start

/-! ## Stable sorting -/

theorem start_le_trans (a b c : Diagnostic) (hab : decide (a.span.start ≤ b.span.start) = true)
    (hbc : decide (b.span.start ≤ c.span.start) = true) :
    decide (a.span.start ≤ c.span.start) = true := by
  rw [decide_eq_true_eq] at hab hbc ⊢
  exact Nat.le_trans hab hbc

theorem start_le_total (a b : Diagnostic) :
    (decide (a.span.start ≤ b.span.start) || decide (b.span.start ≤ a.span.start)) = true := by
  rw [Bool.or_eq_true, decide_eq_true_eq, decide_eq_true_eq]
  exact Nat.le_total _ _

theorem perm_sortByStart (ds : List Diagnostic) : (sortByStart ds).Perm ds :=
  List.mergeSort_perm ds _

theorem pairwise_sortByStart (ds : List Diagnostic) :
    (sortByStart ds).Pairwise fun d e => d.span.start ≤ e.span.start :=
  (List.pairwise_mergeSort start_le_trans start_le_total ds).imp of_decide_eq_true

/-- A part that is in order comes out as it was. -/
theorem filter_sortByStart {ds : List Diagnostic} {p : Diagnostic → Bool}
    (h : (ds.filter p).Pairwise fun d e => d.span.start ≤ e.span.start) :
    (sortByStart ds).filter p = ds.filter p := by
  have hsub : (ds.filter p).Sublist (sortByStart ds) :=
    List.sublist_mergeSort start_le_trans start_le_total (h.imp decide_eq_true) List.filter_sublist
  have hfilter : (ds.filter p).Sublist ((sortByStart ds).filter p) := by
    simpa using hsub.filter p
  exact (hfilter.eq_of_length ((perm_sortByStart ds).filter p).length_eq.symm).symm

/-- The diagnostics at one place keep their order. -/
theorem filter_start_sortByStart (ds : List Diagnostic) (n : Nat) :
    (sortByStart ds).filter (·.span.start == n) = ds.filter (·.span.start == n) := by
  refine filter_sortByStart (List.pairwise_of_forall_mem_list ?_)
  intro d hd e he
  have hd' := (List.mem_filter.1 hd).2
  have he' := (List.mem_filter.1 he).2
  rw [beq_iff_eq] at hd' he'
  exact Nat.le_of_eq (hd'.trans he'.symm)

/-- What holds among the members at each place holds of members at the same place. -/
theorem pairwise_of_filter_start {R : Diagnostic → Diagnostic → Prop} {ds : List Diagnostic}
    (h : ∀ n, (ds.filter (·.span.start == n)).Pairwise R) :
    ds.Pairwise fun d e => d.span.start = e.span.start → R d e := by
  induction ds with
  | nil => exact .nil
  | cons d ds ih =>
    refine .cons ?_ (ih fun n => ?_)
    · intro e he hstart
      have hd := h d.span.start
      rw [List.filter_cons_of_pos (by simp)] at hd
      exact (List.pairwise_cons.1 hd).1 e (List.mem_filter.2 ⟨he, by simp [hstart]⟩)
    · exact (h n).sublist ((List.sublist_cons_self d ds).filter _)

/-- A merge of diagnostics whose places are in order in each phase. -/
theorem merges_sortByStart {lexical grammatical : List Diagnostic}
    (hlexical : ∀ d ∈ lexical, d.phase? = some .lexical)
    (hgrammatical : ∀ d ∈ grammatical, d.phase? = some .grammatical)
    (hstarts : lexical.Pairwise fun d e => d.span.start ≤ e.span.start)
    (hstarts' : grammatical.Pairwise fun d e => d.span.start ≤ e.span.start)
    (hplaces : ∀ d ∈ lexical ++ grammatical, ∀ e ∈ lexical ++ grammatical,
      d.span.start ≤ e.span.start → d.span.line < e.span.line ∨
        d.span.line = e.span.line ∧ d.span.column ≤ e.span.column) :
    Merges lexical grammatical (sortByStart (lexical ++ grammatical)) := by
  have hperm := perm_sortByStart (lexical ++ grammatical)
  have hsorted := pairwise_sortByStart (lexical ++ grammatical)
  have hfilter : (lexical ++ grammatical).filter (·.phase? == some .lexical) = lexical := by
    have hnone : grammatical.filter (·.phase? == some .lexical) = [] := by
      rw [List.filter_eq_nil_iff]
      intro d hd
      simp [hgrammatical d hd]
    rw [List.filter_append, hnone, List.append_nil, List.filter_eq_self]
    simpa using hlexical
  have hfilter' : (lexical ++ grammatical).filter (·.phase? == some .grammatical)
      = grammatical := by
    have hnone : lexical.filter (·.phase? == some .grammatical) = [] := by
      rw [List.filter_eq_nil_iff]
      intro d hd
      simp [hlexical d hd]
    rw [List.filter_append, hnone, List.nil_append, List.filter_eq_self]
    simpa using hgrammatical
  refine ⟨hperm, ?_, ?_, hsorted, ?_, ?_⟩
  · rw [filter_sortByStart (by rwa [hfilter]), hfilter]
  · rw [filter_sortByStart (by rwa [hfilter']), hfilter']
  · refine hsorted.imp_of_mem ?_
    intro d e hd he hle
    exact hplaces d (hperm.mem_iff.1 hd) e (hperm.mem_iff.1 he) hle
  · -- In the list that is sorted, no grammatical diagnostic comes before a lexical one.
    have hfirst : (lexical ++ grammatical).Pairwise fun d e =>
        ¬ (d.phase? = some .grammatical ∧ e.phase? = some .lexical) := by
      refine List.pairwise_append.2 ⟨?_, ?_, ?_⟩
      · refine List.pairwise_of_forall_mem_list fun d hd e _ => ?_
        simp [hlexical d hd]
      · refine List.pairwise_of_forall_mem_list fun d _ e he => ?_
        simp [hgrammatical e he]
      · intro d hd e he
        simp [hlexical d hd]
    have hplace : ∀ n, ((sortByStart (lexical ++ grammatical)).filter (·.span.start == n)).Pairwise
        fun d e => ¬ (d.phase? = some .grammatical ∧ e.phase? = some .lexical) := by
      intro n
      rw [filter_start_sortByStart]
      exact hfirst.filter _
    have hties := pairwise_of_filter_start hplace
    refine (hsorted.and hties).imp ?_
    rintro d e ⟨hle, hne⟩ hd he
    exact Nat.lt_of_le_of_ne hle fun heq => hne heq ⟨hd, he⟩

/-! ## The places of tokens -/

/-- Behind the first token from a cursor the place is a later one. -/
theorem precedes_move_tokenAt {c : Cursor} (h : c.rest ≠ []) :
    c.position.Precedes (c.move (tokenAt c).2).position :=
  Position.precedes_after (take_tokenAt_ne_nil h) _

theorem precedes_of_mem_tokensFrom {c : Cursor} {t : Token} (ht : t ∈ tokensFrom c) :
    t.span.position = c.position ∨ c.position.Precedes t.span.position := by
  fun_induction tokensFrom c with
  | case1 c h =>
    rw [List.mem_singleton.1 ht]
    exact .inl (position_tokenAt c)
  | case2 c h ih =>
    rcases List.mem_cons.1 ht with rfl | ht
    · exact .inl (position_tokenAt c)
    · right
      have hmove := precedes_move_tokenAt h
      rcases ih ht with heq | hlater
      · rwa [heq]
      · exact hmove.trans hlater

theorem pairwise_precedes_tokensFrom (c : Cursor) :
    (tokensFrom c).Pairwise fun t u => t.span.position.Precedes u.span.position := by
  fun_induction tokensFrom c with
  | case1 c h => exact List.pairwise_singleton _ _
  | case2 c h ih =>
    refine .cons ?_ ih
    intro u hu
    rw [position_tokenAt]
    have hmove := precedes_move_tokenAt h
    rcases precedes_of_mem_tokensFrom hu with heq | hlater
    · rwa [heq]
    · exact hmove.trans hlater

/-- Where a token starts no later than another one, its place is not behind that of the other. -/
theorem place_le_of_start_le {text : String} {t u : Token} (ht : t ∈ tokens text)
    (hu : u ∈ tokens text) (h : t.span.start ≤ u.span.start) :
    t.span.line < u.span.line ∨ t.span.line = u.span.line ∧ t.span.column ≤ u.span.column := by
  have hbefore : (tokens text).Pairwise fun t u => t.span.start ≤ u.span.start →
      ¬ u.span.position.Precedes t.span.position := by
    refine (pairwise_precedes_tokensFrom (.ofText text)).imp ?_
    intro t u hprecedes _
    simp only [Position.Precedes] at *
    omega
  have hafter : (tokens text).Pairwise (flip fun t u => t.span.start ≤ u.span.start →
      ¬ u.span.position.Precedes t.span.position) := by
    refine (pairwise_start_tokensFrom (.ofText text)).imp ?_
    intro t u hlt hle
    exact absurd hlt (Nat.not_lt_of_le hle)
  have hsame : ∀ t ∈ tokens text, t.span.start ≤ t.span.start →
      ¬ t.span.position.Precedes t.span.position := by
    simp [Position.Precedes]
  have hnot := hbefore.forall_of_forall_of_flip hsame hafter ht hu h
  simp only [Position.Precedes, Span.position] at hnot
  omega

/-! ## The tokens of the parser -/

/-- The content of a text ends in the one token of kind `endOfInput`. -/
theorem contentTokens_tokens (text : String) :
    ∃ ts e, contentTokens (tokens text) = ts ++ [e] ∧ (∀ t ∈ ts, t.kind ≠ .endOfInput) ∧
      e.kind = .endOfInput := by
  obtain ⟨ts, e, hts, hkinds, he⟩ := exists_end_tokensFrom (.ofText text)
  refine ⟨contentTokens ts, e, ?_, ?_, he⟩
  · rw [tokens, hts, contentTokens_concat he]
  · exact fun t ht => hkinds t (mem_contentTokens.1 ht).1

/-- The parser sees the significant tokens of a text, and the last of them is its end. -/
theorem significantTokens_tokens (text : String) :
    significantTokens (tokens text) = programTokens (tokens text) ++ [endToken (tokens text)] := by
  obtain ⟨ts, e, hcontent, hts, he⟩ := contentTokens_tokens text
  obtain ⟨htokens, hend⟩ := programTokens_of_contentTokens hcontent hts he
  rw [htokens, hend]
  exact significantTokens_of_contentTokens hcontent he

/-- A fault lies at the token with its number of kinds left, the end included. -/
theorem getElem?_tokenOf (ts : List Token) (fault : SyntaxFault) :
    (programTokens ts ++ [endToken ts])[(programTokens ts).length - fault.left]?
      = some ((Parser.ofTokens ts).tokenOf fault) := by
  rw [Parser.tokenOf, Parser.unread_ofTokens, Parser.endAhead_ofTokens, List.getD_eq_getElem?_getD]
  rcases Nat.lt_or_ge ((programTokens ts).length - fault.left) (programTokens ts).length
    with hlt | hge
  · rw [List.getElem?_append_left hlt, List.getElem?_eq_getElem hlt, Option.getD_some]
  · obtain heq : (programTokens ts).length - fault.left = (programTokens ts).length := by omega
    rw [heq, List.getElem?_concat_length, List.getElem?_eq_none (Nat.le_refl _),
      Option.getD_none]

/-- The parser reports no place in front of an earlier one. -/
theorem pairwise_start_diagnostics (text : String) :
    (Parser.ofTokens (tokens text)).diagnostics.Pairwise
      fun d e => d.span.start ≤ e.span.start := by
  have hstarts := (pairwise_start_tokensFrom (.ofText text)).filter Token.isSignificant
  have hsignificant := significantTokens_tokens text
  rw [significantTokens, tokens] at hsignificant
  rw [hsignificant, List.pairwise_iff_getElem] at hstarts
  rw [Parser.diagnostics_ofTokens, List.pairwise_map]
  refine (pairwise_faults_parseKinds _).imp ?_
  intro f g hleft
  change ((Parser.ofTokens (tokens text)).tokenOf f).span.start
    ≤ ((Parser.ofTokens (tokens text)).tokenOf g).span.start
  obtain ⟨hi, hf⟩ := List.getElem?_eq_some_iff.1 (getElem?_tokenOf (tokens text) f)
  obtain ⟨hj, hg⟩ := List.getElem?_eq_some_iff.1 (getElem?_tokenOf (tokens text) g)
  rw [← hf, ← hg]
  rcases Nat.eq_or_lt_of_le (Nat.sub_le_sub_left hleft (programTokens (tokens text)).length)
    with heq | hlt
  · simp only [heq, Nat.le_refl]
  · exact Nat.le_of_lt (hstarts _ _ hi hj hlt)

/-- What the parser reports lies at a significant token. -/
theorem exists_significant_of_mem_diagnostics {text : String} {d : Diagnostic}
    (hd : d ∈ (Parser.ofTokens (tokens text)).diagnostics) :
    ∃ fault : SyntaxFault, ∃ t ∈ tokens text, t.isSignificant = true ∧ d = fault.diagnostic t := by
  obtain ⟨fault, t, ht, rfl⟩ := Parser.exists_fault_of_mem_diagnostics hd
  rw [← significantTokens_tokens text] at ht
  obtain ⟨ht, hsignificant⟩ := List.mem_filter.1 ht
  exact ⟨fault, t, ht, hsignificant, rfl⟩

/-! ## The phases -/

theorem phase?_of_lexicalDiagnostic? {limits : Limits} {t : Token} {d : Diagnostic}
    (h : t.lexicalDiagnostic? limits = some d) : d.phase? = some .lexical := by
  obtain ⟨f, -, rfl⟩ := Option.map_eq_some_iff.1 h
  cases f <;> rfl

theorem SyntaxFault.phase?_diagnostic (fault : SyntaxFault) (t : Token) :
    (fault.diagnostic t).phase? = some .grammatical := by
  rw [Diagnostic.phase?]
  rcases (fault.reportsAt_diagnostic t).code with hcode | hcode | hcode <;> rw [hcode] <;> rfl

/-- The lexemes that are reported start at later and later places. -/
theorem pairwise_start_lexicalDiagnostics (limits : Limits) (text : String) :
    (lexicalDiagnostics limits (tokens text)).Pairwise fun d e => d.span.start < e.span.start := by
  refine List.Pairwise.filterMap _ ?_ (pairwise_start_tokensFrom (.ofText text))
  intro t u hlt d hd e he
  rwa [Token.span_of_lexicalDiagnostic? hd, Token.span_of_lexicalDiagnostic? he]

/-! ## Analyses -/

/-- The diagnostics of an analysis are those of its two phases, merged by their places.  A
lexeme is reported once, and a fault of the grammar at a significant token. -/
theorem merges_analyze (limits : Limits) (text : String) :
    Merges (tokenize limits text).diagnostics
        (Parser.ofTokens (tokenize limits text).tokens).run.2.1
        (analyze limits text).diagnostics ∧
      ((tokenize limits text).diagnostics.Pairwise fun d e => d.span.start < e.span.start) ∧
      ∀ d ∈ (Parser.ofTokens (tokenize limits text).tokens).run.2.1,
        ∃ t ∈ (analyze limits text).tokens, t.isSignificant = true ∧ d.span = t.span ∧
          (t.kind = .endOfInput ↔ d.code = some ⟨"E", 2003⟩) := by
  have hlexical := pairwise_start_lexicalDiagnostics limits text
  rw [analyze_eq, tokenize_eq]
  refine ⟨merges_sortByStart ?_ ?_ (hlexical.imp Nat.le_of_lt) (pairwise_start_diagnostics text) ?_,
    hlexical, fun d hd => ?_⟩
  · intro d hd
    obtain ⟨t, -, ht⟩ := List.mem_filterMap.1 hd
    exact phase?_of_lexicalDiagnostic? ht
  · intro d hd
    obtain ⟨fault, t, -, rfl⟩ := Parser.exists_fault_of_mem_diagnostics hd
    exact fault.phase?_diagnostic t
  · obtain ⟨ts, e, hcontent, hts, hend⟩ := contentTokens_tokens text
    intro d hd d' hd' hle
    obtain ⟨t, ht, hspan⟩ := exists_token_of_diagnostic hcontent hts hend hd
    obtain ⟨u, hu, hspan'⟩ := exists_token_of_diagnostic hcontent hts hend hd'
    rw [hspan, hspan'] at hle ⊢
    exact place_le_of_start_le (mem_contentTokens.1 ht).1 (mem_contentTokens.1 hu).1 hle
  · obtain ⟨fault, t, ht, hsignificant, rfl⟩ := exists_significant_of_mem_diagnostics hd
    exact ⟨t, ht, hsignificant, rfl, (fault.reportsAt_diagnostic t).unexpectedEnd_iff.symm⟩

end Pdl
