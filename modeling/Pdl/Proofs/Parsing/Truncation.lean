import Pdl.Proofs.Parsing.FirstFault
import Pdl.Proofs.Parsing.Place

/-!
# Programs that break off

The beginning of a program has no fault but at its end.  There the parser
misses the rest of the line it is in, if the text breaks off in a line, and
then the closing brace of each block that is open, the innermost one first
(`faults_of_truncated`).

The first fault lies at the end because no program begins with a text and a
kind at which the parser stumbles.  Where it stumbles at the end, the place of
the statement tells what it has missed (`Due.fault_inv`), and then each list of
statements that waits is left with one more fault (`ParseState.faults_run_of_rest_nil`).
-/

namespace Pdl

/-- The fault of a block that is open at the end of the text. -/
def unclosedBlock : SyntaxFault := ⟨.token (.punctuation .closeBrace), 0⟩

/-- A goal that cannot be met asks for the rest of a line, or for a closing brace. -/
theorem Due.fault_inv {p : Place} {g : Goal} {gs : List Goal} {ahead : List TokenKind}
    {e : Expected} (h : Due p (g :: gs)) (hp : g.plan ahead = .fault e) :
    p = .line ∨ p = .inside ∧ e = .token (.punctuation .closeBrace) := by
  cases h with
  | tally | reduce | block => cases hp
  | phrase | ending | openBrace => exact .inl rfl
  | closeBrace =>
    simp only [Goal.plan] at hp
    split at hp
    · cases hp
    · cases hp
      exact .inr ⟨rfl, rfl⟩

namespace ParseState

variable {s t : ParseState} {e : Expected}

/-! ## At the end of the text -/

/-- A list of statements that ends with the text lacks its closing brace. -/
theorem run_leave_of_rest_nil {f : Enclosing} {outer : List Enclosing} {gs : List Goal}
    (hg : s.goals = []) (hr : s.rest = []) (ho : s.outer = f :: outer)
    (hf : f.goals = .mark .closeBrace :: gs) :
    s.run = (({ s with
      goals := [], members := f.members, outer := outer, rest := []
      rules := (.bodyEnd :: s.members).reverse ++ s.rules
      faults := unclosedBlock :: s.faults } : ParseState)).run := by
  have hleave : s.Advances (s.leave f outer) := .leave hg ho (by simp [hr])
  have hread := (Reads.reduces (.bodyEnd :: s.members) f.goals []).proceeds
    (s := s.leave f outer) rfl hr
  have hstumbles : Stumbles { s with
      goals := f.goals, members := f.members, outer := outer, rest := []
      rules := (.bodyEnd :: s.members).reverse ++ s.rules }
      (.token (.punctuation .closeBrace)) := .goal hf rfl
  have hreaches := (Proceeds.reaches (.head hleave hread)).tail (step_of_stumbles hstumbles)
  exact Reaches.run_eq hreaches

/-- At the end of the text each list of statements that waits gives one more fault. -/
theorem faults_run_of_rest_nil (hg : s.goals = []) (hr : s.rest = [])
    (houter : ∀ f ∈ s.outer, ∃ gs, f.goals = .mark .closeBrace :: gs) :
    s.run.faults = List.replicate s.outer.length unclosedBlock ++ s.faults := by
  induction ho : s.outer generalizing s with
  | nil =>
    rw [run_eq_self]
    · rfl
    · simp [step, stepBetween, hg, hr, ho]
  | cons f outer ih =>
    rw [ho] at houter
    obtain ⟨gs, hf⟩ := houter f (.head _)
    rw [run_leave_of_rest_nil hg hr ho hf]
    have hrest := ih (s := { s with
      goals := [], members := f.members, outer := outer, rest := []
      rules := (.bodyEnd :: s.members).reverse ++ s.rules
      faults := unclosedBlock :: s.faults }) rfl rfl
      (fun f' hf' => houter f' (.tail _ hf')) rfl
    rw [hrest, List.length_cons, List.replicate_succ', List.append_assoc]
    rfl

/-! ## The first fault -/

/-- The beginning of a program has no fault in front of its end. -/
theorem rest_of_stumbles_of_generates {u v : List TokenKind}
    (h : Generates .program (u ++ v)) (hp : Proceeds { rest := u } t) (hs : t.Stumbles e) :
    t.rest = [] := by
  cases hr : t.rest with
  | nil => rfl
  | cons k ks =>
    obtain ⟨x, _, rfl, -⟩ := exists_generates_of_proceeds hp
    rw [hr] at h hp
    have hnot := not_generates_of_stumbles hp hr hs (ks ++ v)
    rw [List.append_assoc, List.cons_append] at h
    exact absurd h hnot

end ParseState

/-- The faults of the beginning of a program: one if it breaks off in a line, and then one
for each block that is open. -/
theorem faults_of_truncated {u v : List TokenKind} (h : Generates .program (u ++ v)) :
    ∃ fs n, (parseKinds u).faults = fs ++ List.replicate n unclosedBlock ∧
      (∀ f ∈ fs, f.left = 0) ∧ fs.length = (endsInLine u).toNat ∧
      n + u.count (.punctuation .closeBrace) = u.count (.punctuation .openBrace) := by
  obtain hp | ⟨t, e, hp, hs⟩ := ParseState.proceeds_run_or_stumbles { rest := u }
  · obtain ⟨hg, ho, hr⟩ := ParseState.run_eq_end { rest := u }
    obtain ⟨y, q, hy, hplaced⟩ := hp.placed (ParseState.placed_start u)
    obtain rfl : u = y := by simpa [hr] using hy
    obtain rfl : q = .outside := Due.nil_inv (hg ▸ hplaced.due)
    have hline : endsInLine u = false := by simpa using hplaced.line
    have hbraces := hplaced.braces
    rw [ho] at hbraces
    refine ⟨[], 0, ?_, by simp, by rw [hline]; rfl, hbraces⟩
    rw [faults_parseKinds, hp.faults_eq]
    rfl
  · have hr := ParseState.rest_of_stumbles_of_generates h hp hs
    obtain ⟨y, q, hy, hplaced⟩ := hp.placed (ParseState.placed_start u)
    obtain rfl : u = y := by simpa [hr] using hy
    have hrun : (parseKinds u).faults
        = ⟨e, 0⟩ :: List.replicate t.outer.length unclosedBlock := by
      have hend := ParseState.faults_run_of_rest_nil (s := t.fail e) rfl
        (by simp [ParseState.fail, hr, recover])
        (fun f hf => (hplaced.outer f hf).imp fun _ hgs => hgs.1)
      rw [faults_parseKinds, hp.reaches.run_eq,
        ParseState.run_eq_of_step (ParseState.step_of_stumbles hs), hend]
      simp [ParseState.fail, hp.faults_eq, hr]
    have hbraces := hplaced.braces
    cases hs with
    | between _ hr' => simp [hr] at hr'
    | goal hg hplan =>
      rcases Due.fault_inv (hg ▸ hplaced.due) hplan with rfl | ⟨rfl, rfl⟩
      · have hline : endsInLine u = true := by simpa using hplaced.line
        exact ⟨[⟨e, 0⟩], t.outer.length, hrun, by simp, by rw [hline]; rfl, hbraces⟩
      · have hline : endsInLine u = false := by simpa using hplaced.line
        refine ⟨[], t.outer.length + 1, hrun, by simp, by rw [hline]; rfl, hbraces⟩

/-! ## What is reported -/

theorem kind_endToken (ts : List Token) : (endToken ts).kind = .endOfInput :=
  (Parser.ofTokens ts).kind_endAhead

/-- The beginning of a program is reported at its end only: once for each block that is open,
and once more if it breaks off in a line. -/
theorem diagnostics_of_truncated {ts : List Token} {v : List TokenKind}
    (h : Generates .program (programKinds ts ++ v)) :
    (Parser.ofTokens ts).run.2.1.length + (programKinds ts).count (.punctuation .closeBrace)
        = (programKinds ts).count (.punctuation .openBrace)
          + (endsInLine (programKinds ts)).toNat ∧
      (∀ d ∈ (Parser.ofTokens ts).run.2.1, d.level = .error ∧
        d.code = some .unexpectedEnd ∧ d.span = (endToken ts).span) ∧
      ((Parser.ofTokens ts).run.2.1 = [] ↔ Generates .program (programKinds ts)) := by
  obtain ⟨fs, n, hfaults, hleft, hlength, hbraces⟩ := faults_of_truncated h
  have hrun : (Parser.ofTokens ts).run.2.1 = (parseKinds (programKinds ts)).faults.map
      fun f => f.diagnostic ((Parser.ofTokens ts).tokenOf f) := Parser.diagnostics_ofTokens ts
  refine ⟨?_, ?_, ?_⟩
  · rw [hrun, hfaults, List.length_map, List.length_append, List.length_replicate]
    omega
  · have hend : ∀ f ∈ (parseKinds (programKinds ts)).faults, f.left = 0 := by
      rw [hfaults]
      intro f hf
      rcases List.mem_append.1 hf with hf | hf
      · exact hleft f hf
      · rw [List.eq_of_mem_replicate hf]
        rfl
    intro d hd
    rw [hrun, List.mem_map] at hd
    obtain ⟨f, hf, rfl⟩ := hd
    have htoken : (Parser.ofTokens ts).tokenOf f = endToken ts := by
      rw [Parser.tokenOf, hend f hf]
      exact List.getD_eq_default _ _ (Nat.le_refl _)
    have hcode : (f.diagnostic (endToken ts)).code = some .unexpectedEnd := by
      simp [SyntaxFault.diagnostic, Expected.diagnostic, kind_endToken]
    rw [htoken]
    exact ⟨rfl, hcode, rfl⟩
  · rw [hrun, List.map_eq_nil_iff, faults_eq_nil_iff]

/-- A loop that breaks off in the middle of its first statement. -/
def brokenLoop : List Token :=
  tokensOf [.keyword .while, .punctuation .openParen, .identifier, .punctuation .closeParen,
    .punctuation .openBrace, .keyword .put, .endOfInput]

theorem diagnostics_brokenLoop :
    Generates .program
        (programKinds brokenLoop ++ [.integer, .punctuation .semicolon, .punctuation .closeBrace]) ∧
      (Parser.ofTokens brokenLoop).run.2.1.length = 2 := by
  have hprogram : Generates .program (programKinds brokenLoop ++
      [.integer, .punctuation .semicolon, .punctuation .closeBrace]) :=
    generates_of_faults_eq_nil (faults_parseKinds_of_runFor 60 [] (by decide) (by decide))
  obtain ⟨hlength, -, -⟩ := diagnostics_of_truncated hprogram
  have hkinds : programKinds brokenLoop = [.keyword .while, .punctuation .openParen,
      .identifier, .punctuation .closeParen, .punctuation .openBrace, .keyword .put] := by decide
  rw [hkinds] at hlength
  exact ⟨hprogram, hlength⟩

end Pdl
