import Mathlib.Data.List.GetD
import Mathlib.Data.List.TakeWhile
import Pdl.Proofs.Parsing.FaultOrder
import Pdl.Proofs.Parsing.Charges
import Pdl.Proofs.Parsing.Truncation

/-!
# A program in front of other tokens

Tokens behind a program are read as if the program were not there.  The program
only adds its rules and its members to what the rest gives (`run_append`).

A run over a program goes the same way whatever follows it.  A plan looks at the
kinds behind the program only where its last kind is the next one, or where no
kind of it is left.  The last kind is a semicolon or a brace, and a plan that
reads one of these does not look further.  Behind it the program has nothing left
to do but to record rules (`Advances.extend`).

The run then stands between two members of the program, as at the beginning, but
with rules and members already there.  A run takes no account of them
(`ParseState.run_appendRecords`), since all that a list of members decides is
which rules are recorded at the end of a block.
-/

namespace Pdl

/-! ## The parts of a trace -/

/-- The parts of a trace: the rules in front of the end of the program, then behind it those of
the members of the program, and the last one if the program is accepted. -/
structure Trace.Parts (t : Trace) (body members closing : List Rule) : Prop where
  rules_eq : t.rules = body ++ .programEnd :: members ++ closing
  members : ∀ r ∈ members, r = .programStatement ∨ r = .programFunction
  closing : closing = [.accept] ∨ closing = []

theorem Rule.ne_programEnd_of_member {r : Rule} (h : r = .programStatement ∨ r = .programFunction) :
    r ≠ .programEnd ∧ r ≠ .accept := by
  rcases h with rfl | rfl <;> decide

namespace Trace.Parts

variable {t : Trace} {b m c b' m' c' : List Rule}

/-- The rules behind the end of the program. -/
theorem takeWhile_reverse (h : t.Parts b m c) :
    t.rules.reverse.takeWhile (· != .programEnd) = c.reverse ++ m.reverse ∧
      t.rules.reverse.dropWhile (· != .programEnd) = .programEnd :: b.reverse := by
  have hreverse : t.rules.reverse = (c.reverse ++ m.reverse) ++ .programEnd :: b.reverse := by
    rw [h.rules_eq]
    simp
  have hother : ∀ r ∈ c.reverse ++ m.reverse, (r != .programEnd) = true := by
    intro r hr
    rw [bne_iff_ne]
    rcases List.mem_append.1 hr with hr | hr
    · rw [List.mem_reverse] at hr
      rcases h.closing with rfl | rfl
      · rw [List.mem_singleton.1 hr]
        decide
      · cases hr
    · exact (Rule.ne_programEnd_of_member (h.members r (List.mem_reverse.1 hr))).1
  rw [hreverse, List.takeWhile_append_of_pos hother, List.dropWhile_append_of_pos hother]
  simp

/-- The members are what stands behind the end of the program and is not the last rule. -/
theorem filter_members (h : t.Parts b m c) : (m ++ c).filter (· != .accept) = m := by
  have hm : m.filter (· != .accept) = m := by
    rw [List.filter_eq_self]
    intro r hr
    rw [bne_iff_ne]
    exact (Rule.ne_programEnd_of_member (h.members r hr)).2
  have hc : c.filter (· != .accept) = [] := by
    rcases h.closing with rfl | rfl <;> rfl
  rw [List.filter_append, hm, hc, List.append_nil]

/-- A trace has these parts in one way only. -/
theorem unique (h : t.Parts b m c) (h' : t.Parts b' m' c') : b = b' ∧ m = m' ∧ c = c' := by
  obtain ⟨htake, hdrop⟩ := h.takeWhile_reverse
  obtain ⟨htake', hdrop'⟩ := h'.takeWhile_reverse
  rw [htake, ← List.reverse_append, ← List.reverse_append] at htake'
  rw [hdrop] at hdrop'
  have hbody : b = b' := by simpa using hdrop'
  have hbehind : m ++ c = m' ++ c' := List.reverse_injective htake'
  have hmembers : m = m' := by rw [← h.filter_members, hbehind, h'.filter_members]
  subst hmembers
  exact ⟨hbody, rfl, List.append_cancel_left hbehind⟩

end Trace.Parts

/-! ## Members of lists -/

/-- A goal that records a member does so by a rule of the list. -/
def Goal.talliesIn (inBlock : Bool) : Goal → Bool
  | .tally r => (memberRules inBlock).contains r
  | _ => true

theorem Goal.talliesIn_of_not_settles {g : Goal} (h : g.settles = false) (inBlock : Bool) :
    g.talliesIn inBlock = true := by
  cases g with
  | tally r => cases h
  | _ => rfl

theorem all_talliesIn {goals : List Goal} (h : goals.countP Goal.settles = 0) (inBlock : Bool) :
    goals.all (Goal.talliesIn inBlock) = true := by
  rw [List.all_eq_true]
  intro g hg
  refine Goal.talliesIn_of_not_settles ?_ inBlock
  simpa using List.countP_eq_zero.1 h g hg

/-- The members of nested lists, the innermost first, are recorded by the rules of their list. -/
inductive Listed : List Enclosing → Prop where
  | nil : Listed []
  | cons {e : Enclosing} {outer : List Enclosing} (h : Listed outer)
      (hm : ∀ r ∈ e.members, r ∈ memberRules (!outer.isEmpty))
      (hg : e.goals.all (Goal.talliesIn (!outer.isEmpty)) = true) : Listed (e :: outer)

namespace ParseState

variable {s t : ParseState}

/-- The innermost list and those around it. -/
def lists (s : ParseState) : List Enclosing := ⟨s.members, s.goals⟩ :: s.outer

theorem Advances.listed (h : s.Advances t) (hs : Listed s.lists) : Listed t.lists := by
  obtain _ | @⟨_, _, houter, hm, hgoals⟩ := hs
  cases h with
  | @begin k ks goals hg hr hb hk =>
    have hall : ∀ b, ∀ p ∈ memberReadings b, p.2.all (Goal.talliesIn b) = true := by decide
    exact .cons houter hm (hall _ _ (mem_memberReadings hk))
  | @leave e outer hg ho hr =>
    rw [ho] at houter
    cases houter with
    | cons houter hm' hgoals' =>
      refine .cons houter hm' ?_
      simpa [ParseState.leave, Goal.talliesIn] using hgoals'
  | @shift g gs goals k ks hg hr hp =>
    have hnew := all_talliesIn (countP_settles_of_readings (mem_readings_of_plan hp)) s.inBlock
    simp only [hg, List.all_cons, Bool.and_eq_true] at hgoals
    refine .cons houter hm ?_
    rw [List.all_append, hgoals.2, Bool.and_true]
    exact hnew
  | @expand g gs goals hg hp =>
    have hnew := all_talliesIn (countP_settles_of_expansions (mem_expansions_of_plan hp)) s.inBlock
    simp only [hg, List.all_cons, Bool.and_eq_true] at hgoals
    refine .cons houter hm ?_
    rw [List.all_append, hgoals.2, Bool.and_true]
    exact hnew
  | complete hg =>
    simp only [hg, List.all_cons, Bool.and_eq_true] at hgoals
    exact .cons houter hm hgoals.2
  | @count r gs hg =>
    simp only [hg, List.all_cons, Bool.and_eq_true] at hgoals
    refine .cons houter ?_ hgoals.2
    intro q hq
    rcases List.mem_cons.1 hq with rfl | hq
    · simpa [Goal.talliesIn] using hgoals.1
    · exact hm q hq
  | enter hg =>
    simp only [hg, List.all_cons, Bool.and_eq_true] at hgoals
    exact .cons (.cons houter hm hgoals.2) (by simp) rfl

theorem Reaches.listed (h : s.Reaches t) (hs : Listed s.lists) : Listed t.lists := by
  induction h with
  | refl => exact hs
  | tail _ h ih =>
    obtain hadvances | ⟨e, -, rfl⟩ := step_eq_some_iff.1 h
    · exact hadvances.listed ih
    · -- A fault drops goals.
      cases ih with
      | cons houter hm _ => exact .cons houter hm rfl

/-- The members of a program are statements and functions. -/
theorem mem_members_run {w : List TokenKind} {r : Rule} (h : r ∈ (run { rest := w }).members) :
    r = .programStatement ∨ r = .programFunction := by
  have hlisted := (reaches_run { rest := w }).listed (.cons .nil (by simp) rfl)
  obtain ⟨-, ho, -⟩ := run_eq_end { rest := w }
  rw [lists, ho] at hlisted
  cases hlisted with
  | cons _ hm _ => simpa [memberRules] using hm r h

/-! ## Records that are there before -/

/-- The nested lists with the members `ms` in front of those of the outermost one. -/
def appendMembers (ms : List Rule) : List Enclosing → List Enclosing
  | [] => []
  | [e] => [{ e with members := e.members ++ ms }]
  | e :: f :: outer => e :: appendMembers ms (f :: outer)

/-- The state with the members `ms` in front of those of the program, and the rules `rs` in
front of its own. -/
def appendRecords (s : ParseState) (ms rs : List Rule) : ParseState :=
  { s with
    members := if s.outer = [] then s.members ++ ms else s.members
    outer := appendMembers ms s.outer
    rules := s.rules ++ rs }

theorem appendMembers_eq_nil_iff {ms : List Rule} {outer : List Enclosing} :
    appendMembers ms outer = [] ↔ outer = [] := by
  fun_cases appendMembers ms outer <;> simp

variable (ms rs : List Rule)

theorem inBlock_appendRecords : (s.appendRecords ms rs).inBlock = s.inBlock := by
  rw [inBlock, inBlock, Bool.not_inj_iff, Bool.eq_iff_iff, List.isEmpty_iff, List.isEmpty_iff]
  exact appendMembers_eq_nil_iff

theorem Advances.appendRecords (h : s.Advances t) :
    (s.appendRecords ms rs).Advances (t.appendRecords ms rs) := by
  cases h with
  | begin hg hr hb hm =>
    rw [← inBlock_appendRecords ms rs] at hb hm
    exact .begin hg hr hb hm
  | @leave e outer hg ho hr =>
    -- The list that ends is not the outermost one, so its members are what they were.
    cases outer with
    | nil =>
      have houter : (s.appendRecords ms rs).outer = [{ e with members := e.members ++ ms }] := by
        simp [ParseState.appendRecords, ho, appendMembers]
      have hleave := Advances.leave (s := s.appendRecords ms rs) hg houter hr
      simpa [ParseState.appendRecords, ParseState.leave, ho, appendMembers] using hleave
    | cons f outer =>
      have houter : (s.appendRecords ms rs).outer = e :: appendMembers ms (f :: outer) := by
        simp [ParseState.appendRecords, ho, appendMembers]
      have hleave := Advances.leave (s := s.appendRecords ms rs) hg houter hr
      simpa [ParseState.appendRecords, ParseState.leave, ho, appendMembers] using hleave
  | shift hg hr hp => exact .shift hg hr hp
  | expand hg hp => exact .expand hg hp
  | complete hg => exact .complete hg
  | @count r gs hg =>
    have hcount := Advances.count (s := s.appendRecords ms rs) hg
    by_cases ho : s.outer = [] <;>
      simpa [ParseState.appendRecords, ho] using hcount
  | @enter gs hg =>
    have henter := Advances.enter (s := s.appendRecords ms rs) hg
    cases ho : s.outer <;>
      simpa [ParseState.appendRecords, ho, appendMembers] using henter

theorem Stumbles.appendRecords {e : Expected} (h : s.Stumbles e) :
    (s.appendRecords ms rs).Stumbles e := by
  cases h with
  | between hg hr hb hm =>
    rw [← inBlock_appendRecords ms rs] at hb hm
    exact .between hg hr hb hm
  | goal hg hp => exact .goal hg hp

theorem fail_appendRecords (s : ParseState) (e : Expected) :
    (s.appendRecords ms rs).fail e = (s.fail e).appendRecords ms rs := by
  rw [fail, inBlock_appendRecords]
  rfl

theorem Reaches.appendRecords (h : s.Reaches t) :
    (s.appendRecords ms rs).Reaches (t.appendRecords ms rs) := by
  induction h with
  | refl => exact .refl
  | @tail u t _ h ih =>
    refine ih.tail ?_
    rw [step_eq_some_iff] at h ⊢
    obtain hadvances | ⟨e, hstumbles, rfl⟩ := h
    · exact .inl (hadvances.appendRecords ms rs)
    · exact .inr ⟨e, hstumbles.appendRecords ms rs, (fail_appendRecords ms rs u e).symm⟩

/-- A run takes no account of what is recorded before it. -/
theorem run_appendRecords (s : ParseState) :
    (s.appendRecords ms rs).run = s.run.appendRecords ms rs := by
  obtain ⟨hg, ho, hr⟩ := run_eq_end s
  refine run_eq_of_reaches_end ((reaches_run s).appendRecords ms rs) hg ?_ hr
  rw [ParseState.appendRecords, ho]
  rfl

/-! ## A program and what follows it -/

/-- A plan looks further than to the next kind only if that is a name. -/
theorem plan_of_ne_identifier {g : Goal} {k : TokenKind} (hk : k ≠ .identifier)
    (v v' : List TokenKind) : g.plan (k :: v) = g.plan (k :: v') := by
  cases g with
  | primary =>
    cases k with
    | identifier => exact absurd rfl hk
    | punctuation p => cases p <;> rfl
    | _ => rfl
  | _ => rfl

/-- A text whose lines and blocks are all complete. -/
structure Closed (w : List TokenKind) : Prop where
  line : endsInLine w = false
  braces : w.count (.punctuation .closeBrace) = w.count (.punctuation .openBrace)

/-- At the end of such a text the innermost list is that of the program, and the statement is
complete. -/
theorem Placed.end_inv {x : List TokenKind} {p : Place} (hs : s.Placed x p) (hx : Closed x) :
    p = .outside ∧ s.outer = [] := by
  have hbraces := hs.braces
  rw [hx.braces] at hbraces
  have hline : p ≠ .line := by
    rw [ne_eq, hs.line, hx.line]
    exact Bool.false_ne_true
  cases p with
  | outside => exact ⟨rfl, List.length_eq_zero_iff.1 (by simpa [Place.depth] using hbraces)⟩
  | line => exact absurd rfl hline
  | inside =>
    simp only [Place.depth] at hbraces
    omega

/-- Up to the end of such a text the steps are the same whatever follows it. -/
theorem Advances.extend {x : List TokenKind} {p : Place} (h : s.Advances t) (hs : s.Placed x p)
    (hclosed : Closed (x ++ s.rest)) (v : List TokenKind) :
    Advances { s with rest := s.rest ++ v } { t with rest := t.rest ++ v } := by
  have hend : s.rest = [] → p = .outside ∧ s.outer = [] := by
    intro hr
    rw [hr, List.append_nil] at hclosed
    exact hs.end_inv hclosed
  cases h with
  | begin hg hr hb hm => exact .begin hg (by simp [hr]) hb hm
  | @leave e outer hg ho hr =>
    refine .leave (s := { s with rest := s.rest ++ v }) hg ho ?_
    cases hrest : s.rest with
    | nil =>
      rw [(hend hrest).2] at ho
      cases ho
    | cons k ks =>
      rw [hrest] at hr
      exact hr
  | @shift g gs goals k ks hg hr hp =>
    have hr' : s.rest ++ v = k :: (ks ++ v) := by rw [hr, List.cons_append]
    refine .shift (s := { s with rest := s.rest ++ v }) hg hr' ?_
    rw [← hp]
    cases ks with
    | nil =>
      -- The kind is the last one, so it is no name.
      have hline := hclosed.line
      rw [hr, endsInLine_concat, Bool.not_eq_false'] at hline
      exact plan_of_ne_identifier (by rintro rfl; cases hline) _ _
    | cons j ks => exact plan_two g k j _ _
  | @expand g gs goals hg hp =>
    refine .expand (s := { s with rest := s.rest ++ v }) hg ?_
    cases hrest : s.rest with
    | nil =>
      obtain ⟨rfl, -⟩ := hend hrest
      have hdue := hs.due
      rw [hg] at hdue
      cases hdue <;> cases hp
    | cons k ks =>
      rw [hrest] at hp
      rw [List.cons_append, ← hp]
      exact (plan_one _ (by simp [hp])).symm
  | complete hg => exact .complete hg
  | count hg => exact .count hg
  | enter hg => exact .enter hg

theorem Proceeds.extend {w : List TokenKind} (h : Proceeds { rest := w } t) (hclosed : Closed w)
    (v : List TokenKind) : Proceeds { rest := w ++ v } { t with rest := t.rest ++ v } := by
  induction h with
  | refl => exact .refl
  | tail h a ih =>
    obtain ⟨y, q, rfl, hplaced⟩ := Proceeds.placed h (placed_start w)
    exact ih.tail (a.extend hplaced hclosed v)

/-- The end of a program is the end of a line and not within a block. -/
theorem closed_of_faults_eq_nil {w : List TokenKind} (h : (parseKinds w).faults = []) :
    Closed w := by
  obtain ⟨fs, n, hfaults, -, hlength, hbraces⟩ :=
    faults_of_truncated (v := []) (by simpa using generates_of_faults_eq_nil h)
  rw [h, eq_comm, List.append_eq_nil_iff] at hfaults
  obtain ⟨rfl, hreplicate⟩ := hfaults
  obtain rfl : n = 0 := by simpa using hreplicate
  exact ⟨by simpa using hlength.symm, by simpa using hbraces⟩

/-- A run over a program and what follows it. -/
theorem run_append {w : List TokenKind} (h : (parseKinds w).faults = []) (v : List TokenKind) :
    run { rest := w ++ v } = (run { rest := v }).appendRecords (run { rest := w }).members
      (run { rest := w }).rules := by
  have hfaults : (run { rest := w }).faults = [] := by
    rwa [faults_parseKinds, List.reverse_eq_nil_iff] at h
  obtain ⟨hg, ho, hr⟩ := run_eq_end { rest := w }
  have hproceeds := (proceeds_run hfaults).extend (closed_of_faults_eq_nil h) v
  have hmiddle : { run { rest := w } with rest := (run { rest := w }).rest ++ v }
      = ParseState.appendRecords { rest := v } (run { rest := w }).members
        (run { rest := w }).rules := by
    rw [hr]
    generalize run { rest := w } = u at hg ho hfaults
    cases u
    simp only at hg ho hfaults
    subst hg ho hfaults
    rfl
  rw [hproceeds.reaches.run_eq, hmiddle, run_appendRecords]

end ParseState

/-- The faults and the rules of a program and what follows it. -/
theorem parseKinds_append {w : List TokenKind} (h : (parseKinds w).faults = [])
    (v : List TokenKind) :
    (parseKinds (w ++ v)).faults = (parseKinds v).faults ∧
      (parseKinds (w ++ v)).rules = (ParseState.run { rest := w }).rules.reverse
        ++ (ParseState.run { rest := v }).rules.reverse
        ++ .programEnd :: ((ParseState.run { rest := v }).members
          ++ (ParseState.run { rest := w }).members) := by
  obtain ⟨-, ho, -⟩ := ParseState.run_eq_end { rest := v }
  constructor
  · rw [faults_parseKinds, ParseState.run_append h, faults_parseKinds]
    rfl
  · rw [rules_parseKinds, ParseState.run_append h, ParseState.appendRecords, ho, if_pos rfl,
      List.reverse_append]

/-! ## Streams -/

namespace Parser

/-- The trace of a first run has its parts. -/
theorem parts_run (ts : List Token) :
    (ofTokens ts).run.1.Parts (ParseState.run { rest := programKinds ts }).rules.reverse
      (ParseState.run { rest := programKinds ts }).members
      (if (ofTokens ts).run.1.accepted then [.accept] else []) where
  rules_eq := by rw [rules_run, rules_parseKinds]
  members := fun _ => ParseState.mem_members_run
  closing := by split <;> simp

end Parser

section

variable {ts us : List Token}

theorem programTokens_append (h : ∀ t ∈ ts, t.kind ≠ .endOfInput) :
    programTokens (ts ++ us) = programTokens ts ++ programTokens us := by
  have hall : ∀ t ∈ significantTokens ts, (t.kind != .endOfInput) = true := by
    intro t ht
    rw [bne_iff_ne]
    exact h t (List.mem_filter.1 ht).1
  have hts : programTokens ts = significantTokens ts := List.takeWhile_eq_self_iff.2 hall
  rw [programTokens, significantTokens, List.filter_append, hts]
  exact List.takeWhile_append_of_pos hall

theorem programKinds_append (h : ∀ t ∈ ts, t.kind ≠ .endOfInput) :
    programKinds (ts ++ us) = programKinds ts ++ programKinds us := by
  rw [programKinds, programTokens_append h, List.map_append]
  rfl

theorem find?_endOfInput_eq_none (h : ∀ t ∈ ts, t.kind ≠ .endOfInput) :
    (significantTokens ts).find? (·.kind == .endOfInput) = none := by
  rw [List.find?_eq_none]
  intro t ht
  rw [beq_iff_eq]
  exact h t (List.mem_filter.1 ht).1

theorem endToken_append (h : ∀ t ∈ ts, t.kind ≠ .endOfInput) (hus : us ≠ []) :
    endToken (ts ++ us) = endToken us := by
  have hstandIn : standInEnd (ts ++ us) = standInEnd us := by
    rw [standInEnd, standInEnd, List.getLast?_append_of_ne_nil _ hus]
  rw [endToken, significantTokens, List.filter_append, List.find?_append, hstandIn]
  change (((significantTokens ts).find? _).or _).getD _ = _
  rw [find?_endOfInput_eq_none h]
  rfl

/-- A fault behind the first tokens lies at the same token with them and without them. -/
theorem tokenOf_append (h : ∀ t ∈ ts, t.kind ≠ .endOfInput) (hus : us ≠ [])
    {fault : SyntaxFault} (hfault : fault.left ≤ (programTokens us).length) :
    (Parser.ofTokens (ts ++ us)).tokenOf fault = (Parser.ofTokens us).tokenOf fault := by
  have hindex : (programTokens ts ++ programTokens us).length - fault.left
      = (programTokens ts).length + ((programTokens us).length - fault.left) := by
    rw [List.length_append]
    omega
  simp only [Parser.tokenOf, Parser.unread_ofTokens, Parser.endAhead_ofTokens,
    programTokens_append h, endToken_append h hus, hindex]
  rw [List.getD_append_right _ _ _ _ (Nat.le_add_right _ _), Nat.add_sub_cancel_left]

/-- Behind a program the tokens are reported as they are without it. -/
theorem diagnostics_append (h : ∀ t ∈ ts, t.kind ≠ .endOfInput)
    (hfaults : (parseKinds (programKinds ts)).faults = []) :
    (Parser.ofTokens (ts ++ us)).diagnostics = (Parser.ofTokens us).diagnostics := by
  rw [Parser.diagnostics_ofTokens, Parser.diagnostics_ofTokens, programKinds_append h,
    (parseKinds_append hfaults _).1]
  refine List.map_congr_left ?_
  intro fault hfault
  have hleft := left_le_of_mem_faults hfault
  rw [programKinds, List.length_map] at hleft
  by_cases hus : us = []
  · -- There is nothing that a fault could lie at.
    subst hus
    have hnone : (parseKinds (programKinds [])).faults = [] :=
      congrArg ParseResult.faults parseKinds_nil
    rw [hnone] at hfault
    cases hfault
  · rw [tokenOf_append h hus hleft]

end

/-- Tokens behind a program are reported and accepted as they are without it, and the trace is
put together from the parts of both. -/
theorem run_append_of_accepted {ts : List Token} (hend : ∀ t ∈ ts, t.kind ≠ .endOfInput)
    (h : (Parser.ofTokens ts).run.1.accepted = true) (us : List Token) :
    (Parser.ofTokens (ts ++ us)).run.2.1 = (Parser.ofTokens us).run.2.1 ∧
      (Parser.ofTokens (ts ++ us)).run.1.accepted = (Parser.ofTokens us).run.1.accepted ∧
      (∃ b m, (Parser.ofTokens ts).run.1.Parts b m [.accept]) ∧
      (∃ b m c, (Parser.ofTokens us).run.1.Parts b m c) ∧
      ∀ b m b' m' c, (Parser.ofTokens ts).run.1.Parts b m [.accept] →
        (Parser.ofTokens us).run.1.Parts b' m' c →
        (Parser.ofTokens (ts ++ us)).run.1.rules = b ++ b' ++ .programEnd :: (m' ++ m) ++ c := by
  have hfaults := (Parser.accepted_iff ts).1 h
  obtain ⟨hsame, hrules⟩ := parseKinds_append hfaults (programKinds us)
  have haccepted : (Parser.ofTokens (ts ++ us)).run.1.accepted
      = (Parser.ofTokens us).run.1.accepted := by
    rw [Bool.eq_iff_iff, Parser.accepted_iff, Parser.accepted_iff, programKinds_append hend, hsame]
  have hts := Parser.parts_run ts
  rw [if_pos h] at hts
  have hus := Parser.parts_run us
  refine ⟨diagnostics_append hend hfaults, haccepted, ⟨_, _, hts⟩, ⟨_, _, _, hus⟩, ?_⟩
  intro b m b' m' c hparts hparts'
  obtain ⟨rfl, rfl, -⟩ := hparts.unique hts
  obtain ⟨rfl, rfl, rfl⟩ := hparts'.unique hus
  rw [Parser.rules_run, haccepted, programKinds_append hend, hrules]

/-- A statement that lacks its value, behind a loop. -/
theorem run_append_missingValue :
    (∀ t ∈ loopWithCall, t.kind ≠ .endOfInput) ∧
      (Parser.ofTokens loopWithCall).run.1.accepted = true ∧
      (Parser.ofTokens (loopWithCall ++ missingValue)).run.1.accepted = false ∧
      (Parser.ofTokens (loopWithCall ++ missingValue)).run.2.1
        = (Parser.ofTokens missingValue).run.2.1 := by
  have hend : ∀ t ∈ loopWithCall, t.kind ≠ .endOfInput := by decide
  have h : (Parser.ofTokens loopWithCall).run.1.accepted = true :=
    (Parser.accepted_iff loopWithCall).2
      (faults_parseKinds_of_runFor 80 [] (by decide) (by decide))
  have hmissing : (Parser.ofTokens missingValue).run.1.accepted = false := by
    rw [← Bool.not_eq_true, Parser.accepted_iff,
      faults_parseKinds_of_runFor 20 [⟨.expression, 1⟩] (by decide) (by decide)]
    exact List.cons_ne_nil _ _
  obtain ⟨hdiagnostics, haccepted, -⟩ := run_append_of_accepted hend h missingValue
  exact ⟨hend, h, haccepted.trans hmissing, hdiagnostics⟩

end Pdl
