import Pdl.Proofs.Grammar.Tree
import Pdl.Proofs.Parsing.Plans
import Pdl.Proofs.Parsing.Steps

/-!
# Lines and braces

The text of a statement is a line that ends in a semicolon, or a line that ends
in an opening brace, a block and a closing brace.  So there are three *places*
at which a statement may stand: outside of lines and braces, in a line, or
inside of its braces.

The goals of a statement tell its place.  `Due p gs` says that the goals `gs`
are due at the place `p`; each goal leads to the place at which the next one
is due.  A token that is read leads to the place behind its kind, and the other
steps stay where they are (`Due.shift`, `Due.expand`).

`ParseState.Placed s x p` relates the place to the whole text `x` that has been
read.  The place is in a line if and only if `x` ends in one, and the braces
that are open in `x` are those of the lists around the innermost one, and that
of the statement itself if it stands inside of it.  A run without faults keeps
this (`Proceeds.placed`).
-/

namespace Pdl

/-! ## Places -/

/-- Where a statement stands. -/
inductive Place where
  /-- Behind the end of its text, or in front of it. -/
  | outside
  /-- In a line of its text. -/
  | line
  /-- Between its braces. -/
  | inside
deriving Repr, DecidableEq

namespace Place

/-- How many braces of the statement are open. -/
def depth : Place → Nat
  | inside => 1
  | _ => 0

/-- The place behind a kind. -/
def behind : TokenKind → Place
  | .punctuation .semicolon | .punctuation .closeBrace => outside
  | .punctuation .openBrace => inside
  | _ => line

theorem behind_eq_line_iff {k : TokenKind} : behind k = line ↔ separates k = false := by
  cases k with
  | punctuation p => cases p <;> simp [behind, separates]
  | _ => simp [behind, separates]

end Place

/-! ## Goals and places -/

/-- Whether the goal is met within a line. -/
def Goal.staysInLine : Goal → Bool
  | .token k => !separates k
  | .tally _ | .block | .simple | .afterName | .afterType => false
  | _ => true

/-- Whether the goal is a rule to be recorded. -/
def Goal.isReduce : Goal → Bool
  | .reduce _ => true
  | _ => false

/-- Whether the goal is met by the end of a line, its semicolon included. -/
def Goal.endsLine : Goal → Bool
  | .token k => k == .punctuation .semicolon
  | .simple | .afterName | .afterType => true
  | _ => false

/-- Whether the goals are met by the end of a line and the rules recorded then. -/
def completesLine : List Goal → Bool
  | [] => false
  | g :: gs => g.staysInLine && completesLine gs || g.endsLine && gs.all Goal.isReduce

/-- The goals that are due at a place. -/
inductive Due : Place → List Goal → Prop where
  | nil : Due .outside []
  | tally (r : Rule) : Due .outside [.tally r]
  | reduce {p : Place} {gs : List Goal} (r : Rule) (h : Due p gs) : Due p (.reduce r :: gs)
  | phrase {g : Goal} {gs : List Goal} (hg : g.staysInLine = true) (h : Due .line gs) :
      Due .line (g :: gs)
  | ending {g : Goal} {gs : List Goal} (hg : g.endsLine = true) (h : Due .outside gs) :
      Due .line (g :: gs)
  | openBrace {gs : List Goal} (h : Due .inside gs) : Due .line (.mark .openBrace :: gs)
  | block {gs : List Goal} (h : Due .outside gs) :
      Due .inside (.block :: .mark .closeBrace :: gs)
  | closeBrace {gs : List Goal} (h : Due .outside gs) : Due .inside (.mark .closeBrace :: gs)

theorem staysInLine_reduceTimes (n : Nat) (r : Rule) :
    (reduceTimes n r).all Goal.staysInLine = true := by
  simp [reduceTimes, Goal.staysInLine]

theorem count_of_not_separates {k j : TokenKind} (hk : separates k = false)
    (hj : separates j = true) : [k].count j = 0 := by
  rw [List.count_eq_zero, List.mem_singleton]
  rintro rfl
  rw [hk] at hj
  cases hj

/-- A goal that is met within a line reads no separator, and leads to goals of its kind. -/
theorem staysInLine_of_readings {g : Goal} (hg : g.staysInLine = true)
    {p : TokenKind × List Goal} (hp : p ∈ g.readings) :
    separates p.1 = false ∧ p.2.all Goal.staysInLine = true := by
  have hall : ∀ p ∈ g.readings, separates p.1 = false ∧ p.2.all Goal.staysInLine = true := by
    cases g with
    | token k =>
      intro p hp
      rw [List.mem_singleton.1 hp]
      exact ⟨by simpa [Goal.staysInLine] using hg, rfl⟩
    | moreParameters n | moreArguments n =>
      intro p hp
      rw [List.mem_singleton.1 hp]
      exact ⟨rfl, rfl⟩
    | simple | afterName | afterType => cases hg
    | reduce | tally =>
      intro p hp
      cases hp
    | _ => decide
  exact hall p hp

/-- So do the goals that take its place. -/
theorem staysInLine_of_expansions {g : Goal} (hg : g.staysInLine = true) {goals : List Goal}
    (hgoals : goals ∈ g.expansions) : goals.all Goal.staysInLine = true := by
  have hall : ∀ goals ∈ g.expansions, goals.all Goal.staysInLine = true := by
    cases g with
    | moreParameters n | moreArguments n =>
      intro goals hgoals
      rw [List.mem_singleton.1 hgoals, List.cons_append, List.all_cons, List.all_append,
        staysInLine_reduceTimes]
      rfl
    | afterType => cases hg
    | token | reduce | tally =>
      intro goals hgoals
      cases hgoals
    | _ => decide
  exact hall goals hgoals

/-- A goal that ends a line reads its semicolon, or leads to goals that complete the line. -/
theorem completesLine_of_readings {g : Goal} (hg : g.endsLine = true)
    {p : TokenKind × List Goal} (hp : p ∈ g.readings) :
    p = (.punctuation .semicolon, []) ∨ separates p.1 = false ∧ completesLine p.2 = true := by
  have hall : ∀ g ∈ [Goal.simple, .afterName, .afterType], ∀ p ∈ g.readings,
      separates p.1 = false ∧ completesLine p.2 = true := by decide
  cases g with
  | token k =>
    have hk : k = .punctuation .semicolon := by simpa [Goal.endsLine] using hg
    rw [List.mem_singleton.1 hp, hk]
    exact .inl rfl
  | simple | afterName | afterType => exact .inr (hall _ (by simp) p hp)
  | _ => cases hg

/-- The goals that take its place complete the line. -/
theorem completesLine_of_expansions {g : Goal} (hg : g.endsLine = true) {goals : List Goal}
    (hgoals : goals ∈ g.expansions) : completesLine goals = true := by
  cases g with
  | afterType =>
    rw [List.mem_singleton.1 hgoals]
    rfl
  | token | simple | afterName => cases hgoals
  | _ => cases hg

theorem Due.nil_inv {p : Place} (h : Due p []) : p = .outside := by
  cases h
  rfl

namespace Due

variable {p : Place} {g : Goal} {gs : List Goal}

/-- Goals that are met within a line may stand in front of others that are due there. -/
theorem append (goals : List Goal) (hgoals : goals.all Goal.staysInLine = true)
    (h : Due .line gs) : Due .line (goals ++ gs) := by
  induction goals with
  | nil => exact h
  | cons g goals ih =>
    rw [List.all_cons, Bool.and_eq_true] at hgoals
    exact .phrase hgoals.1 (ih hgoals.2)

variable {goals : List Goal}

/-- Rules to be recorded may stand in front of other goals. -/
theorem records (hgoals : goals.all Goal.isReduce = true) (h : Due p gs) : Due p (goals ++ gs) := by
  induction goals with
  | nil => exact h
  | cons g goals ih =>
    rw [List.all_cons, Bool.and_eq_true] at hgoals
    cases g with
    | reduce r => exact .reduce r (ih hgoals.2)
    | _ => cases hgoals.1

theorem reduces (rs : List Rule) (h : Due p gs) : Due p (rs.map .reduce ++ gs) :=
  records (by simp [Goal.isReduce]) h

/-- Goals that complete a line may stand in front of others that are due behind it. -/
theorem complete (hgoals : completesLine goals = true) (h : Due .outside gs) :
    Due .line (goals ++ gs) := by
  induction goals with
  | nil => cases hgoals
  | cons g goals ih =>
    rw [completesLine, Bool.or_eq_true, Bool.and_eq_true, Bool.and_eq_true] at hgoals
    rcases hgoals with ⟨hg, hgoals⟩ | ⟨hg, hgoals⟩
    · exact .phrase hg (ih hgoals)
    · exact .ending hg (records hgoals h)

/-- A token that is read leads to the place behind its kind, and a brace opens or closes the
statement. -/
theorem shift {k : TokenKind} {ks : List TokenKind} (h : Due p (g :: gs))
    (hp : g.plan (k :: ks) = .shift goals) :
    Due (.behind k) (goals ++ gs) ∧
      (Place.behind k).depth + [k].count (.punctuation .closeBrace)
        = p.depth + [k].count (.punctuation .openBrace) := by
  have hline : separates k = false → (Place.behind k).depth + [k].count (.punctuation .closeBrace)
      = Place.line.depth + [k].count (.punctuation .openBrace) := by
    intro hk
    rw [Place.behind_eq_line_iff.2 hk, count_of_not_separates hk rfl,
      count_of_not_separates hk rfl]
  cases h with
  | tally | reduce | block => cases hp
  | phrase hg h =>
    obtain ⟨hk, hgoals⟩ := staysInLine_of_readings hg (mem_readings_of_plan hp)
    refine ⟨?_, hline hk⟩
    rw [Place.behind_eq_line_iff.2 hk]
    exact append goals hgoals h
  | ending hg h =>
    rcases completesLine_of_readings hg (mem_readings_of_plan hp) with heq | ⟨hk, hgoals⟩
    · cases heq
      exact ⟨h, rfl⟩
    · refine ⟨?_, hline hk⟩
      rw [Place.behind_eq_line_iff.2 hk]
      exact complete hgoals h
  | openBrace h | closeBrace h =>
    cases List.mem_singleton.1 (mem_readings_of_plan hp)
    exact ⟨h, rfl⟩

/-- The goals that take the place of a goal are due where it was. -/
theorem expand {ahead : List TokenKind} (h : Due p (g :: gs))
    (hp : g.plan ahead = .expand goals) : Due p (goals ++ gs) := by
  cases h with
  | tally | reduce | block => cases hp
  | phrase hg h => exact append _ (staysInLine_of_expansions hg (mem_expansions_of_plan hp)) h
  | ending hg h => exact complete (completesLine_of_expansions hg (mem_expansions_of_plan hp)) h
  | openBrace | closeBrace => cases mem_expansions_of_plan hp

/-- The goals after the first kind of a statement. -/
theorem statementReadings {q : TokenKind × List Goal} (hq : q ∈ statementReadings)
    (h : Due .outside gs) : separates q.1 = false ∧ Due .line (q.2 ++ gs) := by
  have hall : ∀ q ∈ Pdl.statementReadings, separates q.1 = false ∧ (completesLine q.2 = true ∨
      q.2 = [.mark .openParen, .expression, .mark .closeParen, .mark .openBrace, .block,
        .mark .closeBrace, .reduce .whileDo]) := by decide
  obtain ⟨hk, hgoals | hgoals⟩ := hall q hq
  · exact ⟨hk, complete hgoals h⟩
  · rw [hgoals]
    refine ⟨hk, append [.mark .openParen, .expression, .mark .closeParen] rfl ?_⟩
    exact .openBrace (.block (.reduce _ h))

theorem functionGoals (h : Due .outside gs) : Due .line (functionGoals ++ gs) :=
  append (Pdl.functionGoals.take 7) rfl (.openBrace (.block (.reduce _ h)))

/-- The goals after the first kind of a member of a list. -/
theorem memberGoals {inBlock : Bool} {k : TokenKind} (hk : memberGoals? inBlock k = some goals) :
    separates k = false ∧ Due .line goals := by
  have hmem := mem_memberReadings hk
  cases inBlock with
  | true =>
    obtain ⟨q, hq, heq⟩ := List.mem_map.1 hmem
    cases heq
    exact statementReadings hq (.tally _)
  | false =>
    rcases List.mem_cons.1 hmem with heq | hmem
    · cases heq
      exact ⟨rfl, functionGoals (.tally _)⟩
    · obtain ⟨q, hq, heq⟩ := List.mem_map.1 hmem
      cases heq
      exact statementReadings hq (.tally _)

end Due

/-! ## The place of a state -/

/-- Whether a text ends within a line: in a kind that is neither a semicolon nor a brace. -/
def endsInLine (w : List TokenKind) : Bool :=
  match w.getLast? with
  | some k => !separates k
  | none => false

@[simp] theorem endsInLine_concat (w : List TokenKind) (k : TokenKind) :
    endsInLine (w ++ [k]) = !separates k := by
  simp [endsInLine]

namespace ParseState

/-- The state stands at the place `p`, and `x` has been read. -/
structure Placed (s : ParseState) (x : List TokenKind) (p : Place) : Prop where
  due : Due p s.goals
  line : p = .line ↔ endsInLine x = true
  /-- A list that waits goes on with the closing brace of the inner one. -/
  outer : ∀ e ∈ s.outer, ∃ gs, e.goals = .mark .closeBrace :: gs ∧ Due .outside gs
  braces : s.outer.length + p.depth + x.count (.punctuation .closeBrace)
    = x.count (.punctuation .openBrace)

variable {s t : ParseState} {x : List TokenKind} {p : Place}

theorem placed_start (w : List TokenKind) : Placed { rest := w } [] .outside where
  due := .nil
  line := by decide
  outer := by simp
  braces := rfl

/-- A step without a fault keeps the account of lines and braces. -/
theorem Advances.placed (h : s.Advances t) (hs : s.Placed x p) :
    ∃ y q, s.rest = y ++ t.rest ∧ t.Placed (x ++ y) q := by
  cases h with
  | @begin k ks goals hg hr hb hm =>
    obtain ⟨hk, hdue⟩ := Due.memberGoals hm
    obtain rfl : p = .outside := Due.nil_inv (hg ▸ hs.due)
    refine ⟨[k], .line, hr, hdue, by simp [hk], hs.outer, ?_⟩
    rw [List.count_append, List.count_append, count_of_not_separates hk rfl,
      count_of_not_separates hk rfl]
    exact hs.braces
  | @leave e outer hg ho hr =>
    obtain rfl : p = .outside := Due.nil_inv (hg ▸ hs.due)
    obtain ⟨gs, hgs, hdue⟩ := hs.outer e (by rw [ho]; exact .head _)
    refine ⟨[], .inside, rfl, ?_, ?_, ?_, ?_⟩
    · have hreduces := Due.reduces (.bodyEnd :: s.members) (.closeBrace hdue)
      rw [← hgs] at hreduces
      exact hreduces
    · rw [List.append_nil]
      simpa using hs.line
    · intro e' he'
      exact hs.outer e' (by rw [ho]; exact .tail _ he')
    · have hbraces := hs.braces
      rw [ho] at hbraces
      rw [List.append_nil]
      exact hbraces
  | @shift g gs goals k ks hg hr hp =>
    have hdue := hs.due
    rw [hg] at hdue
    obtain ⟨hdue, hdepth⟩ := hdue.shift hp
    refine ⟨[k], .behind k, hr, hdue, ?_, hs.outer, ?_⟩
    · rw [Place.behind_eq_line_iff, endsInLine_concat, Bool.not_eq_true']
    · have hbraces := hs.braces
      simp only [List.count_append] at hbraces ⊢
      omega
  | expand hg hp =>
    have hdue := hs.due
    rw [hg] at hdue
    refine ⟨[], p, rfl, hdue.expand hp, ?_, hs.outer, ?_⟩
    · rw [List.append_nil]
      exact hs.line
    · rw [List.append_nil]
      exact hs.braces
  | @complete r gs hg =>
    have hdue := hs.due
    rw [hg] at hdue
    refine ⟨[], p, rfl, ?_, ?_, hs.outer, ?_⟩
    · cases hdue with
      | reduce _ h => exact h
      | phrase _ h => exact h
      | ending hg' _ => cases hg'
    · rw [List.append_nil]
      exact hs.line
    · rw [List.append_nil]
      exact hs.braces
  | @count r gs hg =>
    have hdue := hs.due
    rw [hg] at hdue
    refine ⟨[], p, rfl, ?_, ?_, hs.outer, ?_⟩
    · cases hdue with
      | tally _ => exact .nil
      | phrase hg' _ | ending hg' _ => cases hg'
    · rw [List.append_nil]
      exact hs.line
    · rw [List.append_nil]
      exact hs.braces
  | @enter gs hg =>
    have hdue := hs.due
    rw [hg] at hdue
    cases hdue with
    | @block gs h =>
      refine ⟨[], .outside, rfl, .nil, ?_, ?_, ?_⟩
      · rw [List.append_nil]
        simpa using hs.line
      · intro e he
        rcases List.mem_cons.1 he with rfl | he
        · exact ⟨gs, rfl, h⟩
        · exact hs.outer e he
      · rw [List.append_nil]
        exact hs.braces
    | phrase hg' _ | ending hg' _ => cases hg'

/-- A run without faults keeps it too. -/
theorem Proceeds.placed (h : s.Proceeds t) (hs : s.Placed x p) :
    ∃ y q, s.rest = y ++ t.rest ∧ t.Placed (x ++ y) q := by
  induction h with
  | refl => exact ⟨[], p, rfl, by rwa [List.append_nil]⟩
  | tail _ a ih =>
    obtain ⟨y, q, hy, hplaced⟩ := ih
    obtain ⟨z, q', hz, hplaced'⟩ := a.placed hplaced
    refine ⟨y ++ z, q', ?_, ?_⟩
    · rw [hy, hz, List.append_assoc]
    · rwa [← List.append_assoc]

end ParseState

end Pdl
