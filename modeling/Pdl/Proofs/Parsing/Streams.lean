import Mathlib.Data.List.GetD
import Mathlib.Data.List.TakeWhile
import Pdl.Proofs.Parsing.State

/-!
# What is left of a stream

The tokens in front of the first end are all that a parser reads of its stream
(`Parser.unread`).  The next token is the first of them, or the end where none is
left (`Parser.current_eq`).  What stands behind the end is never read, though
`peekKind` looks at it where the end is next.

A parser moves by reading tokens (`Parser.Reads`): one of them when it advances, and
a row of them when it skips to a place where a statement may begin.  The kinds that
are left then are those of `recover` (`Parser.exists_reads_skip`).
-/

namespace Pdl

/-! ## Streams -/

/-- The tokens that the grammar sees, up to the first end. -/
def programTokens (ts : List Token) : List Token :=
  (significantTokens ts).takeWhile (·.kind != .endOfInput)

/-- The kinds of the tokens that the grammar sees. -/
def programKinds (ts : List Token) : List TokenKind := (programTokens ts).map (·.kind)

/-- The end of a stream. -/
def endToken (ts : List Token) : Token :=
  ((significantTokens ts).find? (·.kind == .endOfInput)).getD (standInEnd ts)

/-- The token with the index `i` of those that the grammar sees, or the end behind them. -/
def programToken (ts : List Token) (i : Nat) : Token := (programTokens ts).getD i (endToken ts)

/-- What stands behind a part of a list without ends stands in front of the same end. -/
theorem takeWhile_drop_of_append {us done todo : List Token}
    (h : us.takeWhile (·.kind != .endOfInput) = done ++ todo) :
    (us.drop done.length).takeWhile (·.kind != .endOfInput) = todo ∧
      (us.drop done.length).find? (·.kind == .endOfInput) = us.find? (·.kind == .endOfInput) := by
  induction done generalizing us with
  | nil => exact ⟨h, rfl⟩
  | cons t done ih =>
    cases us with
    | nil => cases h
    | cons u us =>
      rw [List.takeWhile_cons] at h
      split at h
      · rename_i hu
        obtain ⟨-, htail⟩ := List.cons_eq_cons.1 h
        have hend : (u.kind == .endOfInput) = false := by simpa using hu
        rw [List.length_cons, List.drop_succ_cons, List.find?_cons_of_neg (by simp [hend])]
        exact ih htail
      · cases h

namespace Parser

variable {p q r : Parser} {t : Token} {ts done more : List Token}

/-! ## What is left -/

/-- The tokens that have not been read. -/
def unread (p : Parser) : List Token :=
  (p.tokens.toList.drop p.position).takeWhile (·.kind != .endOfInput)

/-- Their kinds. -/
def kinds (p : Parser) : List TokenKind := p.unread.map (·.kind)

/-- The end behind them. -/
def endAhead (p : Parser) : Token :=
  ((p.tokens.toList.drop p.position).find? (·.kind == .endOfInput)).getD p.ending

/-- The token at which a fault lies. -/
def tokenOf (p : Parser) (fault : SyntaxFault) : Token :=
  p.unread.getD (p.unread.length - fault.left) p.endAhead

theorem unread_ofTokens (ts : List Token) (log : List Diagnostic) :
    (ofTokens ts log).unread = programTokens ts := rfl

theorem endAhead_ofTokens (ts : List Token) (log : List Diagnostic) :
    (ofTokens ts log).endAhead = endToken ts := rfl

/-- The token of a fault is found from the end of the stream. -/
theorem tokenOf_ofTokens {fault : SyntaxFault} {i : Nat} (log : List Diagnostic)
    (h : i + fault.left = (programKinds ts).length) :
    (ofTokens ts log).tokenOf fault = programToken ts i := by
  rw [programKinds, List.length_map] at h
  have hindex : (programTokens ts).length - fault.left = i := by omega
  rw [tokenOf, unread_ofTokens, endAhead_ofTokens, hindex, programToken]

theorem kinds_of_unread_eq (h : p.unread = ts) : p.kinds = ts.map (·.kind) := by rw [kinds, h]

theorem length_kinds (p : Parser) : p.kinds.length = p.unread.length := List.length_map _

theorem kind_endAhead (p : Parser) : p.endAhead.kind = .endOfInput := by
  rw [endAhead]
  cases h : (p.tokens.toList.drop p.position).find? (·.kind == .endOfInput) with
  | none => exact p.ending_kind
  | some t => exact beq_iff_eq.1 (List.find?_some h :)

theorem kind_of_mem_unread (h : t ∈ p.unread) : t.kind ≠ .endOfInput := by
  simpa using List.mem_takeWhile_imp h

theorem getElem?_tokens (p : Parser) (n : Nat) :
    p.tokens[p.position + n]? = (p.tokens.toList.drop p.position)[n]? := by
  rw [List.getElem?_drop, Array.getElem?_toList]

/-- The next token is the first one that is left, or the end. -/
theorem current_eq (p : Parser) : p.current = p.unread.head?.getD p.endAhead := by
  have hcurrent : p.current = (p.tokens.toList.drop p.position).head?.getD p.ending := by
    rw [current, List.head?_eq_getElem?, ← getElem?_tokens]
    rfl
  rw [hcurrent, unread, endAhead]
  cases p.tokens.toList.drop p.position with
  | nil => rfl
  | cons t ts =>
    by_cases hend : t.kind = .endOfInput
    · simp [hend]
    · simp [hend]

theorem current_of_unread_cons (h : p.unread = t :: ts) : p.current = t := by
  rw [current_eq, h]
  rfl

theorem atEnd_iff : p.atEnd = true ↔ p.unread = [] := by
  rw [atEnd, beq_iff_eq, current_eq]
  cases h : p.unread with
  | nil => simpa using p.kind_endAhead
  | cons t ts => simpa using kind_of_mem_unread (h ▸ List.mem_cons_self : t ∈ p.unread)

/-- The kind behind the next token is the second one that is left, or that of the end. -/
theorem peekKind_of_unread_cons (h : p.unread = t :: ts) :
    p.peekKind = (ts.head?.map (·.kind)).getD .endOfInput := by
  rw [peekKind, getElem?_tokens]
  rw [unread] at h
  cases hahead : p.tokens.toList.drop p.position with
  | nil =>
    rw [hahead] at h
    cases h
  | cons u us =>
    rw [hahead, List.takeWhile_cons] at h
    split at h
    · obtain ⟨-, rfl⟩ := List.cons_eq_cons.1 h
      cases us with
      | nil => rfl
      | cons v vs =>
        by_cases hend : v.kind = .endOfInput
        · simp [hend]
        · simp [hend]
    · cases h

/-! ## Moves -/

/-- The parser `q` stands where `p` does after it has read the tokens `done`. -/
structure Reads (p : Parser) (done : List Token) (q : Parser) : Prop where
  eq : q = { p with position := p.position + done.length }
  unread_eq : p.unread = done ++ q.unread

theorem reads_nil (p : Parser) : p.Reads [] p := ⟨rfl, rfl⟩

theorem Reads.trans (h : p.Reads done q) (h' : q.Reads more r) : p.Reads (done ++ more) r where
  eq := by rw [h'.eq, h.eq, List.length_append, Nat.add_assoc]
  unread_eq := by rw [h.unread_eq, h'.unread_eq, List.append_assoc]

theorem Reads.length_kinds (h : p.Reads done q) :
    p.kinds.length = done.length + q.kinds.length := by
  rw [p.length_kinds, q.length_kinds, h.unread_eq, List.length_append]

/-- The parser can read what stands in front of the end. -/
theorem reads_of_unread_eq (h : p.unread = done ++ more) :
    p.Reads done { p with position := p.position + done.length } ∧
      ({ p with position := p.position + done.length } : Parser).unread = more := by
  have hmore : ({ p with position := p.position + done.length } : Parser).unread = more := by
    rw [unread, ← List.drop_drop]
    exact (takeWhile_drop_of_append h).1
  exact ⟨⟨rfl, by rw [hmore, h]⟩, hmore⟩

theorem Reads.endAhead_eq (h : p.Reads done q) : q.endAhead = p.endAhead := by
  rw [h.eq, endAhead, ← List.drop_drop, (takeWhile_drop_of_append h.unread_eq).2]
  rfl

theorem reads_advance (h : p.unread = t :: ts) : p.Reads [t] p.advance ∧ p.advance.unread = ts := by
  have hend : ¬ p.atEnd = true := by simp [atEnd_iff, h]
  have hcons : p.unread = [t] ++ ts := h
  rw [advance, if_neg hend]
  exact reads_of_unread_eq hcons

/-- Skipping leaves the kinds that `recover` leaves. -/
theorem exists_reads_skip (inBlock : Bool) (p : Parser) :
    ∃ done, p.Reads done (p.skip inBlock) ∧
      (p.skip inBlock).kinds = recover inBlock p.kinds := by
  simp only [kinds]
  fun_induction skip inBlock p with
  | case1 p hend =>
    refine ⟨[], p.reads_nil, ?_⟩
    rw [atEnd_iff.1 hend]
    rfl
  | case2 p hend hsemicolon | case4 p hend _ hbrace hblock =>
    obtain ⟨t, ts, h⟩ := List.exists_cons_of_ne_nil (mt atEnd_iff.2 hend)
    obtain ⟨hreads, hts⟩ := reads_advance h
    rw [current_of_unread_cons h] at *
    exact ⟨_, hreads, by simp [recover, *]⟩
  | case3 p hend _ hbrace hblock | case5 p hend _ _ hbegins =>
    obtain ⟨t, ts, h⟩ := List.exists_cons_of_ne_nil (mt atEnd_iff.2 hend)
    simp only [atStatement, current_of_unread_cons h] at *
    exact ⟨[], p.reads_nil, by simp [recover, *]⟩
  | case6 p hend _ _ hbegins ih =>
    obtain ⟨t, ts, h⟩ := List.exists_cons_of_ne_nil (mt atEnd_iff.2 hend)
    obtain ⟨hreads, hts⟩ := reads_advance h
    obtain ⟨done, hdone, hkinds⟩ := ih
    simp only [atStatement, current_of_unread_cons h] at *
    refine ⟨_, hreads.trans hdone, ?_⟩
    rw [hkinds, hts, h]
    simp [recover, *]

/-- Where no statement begins, skipping moves the parser. -/
theorem position_lt_skip {inBlock : Bool} (h : p.unread = t :: ts)
    (hmember : memberGoals? inBlock t.kind = none)
    (hb : inBlock = true → endsBlock t.kind = false) :
    p.position < (p.skip inBlock).position := by
  obtain ⟨done, hreads, hkinds⟩ := p.exists_reads_skip inBlock
  have hshorter := length_recover_lt (ts.map (·.kind)) hmember hb
  have hlength := hreads.length_kinds
  rw [hkinds, kinds_of_unread_eq h, List.map_cons] at hlength
  rw [hreads.eq]
  dsimp only
  omega

end Parser

end Pdl
