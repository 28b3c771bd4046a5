import Pdl.Proofs.Lexing.Tokens

/-!
# Identifiers and the symbol table

The table of a list of tokens counts its identifiers: a name occurs in it as
often as there are identifiers of that name among the tokens
(`occurrences_symbolsOf`).
-/

namespace Pdl

namespace SymbolTable

/-- How often a name occurs; not at all, if it is not in the table. -/
def occurrences (table : SymbolTable) (name : String) : Nat :=
  match table.get? name with
  | some e => e.occurrences
  | none => 0

theorem get?_cons (e : SymbolEntry) (table : SymbolTable) (name : String) :
    get? (e :: table) name = if e.name = name then some e else get? table name := by
  by_cases h : e.name = name <;> simp [get?, h]

theorem occurrences_cons (e : SymbolEntry) (table : SymbolTable) (name : String) :
    occurrences (e :: table) name
      = if e.name = name then e.occurrences else occurrences table name := by
  by_cases h : e.name = name <;> simp [occurrences, get?_cons, h]

/-- One more occurrence. -/
theorem occurrences_record (name : String) (p : Position) (table : SymbolTable)
    (other : String) :
    occurrences (record name p table) other
      = occurrences table other + if name = other then 1 else 0 := by
  induction table with
  | nil =>
    rw [record, occurrences_cons]
    simp [occurrences, get?]
  | cons e table ih =>
    rw [record]
    by_cases hname : e.name = name
    · rw [if_pos hname, occurrences_cons, occurrences_cons, hname]
      by_cases hother : name = other <;> simp [hother]
    · rw [if_neg hname, occurrences_cons, occurrences_cons, ih]
      by_cases hother : e.name = other
      · have hne : name ≠ other := fun h => hname (hother.trans h.symm)
        simp [hother, hne]
      · simp [hother]

end SymbolTable

/-- Whether the token is an identifier of the name. -/
def Token.names (t : Token) (name : String) : Bool := t.kind == .identifier && t.lexeme == name

theorem occurrences_recordToken (table : SymbolTable) (t : Token) (name : String) :
    (table.recordToken t).occurrences name
      = table.occurrences name + if t.names name then 1 else 0 := by
  rw [SymbolTable.recordToken]
  by_cases hk : t.kind = .identifier
  · rw [if_pos hk, SymbolTable.occurrences_record]
    simp [Token.names, hk]
  · simp [Token.names, hk]

/-- The table has each name as often as it stands among the tokens. -/
theorem occurrences_symbolsOf (ts : List Token) (name : String) :
    (symbolsOf ts).occurrences name = ts.countP (·.names name) := by
  -- The table that the tokens are added to is kept general.
  have hfold : ∀ table : SymbolTable, (ts.foldl SymbolTable.recordToken table).occurrences name
      = table.occurrences name + ts.countP (·.names name) := by
    induction ts with
    | nil => intro table; rfl
    | cons t ts ih =>
      intro table
      rw [List.foldl_cons, ih, occurrences_recordToken, List.countP_cons]
      omega
  rw [symbolsOf, hfold]
  exact Nat.zero_add _

end Pdl
