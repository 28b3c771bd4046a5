import Pdl.Text.Position

/-!
# The symbol table

The table lists each name once, in the order of the first occurrences, with
the place of the first one and their number.  A name never leaves the table
and its first place never changes.
-/

namespace Pdl

/-- What is known of one name. -/
structure SymbolEntry where
  /-- The name. -/
  name : String
  /-- Where it stands for the first time. -/
  firstSeen : Position
  /-- How often it stands. -/
  occurrences : Nat
deriving Repr, DecidableEq

/-- The names in the order of their first occurrences. -/
abbrev SymbolTable := List SymbolEntry

namespace SymbolTable

/-- The table after one more occurrence of `name`, at `p`. -/
def record (name : String) (p : Position) : SymbolTable → SymbolTable
  | [] => [⟨name, p, 1⟩]
  | e :: es =>
      if e.name = name then { e with occurrences := e.occurrences + 1 } :: es
      else e :: record name p es

/-- The entry of `name`. -/
def get? (table : SymbolTable) (name : String) : Option SymbolEntry :=
  table.find? (·.name == name)

/-- Whether `name` is in the table. -/
def contains (table : SymbolTable) (name : String) : Bool := (table.get? name).isSome

/-- The names in order. -/
def names (table : SymbolTable) : List String := table.map (·.name)

/-- Recording adds a name at the end, and only a new one. -/
theorem names_record (name : String) (p : Position) (table : SymbolTable) :
    names (record name p table)
      = if name ∈ names table then names table else names table ++ [name] := by
  induction table with
  | nil => simp [record, names]
  | cons e es ih =>
    by_cases h : e.name = name
    · simp [record, names, h]
    · have hm : name ∈ names (e :: es) ↔ name ∈ names es := by simp [names, Ne.symm h]
      have hr : names (record name p (e :: es)) = e.name :: names (record name p es) := by
        simp [record, h, names]
      rw [hr, ih]
      by_cases hn : name ∈ names es
      · rw [if_pos hn, if_pos (hm.2 hn)]; rfl
      · rw [if_neg hn, if_neg (fun hh => hn (hm.1 hh))]; rfl

end SymbolTable

example : SymbolTable.record "a" ⟨2, 1, 9⟩ (SymbolTable.record "a" .start [])
    = [⟨"a", .start, 2⟩] := by decide

end Pdl
