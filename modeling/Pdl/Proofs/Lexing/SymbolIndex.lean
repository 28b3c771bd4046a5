import Mathlib.Data.List.Induction
import Pdl.Proofs.Lexing.Spacing
import Pdl.Proofs.Lexing.Symbols

/-!
# The symbol table as an index

A table made by recording occurrences one after the other is an index of them
(`SymbolTable.Indexes`): it has each name once, in the order of the first
occurrences, with the place of the first one and their number.

One more occurrence keeps the index an index (`Indexes.record`), so the table of any
list of occurrences is one (`indexes_ofOccurrences`).  The table of a text indexes its
identifiers.  Nothing else gets into it, for the characters of an identifier are a
lexeme of no other kind (`kind_eq_identifier`).
-/

namespace Pdl

namespace SymbolTable

/-- The table of names that occur at places, from an empty table on. -/
def ofOccurrences (os : List (String × Position)) : SymbolTable :=
  os.foldl (fun table o => table.record o.1 o.2) []

/-- The table is the index of the names that occur at places. -/
structure Indexes (os : List (String × Position)) (table : SymbolTable) : Prop where
  /-- The names are those that occur. -/
  mem_names : ∀ name, name ∈ table.names ↔ name ∈ os.map Prod.fst
  /-- They stand in the order of their first occurrences, and so none of them stands twice. -/
  order : table.names.Pairwise fun a b => (os.map Prod.fst).idxOf a < (os.map Prod.fst).idxOf b
  /-- A name is found with the place of its first occurrence, and the number of them. -/
  get?_eq : ∀ name, table.get? name
    = (os.find? (·.1 == name)).map fun o => ⟨name, o.2, os.countP (·.1 == name)⟩
  /-- The entries are those that are found. -/
  get?_name : ∀ e ∈ table, table.get? e.name = some e

/-! ## Recording -/

theorem get?_record_self (name : String) (p : Position) (table : SymbolTable) :
    get? (record name p table) name
      = match table.get? name with
        | some e => some { e with occurrences := e.occurrences + 1 }
        | none => some ⟨name, p, 1⟩ := by
  induction table with
  | nil => rw [record, get?_cons, if_pos rfl]; rfl
  | cons e table ih =>
    rw [record, get?_cons]
    by_cases hname : e.name = name
    · rw [if_pos hname, if_pos hname, get?_cons, if_pos hname]
    · rw [if_neg hname, if_neg hname, get?_cons, if_neg hname, ih]

theorem get?_record_of_ne {name other : String} (h : name ≠ other) (p : Position)
    (table : SymbolTable) : get? (record name p table) other = table.get? other := by
  induction table with
  | nil => rw [record, get?_cons, if_neg h]
  | cons e table ih =>
    rw [record]
    split
    · rename_i hname
      have hother : e.name ≠ other := fun he => h (hname.symm.trans he)
      rw [get?_cons, get?_cons, if_neg hother, if_neg hother]
    · rw [get?_cons, get?_cons, ih]

/-- Where no name stands twice, each entry is found by its name. -/
theorem get?_name_of_nodup {table : SymbolTable} (h : (names table).Nodup) {e : SymbolEntry}
    (he : e ∈ table) : table.get? e.name = some e := by
  induction table with
  | nil => cases he
  | cons d table ih =>
    obtain ⟨hd, htable⟩ := List.nodup_cons.1 h
    rw [get?_cons]
    rcases List.mem_cons.1 he with rfl | he
    · exact if_pos rfl
    · have hname : d.name ≠ e.name := fun hname => hd (List.mem_map.2 ⟨e, he, hname.symm⟩)
      rw [if_neg hname, ih htable he]

/-- One more occurrence goes into the index. -/
theorem Indexes.record {os : List (String × Position)} {table : SymbolTable}
    (h : table.Indexes os) (name : String) (p : Position) :
    (table.record name p).Indexes (os ++ [(name, p)]) := by
  have hnames := names_record name p table
  have hidx : ∀ a ∈ table.names,
      ((os ++ [(name, p)]).map Prod.fst).idxOf a = (os.map Prod.fst).idxOf a := by
    intro a ha
    rw [List.map_append, List.idxOf_append_of_mem ((h.mem_names a).1 ha)]
  have horder : table.names.Pairwise fun a b => ((os ++ [(name, p)]).map Prod.fst).idxOf a
      < ((os ++ [(name, p)]).map Prod.fst).idxOf b := by
    refine h.order.imp_of_mem ?_
    intro a b ha hb hab
    rwa [hidx a ha, hidx b hb]
  have horder' : (table.record name p).names.Pairwise fun a b =>
      ((os ++ [(name, p)]).map Prod.fst).idxOf a < ((os ++ [(name, p)]).map Prod.fst).idxOf b := by
    rw [hnames]
    split
    · exact horder
    · rename_i hnew
      refine List.pairwise_append.2 ⟨horder, List.pairwise_singleton _ _, ?_⟩
      intro a ha b hb
      have ha' := (h.mem_names a).1 ha
      rw [List.mem_singleton.1 hb, hidx a ha, List.map_append,
        List.idxOf_append_of_notMem fun hmem => hnew ((h.mem_names name).2 hmem)]
      exact Nat.lt_of_lt_of_le (List.idxOf_lt_length_iff.2 ha') (Nat.le_add_right _ _)
  refine ⟨?_, horder', ?_, ?_⟩
  · intro other
    rw [hnames, List.map_append, List.mem_append, ← h.mem_names]
    split
    · rename_i hold
      constructor
      · exact .inl
      · rintro (hother | hother)
        · exact hother
        · exact List.mem_singleton.1 hother ▸ hold
    · rw [List.mem_append]
      rfl
  · intro other
    rw [List.find?_append, List.countP_append]
    by_cases hother : name = other
    · subst hother
      rw [get?_record_self, h.get?_eq]
      cases hfind : os.find? (·.1 == name) with
      | none =>
        have hcount : os.countP (·.1 == name) = 0 :=
          List.countP_eq_zero.2 (List.find?_eq_none.1 hfind)
        simp [hcount]
      | some o => simp
    · rw [get?_record_of_ne hother, h.get?_eq]
      simp [hother]
  · intro e he
    refine get?_name_of_nodup ?_ he
    exact horder'.imp fun hlt heq => absurd (heq ▸ hlt) (Nat.lt_irrefl _)

theorem indexes_ofOccurrences (os : List (String × Position)) : (ofOccurrences os).Indexes os := by
  induction os using List.reverseRecOn with
  | nil => constructor <;> simp [ofOccurrences, names, get?]
  | append_singleton os o ih =>
    rw [ofOccurrences, List.foldl_append]
    exact ih.record o.1 o.2

end SymbolTable

/-! ## Identifiers -/

/-- The identifiers among tokens, with their places. -/
def identifierOccurrences (ts : List Token) : List (String × Position) :=
  (ts.filter (·.kind = .identifier)).map fun t => (t.lexeme, t.span.position)

theorem symbolsOf_eq (ts : List Token) :
    symbolsOf ts = .ofOccurrences (identifierOccurrences ts) := by
  rw [symbolsOf, SymbolTable.ofOccurrences, identifierOccurrences, List.foldl_map,
    List.foldl_filter]
  refine List.foldl_ext _ _ _ ?_
  intro table t _
  simp [SymbolTable.recordToken]

theorem invalidPart_isPrefix_self (cs : List Char) : invalidPart cs <+: cs := by
  fun_cases invalidPart cs with
  | case1 cs => exact List.prefix_cons_inj _ |>.2 (List.takeWhile_prefix _)
  | case2 cs => exact List.prefix_rfl
  | case3 c cs => exact ⟨cs, rfl⟩
  | case4 => exact List.prefix_rfl

/-- The characters of an identifier are an identifier wherever they are a lexeme. -/
theorem NextLexeme.kind_eq_identifier {b b' : Bool} {part part' w : List Char} {k : TokenKind}
    (h : NextLexeme b part .identifier w) (h' : NextLexeme b' part' k w) : k = .identifier := by
  have hclass : InClass b' .identifier w := by
    cases h with
    | longest hclass =>
      cases hclass with
      | identifier hc hcs hk => exact .identifier hc hcs hk
  cases h' with
  | longest hclass' => exact hclass'.kind_unique hclass
  | invalid hnone => exact absurd (invalidPart_isPrefix_self part') (hnone _ _ hclass)

/-- A token with the characters of an identifier is one. -/
theorem kind_eq_identifier {text : String} {t u : Token} (ht : t ∈ tokens text)
    (hu : u ∈ tokens text) (hkind : u.kind = .identifier) (hlexeme : u.lexeme = t.lexeme) :
    t.kind = .identifier := by
  rcases nextLexeme_of_mem_tokensFrom hu with hend | ⟨b, part, hpart, hnext⟩
  · rw [hkind] at hend
    cases hend
  rw [hkind, hlexeme] at hnext
  rcases nextLexeme_of_mem_tokensFrom ht with hend | ⟨b', part', -, hnext'⟩
  · rw [lexeme_of_endOfInput ht hend] at hnext
    exact absurd rfl (hnext.ne_nil hpart)
  · exact hnext.kind_eq_identifier hnext'

/-- The table of a text is the index of its identifiers, as the table of any occurrences is their
index.  The text of another token is not listed. -/
theorem indexes_symbols (limits : Limits) (text : String) :
    (∀ os, (SymbolTable.ofOccurrences os).Indexes os) ∧
      (tokenize limits text).symbols.Indexes
        (identifierOccurrences (tokenize limits text).tokens) ∧
      ∀ t ∈ (tokenize limits text).tokens, t.kind ≠ .identifier →
        t.lexeme ∉ (tokenize limits text).symbols.names := by
  have hindexes : (symbolsOf (tokens text)).Indexes (identifierOccurrences (tokens text)) := by
    rw [symbolsOf_eq]
    exact SymbolTable.indexes_ofOccurrences _
  rw [tokenize_eq]
  refine ⟨SymbolTable.indexes_ofOccurrences, hindexes, ?_⟩
  intro t ht hkind hmem
  obtain ⟨o, ho, hname⟩ := List.mem_map.1 ((hindexes.mem_names t.lexeme).1 hmem)
  obtain ⟨u, hu, rfl⟩ := List.mem_map.1 ho
  obtain ⟨hu, hidentifier⟩ := List.mem_filter.1 hu
  exact hkind (kind_eq_identifier ht hu (of_decide_eq_true hidentifier) hname)

end Pdl
