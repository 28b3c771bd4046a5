import Pdl.Toml.Document

/-!
# Integers of a document

Every integer that a document holds fits into 64 bits with a sign, at whatever depth it
stands (`fit_of_read?`).  The readers of numbers see to it, and what puts values
together adds no integers of its own.
-/

namespace Pdl.Toml

/-- Every integer in a value is below `2 ^ 63`. -/
inductive Value.Fits : Value → Prop where
  | text (s : String) : Fits (.text s)
  | integer {n : Int} (h : n < 0x8000000000000000) : Fits (.integer n)
  | floating (x : Floating) : Fits (.floating x)
  | boolean (b : Bool) : Fits (.boolean b)
  | moment (m : Moment) : Fits (.moment m)
  | array {vs : List Value} (h : ∀ v ∈ vs, Fits v) : Fits (.array vs)
  | table {origin : Origin} {es : Entries} (h : ∀ e ∈ es, Fits e.2) : Fits (.table origin es)
  | tables {elements : List Entries} (h : ∀ es ∈ elements, ∀ e ∈ es, Fits e.2) :
      Fits (.tables elements)

/-- Every integer in the values of a table is below `2 ^ 63`. -/
def Entries.Fit (es : Entries) : Prop := ∀ e ∈ es, e.2.Fits

/-! ## Numbers -/

theorem lt_of_word? {n m : Int} (h : word? n = some m) : m < 0x8000000000000000 := by
  rw [word?] at h
  split at h
  · cases h
    exact And.right ‹_›
  · cases h

theorem lt_of_basedInteger {base : Nat} {cs r : List Char} {n : Int}
    (h : basedInteger base cs = some (n, r)) : n < 0x8000000000000000 := by
  obtain ⟨⟨ds, r'⟩, -, h⟩ := Option.bind_eq_some_iff.1 h
  obtain ⟨m, hm, h⟩ := Option.bind_eq_some_iff.1 h
  cases h
  exact lt_of_word? hm

theorem lt_of_decimal {cs r : List Char} {n : Int} (h : decimal cs = some (.inl n, r)) :
    n < 0x8000000000000000 := by
  rw [decimal] at h
  dsimp only at h
  split at h
  · cases h
  · cases h
  · obtain ⟨⟨whole, _⟩, -, h⟩ := Option.bind_eq_some_iff.1 h
    obtain ⟨⟨part, _⟩, -, h⟩ := Option.bind_eq_some_iff.1 h
    obtain ⟨⟨power, _⟩, -, h⟩ := Option.bind_eq_some_iff.1 h
    dsimp only at h
    split at h
    · obtain ⟨m, hm, h⟩ := Option.bind_eq_some_iff.1 h
      cases h
      exact lt_of_word? hm
    · split at h <;> cases h

theorem lt_of_number {cs r : List Char} {n : Int} (h : number cs = some (.inl n, r)) :
    n < 0x8000000000000000 := by
  have hbased : ∀ base r', (basedInteger base r').map (fun p => ((.inl p.1 : Int ⊕ Floating), p.2))
      = some (.inl n, r) → n < 0x8000000000000000 := by
    intro base r' h
    obtain ⟨⟨m, _⟩, hm, h⟩ := Option.map_eq_some_iff.1 h
    cases h
    exact lt_of_basedInteger hm
  unfold number at h
  split at h
  · exact hbased 16 _ h
  · exact hbased 8 _ h
  · exact hbased 2 _ h
  · exact lt_of_decimal h

/-! ## Tables -/

namespace Entries

variable {es es' : Entries} {key : String} {v : Value}

theorem Fit.nil : Fit [] := fun _ he => nomatch he

theorem Fit.append_singleton (h : Fit es) (hv : v.Fits) : Fit (es ++ [(key, v)]) := by
  intro e he
  rcases List.mem_append.1 he with he | he
  · exact h e he
  · cases List.mem_singleton.1 he
    exact hv

theorem Fit.put (h : Fit es) (hv : v.Fits) : Fit (put key v es) := by
  induction es with
  | nil => exact Fit.append_singleton .nil hv
  | cons e es ih =>
    rw [Entries.put]
    split
    · exact List.forall_mem_cons.2 ⟨hv, fun e he => h e (.tail _ he)⟩
    · exact List.forall_mem_cons.2 ⟨h e (.head _), ih fun e he => h e (.tail _ he)⟩

theorem Fit.of_lookup (h : Fit es) (hv : es.lookup key = some v) : v.Fits := by
  obtain ⟨_, _, rfl, -⟩ := List.lookup_eq_some_iff.1 hv
  exact h (key, v) (by simp)

theorem Fit.of_table {origin : Origin} (h : (Value.table origin es).Fits) : Fit es := by
  cases h
  assumption

theorem fit_of_mem_tables {elements : List Entries} (h : (Value.tables elements).Fits)
    (hes : es ∈ elements) : Fit es := by
  cases h with
  | tables h => exact h es hes

/-- A change to a table adds no integer that does not fit. -/
def KeepsFit (f : Entries → Option Entries) : Prop :=
  ∀ es es', Fit es → f es = some es' → Fit es'

theorem KeepsFit.changeLast {f : Entries → Option Entries} (hf : KeepsFit f)
    {elements elements' : List Entries} (helements : (Value.tables elements).Fits)
    (h : changeLast f elements = some elements') : (Value.tables elements').Fits := by
  obtain ⟨es, hes, rfl⟩ := Option.map_eq_some_iff.1 h
  have hlast : Fit (elements.getLast?.getD []) := by
    cases hget : elements.getLast? with
    | none => exact .nil
    | some es => exact fit_of_mem_tables helements (List.mem_of_getLast? hget)
  refine .tables fun es' hes' => ?_
  rcases List.mem_append.1 hes' with hes' | hes'
  · exact fit_of_mem_tables helements (List.dropLast_subset _ hes')
  · cases List.mem_singleton.1 hes'
    exact hf _ _ hlast hes

theorem keepsFit_insert (hv : v.Fits) (path : List String) : KeepsFit (insert path v) := by
  induction path with
  | nil => exact fun _ _ _ h => nomatch h
  | cons key rest ih =>
    intro es es' hes h
    cases rest with
    | nil =>
      rw [insert] at h
      split at h
      · cases h
      · cases h
        exact hes.append_singleton hv
    | cons next rest =>
      rw [insert.eq_3 _ _ _ _ (by simp)] at h
      split at h
      · obtain ⟨sub, hsub, rfl⟩ := Option.map_eq_some_iff.1 h
        exact hes.append_singleton (.table (ih _ _ .nil hsub))
      · rename_i hlookup
        split at h
        · obtain ⟨sub, hsub, rfl⟩ := Option.map_eq_some_iff.1 h
          exact hes.put (.table (ih _ _ (.of_table (hes.of_lookup hlookup)) hsub))
        · cases h
      · rename_i hlookup
        split at h
        · obtain ⟨elements, helements, rfl⟩ := Option.map_eq_some_iff.1 h
          exact hes.put (ih.changeLast (hes.of_lookup hlookup) helements)
        · cases h
      · cases h

theorem keepsFit_within {f : String → Entries → Option Entries} (hf : ∀ key, KeepsFit (f key))
    (path : List String) : KeepsFit (within f path) := by
  induction path with
  | nil => exact fun _ _ _ h => nomatch h
  | cons key rest ih =>
    cases rest with
    | nil => exact hf key
    | cons next rest =>
      intro es es' hes h
      rw [within.eq_3 _ _ _ _ (by simp)] at h
      split at h
      · obtain ⟨sub, hsub, rfl⟩ := Option.map_eq_some_iff.1 h
        exact hes.append_singleton (.table (ih _ _ .nil hsub))
      · rename_i hlookup
        split at h
        · cases h
        · obtain ⟨sub, hsub, rfl⟩ := Option.map_eq_some_iff.1 h
          exact hes.put (.table (ih _ _ (.of_table (hes.of_lookup hlookup)) hsub))
      · rename_i hlookup
        obtain ⟨elements, helements, rfl⟩ := Option.map_eq_some_iff.1 h
        exact hes.put (ih.changeLast (hes.of_lookup hlookup) helements)
      · cases h

variable {fill : Entries → Option Entries}

theorem keepsFit_openTable (hfill : KeepsFit fill) (key : String) :
    KeepsFit (openTable fill key) := by
  intro es es' hes h
  rw [openTable] at h
  split at h
  · obtain ⟨sub, hsub, rfl⟩ := Option.map_eq_some_iff.1 h
    exact hes.append_singleton (.table (hfill _ _ .nil hsub))
  · rename_i hlookup
    obtain ⟨sub, hsub, rfl⟩ := Option.map_eq_some_iff.1 h
    exact hes.put (.table (hfill _ _ (.of_table (hes.of_lookup hlookup)) hsub))
  · cases h

theorem keepsFit_addTable (hfill : KeepsFit fill) (key : String) :
    KeepsFit (addTable fill key) := by
  intro es es' hes h
  rw [addTable] at h
  split at h
  · obtain ⟨sub, hsub, rfl⟩ := Option.map_eq_some_iff.1 h
    refine hes.append_singleton (.tables fun es' hes' => ?_)
    cases List.mem_singleton.1 hes'
    exact hfill _ _ .nil hsub
  · rename_i hlookup
    obtain ⟨sub, hsub, rfl⟩ := Option.map_eq_some_iff.1 h
    refine hes.put (.tables fun es' hes' => ?_)
    rcases List.mem_append.1 hes' with hes' | hes'
    · exact fit_of_mem_tables (hes.of_lookup hlookup) hes'
    · cases List.mem_singleton.1 hes'
      exact hfill _ _ .nil hsub
  · cases h

/-- The integers of pairs fit. -/
def PairsFit (pairs : List (List String × Value)) : Prop := ∀ p ∈ pairs, p.2.Fits

theorem keepsFit_insertAll {pairs : List (List String × Value)} (hpairs : PairsFit pairs) :
    KeepsFit (insertAll pairs) := by
  induction pairs with
  | nil =>
    intro es es' hes h
    cases h
    exact hes
  | cons p ps ih =>
    intro es es' hes h
    obtain ⟨es₁, h₁, h⟩ := Option.bind_eq_some_iff.1 h
    exact ih (fun q hq => hpairs q (.tail _ hq)) _ _
      (keepsFit_insert (hpairs p (.head _)) p.1 _ _ hes h₁) h

end Entries

/-! ## Values -/

/-- A reader answers values whose integers fit. -/
def ReadsFitting (value : List Char → Option (Value × List Char)) : Prop :=
  ∀ cs v r, value cs = some (v, r) → v.Fits

theorem readsFitting_plain? : ReadsFitting plain? := by
  intro cs v r h
  unfold plain? at h
  split at h
  · obtain ⟨⟨t, _⟩, -, h⟩ := Option.map_eq_some_iff.1 h
    cases h
    exact .text _
  · obtain ⟨⟨t, _⟩, -, h⟩ := Option.map_eq_some_iff.1 h
    cases h
    exact .text _
  · cases h
    exact .boolean _
  · cases h
    exact .boolean _
  · split at h
    · obtain ⟨⟨m, _⟩, -, h⟩ := Option.map_eq_some_iff.1 h
      cases h
      exact .moment m
    · obtain ⟨⟨n, _⟩, hn, h⟩ := Option.map_eq_some_iff.1 h
      cases h
      cases n with
      | inl n => exact .integer (lt_of_number hn)
      | inr x => exact .floating x

section

variable {value : List Char → Option (Value × List Char)} (hvalue : ReadsFitting value)
include hvalue

theorem fits_of_itemsWithin {n : Nat} {cs r : List Char} {vs : List Value}
    (h : itemsWithin value n cs = some (vs, r)) : ∀ v ∈ vs, v.Fits := by
  induction n generalizing cs vs with
  | zero => cases h
  | succ n ih =>
    rw [itemsWithin] at h
    split at h
    · cases h
      exact fun _ hv => nomatch hv
    · obtain ⟨⟨v, r₁⟩, hv, h⟩ := Option.bind_eq_some_iff.1 h
      dsimp only at h
      split at h
      · cases h
        exact List.forall_mem_singleton.2 (hvalue _ _ _ hv)
      · obtain ⟨⟨vs', r₂⟩, hvs, h⟩ := Option.bind_eq_some_iff.1 h
        cases h
        exact List.forall_mem_cons.2 ⟨hvalue _ _ _ hv, ih hvs⟩
      · cases h

theorem fits_of_pair? {cs r : List Char} {p : List String × Value}
    (h : pair? value cs = some (p, r)) : p.2.Fits := by
  obtain ⟨⟨key, _⟩, -, h⟩ := Option.bind_eq_some_iff.1 h
  obtain ⟨r₁, -, h⟩ := Option.bind_eq_some_iff.1 h
  obtain ⟨⟨v, r₂⟩, hv, h⟩ := Option.bind_eq_some_iff.1 h
  cases h
  exact hvalue _ _ _ hv

theorem fits_of_pairsWithin {n : Nat} {cs r : List Char} {ps : List (List String × Value)}
    (h : pairsWithin value n cs = some (ps, r)) : Entries.PairsFit ps := by
  induction n generalizing cs ps with
  | zero => cases h
  | succ n ih =>
    obtain ⟨⟨p, r₁⟩, hp, h⟩ := Option.bind_eq_some_iff.1 h
    dsimp only at h
    split at h
    · cases h
      exact List.forall_mem_singleton.2 (fits_of_pair? hvalue hp)
    · obtain ⟨⟨ps', r₂⟩, hps, h⟩ := Option.bind_eq_some_iff.1 h
      cases h
      exact List.forall_mem_cons.2 ⟨fits_of_pair? hvalue hp, ih hps⟩
    · cases h

theorem readsFitting_array? : ReadsFitting (array? value) := by
  intro cs v r h
  obtain ⟨⟨vs, _⟩, hvs, h⟩ := Option.map_eq_some_iff.1 h
  cases h
  exact .array (fits_of_itemsWithin hvalue hvs)

theorem readsFitting_inlineTable? : ReadsFitting (inlineTable? value) := by
  intro cs v r h
  rw [inlineTable?] at h
  split at h
  · cases h
    exact .table Entries.Fit.nil
  · obtain ⟨⟨ps, _⟩, hps, h⟩ := Option.bind_eq_some_iff.1 h
    obtain ⟨es, hes, h⟩ := Option.bind_eq_some_iff.1 h
    cases h
    exact .table (Entries.keepsFit_insertAll (fits_of_pairsWithin hvalue hps) _ _ .nil hes)

end

theorem readsFitting_value? (n : Nat) : ReadsFitting (value? n) := by
  induction n with
  | zero =>
    intro cs v r h
    unfold value? at h
    split at h
    · cases h
    · cases h
    · exact readsFitting_plain? _ _ _ h
  | succ n ih =>
    intro cs v r h
    unfold value? at h
    split at h
    · exact readsFitting_array? ih _ _ _ h
    · exact readsFitting_inlineTable? ih _ _ _ h
    · exact readsFitting_plain? _ _ _ h

/-! ## Documents -/

/-- The integers of a line fit. -/
def Line.Fits : Line → Prop
  | .pair _ v => v.Fits
  | .header _ => True
  | .element _ => True

theorem fits_of_line? {cs r : List Char} {l : Line} (h : line? cs = some (some l, r)) :
    l.Fits := by
  unfold line? at h
  split at h
  · obtain ⟨⟨key, _⟩, -, h⟩ := Option.bind_eq_some_iff.1 h
    obtain ⟨r₁, -, h⟩ := Option.bind_eq_some_iff.1 h
    obtain ⟨r₂, -, h⟩ := Option.bind_eq_some_iff.1 h
    obtain ⟨r₃, -, h⟩ := Option.bind_eq_some_iff.1 h
    cases h
    trivial
  · obtain ⟨⟨key, _⟩, -, h⟩ := Option.bind_eq_some_iff.1 h
    obtain ⟨r₁, -, h⟩ := Option.bind_eq_some_iff.1 h
    obtain ⟨r₂, -, h⟩ := Option.bind_eq_some_iff.1 h
    cases h
    trivial
  · split at h
    · cases h
    · obtain ⟨⟨p, r₁⟩, hp, h⟩ := Option.bind_eq_some_iff.1 h
      obtain ⟨r₂, -, h⟩ := Option.bind_eq_some_iff.1 h
      cases h
      exact fits_of_pair? (readsFitting_value? _) hp

theorem fits_of_linesWithin {n : Nat} {cs : List Char} {ls : List Line}
    (h : linesWithin n cs = some ls) : ∀ l ∈ ls, l.Fits := by
  fun_induction linesWithin n cs generalizing ls with
  | case1 => cases h; exact fun _ hl => nomatch hl
  | case2 => cases h
  | case3 n cs hcs ih =>
    obtain ⟨⟨x, r⟩, hx, h⟩ := Option.bind_eq_some_iff.1 h
    obtain ⟨ls', hls, h⟩ := Option.bind_eq_some_iff.1 h
    cases h
    intro l hl
    rcases List.mem_append.1 hl with hl | hl
    · cases x with
      | none => cases hl
      | some x =>
        cases List.mem_singleton.1 hl
        exact fits_of_line? hx
    · exact ih r hls l hl

theorem fits_of_sections {ls : List Line} (h : ∀ l ∈ ls, l.Fits) :
    Entries.PairsFit (sections ls).1 ∧ ∀ s ∈ (sections ls).2, Entries.PairsFit s.pairs := by
  induction ls with
  | nil => exact ⟨(fun _ hp => nomatch hp), (fun _ hs => nomatch hs)⟩
  | cons l ls ih =>
    obtain ⟨hl, hls⟩ := List.forall_mem_cons.1 h
    obtain ⟨hpairs, hsections⟩ := ih hls
    cases l with
    | pair key v => exact ⟨List.forall_mem_cons.2 ⟨hl, hpairs⟩, hsections⟩
    | header key =>
      exact ⟨(fun _ hp => nomatch hp), List.forall_mem_cons.2 ⟨hpairs, hsections⟩⟩
    | element key =>
      exact ⟨(fun _ hp => nomatch hp), List.forall_mem_cons.2 ⟨hpairs, hsections⟩⟩

theorem fit_of_addTo {s : Section} (hs : Entries.PairsFit s.pairs) {es es' : Entries}
    (hes : es.Fit) (h : s.addTo es = some es') : es'.Fit := by
  refine Entries.keepsFit_within (fun key => ?_) s.key _ _ hes h
  split
  · exact Entries.keepsFit_addTable (Entries.keepsFit_insertAll hs) key
  · exact Entries.keepsFit_openTable (Entries.keepsFit_insertAll hs) key

theorem fit_of_foldlM_addTo {ss : List Section} (hss : ∀ s ∈ ss, Entries.PairsFit s.pairs)
    {es es' : Entries} (hes : es.Fit) (h : ss.foldlM Section.addTo es = some es') : es'.Fit := by
  induction ss generalizing es with
  | nil =>
    cases h
    exact hes
  | cons s ss ih =>
    obtain ⟨es₁, h₁, h⟩ := Option.bind_eq_some_iff.1 h
    obtain ⟨hs, hss⟩ := List.forall_mem_cons.1 hss
    exact ih hss (fit_of_addTo hs hes h₁) h

/-- Every integer of a document is below `2 ^ 63`. -/
theorem fit_of_read? {text : String} {es : Entries} (h : Document.read? text = some es) :
    es.Fit := by
  obtain ⟨ls, hls, h⟩ := Option.bind_eq_some_iff.1 h
  obtain ⟨es₁, h₁, h⟩ := Option.bind_eq_some_iff.1 h
  obtain ⟨hpairs, hsections⟩ := fits_of_sections (fits_of_linesWithin hls)
  exact fit_of_foldlM_addTo hsections (Entries.keepsFit_insertAll hpairs _ _ .nil h₁) h

end Pdl.Toml
