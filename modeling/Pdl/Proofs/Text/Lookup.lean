import Mathlib.Data.List.Basic
import Pdl.Diagnostic.Snippet
import Pdl.Proofs.Text.Boundaries
import Pdl.Proofs.Text.LineIndex
import Pdl.Text.Split

/-!
# Looking up lines and spans

A source text is looked up in two ways, and neither of them fails where there is
something to find (`Source.finds_lines_spans`).

The line of a number is cut out at offsets of the index of lines.  The text splits at
its newlines into as many pieces as the index has entries, and the line is the piece
in its place without one carriage return at its end (`Source.line?_succ`).  Both are
read off a place of the text behind the newlines that are counted.

The text of a span is asked for by any two offsets.  There is one where the offsets
are boundaries in their order, and the two ways to be wrong are told apart.
-/

namespace Pdl

/-! ## Pieces between newlines -/

theorem head?_splitAtChar {line tail : List Char} (hline : '\n' ∉ line)
    (htail : BeginsWithNewline tail) : (splitAtChar '\n' (line ++ tail)).head? = some line := by
  rcases htail with rfl | ⟨ds, rfl⟩
  · rw [List.append_nil, splitAtChar_of_not_mem hline, List.head?_cons]
  · rw [splitAtChar_append, splitAtChar_of_not_mem hline, List.singleton_append, List.head?_cons]

/-- The piece at a place of a text has the characters since the last newline and those up to
the next one. -/
theorem getElem?_splitAtChar (before rest : List Char) :
    (splitAtChar '\n' (before ++ rest))[before.count '\n']?
      = some (lastLine before ++ firstLine rest) := by
  obtain ⟨head, hbefore, hhead⟩ := exists_append_lastLine before
  obtain ⟨tail, hrest, htail⟩ := exists_firstLine_append rest
  have hmem : '\n' ∉ lastLine before ++ firstLine rest := by
    simp [newline_not_mem_lastLine, newline_not_mem_firstLine]
  have hpiece := head?_splitAtChar hmem htail
  have hcount : before.count '\n' = head.count '\n' := by
    rw [hbefore, List.count_append, List.count_eq_zero.2 (newline_not_mem_lastLine before),
      Nat.add_zero]
  have htext : before ++ rest = head ++ (lastLine before ++ firstLine rest ++ tail) := by
    rw [List.append_assoc, ← hrest, ← List.append_assoc, ← hbefore]
  rw [htext, hcount]
  rcases hhead with rfl | ⟨ds, rfl⟩
  · rw [List.nil_append, List.count_nil, ← List.head?_eq_getElem?, hpiece]
  · have hlength : (ds ++ ['\n']).count '\n' = (splitAtChar '\n' ds).length := by
      rw [length_splitAtChar]
      simp
    rw [List.append_assoc, List.singleton_append, splitAtChar_append, hlength,
      List.getElem?_append_right (Nat.le_refl _), Nat.sub_self, ← List.head?_eq_getElem?, hpiece]

/-- At most one carriage return is left out at the end of a line. -/
theorem dropReturn_cases (cs : List Char) :
    cs = dropReturn cs ++ ['\r'] ∨ cs = dropReturn cs ∧ cs.getLast? ≠ some '\r' := by
  rw [dropReturn]
  split
  · rename_i hlast
    exact .inl (List.dropLast_append_getLast? _ hlast).symm
  · rename_i hlast
    exact .inr ⟨rfl, hlast⟩

theorem pos_of_mem_newlineStops {n m : Nat} {cs : List Char} (h : m ∈ newlineStops n cs) :
    0 < m := by
  induction cs generalizing n with
  | nil => cases h
  | cons c cs ih =>
    rw [newlineStops] at h
    split at h
    · rcases List.mem_cons.1 h with rfl | h
      · exact Nat.add_pos_right _ c.utf8Size_pos
      · exact ih h
    · exact ih h

namespace Source

/-! ## Lines -/

/-- The lines are the pieces of the text between its newlines, each without a carriage return at
its end. -/
theorem line?_succ (s : Source) (k : Nat) :
    s.line? (k + 1) = (splitAtChar '\n' s.content.toList)[k]?.map dropReturn := by
  by_cases hk : k ≤ s.content.toList.count '\n'
  · obtain ⟨before, rest, hsplit, rfl⟩ := exists_split_of_le_count hk
    rw [Nat.add_comm, line?_of_split hsplit, hsplit, getElem?_splitAtChar]
    rfl
  · have hstarts : s.lineStarts.length ≤ k := by
      have hcount : s.lineStarts.length = 1 + s.content.toList.count '\n' := s.lineCount_eq
      omega
    have hpieces : (splitAtChar '\n' s.content.toList).length ≤ k := by
      rw [length_splitAtChar]
      omega
    rw [line?, List.getElem?_eq_none hstarts, List.getElem?_eq_none hpieces]
    rfl

theorem line?_eq_none_iff (s : Source) (n : Nat) :
    s.line? n = none ↔ n = 0 ∨ s.lineCount < n := by
  cases n with
  | zero => exact ⟨fun _ => .inl rfl, fun _ => rfl⟩
  | succ k =>
    rw [line?_succ, Option.map_eq_none_iff, List.getElem?_eq_none_iff, length_splitAtChar,
      lineCount_eq]
    omega

/-- A line is cut out of the text at two boundaries in their order. -/
theorem exists_cut_of_lt (s : Source) {k : Nat} (hk : k < s.lineCount) :
    ∃ first, s.lineStarts[k]? = some first ∧ first ≤ s.lineStop k ∧
      IsBoundary s.content first ∧ IsBoundary s.content (s.lineStop k) := by
  rw [lineCount_eq] at hk
  obtain ⟨before, rest, hsplit, rfl⟩ :=
    exists_split_of_le_count (Nat.le_of_lt_succ (Nat.add_comm _ _ ▸ hk))
  obtain ⟨first, hfirst, hline, -⟩ := line_of_split hsplit
  exact ⟨first, hfirst, exists_sliceBytes_iff.1 ⟨_, hline⟩⟩

/-- In front of a further line there is the byte of a newline. -/
theorem lineStop_add_one (s : Source) {k next : Nat} (h : s.lineStarts[k + 1]? = some next) :
    s.lineStop k + 1 = next := by
  have hpos : 0 < next := by
    rw [lineStarts, List.getElem?_cons_succ] at h
    exact pos_of_mem_newlineStops (List.mem_of_getElem? h)
  rw [lineStop, h]
  exact Nat.sub_add_cancel hpos

/-- Lines are found by their numbers. -/
structure FindsLines (s : Source) : Prop where
  lineCount_eq : s.lineCount = 1 + s.content.toList.count '\n'
  /-- All numbers from one up to that of the lines have a line, and no others. -/
  none_iff : ∀ n, s.line? n = none ↔ n = 0 ∨ s.lineCount < n
  /-- It is the piece of the text in its place, without one carriage return at the end. -/
  piece : ∀ k line, s.line? (k + 1) = some line →
    ∃ piece, (splitAtChar '\n' s.content.toList)[k]? = some piece ∧
      (piece = line ++ ['\r'] ∨ piece = line ∧ piece.getLast? ≠ some '\r')
  /-- It is cut out between two characters. -/
  cut : ∀ k < s.lineCount, ∃ first, s.lineStarts[k]? = some first ∧ first ≤ s.lineStop k ∧
    IsBoundary s.content first ∧ IsBoundary s.content (s.lineStop k)
  /-- The newline behind it is one byte. -/
  newline : ∀ k next, s.lineStarts[k + 1]? = some next → s.lineStop k + 1 = next

theorem findsLines (s : Source) : s.FindsLines where
  lineCount_eq := s.lineCount_eq
  none_iff := s.line?_eq_none_iff
  piece k line h := by
    rw [line?_succ] at h
    obtain ⟨piece, hpiece, rfl⟩ := Option.map_eq_some_iff.1 h
    exact ⟨piece, hpiece, dropReturn_cases piece⟩
  cut _ hk := s.exists_cut_of_lt hk
  newline _ _ h := s.lineStop_add_one h

/-! ## Spans -/

/-- What is found of a span, whatever its numbers are. -/
structure FindsSpan (s : Source) (span : Span) : Prop where
  reversed_iff : s.slice span = .error (.reversed span.start span.stop) ↔ span.stop < span.start
  exists_iff : (∃ cs, s.slice span = .ok cs) ↔ span.start ≤ span.stop ∧
    span.stop ≤ s.content.utf8ByteSize ∧ IsBoundary s.content span.start ∧
      IsBoundary s.content span.stop
  /-- The text of the span has the bytes between its offsets. -/
  bytes : ∀ cs, s.slice span = .ok cs →
    (String.ofList cs).toUTF8 = s.content.toUTF8.extract span.start span.stop
  outOfBounds_iff :
    s.slice span = .error (.outOfBounds s.content.utf8ByteSize span.start span.stop) ↔
      span.start ≤ span.stop ∧ ¬ (span.stop ≤ s.content.utf8ByteSize ∧
        IsBoundary s.content span.start ∧ IsBoundary s.content span.stop)
  /-- The line can be quoted if there is such a line, also where the offsets are wrong. -/
  snippet_iff : (∃ q, s.snippet span = .ok q) ↔ ∃ line, s.line? span.line = some line
  /-- At least one column of it is underlined, the first of them being that of the span. -/
  columns : ∀ q, s.snippet span = .ok q → q.startColumn = span.column ∧ q.startColumn < q.endColumn

theorem slice_of_lt {s : Source} {span : Span} (h : span.stop < span.start) :
    s.slice span = .error (.reversed span.start span.stop) := by
  rw [slice, if_pos h]

theorem slice_eq_ok_iff {s : Source} {span : Span} {cs : List Char} :
    s.slice span = .ok cs ↔ sliceBytes span.start span.stop s.content.toList = some cs := by
  rcases Nat.lt_or_ge span.stop span.start with hlt | hle
  · rw [slice_of_lt hlt, sliceBytes, if_neg (Nat.not_le.2 hlt)]
    simp
  · rw [slice, if_neg (Nat.not_lt.2 hle)]
    split <;> simp_all

theorem slice_eq_outOfBounds_iff {s : Source} {span : Span} :
    s.slice span = .error (.outOfBounds s.size span.start span.stop) ↔
      span.start ≤ span.stop ∧ sliceBytes span.start span.stop s.content.toList = none := by
  rcases Nat.lt_or_ge span.stop span.start with hlt | hle
  · rw [slice_of_lt hlt]
    simp [Nat.not_le.2 hlt]
  · rw [slice, if_neg (Nat.not_lt.2 hle)]
    split <;> simp_all

theorem exists_snippet_iff (s : Source) (span : Span) :
    (∃ q, s.snippet span = .ok q) ↔ ∃ line, s.line? span.line = some line := by
  rw [snippet]
  cases s.line? span.line <;> simp

theorem columns_of_snippet {s : Source} {span : Span} {q : Snippet} (h : s.snippet span = .ok q) :
    q.startColumn = span.column ∧ q.startColumn < q.endColumn := by
  rw [snippet] at h
  split at h
  · cases h
  · cases h
    exact ⟨rfl, Nat.lt_of_lt_of_le (Nat.lt_succ_self _) (Nat.le_max_right _ _)⟩

theorem findsSpan (s : Source) (span : Span) : s.FindsSpan span where
  reversed_iff := by
    rcases Nat.lt_or_ge span.stop span.start with hlt | hle
    · simp [slice_of_lt hlt, hlt]
    · rw [slice, if_neg (Nat.not_lt.2 hle)]
      split <;> simp [hle]
  exists_iff := by
    simp only [slice_eq_ok_iff, exists_sliceBytes_iff]
    exact ⟨fun ⟨hle, hstart, hstop⟩ => ⟨hle, hstop.le, hstart, hstop⟩,
      fun ⟨hle, _, hstart, hstop⟩ => ⟨hle, hstart, hstop⟩⟩
  bytes cs h := toUTF8_of_sliceBytes (slice_eq_ok_iff.1 h)
  outOfBounds_iff := by
    rw [← byteCount_toList]
    refine slice_eq_outOfBounds_iff.trans (and_congr_right fun hle => ?_)
    rw [sliceBytes_eq_none_iff, not_iff_not, byteCount_toList]
    exact ⟨fun ⟨_, hstart, hstop⟩ => ⟨hstop.le, hstart, hstop⟩,
      fun ⟨_, hstart, hstop⟩ => ⟨hle, hstart, hstop⟩⟩
  snippet_iff := s.exists_snippet_iff span
  columns _ h := columns_of_snippet h

/-- Lines are found by their numbers, and spans by their offsets. -/
theorem finds_lines_spans (s : Source) : s.FindsLines ∧ ∀ span, s.FindsSpan span :=
  ⟨s.findsLines, s.findsSpan⟩

end Source

end Pdl
