import Mathlib.Data.List.Induction
import Mathlib.Data.List.TakeWhile
import Pdl.Text.Source

/-!
# Positions and the index of lines

A position is kept up to date character by character, while the index of lines
is made from the whole text and counts bytes.  Both are read off one split of
the text.

* The position after `cs` has passed the newlines of `cs`, and its column
  counts the last line of `cs` (`Position.start_after`).
* A line of the text begins at the beginning or after a newline, and goes on up
  to the next newline or the end.  The index has its first byte at the number
  of newlines before it (`getElem?_lineStarts`), and finds its end
  (`sliceBytes_lineStop`).

So the position after the first part of a text is where the index finds it
(`Source.locates_start_after`).
-/

namespace Pdl

/-! ## The last line of a text -/

/-- What follows the last newline of a text. -/
def lastLine (cs : List Char) : List Char := (cs.reverse.takeWhile (· != '\n')).reverse

theorem lastLine_concat_newline (cs : List Char) : lastLine (cs ++ ['\n']) = [] := by
  simp [lastLine]

theorem lastLine_concat {c : Char} (h : c ≠ '\n') (cs : List Char) :
    lastLine (cs ++ [c]) = lastLine cs ++ [c] := by
  simp [lastLine, h]

theorem newline_not_mem_lastLine (cs : List Char) : '\n' ∉ lastLine cs := by
  intro h
  simpa using List.mem_takeWhile_imp (List.mem_reverse.1 h)

theorem length_lastLine_le (cs : List Char) : (lastLine cs).length ≤ cs.length := by
  have h : (cs.reverse.takeWhile (· != '\n')).length ≤ cs.reverse.length :=
    (List.takeWhile_prefix _).length_le
  rw [List.length_reverse] at h
  rwa [lastLine, List.length_reverse]

/-- A text up to a line is empty or ends in a newline. -/
def EndsLine (cs : List Char) : Prop := cs = [] ∨ ∃ ds, cs = ds ++ ['\n']

/-- A text after a line is empty or begins with a newline. -/
def BeginsWithNewline (cs : List Char) : Prop := cs = [] ∨ ∃ ds, cs = '\n' :: ds

theorem exists_append_lastLine (cs : List Char) : ∃ ds, cs = ds ++ lastLine cs ∧ EndsLine ds := by
  induction cs using List.reverseRecOn with
  | nil => exact ⟨[], rfl, .inl rfl⟩
  | append_singleton cs c ih =>
    by_cases hc : c = '\n'
    · subst hc
      exact ⟨cs ++ ['\n'], by simp [lastLine_concat_newline], .inr ⟨cs, rfl⟩⟩
    · obtain ⟨ds, hds, hends⟩ := ih
      refine ⟨ds, ?_, hends⟩
      rw [lastLine_concat hc, ← List.append_assoc, ← hds]

/-! ## The first line of a text -/

/-- What stands in front of the first newline of a text. -/
def firstLine (cs : List Char) : List Char := cs.takeWhile (· != '\n')

theorem newline_not_mem_firstLine (cs : List Char) : '\n' ∉ firstLine cs := by
  intro h
  simpa using List.mem_takeWhile_imp h

theorem firstLine_cons {c : Char} (hc : c ≠ '\n') (cs : List Char) :
    firstLine (c :: cs) = c :: firstLine cs :=
  List.takeWhile_cons_of_pos (bne_iff_ne.2 hc)

theorem firstLine_of_newline_not_mem {cs : List Char} (h : '\n' ∉ cs) : firstLine cs = cs := by
  refine List.takeWhile_eq_self_iff.2 ?_
  intro c hc
  rw [bne_iff_ne]
  rintro rfl
  exact h hc

/-- The first line of a text begins with the first line of a first part of it. -/
theorem firstLine_prefix {w cs : List Char} (h : w <+: cs) : firstLine w <+: firstLine cs := by
  obtain ⟨r, rfl⟩ := h
  induction w with
  | nil => exact List.nil_prefix
  | cons c w ih =>
    by_cases hc : c = '\n'
    · simp [firstLine, hc]
    · rw [List.cons_append, firstLine_cons hc, firstLine_cons hc]
      exact (List.prefix_cons_inj c).2 ih

/-- The first line, and what follows. -/
theorem exists_firstLine_append (cs : List Char) :
    ∃ ds, cs = firstLine cs ++ ds ∧ BeginsWithNewline ds := by
  induction cs with
  | nil => exact ⟨[], rfl, .inl rfl⟩
  | cons c cs ih =>
    by_cases hc : c = '\n'
    · subst hc
      exact ⟨'\n' :: cs, rfl, .inr ⟨cs, rfl⟩⟩
    · obtain ⟨ds, hcs, hds⟩ := ih
      refine ⟨ds, ?_, hds⟩
      rw [firstLine_cons hc, List.cons_append, ← hcs]

/-- A text has a place behind each of its newlines. -/
theorem exists_split_of_le_count {cs : List Char} {k : Nat} (h : k ≤ cs.count '\n') :
    ∃ before rest, cs = before ++ rest ∧ before.count '\n' = k := by
  induction cs generalizing k with
  | nil => exact ⟨[], [], rfl, (Nat.le_zero.1 h).symm⟩
  | cons c cs ih =>
    cases k with
    | zero => exact ⟨[], c :: cs, rfl, rfl⟩
    | succ k =>
      by_cases hc : c = '\n'
      · subst hc
        rw [List.count_cons_self] at h
        obtain ⟨before, rest, hcs, hcount⟩ := ih (Nat.le_of_succ_le_succ h)
        exact ⟨'\n' :: before, rest, by rw [hcs, List.cons_append], by simp [hcount]⟩
      · rw [List.count_cons_of_ne hc] at h
        obtain ⟨before, rest, hcs, hcount⟩ := ih h
        exact ⟨c :: before, rest, by rw [hcs, List.cons_append], by simp [hc, hcount]⟩

/-! ## Positions -/

namespace Position

theorem offset_after (p : Position) (cs : List Char) :
    (p.after cs).offset = p.offset + byteCount cs := by
  induction cs generalizing p with
  | nil => simp
  | cons c cs ih =>
    have hadvance : (p.advance c).offset = p.offset + c.utf8Size := by
      rw [advance]
      split <;> rfl
    rw [after_cons, ih, hadvance, byteCount_cons, Nat.add_assoc]

/-- The place after `cs`: its lines, the characters of its last line, its bytes. -/
theorem start_after (cs : List Char) :
    start.after cs = ⟨1 + cs.count '\n', 1 + (lastLine cs).length, byteCount cs⟩ := by
  induction cs using List.reverseRecOn with
  | nil => rfl
  | append_singleton cs c ih =>
    rw [after_append, ih, after_cons, after_nil, advance]
    by_cases hc : c = '\n'
    · subst hc
      simp [lastLine_concat_newline, Nat.add_assoc]
    · simp [lastLine_concat hc, hc, Nat.add_assoc]

end Position

/-! ## The index of lines -/

theorem newlineStops_append (n : Nat) (as bs : List Char) :
    newlineStops n (as ++ bs) = newlineStops n as ++ newlineStops (n + byteCount as) bs := by
  induction as generalizing n with
  | nil => rfl
  | cons a as ih =>
    rw [List.cons_append, newlineStops, newlineStops, byteCount_cons, ← Nat.add_assoc, ih]
    split <;> rfl

namespace Source

variable {s : Source} {head line rest : List Char}

/-- The index has the first byte of each line. -/
theorem getElem?_lineStarts (h : s.content.toList = head ++ rest) (hhead : EndsLine head) :
    s.lineStarts[head.count '\n']? = some (byteCount head) := by
  rcases hhead with rfl | ⟨ds, rfl⟩
  · rfl
  · have hcount : (ds ++ ['\n']).count '\n' = (newlineStops 0 ds).length + 1 := by
      rw [length_newlineStops]
      simp
    rw [lineStarts, hcount, List.getElem?_cons_succ, h, List.append_assoc, newlineStops_append,
      List.getElem?_append_right (Nat.le_refl _), Nat.sub_self, List.singleton_append,
      newlineStops, if_pos rfl]
    simp

/-- A line goes up to the next newline or the end. -/
theorem lineStop_eq (h : s.content.toList = head ++ (line ++ rest)) (hline : '\n' ∉ line)
    (hrest : BeginsWithNewline rest) :
    s.lineStop (head.count '\n') = byteCount (head ++ line) := by
  have hcount : (head ++ line).count '\n' = head.count '\n' := by
    rw [List.count_append, List.count_eq_zero.2 hline, Nat.add_zero]
  have hnext : s.lineStarts[head.count '\n' + 1]?
      = (newlineStops (byteCount (head ++ line)) rest)[0]? := by
    rw [lineStarts, List.getElem?_cons_succ, h, ← List.append_assoc, newlineStops_append,
      List.getElem?_append_right (by rw [length_newlineStops, hcount]), length_newlineStops,
      hcount, Nat.sub_self, Nat.zero_add]
  rcases hrest with rfl | ⟨ds, rfl⟩
  · rw [lineStop, hnext]
    simp [newlineStops, size, h]
  · have hsize : '\n'.utf8Size = 1 := rfl
    rw [lineStop, hnext, newlineStops, if_pos rfl]
    simp [hsize]

/-- The bytes from the beginning of a line to its end are the line. -/
theorem sliceBytes_lineStop (h : s.content.toList = head ++ (line ++ rest))
    (hline : '\n' ∉ line) (hrest : BeginsWithNewline rest) :
    sliceBytes (byteCount head) (s.lineStop (head.count '\n')) s.content.toList = some line := by
  rw [lineStop_eq h hline hrest, byteCount_append, h]
  exact sliceBytes_append head line rest

/-- The line at a place of the text: the index has its first byte, and it has the characters
since the last newline and those up to the next one. -/
theorem line_of_split {before : List Char} (h : s.content.toList = before ++ rest) :
    ∃ first, s.lineStarts[before.count '\n']? = some first ∧
      sliceBytes first (s.lineStop (before.count '\n')) s.content.toList
        = some (lastLine before ++ firstLine rest) ∧
      first + byteCount (lastLine before) = byteCount before := by
  obtain ⟨head, hbefore, hhead⟩ := exists_append_lastLine before
  obtain ⟨tail, hrest, htail⟩ := exists_firstLine_append rest
  have hmem : '\n' ∉ lastLine before ++ firstLine rest := by
    simp [newline_not_mem_lastLine, newline_not_mem_firstLine]
  have hcount : before.count '\n' = head.count '\n' := by
    rw [hbefore, List.count_append, List.count_eq_zero.2 (newline_not_mem_lastLine before),
      Nat.add_zero]
  have hfirst : s.content.toList = head ++ (lastLine before ++ rest) := by
    rw [h, ← List.append_assoc, ← hbefore]
  have hlines : s.content.toList = head ++ ((lastLine before ++ firstLine rest) ++ tail) := by
    rw [hfirst, List.append_assoc, ← hrest]
  refine ⟨byteCount head, ?_, ?_, ?_⟩
  · rw [hcount]
    exact getElem?_lineStarts hfirst hhead
  · rw [hcount]
    exact sliceBytes_lineStop hlines hmem htail
  · rw [← byteCount_append, ← hbefore]

/-- The line at a place of the text has the characters since the last newline and those up to
the next one. -/
theorem line?_of_split {before : List Char} (h : s.content.toList = before ++ rest) :
    s.line? (1 + before.count '\n') = some (dropReturn (lastLine before ++ firstLine rest)) := by
  obtain ⟨first, hfirst, hline, -⟩ := line_of_split h
  rw [Nat.add_comm, line?, hfirst, Option.bind_eq_bind, Option.bind_some, hline]
  rfl

/-- The position `p` stands after `before`, by its own count and by the index of lines. -/
structure Locates (s : Source) (p : Position) (before : List Char) : Prop where
  /-- The offset counts the bytes before the position. -/
  bytes : takeBytes p.offset s.content.toList = some before
  /-- The line counts the newlines. -/
  line_eq : p.line = 1 + before.count '\n'
  /-- The column counts the characters after the last newline. -/
  column_eq : p.column = 1 + (lastLine before).length
  /-- The text has the line. -/
  line_le : p.line ≤ s.lineCount
  /-- The index has the line, and the position stands in it, after its first characters. -/
  indexed : ∃ first line, s.lineStarts[p.line - 1]? = some first ∧
    sliceBytes first (s.lineStop (p.line - 1)) s.content.toList = some line ∧
    p.column - 1 ≤ line.length ∧ first + byteCount (line.take (p.column - 1)) = p.offset

/-- The position after the first part of a text is where the index finds it. -/
theorem locates_start_after {before : List Char} (h : s.content.toList = before ++ rest) :
    s.Locates (Position.start.after before) before := by
  obtain ⟨first, hfirst, hline, hbytes⟩ := line_of_split h
  rw [Position.start_after]
  refine ⟨?_, rfl, rfl, ?_, ?_⟩
  · rw [h]
    exact takeBytes_append before rest
  · rw [lineCount_eq, h, List.count_append]
    simp
  · refine ⟨first, lastLine before ++ firstLine rest, ?_, ?_, by simp, ?_⟩
    · simpa only [Nat.add_sub_cancel_left] using hfirst
    · simpa only [Nat.add_sub_cancel_left] using hline
    · simpa only [Nat.add_sub_cancel_left, List.take_left] using hbytes

end Source

end Pdl
