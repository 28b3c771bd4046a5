import Pdl.Proofs.Lexing.Classes
import Pdl.Proofs.Lexing.Places
import Pdl.Proofs.Text.PositionOrder

/-!
# Traversals

A cursor is moved over the next character, over the next character if it is the one
expected, or over all characters in a row that satisfy a predicate.  Each of these
moves passes a first part of what is left (`Cursor.exists_go_eq`), so whatever holds
of a cursor that is moved by a number of characters holds after any row of moves
(`Cursor.goAll_placed`).

The position is kept up to date character by character.  After any row of moves it
says how many bytes and lines have been passed, and how many characters of the last
line (`Cursor.StandsIn`).  Of two positions in one text the one behind more bytes is
the later one, so no move but one that passes nothing leaves the position as it was.
-/

namespace Pdl

namespace Cursor

/-! ## Moves -/

/-- A way to move a cursor. -/
inductive Move where
  /-- Over the next character. -/
  | advance
  /-- Over the next character, if it is `ch`. -/
  | accept (ch : Char)
  /-- Over all characters in a row that satisfy `p`. -/
  | skipWhile (p : Char → Bool)

/-- The cursor after a move.  One that fails leaves the cursor where it was. -/
def go (c : Cursor) : Move → Cursor
  | .advance => (c.advance?.map Prod.snd).getD c
  | .accept ch => (c.accept? ch).getD c
  | .skipWhile p => c.skipWhile p

/-- The cursor after one move and the other. -/
def goAll (c : Cursor) (ms : List Move) : Cursor := ms.foldl go c

theorem exists_go_eq (c : Cursor) (m : Move) : ∃ n, c.go m = c.move n := by
  cases m with
  | advance =>
    rw [go, advance?]
    cases c.rest.head? with
    | none => exact ⟨0, c.move_zero.symm⟩
    | some ch => exact ⟨1, rfl⟩
  | accept ch =>
    rw [go, accept?]
    split
    · exact ⟨1, rfl⟩
    · exact ⟨0, c.move_zero.symm⟩
  | skipWhile p => exact ⟨c.runLength p, rfl⟩

/-- A row of moves keeps the text, and the position behind what has been passed. -/
theorem goAll_placed {c : Cursor} (h : c.Placed) (ms : List Move) :
    (c.goAll ms).Placed ∧ (c.goAll ms).text = c.text := by
  induction ms generalizing c with
  | nil => exact ⟨h, rfl⟩
  | cons m ms ih =>
    obtain ⟨n, hn⟩ := c.exists_go_eq m
    have hgo : (c.go m).Placed := hn ▸ h.move n
    obtain ⟨hplaced, htext⟩ := ih hgo
    refine ⟨hplaced, htext.trans ?_⟩
    rw [hn, text_move]

/-! ## Places -/

/-- The cursor stands in the text, and its position tells what it has passed. -/
structure StandsIn (text : String) (c : Cursor) : Prop where
  text_eq : text.toList = c.passed.reverse ++ c.rest
  offset_eq : c.position.offset = (String.ofList c.passed.reverse).utf8ByteSize
  boundary : IsBoundary text c.position.offset
  /-- The line counts the newlines. -/
  line_eq : c.position.line = 1 + c.passed.count '\n'
  /-- The column counts the characters after the last of them. -/
  column_eq : c.position.column = 1 + (c.passed.takeWhile (· != '\n')).length
  fits : c.position.line < UInt32.size ∧ c.position.column < UInt32.size
  /-- What has been passed can be cut at any boundary. -/
  sliceFrom_iff : ∀ n, (∃ w, c.sliceFrom? n = some w) ↔ n ≤ c.position.offset ∧ IsBoundary text n
  bytes : ∀ n w, c.sliceFrom? n = some w →
    (String.ofList w).toUTF8 = text.toUTF8.extract n c.position.offset

theorem Placed.offset_eq {c : Cursor} (h : c.Placed) :
    c.position.offset = byteCount c.passed.reverse := by
  rw [h, Position.start_after]

theorem Placed.sliceFrom?_eq {c : Cursor} (h : c.Placed) (n : Nat) :
    c.sliceFrom? n = sliceBytes n c.position.offset c.text := by
  rw [sliceFrom?, h.offset_eq, text, dropBytes_eq_sliceBytes n _ c.rest]

theorem Placed.standsIn {text : String} {c : Cursor} (h : c.Placed) (htext : c.text = text.toList)
    (hlength : text.toList.length < UInt32.size - 1) : c.StandsIn text := by
  have hsplit : text.toList = c.passed.reverse ++ c.rest := htext.symm
  have hboundary : IsBoundary text c.position.offset :=
    isBoundary_iff.2 ⟨c.passed.reverse, c.rest, hsplit, h.offset_eq.symm⟩
  have hline : c.position.line = 1 + c.passed.count '\n' := by
    rw [h, Position.start_after, List.count_reverse]
  have hcolumn : c.position.column = 1 + (c.passed.takeWhile (· != '\n')).length := by
    rw [h, Position.start_after, lastLine, List.reverse_reverse, List.length_reverse]
  have hpassed : c.passed.length ≤ text.toList.length := by
    rw [hsplit, List.length_append, List.length_reverse]
    exact Nat.le_add_right _ _
  have hcount : c.passed.count '\n' ≤ c.passed.length := List.count_le_length
  have hlast : (c.passed.takeWhile (· != '\n')).length ≤ c.passed.length :=
    (List.takeWhile_prefix _).length_le
  refine ⟨hsplit, ?_, hboundary, hline, hcolumn, ⟨by omega, by omega⟩, fun n => ?_, fun n w hw => ?_⟩
  · rw [h.offset_eq, byteCount_eq_utf8ByteSize]
  · rw [h.sliceFrom?_eq, htext, exists_sliceBytes_iff]
    constructor
    · rintro ⟨hle, hn, -⟩
      exact ⟨hle, hn⟩
    · rintro ⟨hle, hn⟩
      exact ⟨hle, hn, hboundary⟩
  · rw [h.sliceFrom?_eq, htext] at hw
    exact toUTF8_of_sliceBytes hw

/-! ## Later places -/

/-- What has been passed of a text is a first part of it. -/
theorem passed_prefix (c : Cursor) : c.passed.reverse <+: c.text := ⟨c.rest, rfl⟩

/-- Positions in one text are in the order of their offsets. -/
theorem Placed.order_eq {c d : Cursor} (hc : c.Placed) (hd : d.Placed) (htext : c.text = d.text) :
    c.position.order d.position = compare c.position.offset d.position.offset := by
  rw [hc.offset_eq, hd.offset_eq, hc, hd]
  exact Position.order_start_after c.passed_prefix (htext ▸ d.passed_prefix)

/-- A move that passes something makes the position a later one. -/
theorem order_go {c : Cursor} {m : Move} (h : (c.go m).rest ≠ c.rest) :
    c.position.order (c.go m).position = .lt := by
  obtain ⟨n, hn⟩ := c.exists_go_eq m
  have hpassed : c.rest.take n ≠ [] := by
    intro hnil
    have hrest : c.rest.drop n = c.rest := by
      have hsplit := List.take_append_drop n c.rest
      rwa [hnil, List.nil_append] at hsplit
    exact h (hn ▸ hrest)
  rw [hn, position_move]
  exact (Position.precedes_after hpassed _).order_eq_lt

/-! ## Skipping -/

/-- The first part of a text that satisfies `p` throughout, and none of them is longer. -/
structure LongestRun (p : Char → Bool) (cs w : List Char) : Prop where
  front : w <+: cs
  all : ∀ ch ∈ w, p ch = true
  longest : ∀ v, v <+: cs → (∀ ch ∈ v, p ch = true) → v <+: w

theorem longestRun_takeWhile (p : Char → Bool) (cs : List Char) :
    LongestRun p cs (cs.takeWhile p) where
  front := List.takeWhile_prefix p
  all _ hch := List.mem_takeWhile_imp hch
  longest v hv hall := by
    obtain ⟨r, rfl⟩ := hv
    rw [List.takeWhile_append_of_pos hall]
    exact List.prefix_append _ _

/-- Characters are skipped one after the other, and counted. -/
theorem skipWhile_eq (p : Char → Bool) (c : Cursor) :
    (c.skipWhile p, c.runLength p) = match c.advance? with
      | some (ch, d) => if p ch then (d.skipWhile p, d.runLength p + 1) else (c, 0)
      | none => (c, 0) := by
  cases hrest : c.rest with
  | nil => simp [skipWhile, runLength, advance?, hrest, move_zero]
  | cons ch cs =>
    have hadvance : c.advance? = some (ch, c.move 1) := by
      rw [advance?, hrest]
      rfl
    have hone : (c.move 1).rest = cs := by
      change c.rest.drop 1 = cs
      rw [hrest]
      rfl
    rw [hadvance]
    dsimp only
    split
    · rename_i hch
      have hlength : c.runLength p = (c.move 1).runLength p + 1 := by
        rw [runLength, runLength, hone, hrest, List.takeWhile_cons_of_pos hch, List.length_cons]
      rw [skipWhile, skipWhile, move_move, hlength, Nat.add_comm 1]
    · rename_i hch
      have hlength : c.runLength p = 0 := by
        rw [runLength, hrest, List.takeWhile_cons_of_neg hch, List.length_nil]
      rw [skipWhile, hlength, move_zero]

/-- What skipping passes, and what it counts. -/
structure Skips (p : Char → Bool) (c : Cursor) : Prop where
  passes : ∃ w, LongestRun p c.rest w ∧ c.rest = w ++ (c.skipWhile p).rest ∧
    (c.skipWhile p).passed = w.reverse ++ c.passed ∧ c.runLength p = w.length
  /-- It advances while the next character satisfies `p`. -/
  loop : (c.skipWhile p, c.runLength p) = match c.advance? with
    | some (ch, d) => if p ch then (d.skipWhile p, d.runLength p + 1) else (c, 0)
    | none => (c, 0)

theorem skips (p : Char → Bool) (c : Cursor) : c.Skips p where
  passes := by
    have htake : c.rest.take (c.runLength p) = c.rest.takeWhile p := take_runLength p c.rest
    refine ⟨c.rest.takeWhile p, longestRun_takeWhile p c.rest, ?_, ?_, rfl⟩
    · rw [← htake]
      exact (List.take_append_drop _ _).symm
    · rw [← htake]
      rfl
  loop := c.skipWhile_eq p

/-! ## Texts -/

/-- What holds in a text after a row of moves from its beginning. -/
structure Traverses (text : String) (ms : List Move) : Prop where
  standsIn : ((ofText text).goAll ms).StandsIn text
  /-- A further move that passes something makes the position a later one. -/
  later : ∀ m, (((ofText text).goAll ms).go m).rest ≠ ((ofText text).goAll ms).rest →
    ((ofText text).goAll ms).position.order (((ofText text).goAll ms).go m).position = .lt
  /-- The positions after any two rows of moves are in the order of their offsets. -/
  ordered : ∀ ns,
    ((ofText text).goAll ms).position.order ((ofText text).goAll ns).position
      = compare ((ofText text).goAll ms).position.offset ((ofText text).goAll ns).position.offset
  skips : ∀ p, ((ofText text).goAll ms).Skips p

/-- The position of a cursor tells where it stands, whatever the moves were. -/
theorem traverses_ofText {text : String} (h : text.toList.length < UInt32.size - 1)
    (ms : List Move) : Traverses text ms := by
  obtain ⟨hplaced, htext⟩ := goAll_placed (placed_ofText text) ms
  refine ⟨hplaced.standsIn htext h, fun m => order_go, fun ns => ?_, fun p => skips p _⟩
  obtain ⟨hplaced', htext'⟩ := goAll_placed (placed_ofText text) ns
  exact hplaced.order_eq hplaced' (htext.trans htext'.symm)

/-- A move that fails between two that pass characters of one and of two bytes. -/
theorem traverses_mixedWidths :
    "aéñ\n😀b".toList.length < UInt32.size - 1 ∧
      ((ofText "aéñ\n😀b").goAll [.advance, .accept 'x', .skipWhile (· != '\n')]).position
        = ⟨1, 4, 5⟩ ∧
      Traverses "aéñ\n😀b" [.advance, .accept 'x', .skipWhile (· != '\n')] := by
  have hlength : "aéñ\n😀b".toList.length < UInt32.size - 1 := by decide
  exact ⟨hlength, by decide, traverses_ofText hlength _⟩

end Cursor

end Pdl
