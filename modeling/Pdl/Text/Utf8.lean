/-!
# Bytes of a text

Positions in a source text count bytes of its UTF-8 form, while the text
itself is read character by character.  This module relates the two: the size
of a list of characters in bytes, and cuts at a byte offset.  A cut exists
only between two characters, so `dropBytes` and `takeBytes` answer `none`
inside a character and past the end.  The bytes below 128 are those of ASCII
characters, which have one byte each (`isAscii`).

`takeBytes_append` and `dropBytes_append` say that a cut at the size of the
first part of a text gives that part and the rest.
-/

namespace Pdl

/-- The number of bytes of a text in UTF-8. -/
def byteCount : List Char → Nat
  | [] => 0
  | c :: cs => c.utf8Size + byteCount cs

@[simp] theorem byteCount_nil : byteCount [] = 0 := rfl

@[simp] theorem byteCount_cons (c : Char) (cs : List Char) :
    byteCount (c :: cs) = c.utf8Size + byteCount cs := rfl

@[simp] theorem byteCount_append (as bs : List Char) :
    byteCount (as ++ bs) = byteCount as + byteCount bs := by
  induction as with
  | nil => simp
  | cons a as ih => simp [ih, Nat.add_assoc]

/-- Whether all of the bytes are those of ASCII characters. -/
def isAscii (bytes : ByteArray) : Bool := bytes.data.toList.all (· < 128)

/-- What follows the first `n` bytes of a text, if they end between characters. -/
def dropBytes (n : Nat) : List Char → Option (List Char)
  | [] => if n = 0 then some [] else none
  | c :: cs =>
      if n = 0 then some (c :: cs)
      else if c.utf8Size ≤ n then dropBytes (n - c.utf8Size) cs
      else none

/-- The first `n` bytes of a text, if they end between characters. -/
def takeBytes (n : Nat) : List Char → Option (List Char)
  | [] => if n = 0 then some [] else none
  | c :: cs =>
      if n = 0 then some []
      else if c.utf8Size ≤ n then (takeBytes (n - c.utf8Size) cs).map (c :: ·)
      else none

/-- The bytes from `first` up to but not including `last`, if both offsets lie
between characters and `first` is not past `last`. -/
def sliceBytes (first last : Nat) (cs : List Char) : Option (List Char) :=
  if first ≤ last then (dropBytes first cs).bind (takeBytes (last - first)) else none

theorem utf8Size_ne_zero (c : Char) : c.utf8Size ≠ 0 :=
  Nat.pos_iff_ne_zero.mp c.utf8Size_pos

theorem byteCount_pos {cs : List Char} (h : cs ≠ []) : 0 < byteCount cs := by
  obtain ⟨c, cs, rfl⟩ := List.exists_cons_of_ne_nil h
  exact Nat.add_pos_left c.utf8Size_pos _

theorem dropBytes_zero (cs : List Char) : dropBytes 0 cs = some cs := by
  cases cs <;> simp [dropBytes]

theorem takeBytes_zero (cs : List Char) : takeBytes 0 cs = some [] := by
  cases cs <;> simp [takeBytes]

theorem dropBytes_append (as bs : List Char) :
    dropBytes (byteCount as) (as ++ bs) = some bs := by
  induction as with
  | nil => simp [dropBytes_zero]
  | cons a as ih => simp [dropBytes, utf8Size_ne_zero, ih]

theorem takeBytes_append (as bs : List Char) :
    takeBytes (byteCount as) (as ++ bs) = some as := by
  induction as with
  | nil => simp [takeBytes_zero]
  | cons a as ih => simp [takeBytes, utf8Size_ne_zero, ih]

/-- The bytes between the sizes of two beginnings of a text are what lies between them. -/
theorem sliceBytes_append (as bs cs : List Char) :
    sliceBytes (byteCount as) (byteCount as + byteCount bs) (as ++ (bs ++ cs)) = some bs := by
  rw [sliceBytes, if_pos (Nat.le_add_right _ _), dropBytes_append, Option.bind_some,
    Nat.add_sub_cancel_left, takeBytes_append]

theorem dropBytes_eq_some {n : Nat} {cs r : List Char} (h : dropBytes n cs = some r) :
    ∃ l, cs = l ++ r ∧ byteCount l = n := by
  induction cs generalizing n with
  | nil =>
    simp only [dropBytes] at h
    split at h <;> simp_all
  | cons c cs ih =>
    simp only [dropBytes] at h
    split at h
    · exact ⟨[], by simp_all⟩
    · split at h
      · obtain ⟨l, hl, hn⟩ := ih h
        exact ⟨c :: l, by simp [hl], by simp [hn]; omega⟩
      · simp at h

theorem takeBytes_eq_some {n : Nat} {cs l : List Char} (h : takeBytes n cs = some l) :
    ∃ r, cs = l ++ r ∧ byteCount l = n := by
  induction cs generalizing n l with
  | nil =>
    simp only [takeBytes] at h
    split at h <;> simp_all
  | cons c cs ih =>
    simp only [takeBytes] at h
    split at h
    · simp_all
    · split at h
      · obtain ⟨l', hl', rfl⟩ := Option.map_eq_some_iff.1 h
        obtain ⟨r, hr, hn⟩ := ih hl'
        exact ⟨r, by simp [hr], by simp [hn]; omega⟩
      · simp at h

example : byteCount "añ😀".toList = 7 := by decide
example : dropBytes 3 "añb".toList = some ['b'] := by decide
example : dropBytes 2 "añb".toList = none := by decide
example : sliceBytes 1 3 "añb".toList = some ['ñ'] := by decide

end Pdl
