import Pdl.Proofs.Lexing.Traversal

/-!
# Lookahead

The character `n` places ahead of a cursor is found in one of two ways.  If the bytes
up to the one `n` places ahead are all ASCII, that byte is taken for the character.
Otherwise the characters are counted.

The two agree (`Cursor.peek?_eq`).  ASCII bytes are the text that they spell, so those
in front of a text spell a first part of it (`spelled_isPrefix`), with one character
for each byte.  Where byte `n` belongs to a wider character it is not ASCII, also where
that character is the last one and there is no character `n`.

A cursor may be looked ahead from between its moves.  It goes where the moves alone
bring it (`Cursor.snd_useAll`).
-/

namespace Pdl

/-! ## ASCII bytes -/

theorem isAscii_iff {bytes : ByteArray} :
    isAscii bytes = true ↔ ∀ b ∈ bytes.data.toList, b < 128 := by
  simp only [isAscii, List.all_eq_true, decide_eq_true_eq]

theorem isAscii_iff_getElem {bytes : ByteArray} :
    isAscii bytes = true ↔ ∀ (i : Nat) (h : i < bytes.size), bytes[i] < 128 := by
  rw [isAscii_iff, List.forall_mem_iff_forall_getElem]
  simp [ByteArray.getElem_eq_getElem_data]

/-- An ASCII byte is the whole of a character. -/
theorem utf8EncodeChar_ofUInt8 {b : UInt8} (h : b < 128) :
    String.utf8EncodeChar (Char.ofUInt8 b) = [b] := by
  have hsize : (Char.ofUInt8 b).utf8Size = 1 := by
    rw [Char.utf8Size_eq_one_iff, UInt32.le_iff_toNat_le]
    exact Nat.le_of_lt_succ (UInt8.lt_iff_toNat_lt.1 h)
  have hval : (Char.ofUInt8 b).val = b.toUInt32 := rfl
  rw [String.utf8EncodeChar_eq_singleton hsize, hval, UInt8.toUInt8_toUInt32]

/-- The text of one character for each byte. -/
def spelled (bytes : ByteArray) : List Char := bytes.data.toList.map Char.ofUInt8

theorem length_spelled (bytes : ByteArray) : (spelled bytes).length = bytes.size := by
  rw [spelled, List.length_map, Array.length_toList, ByteArray.size_data]

theorem getElem?_spelled {bytes : ByteArray} {i : Nat} (h : i < bytes.size) :
    (spelled bytes)[i]? = some (Char.ofUInt8 bytes[i]) := by
  rw [spelled, List.getElem?_map, Array.getElem?_toList, Array.getElem?_eq_getElem h]
  rfl

theorem flatMap_utf8EncodeChar_map_ofUInt8 {bs : List UInt8} (h : ∀ b ∈ bs, b < 128) :
    (bs.map Char.ofUInt8).flatMap String.utf8EncodeChar = bs := by
  induction bs with
  | nil => rfl
  | cons b bs ih =>
    obtain ⟨hb, hbs⟩ := List.forall_mem_cons.1 h
    rw [List.map_cons, List.flatMap_cons, utf8EncodeChar_ofUInt8 hb, ih hbs, List.singleton_append]

/-- ASCII bytes are those of the text that they spell. -/
theorem utf8Encode_spelled {bytes : ByteArray} (h : isAscii bytes = true) :
    (spelled bytes).utf8Encode = bytes := by
  rw [spelled, List.utf8Encode, flatMap_utf8EncodeChar_map_ofUInt8 (isAscii_iff.1 h)]
  exact ByteArray.ext List.data_toByteArray

/-- ASCII bytes in front of a text spell a first part of it. -/
theorem spelled_isPrefix {cs : List Char} {n : Nat}
    (h : isAscii (cs.utf8Encode.extract 0 n) = true) :
    spelled (cs.utf8Encode.extract 0 n) <+: cs := by
  -- The bytes of one character never begin those of another, so comparing bytes is enough.
  refine List.isPrefix_of_utf8Encode_append_eq_utf8Encode
    (cs.utf8Encode.extract n cs.utf8Encode.size) ?_
  rw [utf8Encode_spelled h, ByteArray.extract_append_extract, Nat.zero_min,
    ByteArray.extract_zero_max_size]

/-- The last of some ASCII bytes in front of a text is the character there. -/
theorem getElem?_of_isAscii {cs : List Char} {n : Nat} (hn : n < cs.utf8Encode.size)
    (h : isAscii (cs.utf8Encode.extract 0 (n + 1)) = true) :
    cs[n]? = some (Char.ofUInt8 cs.utf8Encode[n]) := by
  have hsize : n < (cs.utf8Encode.extract 0 (n + 1)).size := by
    rw [ByteArray.size_extract]
    omega
  obtain ⟨ds, hds⟩ := spelled_isPrefix h
  calc
    cs[n]? = (spelled (cs.utf8Encode.extract 0 (n + 1)) ++ ds)[n]? := by rw [hds]
    _ = (spelled (cs.utf8Encode.extract 0 (n + 1)))[n]? :=
      List.getElem?_append_left (length_spelled _ ▸ hsize)
    _ = some (Char.ofUInt8 cs.utf8Encode[n]) := by
      rw [getElem?_spelled hsize, ByteArray.getElem_extract]
      simp

namespace Cursor

/-! ## Looking ahead -/

theorem restBytes_eq (c : Cursor) : c.restBytes = c.rest.utf8Encode := by
  rw [restBytes, String.toUTF8_eq_toByteArray, String.toByteArray_ofList]

/-- What is found among the bytes is the character there. -/
theorem getElem?_of_asciiAhead? {c : Cursor} {n : Nat} {ch : Char}
    (h : c.asciiAhead? n = some ch) : c.rest[n]? = some ch := by
  rw [asciiAhead?, restBytes_eq] at h
  split at h
  · rename_i byte hbyte
    obtain ⟨hn, rfl⟩ := getElem?_eq_some_iff.1 hbyte
    split at h
    · rename_i hascii
      cases h
      exact getElem?_of_isAscii hn hascii
    · cases h
  · cases h

theorem peek?_eq (c : Cursor) (n : Nat) : c.peek? n = c.rest[n]? := by
  rw [peek?]
  cases h : c.asciiAhead? n with
  | none => rfl
  | some ch => exact (getElem?_of_asciiAhead? h).symm

/-- There is a byte two places ahead, and no character. -/
example : (ofText "añ").restBytes.size = 3 ∧ (ofText "añ").peek? 2 = none := by decide

/-- As far as the bytes in front are ASCII, they are the characters. -/
theorem peek?_of_ascii {c : Cursor} {n : Nat} (hn : n < c.restBytes.size)
    (h : ∀ i (hi : i ≤ n), c.restBytes[i] < 128) :
    c.peek? n = some (Char.ofUInt8 c.restBytes[n]) := by
  have hfront : isAscii (c.restBytes.extract 0 (n + 1)) = true := by
    rw [isAscii_iff_getElem]
    intro i hi
    have hle : i ≤ n := by
      rw [ByteArray.size_extract] at hi
      omega
    simpa [ByteArray.getElem_extract] using h i hle
  have hahead : c.asciiAhead? n = some (Char.ofUInt8 c.restBytes[n]) := by
    rw [asciiAhead?, getElem?_pos c.restBytes n hn]
    exact if_pos hfront
  rw [peek?_eq]
  exact getElem?_of_asciiAhead? hahead

/-! ## Looks between moves -/

/-- A use of a cursor. -/
inductive Use where
  /-- A look `n` places ahead. -/
  | peek (n : Nat)
  /-- A move. -/
  | move (m : Move)

/-- The move of a use, if it is one. -/
def Use.move? : Use → Option Move
  | peek _ => none
  | move m => some m

/-- One use, with what a look gives. -/
def use (c : Cursor) : Use → List (Option Char) × Cursor
  | .peek n => ([c.peek? n], c)
  | .move m => ([], c.go m)

/-- One use after the other, with what the looks among them give. -/
def useAll (c : Cursor) : List Use → List (Option Char) × Cursor
  | [] => ([], c)
  | u :: us => ((c.use u).1 ++ ((c.use u).2.useAll us).1, ((c.use u).2.useAll us).2)

/-- Looks leave the cursor where the moves alone bring it. -/
theorem snd_useAll (c : Cursor) (us : List Use) :
    (c.useAll us).2 = c.goAll (us.filterMap Use.move?) := by
  induction us generalizing c with
  | nil => rfl
  | cons u us ih =>
    cases u with
    | peek n => exact ih c
    | move m => exact ih (c.go m)

/-! ## Texts -/

/-- What a look from a cursor in a text gives, and what it leaves. -/
structure LooksAhead (text : String) (c : Cursor) : Prop where
  /-- What is left has the bytes of the text behind the offset. -/
  left : (String.ofList c.rest).toUTF8
    = text.toUTF8.extract c.position.offset text.utf8ByteSize
  peek?_eq : ∀ n, c.peek? n = c.rest[n]?
  /-- Nothing is seen where fewer characters are left. -/
  peek?_eq_none_iff : ∀ n, c.peek? n = none ↔ c.rest.length < n + 1
  /-- As far as the bytes are ASCII, they are the characters. -/
  ascii : ∀ n (h : c.position.offset + n < text.toUTF8.size),
    (∀ i (hi : i ≤ n), text.toUTF8[c.position.offset + i] < 128) →
      c.peek? n = some (Char.ofUInt8 text.toUTF8[c.position.offset + n])
  /-- All further uses go as without the look. -/
  unmoved : ∀ n us, c.useAll (.peek n :: us) = (c.rest[n]? :: (c.useAll us).1, (c.useAll us).2)

theorem Placed.restBytes_eq {text : String} {c : Cursor} (h : c.Placed)
    (htext : c.text = text.toList) :
    c.restBytes = text.toUTF8.extract c.position.offset text.utf8ByteSize := by
  have hsplit : text.toList = c.passed.reverse ++ (c.rest ++ []) := by
    rw [List.append_nil]
    exact htext.symm
  have hend : byteCount (c.passed.reverse ++ c.rest) = text.utf8ByteSize := by
    rw [← byteCount_toList, ← htext, Cursor.text]
  rw [restBytes, h.offset_eq, ← hend]
  exact (extract_toUTF8 hsplit).symm

theorem Placed.looksAhead {text : String} {c : Cursor} (h : c.Placed)
    (htext : c.text = text.toList) : c.LooksAhead text where
  left := h.restBytes_eq htext
  peek?_eq := c.peek?_eq
  peek?_eq_none_iff n := by
    rw [peek?_eq, List.getElem?_eq_none_iff, Nat.lt_succ_iff]
  ascii n hn hascii := by
    have hbytes := h.restBytes_eq htext
    have hsize : n < c.restBytes.size := by
      have hend : text.toUTF8.size = text.utf8ByteSize := String.size_toByteArray
      rw [hbytes, ByteArray.size_extract]
      omega
    have hget (i : Nat) (hi : i ≤ n) : c.restBytes[i] = text.toUTF8[c.position.offset + i] := by
      simp only [hbytes, ByteArray.getElem_extract]
    rw [peek?_of_ascii hsize fun i hi => hget i hi ▸ hascii i hi, hget n (Nat.le_refl n)]
  unmoved n us := by
    rw [← peek?_eq]
    rfl

/-- Looks and moves in any order show the characters of the text, and only moves move. -/
theorem looksAhead_ofText (text : String) (us : List Use) :
    ((ofText text).useAll us).2.LooksAhead text ∧
      ((ofText text).useAll us).2 = (ofText text).goAll (us.filterMap Use.move?) := by
  have hmoves := (ofText text).snd_useAll us
  obtain ⟨hplaced, htext⟩ := goAll_placed (placed_ofText text) (us.filterMap Use.move?)
  exact ⟨hmoves ▸ hplaced.looksAhead htext, hmoves⟩

end Cursor

end Pdl
