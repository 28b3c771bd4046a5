import Pdl.Text.Utf8

/-!
# Boundaries of characters

A text is cut at byte offsets that lie between two of its characters, its ends
included.  Whether an offset does is told by the bytes of the text alone
(`IsBoundary`), while a cut is made character by character.

The two agree.  Of two first parts of one text the one of fewer bytes is a first part
of the other (`prefix_of_byteCount_le`), so the text can be cut at any two boundaries
in their order, and nowhere else (`exists_sliceBytes_iff`).  What is cut out has the
bytes between them (`toUTF8_of_sliceBytes`).
-/

namespace Pdl

/-! ## Bytes -/

theorem byteCount_eq_utf8ByteSize (cs : List Char) :
    byteCount cs = (String.ofList cs).utf8ByteSize := by
  induction cs with
  | nil => rfl
  | cons c cs ih =>
    rw [byteCount_cons, ih, String.ofList_cons, String.utf8ByteSize_append,
      String.utf8ByteSize_singleton]

theorem byteCount_toList (text : String) : byteCount text.toList = text.utf8ByteSize := by
  rw [byteCount_eq_utf8ByteSize, String.ofList_toList]

/-- The bytes of a part of a text are those between its offsets. -/
theorem extract_toUTF8 {text : String} {as w bs : List Char} (h : text.toList = as ++ (w ++ bs)) :
    text.toUTF8.extract (byteCount as) (byteCount (as ++ w)) = (String.ofList w).toUTF8 := by
  have hsplit : text = String.ofList as ++ String.ofList w ++ String.ofList bs := by
    rw [← String.ofList_append, ← String.ofList_append, List.append_assoc, ← h,
      String.ofList_toList]
  have hend : byteCount (as ++ w) = (String.ofList as ++ String.ofList w).toByteArray.size := by
    rw [String.size_toByteArray, ← String.ofList_append, byteCount_eq_utf8ByteSize]
  calc
    text.toUTF8.extract (byteCount as) (byteCount (as ++ w))
      = (String.ofList as ++ String.ofList w).toByteArray.extract (byteCount as)
          (byteCount (as ++ w)) := by
        rw [hsplit, String.toUTF8, String.toByteArray_append, hend,
          ByteArray.extract_append_size_left]
    _ = (String.ofList w).toUTF8 := by
        rw [String.toByteArray_append]
        refine ByteArray.extract_append_eq_right ?_ ?_
        · rw [String.size_toByteArray, byteCount_eq_utf8ByteSize]
        · rw [hend, String.toByteArray_append, ByteArray.size_append]

/-! ## Boundaries -/

/-- The byte offset `n` lies between two characters of the text, or at one of its ends. -/
def IsBoundary (text : String) (n : Nat) : Prop := String.Pos.Raw.IsValid text ⟨n⟩

theorem isBoundary_iff {text : String} {n : Nat} :
    IsBoundary text n ↔ ∃ as bs, text.toList = as ++ bs ∧ byteCount as = n := by
  rw [IsBoundary, String.Pos.Raw.isValid_iff_exists_append]
  constructor
  · rintro ⟨s, t, rfl, hn⟩
    refine ⟨s.toList, t.toList, String.toList_append, ?_⟩
    rw [byteCount_toList]
    exact (congrArg String.Pos.Raw.byteIdx hn).symm
  · rintro ⟨as, bs, htext, rfl⟩
    refine ⟨String.ofList as, String.ofList bs, ?_, ?_⟩
    · rw [← String.ofList_append, ← htext, String.ofList_toList]
    · rw [byteCount_eq_utf8ByteSize]
      rfl

theorem IsBoundary.le {text : String} {n : Nat} (h : IsBoundary text n) :
    n ≤ text.utf8ByteSize := by
  obtain ⟨as, bs, htext, rfl⟩ := isBoundary_iff.1 h
  rw [← byteCount_toList, htext, byteCount_append]
  exact Nat.le_add_right _ _

/-- Of two first parts of a text the one of fewer bytes is a first part of the other. -/
theorem prefix_of_byteCount_le {as bs cs : List Char} (has : as <+: cs) (hbs : bs <+: cs)
    (h : byteCount as ≤ byteCount bs) : as <+: bs := by
  rcases List.prefix_or_prefix_of_prefix has hbs with hprefix | ⟨ds, rfl⟩
  · exact hprefix
  · by_cases hds : ds = []
    · simp [hds]
    · -- What is left over would have a byte.
      have hpos := byteCount_pos hds
      rw [byteCount_append] at h
      omega

theorem eq_of_byteCount_eq {as bs cs : List Char} (has : as <+: cs) (hbs : bs <+: cs)
    (h : byteCount as = byteCount bs) : as = bs := by
  have hle := prefix_of_byteCount_le has hbs (Nat.le_of_eq h)
  have hge := prefix_of_byteCount_le hbs has (Nat.le_of_eq h.symm)
  exact hle.eq_of_length_le hge.length_le

/-- Between two boundaries in their order there is a part of the text. -/
theorem IsBoundary.exists_part {text : String} {first last : Nat} (hfirst : IsBoundary text first)
    (hlast : IsBoundary text last) (h : first ≤ last) :
    ∃ as w bs, text.toList = as ++ (w ++ bs) ∧ byteCount as = first ∧
      byteCount (as ++ w) = last := by
  obtain ⟨as, rs, has, rfl⟩ := isBoundary_iff.1 hfirst
  obtain ⟨ds, bs, hds, rfl⟩ := isBoundary_iff.1 hlast
  obtain ⟨w, rfl⟩ := prefix_of_byteCount_le ⟨rs, has.symm⟩ ⟨bs, hds.symm⟩ h
  exact ⟨as, w, bs, by rw [hds, List.append_assoc], rfl, rfl⟩

/-! ## Cuts -/

theorem sliceBytes_eq_some_iff {cs w : List Char} {first last : Nat} :
    sliceBytes first last cs = some w ↔
      ∃ as bs, cs = as ++ (w ++ bs) ∧ byteCount as = first ∧ byteCount (as ++ w) = last := by
  constructor
  · intro h
    rw [sliceBytes] at h
    split at h
    · rename_i hle
      obtain ⟨r, hr, hw⟩ := Option.bind_eq_some_iff.1 h
      obtain ⟨as, rfl, rfl⟩ := dropBytes_eq_some hr
      obtain ⟨bs, rfl, hsize⟩ := takeBytes_eq_some hw
      refine ⟨as, bs, rfl, rfl, ?_⟩
      rw [byteCount_append]
      omega
    · cases h
  · rintro ⟨as, bs, rfl, rfl, rfl⟩
    rw [byteCount_append, sliceBytes_append]

/-- A cut is made at two boundaries in their order. -/
theorem exists_sliceBytes_iff {text : String} {first last : Nat} :
    (∃ w, sliceBytes first last text.toList = some w) ↔
      first ≤ last ∧ IsBoundary text first ∧ IsBoundary text last := by
  constructor
  · rintro ⟨w, hw⟩
    obtain ⟨as, bs, htext, rfl, rfl⟩ := sliceBytes_eq_some_iff.1 hw
    refine ⟨?_, isBoundary_iff.2 ⟨as, w ++ bs, htext, rfl⟩, ?_⟩
    · rw [byteCount_append]
      exact Nat.le_add_right _ _
    · exact isBoundary_iff.2 ⟨as ++ w, bs, by rw [htext, List.append_assoc], rfl⟩
  · rintro ⟨hle, hfirst, hlast⟩
    obtain ⟨as, w, bs, htext, rfl, rfl⟩ := hfirst.exists_part hlast hle
    exact ⟨w, sliceBytes_eq_some_iff.2 ⟨as, bs, htext, rfl, rfl⟩⟩

theorem sliceBytes_eq_none_iff {text : String} {first last : Nat} :
    sliceBytes first last text.toList = none ↔
      ¬ (first ≤ last ∧ IsBoundary text first ∧ IsBoundary text last) := by
  rw [← exists_sliceBytes_iff, Option.eq_none_iff_forall_ne_some, not_exists]

/-- What is cut out has the bytes between the offsets. -/
theorem toUTF8_of_sliceBytes {text : String} {first last : Nat} {w : List Char}
    (h : sliceBytes first last text.toList = some w) :
    (String.ofList w).toUTF8 = text.toUTF8.extract first last := by
  obtain ⟨as, bs, htext, rfl, rfl⟩ := sliceBytes_eq_some_iff.1 h
  exact (extract_toUTF8 htext).symm

/-- What is left of the first part of a text from an offset on is cut out of the text. -/
theorem dropBytes_eq_sliceBytes (n : Nat) (as bs : List Char) :
    dropBytes n as = sliceBytes n (byteCount as) (as ++ bs) := by
  refine Option.ext fun w => ?_
  rw [sliceBytes_eq_some_iff]
  constructor
  · intro h
    obtain ⟨l, rfl, rfl⟩ := dropBytes_eq_some h
    exact ⟨l, bs, List.append_assoc .., rfl, rfl⟩
  · rintro ⟨l, r, hsplit, rfl, hsize⟩
    have has : l ++ w = as :=
      eq_of_byteCount_eq ⟨r, by rw [hsplit, List.append_assoc]⟩ ⟨bs, rfl⟩ hsize
    rw [← has, dropBytes_append]

end Pdl
