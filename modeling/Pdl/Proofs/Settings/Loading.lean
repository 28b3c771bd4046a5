import Pdl.Proofs.Files.Access
import Pdl.Proofs.Toml.Integers
import Pdl.Settings.Files

/-!
# Settings that are loaded

Loading changes no file tree, and it succeeds with the settings that the text of the file
gives (`exists_load_eq`).  Whatever the file holds, loaded settings can be used and
written: they allow a character in a string, and their limits fit
(`InFile.isUsable`).
-/

namespace Pdl

namespace Settings

/-- Strings may hold a character, and the limits can be written and read again. -/
structure IsUsable (s : Settings) : Prop where
  one_le_maxStringChars : 1 ≤ s.limits.maxStringChars
  maxStringChars_lt : s.limits.maxStringChars < 0x8000000000000000
  maxInteger_lt : s.limits.maxInteger < 0x100000000

theorem isUsable_default : IsUsable {} := ⟨by decide, by decide, by decide⟩

/-- The file at `p` can be read, its text is a document, and the document gives `s`, under
which a string may hold a character. -/
def InFile (t : FileTree) (p : Path) (s : Settings) : Prop :=
  ∃ text es, t.readText p = .ok text ∧ Toml.Document.read? text = some es ∧
    ofEntries es = .ok s ∧ 1 ≤ s.limits.maxStringChars

/-! ## Limits -/

theorem numberOr_eq_ok {key : String} {default bound n : Nat} {v : Option Toml.Value}
    (h : numberOr key default bound v = .ok n) :
    v = none ∧ n = default ∨ v = some (.integer n) ∧ n < bound := by
  rw [numberOr.eq_def] at h
  split at h
  · cases h
    exact .inl ⟨rfl, rfl⟩
  · split at h
    · cases h
      exact .inr ⟨rfl, ‹_›⟩
    · cases h
  · cases h

variable {limits : Limits}

/-- The limits are those of a document, or their defaults. -/
theorem lt_of_ofValues {v w : Option Toml.Value} (hv : ∀ x ∈ v, x.Fits)
    (h : Limits.ofValues v w = .ok limits) :
    limits.maxStringChars < 0x8000000000000000 ∧ limits.maxInteger < 0x100000000 := by
  obtain ⟨maxStringChars, hchars, h⟩ := exists_of_bind_eq_ok h
  obtain ⟨maxInteger, hinteger, h⟩ := exists_of_bind_eq_ok h
  cases h
  constructor
  · rcases numberOr_eq_ok hchars with ⟨-, rfl⟩ | ⟨rfl, -⟩
    · exact isUsable_default.maxStringChars_lt
    · cases hv _ rfl with
      | integer hlt => exact Int.ofNat_lt.1 hlt
  · rcases numberOr_eq_ok hinteger with ⟨-, rfl⟩ | ⟨-, hlt⟩
    · exact isUsable_default.maxInteger_lt
    · exact hlt

theorem lt_of_ofValue {v : Option Toml.Value} (hv : ∀ x ∈ v, x.Fits)
    (h : Limits.ofValue v = .ok limits) :
    limits.maxStringChars < 0x8000000000000000 ∧ limits.maxInteger < 0x100000000 := by
  rw [Limits.ofValue.eq_def] at h
  split at h
  · cases h
    decide
  · refine lt_of_ofValues (fun x hx => ?_) h
    exact (Toml.Entries.Fit.of_table (hv _ rfl)).of_lookup hx
  · refine lt_of_ofValues (fun x hx => ?_) h
    cases hv _ rfl with
    | array hvs => exact hvs x (List.mem_of_getElem? hx)
  · cases h
    decide
  · cases h

theorem lt_of_ofEntries {es : Toml.Entries} {s : Settings} (hes : es.Fit)
    (h : ofEntries es = .ok s) :
    s.limits.maxStringChars < 0x8000000000000000 ∧ s.limits.maxInteger < 0x100000000 := by
  obtain ⟨input, -, h⟩ := exists_of_bind_eq_ok h
  obtain ⟨outputDir, -, h⟩ := exists_of_bind_eq_ok h
  obtain ⟨writeReports, -, h⟩ := exists_of_bind_eq_ok h
  obtain ⟨verbose, -, h⟩ := exists_of_bind_eq_ok h
  obtain ⟨limits, hlimits, h⟩ := exists_of_bind_eq_ok h
  cases h
  exact lt_of_ofValue (fun _ hx => hes.of_lookup hx) hlimits

theorem InFile.unique {t : FileTree} {p : Path} {s s' : Settings} (h : InFile t p s)
    (h' : InFile t p s') : s = s' := by
  obtain ⟨text, es, htext, hes, hs, -⟩ := h
  obtain ⟨text', es', htext', hes', hs', -⟩ := h'
  cases htext.symm.trans htext'
  cases hes.symm.trans hes'
  cases hs.symm.trans hs'
  rfl

theorem InFile.isUsable {t : FileTree} {p : Path} {s : Settings} (h : InFile t p s) :
    s.IsUsable := by
  obtain ⟨text, es, -, hes, hs, hchars⟩ := h
  obtain ⟨hlt, hinteger⟩ := lt_of_ofEntries (Toml.fit_of_read? hes) hs
  exact ⟨hchars, hlt, hinteger⟩

/-! ## Runs on a file tree -/

theorem ofText_eq_ok_iff {text : String} {s : Settings} :
    ofText text = .ok s ↔ ∃ es, Toml.Document.read? text = some es ∧ ofEntries es = .ok s ∧
      1 ≤ s.limits.maxStringChars := by
  rw [ofText]
  cases hread : Toml.Document.read? text with
  | none => exact ⟨nofun, nofun⟩
  | some es =>
    constructor
    · intro h
      obtain ⟨s', hs', h⟩ := exists_of_bind_eq_ok h
      obtain ⟨u, hcheck, h⟩ := exists_of_bind_eq_ok h
      cases h
      refine ⟨es, rfl, hs', ?_⟩
      rw [check] at hcheck
      split at hcheck
      · cases hcheck
      · exact Nat.one_le_iff_ne_zero.2 ‹_›
    · rintro ⟨es', hes, hs, hchars⟩
      cases hes
      dsimp only
      rw [hs]
      show (s.check >>= fun _ => Except.ok s) = _
      rw [check, if_neg (Nat.one_le_iff_ne_zero.1 hchars)]
      rfl

theorem firstPresent_eq (ps : List Path) (t : FileTree) :
    (firstPresent ps : StateM FileTree _) t = (ps.find? t.contains, t) := by
  induction ps with
  | nil => rfl
  | cons p ps ih =>
    have hthere : (FileAccess.contains p : StateM FileTree Bool) t = (t.contains p, t) := rfl
    rw [firstPresent, bind_of_eq hthere]
    cases hp : t.contains p with
    | true => rw [List.find?_cons_of_pos hp]; rfl
    | false => rw [List.find?_cons_of_neg (by simp [hp])]; exact ih

theorem load_of_readText {t : FileTree} {p : Path} {text : String}
    (htext : t.readText p = .ok text) :
    (load p : StateM FileTree _) t = (ofText text, t) := by
  have hthere : (FileAccess.contains p : StateM FileTree Bool) t = (true, t) :=
    congrArg (·, t) (FileTree.contains_of_readText htext)
  have hread : (FileAccess.readText p : StateM FileTree _) t = (.ok text, t) :=
    congrArg (·, t) htext
  rw [load, bind_of_eq hthere, if_pos rfl]
  exact bind_of_eq hread _

/-- Loading changes nothing and answers the settings in the file. -/
theorem exists_load_eq (p : Path) (t : FileTree) :
    ∃ r, (load p : StateM FileTree _) t = (r, t) ∧ ∀ s, r = .ok s ↔ InFile t p s := by
  cases htext : t.readText p with
  | ok text =>
    refine ⟨_, load_of_readText htext, fun s => ofText_eq_ok_iff.trans ?_⟩
    constructor
    · rintro ⟨es, h⟩
      exact ⟨text, es, htext, h⟩
    · rintro ⟨text', es, htext', h⟩
      cases htext.symm.trans htext'
      exact ⟨es, h⟩
  | error e =>
    have hfile : ∀ s, ¬ InFile t p s := by
      rintro s ⟨text, es, htext', -⟩
      cases htext.symm.trans htext'
    have hthere : (FileAccess.contains p : StateM FileTree Bool) t = (t.contains p, t) := rfl
    have hread : (FileAccess.readText p : StateM FileTree _) t = (.error e, t) :=
      congrArg (·, t) htext
    rw [load, bind_of_eq hthere]
    split
    · rw [bind_of_eq hread]
      exact ⟨_, rfl, fun s => ⟨nofun, fun h => absurd h (hfile s)⟩⟩
    · exact ⟨_, rfl, fun s => ⟨nofun, fun h => absurd h (hfile s)⟩⟩

end Settings

end Pdl
