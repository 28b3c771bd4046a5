import Pdl.Proofs.Settings.Loading
import Pdl.Proofs.Toml.Document

/-!
# Saved settings are loaded again

The written form of settings is a document with seven pairs and one header
(`Settings.hasLines_text`), so its entries are known (`Settings.read?_text`) and give the
settings back (`Settings.ofEntries_entries`).
-/

namespace Pdl

open Toml (Value Line HasLines writeText writeBoolean)

namespace Settings

/-- The entries of the written form. -/
def entries (s : Settings) : Toml.Entries :=
  [("input", .text s.input),
    ("output_dir", .text s.outputDir),
    ("write_reports", .boolean s.writeReports),
    ("verbose", .boolean s.verbose),
    ("limits", .table .opened
      [("max_string_chars", .integer s.limits.maxStringChars),
        ("max_integer", .integer s.limits.maxInteger)])]

/-- The lines of the written form. -/
def lines (s : Settings) : List Line :=
  [.pair ["input"] (.text s.input),
    .pair ["output_dir"] (.text s.outputDir),
    .pair ["write_reports"] (.boolean s.writeReports),
    .pair ["verbose"] (.boolean s.verbose),
    .header ["limits"],
    .pair ["max_string_chars"] (.integer s.limits.maxStringChars),
    .pair ["max_integer"] (.integer s.limits.maxInteger)]

variable {s : Settings}

/-- What is written of settings has their lines. -/
theorem hasLines_text {text : String} (h : s.text? = .ok text)
    (hinteger : s.limits.maxInteger < 0x100000000) : HasLines text.toList s.lines := by
  rw [text?] at h
  split at h
  · cases h
  · rename_i hchars
    cases h
    have hlines := HasLines.nil
      |>.pair "max_integer" rfl
        (Value.writtenAs_toString (Nat.lt_of_lt_of_le hinteger (by decide)))
      |>.pair "max_string_chars" rfl (Value.writtenAs_toString (Nat.lt_of_not_le hchars))
      |>.header "limits" rfl
      |>.newline
      |>.pair "verbose" rfl (Value.writtenAs_writeBoolean s.verbose)
      |>.pair "write_reports" rfl (Value.writtenAs_writeBoolean s.writeReports)
      |>.pair "output_dir" rfl (Value.writtenAs_writeText s.outputDir)
      |>.pair "input" rfl (Value.writtenAs_writeText s.input)
    have htext : "\n[limits]\n".toList = '\n' :: '[' :: ("limits".toList ++ [']', '\n']) := rfl
    simp only [String.toList_append, htext, List.append_assoc, List.cons_append, List.nil_append,
      List.append_nil] at hlines ⊢
    exact hlines

theorem read?_text {text : String} (h : s.text? = .ok text)
    (hinteger : s.limits.maxInteger < 0x100000000) :
    Toml.Document.read? text = some s.entries := by
  refine (Toml.Document.read?_of_hasLines (hasLines_text h hinteger) ?_).trans rfl
  rw [text?] at h
  split at h
  · cases h
  · cases h
    simp [Toml.writeLine]

theorem ofValue_limits (limits : Limits) (hchars : limits.maxStringChars < 0x8000000000000000)
    (hinteger : limits.maxInteger < 0x100000000) :
    Limits.ofValue (some (.table .opened
      [("max_string_chars", .integer limits.maxStringChars),
        ("max_integer", .integer limits.maxInteger)])) = .ok limits := by
  have hfirst : numberOr "max_string_chars" 64 0x10000000000000000
      (some (.integer limits.maxStringChars)) = .ok limits.maxStringChars :=
    if_pos (Nat.lt_trans hchars (by decide))
  have hsecond : numberOr "max_integer" 32767 0x100000000
      (some (.integer limits.maxInteger)) = .ok limits.maxInteger := if_pos hinteger
  show (numberOr "max_string_chars" 64 _ (some (.integer limits.maxStringChars)) >>= _) = _
  rw [hfirst]
  show (numberOr "max_integer" 32767 _ (some (.integer limits.maxInteger)) >>= _) = _
  rw [hsecond]
  rfl

theorem ofEntries_entries (s : Settings) (hchars : s.limits.maxStringChars < 0x8000000000000000)
    (hinteger : s.limits.maxInteger < 0x100000000) : ofEntries s.entries = .ok s := by
  have hlimits := ofValue_limits s.limits hchars hinteger
  show (Limits.ofValue (s.entries.lookup "limits") >>= fun limits =>
    (.ok { s with limits := limits } : Except SettingsError Settings)) = _
  rw [show s.entries.lookup "limits" = some _ from rfl, hlimits]
  rfl

/-- What is written of settings gives them back, if they can be used. -/
theorem ofText_text {text : String} (h : s.text? = .ok text)
    (hinteger : s.limits.maxInteger < 0x100000000) :
    ofText text = if s.limits.maxStringChars = 0 then .error .noStringChars else .ok s := by
  have hchars : s.limits.maxStringChars < 0x8000000000000000 := by
    rw [text?] at h
    split at h
    · cases h
    · exact Nat.lt_of_not_le ‹_›
  rw [ofText, read?_text h hinteger]
  dsimp only
  rw [ofEntries_entries s hchars hinteger]
  show (s.check >>= fun _ => Except.ok s) = _
  rw [check]
  split <;> rfl

/-! ## Files with settings -/

section

variable {path : Path} {t : FileTree} {text : String}

/-- Settings are saved where a file can be made. -/
theorem exists_save_eq (h : t.Accepts (path.parent?.getD "") path) (htext : s.text? = .ok text) :
    ∃ (u : FileTree) (l : Location), u.IsTarget path l ∧ (∀ k, u.content? k = t.content? k) ∧
      (s.save path : StateM FileTree _) t = (.ok (), u.set l (.file text.toUTF8)) := by
  obtain ⟨u, hmake, l, htarget⟩ := h
  have hkeeps := FileTree.keepsFiles_makeDirectories (path.parent?.getD "") t
  rw [hmake] at hkeeps
  refine ⟨u, l, htarget, hkeeps, ?_⟩
  rw [save, bind_of_eq hmake, htext]
  exact bind_of_eq (FileTree.run_writeText htarget text) _

/-- What is saved is read by the rules for every document, and no other file changes. -/
theorem exists_save_load (h : t.Accepts (path.parent?.getD "") path)
    (hchars : s.limits.maxStringChars < 0x8000000000000000)
    (hinteger : s.limits.maxInteger < 0x100000000) :
    ∃ u, (s.save path : StateM FileTree _) t = (.ok (), u) ∧
      (Settings.load path : StateM FileTree _) u
        = (if s.limits.maxStringChars = 0 then .error .noStringChars else .ok s, u) ∧
      ∀ l, u.content? l ≠ t.content? l → u.resolve path = .ok l := by
  obtain ⟨text, htext⟩ : ∃ text, s.text? = .ok text := ⟨_, if_neg (Nat.not_le.2 hchars)⟩
  obtain ⟨u, l, htarget, hkeeps, hsave⟩ := exists_save_eq h htext
  refine ⟨_, hsave, ?_, fun k hk => ?_⟩
  · rw [load_of_readText (FileTree.readText_set htarget text), ofText_text htext hinteger]
  · have hkl : k = l := by
      by_contra hne
      rw [FileTree.content?_set htarget.ne_root, if_neg hne] at hk
      exact hk (hkeeps k)
    rw [hkl]
    exact (FileTree.SameDirectories.of_set htarget.directory _).resolve htarget.resolve

/-- No file changes where settings cannot be saved. -/
theorem exists_save_error
    (h : ∀ text, s.text? = .ok text → ¬ t.Accepts (path.parent?.getD "") path) :
    ∃ (f : Failure) (u : FileTree), (s.save path : StateM FileTree _) t = (.error f, u) ∧
      ∀ l, u.content? l = t.content? l := by
  have hkeeps := FileTree.keepsFiles_makeDirectories (path.parent?.getD "") t
  cases hmake : (makeDirectories (path.parent?.getD "") : StateM FileTree _) t with
  | mk r u =>
    rw [hmake] at hkeeps
    cases r with
    | error cause => exact ⟨_, u, bind_of_eq hmake _, hkeeps⟩
    | ok =>
      rw [save, bind_of_eq hmake]
      dsimp only
      cases htext : s.text? with
      | error e => exact ⟨_, u, rfl, hkeeps⟩
      | ok text =>
        have htarget := mt (FileTree.accepts_iff hmake).2 (h text htext)
        obtain ⟨e, -, hwrite⟩ := FileTree.run_writeText_error htarget text
        exact ⟨_, u, bind_of_eq hwrite _, hkeeps⟩

end

/-- Settings that can be used are loaded as they were saved, whatever texts are in them.
Those under which no string may hold a character are refused after they are read.  A limit
that no document can give is not saved, and no file changes then. -/
theorem load_save (s : Settings) (path : Path) (t : FileTree)
    (hinteger : s.limits.maxInteger < 0x100000000) :
    (1 ≤ s.limits.maxStringChars → s.limits.maxStringChars < 0x8000000000000000 →
      t.Accepts (path.parent?.getD "") path →
      ∃ u, (s.save path : StateM FileTree _) t = (.ok (), u) ∧
        (Settings.load path : StateM FileTree _) u = (.ok s, u)) ∧
    (s.limits.maxStringChars = 0 → t.Accepts (path.parent?.getD "") path →
      ∃ u, (s.save path : StateM FileTree _) t = (.ok (), u) ∧
        (Settings.load path : StateM FileTree _) u = (.error .noStringChars, u)) ∧
    (0x8000000000000000 ≤ s.limits.maxStringChars →
      ∃ f u, (s.save path : StateM FileTree _) t = (.error f, u) ∧
        ∀ l, u.content? l = t.content? l) := by
  refine ⟨fun hpos hchars haccepts => ?_, fun hzero haccepts => ?_, fun hchars => ?_⟩
  · obtain ⟨u, hsave, hload, -⟩ := exists_save_load haccepts hchars hinteger
    rw [if_neg (Nat.one_le_iff_ne_zero.1 hpos)] at hload
    exact ⟨u, hsave, hload⟩
  · obtain ⟨u, hsave, hload, -⟩ := exists_save_load haccepts (hzero ▸ by decide) hinteger
    rw [if_pos hzero] at hload
    exact ⟨u, hsave, hload⟩
  · refine exists_save_error fun text htext => ?_
    rw [text?, if_pos hchars] at htext
    cases htext

/-- Texts that need each way of quoting. -/
private def awkward (maxStringChars : Nat) : Settings where
  input := "a'\n\"\\\x01"
  outputDir := "\n'b"
  limits := ⟨maxStringChars, 0⟩

private def emptyTree : FileTree := ⟨[], []⟩

private theorem accepts_emptyTree : emptyTree.Accepts "" "s" :=
  ⟨emptyTree, rfl, ["s"], by decide +kernel, by decide +kernel, rfl, nofun⟩

theorem load_save_awkward :
    (∃ u, ((awkward 1).save "s" : StateM FileTree _) emptyTree = (.ok (), u) ∧
      (Settings.load "s" : StateM FileTree _) u = (.ok (awkward 1), u)) ∧
    (∃ u, ((awkward 0).save "s" : StateM FileTree _) emptyTree = (.ok (), u) ∧
      (Settings.load "s" : StateM FileTree _) u = (.error .noStringChars, u)) ∧
    (∃ f u, ((awkward 0x8000000000000000).save "s" : StateM FileTree _) emptyTree = (.error f, u) ∧
      ∀ l, u.content? l = emptyTree.content? l) :=
  ⟨(load_save (awkward 1) "s" emptyTree (by decide)).1 (by decide) (by decide) accepts_emptyTree,
    (load_save (awkward 0) "s" emptyTree (by decide)).2.1 rfl accepts_emptyTree,
    (load_save (awkward 0x8000000000000000) "s" emptyTree (by decide)).2.2 (by decide)⟩

end Settings

end Pdl
