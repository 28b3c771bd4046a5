import Pdl.Proofs.Files.Access
import Pdl.Session

/-!
# Reports that are written

Files are written one after the other, until one cannot be written (`WritesFiles`).  No file
that is written hinders another one or replaces it, since they have different names in
one directory (`Written.cons`).

The reports are written to the directory once that is made (`WritesReports`).  So all of
them are written if each of them can be, and only where they are meant to be does a file
change (`exists_writeReports_eq`).
-/

namespace Pdl

theorem Analysis.hasErrors_iff_exists (a : Analysis) :
    a.hasErrors = true ↔ ∃ d ∈ a.diagnostics, d.level = .error := by
  simp [hasErrors, Pdl.hasErrors, Diagnostic.isError]

/-- The files to which reports go. -/
def reportNames : List String := ["tokens.txt", "rules.txt", "symbols.txt", "analysis.json"]

namespace Settings

/-- The reports are not asked for, or each of them can be written. -/
def ReportsAccepted (s : Settings) (t : FileTree) : Prop :=
  s.writeReports = true → ∀ name ∈ reportNames, t.Accepts s.outputDir (s.outputDir.join name)

/-- The reports are asked for if a file changes, and the file is one of them. -/
def ChangesReports (s : Settings) (t u : FileTree) : Prop :=
  ∀ l, u.content? l ≠ t.content? l →
    s.writeReports = true ∧ ∃ name ∈ reportNames, u.IsTarget (s.outputDir.join name) l

end Settings

namespace Session

/-- The regular files of `v` are those of `t`, but for the `files` written to `dir`, which have
their texts. -/
structure Written (dir : Path) (files : List (String × String)) (t v : FileTree) : Prop where
  content : ∀ f ∈ files, ∃ l, v.IsTarget (dir.join f.1) l ∧ v.content? l = some f.2.toUTF8
  unchanged : ∀ l, (∀ f ∈ files, ¬ v.IsTarget (dir.join f.1) l) → v.content? l = t.content? l

/-- What writing `files` to `dir` answers, if it turns `t` into `v`. -/
inductive WritesFiles (dir : Path) (files : List (String × String)) (t v : FileTree) :
    Except Failure (List Path) → Prop where
  /-- All of them are written. -/
  | all (h : Written dir files t v) :
      WritesFiles dir files t v (.ok (files.map fun f => dir.join f.1))
  /-- Those before the first that cannot be written are. -/
  | stopped {before after : List (String × String)} {f : String × String} {e : FileError}
      (hfiles : files = before ++ f :: after) (h : Written dir before t v)
      (hf : v.writeText (dir.join f.1) f.2 = .error e) :
      WritesFiles dir files t v (.error (.unwritable (dir.join f.1) e))

/-- What writing the reports of an analysis answers, and the tree that it leaves. -/
inductive WritesReports (s : Session) (a : Analysis) (t : FileTree) :
    Except Failure (List Path) → FileTree → Prop where
  /-- They are not asked for. -/
  | disabled (hreports : s.settings.writeReports = false) : WritesReports s a t (.ok []) t
  /-- There is no directory for them. -/
  | noDirectory {e : FileError} {v : FileTree} (hreports : s.settings.writeReports = true)
      (hmake : (makeDirectories s.settings.outputDir : StateM FileTree _) t = (.error e, v))
      (hkeeps : ∀ l, v.content? l = t.content? l) :
      WritesReports s a t (.error (.unwritable s.settings.outputDir e)) v
  /-- The directory is made, and after that no other one. -/
  | inDirectory {r : Except Failure (List Path)} {u v : FileTree}
      (hreports : s.settings.writeReports = true)
      (hmake : (makeDirectories s.settings.outputDir : StateM FileTree _) t = (.ok (), u))
      (hsame : u.SameDirectories v)
      (hfiles : WritesFiles s.settings.outputDir
        [("tokens.txt", tokenReport a.tokens), ("rules.txt", ruleReport a.trace),
          ("symbols.txt", symbolReport a.symbols), ("analysis.json", a.jsonReport)] t v r) :
      WritesReports s a t r v

theorem map_fst_reports (a : Analysis) : a.reports.map Prod.fst = reportNames := rfl

theorem nodup_reportNames : reportNames.Nodup := by
  decide

theorem names_of_mem_reportNames : ∀ name ∈ reportNames, Path.names name = [name] := by
  decide +kernel

section

variable {dir : Path} {f : String × String} {files : List (String × String)}
variable {t u v : FileTree} {l : Location} {r : Except Failure (List Path)}

/-! ## One file after the other -/

theorem Written.nil : Written dir [] t t where
  content := nofun
  unchanged _ _ := rfl

/-- A file stays as it is written if the later ones go elsewhere. -/
theorem Written.cons (hl : t.IsTarget (dir.join f.1) l)
    (hother : ∀ g ∈ files, ¬ t.IsTarget (dir.join g.1) l)
    (hsame : (t.set l (.file f.2.toUTF8)).SameDirectories v)
    (h : Written dir files (t.set l (.file f.2.toUTF8)) v) : Written dir (f :: files) t v := by
  have hv : t.SameDirectories v := (FileTree.SameDirectories.of_set hl.directory _).trans hsame
  constructor
  · intro g hg
    rcases List.mem_cons.1 hg with rfl | hg
    · refine ⟨l, hl.mono hv, ?_⟩
      rw [h.unchanged l fun g hg => mt hv.isTarget_iff.1 (hother g hg),
        FileTree.content?_set hl.ne_root, if_pos rfl]
    · exact h.content g hg
  · intro k hk
    have hkl : k ≠ l := by
      rintro rfl
      exact hk f (.head _) (hl.mono hv)
    rw [h.unchanged k fun g hg => hk g (.tail _ hg), FileTree.content?_set hl.ne_root,
      if_neg hkl]

theorem Written.of_content?_eq (hkeeps : ∀ l, u.content? l = t.content? l)
    (h : Written dir files u v) : Written dir files t v where
  content := h.content
  unchanged l hl := (h.unchanged l hl).trans (hkeeps l)

theorem WritesFiles.of_content?_eq (hkeeps : ∀ l, u.content? l = t.content? l)
    (h : WritesFiles dir files u v r) : WritesFiles dir files t v r := by
  cases h with
  | all h => exact .all (h.of_content?_eq hkeeps)
  | stopped hfiles h hf => exact .stopped hfiles (h.of_content?_eq hkeeps) hf

/-- Files with different names are written one after the other. -/
theorem exists_writesFiles (dir : Path) {files : List (String × String)}
    (hnodup : (files.map Prod.fst).Nodup) (hnames : ∀ f ∈ files, Path.names f.1 = [f.1])
    (t : FileTree) : ∃ r v, (writeFiles dir files : StateM FileTree _) t = (r, v) ∧
      t.SameDirectories v ∧ WritesFiles dir files t v r := by
  induction files generalizing t with
  | nil => exact ⟨_, t, rfl, .refl t, .all .nil⟩
  | cons f files ih =>
    obtain ⟨name, text⟩ := f
    rw [List.map_cons, List.nodup_cons] at hnodup
    rw [List.forall_mem_cons] at hnames
    rw [writeFiles]
    by_cases htarget : ∃ l, t.IsTarget (dir.join name) l
    · obtain ⟨l, hl⟩ := htarget
      have hwrite := FileTree.SameDirectories.of_set hl.directory text.toUTF8
      have hother : ∀ g ∈ files, ¬ t.IsTarget (dir.join g.1) l := by
        intro g hg hgl
        have heq := hl.name_unique hnames.1 (hnames.2 g hg) hgl
        exact hnodup.1 (heq ▸ List.mem_map_of_mem hg)
      obtain ⟨r, v, hrun, hsame, hends⟩ := ih hnodup.2 hnames.2 (t.set l (.file text.toUTF8))
      rw [bind_of_eq (FileTree.run_writeText hl text)]
      dsimp only
      rw [bind_of_eq hrun]
      cases hends with
      | all h => exact ⟨_, v, rfl, hwrite.trans hsame, .all (.cons hl hother hsame h)⟩
      | @stopped before after f e hfiles h hf =>
        have hwritten : Written dir ((name, text) :: before) t v :=
          .cons hl (fun g hg => hother g (hfiles ▸ List.mem_append_left _ hg)) hsame h
        exact ⟨_, v, rfl, hwrite.trans hsame, .stopped (congrArg _ hfiles) hwritten hf⟩
    · obtain ⟨e, hfails, hwrite⟩ := FileTree.run_writeText_error htarget text
      rw [bind_of_eq hwrite]
      exact ⟨_, t, rfl, .refl t, .stopped rfl .nil hfails⟩

end

/-! ## The reports -/

theorem exists_writesReports (s : Session) (a : Analysis) (t : FileTree) :
    ∃ r v, (s.writeReports a : StateM FileTree _) t = (r, v) ∧ s.WritesReports a t r v := by
  rw [writeReports]
  by_cases hreports : s.settings.writeReports = true
  · have hkeeps := FileTree.keepsFiles_makeDirectories s.settings.outputDir t
    rw [if_pos hreports]
    cases hmake : (makeDirectories s.settings.outputDir : StateM FileTree _) t with
    | mk made u =>
      rw [hmake] at hkeeps
      rw [bind_of_eq hmake]
      cases made with
      | error e => exact ⟨_, u, rfl, .noDirectory hreports hmake hkeeps⟩
      | ok =>
        obtain ⟨r, v, hrun, hsame, hfiles⟩ := exists_writesFiles s.settings.outputDir
          (map_fst_reports a ▸ nodup_reportNames)
          (List.forall_mem_map.1 (map_fst_reports a ▸ names_of_mem_reportNames)) u
        exact ⟨r, v, hrun, .inDirectory hreports hmake hsame (hfiles.of_content?_eq hkeeps)⟩
  · rw [if_neg hreports]
    exact ⟨_, t, rfl, .disabled (Bool.not_eq_true _ ▸ hreports)⟩

/-- Writing the reports ends at the first that cannot be written, and changes no other file than
those before it. -/
theorem writesReports (s : Session) (a : Analysis) (t : FileTree) :
    s.WritesReports a t ((s.writeReports a : StateM FileTree _) t).1
      ((s.writeReports a : StateM FileTree _) t).2 := by
  obtain ⟨r, v, hrun, h⟩ := exists_writesReports s a t
  rw [hrun]
  exact h

private def obstructed : FileTree := ⟨[], [(["r"], .directory), (["r", "symbols.txt"], .directory)]⟩

private def obstructedRun : Except Failure (List Path) × FileTree :=
  Session.writeReports (m := StateM FileTree) ⟨{ outputDir := "r" }, ⟨"x", "1"⟩⟩
    (analyze {} "1") obstructed

example : obstructedRun.1.toOption = none ∧ obstructedRun.2.contains "r/rules.txt" ∧
    obstructedRun.2.contains "r/analysis.json" = false := by decide +kernel

namespace WritesFiles

variable {dir : Path} {files : List (String × String)} {t v : FileTree}
variable {r : Except Failure (List Path)} (h : WritesFiles dir files t v r)
include h

theorem exists_ok_iff : (∃ paths, r = .ok paths) ↔
    ∀ f ∈ files, ∃ l, v.IsTarget (dir.join f.1) l := by
  cases h with
  | all h =>
    refine ⟨fun _ f hf => ?_, fun _ => ⟨_, rfl⟩⟩
    obtain ⟨l, hl, -⟩ := h.content f hf
    exact ⟨l, hl⟩
  | @stopped before after f e hfiles h hf =>
    refine ⟨nofun, fun hall => ?_⟩
    obtain ⟨l, hl⟩ := hall f (hfiles ▸ List.mem_append_right _ (.head _))
    rw [FileTree.writeText_eq hl] at hf
    cases hf

theorem exists_of_content?_ne {l : Location} (hl : v.content? l ≠ t.content? l) :
    ∃ f ∈ files, v.IsTarget (dir.join f.1) l := by
  refine Classical.byContradiction fun hnone => ?_
  have hother : ∀ f ∈ files, ¬ v.IsTarget (dir.join f.1) l := fun f hf hfl => hnone ⟨f, hf, hfl⟩
  cases h with
  | all h => exact hl (h.unchanged l hother)
  | stopped hfiles h =>
    exact hl (h.unchanged l fun g hg => hother g (hfiles ▸ List.mem_append_left _ hg))

end WritesFiles

/-- Writing the reports succeeds if each of them can be written, and changes no other file. -/
theorem exists_writeReports_eq (s : Session) (a : Analysis) (t : FileTree) :
    ∃ r v, (s.writeReports a : StateM FileTree _) t = (r, v) ∧
      ((∃ paths, r = .ok paths) ↔ s.settings.ReportsAccepted t) ∧
      s.settings.ChangesReports t v := by
  obtain ⟨r, v, hrun, h⟩ := exists_writesReports s a t
  refine ⟨r, v, hrun, ?_⟩
  cases h with
  | disabled hreports =>
    exact ⟨by simp [Settings.ReportsAccepted, hreports], fun l hl => absurd rfl hl⟩
  | noDirectory hreports hmake hkeeps =>
    refine ⟨⟨nofun, fun h => ?_⟩, fun l hl => absurd (hkeeps l) hl⟩
    exact absurd (h hreports "tokens.txt" (by decide)) (FileTree.not_accepts hmake _)
  | inDirectory hreports hmake hsame hfiles =>
    refine ⟨hfiles.exists_ok_iff.trans ?_, fun l hl => ⟨hreports, ?_⟩⟩
    · change (∀ f ∈ a.reports, _) ↔ _
      simp only [Settings.ReportsAccepted, FileTree.accepts_iff hmake, ← map_fst_reports a,
        List.forall_mem_map, hreports, forall_const, hsame.isTarget_iff]
    · obtain ⟨f, hf, hl⟩ := hfiles.exists_of_content?_ne hl
      exact ⟨f.1, map_fst_reports a ▸ List.mem_map_of_mem hf, hl⟩

end Session

end Pdl
