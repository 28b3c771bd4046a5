import Mathlib.Data.List.Forall2
import Pdl.Proofs.CommandLine.World
import Pdl.Proofs.Session
import Pdl.Proofs.Settings.Loading
import Pdl.Proofs.Settings.RoundTrip

/-!
# Outcomes of runs

A run reads its settings from one file (`ReadsFrom`), or takes the defaults where no
file is there.  The settings are then changed by the arguments (`Options.Settles`).
The run ends in one of six ways (`Ends`), and `exists_runOptions_eq` finds the way by
following the program through its operations.

The ways exclude each other, as the settings of a run are unique
(`Options.Settles.unique`).  So each of them tells for which reason a run fails, if it
does, and which files may have changed (`outcome_run`).
-/

namespace Pdl.CommandLine

/-! ## Settings of a run -/

/-- The file with settings in a directory for the settings of programs. -/
def settingsIn (dir : Path) : Path := (dir.join "analizador").join "analizador.toml"

/-- The file that settings are read from: the one that is given, or else the first of three that
is there.  What it holds does not matter. -/
inductive ReadsFrom (dirs : Directories) (t : FileTree) : Option Path → Option Path → Prop where
  | given (p : Path) : ReadsFrom dirs t (some p) (some p)
  /-- The file in the current directory. -/
  | here (h : t.contains "analizador.toml" = true) :
      ReadsFrom dirs t none (some "analizador.toml")
  /-- The file below the home directory. -/
  | home {dir : Path} (hhere : t.contains "analizador.toml" = false)
      (hdir : dirs.home? = some dir) (h : t.contains (settingsIn (dir.join ".config")) = true) :
      ReadsFrom dirs t none (some (settingsIn (dir.join ".config")))
  /-- The file in the directory for settings. -/
  | user {dir : Path} (hhere : t.contains "analizador.toml" = false)
      (hhome : ∀ d, dirs.home? = some d → t.contains (settingsIn (d.join ".config")) = false)
      (hdir : dirs.settings? = some dir) (h : t.contains (settingsIn dir) = true) :
      ReadsFrom dirs t none (some (settingsIn dir))
  /-- None of the three is there. -/
  | nowhere (hhere : t.contains "analizador.toml" = false)
      (hhome : ∀ d, dirs.home? = some d → t.contains (settingsIn (d.join ".config")) = false)
      (huser : ∀ d, dirs.settings? = some d → t.contains (settingsIn d) = false) :
      ReadsFrom dirs t none none

section

variable {dirs : Directories} {t : FileTree} {given file : Option Path}

theorem find?_toList_map (place : Path → Path) (there : Path → Bool) (dir? : Option Path) :
    (∃ d, dir? = some d ∧ there (place d) = true ∧
        (dir?.map place).toList.find? there = some (place d)) ∨
      (∀ d, dir? = some d → there (place d) = false) ∧
        (dir?.map place).toList.find? there = none := by
  cases dir? with
  | none => exact .inr ⟨nofun, rfl⟩
  | some d =>
    cases h : there (place d) with
    | true => exact .inl ⟨d, rfl, h, List.find?_cons_of_pos h⟩
    | false =>
      refine .inr ⟨?_, List.find?_cons_of_neg (by simp [h])⟩
      rintro d' ⟨rfl⟩
      exact h

/-- The search finds the file. -/
theorem readsFrom_find? (dirs : Directories) (t : FileTree) :
    ReadsFrom dirs t none ((Settings.places dirs).find? t.contains) := by
  have hplaces : Settings.places dirs
      = "analizador.toml" :: ((dirs.home?.map fun d => settingsIn (d.join ".config")).toList
        ++ (dirs.settings?.map settingsIn).toList) := rfl
  rw [hplaces]
  cases hhere : t.contains "analizador.toml" with
  | true =>
    rw [List.find?_cons_of_pos hhere]
    exact .here hhere
  | false =>
    rw [List.find?_cons_of_neg (by simp [hhere]), List.find?_append]
    rcases find?_toList_map (fun d => settingsIn (d.join ".config")) t.contains dirs.home?
      with ⟨d, hdir, h, hfind⟩ | ⟨hhome, hfind⟩
    · rw [hfind]
      exact .home hhere hdir h
    rcases find?_toList_map settingsIn t.contains dirs.settings?
      with ⟨d, hdir, h, hfind'⟩ | ⟨huser, hfind'⟩
    · rw [hfind, hfind']
      exact .user hhere hhome hdir h
    · rw [hfind, hfind']
      exact .nowhere hhere hhome huser

/-- There is one file only. -/
theorem ReadsFrom.unique {file' : Option Path} (h : ReadsFrom dirs t given file)
    (h' : ReadsFrom dirs t given file') : file = file' := by
  -- What one way has found, every later way says is not there.
  cases h <;> cases h' <;> simp_all

end

namespace Options

/-- A run loads what the file with the settings holds, or the defaults where there is none. -/
inductive Loads (o : Options) (dirs : Directories) (t : FileTree) : Settings → Prop where
  | file {p : Path} {s : Settings} (hfile : ReadsFrom dirs t o.settingsFile (some p))
      (h : s.InFile t p) : Loads o dirs t s
  | defaults (hfile : ReadsFrom dirs t o.settingsFile none) :
      Loads o dirs t ⟨"input/input.txt", "output", true, false, ⟨64, 32767⟩⟩

/-- The settings `s` are `loaded` as the arguments change them. -/
structure Changes (o : Options) (loaded s : Settings) : Prop where
  input : s.input = o.input.getD loaded.input
  outputDir : s.outputDir = o.outputDir.getD loaded.outputDir
  verbose : s.verbose = true ↔ loaded.verbose = true ∨ o.verbose = true
  writeReports : s.writeReports = true ↔ loaded.writeReports = true ∧ o.noReports = false
  limits : s.limits = loaded.limits

/-- The settings under which a run is made. -/
def Settles (o : Options) (dirs : Directories) (t : FileTree) (s : Settings) : Prop :=
  ∃ loaded, o.Loads dirs t loaded ∧ o.Changes loaded s

variable {o : Options} {dirs : Directories} {t : FileTree} {s loaded : Settings}

theorem changes_iff : o.Changes loaded s ↔ s = o.applyTo loaded := by
  constructor
  · intro h
    cases s
    simp only [applyTo, Settings.mk.injEq]
    refine ⟨h.input, h.outputDir, ?_, ?_, h.limits⟩
    · rw [Bool.eq_iff_iff, Bool.and_eq_true, Bool.not_eq_true']
      exact h.writeReports
    · rw [Bool.eq_iff_iff, Bool.or_eq_true]
      exact h.verbose
  · rintro rfl
    exact ⟨rfl, rfl, by simp [applyTo], by simp [applyTo], rfl⟩

theorem Loads.unique {s' : Settings} (h : o.Loads dirs t s) (h' : o.Loads dirs t s') : s = s' := by
  cases h with
  | file hfile h =>
    cases h' with
    | file hfile' h' =>
      cases hfile.unique hfile'
      exact h.unique h'
    | defaults hfile' => cases hfile.unique hfile'
  | defaults hfile =>
    cases h' with
    | file hfile' => cases hfile.unique hfile'
    | defaults => rfl

theorem Settles.unique {s' : Settings} (h : o.Settles dirs t s) (h' : o.Settles dirs t s') :
    s = s' := by
  obtain ⟨loaded, hloaded, hs⟩ := h
  obtain ⟨loaded', hloaded', hs'⟩ := h'
  rw [changes_iff.1 hs, changes_iff.1 hs', hloaded.unique hloaded']

theorem Loads.isUsable (h : o.Loads dirs t s) : s.IsUsable := by
  cases h with
  | file _ h => exact h.isUsable
  | defaults => exact Settings.isUsable_default

theorem Settles.isUsable (h : o.Settles dirs t s) : s.IsUsable := by
  obtain ⟨loaded, hloaded, hs⟩ := h
  obtain ⟨hpos, hchars, hinteger⟩ := hloaded.isUsable
  rw [← hs.limits] at hpos hchars hinteger
  exact ⟨hpos, hchars, hinteger⟩

end Options

/-- Settings are in the one file that they are read from. -/
theorem Options.loads_iff_inFile {o : Options} {dirs : Directories} {t : FileTree} {p : Path}
    {s : Settings} (hfile : ReadsFrom dirs t o.settingsFile (some p)) :
    o.Loads dirs t s ↔ s.InFile t p := by
  constructor
  · rintro (⟨hfile', h⟩ | hfile')
    · cases hfile.unique hfile'
      exact h
    · cases hfile.unique hfile'
  · exact .file hfile

theorem exists_loadSettings_eq (dirs : Directories) (o : Options) (t : FileTree) :
    ∃ r, (loadSettings dirs o : StateM FileTree _) t = (r, t) ∧
      ∀ s, r = .ok s ↔ o.Loads dirs t s := by
  have hload : ∀ p, ReadsFrom dirs t o.settingsFile (some p) →
      ∃ r, (Settings.load p : StateM FileTree _) t = (r, t) ∧ ∀ s, r = .ok s ↔ o.Loads dirs t s := by
    intro p hfile
    obtain ⟨r, hr, hfound⟩ := Settings.exists_load_eq p t
    exact ⟨r, hr, fun s => (hfound s).trans (Options.loads_iff_inFile hfile).symm⟩
  rw [loadSettings]
  cases ho : o.settingsFile with
  | some p =>
    refine hload p ?_
    rw [ho]
    exact .given p
  | none =>
    have hfile := readsFrom_find? dirs t
    rw [← ho] at hfile
    rw [Settings.find]
    simp only [bind_of_eq (Settings.firstPresent_eq (Settings.places dirs) t)]
    cases hp : (Settings.places dirs).find? t.contains with
    | some p => exact hload p (hp ▸ hfile)
    | none =>
      rw [hp] at hfile
      refine ⟨_, rfl, fun s => ⟨?_, ?_⟩⟩
      · rintro ⟨rfl⟩
        exact .defaults hfile
      · rintro (⟨hfile', -⟩ | -)
        · cases hfile.unique hfile'
        · rfl

/-! ## Runs -/

/-- How a run with options ends, with its status and the world that it leaves. -/
inductive Ends (dirs : Directories) (o : Options) (w : World) : Nat → World → Prop where
  /-- The settings are at fault. -/
  | misconfigured {errors : String} (h : ∀ s, ¬ o.Settles dirs w.files s) :
      Ends dirs o w 2 { w with errors := errors }
  /-- The settings cannot be written. -/
  | unsaved {s : Settings} {p : Path} {v : FileTree} {errors : String}
      (hs : o.Settles dirs w.files s) (hp : o.writeSettings = some p)
      (htarget : ¬ w.files.Accepts (p.parent?.getD "") p)
      (hkeeps : ∀ l, v.content? l = w.files.content? l) :
      Ends dirs o w 2 { w with files := v, errors := errors }
  /-- The settings are written. -/
  | saved {s : Settings} {p : Path} {v : FileTree} {output : String}
      (hs : o.Settles dirs w.files s) (hp : o.writeSettings = some p)
      (htarget : w.files.Accepts (p.parent?.getD "") p) (hsaved : s.InFile v p)
      (hchanged : ∀ l, v.content? l ≠ w.files.content? l → v.resolve p = .ok l) :
      Ends dirs o w 0 { w with files := v, output := output }
  /-- The input cannot be read. -/
  | unread {s : Settings} {errors : String} (hs : o.Settles dirs w.files s)
      (hp : o.writeSettings = none) (htext : ∀ text, w.files.readText s.input ≠ .ok text) :
      Ends dirs o w 2 { w with errors := errors }
  /-- The input is analysed, but the reports cannot be written. -/
  | unreported {s : Settings} {text : String} {v : FileTree} {output errors : String}
      (hs : o.Settles dirs w.files s) (hp : o.writeSettings = none)
      (htext : w.files.readText s.input = .ok text)
      (hreports : ¬ s.ReportsAccepted w.files) (hchanged : s.ChangesReports w.files v) :
      Ends dirs o w 2 { w with files := v, output := output, errors := errors }
  /-- The input is analysed. -/
  | analyzed {s : Settings} {text : String} {v : FileTree} {errors : String}
      (hs : o.Settles dirs w.files s) (hp : o.writeSettings = none)
      (htext : w.files.readText s.input = .ok text)
      (hreports : s.ReportsAccepted w.files) (hchanged : s.ChangesReports w.files v) :
      Ends dirs o w (if (analyze s.limits text).hasErrors then 1 else 0)
        { w with
          files := v
          output := w.output ++ String.join (o.emit.map fun p => p.text (analyze s.limits text))
          errors := errors }

section

variable {dirs : Directories} {o : Options} {w : World} {s : Settings}

theorem exists_writeSettings_eq {p : Path} (hs : o.Settles dirs w.files s)
    (hp : o.writeSettings = some p) :
    ∃ n w', (writeSettings s p : StateM World _) w = (n, w') ∧ Ends dirs o w n w' := by
  obtain ⟨hpos, hchars, hinteger⟩ := hs.isUsable
  rw [writeSettings, World.save_eq]
  by_cases htarget : w.files.Accepts (p.parent?.getD "") p
  · obtain ⟨v, hsave, hload, hchanged⟩ := Settings.exists_save_load htarget hchars hinteger
    rw [if_neg (Nat.one_le_iff_ne_zero.1 hpos)] at hload
    have hsaved : s.InFile v p := by
      obtain ⟨r, hr, hfile⟩ := Settings.exists_load_eq p v
      rw [hload] at hr
      cases hr
      exact (hfile s).1 rfl
    rw [bind_of_eq (World.onFiles_of_eq hsave)]
    exact ⟨_, _, rfl, .saved hs hp htarget hsaved hchanged⟩
  · obtain ⟨f, v, hsave, hkeeps⟩ := Settings.exists_save_error (s := s) fun _ _ => htarget
    rw [bind_of_eq (World.onFiles_of_eq hsave)]
    exact ⟨_, _, rfl, .unsaved hs hp htarget hkeeps⟩

/-- Writing the reports tells the log and does to the files what the session does. -/
theorem exists_writeReports_eq (log : Log) (session : Session) (a : Analysis) (w : World) :
    ∃ r v errors, (writeReports log session a : StateM World _) w
        = (r, { w with files := v, errors := errors }) ∧
      ((∃ u, r = .ok u) ↔ session.settings.ReportsAccepted w.files) ∧
      session.settings.ChangesReports w.files v := by
  obtain ⟨r, v, hrun, hok, hchanged⟩ := session.exists_writeReports_eq a w.files
  rw [writeReports, World.writeReports_eq, bind_of_eq (World.onFiles_of_eq hrun)]
  cases r with
  | error f => exact ⟨_, v, w.errors, rfl, by simpa using hok, hchanged⟩
  | ok paths =>
    dsimp only
    split
    · obtain ⟨errors, hpaths⟩ :=
        exists_forM_tell_eq log .reportWritten paths { w with files := v }
      obtain ⟨errors', htell⟩ := exists_tell_eq log
        (.reportsWritten session.settings.outputDir paths.length)
        { w with files := v, errors := errors }
      refine ⟨.ok (), v, errors', ?_, by simpa using hok, hchanged⟩
      rw [bind_of_eq hpaths, bind_of_eq htell]
      rfl
    · obtain ⟨errors, htell⟩ := exists_tell_eq log .reportsDisabled { w with files := v }
      refine ⟨.ok (), v, errors, ?_, by simpa using hok, hchanged⟩
      rw [bind_of_eq htell]
      rfl

theorem exists_analyzeSession_eq (log : Log) (emit : List Printed) (session : Session)
    (w : World) :
    ∃ n v errors, (analyzeSession log emit session : StateM World _) w
        = (n, { w with
            files := v
            output := w.output ++ String.join (emit.map fun p => p.text session.analysis)
            errors := errors }) ∧
      (session.settings.ReportsAccepted w.files →
        n = if session.analysis.hasErrors then 1 else 0) ∧
      (¬ session.settings.ReportsAccepted w.files → n = 2) ∧
      session.settings.ChangesReports w.files v := by
  obtain ⟨e₁, h₁⟩ := exists_tell_eq log
    (.inputRead session.settings.input session.source.size) w
  obtain ⟨e₂, h₂⟩ := exists_tell_eq log (.analysisStarted session.settings.input)
    { w with errors := e₁ }
  obtain ⟨e₃, h₃⟩ := exists_tell_eq log
    (.analysisFinished session.analysis.tokens.length session.analysis.diagnostics.length
      session.analysis.trace.rules.length session.analysis.trace.accepted)
    { w with errors := e₂ }
  have h₄ : (Console.report (session.listing session.analysis) : StateM World _)
      { w with errors := e₃ }
        = ((), { w with errors := e₃ ++ session.listing session.analysis }) := rfl
  have h₅ := forM_print_eq (fun p => p.text session.analysis) emit
    { w with errors := e₃ ++ session.listing session.analysis }
  rw [analyzeSession, bind_of_eq h₁, bind_of_eq h₂]
  dsimp only
  rw [bind_of_eq h₃, bind_of_eq h₄, bind_of_eq h₅]
  obtain ⟨r, v, e₆, h₆, hok, hchanged⟩ := exists_writeReports_eq log session session.analysis
    { w with
      output := w.output ++ String.join (emit.map fun p => p.text session.analysis)
      errors := e₃ ++ session.listing session.analysis }
  rw [bind_of_eq h₆]
  cases r with
  | error f =>
    have hreports : ¬ session.settings.ReportsAccepted w.files := fun h => nomatch hok.2 h
    exact ⟨2, v, _, rfl, fun h => absurd h hreports, fun _ => rfl, hchanged⟩
  | ok =>
    have hreports : session.settings.ReportsAccepted w.files := hok.1 ⟨_, rfl⟩
    exact ⟨_, v, _, rfl, fun _ => rfl, fun h => absurd hreports h, hchanged⟩

theorem exists_analyzeInput_eq (log : Log) (hs : o.Settles dirs w.files s)
    (hp : o.writeSettings = none) :
    ∃ n w', (analyzeInput log o.emit s : StateM World _) w = (n, w') ∧ Ends dirs o w n w' := by
  obtain ⟨e₁, h₁⟩ := exists_tell_eq log (.settled s) w
  rw [analyzeInput, bind_of_eq h₁, World.ofInput_eq]
  have hread : (FileAccess.readText s.input : StateM FileTree _) w.files
      = (w.files.readText s.input, w.files) := rfl
  cases htext : w.files.readText s.input with
  | error e =>
    rw [htext] at hread
    have hinput : (Session.ofInput s : StateM FileTree _) w.files
        = (.error (.unreadableInput s.input e), w.files) := bind_of_eq hread _
    rw [bind_of_eq (World.onFiles_of_eq (w := { w with errors := e₁ }) hinput)]
    refine ⟨_, _, rfl, .unread hs hp fun text h => ?_⟩
    rw [htext] at h
    cases h
  | ok text =>
    rw [htext] at hread
    have hinput : (Session.ofInput s : StateM FileTree _) w.files
        = (.ok ⟨s, ⟨s.input, text⟩⟩, w.files) := bind_of_eq hread _
    rw [bind_of_eq (World.onFiles_of_eq (w := { w with errors := e₁ }) hinput)]
    obtain ⟨n, v, errors, hrun, haccepted, hrefused, hchanged⟩ :=
      exists_analyzeSession_eq log o.emit ⟨s, ⟨s.input, text⟩⟩ { w with errors := e₁ }
    by_cases hreports : s.ReportsAccepted w.files
    · cases haccepted hreports
      exact ⟨_, _, hrun, .analyzed hs hp htext hreports hchanged⟩
    · cases hrefused hreports
      exact ⟨_, _, hrun, .unreported hs hp htext hreports hchanged⟩

/-- Every run with options ends in one of the ways. -/
theorem exists_runOptions_eq (env : Environment) (dirs : Directories) (o : Options) (w : World) :
    ∃ n w', (runOptions env dirs o : StateM World _) w = (n, w') ∧ Ends dirs o w n w' := by
  obtain ⟨r, hload, hloads⟩ := exists_loadSettings_eq dirs o w.files
  rw [runOptions, World.loadSettings_eq, bind_of_eq (World.onFiles_of_eq hload)]
  cases r with
  | error e =>
    refine ⟨_, _, rfl, .misconfigured ?_⟩
    rintro s ⟨loaded, hloaded, -⟩
    cases (hloads loaded).2 hloaded
  | ok loaded =>
    have hs : o.Settles dirs w.files (o.applyTo loaded) :=
      ⟨loaded, (hloads loaded).1 rfl, Options.changes_iff.2 rfl⟩
    dsimp only
    cases hp : o.writeSettings with
    | some p => exact exists_writeSettings_eq hs hp
    | none => exact exists_analyzeInput_eq _ hs hp

end

/-! ## Outcomes -/

/-- The text that is printed for a report. -/
inductive Printed.Gives (a : Analysis) : Printed → String → Prop where
  | tokens : Gives a .tokens (tokenReport a.tokens)
  | rules : Gives a .rules (ruleReport a.trace)
  | symbols : Gives a .symbols (symbolReport a.symbols)

theorem Printed.gives_text (p : Printed) (a : Analysis) : Printed.Gives a p (p.text a) := by
  cases p with
  | tokens => exact .tokens
  | rules => exact .rules
  | symbols => exact .symbols

/-- Why a run fails. -/
inductive Fails (dirs : Directories) (o : Options) (t : FileTree) : Prop where
  /-- The settings cannot be read, are no document, or cannot be used. -/
  | settings (h : ∀ s, ¬ o.Settles dirs t s)
  /-- The file to which the settings go cannot be written. -/
  | target {s : Settings} {p : Path} (hs : o.Settles dirs t s) (hp : o.writeSettings = some p)
      (h : ¬ t.Accepts (p.parent?.getD "") p)
  /-- The input cannot be read. -/
  | input {s : Settings} (hs : o.Settles dirs t s) (hp : o.writeSettings = none)
      (h : ∀ text, t.readText s.input ≠ .ok text)
  /-- A report is asked for and cannot be written. -/
  | report {s : Settings} {name : String} (hs : o.Settles dirs t s) (hp : o.writeSettings = none)
      (hreports : s.writeReports = true) (hname : name ∈ reportNames)
      (h : ¬ t.Accepts s.outputDir (s.outputDir.join name))

/-- What the status of a run and the world that it leaves have to do with its options and the
world before it. -/
structure Outcome (dirs : Directories) (o : Options) (w : World) (status : Nat) (w' : World) :
    Prop where
  status_eq_two_iff : status = 2 ↔ Fails dirs o w.files
  /-- The settings are written. -/
  status_of_writeSettings : ¬ Fails dirs o w.files → o.writeSettings.isSome = true → status = 0
  /-- The input is analysed. -/
  status_of_analysis : ∀ s text, ¬ Fails dirs o w.files → o.writeSettings = none →
    o.Settles dirs w.files s → w.files.readText s.input = .ok text →
      status = if ∃ d ∈ (analyze s.limits text).diagnostics, d.level = .error then 1 else 0
  /-- A file that changes is the one to which the settings go, or a report that is asked for. -/
  changed : ∀ l, w'.files.content? l ≠ w.files.content? l →
    (∃ p, o.writeSettings = some p ∧ w'.files.resolve p = .ok l) ∨
    (o.writeSettings = none ∧ ∃ s name, o.Settles dirs w.files s ∧ s.writeReports = true ∧
      name ∈ reportNames ∧ w'.files.resolve (s.outputDir.join name) = .ok l)
  /-- No file changes where the settings or the input are at fault. -/
  unchanged : ((∀ s, ¬ o.Settles dirs w.files s) ∨
      ∃ s, o.Settles dirs w.files s ∧ o.writeSettings = none ∧
        ∀ text, w.files.readText s.input ≠ .ok text) →
    ∀ l, w'.files.content? l = w.files.content? l
  /-- The settings that are written are those of the run. -/
  saved : ∀ s p, status = 0 → o.writeSettings = some p → o.Settles dirs w.files s →
    s.InFile w'.files p
  /-- The reports that are asked for are printed, in this order. -/
  output : ∀ s text, status ≠ 2 → o.writeSettings = none → o.Settles dirs w.files s →
    w.files.readText s.input = .ok text →
      ∃ texts, List.Forall₂ (Printed.Gives (analyze s.limits text)) o.emit texts ∧
        w'.output = w.output ++ String.join texts

theorem exists_not_accepts {s : Settings} {t : FileTree} (h : ¬ s.ReportsAccepted t) :
    s.writeReports = true ∧ ∃ name ∈ reportNames,
      ¬ t.Accepts s.outputDir (s.outputDir.join name) := by
  simpa [Settings.ReportsAccepted] using h

namespace Ends

variable {dirs : Directories} {o : Options} {w w' : World} {n : Nat} (h : Ends dirs o w n w')
include h

theorem status_eq_two_iff : n = 2 ↔ Fails dirs o w.files := by
  cases h with
  | misconfigured h => exact ⟨fun _ => .settings h, fun _ => rfl⟩
  | unsaved hs hp htarget => exact ⟨fun _ => .target hs hp htarget, fun _ => rfl⟩
  | unread hs hp htext => exact ⟨fun _ => .input hs hp htext, fun _ => rfl⟩
  | unreported hs hp htext hreports =>
    obtain ⟨hasked, name, hname, hrefused⟩ := exists_not_accepts hreports
    exact ⟨fun _ => .report hs hp hasked hname hrefused, fun _ => rfl⟩
  | @saved s p v output hs hp htarget =>
    refine ⟨nofun, fun hfails => ?_⟩
    cases hfails with
    | settings h => exact absurd hs (h s)
    | target _ hp' h =>
      cases hp.symm.trans hp'
      exact absurd htarget h
    | input _ hp' => cases hp.symm.trans hp'
    | report _ hp' => cases hp.symm.trans hp'
  | @analyzed s text v errors hs hp htext hreports =>
    constructor
    · intro h
      split at h <;> cases h
    · intro hfails
      cases hfails with
      | settings h => exact absurd hs (h s)
      | target _ hp' => cases hp.symm.trans hp'
      | input hs' _ h =>
        cases hs.unique hs'
        exact absurd htext (h text)
      | report hs' _ hasked hname h =>
        cases hs.unique hs'
        exact absurd (hreports hasked _ hname) h

theorem status_of_writeSettings (hfails : ¬ Fails dirs o w.files)
    (hp : o.writeSettings.isSome = true) : n = 0 := by
  cases h with
  | misconfigured h => exact absurd (.settings h) hfails
  | unsaved hs hp htarget => exact absurd (.target hs hp htarget) hfails
  | saved => rfl
  | unread hs hp' => simp [hp'] at hp
  | unreported hs hp' => simp [hp'] at hp
  | analyzed hs hp' => simp [hp'] at hp

theorem status_of_analysis {s : Settings} {text : String} (hfails : ¬ Fails dirs o w.files)
    (hp : o.writeSettings = none) (hs : o.Settles dirs w.files s)
    (htext : w.files.readText s.input = .ok text) :
    n = if ∃ d ∈ (analyze s.limits text).diagnostics, d.level = .error then 1 else 0 := by
  simp only [← Analysis.hasErrors_iff_exists]
  cases h with
  | misconfigured h => exact absurd (.settings h) hfails
  | unsaved hs hp htarget => exact absurd (.target hs hp htarget) hfails
  | saved hs' hp' => cases hp.symm.trans hp'
  | unread hs' hp' htext' => exact absurd (.input hs' hp' htext') hfails
  | unreported hs' hp' htext' hreports =>
    obtain ⟨hasked, name, hname, hrefused⟩ := exists_not_accepts hreports
    exact absurd (.report hs' hp' hasked hname hrefused) hfails
  | analyzed hs' hp' htext' =>
    cases hs.unique hs'
    cases htext.symm.trans htext'
    rfl

theorem changed {l : Location} (hl : w'.files.content? l ≠ w.files.content? l) :
    (∃ p, o.writeSettings = some p ∧ w'.files.resolve p = .ok l) ∨
    (o.writeSettings = none ∧ ∃ s name, o.Settles dirs w.files s ∧ s.writeReports = true ∧
      name ∈ reportNames ∧ w'.files.resolve (s.outputDir.join name) = .ok l) := by
  cases h with
  | misconfigured => exact absurd rfl hl
  | unsaved _ _ _ hkeeps => exact absurd (hkeeps l) hl
  | @saved s p v output _ hp _ _ hchanged => exact .inl ⟨p, hp, hchanged l hl⟩
  | unread => exact absurd rfl hl
  | @unreported s text v output errors hs hp _ _ hchanged =>
    obtain ⟨hasked, name, hname, htarget⟩ := hchanged l hl
    exact .inr ⟨hp, s, name, hs, hasked, hname, htarget.resolve⟩
  | @analyzed s text v errors hs hp _ _ hchanged =>
    obtain ⟨hasked, name, hname, htarget⟩ := hchanged l hl
    exact .inr ⟨hp, s, name, hs, hasked, hname, htarget.resolve⟩

theorem unchanged (hfault : (∀ s, ¬ o.Settles dirs w.files s) ∨
      ∃ s, o.Settles dirs w.files s ∧ o.writeSettings = none ∧
        ∀ text, w.files.readText s.input ≠ .ok text) (l : Location) :
    w'.files.content? l = w.files.content? l := by
  have hnone : ∀ {s text}, o.Settles dirs w.files s → o.writeSettings = none →
      w.files.readText s.input = .ok text → False := by
    intro s text hs hp htext
    rcases hfault with hfault | ⟨s', hs', -, hfault⟩
    · exact hfault s hs
    · cases hs.unique hs'
      exact hfault text htext
  cases h with
  | misconfigured => rfl
  | unsaved _ _ _ hkeeps => exact hkeeps l
  | @saved s p v output hs hp =>
    rcases hfault with hfault | ⟨_, -, hp', -⟩
    · exact absurd hs (hfault s)
    · cases hp.symm.trans hp'
  | unread => rfl
  | unreported hs hp htext => exact (hnone hs hp htext).elim
  | analyzed hs hp htext => exact (hnone hs hp htext).elim

theorem saved_inFile {s : Settings} {p : Path} (hn : n = 0) (hp : o.writeSettings = some p)
    (hs : o.Settles dirs w.files s) : s.InFile w'.files p := by
  cases h with
  | misconfigured | unsaved => cases hn
  | saved hs' hp' _ hsaved =>
    cases hs.unique hs'
    cases hp.symm.trans hp'
    exact hsaved
  | unread _ hp' | unreported _ hp' | analyzed _ hp' => cases hp.symm.trans hp'

theorem exists_output_eq {s : Settings} {text : String} (hn : n ≠ 2)
    (hp : o.writeSettings = none) (hs : o.Settles dirs w.files s)
    (htext : w.files.readText s.input = .ok text) :
    ∃ texts, List.Forall₂ (Printed.Gives (analyze s.limits text)) o.emit texts ∧
      w'.output = w.output ++ String.join texts := by
  cases h with
  | misconfigured | unsaved | unread | unreported => exact absurd rfl hn
  | saved _ hp' => cases hp.symm.trans hp'
  | analyzed hs' _ htext' =>
    cases hs.unique hs'
    cases htext.symm.trans htext'
    refine ⟨_, ?_, rfl⟩
    rw [List.forall₂_map_right_iff, List.forall₂_same]
    exact fun p _ => p.gives_text _

end Ends

private def homeVariable : Environment := fun name => if name = "HOME" then some "/h" else none

private def homeDirectories : Directories := { home? := some "/h", settings? := some "/h/.config" }

private def inputAndSettings : World where
  files := ⟨["w"], [(["w"], .directory), (["w", "x"], .file "1".toUTF8), (["h"], .directory),
    (["h", ".config"], .directory), (["h", ".config", "analizador"], .directory),
    (["h", ".config", "analizador", "analizador.toml"], .file "input = \"y\"".toUTF8)]⟩

private def emittingArguments : List String := ["-vor", "--emit=rules", "x", "--emit", "tokens"]

private def emittingOptions : Options :=
  { input := some "x", outputDir := some "r", verbose := true, emit := [.rules, .tokens] }

end Pdl.CommandLine
