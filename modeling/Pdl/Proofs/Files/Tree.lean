import Pdl.Files.Tree

/-!
# Files that are written

A path leads through directories only.  So where it leads depends on the directories of
a tree alone (`SameDirectories.walk`), and no file that is written changes that for any
path (`SameDirectories.of_set`).

`IsTarget` says at which location a path names a file that can be made or replaced.  What
is written there is read back (`readText_set`), and no other file changes
(`content?_set`).  The file has the last name of the path (`IsTarget.getLast?_eq`), so
different names of a directory are those of different files.
-/

namespace Pdl

theorem exists_of_bind_eq_ok {ε α β : Type} {x : Except ε α} {f : α → Except ε β} {b : β}
    (h : x >>= f = .ok b) : ∃ a, x = .ok a ∧ f a = .ok b := by
  cases x with
  | error e => cases h
  | ok a => exact ⟨a, rfl, h⟩

theorem ite_error_eq_ok_iff {ε α : Type} {c : Prop} [Decidable c] {e : ε} {x : Except ε α}
    {a : α} : (if c then .error e else x) = .ok a ↔ ¬ c ∧ x = .ok a := by
  by_cases h : c
  · simp [h]
  · simp [h]

namespace Path

theorem names_append_slash (p q : Path) : names (p ++ "/" ++ q) = names p ++ names q := by
  have hpath : (p ++ "/" ++ q).toList = p.toList ++ '/' :: q.toList := by simp
  rw [names, hpath, splitAtChar_append, List.filter_append, List.map_append]
  rfl

theorem names_join (p : Path) (name : String) : names (p.join name) = names p ++ names name := by
  rw [join]
  split
  · rename_i h
    rw [Bool.or_eq_true, decide_eq_true_iff] at h
    rcases h with rfl | hslash
    · rw [String.empty_append]
      rfl
    · -- The slash at the end stands for the one between the two.
      rw [endsWithSlash, beq_iff_eq] at hslash
      obtain ⟨ds, hds⟩ := List.getLast?_eq_some_iff.1 hslash
      obtain rfl : p = String.ofList ds ++ "/" := by
        rw [← String.toList_inj, hds]
        simp
      have hends := names_append_slash (String.ofList ds) ""
      rw [String.append_empty, show names "" = [] from rfl, List.append_nil] at hends
      rw [names_append_slash, hends]
  · exact names_append_slash p name

end Path

namespace FileTree

section

variable {t u : FileTree} {p : Path} {l k : Location} {content : ByteArray}

/-! ## Walks that succeed -/

theorem walk_cons_eq_ok_iff {n : String} {ns : List String} : t.walk l (n :: ns) = .ok k ↔
    t.find? l = some .directory ∧ ¬ 255 < n.utf8ByteSize ∧ t.walk (step l n) ns = .ok k := by
  rw [walk]
  split <;> simp_all [ite_error_eq_ok_iff]

theorem exists_step_of_walk {ns : List String} {n : String}
    (h : t.walk l (ns ++ [n]) = .ok k) : ∃ j, k = step j n := by
  induction ns generalizing l with
  | nil =>
    obtain ⟨-, -, h⟩ := walk_cons_eq_ok_iff.1 h
    cases h
    exact ⟨l, rfl⟩
  | cons m ns ih => exact ih (walk_cons_eq_ok_iff.1 h).2.2

theorem resolve_eq_ok_iff : t.resolve p = .ok l ↔
    ¬ p.toList.contains '\x00' ∧ ¬ p = "" ∧ ¬ 4095 < p.utf8ByteSize ∧
      t.walk (if p.isAbsolute then [] else t.current) p.names = .ok l := by
  simp only [resolve, walkFrom, ite_error_eq_ok_iff]

/-! ## Trees with the same directories -/

/-- Two trees that differ in their regular files at most. -/
structure SameDirectories (t u : FileTree) : Prop where
  current : u.current = t.current
  directory : ∀ l, u.find? l = some .directory ↔ t.find? l = some .directory

namespace SameDirectories

theorem refl (t : FileTree) : SameDirectories t t := ⟨rfl, fun _ => Iff.rfl⟩

theorem trans {v : FileTree} (h : SameDirectories t u) (h' : SameDirectories u v) :
    SameDirectories t v :=
  ⟨h'.current.trans h.current, fun l => (h'.directory l).trans (h.directory l)⟩

theorem symm (h : SameDirectories t u) : SameDirectories u t :=
  ⟨h.current.symm, fun l => (h.directory l).symm⟩

theorem of_set (hl : t.find? l ≠ some .directory) (content : ByteArray) :
    SameDirectories t (t.set l (.file content)) where
  current := rfl
  directory k := by
    have hroot : l ≠ [] := by
      rintro rfl
      exact hl rfl
    rw [find?_set t hroot]
    split
    · rename_i hk
      subst hk
      simp [hl]
    · exact Iff.rfl

theorem walk (h : SameDirectories t u) {ns : List String} (hwalk : t.walk l ns = .ok k) :
    u.walk l ns = .ok k := by
  induction ns generalizing l with
  | nil => exact hwalk
  | cons n ns ih =>
    obtain ⟨hl, hn, hwalk⟩ := walk_cons_eq_ok_iff.1 hwalk
    exact walk_cons_eq_ok_iff.2 ⟨(h.directory l).2 hl, hn, ih hwalk⟩

theorem resolve (h : SameDirectories t u) (hp : t.resolve p = .ok l) : u.resolve p = .ok l := by
  obtain ⟨hnul, hempty, hsize, hwalk⟩ := resolve_eq_ok_iff.1 hp
  refine resolve_eq_ok_iff.2 ⟨hnul, hempty, hsize, ?_⟩
  rw [h.current]
  exact h.walk hwalk

end SameDirectories

/-! ## Files that can be written -/

/-- A path names a file at a location that can be made or replaced. -/
structure IsTarget (t : FileTree) (p : Path) (l : Location) : Prop where
  slash : p.endsWithSlash = false
  dots : endsWithDots p = false
  resolve : t.resolve p = .ok l
  directory : t.find? l ≠ some .directory

theorem IsTarget.mono (h : t.IsTarget p l) (hsame : SameDirectories t u) : u.IsTarget p l where
  slash := h.slash
  dots := h.dots
  resolve := hsame.resolve h.resolve
  directory := mt (hsame.directory l).1 h.directory

theorem SameDirectories.isTarget_iff (h : SameDirectories t u) :
    u.IsTarget p l ↔ t.IsTarget p l :=
  ⟨fun htarget => htarget.mono h.symm, fun htarget => htarget.mono h⟩

theorem IsTarget.ne_root (h : t.IsTarget p l) : l ≠ [] := by
  rintro rfl
  exact h.directory rfl

/-- A file has the last name of each path that leads to it. -/
theorem IsTarget.getLast?_eq (h : t.IsTarget p l) : l.getLast? = p.names.getLast? := by
  obtain ⟨-, -, -, hwalk⟩ := resolve_eq_ok_iff.1 h.resolve
  have hdots := h.dots
  rw [endsWithDots] at hdots
  split at hdots
  · rename_i n hlast
    rw [Bool.or_eq_false_iff, decide_eq_false_iff_not, decide_eq_false_iff_not] at hdots
    obtain ⟨ns, hns⟩ := List.getLast?_eq_some_iff.1 hlast
    rw [hns] at hwalk
    obtain ⟨j, rfl⟩ := exists_step_of_walk hwalk
    rw [step, if_neg hdots.1, if_neg hdots.2, List.getLast?_concat, hlast]
  · cases hdots

/-- Different names of a directory are those of different files. -/
theorem IsTarget.name_unique {dir : Path} {m n : String} (hm : Path.names m = [m])
    (hn : Path.names n = [n]) (hml : t.IsTarget (dir.join m) l)
    (hnl : t.IsTarget (dir.join n) l) : m = n := by
  have hlast := hml.getLast?_eq.symm.trans hnl.getLast?_eq
  simpa [Path.names_join, hm, hn] using hlast

theorem writeText_eq (h : t.IsTarget p l) (text : String) :
    t.writeText p text = .ok (t.set l (.file text.toUTF8)) := by
  have hfile : (t.find? l).any Entry.isDirectory = false := by
    have hdirectory := h.directory
    cases hfind : t.find? l with
    | none => rfl
    | some e =>
      cases e with
      | directory => exact absurd hfind hdirectory
      | file content => rfl
  rw [writeText, h.slash, if_neg (by decide), h.resolve]
  show (if endsWithDots p || (t.find? l).any Entry.isDirectory then _ else _) = _
  rw [h.dots, hfile]
  rfl

theorem exists_isTarget_of_writeText {text : String} (h : t.writeText p text = .ok u) :
    ∃ l, t.IsTarget p l := by
  rw [writeText] at h
  split at h
  · obtain ⟨l, -, h⟩ := exists_of_bind_eq_ok h
    cases h
  · rename_i hslash
    obtain ⟨l, hresolve, h⟩ := exists_of_bind_eq_ok h
    split at h
    · cases h
    · rename_i hplain
      rw [Bool.or_eq_true, not_or, Bool.not_eq_true] at hplain
      refine ⟨l, (Bool.not_eq_true _).mp hslash, hplain.1, hresolve, ?_⟩
      intro hdirectory
      exact hplain.2 (by rw [hdirectory]; rfl)

/-! ## What is read afterwards -/

theorem content?_set (hl : l ≠ []) (content : ByteArray) (k : Location) :
    (t.set l (.file content)).content? k = if k = l then some content else t.content? k := by
  rw [content?, find?_set t hl]
  by_cases hk : k = l
  · rw [if_pos hk, if_pos hk]
  · rw [if_neg hk, if_neg hk]
    rfl

theorem status_set (h : t.IsTarget p l) (content : ByteArray) :
    (t.set l (.file content)).status p = .ok (.file content) := by
  have hresolve := (SameDirectories.of_set h.directory content).resolve h.resolve
  have hfind : (t.set l (.file content)).find? l = some (.file content) := by
    rw [find?_set t h.ne_root, if_pos rfl]
  rw [status, hresolve]
  dsimp only [bind, Except.bind]
  rw [hfind]
  dsimp only
  rw [h.slash]
  rfl

theorem contains_of_readText {text : String} (h : t.readText p = .ok text) :
    t.contains p = true := by
  obtain ⟨e, he, -⟩ := exists_of_bind_eq_ok h
  rw [contains, he]
  rfl

theorem fromUTF8?_toUTF8 (text : String) : String.fromUTF8? text.toUTF8 = some text :=
  dif_pos text.isValidUTF8

theorem readText_set (h : t.IsTarget p l) (text : String) :
    (t.set l (.file text.toUTF8)).readText p = .ok text := by
  rw [readText, status_set h]
  dsimp only [bind, Except.bind]
  rw [fromUTF8?_toUTF8]
  rfl

end

end FileTree

end Pdl
