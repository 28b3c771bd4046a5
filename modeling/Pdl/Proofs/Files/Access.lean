import Pdl.Files.Access
import Pdl.Proofs.Files.Tree

/-!
# Programs that work with files

Making directories keeps every regular file (`keepsFiles_makeDirectories`), whether it
succeeds or not.  The argument is made once for each way to put programs together
(`KeepsFiles.bind`), so that a program keeps the files if its operations do.
-/

namespace Pdl

/-- What follows an operation goes on from its outcome. -/
theorem bind_of_eq {σ α β : Type} {x : StateM σ α} {s s' : σ} {a : α} (h : x s = (a, s'))
    (f : α → StateM σ β) : (x >>= f) s = f a s' := by
  show f (x s).1 (x s).2 = _
  rw [h]

namespace FileTree

variable {α β : Type}

/-- The program leaves every regular file as it was. -/
def KeepsFiles (x : StateM FileTree α) : Prop := ∀ t l, (x t).2.content? l = t.content? l

namespace KeepsFiles

theorem pure (a : α) : KeepsFiles (Pure.pure a) := fun _ _ => rfl

theorem bind {x : StateM FileTree α} {f : α → StateM FileTree β} (hx : KeepsFiles x)
    (hf : ∀ a, KeepsFiles (f a)) : KeepsFiles (x >>= f) :=
  fun t l => (hf (x t).1 (x t).2 l).trans (hx t l)

end KeepsFiles

theorem keepsFiles_isDirectory (p : Path) :
    KeepsFiles (FileAccess.isDirectory p : StateM FileTree Bool) := fun _ _ => rfl

theorem content?_makeDirectory {t u : FileTree} {p : Path} (h : t.makeDirectory p = .ok u)
    (k : Location) : u.content? k = t.content? k := by
  obtain ⟨l, -, h⟩ := exists_of_bind_eq_ok h
  split at h
  · cases h
  · rename_i hnew
    cases h
    rw [Bool.or_eq_true, not_or, Option.not_isSome_iff_eq_none] at hnew
    have hroot : l ≠ [] := by
      rintro rfl
      cases hnew.2
    rw [content?, content?, find?_set t hroot]
    by_cases hk : k = l
    · rw [if_pos hk, hk, hnew.2]
    · rw [if_neg hk]

theorem keepsFiles_makeDirectory (p : Path) :
    KeepsFiles (FileAccess.makeDirectory p : StateM FileTree _) := by
  intro t l
  show (attempt (·.makeDirectory p) t).2.content? l = _
  rw [attempt]
  split
  · rename_i h
    exact content?_makeDirectory h l
  · rfl

theorem keepsFiles_settle (p : Path) (r : Except FileError Unit) :
    KeepsFiles (makeFirst.settle p r) := by
  cases r with
  | ok => exact .pure _
  | error e =>
    refine (keepsFiles_isDirectory p).bind fun there => ?_
    cases there <;> exact .pure _

theorem keepsFiles_makeFirst (ps : List Path) : KeepsFiles (makeFirst ps) := by
  induction ps with
  | nil => exact .pure _
  | cons p ps ih =>
    rw [makeFirst]
    split
    · exact .pure _
    refine (keepsFiles_makeDirectory p).bind fun r => ?_
    split
    · exact .pure _
    · refine ih.bind fun r => ?_
      split
      · exact .pure _
      · exact (keepsFiles_makeDirectory p).bind (keepsFiles_settle p)
    · exact keepsFiles_settle p _

theorem keepsFiles_makeDirectories (p : Path) : KeepsFiles (makeDirectories p) :=
  keepsFiles_makeFirst p.ancestors

theorem run_writeText {t : FileTree} {p : Path} {l : Location} (h : t.IsTarget p l)
    (text : String) : (FileAccess.writeText p text : StateM FileTree _) t
      = (.ok (), t.set l (.file text.toUTF8)) := by
  show attempt (·.writeText p text) t = _
  rw [attempt, writeText_eq h]

theorem run_writeText_error {t : FileTree} {p : Path} (h : ¬ ∃ l, t.IsTarget p l)
    (text : String) : ∃ e, t.writeText p text = .error e ∧
      (FileAccess.writeText p text : StateM FileTree _) t = (.error e, t) := by
  cases hwrite : t.writeText p text with
  | ok u => exact absurd (exists_isTarget_of_writeText hwrite) h
  | error e =>
    refine ⟨e, rfl, ?_⟩
    show attempt (·.writeText p text) t = _
    rw [attempt, hwrite]

/-- A file can be made or replaced at `p` once `dir` and the directories above it are made. -/
def Accepts (t : FileTree) (dir p : Path) : Prop :=
  ∃ u, (makeDirectories dir : StateM FileTree _) t = (.ok (), u) ∧ ∃ l, u.IsTarget p l

theorem accepts_iff {t u : FileTree} {dir p : Path}
    (hmake : (makeDirectories dir : StateM FileTree _) t = (.ok (), u)) :
    t.Accepts dir p ↔ ∃ l, u.IsTarget p l := by
  constructor
  · rintro ⟨u', hmake', htarget⟩
    rw [hmake] at hmake'
    cases hmake'
    exact htarget
  · exact fun htarget => ⟨u, hmake, htarget⟩

theorem not_accepts {t u : FileTree} {dir : Path} {e : FileError}
    (hmake : (makeDirectories dir : StateM FileTree _) t = (.error e, u)) (p : Path) :
    ¬ t.Accepts dir p := by
  rintro ⟨u', hmake', -⟩
  rw [hmake] at hmake'
  cases hmake'

end FileTree

end Pdl
