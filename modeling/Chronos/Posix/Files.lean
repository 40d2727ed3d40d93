import Mathlib.Data.List.TakeWhile
import Mathlib.Logic.Function.Basic
import Mathlib.Tactic.Common

namespace Posix

/-!
# Paths and files

Absolute paths are lists of components, and a file tree says what is where; whatever is somewhere is in
a directory.

* `basename`, `resolve` — the last component of a text, and the path a text leads to from a directory.
* `FileTree.makeDirs`, `FileTree.write` — directories and files are made, with what they leave alone.
-/

abbrev Path := List (List Char)

/-! ### Paths -/

/-- The last component; slashes at the end do not count. -/
def basename (text : List Char) : List Char :=
  ((text.reverse.dropWhile fun c => decide (c = '/')).takeWhile fun c => decide (c ≠ '/')).reverse

/-- One component further: `.` and an empty component stay, `..` goes up. -/
def push (dir : Path) (component : List Char) : Path :=
  if component = [] ∨ component = ['.'] then dir
  else if component = ['.', '.'] then dir.dropLast
  else dir ++ [component]

/-- Where a text leads to from a directory. -/
def resolve (dir : Path) (text : List Char) : Path := (text.splitOn '/').foldl push dir

/-- The name of a file in its directory. -/
structure FileName (name : List Char) : Prop where
  nonempty : name ≠ []
  dot : name ≠ ['.']
  dots : name ≠ ['.', '.']
  slash : '/' ∉ name

theorem slash_notMem_basename (text : List Char) : '/' ∉ basename text := by
  intro h
  have hkept := List.mem_takeWhile_imp (List.mem_reverse.mp h)
  simp at hkept

/-- A text without slashes leads to a file of the directory, to the directory, or up. -/
theorem resolve_component {dir : Path} {name : List Char} (h : '/' ∉ name) :
    (FileName name ∧ resolve dir name = dir ++ [name]) ∨ resolve dir name = dir ∨
      resolve dir name = dir.dropLast := by
  have hsplit : resolve dir name = push dir name := by
    unfold resolve
    rw [List.splitOn_eq_singleton h]
    rfl
  rw [hsplit]
  unfold push
  split
  · exact Or.inr (Or.inl rfl)
  · next hstay =>
    split
    · exact Or.inr (Or.inr rfl)
    · next hup =>
      exact Or.inl ⟨⟨fun hnil => hstay (Or.inl hnil), fun hdot => hstay (Or.inr hdot), hup, h⟩, rfl⟩

/-! ### Files -/

inductive Node
  | directory
  | file (bytes : List UInt8)
  deriving DecidableEq

/-- A tree of files, without links. -/
structure FileTree where
  node : Path → Option Node
  root : node [] = some .directory
  parent : ∀ dir name, node (dir ++ [name]) ≠ none → node dir = some .directory

namespace FileTree

variable {t t' : FileTree} {dir path : Path} {name : List Char}

/-- The directory of what exists is a directory. -/
theorem node_dropLast (h : t.node path ≠ none) (hpath : path ≠ []) :
    t.node path.dropLast = some .directory := by
  refine t.parent path.dropLast (path.getLast hpath) ?_
  rwa [List.dropLast_concat_getLast hpath]

/-- The tree with something new, or a file for a file, in a directory. -/
def put (t : FileTree) (path : Path) (n : Node) (hpath : path ≠ [])
    (hdir : t.node path.dropLast = some .directory) (hnew : t.node path ≠ some .directory) : FileTree where
  node := Function.update t.node path (some n)
  root := by rw [Function.update_of_ne (Ne.symm hpath), t.root]
  parent dir name h := by
    by_cases heq : dir ++ [name] = path
    · have hdirs : dir = path.dropLast := by rw [← heq, List.dropLast_concat]
      have hne : dir ≠ path := fun hdir => by
        have hlength := congrArg List.length (heq.trans hdir.symm)
        simp at hlength
      rw [Function.update_of_ne hne, hdirs, hdir]
    · rw [Function.update_of_ne heq] at h
      have hparent := t.parent dir name h
      have hne : dir ≠ path := by
        rintro rfl
        exact hnew hparent
      rw [Function.update_of_ne hne, hparent]

/-- `writeFileSync`: the file is made, or replaced. -/
def write (t : FileTree) (path : Path) (bytes : List UInt8) : Option FileTree :=
  if h : path ≠ [] ∧ t.node path.dropLast = some .directory ∧ t.node path ≠ some .directory then
    some (t.put path (.file bytes) h.1 h.2.1 h.2.2)
  else none

/-- `mkdirSync` with `recursive`, from directory `dir` on. -/
def makeDirs (t : FileTree) (dir : Path) (hdir : t.node dir = some .directory) :
    List (List Char) → Option FileTree
  | [] => some t
  | name :: names =>
    match h : t.node (dir ++ [name]) with
    | some .directory => t.makeDirs (dir ++ [name]) h names
    | some (.file _) => none
    | none =>
      (t.put (dir ++ [name]) .directory (by simp) (by rwa [List.dropLast_concat])
        (by rw [h]; nofun)).makeDirs (dir ++ [name]) (Function.update_self ..) names

@[simp] theorem node_put {n : Node} {hpath : path ≠ []} {hdir : t.node path.dropLast = some .directory}
    {hnew : t.node path ≠ some .directory} :
    (t.put path n hpath hdir hnew).node = Function.update t.node path (some n) := rfl

/-- **A write** changes one file, and is into a directory. -/
theorem write_eq_some {bytes : List UInt8} (h : t.write path bytes = some t') :
    t'.node = Function.update t.node path (some (.file bytes)) ∧ t.node path ≠ some .directory := by
  unfold write at h
  split at h
  · next hfile =>
    rw [← Option.some.inj h]
    exact ⟨rfl, hfile.2.2⟩
  · cases h

/-- **New directories** are on the way. -/
theorem makeDirs_eq_some {hdir : t.node dir = some .directory} {names : List (List Char)}
    (h : t.makeDirs dir hdir names = some t') :
    t'.node (dir ++ names) = some .directory ∧ ∀ p, t'.node p = t.node p ∨
      (t.node p = none ∧ t'.node p = some .directory ∧ p <+: dir ++ names) := by
  induction names generalizing t dir with
  | nil =>
    obtain rfl := Option.some.inj h
    exact ⟨by rwa [List.append_nil], fun p => Or.inl rfl⟩
  | cons name names ih =>
    have hassoc : dir ++ name :: names = dir ++ [name] ++ names := by simp
    unfold makeDirs at h
    rw [hassoc]
    split at h
    · exact ih h
    · cases h
    · next hnone =>
      obtain ⟨hmade, hframe⟩ := ih h
      refine ⟨hmade, fun p => ?_⟩
      rw [node_put] at hframe
      by_cases hp : p = dir ++ [name]
      · -- The directory that has just been made.
        subst hp
        refine Or.inr ⟨hnone, ?_, List.prefix_append _ _⟩
        rcases hframe (dir ++ [name]) with hsame | ⟨-, hnew, -⟩
        · rw [hsame, Function.update_self]
        · exact hnew
      · have hother := hframe p
        rwa [Function.update_of_ne hp] at hother

end FileTree

end Posix
