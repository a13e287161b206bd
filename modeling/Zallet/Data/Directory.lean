/-
# `Zallet.Data.Directory` — names of files, and the files

A directory gives names to files, and a name goes from one file to another: a
file that is renamed over another takes its name, and whoever has the other
file open goes on writing to what has no name any more.  So names and files are
told apart.  No file has two names here (`Dir.single`), which is how one knows
that writing to the file of one name leaves the files of all others alone.
-/
import Mathlib.Data.List.Basic
import Mathlib.Logic.Function.Basic
import Mathlib.Tactic.Common

namespace Directory

/-- `synced` is whether the bytes are on the disk. -/
structure File where
  mode : UInt16
  bytes : List UInt8
  synced : Bool
  deriving DecidableEq, Repr

/-- The file that bytes are added to. -/
def File.append (file : File) (bytes : List UInt8) : File :=
  ⟨file.mode, file.bytes ++ bytes, false⟩

/-- A directory, and the files that were ever made in it, each known by its place in the list. -/
structure Dir (Name : Type) where
  names : Name → Option Nat
  files : List File
  named : ∀ {p : Name} {n : Nat}, names p = some n → n < files.length
  single : ∀ {p q : Name} {n : Nat}, names p = some n → names q = some n → p = q

namespace Dir

variable {Name : Type} (d : Dir Name) {p q : Name} {n m : Nat}

/-! ## What is done to a file -/

def empty : Dir Name where
  names _ := none
  files := []
  named h := nomatch h
  single h := nomatch h

def file? (n : Nat) : Option File := d.files[n]?

/-- The file of a name. -/
def read (p : Name) : Option File := (d.names p).bind d.file?

theorem read_eq_some {file : File} :
    d.read p = some file ↔ ∃ n, d.names p = some n ∧ d.file? n = some file :=
  Option.bind_eq_some_iff

/-- A name stands for a file that is there. -/
theorem file?_isSome (h : d.names p = some n) : ∃ file, d.file? n = some file :=
  ⟨_, List.getElem?_eq_getElem (d.named h)⟩

theorem named_modify (n : Nat) (f : File → File) (h : d.names p = some m) :
    m < (d.files.modify n f).length := by
  rw [List.length_modify]
  exact d.named h

/-- Change a file, under whatever name. -/
def change (n : Nat) (f : File → File) : Dir Name where
  names := d.names
  files := d.files.modify n f
  named h := d.named_modify n f h
  single h h' := d.single h h'

def append (n : Nat) (bytes : List UInt8) : Dir Name :=
  d.change n (·.append bytes)

def chmod (n : Nat) (mode : UInt16) : Dir Name :=
  d.change n fun file => { file with mode }

def sync (n : Nat) : Dir Name := d.change n fun file => { file with synced := true }

@[simp] theorem names_change {f : File → File} : (d.change n f).names = d.names := rfl

@[simp] theorem length_change {f : File → File} :
    (d.change n f).files.length = d.files.length := List.length_modify ..

theorem file?_change {f : File → File} :
    (d.change n f).file? m = if m = n then (d.file? m).map f else d.file? m := by
  show (d.files.modify n f)[m]? = _
  rw [List.getElem?_modify, file?]
  by_cases hm : m = n
  · simp only [hm, if_true, Option.map_eq_map]
  · simp only [if_neg hm, if_neg (Ne.symm hm), Option.map_eq_map, Option.map_id']

theorem file?_change_ne {f : File → File} (h : m ≠ n) : (d.change n f).file? m = d.file? m := by
  rw [file?_change, if_neg h]

theorem file?_change_self {f : File → File} {file : File} (h : d.file? n = some file) :
    (d.change n f).file? n = some (f file) := by
  rw [file?_change, if_pos rfl, h]
  rfl

/-! ## What is done to a name -/

variable [DecidableEq Name]

theorem named_remove (h : Function.update d.names p none q = some n) : d.names q = some n := by
  rw [Function.update_apply] at h
  split at h
  · cases h
  · exact h

def remove (p : Name) : Dir Name where
  names := Function.update d.names p none
  files := d.files
  named h := d.named (d.named_remove h)
  single h h' := d.single (d.named_remove h) (d.named_remove h')

theorem named_create (h : Function.update d.names p (some d.files.length) q = some n) :
    q = p ∧ n = d.files.length ∨ q ≠ p ∧ d.names q = some n := by
  rw [Function.update_apply] at h
  split at h
  case isTrue hq => exact .inl ⟨hq, (Option.some.inj h).symm⟩
  case isFalse hq => exact .inr ⟨hq, h⟩

theorem named_create_lt (h : Function.update d.names p (some d.files.length) q = some n)
    (file : File) : n < (d.files ++ [file]).length := by
  rw [List.length_append, List.length_singleton]
  rcases d.named_create h with ⟨-, rfl⟩ | ⟨-, hq⟩
  · exact Nat.lt_succ_self _
  · exact Nat.lt_succ_of_lt (d.named hq)

theorem single_create {q' : Name}
    (h : Function.update d.names p (some d.files.length) q = some n)
    (h' : Function.update d.names p (some d.files.length) q' = some n) : q = q' := by
  rcases d.named_create h with ⟨rfl, rfl⟩ | ⟨-, hq⟩
  · rcases d.named_create h' with ⟨rfl, -⟩ | ⟨-, hq'⟩
    · rfl
    · exact absurd (d.named hq') (Nat.lt_irrefl _)
  · rcases d.named_create h' with ⟨rfl, rfl⟩ | ⟨-, hq'⟩
    · exact absurd (d.named hq) (Nat.lt_irrefl _)
    · exact d.single hq hq'

/-- A new and empty file; a file that had the name has none then. -/
def create (p : Name) (mode : UInt16) : Dir Name where
  names := Function.update d.names p (some d.files.length)
  files := d.files ++ [⟨mode, [], false⟩]
  named h := d.named_create_lt h _
  single h h' := d.single_create h h'

theorem named_rename {r : Name}
    (h : Function.update (Function.update d.names q (d.names p)) p none r = some n) :
    r = q ∧ d.names p = some n ∨ r ≠ q ∧ r ≠ p ∧ d.names r = some n := by
  rw [Function.update_apply, Function.update_apply] at h
  by_cases hp : r = p
  · rw [if_pos hp] at h
    cases h
  · rw [if_neg hp] at h
    by_cases hq : r = q
    · rw [if_pos hq] at h
      exact .inl ⟨hq, h⟩
    · rw [if_neg hq] at h
      exact .inr ⟨hq, hp, h⟩

theorem named_rename_lt {r : Name}
    (h : Function.update (Function.update d.names q (d.names p)) p none r = some n) :
    n < d.files.length := by
  rcases d.named_rename h with ⟨-, hp⟩ | ⟨-, -, hr⟩
  · exact d.named hp
  · exact d.named hr

theorem single_rename {r r' : Name}
    (h : Function.update (Function.update d.names q (d.names p)) p none r = some n)
    (h' : Function.update (Function.update d.names q (d.names p)) p none r' = some n) :
    r = r' := by
  rcases d.named_rename h with ⟨rfl, hp⟩ | ⟨-, hne, hr⟩
  · rcases d.named_rename h' with ⟨rfl, -⟩ | ⟨-, hne', hr'⟩
    · rfl
    · exact absurd (d.single hr' hp) hne'
  · rcases d.named_rename h' with ⟨rfl, hp⟩ | ⟨-, -, hr'⟩
    · exact absurd (d.single hr hp) hne
    · exact d.single hr hr'

/-- The file of the name `p` takes the name `q`, which another name than `p` is. -/
def rename (p q : Name) : Dir Name where
  names := Function.update (Function.update d.names q (d.names p)) p none
  files := d.files
  named h := d.named_rename_lt h
  single h h' := d.single_rename h h'

@[simp] theorem names_remove : (d.remove p).names q = if q = p then none else d.names q :=
  Function.update_apply ..

@[simp] theorem file?_remove : (d.remove p).file? n = d.file? n := rfl

@[simp] theorem length_remove : (d.remove p).files.length = d.files.length := rfl

@[simp] theorem names_create {mode : UInt16} :
    (d.create p mode).names q = if q = p then some d.files.length else d.names q :=
  Function.update_apply ..

theorem file?_create {mode : UInt16} :
    (d.create p mode).file? n = if n = d.files.length then some ⟨mode, [], false⟩ else d.file? n := by
  show (d.files ++ [(⟨mode, [], false⟩ : File)])[n]? = _
  by_cases hn : n = d.files.length
  · rw [if_pos hn, hn, List.getElem?_concat_length]
  · rw [if_neg hn, file?]
    rcases Nat.lt_or_gt_of_ne hn with hlt | hgt
    · exact List.getElem?_append_left hlt
    · rw [List.getElem?_eq_none (Nat.le_of_lt hgt), List.getElem?_eq_none]
      rw [List.length_append, List.length_singleton]
      exact hgt

theorem names_rename {r : Name} : (d.rename p q).names r =
    if r = p then none else if r = q then d.names p else d.names r := by
  show Function.update (Function.update d.names q (d.names p)) p none r = _
  rw [Function.update_apply, Function.update_apply]

@[simp] theorem file?_rename : (d.rename p q).file? n = d.file? n := rfl

@[simp] theorem length_rename : (d.rename p q).files.length = d.files.length := rfl

end Dir

end Directory
