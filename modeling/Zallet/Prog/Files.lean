/-
# `Zallet.Prog.Files` — programs that use files

The operations on the files of a directory, and what they are answered with
(`fileStep`): any of them may fail, and one that fails has done nothing.  A
`write` may take less than it is given, so `writeAll` asks again until nothing
is left; a program that stops in it has written a part.  `wp_writeAll` is the
rule for it, with an invariant of what has been written.
-/
import Zallet.Prog.Wp
import Zallet.Data.Directory
import Zallet.Data.Text

namespace Prog

open Directory

/-! ## The operations -/

inductive IoErrorKind where
  | notFound
  | alreadyExists
  | interrupted
  | writeZero
  | other
  deriving DecidableEq, Repr

structure IoError where
  kind : IoErrorKind
  text : String
  deriving DecidableEq, Repr

inductive FileOp (Name : Type) where
  | createNew (name : Name) (mode : UInt16)
  /-- a new file with a name of the environment's choice, for the owner only -/
  | createTemp
  | write (fd : Nat) (bytes : List UInt8)
  | setPermissions (fd : Nat) (mode : UInt16)
  | syncAll (fd : Nat)
  | removeFile (name : Name)
  | rename (src dst : Name)
  /-- a rename that does not replace a file -/
  | renameNoclobber (src dst : Name)
  | readToString (name : Name)
  deriving DecidableEq, Repr

section
variable {Name : Type}

abbrev FileOp.Ans : FileOp Name → Type
  | .createNew _ _ => Except IoError Nat
  | .createTemp => Except IoError (Name × Nat)
  | .write _ _ => Except IoError Nat
  | .setPermissions _ _ => Except IoError Unit
  | .syncAll _ => Except IoError Unit
  | .removeFile _ => Except IoError Unit
  | .rename _ _ => Except IoError Unit
  | .renameNoclobber _ _ => Except IoError Unit
  | .readToString _ => Except IoError String

def ownerOnly : UInt16 := 0o600

/-- A new file has the mode that is asked for, less what the process masks. -/
def NewFile [DecidableEq Name] (d d' : Dir Name) (name : Name) (mode : UInt16) (fd : Nat) : Prop :=
  d.names name = none ∧ fd = d.files.length ∧ ∃ umask : UInt16, d' = d.create name (mode &&& ~~~umask)

/-- How a directory answers. -/
def fileStep [DecidableEq Name] (d : Dir Name) : (op : FileOp Name) → op.Ans → Dir Name → Prop
  | .createNew name mode, .ok fd, d' => NewFile d d' name mode fd
  | .createTemp, .ok (name, fd), d' => NewFile d d' name ownerOnly fd
  | .write fd bytes, .ok n, d' => n ≤ bytes.length ∧ d' = d.append fd (bytes.take n)
  | .setPermissions fd mode, .ok (), d' => d' = d.chmod fd mode
  | .syncAll fd, .ok (), d' => d' = d.sync fd
  | .removeFile name, .ok (), d' => (d.names name).isSome ∧ d' = d.remove name
  | .removeFile name, .error e, d' => (e.kind = .notFound → d.names name = none) ∧ d' = d
  | .rename src dst, .ok (), d' => (d.names src).isSome ∧ d' = d.rename src dst
  | .renameNoclobber src dst, .ok (), d' =>
      (d.names src).isSome ∧ d.names dst = none ∧ d' = d.rename src dst
  | .renameNoclobber _ dst, .error e, d' =>
      (e.kind = .alreadyExists → (d.names dst).isSome) ∧ d' = d
  | .readToString name, .ok text, d' =>
      (∃ file, d.read name = some file ∧ Text.fromUtf8 file.bytes = some text) ∧ d' = d
  | _, _, d' => d' = d

end

/-- A directory that does what is asked where it can be done, with names for temporary files. -/
def fileAnswer {Name : Type} [DecidableEq Name] (fresh : Dir Name → Name) (d : Dir Name) :
    (op : FileOp Name) → op.Ans × Dir Name
  | .createNew name mode =>
      if d.names name = none then (.ok d.files.length, d.create name mode)
      else (.error ⟨.alreadyExists, "File exists (os error 17)"⟩, d)
  | .createTemp =>
      if d.names (fresh d) = none then
        (.ok (fresh d, d.files.length), d.create (fresh d) ownerOnly)
      else (.error ⟨.alreadyExists, "too many temporary files exist"⟩, d)
  | .write fd bytes => (.ok bytes.length, d.append fd bytes)
  | .setPermissions fd mode => (.ok (), d.chmod fd mode)
  | .syncAll fd => (.ok (), d.sync fd)
  | .removeFile name =>
      if d.names name = none then (.error ⟨.notFound, "No such file or directory (os error 2)"⟩, d)
      else (.ok (), d.remove name)
  | .rename src dst =>
      if d.names src = none then (.error ⟨.notFound, "No such file or directory (os error 2)"⟩, d)
      else (.ok (), d.rename src dst)
  | .renameNoclobber src dst =>
      if d.names src = none then (.error ⟨.notFound, "No such file or directory (os error 2)"⟩, d)
      else if d.names dst = none then (.ok (), d.rename src dst)
      else (.error ⟨.alreadyExists, "File exists (os error 17)"⟩, d)
  | .readToString name =>
      match (d.read name).bind fun file => Text.fromUtf8 file.bytes with
      | some text => (.ok text, d)
      | none => (.error ⟨.other, "stream did not contain valid UTF-8"⟩, d)

theorem fileAnswer_step {Name : Type} [DecidableEq Name] (fresh : Dir Name → Name) (d : Dir Name)
    (op : FileOp Name) : fileStep d op (fileAnswer fresh d op).1 (fileAnswer fresh d op).2 := by
  have hmask : ∀ mode : UInt16, mode = mode &&& ~~~0 := fun mode => by simp
  have hsome : ∀ name, d.names name ≠ none → (d.names name).isSome = true :=
    fun name h => Option.isSome_iff_ne_none.mpr h
  cases op with
  | createNew name mode =>
      rw [fileAnswer]
      by_cases h : d.names name = none
      · rw [if_pos h]
        exact ⟨h, rfl, 0, by rw [← hmask]⟩
      · rw [if_neg h]
        rfl
  | createTemp =>
      rw [fileAnswer]
      by_cases h : d.names (fresh d) = none
      · rw [if_pos h]
        exact ⟨h, rfl, 0, by rw [← hmask]⟩
      · rw [if_neg h]
        rfl
  | write fd bytes => exact ⟨Nat.le_refl _, by rw [List.take_length]; rfl⟩
  | setPermissions fd mode => rfl
  | syncAll fd => rfl
  | removeFile name =>
      rw [fileAnswer]
      by_cases h : d.names name = none
      · rw [if_pos h]
        exact ⟨fun _ => h, rfl⟩
      · rw [if_neg h]
        exact ⟨hsome name h, rfl⟩
  | rename src dst =>
      rw [fileAnswer]
      by_cases h : d.names src = none
      · rw [if_pos h]
        rfl
      · rw [if_neg h]
        exact ⟨hsome src h, rfl⟩
  | renameNoclobber src dst =>
      rw [fileAnswer]
      by_cases h : d.names src = none
      · rw [if_pos h]
        exact ⟨(fun h => nomatch h), rfl⟩
      · rw [if_neg h]
        by_cases h' : d.names dst = none
        · rw [if_pos h']
          exact ⟨hsome src h, h', rfl⟩
        · rw [if_neg h']
          exact ⟨fun _ => hsome dst h', rfl⟩
  | readToString name =>
      rw [fileAnswer]
      cases h : (d.read name).bind fun file => Text.fromUtf8 file.bytes with
      | none => rfl
      | some text => exact ⟨Option.bind_eq_some_iff.mp h, rfl⟩

/-! ## Writing all of it -/

section
variable {E : Sig} {ε S : Type}

/-- What is still to be written after a write, if anything may be. -/
def unwritten (rest : List UInt8) : Except IoError Nat → Except IoError (List UInt8)
  | .ok 0 => .error ⟨.writeZero, "failed to write whole buffer"⟩
  | .ok n => .ok (rest.drop n)
  | .error e => if e.kind = .interrupted then .ok rest else .error e

variable (write : List UInt8 → E.Op) (answer : ∀ bytes, E.Ans (write bytes) → Except IoError Nat)

/-- One turn of `Write::write_all`, with what is still to be written. -/
def writeSome (rest : List UInt8) : Prog E IoError (List UInt8 ⊕ Unit) :=
  if rest = [] then .ret (.inr ())
  else query (write rest) fun a => (unwritten rest (answer rest a)).map .inl

/-- `Write::write_all` -/
def writeAll (bytes : List UInt8) : Prog E IoError Unit := iterate bytes (writeSome write answer)

variable {write answer} {W : World E S} {R : S → IoError → Prop} {s : S} {bytes : List UInt8}

/-- What is written grows until it is all of it. -/
theorem wp_writeAll (I : List UInt8 → S → Prop) (h₀ : I [] s)
    (hguard : ∀ written rest t, bytes = written ++ rest → I written t → W.guard t (write rest))
    (hstep : ∀ written rest t a t', bytes = written ++ rest → I written t →
      W.step t (write rest) a t' →
        Ends (fun n => I (written ++ rest.take n) t') (fun _ => I written t') (answer rest a))
    (hfail : ∀ written t e, I written t → R t e) :
    wp W (writeAll write answer bytes) (fun t _ => I bytes t) R s := by
  refine wp_iterate (fun rest t => ∃ written, bytes = written ++ rest ∧ I written t)
    ⟨[], rfl, h₀⟩ ?_
  rintro rest t ⟨written, hbytes, hI⟩
  rw [writeSome]
  by_cases hrest : rest = []
  · rw [if_pos hrest]
    rw [hrest, List.append_nil] at hbytes
    exact hbytes ▸ hI
  · rw [if_neg hrest, wp_query]
    refine ⟨hguard written rest t hbytes hI, ?_⟩
    intro a t' hs
    have hends := hstep written rest t a t' hbytes hI hs
    cases ha : answer rest a with
    | error e =>
        rw [ha] at hends
        rw [unwritten]
        by_cases he : e.kind = .interrupted
        · rw [if_pos he]
          exact ⟨written, hbytes, hends⟩
        · rw [if_neg he]
          exact hfail written t' e hends
    | ok n =>
        rw [ha] at hends
        cases n with
        | zero =>
            rw [ends_ok, List.take_zero, List.append_nil] at hends
            exact hfail written t' _ hends
        | succ n =>
            refine ⟨written ++ rest.take (n + 1), ?_, hends⟩
            rw [List.append_assoc, List.take_append_drop]
            exact hbytes

end

end Prog
