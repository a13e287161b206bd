/-
# `Zallet.Process.Identity` — `zallet generate-encryption-identity`

`commands/generate_encryption_identity.rs`.  The identity is rendered, encrypted
if that is asked for, written to a temporary file beside its destination and
synced, and then renamed without replacing what is there.  The temporary file
is removed where any of this fails, which is what dropping it does.

Nothing is locked.  A system of such commands is what the directory is, which
temporary file each of them has, and who made which file.
-/
import Zallet.Error
import Zallet.Prog.Files
import Zallet.Prog.Outcome
import Zallet.Prog.Parties

namespace Zallet.Identity

open Prog Directory
open Text (utf8)

/-! ## The operations -/

inductive IdentityOp where
  | file (op : FileOp String)
  /-- `age::x25519::Identity::generate()`, as it is written out -/
  | generate
  /-- the time, as RFC 3339 has it -/
  | createdNow
  /-- the environment variable for the passphrase -/
  | passphraseVar
  | promptPassword (prompt : String)
  | encrypt (rendered passphrase : String)
  | createDirAll (path : String)
  /-- `NamedTempFile::new_in(parent)` -/
  | newTempIn (parent : String)
  | writeStdout (bytes : List UInt8)
  | flushStdout
  | printStderr (line : String)
  deriving DecidableEq, Repr

abbrev IdentityOp.Ans : IdentityOp → Type
  | .file op => op.Ans
  | .generate => String
  | .createdNow | .passphraseVar => Option String
  | .promptPassword _ => Except String String
  | .encrypt _ _ => Except String (List UInt8)
  | .createDirAll _ => Except IoError Unit
  | .newTempIn _ => Except IoError (String × Nat)
  | .writeStdout _ | .flushStdout => Except String Unit
  | .printStderr _ => Unit

abbrev identitySig : Sig := ⟨IdentityOp, IdentityOp.Ans⟩

abbrev IdentityProg := Prog identitySig Error

/-- What is used of `age` and of `std::path`. -/
structure IdentityLib where
  toPublic : String → String
  /-- `Path::parent`, where it is not empty -/
  parent : String → Option String

structure GenerateEncryptionIdentityCmd where
  output : Option String
  passphrase : Bool
  /-- from the configuration -/
  encryptionIdentity : String
  deriving DecidableEq, Repr

/-- Where the identity is written to, if not to the standard output. -/
def GenerateEncryptionIdentityCmd.outputPath (cmd : GenerateEncryptionIdentityCmd) :
    Option String :=
  match cmd.output with
  | none => some cmd.encryptionIdentity
  | some path => if path = "-" then none else some path

/-! ## The errors -/

def writeFailed (path error : String) : Error :=
  ErrorKind.init.context ("Failed to write encryption identity to " ++ path ++ ": " ++ error)

def identityExists (path : String) : Error :=
  ErrorKind.init.context <| "An encryption identity already exists at " ++ path ++
    "; refusing to overwrite it to avoid irrecoverable key loss."

def passphraseMismatch : Error := ErrorKind.generic.context "Passphrases do not match"

/-- What a failed rename says. -/
def persistError (path : String) (e : IoError) : Error :=
  if e.kind = .alreadyExists then identityExists path else writeFailed path e.text

/-! ## The program -/

def readPassphrase : IdentityProg String := do
  let var ← ask (E := identitySig) .passphraseVar
  match var with
  | some passphrase => pure passphrase
  | none => do
      let passphrase ← query (E := identitySig)
        (.promptPassword "Enter passphrase to encrypt the identity:")
        fun a => a.mapError ErrorKind.generic.context
      let confirm ← query (E := identitySig) (.promptPassword "Confirm passphrase:")
        fun a => a.mapError ErrorKind.generic.context
      if passphrase ≠ confirm then .fail passphraseMismatch else pure passphrase

section
variable (lib : IdentityLib)

/-- The identity as `rage-keygen` writes it. -/
def rendered (created : Option String) (identity : String) : String :=
  created.elim "" (fun created => "# created: " ++ created ++ "\n") ++
    "# public key: " ++ lib.toPublic identity ++ "\n" ++ identity ++ "\n"

def encodeIdentity (identity : String) (passphrase : Option String) :
    IdentityProg (List UInt8) := do
  let created ← ask (E := identitySig) .createdNow
  match passphrase with
  | some passphrase =>
      query (E := identitySig) (.encrypt (rendered lib created identity) passphrase)
        fun a => a.mapError ErrorKind.generic.context
  | none => pure (utf8 (rendered lib created identity))

/-- The temporary file is dropped. -/
def dropTemp (temp : String) : IdentityProg Unit := do
  let _ ← ask (E := identitySig) (.file (.removeFile temp))
  pure ()

/-- `p`, and if it fails then the temporary file is dropped. -/
def orDrop (temp : String) (p : IdentityProg Unit) : IdentityProg Unit :=
  p.attempt.bind fun
    | .ok () => .ret ()
    | .error e => (dropTemp temp).bind fun () => .fail e

/-- The temporary file, from its mode to its new name. -/
def fillTemp (path temp : String) (fd : Nat) (body : List UInt8) : IdentityProg Unit := do
  query (E := identitySig) (.file (.setPermissions fd ownerOnly))
    fun a => a.mapError fun e => writeFailed path e.text
  (writeAll (E := identitySig) (fun rest => .file (.write fd rest)) (fun _ a => a) body).mapErr
    fun e => writeFailed path e.text
  query (E := identitySig) (.file (.syncAll fd)) fun a => a.mapError fun e => writeFailed path e.text
  query (E := identitySig) (.file (.renameNoclobber temp path))
    fun a => a.mapError (persistError path)

def writeIdentityFile (path : String) (body : List UInt8) : IdentityProg Unit := do
  let (temp, fd) ← query (E := identitySig) (.newTempIn ((lib.parent path).getD "."))
    fun a => a.mapError fun e => writeFailed path e.text
  orDrop temp (fillTemp path temp fd body)

/-- The directory of the file is made if it is not there. -/
def createParent (path : String) : IdentityProg Unit :=
  match lib.parent path with
  | none => pure ()
  | some parent =>
      query (E := identitySig) (.createDirAll parent)
        fun a => a.mapError fun e => writeFailed path e.text

/-- The file and what is said about it. -/
def writeOut (path : String) (identity : String) (body : List UInt8) : IdentityProg Unit := do
  createParent lib path
  writeIdentityFile lib path body
  ask (E := identitySig) (.printStderr ("Encryption identity written to " ++ path))
  ask (E := identitySig) (.printStderr ("Public key: " ++ lib.toPublic identity))

def printOut (body : List UInt8) : IdentityProg Unit := do
  query (E := identitySig) (.writeStdout body) fun a => a.mapError ErrorKind.generic.context
  query (E := identitySig) .flushStdout fun a => a.mapError ErrorKind.generic.context

/-- A passphrase, if the identity is to be encrypted. -/
def askPassphrase (cmd : GenerateEncryptionIdentityCmd) : IdentityProg (Option String) :=
  if cmd.passphrase then some <$> readPassphrase else pure none

/-- `GenerateEncryptionIdentityCmd::run` -/
def generateEncryptionIdentity (cmd : GenerateEncryptionIdentityCmd) : IdentityProg Unit := do
  let identity ← ask (E := identitySig) .generate
  let passphrase ← askPassphrase cmd
  let body ← encodeIdentity lib identity passphrase
  match cmd.outputPath with
  | some path => writeOut lib path identity body
  | none => printOut body

end

/-! ## Several commands -/

structure State (ι : Type) where
  dir : Dir String
  temp : ι → Option (String × Nat)
  maker : Nat → Option ι

/-- What is known of the surroundings: what encrypts what, and which names temporary files have. -/
structure Surroundings where
  encrypts : (passphrase rendered : String) → List UInt8 → Prop
  isTemp : String → Prop

/-- A command has its temporary file no more, once it is renamed or dropped. -/
def gives : (op : FileOp String) → op.Ans → Bool
  | .renameNoclobber _ _, .ok () => true
  | .removeFile _, _ => true
  | _, _ => false

section
variable {ι : Type} [DecidableEq ι] (env : Surroundings)

/-- The temporary file that a command has made. -/
def State.made (s : State ι) (i : ι) (name : String) (fd : Nat) (d : Dir String) : State ι where
  dir := d
  temp := Function.update s.temp i (some (name, fd))
  maker := Function.update s.maker fd (some i)

/-- How a command is answered. -/
def identityStep (i : ι) (s : State ι) : (op : IdentityOp) → op.Ans → State ι → Prop
  | .file op, a, s' => ∃ d, fileStep s.dir op a d ∧
      s' = ⟨d, if gives op a then Function.update s.temp i none else s.temp, s.maker⟩
  | .newTempIn _, .ok (name, fd), s' => env.isTemp name ∧
      ∃ d, NewFile s.dir d name ownerOnly fd ∧ s' = s.made i name fd d
  | .encrypt rendered passphrase, .ok body, s' => env.encrypts passphrase rendered body ∧ s' = s
  | _, _, s' => s' = s

end

/-- An identity that is generated is one of these. -/
def Offers (own : String → Prop) : (op : IdentityOp) → op.Ans → Prop
  | .generate, identity => own identity
  | _, _ => True

/-- What a command may write: an identity of its own, encrypted if that is asked for. -/
def IsBody (lib : IdentityLib) (env : Surroundings) (cmd : GenerateEncryptionIdentityCmd)
    (own : String → Prop) (body : List UInt8) : Prop :=
  ∃ created identity, own identity ∧
    if cmd.passphrase then ∃ passphrase, env.encrypts passphrase (rendered lib created identity) body
    else body = utf8 (rendered lib created identity)

end Zallet.Identity
