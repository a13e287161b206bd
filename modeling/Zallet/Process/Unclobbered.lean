/-
# `Zallet.Process.Unclobbered` — no identity is written over another

Each command is followed on its own, among others that may be doing the same:
it has no temporary file until its identity is rendered, and then it has one
until that is renamed or dropped.  So a file that was there stays as it was, a
file at a destination is all of one identity, and of several commands for one
destination one succeeds at most, whatever the order they go on in and wherever
they stop (`identities_unclobbered`).
-/
import Mathlib.Data.Bool.Basic
import Zallet.Process.Staged

namespace Zallet.Identity

open Prog Directory
open Text (utf8)

section
variable {ι : Type} {lib : IdentityLib} {env : Surroundings}
  {cmds : ι → GenerateEncryptionIdentityCmd} {owned : ι → String → Prop} {before s s' : State ι}
  {d : Dir String} {i j : ι}
  [DecidableEq ι]

/-! ## One command among others -/

/-- The temporary file that a command has, and what is in it. -/
structure Has (i : ι) (name : String) (fd : Nat) (P : File → Prop) (s : State ι) : Prop where
  temp : s.temp i = some (name, fd)
  maker : s.maker fd = some i
  file : ∃ file, s.dir.file? fd = some file ∧ P file

/-- The file of a command has this name. -/
def Owns (i : ι) (path : String) (s : State ι) : Prop :=
  ∃ n, s.dir.names path = some n ∧ s.maker n = some i

section
variable {name path : String} {fd : Nat} {P : File → Prop} {op : IdentityOp}
  {C : op.Ans → State ι → Prop}

omit [DecidableEq ι] in
theorem Has.stable : Stable (Leaves env i) (Has i name fd P) := by
  rintro s t hs ⟨htemp, hmaker, file, hget, hfile⟩
  obtain ⟨hmaker', hsame⟩ := hs.maker fd hmaker
  exact ⟨hs.temp.trans htemp, hmaker', file, hsame.trans hget, hfile⟩

omit [DecidableEq ι] in
theorem Owns.stable : Stable (Leaves env i) (Owns i path) := by
  rintro s t hs ⟨n, hn, hmaker⟩
  exact ⟨n, hs.names path n hn (.inl hmaker), (hs.maker n hmaker).1⟩

variable (lib env cmds owned before) in
abbrev commandWorld (i : ι) : World identitySig (State ι) :=
  (identityWorld lib env cmds owned i).among (Inv lib env cmds owned before) (Leaves env i)

/-- What a command asks that knows something the others leave alone. -/
theorem stable_step {K : State ι → Prop} (hK : Stable (Leaves env i) K) (h : K s)
    (hallowed : ∀ t, K t → Inv lib env cmds owned before t → allowed lib env cmds owned i t op)
    (hstep : ∀ t a t', K t → Inv lib env cmds owned before t → identityStep env i t op a t' →
      Offers (owned i) op a → C a t') :
    (commandWorld lib env cmds owned before i).guard s op ∧
      ∀ a t', (commandWorld lib env cmds owned before i).step s op a t' → C a t' := by
  refine ⟨fun t hs hinv => hallowed t (hK s t hs h) hinv, ?_⟩
  rintro a t' ⟨t, hs, hinv, hstep', howned⟩
  exact hstep t a t' (hK s t hs h) hinv hstep' howned

end

/-! ### Its errors -/

theorem writeFailed_ne {path other error : String} :
    writeFailed path error ≠ identityExists other := by
  intro h
  have htext := congrArg (fun e : Error => e.source.map fun text => text.toList.head?) h
  simp [writeFailed, identityExists, ErrorKind.context, String.toList_append] at htext

/-- There is a file of this name. -/
def Taken (path : String) (s : State ι) : Prop := ∃ n, s.dir.names path = some n

/-- An error that says that the file exists is right about it. -/
def Refuses (path : String) (s : State ι) (e : Error) : Prop := e = identityExists path → Taken path s

omit [DecidableEq ι] in
theorem Refuses.stable {path : String} {e : Error} (hpath : ¬ env.isTemp path) :
    Stable (Leaves env i) fun s => Refuses path s e := by
  intro s t hs h he
  obtain ⟨n, hn⟩ := h he
  exact ⟨n, hs.names path n hn (.inr hpath)⟩

omit [DecidableEq ι] in
theorem refuses_of_ne {path : String} {e : Error} (h : e ≠ identityExists path) : Refuses path s e :=
  fun he => absurd he h

/-! ### Before the file -/

/-- A command that has no temporary file. -/
def Idle (i : ι) (s : State ι) : Prop := s.temp i = none

section
variable {path : String} {cmd : GenerateEncryptionIdentityCmd}

omit [DecidableEq ι] in
theorem Idle.stable : Stable (Leaves env i) (Idle i) := fun _ _ hs h => hs.temp.trans h

/-- What changes nothing, and does not fail because a file is there. -/
theorem idle_query {op : IdentityOp} {α : Type} {f : op.Ans → Except Error α} {Q : α → Prop}
    (h : Idle i s) (hallowed : ∀ t, allowed lib env cmds owned i t op)
    (hstep : ∀ t a t', identityStep env i t op a t' →
      t' = t ∧ Ends Q (fun e => e ≠ identityExists path) (f a)) :
    wp (commandWorld lib env cmds owned before i) (query op f) (fun t b => Idle i t ∧ Q b)
      (fun t e => Refuses path t e) s := by
  rw [wp_query]
  refine stable_step Idle.stable h (fun t _ _ => hallowed t) ?_
  intro t a t' ht _ hs _
  obtain ⟨rfl, hends⟩ := hstep t a t' hs
  cases hf : f a with
  | ok b =>
      rw [hf] at hends
      exact ⟨ht, hends⟩
  | error e =>
      rw [hf] at hends
      exact refuses_of_ne hends

omit [DecidableEq ι] in
theorem generic_ne {path text : String} : ErrorKind.generic.context text ≠ identityExists path :=
  fun h => by cases congrArg Error.kind h

theorem ends_generic {α : Type} {x : Except String α} :
    Ends (fun _ => True) (fun e => e ≠ identityExists path)
      (x.mapError ErrorKind.generic.context) := by
  cases x with
  | ok a => exact trivial
  | error e => exact generic_ne

theorem wp_promptPassword {prompt : String} (h : Idle i s) :
    wp (commandWorld lib env cmds owned before i)
      (query (E := identitySig) (.promptPassword prompt) fun a =>
        a.mapError ErrorKind.generic.context)
      (fun t _ => Idle i t ∧ True) (fun t e => Refuses path t e) s :=
  idle_query h (fun _ => trivial) fun _ _ _ hs => ⟨hs, ends_generic⟩

theorem wp_readPassphrase (h : Idle i s) :
    wp (commandWorld lib env cmds owned before i) readPassphrase (fun t _ => Idle i t)
      (fun t e => Refuses path t e) s := by
  rw [readPassphrase, wp_bind, wp_ask]
  refine stable_step Idle.stable h (fun _ _ _ => trivial) ?_
  intro t var t' ht _ hs _
  obtain rfl : t' = t := hs
  cases var with
  | some passphrase => exact ht
  | none =>
      refine wp_bind.mpr (wp_mono ?_ (fun _ _ he => he) (wp_promptPassword ht))
      rintro u passphrase ⟨hu, -⟩
      refine wp_bind.mpr (wp_mono ?_ (fun _ _ he => he) (wp_promptPassword hu))
      rintro v confirm ⟨hv, -⟩
      by_cases heq : passphrase ≠ confirm
      · rw [if_pos heq]
        exact refuses_of_ne generic_ne
      · rw [if_neg heq]
        exact hv

theorem wp_askPassphrase (h : Idle i s) :
    wp (commandWorld lib env cmds owned before i) (askPassphrase cmd)
      (fun t passphrase => Idle i t ∧ passphrase.isSome = cmd.passphrase)
      (fun t e => Refuses path t e) s := by
  rw [askPassphrase]
  by_cases hcmd : cmd.passphrase
  · rw [if_pos hcmd, wp_map]
    exact wp_mono (fun _ _ ht => ⟨ht, hcmd.symm⟩) (fun _ _ he => he) (wp_readPassphrase h)
  · rw [if_neg hcmd]
    exact ⟨h, (Bool.eq_false_of_not_eq_true hcmd).symm⟩

theorem wp_encodeIdentity (h : Idle i s) {identity : String} (hidentity : owned i identity)
    {passphrase : Option String} (hpassphrase : passphrase.isSome = (cmds i).passphrase) :
    wp (commandWorld lib env cmds owned before i) (encodeIdentity lib identity passphrase)
      (fun t body => Idle i t ∧ IsBody lib env (cmds i) (owned i) body)
      (fun t e => Refuses path t e) s := by
  rw [encodeIdentity, wp_bind, wp_ask]
  refine stable_step Idle.stable h (fun _ _ _ => trivial) ?_
  intro t created t' ht _ hs _
  obtain rfl : t' = t := hs
  cases passphrase with
  | none =>
      refine ⟨ht, created, identity, hidentity, ?_⟩
      rw [← hpassphrase]
      exact rfl
  | some passphrase =>
      refine idle_query ht (fun _ => trivial) ?_
      intro u a u' hs
      cases a with
      | error e => exact ⟨hs, generic_ne⟩
      | ok body =>
          obtain ⟨hencrypts, hu⟩ := hs
          refine ⟨hu, created, identity, hidentity, ?_⟩
          rw [← hpassphrase]
          exact ⟨passphrase, hencrypts⟩

end

/-! ### The temporary file -/

section
variable {path name : String} {fd : Nat} {P P' : File → Prop} {body : List UInt8}

omit [DecidableEq ι] in
/-- A command may tell an error while it has its temporary file. -/
theorem refusing_stable (hpath : ¬ env.isTemp path) {e : Error} :
    Stable (Leaves env i) fun s => Has i name fd P s ∧ Refuses path s e :=
  fun _ _ hs h => ⟨Has.stable _ _ hs h.1, Refuses.stable hpath _ _ hs h.2⟩

omit [DecidableEq ι] in
theorem Has.mono (h : Has i name fd P s) (hP : ∀ file, P file → P' file) : Has i name fd P' s := by
  obtain ⟨file, hget, hfile⟩ := h.file
  exact ⟨h.temp, h.maker, file, hget, hP file hfile⟩

/-- What a command asks that changes its temporary file. -/
theorem wp_change {op : FileOp String} {f : op.Ans → Except Error Unit} {g : File → File}
    (h : Has i name fd P s)
    (hallowed : ∀ t, Has i name fd P t → allowed lib env cmds owned i t (.file op))
    (hstep : ∀ d a d', fileStep d op a d' → gives op a = false ∧
      Ends (fun _ => d' = d.change fd g) (fun e => d' = d ∧ e ≠ identityExists path) (f a))
    (hP : ∀ file, P file → P' (g file)) :
    wp (commandWorld lib env cmds owned before i) (query (E := identitySig) (.file op) f)
      (fun t _ => Has i name fd P' t)
      (fun t e => Has i name fd (fun _ => True) t ∧ Refuses path t e) s := by
  rw [wp_query]
  refine stable_step Has.stable h (fun t ht _ => hallowed t ht) ?_
  rintro t a t' ht - ⟨d, hfile, rfl⟩ -
  obtain ⟨hgives, hends⟩ := hstep t.dir a d hfile
  rw [hgives]
  cases hf : f a with
  | ok b =>
      rw [hf] at hends
      obtain rfl : d = _ := hends
      obtain ⟨file, hget, hP'⟩ := ht.file
      exact ⟨ht.temp, ht.maker, g file, t.dir.file?_change_self hget, hP file hP'⟩
  | error e =>
      rw [hf] at hends
      obtain ⟨rfl, hne⟩ := hends
      exact ⟨⟨ht.temp, ht.maker, ht.mono (fun _ _ => trivial) |>.file⟩, refuses_of_ne hne⟩

theorem private_ownerOnly : ownerOnly &&& 0o077 = 0 := by decide

theorem wp_setPermissions (h : Has i name fd (·.bytes = []) s) :
    wp (commandWorld lib env cmds owned before i)
      (query (E := identitySig) (.file (.setPermissions fd ownerOnly)) fun a =>
        a.mapError fun e => writeFailed path e.text)
      (fun t _ => Has i name fd (fun file => file.bytes = [] ∧ file.mode &&& 0o077 = 0) t)
      (fun t e => Has i name fd (fun _ => True) t ∧ Refuses path t e) s := by
  refine wp_change (g := fun file => { file with mode := ownerOnly }) h
    (fun t ht => ⟨name, ht.temp⟩) ?_ fun file hfile => ⟨hfile, private_ownerOnly⟩
  intro d a d' hs
  cases a with
  | ok _ => exact ⟨rfl, hs⟩
  | error e => exact ⟨rfl, hs, writeFailed_ne⟩

theorem wp_syncAll (h : Has i name fd (fun file => file.bytes = body ∧ file.mode &&& 0o077 = 0) s)
    (hbody : IsBody lib env (cmds i) (owned i) body) :
    wp (commandWorld lib env cmds owned before i)
      (query (E := identitySig) (.file (.syncAll fd)) fun a =>
        a.mapError fun e => writeFailed path e.text)
      (fun t _ => Has i name fd (Complete lib env (cmds i) (owned i)) t)
      (fun t e => Has i name fd (fun _ => True) t ∧ Refuses path t e) s := by
  refine wp_change (g := fun file => { file with synced := true }) h
    (fun t ht => ⟨name, ht.temp⟩) ?_ ?_
  · intro d a d' hs
    cases a with
    | ok _ => exact ⟨rfl, hs⟩
    | error e => exact ⟨rfl, hs, writeFailed_ne⟩
  · rintro file ⟨rfl, hmode⟩
    exact ⟨hbody, rfl, hmode⟩

theorem wp_writeBody (h : Has i name fd (fun file => file.bytes = [] ∧ file.mode &&& 0o077 = 0) s)
    (hbody : IsBody lib env (cmds i) (owned i) body) :
    wp (commandWorld lib env cmds owned before i)
      ((writeAll (E := identitySig) (fun rest => .file (.write fd rest)) (fun _ a => a) body).mapErr
        fun e => writeFailed path e.text)
      (fun t _ => Has i name fd (fun file => file.bytes = body ∧ file.mode &&& 0o077 = 0) t)
      (fun t e => Has i name fd (fun _ => True) t ∧ Refuses path t e) s := by
  rw [wp_mapErr]
  refine wp_writeAll (fun written t =>
    Has i name fd (fun file => file.bytes = written ∧ file.mode &&& 0o077 = 0) t) h ?_ ?_ ?_
  · rintro written rest t rfl ht u hu -
    obtain ⟨htemp, -, file, hget, rfl, -⟩ := Has.stable t u hu ht
    exact ⟨name, file, _, htemp, hget, hbody, List.prefix_rfl⟩
  · rintro written rest t a t' - ht ⟨u, hu, -, ⟨d, hfile, rfl⟩, -⟩
    have hu := Has.stable t u hu ht
    cases a with
    | error e =>
        obtain rfl : d = u.dir := hfile
        exact hu
    | ok n =>
        obtain ⟨-, rfl⟩ := hfile
        obtain ⟨htemp, hmaker, file, hget, rfl, hmode⟩ := hu
        exact ⟨htemp, hmaker, _, u.dir.file?_change_self hget, rfl, hmode⟩
  · intro written t e ht
    exact ⟨ht.mono fun _ _ => trivial, refuses_of_ne writeFailed_ne⟩

theorem wp_renameNoclobber (h : Has i name fd (Complete lib env (cmds i) (owned i)) s)
    (hpath : ¬ env.isTemp path) (hout : (cmds i).outputPath = some path) :
    wp (commandWorld lib env cmds owned before i)
      (query (E := identitySig) (.file (.renameNoclobber name path)) fun a =>
        a.mapError (persistError path))
      (fun t _ => Owns i path t)
      (fun t e => Has i name fd (fun _ => True) t ∧ Refuses path t e) s := by
  rw [wp_query]
  refine stable_step Has.stable h ?_ ?_
  · rintro t ⟨htemp, -, file, hget, hfile⟩ -
    exact ⟨hpath, hout, fd, file, htemp, hget, hfile⟩
  · rintro t a t' ht hinv ⟨d, hfile, rfl⟩ -
    obtain ⟨hname, -, hisTemp⟩ := hinv.temps i name fd ht.temp
    cases a with
    | ok _ =>
        obtain ⟨-, -, rfl⟩ := hfile
        have hne : path ≠ name := by
          rintro rfl
          exact hpath hisTemp
        refine ⟨fd, ?_, ht.maker⟩
        show (t.dir.rename name path).names path = some fd
        rw [Dir.names_rename, if_neg hne, if_pos rfl]
        exact hname
    | error e =>
        obtain ⟨hexists, rfl⟩ := hfile
        refine ⟨⟨ht.temp, ht.maker, ht.mono (fun _ _ => trivial) |>.file⟩, ?_⟩
        by_cases he : e.kind = .alreadyExists
        · intro _
          exact Option.isSome_iff_exists.mp (hexists he)
        · rw [persistError, if_neg he]
          exact refuses_of_ne writeFailed_ne

theorem wp_fillTemp (h : Has i name fd (·.bytes = []) s)
    (hbody : IsBody lib env (cmds i) (owned i) body) (hpath : ¬ env.isTemp path)
    (hout : (cmds i).outputPath = some path) :
    wp (commandWorld lib env cmds owned before i) (fillTemp path name fd body)
      (fun t _ => Owns i path t)
      (fun t e => Has i name fd (fun _ => True) t ∧ Refuses path t e) s := by
  rw [fillTemp, wp_bind]
  refine wp_mono (fun t _ ht => ?_) (fun _ _ he => he) (wp_setPermissions h)
  rw [wp_bind]
  refine wp_mono (fun u _ hu => ?_) (fun _ _ he => he) (wp_writeBody ht hbody)
  rw [wp_bind]
  refine wp_mono (fun v _ hv => ?_) (fun _ _ he => he) (wp_syncAll hu hbody)
  exact wp_renameNoclobber hv hpath hout

/-- Dropping the temporary file does not take the other file away. -/
theorem wp_dropTemp {e : Error} (h : Has i name fd P s ∧ Refuses path s e)
    (hpath : ¬ env.isTemp path) :
    wp (commandWorld lib env cmds owned before i) (dropTemp name) (fun t _ => Refuses path t e)
      (fun t e => Refuses path t e) s := by
  rw [dropTemp, wp_bind, wp_ask]
  refine stable_step (refusing_stable hpath) h (fun t ht _ => ⟨fd, ht.1.temp⟩) ?_
  rintro t a t' ⟨ht, hrefuses⟩ hinv ⟨d, hfile, rfl⟩ -
  intro he
  obtain ⟨n, hn⟩ := hrefuses he
  cases a with
  | error e =>
      obtain ⟨-, rfl⟩ := hfile
      exact ⟨n, hn⟩
  | ok _ =>
      obtain ⟨-, rfl⟩ := hfile
      have hne : path ≠ name := by
        rintro rfl
        exact hpath (hinv.temps i path fd ht.temp).2.2
      exact ⟨n, (Dir.names_remove _).trans ((if_neg hne).trans hn)⟩

theorem wp_orDrop {p : IdentityProg Unit} {Q : State ι → Unit → Prop} (hpath : ¬ env.isTemp path)
    (h : wp (commandWorld lib env cmds owned before i) p Q
      (fun t e => Has i name fd P t ∧ Refuses path t e) s) :
    wp (commandWorld lib env cmds owned before i) (orDrop name p) Q
      (fun t e => Refuses path t e) s := by
  rw [orDrop, wp_bind', wp_attempt]
  refine wp_mono (fun t _ ht => ht) ?_ h
  intro t e ht
  exact wp_bind'.mpr (wp_dropTemp ht hpath)

theorem wp_writeIdentityFile (h : Idle i s) (hbody : IsBody lib env (cmds i) (owned i) body)
    (hpath : ¬ env.isTemp path) (hout : (cmds i).outputPath = some path) :
    wp (commandWorld lib env cmds owned before i) (writeIdentityFile lib path body)
      (fun t _ => Owns i path t) (fun t e => Refuses path t e) s := by
  rw [writeIdentityFile, wp_bind, wp_query]
  refine stable_step Idle.stable h (fun t ht _ => ⟨ht, body, hbody⟩) ?_
  intro t a t' ht _ hs _
  cases a with
  | error e => exact refuses_of_ne writeFailed_ne
  | ok r =>
      obtain ⟨name, fd⟩ := r
      obtain ⟨-, d, ⟨-, rfl, umask, rfl⟩, rfl⟩ := hs
      refine wp_orDrop (P := fun _ => True) hpath (wp_fillTemp ?_ hbody hpath hout)
      refine ⟨Function.update_self .., Function.update_self .., ⟨ownerOnly &&& ~~~umask, [], false⟩,
        ?_, rfl⟩
      exact (Dir.file?_create _).trans (if_pos rfl)

/-! ### All of a command -/

theorem wp_createParent (h : Idle i s) :
    wp (commandWorld lib env cmds owned before i) (createParent lib path) (fun t _ => Idle i t)
      (fun t e => Refuses path t e) s := by
  rw [createParent]
  cases lib.parent path with
  | none => exact h
  | some parent =>
      refine wp_mono (fun t _ ht => ht.1) (fun _ _ he => he)
        (idle_query (Q := fun _ => True) h (fun _ => trivial) ?_)
      intro t a t' hs
      cases a with
      | ok _ => exact ⟨hs, trivial⟩
      | error e => exact ⟨hs, writeFailed_ne⟩

theorem wp_writeOut (h : Idle i s) {identity : String}
    (hbody : IsBody lib env (cmds i) (owned i) body) (hpath : ¬ env.isTemp path)
    (hout : (cmds i).outputPath = some path) :
    wp (commandWorld lib env cmds owned before i) (writeOut lib path identity body)
      (fun t _ => Owns i path t) (fun t e => Refuses path t e) s := by
  have hprint : ∀ (line : String) t, Owns i path t →
      wp (commandWorld lib env cmds owned before i)
        (ask (E := identitySig) (.printStderr line) : IdentityProg Unit) (fun u _ => Owns i path u)
        (fun u e => Refuses path u e) t := by
    intro line t ht
    rw [wp_ask]
    refine stable_step Owns.stable ht (fun _ _ _ => trivial) ?_
    intro u a u' hu _ hs _
    obtain rfl : u' = u := hs
    exact hu
  rw [writeOut, wp_bind]
  refine wp_mono (fun t _ ht => ?_) (fun _ _ he => he) (wp_createParent h)
  rw [wp_bind]
  refine wp_mono (fun u _ hu => ?_) (fun _ _ he => he) (wp_writeIdentityFile ht hbody hpath hout)
  rw [wp_bind]
  exact wp_mono (fun v _ hv => hprint _ v hv) (fun _ _ he => he) (hprint _ u hu)

theorem wp_printOut (h : Idle i s) :
    wp (commandWorld lib env cmds owned before i) (printOut body) (fun _ _ => True)
      (fun t e => Refuses path t e) s := by
  rw [printOut, wp_bind]
  refine wp_mono (fun t _ ht => ?_) (fun _ _ he => he)
    (idle_query h (fun _ => trivial) fun _ _ _ hs => ⟨hs, ends_generic⟩)
  exact wp_mono (fun _ _ _ => trivial) (fun _ _ he => he)
    (idle_query ht.1 (fun _ => trivial) fun _ _ _ hs => ⟨hs, ends_generic⟩)

theorem wp_generate (hout : ∀ p, (cmds i).outputPath = some p → p = path ∧ ¬ env.isTemp p)
    (h : Idle i s) :
    wp (commandWorld lib env cmds owned before i) (generateEncryptionIdentity lib (cmds i))
      (fun t _ => ∀ p, (cmds i).outputPath = some p → Owns i p t)
      (fun t e => Refuses path t e) s := by
  rw [generateEncryptionIdentity, wp_bind, wp_ask]
  refine stable_step Idle.stable h (fun _ _ _ => trivial) ?_
  intro t identity t' ht _ hs howned
  obtain rfl : t' = t := hs
  refine wp_bind.mpr (wp_mono ?_ (fun _ _ he => he) (wp_askPassphrase ht))
  rintro u passphrase ⟨hu, hpassphrase⟩
  refine wp_bind.mpr (wp_mono ?_ (fun _ _ he => he) (wp_encodeIdentity hu howned hpassphrase))
  rintro v body ⟨hv, hbody⟩
  cases hdest : (cmds i).outputPath with
  | none => exact wp_mono (fun _ _ _ _ hp => nomatch hp) (fun _ _ he => he) (wp_printOut hv)
  | some p =>
      obtain ⟨rfl, hpath⟩ := hout p hdest
      refine wp_mono ?_ (fun _ _ he => he) (wp_writeOut hv hbody hpath hdest)
      intro w _ hw q hq
      cases hq
      exact hw

end

/-! ## All of them -/

variable (lib cmds) in
def commands (i : ι) : IdentityProg Unit := generateEncryptionIdentity lib (cmds i)

/-- The identities that were generated for a command. -/
def generated (tr : List (ι × Event identitySig)) (i : ι) (identity : String) : Prop :=
  (i, (⟨.generate, identity⟩ : Event identitySig)) ∈ tr

variable (lib env cmds before) in
/-- What the commands come to, wherever each of them has got to. -/
structure Unclobbered (tr : List (ι × Event identitySig)) (after : Dir String)
    (qs : ι → IdentityProg Unit) : Prop where
  /-- no file is taken away or written to -/
  kept : ∀ name file, before.dir.read name = some file → after.read name = some file
  /-- what is at a destination is all of one identity -/
  whole : ∀ name file, after.read name = some file → ¬ env.isTemp name →
    before.dir.read name = some file ∨
      ∃ i, (cmds i).outputPath = some name ∧ Complete lib env (cmds i) (generated tr i) file
  /-- what is anywhere else is some of what was to be written -/
  part : ∀ name file, after.read name = some file → before.dir.read name = some file ∨
    ∃ i body, IsBody lib env (cmds i) (generated tr i) body ∧ file.bytes <+: body
  /-- a command that succeeded has the identity that was generated for it -/
  done : ∀ i path, qs i = .ret () → (cmds i).outputPath = some path →
    before.dir.read path = none ∧
      ∃ file, after.read path = some file ∧ Complete lib env (cmds i) (generated tr i) file
  one : ∀ i j path, qs i = .ret () → qs j = .ret () → (cmds i).outputPath = some path →
    (cmds j).outputPath = some path → i = j
  refused : ∀ i path, qs i = .fail (identityExists path) → (cmds i).outputPath = some path →
    ∃ file, after.read path = some file

theorem wp_command (hpaths : ∀ path, (cmds i).outputPath = some path → ¬ env.isTemp path)
    (h : Idle i s) :
    wp (commandWorld lib env cmds owned before i) (commands lib cmds i)
      (fun t _ => ∀ p, (cmds i).outputPath = some p → Owns i p t)
      (fun t e => ∀ p, (cmds i).outputPath = some p → Refuses p t e) s := by
  have hdest : ∀ p, (cmds i).outputPath = some p → p = (cmds i).outputPath.getD "" := by
    intro p hp
    rw [hp]
    rfl
  refine wp_mono (fun _ _ ht => ht) (fun t e he p hp => hdest p hp ▸ he) ?_
  exact wp_generate (fun p hp => ⟨hdest p hp, hpaths p hp⟩) h

omit [DecidableEq ι] in
theorem inv_before (hnone : ∀ i, before.temp i = none) (hmaker : ∀ n, before.maker n = none) :
    Inv lib env cmds owned before before where
  temps i _ _ hi := nomatch (hnone i).symm.trans hi
  kept _ n hn := ⟨hn, hmaker n⟩
  made n _ hn := nomatch (hmaker n).symm.trans hn
  others _ _ := rfl
  written _ _ hn := .inl hn

omit [DecidableEq ι] in
theorem Inv.read_kept (h : Inv lib env cmds owned before s) {name : String} {file : File}
    (hread : before.dir.read name = some file) : s.dir.read name = some file := by
  obtain ⟨n, hn, hget⟩ := before.dir.read_eq_some.mp hread
  obtain ⟨hname, hnone⟩ := h.kept name n hn
  exact s.dir.read_eq_some.mpr ⟨n, hname, (h.others n hnone).trans hget⟩

omit [DecidableEq ι] in
/-- What is read is from before, or someone has made it. -/
theorem Inv.read (h : Inv lib env cmds owned before s) {name : String} {file : File}
    (hread : s.dir.read name = some file) : before.dir.read name = some file ∨
      ∃ n i, s.dir.names name = some n ∧ s.dir.file? n = some file ∧ s.maker n = some i ∧
        (¬ env.isTemp name → (cmds i).outputPath = some name ∧
          Complete lib env (cmds i) (owned i) file) := by
  obtain ⟨n, hn, hget⟩ := s.dir.read_eq_some.mp hread
  rcases h.written name n hn with hbefore | ⟨i, hi, hwritten⟩
  · left
    have hfile := h.others n (h.kept name n hbefore).2
    exact before.dir.read_eq_some.mpr ⟨n, hbefore, hfile.symm.trans hget⟩
  · refine .inr ⟨n, i, hn, hget, hi, fun hnot => ?_⟩
    obtain ⟨hpath, file', hget', hcomplete⟩ := hwritten hnot
    cases hget.symm.trans hget'
    exact ⟨hpath, hcomplete⟩

omit [DecidableEq ι] in
theorem Owns.complete {path : String} (h : Inv lib env cmds owned before s) (howns : Owns i path s)
    (hpath : ¬ env.isTemp path) : before.dir.read path = none ∧
      ∃ file, s.dir.read path = some file ∧ Complete lib env (cmds i) (owned i) file := by
  obtain ⟨n, hn, hi⟩ := howns
  constructor
  · cases hbefore : before.dir.read path with
    | none => rfl
    | some file =>
        obtain ⟨m, hm, -⟩ := before.dir.read_eq_some.mp hbefore
        obtain ⟨hname, hnone⟩ := h.kept path m hm
        cases hn.symm.trans hname
        cases hnone.symm.trans hi
  · rcases h.written path n hn with hbefore | ⟨j, hj, hwritten⟩
    · cases (h.kept path n hbefore).2.symm.trans hi
    · cases hi.symm.trans hj
      obtain ⟨-, file, hget, hcomplete⟩ := hwritten hpath
      exact ⟨file, s.dir.read_eq_some.mpr ⟨n, hn, hget⟩, hcomplete⟩

omit [DecidableEq ι] in
theorem Owns.unique {path : String} (h : Owns i path s) (h' : Owns j path s) : i = j := by
  obtain ⟨n, hn, hi⟩ := h
  obtain ⟨m, hm, hj⟩ := h'
  cases hn.symm.trans hm
  exact Option.some.inj (hi.symm.trans hj)

/-- However many commands write identities, in whatever order they go on and wherever they stop, no
file is replaced, and one of them at most succeeds for each destination. -/
theorem identities_unclobbered (hnone : ∀ i, before.temp i = none)
    (hmaker : ∀ n, before.maker n = none)
    (hpaths : ∀ i path, (cmds i).outputPath = some path → ¬ env.isTemp path)
    {tr : List (ι × Event identitySig)} {qs : ι → IdentityProg Unit}
    (h : Interleave (commands lib cmds) tr qs) (hpath : Paths (identityStep env) before tr s) :
    Unclobbered lib env cmds before tr s.dir qs := by
  have hown : ∀ e ∈ tr, Offers (generated tr e.1) e.2.op e.2.ans := by
    rintro ⟨i, op, a⟩ he
    cases op with
    | generate => exact he
    | _ => exact trivial
  have hrelies : Relies (identityWorld lib env cmds (generated tr))
      (Inv lib env cmds (generated tr) before) (Leaves env) := identity_relies
  obtain ⟨hqs, hinv⟩ := h.relies hrelies
    (Q := fun i t _ => ∀ p, (cmds i).outputPath = some p → Owns i p t)
    (R := fun i t e => ∀ p, (cmds i).outputPath = some p → Refuses p t e)
    (fun i _ t u hu ht p hp => Owns.stable t u hu (ht p hp))
    (fun i e t u hu ht p hp => Refuses.stable (hpaths i p hp) t u hu (ht p hp))
    (fun i => wp_command (hpaths i) (hnone i)) (inv_before hnone hmaker) (hpath.with_events hown)
  have hdone : ∀ i path, qs i = .ret () → (cmds i).outputPath = some path → Owns i path s := by
    intro i path hi hout
    have hq := hqs i
    rw [hi] at hq
    exact hq path hout
  refine ⟨fun _ _ => hinv.read_kept, ?_, ?_, ?_, ?_, ?_⟩
  · intro name file hread hnot
    rcases hinv.read hread with hbefore | ⟨_, i, -, -, -, hwritten⟩
    · exact .inl hbefore
    · exact .inr ⟨i, hwritten hnot⟩
  · intro name file hread
    rcases hinv.read hread with hbefore | ⟨n, i, -, hget, hi, -⟩
    · exact .inl hbefore
    · obtain ⟨file', body, hget', hbody, hprefix⟩ := hinv.made n i hi
      cases hget.symm.trans hget'
      exact .inr ⟨i, body, hbody, hprefix⟩
  · intro i path hi hout
    exact (hdone i path hi hout).complete hinv (hpaths i path hout)
  · intro i j path hi hj houti houtj
    exact (hdone i path hi houti).unique (hdone j path hj houtj)
  · intro i path hi hout
    have hq := hqs i
    rw [hi] at hq
    obtain ⟨n, hn⟩ := hq path hout rfl
    obtain ⟨file, hget⟩ := s.dir.file?_isSome hn
    exact ⟨file, s.dir.read_eq_some.mpr ⟨n, hn, hget⟩⟩

end

/-! ### Two commands for one file -/

/-- Two names for temporary files. -/
def twoTemps (d : Dir String) : String :=
  if d.names "/zallet/.tmpA" = none then "/zallet/.tmpA" else "/zallet/.tmpB"

def plainLib : IdentityLib where
  toPublic := fun identity => "of " ++ identity
  parent := fun _ => some "/zallet"

/-- Encryption that reverses what is encrypted. -/
def plainSurroundings : Surroundings where
  encrypts := fun _ rendered body => body = (utf8 rendered).reverse
  isTemp := fun name => name = "/zallet/.tmpA" ∨ name = "/zallet/.tmpB"

/-- Everything is done that can be, and each command generates an identity of its own. -/
def identityAnswer (i : Bool) : Answer identitySig (State Bool)
  | s, .file op =>
      let r := fileAnswer twoTemps s.dir op
      (r.1, ⟨r.2, if gives op r.1 then Function.update s.temp i none else s.temp, s.maker⟩)
  | s, .newTempIn _ =>
      if s.dir.names (twoTemps s.dir) = none then
        (.ok (twoTemps s.dir, s.dir.files.length),
          s.made i (twoTemps s.dir) s.dir.files.length (s.dir.create (twoTemps s.dir) ownerOnly))
      else (.error ⟨.alreadyExists, "too many temporary files exist"⟩, s)
  | s, .encrypt rendered _ => (.ok (utf8 rendered).reverse, s)
  | s, .generate => (if i then "K1" else "K0", s)
  | s, .createdNow => (some "2026-01-01T00:00:00Z", s)
  | s, .passphraseVar => (some "pass", s)
  | s, .promptPassword _ => (.error "no terminal", s)
  | s, .createDirAll _ | s, .writeStdout _ | s, .flushStdout => (.ok (), s)
  | s, .printStderr _ => ((), s)

theorem twoTemps_isTemp (d : Dir String) : plainSurroundings.isTemp (twoTemps d) := by
  rw [twoTemps]
  by_cases h : d.names "/zallet/.tmpA" = none
  · rw [if_pos h]
    exact .inl rfl
  · rw [if_neg h]
    exact .inr rfl

theorem newFile_of_free {d : Dir String} {name : String} (h : d.names name = none) :
    NewFile d (d.create name ownerOnly) name ownerOnly d.files.length :=
  ⟨h, rfl, 0, by simp⟩

theorem identityAnswer_step (i : Bool) (s : State Bool) (op : IdentityOp) :
    identityStep plainSurroundings i s op (identityAnswer i s op).1 (identityAnswer i s op).2 := by
  cases op with
  | file op => exact ⟨_, fileAnswer_step _ _ _, rfl⟩
  | newTempIn parent =>
      rw [identityAnswer]
      by_cases h : s.dir.names (twoTemps s.dir) = none
      · rw [if_pos h]
        exact ⟨twoTemps_isTemp s.dir, _, newFile_of_free h, rfl⟩
      · rw [if_neg h]
        rfl
  | encrypt rendered passphrase => exact ⟨rfl, rfl⟩
  | _ => rfl

/-- The one writes its identity as it is, and the other encrypts it. -/
def twoCommands (i : Bool) : GenerateEncryptionIdentityCmd := ⟨none, i, "/zallet/id"⟩

def emptyState : State Bool := ⟨Dir.empty, fun _ => none, fun _ => none⟩

/-- The second overtakes the first, which has its temporary file already. -/
def identityRun : List (Bool × Event identitySig) × State Bool × (Bool → IdentityProg Unit) :=
  scheduleAs identityAnswer [(false, 4), (true, 30), (false, 30)] emptyState
    (commands plainLib twoCommands)

/-- The second has its identity written, and the first is told of it. -/
theorem identities_unclobbered_two :
    (identityRun.2.2 true).result? = some () ∧
      (identityRun.2.2 false).failed? = some (identityExists "/zallet/id") ∧
      Unclobbered plainLib plainSurroundings twoCommands emptyState identityRun.1
        identityRun.2.1.dir identityRun.2.2 := by
  refine ⟨by decide +kernel, by decide +kernel, ?_⟩
  refine identities_unclobbered (fun _ => rfl) (fun _ => rfl) ?_
    (scheduleAs_interleave _ _ _ _) ?_
  · intro i path hout htemp
    have hpath : path = "/zallet/id" := (Option.some.inj hout).symm
    rcases htemp with rfl | rfl
    · exact absurd hpath (by decide)
    · exact absurd hpath (by decide)
  · exact scheduleAs_paths id (G := fun _ => True) (fun i s op _ => identityAnswer_step i s op) _ _ _
      (fun _ _ => trivial)

end Zallet.Identity
