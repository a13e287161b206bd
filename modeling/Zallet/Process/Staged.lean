/-
# `Zallet.Process.Staged` — identities that are written side by side

Any number of commands write identities, to the same place or to several, each
stopping wherever it does.  What is kept by all of them (`Inv`): a temporary
file is its maker's alone, what is in it is some of what is to be written, a
file that was there is never touched, and what has a destination's name is
complete.  What a command may do for that is `allowed`, and the others leave
alone what it has (`identity_relies`).
-/
import Zallet.Process.Identity

namespace Zallet.Identity

open Prog Directory
open Text (utf8)

section
variable {ι : Type} (lib : IdentityLib) (env : Surroundings)
  (cmds : ι → GenerateEncryptionIdentityCmd) (owned : ι → String → Prop) (before : State ι)

/-- All of an identity, on the disk and for the owner only. -/
structure Complete (cmd : GenerateEncryptionIdentityCmd) (own : String → Prop) (file : File) : Prop
    where
  body : IsBody lib env cmd own file.bytes
  synced : file.synced = true
  mode : file.mode &&& 0o077 = 0

/-- What all commands keep. -/
structure Inv (s : State ι) : Prop where
  temps : ∀ i name fd, s.temp i = some (name, fd) →
    s.dir.names name = some fd ∧ s.maker fd = some i ∧ env.isTemp name
  kept : ∀ name n, before.dir.names name = some n →
    s.dir.names name = some n ∧ s.maker n = none
  made : ∀ n i, s.maker n = some i → ∃ file body, s.dir.file? n = some file ∧
    IsBody lib env (cmds i) (owned i) body ∧ file.bytes <+: body
  others : ∀ n, s.maker n = none → s.dir.file? n = before.dir.file? n
  written : ∀ name n, s.dir.names name = some n → before.dir.names name = some n ∨
    ∃ i, s.maker n = some i ∧ (¬ env.isTemp name → (cmds i).outputPath = some name ∧
      ∃ file, s.dir.file? n = some file ∧ Complete lib env (cmds i) (owned i) file)

/-- What a command may do. -/
def allowed (i : ι) (s : State ι) : IdentityOp → Prop
  | .file (.write fd bytes) => ∃ name file body, s.temp i = some (name, fd) ∧
      s.dir.file? fd = some file ∧ IsBody lib env (cmds i) (owned i) body ∧
        file.bytes ++ bytes <+: body
  | .file (.setPermissions fd _) => ∃ name, s.temp i = some (name, fd)
  | .file (.syncAll fd) => ∃ name, s.temp i = some (name, fd)
  | .file (.removeFile name) => ∃ fd, s.temp i = some (name, fd)
  | .file (.renameNoclobber src dst) => ¬ env.isTemp dst ∧ (cmds i).outputPath = some dst ∧
      ∃ fd file, s.temp i = some (src, fd) ∧ s.dir.file? fd = some file ∧
        Complete lib env (cmds i) (owned i) file
  | .file _ => False
  | .newTempIn _ => s.temp i = none ∧ ∃ body, IsBody lib env (cmds i) (owned i) body
  | _ => True

variable [DecidableEq ι]

def identityWorld (i : ι) : World identitySig (State ι) where
  step s op a s' := identityStep env i s op a s' ∧ Offers (owned i) op a
  guard := allowed lib env cmds owned i
  crash _ := False

/-- What the others leave alone. -/
structure Leaves (i : ι) (s s' : State ι) : Prop where
  temp : s'.temp i = s.temp i
  maker : ∀ n, s.maker n = some i → s'.maker n = some i ∧ s'.dir.file? n = s.dir.file? n
  names : ∀ name n, s.dir.names name = some n → s.maker n = some i ∨ ¬ env.isTemp name →
    s'.dir.names name = some n

end

section
variable {ι : Type} {lib : IdentityLib} {env : Surroundings}
  {cmds : ι → GenerateEncryptionIdentityCmd} {owned : ι → String → Prop} {before s s' : State ι}
  {d : Dir String} {i j : ι}

/-! ## Steps -/

/-- Two temporary files have different names. -/
theorem Inv.temp_unique (h : Inv lib env cmds owned before s) {name : String} {fd fd' : Nat}
    (hi : s.temp i = some (name, fd)) (hj : s.temp j = some (name, fd')) : i = j := by
  obtain ⟨hname, hmaker, -⟩ := h.temps i name fd hi
  obtain ⟨hname', hmaker', -⟩ := h.temps j name fd' hj
  cases hname.symm.trans hname'
  exact Option.some.inj (hmaker.symm.trans hmaker')

theorem Inv.ne_temp (h : Inv lib env cmds owned before s) {name temp : String} {n fd : Nat}
    (hbefore : before.dir.names name = some n) (hi : s.temp i = some (temp, fd)) : name ≠ temp := by
  rintro rfl
  obtain ⟨hname, hmaker, -⟩ := h.temps i name fd hi
  obtain ⟨hname', hnone⟩ := h.kept name n hbefore
  cases hname.symm.trans hname'
  cases hnone.symm.trans hmaker

variable [DecidableEq ι]

variable (lib env cmds owned) in
/-- What a step of a command comes to. -/
inductive Moves (i : ι) (s : State ι) : State ι → Prop
  | still : Moves i s s
  | change {name : String} {fd : Nat} {f : File → File} : s.temp i = some (name, fd) →
      (∀ file, s.dir.file? fd = some file →
        ∃ body, IsBody lib env (cmds i) (owned i) body ∧ (f file).bytes <+: body) →
      Moves i s { s with dir := s.dir.change fd f }
  | drop {name : String} {fd : Nat} {d : Dir String} : s.temp i = some (name, fd) →
      (d = s.dir ∨ d = s.dir.remove name) →
      Moves i s ⟨d, Function.update s.temp i none, s.maker⟩
  | rename {src dst : String} {fd : Nat} {file : File} : s.temp i = some (src, fd) →
      s.dir.names dst = none → ¬ env.isTemp dst → (cmds i).outputPath = some dst →
      s.dir.file? fd = some file → Complete lib env (cmds i) (owned i) file →
      Moves i s ⟨s.dir.rename src dst, Function.update s.temp i none, s.maker⟩
  | make {name : String} {fd : Nat} {d : Dir String} {body : List UInt8} : s.temp i = none →
      IsBody lib env (cmds i) (owned i) body → env.isTemp name → NewFile s.dir d name ownerOnly fd →
      Moves i s (s.made i name fd d)

theorem step_moves {op : IdentityOp} {a : op.Ans} (hs : Inv lib env cmds owned before s)
    (h : allowed lib env cmds owned i s op) (hstep : identityStep env i s op a s') :
    Moves lib env cmds owned i s s' := by
  cases op with
  | file op =>
      obtain ⟨d, hfile, rfl⟩ := hstep
      cases op with
      | write fd bytes =>
          cases a with
          | error e =>
              obtain rfl : d = s.dir := hfile
              exact .still
          | ok n =>
              obtain ⟨-, rfl⟩ := hfile
              obtain ⟨name, file, body, hi, hget, hbody, hprefix⟩ := h
              refine .change hi ?_
              intro file' hget'
              cases hget.symm.trans hget'
              refine ⟨body, hbody, List.IsPrefix.trans ?_ hprefix⟩
              exact List.prefix_append_right_inj _ |>.mpr (List.take_prefix n bytes)
      | setPermissions fd mode =>
          cases a with
          | error e =>
              obtain rfl : d = s.dir := hfile
              exact .still
          | ok _ =>
              obtain rfl : d = _ := hfile
              obtain ⟨name, hi⟩ := h
              refine .change hi ?_
              intro file hget
              obtain ⟨file', body, hget', hbody, hprefix⟩ := hs.made fd i (hs.temps i name fd hi).2.1
              cases hget.symm.trans hget'
              exact ⟨body, hbody, hprefix⟩
      | syncAll fd =>
          cases a with
          | error e =>
              obtain rfl : d = s.dir := hfile
              exact .still
          | ok _ =>
              obtain rfl : d = _ := hfile
              obtain ⟨name, hi⟩ := h
              refine .change hi ?_
              intro file hget
              obtain ⟨file', body, hget', hbody, hprefix⟩ := hs.made fd i (hs.temps i name fd hi).2.1
              cases hget.symm.trans hget'
              exact ⟨body, hbody, hprefix⟩
      | removeFile name =>
          obtain ⟨fd, hi⟩ := h
          refine .drop hi ?_
          cases a with
          | ok _ => exact .inr hfile.2
          | error e => exact .inl hfile.2
      | renameNoclobber src dst =>
          cases a with
          | error e =>
              obtain ⟨-, rfl⟩ := hfile
              exact .still
          | ok _ =>
              obtain ⟨-, hfree, rfl⟩ := hfile
              obtain ⟨htemp, hpath, fd, file, hi, hget, hcomplete⟩ := h
              exact .rename hi hfree htemp hpath hget hcomplete
      | createNew => exact h.elim
      | createTemp => exact h.elim
      | rename => exact h.elim
      | readToString => exact h.elim
  | newTempIn parent =>
      cases a with
      | error e =>
          obtain rfl : s' = s := hstep
          exact .still
      | ok r =>
          obtain ⟨htemp, d, hnew, rfl⟩ := hstep
          obtain ⟨hnone, body, hbody⟩ := h
          exact .make hnone hbody htemp hnew
  | encrypt rendered passphrase =>
      cases a with
      | error e =>
          obtain rfl : s' = s := hstep
          exact .still
      | ok body =>
          obtain ⟨-, rfl⟩ := hstep
          exact .still
  | _ =>
      obtain rfl : s' = s := hstep
      exact .still

theorem update_temp_eq_some {temp : ι → Option (String × Nat)} {name : String} {fd : Nat}
    (h : Function.update temp i none j = some (name, fd)) : j ≠ i ∧ temp j = some (name, fd) := by
  rw [Function.update_apply] at h
  split at h
  case isTrue => cases h
  case isFalse hj => exact ⟨hj, h⟩

theorem Inv.moves (h : Inv lib env cmds owned before s) (hm : Moves lib env cmds owned i s s') :
    Inv lib env cmds owned before s' := by
  cases hm with
  | still => exact h
  | @change temp fd f hi hbody =>
      obtain ⟨htemp, hmaker, hisTemp⟩ := h.temps i temp fd hi
      refine ⟨h.temps, h.kept, ?_, ?_, ?_⟩
      · intro n j hj
        by_cases hn : n = fd
        · subst hn
          cases hmaker.symm.trans hj
          obtain ⟨file, hget⟩ := s.dir.file?_isSome htemp
          obtain ⟨body, hisBody, hprefix⟩ := hbody file hget
          exact ⟨f file, body, s.dir.file?_change_self hget, hisBody, hprefix⟩
        · obtain ⟨file, body, hget, hrest⟩ := h.made n j hj
          exact ⟨file, body, (s.dir.file?_change_ne hn).trans hget, hrest⟩
      · intro n hn
        refine (s.dir.file?_change_ne ?_).trans (h.others n hn)
        rintro rfl
        cases hn.symm.trans hmaker
      · intro name n hn
        rcases h.written name n hn with hbefore | ⟨j, hj, hwritten⟩
        · exact .inl hbefore
        · refine .inr ⟨j, hj, fun hnot => ?_⟩
          obtain ⟨hpath, file, hget, hcomplete⟩ := hwritten hnot
          refine ⟨hpath, file, (s.dir.file?_change_ne ?_).trans hget, hcomplete⟩
          rintro rfl
          exact hnot (s.dir.single hn htemp ▸ hisTemp)
  | @drop temp fd d hi hd =>
      have hnames : ∀ name n, d.names name = some n → s.dir.names name = some n := by
        intro name n hn
        rcases hd with rfl | rfl
        · exact hn
        · exact s.dir.named_remove hn
      have hother : ∀ name n, name ≠ temp → s.dir.names name = some n → d.names name = some n := by
        intro name n hne hn
        rcases hd with rfl | rfl
        · exact hn
        · rwa [Dir.names_remove, if_neg hne]
      have hfiles : ∀ n, d.file? n = s.dir.file? n := by
        intro n
        rcases hd with rfl | rfl <;> rfl
      refine ⟨?_, ?_, ?_, ?_, ?_⟩
      · intro j name fd' hj
        obtain ⟨hne, hother'⟩ := update_temp_eq_some hj
        obtain ⟨hname, hrest⟩ := h.temps j name fd' hother'
        refine ⟨hother name fd' ?_ hname, hrest⟩
        rintro rfl
        exact hne (h.temp_unique hother' hi)
      · intro name n hn
        obtain ⟨hname, hnone⟩ := h.kept name n hn
        exact ⟨hother name n (h.ne_temp hn hi) hname, hnone⟩
      · intro n j hj
        obtain ⟨file, body, hget, hrest⟩ := h.made n j hj
        exact ⟨file, body, (hfiles n).trans hget, hrest⟩
      · intro n hn
        exact (hfiles n).trans (h.others n hn)
      · intro name n hn
        rcases h.written name n (hnames name n hn) with hbefore | ⟨j, hj, hwritten⟩
        · exact .inl hbefore
        · refine .inr ⟨j, hj, fun hnot => ?_⟩
          obtain ⟨hpath, file, hget, hcomplete⟩ := hwritten hnot
          exact ⟨hpath, file, (hfiles n).trans hget, hcomplete⟩
  | @rename src dst fd file hi hfree hnot hpath hget hcomplete =>
      obtain ⟨hsrc, hmaker, hisTemp⟩ := h.temps i src fd hi
      have hother : ∀ name n, name ≠ src → s.dir.names name = some n →
          (s.dir.rename src dst).names name = some n := by
        intro name n hne hn
        have hdst : name ≠ dst := by
          rintro rfl
          cases hfree.symm.trans hn
        rwa [Dir.names_rename, if_neg hne, if_neg hdst]
      refine ⟨?_, ?_, h.made, h.others, ?_⟩
      · intro j name fd' hj
        obtain ⟨hne, hother'⟩ := update_temp_eq_some hj
        obtain ⟨hname, hrest⟩ := h.temps j name fd' hother'
        refine ⟨hother name fd' ?_ hname, hrest⟩
        rintro rfl
        exact hne (h.temp_unique hother' hi)
      · intro name n hn
        obtain ⟨hname, hrest⟩ := h.kept name n hn
        exact ⟨hother name n (h.ne_temp hn hi) hname, hrest⟩
      · intro name n hn
        rcases s.dir.named_rename hn with ⟨rfl, hfd⟩ | ⟨-, -, hn⟩
        · cases hsrc.symm.trans hfd
          exact .inr ⟨i, hmaker, fun _ => ⟨hpath, file, hget, hcomplete⟩⟩
        · exact h.written name n hn
  | @make temp fd d body hnone hbody hisTemp hnew =>
      obtain ⟨hfree, rfl, umask, rfl⟩ := hnew
      have hlt : ∀ name n, s.dir.names name = some n → n ≠ s.dir.files.length :=
        fun name n hn => Nat.ne_of_lt (s.dir.named hn)
      have hother : ∀ name n, s.dir.names name = some n →
          (s.dir.create temp (ownerOnly &&& ~~~umask)).names name = some n := by
        intro name n hn
        have hne : name ≠ temp := by
          rintro rfl
          cases hfree.symm.trans hn
        rwa [Dir.names_create, if_neg hne]
      have hfile : ∀ n, n ≠ s.dir.files.length →
          (s.dir.create temp (ownerOnly &&& ~~~umask)).file? n = s.dir.file? n := by
        intro n hn
        rw [Dir.file?_create, if_neg hn]
      have hold : ∀ n, n ≠ s.dir.files.length →
          Function.update s.maker s.dir.files.length (some i) n = s.maker n :=
        fun n hn => Function.update_of_ne hn ..
      refine ⟨?_, ?_, ?_, ?_, ?_⟩
      · intro j name fd' hj
        have hj : Function.update s.temp i (some (temp, s.dir.files.length)) j = some (name, fd') :=
          hj
        rw [Function.update_apply] at hj
        by_cases hij : j = i
        · rw [if_pos hij] at hj
          cases hj
          refine ⟨?_, ?_, hisTemp⟩
          · exact (Dir.names_create _).trans (if_pos rfl)
          · exact hij ▸ Function.update_self ..
        · rw [if_neg hij] at hj
          obtain ⟨hname, hmaker, hrest⟩ := h.temps j name fd' hj
          exact ⟨hother name fd' hname, (hold fd' (hlt name fd' hname)).trans hmaker, hrest⟩
      · intro name n hn
        obtain ⟨hname, hnone⟩ := h.kept name n hn
        exact ⟨hother name n hname, (hold n (hlt name n hname)).trans hnone⟩
      · intro n j hj
        by_cases hn : n = s.dir.files.length
        · subst hn
          have hj : Function.update s.maker s.dir.files.length (some i) s.dir.files.length =
            some j := hj
          rw [Function.update_self] at hj
          cases hj
          exact ⟨_, body, (Dir.file?_create _).trans (if_pos rfl), hbody, List.nil_prefix⟩
        · obtain ⟨file, body', hget, hrest⟩ := h.made n j ((hold n hn).symm.trans hj)
          exact ⟨file, body', (hfile n hn).trans hget, hrest⟩
      · intro n hn
        have hne : n ≠ s.dir.files.length := by
          rintro rfl
          cases hn.symm.trans (Function.update_self ..)
        exact (hfile n hne).trans (h.others n ((hold n hne).symm.trans hn))
      · intro name n hn
        rcases s.dir.named_create hn with ⟨rfl, rfl⟩ | ⟨-, hn⟩
        · exact .inr ⟨i, Function.update_self .., fun hnot => absurd hisTemp hnot⟩
        · have hne := hlt name n hn
          rcases h.written name n hn with hbefore | ⟨j, hj, hwritten⟩
          · exact .inl hbefore
          · refine .inr ⟨j, (hold n hne).trans hj, fun hnot => ?_⟩
            obtain ⟨hpath, file, hget, hcomplete⟩ := hwritten hnot
            exact ⟨hpath, file, (hfile n hne).trans hget, hcomplete⟩

omit [DecidableEq ι] in
theorem Inv.apart (h : Inv lib env cmds owned before s) (hji : j ≠ i) {name temp : String}
    {n fd : Nat} (hi : s.temp i = some (temp, fd)) (hn : s.dir.names name = some n)
    (hj : s.maker n = some j ∨ ¬ env.isTemp name) : name ≠ temp := by
  rintro rfl
  obtain ⟨hname, hmaker, hisTemp⟩ := h.temps i name fd hi
  cases hname.symm.trans hn
  rcases hj with hj | hnot
  · exact hji (Option.some.inj (hj.symm.trans hmaker))
  · exact hnot hisTemp

theorem Inv.leaves (h : Inv lib env cmds owned before s) (hji : j ≠ i)
    (hm : Moves lib env cmds owned i s s') : Leaves env j s s' := by
  cases hm with
  | still => exact ⟨rfl, fun n hn => ⟨hn, rfl⟩, fun name n hn _ => hn⟩
  | @change temp fd f hi hbody =>
      refine ⟨rfl, ?_, fun name n hn _ => hn⟩
      intro n hn
      refine ⟨hn, s.dir.file?_change_ne ?_⟩
      rintro rfl
      exact hji (Option.some.inj (hn.symm.trans (h.temps i temp n hi).2.1))
  | @drop temp fd d hi hd =>
      refine ⟨Function.update_of_ne hji .., ?_, ?_⟩
      · intro n hn
        refine ⟨hn, ?_⟩
        rcases hd with rfl | rfl <;> rfl
      · intro name n hn hj
        rcases hd with rfl | rfl
        · exact hn
        · exact (Dir.names_remove _).trans ((if_neg (h.apart hji hi hn hj)).trans hn)
  | @rename src dst fd file hi hfree hnot hpath hget hcomplete =>
      refine ⟨Function.update_of_ne hji .., fun n hn => ⟨hn, rfl⟩, ?_⟩
      intro name n hn hj
      have hdst : name ≠ dst := by
        rintro rfl
        cases hfree.symm.trans hn
      show (s.dir.rename src dst).names name = some n
      rwa [Dir.names_rename, if_neg (h.apart hji hi hn hj), if_neg hdst]
  | @make temp fd d body hnone hbody hisTemp hnew =>
      obtain ⟨hfree, rfl, umask, rfl⟩ := hnew
      refine ⟨Function.update_of_ne hji .., ?_, ?_⟩
      · intro n hn
        obtain ⟨file, _, hget, -⟩ := h.made n j hn
        have hne : n ≠ s.dir.files.length := by
          rintro rfl
          have hlt := (List.getElem?_eq_some_iff.mp hget).1
          exact Nat.lt_irrefl _ hlt
        exact ⟨(Function.update_of_ne hne ..).trans hn, (Dir.file?_create _).trans (if_neg hne)⟩
      · intro name n hn _
        have hne : name ≠ temp := by
          rintro rfl
          cases hfree.symm.trans hn
        exact (Dir.names_create _).trans ((if_neg hne).trans hn)

theorem identity_relies :
    Relies (identityWorld lib env cmds owned) (Inv lib env cmds owned before) (Leaves env) where
  refl _ _ := ⟨rfl, fun _ hn => ⟨hn, rfl⟩, fun _ _ hn _ => hn⟩
  trans i s₁ s₂ s₃ h h' := by
    refine ⟨h'.temp.trans h.temp, ?_, ?_⟩
    · intro n hn
      obtain ⟨hn₂, hfile⟩ := h.maker n hn
      obtain ⟨hn₃, hfile'⟩ := h'.maker n hn₂
      exact ⟨hn₃, hfile'.trans hfile⟩
    · intro name n hn hown
      exact h'.names name n (h.names name n hn hown) (hown.imp (fun hi => (h.maker n hi).1) id)
  keeps _ _ _ _ _ hs hguard hstep := hs.moves (step_moves hs hguard hstep.1)
  step _ _ _ _ _ _ hne hs hguard hstep := hs.leaves hne (step_moves hs hguard hstep.1)

end

end Zallet.Identity
