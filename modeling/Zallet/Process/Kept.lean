/-
# `Zallet.Process.Kept` — what processes leave each other

What every step of a process keeps (`Inv`): the cookie of the directory is
whole, or the one from before, and as long as a process has the lock the cookie
is one that its server accepts.  Whoever has the lock knows that the temporary
file is its own and that the cookie is changed by nobody else, except that
servers of processes that stopped may still remove it (`Around`).
-/
import Zallet.Process.Start

namespace Zallet.Process

open Prog Authorization Directory
open Text (utf8)

/-! ## What a cookie is -/

/-- The cookie with this password, for the owner only. -/
def CookieFile (password : String) (file : File) : Prop :=
  file.bytes = utf8 (cookieText password) ∧ file.mode &&& 0o077 = 0

section
variable (random : List UInt8 → Prop)

/-- A password of 32 bytes, drawn at random. -/
def Drawn (password : String) : Prop :=
  ∃ bytes : List UInt8, bytes.length = 32 ∧ random bytes ∧ password = encodeString bytes

/-- All of a cookie. -/
def Whole (file : File) : Prop := ∃ password, Drawn random password ∧ CookieFile password file

/-- Where 32 bytes are drawn, they are some of these. -/
def Draws : (op : ProcOp) → op.Ans → Prop
  | .gen length, bytes => length = 32 → random bytes
  | _, _ => True

end

/-- The cookie of the directory, if there is one, has this password. -/
def Put (datadir password : String) (d : Dir String) : Prop :=
  ∀ n, d.names (cookiePath datadir) = some n →
    ∃ file, d.file? n = some file ∧ CookieFile password file

section
variable (hmacSha256 : List UInt8 → List UInt8 → MacOutput) (random : List UInt8 → Prop)

/-- The users are those of the configuration and, with the password, that of the cookie. -/
structure Serves (config : Config) (users : Users) (password : Option String) : Prop where
  layer : ∃ setup : Setup, newLayer hmacSha256 setup = some users ∧
    setup.auth.map Prod.fst = config.auth ∧
      (password = none → setup.cookie = none) ∧
      ∀ pw ∈ password, ∃ salt, setup.cookie = some (cookieUser, .fromBare hmacSha256 salt pw)
  user : (∃ a ∈ config.auth, a.user = cookieUser) ↔ password = none
  drawn : ∀ pw ∈ password, Drawn random pw

section
variable {ι : Type} (configs : ι → Config) (datadir : String)

/-- The server of the process may go on with these users, and with that cookie to be removed. -/
def Ready (i : ι) (s : State ι) (users : Users) (guard : Option String) : Prop :=
  ∃ password, Serves hmacSha256 random (configs i) users password ∧
    guard = password.map (fun _ => cookiePath datadir) ∧
      (s.holder = some i → ∀ pw ∈ password, Put datadir pw s.dir)

/-- The cookie is whole, or the one that was there before; and a server that was spawned accepts it
as long as its process has the lock. -/
structure Inv (before : Dir String) (s : State ι) : Prop where
  whole : ∀ n, s.dir.names (cookiePath datadir) = some n → ∃ file, s.dir.file? n = some file ∧
    (Whole random file ∨ before.read (cookiePath datadir) = some file)
  serves : ∀ i users guard, s.spawned i = some (users, guard) →
    Ready hmacSha256 random configs datadir i s users guard

/-- What the main task of a process may do. -/
def mainAllowed (i : ι) (s : State ι) : ProcOp → Prop
  | .file (.removeFile path) =>
      path = cookiePath datadir ∨ path = cookieTmpPath datadir ∧ s.holder = some i
  | .file (.createNew path _) => path = cookieTmpPath datadir ∧ s.holder = some i
  | .file (.write fd _) => s.holder = some i ∧ s.dir.names (cookieTmpPath datadir) = some fd
  | .file (.rename src dst) => src = cookieTmpPath datadir ∧ dst = cookiePath datadir ∧
      s.holder = some i ∧ s.spawned i = none ∧
        ∃ fd file, s.dir.names (cookieTmpPath datadir) = some fd ∧ s.dir.file? fd = some file ∧
          Whole random file
  | .file _ => False
  | .tryLockExclusive _ => s.spawned i = none
  | .spawnServer users guard =>
      s.holder = some i ∧ Ready hmacSha256 random configs datadir i s users guard
  | _ => True

/-- What the task of its server may do. -/
def serverAllowed : ProcOp → Prop
  | .file (.removeFile path) => path = cookiePath datadir
  | .file _ | .spawnServer _ _ | .tryLockExclusive _ | .unlock => False
  | _ => True

variable [DecidableEq ι]

def procWorld (t : ι × Role) : World procSig (State ι) where
  step s op a s' := aliveStep t.1 s op a s' ∧ Draws random op a
  guard s op :=
    match t.2 with
    | .main => s.gone t.1 = false → mainAllowed hmacSha256 random configs datadir t.1 s op
    | .server => serverAllowed datadir op
  crash _ := False

/-- What the others do, as the main task of a process that does not die sees it. -/
def Around : ι × Role → State ι → State ι → Prop
  | (i, .main), s, s' => s'.gone i = false → s.gone i = false ∧ s'.spawned i = s.spawned i ∧
      (s.holder = some i → s'.holder = some i ∧
        (s'.dir = s.dir ∨ s'.dir = s.dir.remove (cookiePath datadir)))
  | (_, .server), _, _ => True

end

end

theorem cookieTmpPath_ne {datadir : String} : cookieTmpPath datadir ≠ cookiePath datadir := by
  intro h
  rw [cookieTmpPath, cookiePath, join, join, String.append_right_inj] at h
  revert h
  decide

/-! ## Steps -/

/-- The cookie is gone, or it is what it was. -/
def SameCookie (datadir : String) (d d' : Dir String) : Prop :=
  d'.names (cookiePath datadir) = none ∨ d'.names (cookiePath datadir) = d.names (cookiePath datadir) ∧
    ∀ n, d.names (cookiePath datadir) = some n → d'.file? n = d.file? n

section
variable {hmacSha256 : List UInt8 → List UInt8 → MacOutput} {random : List UInt8 → Prop}
  {ι : Type} {configs : ι → Config} {datadir password : String} {before : Dir String}
  {s s' s₁ : State ι} {d d' : Dir String} {i j : ι}

theorem SameCookie.put (h : SameCookie datadir d d') (hput : Put datadir password d) :
    Put datadir password d' := by
  intro n hn
  rcases h with hnone | ⟨hsame, hfile⟩
  · rw [hnone] at hn
    cases hn
  · rw [hsame] at hn
    rw [hfile n hn]
    exact hput n hn

theorem sameCookie_refl : SameCookie datadir d d := .inr ⟨rfl, fun _ _ => rfl⟩

theorem sameCookie_remove {path : String} : SameCookie datadir d (d.remove path) := by
  rw [SameCookie, Dir.names_remove]
  by_cases h : cookiePath datadir = path
  · exact .inl (if_pos h)
  · exact .inr ⟨if_neg h, fun _ _ => rfl⟩

theorem sameCookie_create {path : String} {mode : UInt16} (h : path ≠ cookiePath datadir) :
    SameCookie datadir d (d.create path mode) := by
  refine .inr ⟨?_, ?_⟩
  · rw [Dir.names_create, if_neg h.symm]
  · intro n hn
    rw [Dir.file?_create, if_neg (Nat.ne_of_lt (d.named hn))]

/-- Writing to the file of another name does nothing to the cookie. -/
theorem sameCookie_append {path : String} {fd : Nat} {bytes : List UInt8}
    (h : path ≠ cookiePath datadir) (hfd : d.names path = some fd) :
    SameCookie datadir d (d.append fd bytes) := by
  refine .inr ⟨rfl, ?_⟩
  intro n hn
  refine d.file?_change_ne ?_
  rintro rfl
  exact h (d.single hfd hn)

theorem Ready.dir {users : Users} {guard : Option String}
    (h : Ready hmacSha256 random configs datadir i s users guard)
    (hdir : SameCookie datadir s.dir s'.dir) (hholder : s'.holder = some i → s.holder = some i) :
    Ready hmacSha256 random configs datadir i s' users guard := by
  obtain ⟨password, hserves, hguard, hput⟩ := h
  exact ⟨password, hserves, hguard, fun hi pw hpw => hdir.put (hput (hholder hi) pw hpw)⟩

/-- A step that leaves the cookie as it is and the servers as they are, and nobody takes the lock
who has a server. -/
theorem Inv.same (h : Inv hmacSha256 random configs datadir before s)
    (hdir : SameCookie datadir s.dir s'.dir) (hspawned : s'.spawned = s.spawned)
    (hholder : ∀ i, s'.holder = some i → s.holder = some i ∨ s.spawned i = none) :
    Inv hmacSha256 random configs datadir before s' := by
  constructor
  · intro n hn
    rcases hdir with hnone | ⟨hsame, hfile⟩
    · rw [hnone] at hn
      cases hn
    · rw [hsame] at hn
      rw [hfile n hn]
      exact h.whole n hn
  · intro i users guard hi
    rw [hspawned] at hi
    refine (h.serves i users guard hi).dir hdir ?_
    intro hown
    rcases hholder i hown with hbefore | hnone
    · exact hbefore
    · rw [hnone] at hi
      cases hi

theorem Inv.dies (h : Inv hmacSha256 random configs datadir before s) (hd : Dies s s') :
    Inv hmacSha256 random configs datadir before s' :=
  h.same (hd.dir ▸ sameCookie_refl) hd.spawned fun i hi => .inl ((hd.holder i).mp hi).1

theorem mainAllowed_dies {op : ProcOp} (hd : Dies s s') (halive : s'.gone i = false)
    (h : mainAllowed hmacSha256 random configs datadir i s op) :
    mainAllowed hmacSha256 random configs datadir i s' op := by
  have hholder : s.holder = some i → s'.holder = some i := fun hi => (hd.holder i).mpr ⟨hi, halive⟩
  cases op with
  | file op =>
      cases op with
      | removeFile path => exact h.imp id fun h => ⟨h.1, hholder h.2⟩
      | createNew path mode => exact ⟨h.1, hholder h.2⟩
      | write fd bytes => exact ⟨hholder h.1, hd.dir ▸ h.2⟩
      | rename src dst =>
          obtain ⟨hsrc, hdst, hi, hnone, hwhole⟩ := h
          exact ⟨hsrc, hdst, hholder hi, hd.spawned ▸ hnone, hd.dir ▸ hwhole⟩
      | _ => exact h
  | tryLockExclusive path =>
      show s'.spawned i = none
      rw [hd.spawned]
      exact h
  | spawnServer users guard =>
      refine ⟨hholder h.1, h.2.dir (hd.dir ▸ sameCookie_refl) ?_⟩
      exact fun hi => ((hd.holder i).mp hi).1
  | _ => trivial

/-- The task of a server does what a main task may do as well. -/
theorem serverAllowed_main {op : ProcOp} (h : serverAllowed datadir op) :
    mainAllowed hmacSha256 random configs datadir i s op := by
  cases op with
  | file op =>
      cases op with
      | removeFile path => exact .inl h
      | _ => exact h.elim
  | tryLockExclusive path => exact h.elim
  | spawnServer users guard => exact h.elim
  | _ => trivial

/-- What an operation on a file does to the cookie. -/
theorem mainFile_same {op : FileOp String} {a : op.Ans}
    (h : mainAllowed hmacSha256 random configs datadir i s (.file op))
    (hstep : fileStep s.dir op a d) :
    SameCookie datadir s.dir d ∨ s.holder = some i ∧ s.spawned i = none ∧
      ∀ n, d.names (cookiePath datadir) = some n →
        ∃ file, d.file? n = some file ∧ Whole random file := by
  cases op with
  | removeFile path =>
      refine .inl ?_
      cases a with
      | ok _ => exact hstep.2 ▸ sameCookie_remove
      | error e => exact hstep.2 ▸ sameCookie_refl
  | createNew path mode =>
      refine .inl ?_
      cases a with
      | error e => exact (show d = s.dir from hstep) ▸ sameCookie_refl
      | ok fd =>
          obtain ⟨rfl, -⟩ := h
          obtain ⟨-, -, umask, rfl⟩ := hstep
          exact sameCookie_create cookieTmpPath_ne
  | write fd bytes =>
      refine .inl ?_
      cases a with
      | error e => exact (show d = s.dir from hstep) ▸ sameCookie_refl
      | ok n => exact hstep.2 ▸ sameCookie_append cookieTmpPath_ne h.2
  | rename src dst =>
      cases a with
      | error e => exact .inl ((show d = s.dir from hstep) ▸ sameCookie_refl)
      | ok _ =>
          obtain ⟨rfl, rfl, hi, hnone, fd, file, hfd, hfile, hwhole⟩ := h
          refine .inr ⟨hi, hnone, ?_⟩
          intro n hn
          rw [hstep.2, Dir.names_rename, if_neg cookieTmpPath_ne.symm, if_pos rfl, hfd] at hn
          cases hn
          exact ⟨file, hstep.2 ▸ hfile, hwhole⟩
  | createTemp => exact h.elim
  | setPermissions => exact h.elim
  | syncAll => exact h.elim
  | renameNoclobber => exact h.elim
  | readToString => exact h.elim

/-- A process sees of the death of others what they do before. -/
theorem around_dies (hd : Dies s s₁) (h : s'.gone = s₁.gone ∧ s'.spawned j = s₁.spawned j ∧
    (s₁.holder = some j → s'.holder = some j ∧
      (s'.dir = s₁.dir ∨ s'.dir = s₁.dir.remove (cookiePath datadir)))) :
    Around datadir (j, .main) s s' := by
  obtain ⟨hgone, hspawned, hheld⟩ := h
  intro halive
  rw [hgone] at halive
  refine ⟨hd.gone j halive, hspawned.trans (congrFun hd.spawned j), fun hj => ?_⟩
  rw [← hd.dir]
  exact hheld ((hd.holder j).mpr ⟨hj, halive⟩)

variable [DecidableEq ι]

/-- Every step of the main task of a process keeps the invariant. -/
theorem main_keeps {op : ProcOp} {a : op.Ans} (hs : Inv hmacSha256 random configs datadir before s)
    (h : mainAllowed hmacSha256 random configs datadir i s op) (hstep : procStep i s op a s') :
    Inv hmacSha256 random configs datadir before s' := by
  cases op with
  | file op =>
      obtain ⟨d, hfile, rfl⟩ := hstep
      rcases mainFile_same h hfile with hsame | ⟨hi, hnone, hwhole⟩
      · exact hs.same hsame rfl fun _ h => .inl h
      · constructor
        · intro n hn
          obtain ⟨file, hget, hfile⟩ := hwhole n hn
          exact ⟨file, hget, .inl hfile⟩
        · intro j users guard hj
          obtain ⟨password, hserves, hguard, -⟩ := hs.serves j users guard hj
          refine ⟨password, hserves, hguard, ?_⟩
          intro hown
          cases hi.symm.trans hown
          cases hnone.symm.trans hj
  | gen length => exact hstep.2 ▸ hs
  | tryLockExclusive path =>
      cases a with
      | error e => exact (show s' = s from hstep) ▸ hs
      | ok locked =>
          cases locked with
          | false => exact hstep.2 ▸ hs
          | true =>
              obtain ⟨-, rfl⟩ := hstep
              refine hs.same sameCookie_refl rfl ?_
              intro j hj
              cases hj
              exact .inr h
  | unlock =>
      obtain rfl : s' = _ := hstep
      refine hs.same sameCookie_refl rfl ?_
      intro j hj
      by_cases hi : s.holder = some i
      · rw [show (if s.holder = some i then none else s.holder) = none from if_pos hi] at hj
        cases hj
      · exact .inl ((if_neg hi).symm.trans hj)
  | spawnServer users guard =>
      obtain rfl : s' = _ := hstep
      refine ⟨hs.whole, ?_⟩
      intro j users' guard' hj
      by_cases hij : j = i
      · subst hij
        cases (Function.update_self j (some (users, guard)) s.spawned).symm.trans hj
        exact h.2
      · exact hs.serves j users' guard'
          ((Function.update_of_ne hij (some (users, guard)) s.spawned).symm.trans hj)
  | begin => exact hstep.2 ▸ hs
  | _ => exact (show s' = s from hstep) ▸ hs

/-- And what the others see of it. -/
theorem main_around {op : ProcOp} {a : op.Ans} (hij : j ≠ i)
    (h : mainAllowed hmacSha256 random configs datadir i s op) (hstep : procStep i s op a s') :
    s'.gone = s.gone ∧ s'.spawned j = s.spawned j ∧ (s.holder = some j → s'.holder = some j ∧
      (s'.dir = s.dir ∨ s'.dir = s.dir.remove (cookiePath datadir))) := by
  have hnot : s.holder = some j → s.holder ≠ some i := by
    intro hj hi
    cases hj.symm.trans hi
    exact hij rfl
  cases op with
  | file op =>
      obtain ⟨d, hfile, rfl⟩ := hstep
      refine ⟨rfl, rfl, fun hj => ⟨hj, ?_⟩⟩
      cases op with
      | removeFile path =>
          rcases h with rfl | ⟨-, hi⟩
          · cases a with
            | ok _ => exact .inr hfile.2
            | error e => exact .inl hfile.2
          · exact absurd hi (hnot hj)
      | createNew path mode => exact absurd h.2 (hnot hj)
      | write fd bytes => exact absurd h.1 (hnot hj)
      | rename src dst => exact absurd h.2.2.1 (hnot hj)
      | createTemp => exact h.elim
      | setPermissions => exact h.elim
      | syncAll => exact h.elim
      | renameNoclobber => exact h.elim
      | readToString => exact h.elim
  | gen length => exact hstep.2 ▸ ⟨rfl, rfl, fun hj => ⟨hj, .inl rfl⟩⟩
  | tryLockExclusive path =>
      cases a with
      | error e => exact (show s' = s from hstep) ▸ ⟨rfl, rfl, fun hj => ⟨hj, .inl rfl⟩⟩
      | ok locked =>
          cases locked with
          | false => exact hstep.2 ▸ ⟨rfl, rfl, fun hj => ⟨hj, .inl rfl⟩⟩
          | true =>
              obtain ⟨hfree, rfl⟩ := hstep
              refine ⟨rfl, rfl, fun hj => ?_⟩
              rw [hfree] at hj
              cases hj
  | unlock =>
      obtain rfl : s' = _ := hstep
      refine ⟨rfl, rfl, fun hj => ⟨?_, .inl rfl⟩⟩
      exact (if_neg (hnot hj)).trans hj
  | spawnServer users guard =>
      obtain rfl : s' = _ := hstep
      exact ⟨rfl, Function.update_of_ne hij .., fun hj => ⟨hj, .inl rfl⟩⟩
  | begin => exact hstep.2 ▸ ⟨rfl, rfl, fun hj => ⟨hj, .inl rfl⟩⟩
  | _ => exact (show s' = s from hstep) ▸ ⟨rfl, rfl, fun hj => ⟨hj, .inl rfl⟩⟩

/-- And of the task of a server. -/
theorem server_around {op : ProcOp} {a : op.Ans} (h : serverAllowed datadir op)
    (hstep : procStep i s op a s') :
    s'.gone = s.gone ∧ s'.spawned = s.spawned ∧ s'.holder = s.holder ∧
      (s'.dir = s.dir ∨ s'.dir = s.dir.remove (cookiePath datadir)) := by
  cases op with
  | file op =>
      obtain ⟨d, hfile, rfl⟩ := hstep
      refine ⟨rfl, rfl, rfl, ?_⟩
      cases op with
      | removeFile path =>
          obtain rfl := h
          cases a with
          | ok _ => exact .inr hfile.2
          | error e => exact .inl hfile.2
      | _ => exact h.elim
  | gen length => exact hstep.2 ▸ ⟨rfl, rfl, rfl, .inl rfl⟩
  | tryLockExclusive path => exact h.elim
  | unlock => exact h.elim
  | spawnServer users guard => exact h.elim
  | begin => exact hstep.2 ▸ ⟨rfl, rfl, rfl, .inl rfl⟩
  | _ => exact (show s' = s from hstep) ▸ ⟨rfl, rfl, rfl, .inl rfl⟩

/-! ## The tasks, each for itself -/

theorem remove_remove {path : String} : (d.remove path).remove path = d.remove path := by
  have hnames : Function.update (Function.update d.names path none) path none =
      Function.update d.names path none := Function.update_idem ..
  simp only [Dir.remove, hnames]

theorem around_relies : Relies (procWorld hmacSha256 random configs datadir)
    (Inv hmacSha256 random configs datadir before) (Around datadir) where
  refl := by
    rintro ⟨i, role⟩ s
    cases role with
    | main => exact fun h => ⟨h, rfl, fun hi => ⟨hi, .inl rfl⟩⟩
    | server => trivial
  trans := by
    rintro ⟨i, role⟩ s₁ s₂ s₃ h h'
    cases role with
    | server => trivial
    | main =>
        intro halive
        obtain ⟨halive₂, hspawned', hheld'⟩ := h' halive
        obtain ⟨halive₁, hspawned, hheld⟩ := h halive₂
        refine ⟨halive₁, hspawned'.trans hspawned, fun hi => ?_⟩
        obtain ⟨hi₂, hdir⟩ := hheld hi
        obtain ⟨hi₃, hdir'⟩ := hheld' hi₂
        refine ⟨hi₃, ?_⟩
        rcases hdir with hdir | hdir
        · rwa [hdir] at hdir'
        · rw [hdir, remove_remove, or_self] at hdir'
          exact .inr hdir'
  keeps := by
    rintro ⟨i, role⟩ s op a s' hs hguard hstep
    cases role with
    | main =>
        obtain ⟨⟨s₁, hd, halive, hstep⟩, -⟩ := hstep
        exact main_keeps (hs.dies hd)
          (mainAllowed_dies hd halive (hguard (hd.gone i halive))) hstep
    | server =>
        obtain ⟨⟨s₁, hd, -, hstep⟩, -⟩ := hstep
        exact main_keeps (hs.dies hd) (serverAllowed_main hguard) hstep
  step := by
    rintro ⟨i, role⟩ ⟨j, role'⟩ s op a s' hne hs hguard hstep
    cases role' with
    | server => trivial
    | main =>
        cases role with
        | main =>
            obtain ⟨⟨s₁, hd, halive, hstep⟩, -⟩ := hstep
            have hij : j ≠ i := fun h => hne (h ▸ rfl)
            exact around_dies hd (main_around hij
              (mainAllowed_dies hd halive (hguard (hd.gone i halive))) hstep)
        | server =>
            obtain ⟨⟨s₁, hd, -, hstep⟩, -⟩ := hstep
            obtain ⟨hgone, hspawned, hholder, hdir⟩ := server_around hguard hstep
            exact around_dies hd ⟨hgone, congrFun hspawned j, fun hj => ⟨hholder.trans hj, hdir⟩⟩

end

end Zallet.Process
