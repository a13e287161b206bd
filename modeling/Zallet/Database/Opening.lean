/-
# `Zallet.Database.Opening` — what one opening does

An opening writes to a database that was there only after it was verified, and
what it records is its own version, over another one (`wp_openDatabase`).  So a
database that does not pass is left as it is (`opening_refused`), and on a disk
that works an opening comes to the verdict on what it found
(`opening_verdict`).
-/
import Zallet.Database.Open

namespace Zallet.Database

open Prog

/-! ## One opening -/

/-- A process that opened the database, or was at it when it stopped. -/
structure Opening where
  build : Build
  dbPath : String
  network : NetworkType
  trace : Trace openSig

section
variable (lib : VersionLib)

/-- The program the process runs. -/
def Opening.program (o : Opening) : OpenProg Unit := openDatabase lib o.build o.dbPath o.network

/-- The version is one this binary goes on from. -/
def Accepted (version : String) : Prop :=
  ∃ v, lib.parse version = .ok v ∧ lib.le lib.minimum v = true

end

variable {lib : VersionLib} {disk disk' : Disk} {o : Opening}

/-- All that a step can do to the disk. -/
theorem diskStep_cases {op : OpenOp} {a : op.Ans} (h : diskStep disk op a disk') :
    disk' = disk ∨ (op = .handle ∧ disk' = disk.opened) ∨
      (∃ network, op = .initOrMigrate network ∧ disk' = disk.migrated network) ∨
      ∃ row, op = .insertVersion row ∧ disk' = disk.record row := by
  cases op with
  | tryExists =>
      cases a with
      | ok present => exact .inl h.2
      | error e => exact .inl h
  | buildPool | nowUtc => exact .inl h
  | handle =>
      cases a with
      | ok _ => exact .inr (.inl ⟨rfl, h⟩)
      | error e => exact h.imp id fun h => .inl ⟨rfl, h⟩
  | selectLatestVersion =>
      cases a with
      | ok latest => exact .inl h.2.2
      | error e => exact .inl h
  | selectNetworkType =>
      cases a with
      | ok network => exact .inl h.2
      | error e => exact .inl h
  | initOrMigrate network =>
      cases a with
      | ok _ => exact .inr (.inr (.inl ⟨network, rfl, h⟩))
      | error e => exact h.imp id fun h => .inr (.inl ⟨network, rfl, h⟩)
  | selectLatestTuple =>
      cases a with
      | ok latest => exact .inl h.2.2
      | error e => exact .inl h
  | insertVersion row =>
      cases a with
      | ok _ => exact .inr (.inr (.inr ⟨row, rfl, h.2⟩))
      | error e => exact .inl h

/-! ## What one opening does -/

/-- What the verification of a database comes to. -/
def verdict (lib : VersionLib) (disk : Disk) (dbPath : String) (network : NetworkType) :
    Except Error Unit := do
  let latest ← (disk.versions.getLast?.map (·.version)).elim
    (.error incompatibleAlphaDatabaseError) .ok
  let version ← (lib.parse latest).mapError (invalidZalletVersionError latest)
  if lib.le lib.minimum version then
    disk.network?.elim (.error incompatibleAlphaDatabaseError) (matching dbPath network)
  else .error incompatibleAlphaDatabaseError

/-- The disk does what it is asked: it fails a statement only where the tables are missing. -/
def Works (disk : Disk) : (op : OpenOp) → op.Ans → Prop
  | .selectLatestVersion, .error _ | .selectNetworkType, .error _ | .selectLatestTuple, .error _
  | .insertVersion _, .error _ => disk.network? = none
  | .tryExists, .error _ | .buildPool, .error _ | .handle, .error _
  | .initOrMigrate _, .error _ => False
  | _, _ => True

/-- The disk that works, if `w`.  It is only written to where `passed` holds, and the version that
is recorded is the build's, over another one. -/
def attended (w passed : Prop) (build : Build) : World openSig Disk where
  step disk op a disk' := diskStep disk op a disk' ∧ (w → Works disk op a)
  guard disk op :=
    match op with
    | .initOrMigrate _ => passed
    | .insertVersion row => passed ∧ row.toVersionTuple = build.tuple ∧
        disk.versions.getLast?.map (·.toVersionTuple) ≠ some build.tuple
    | _ => True
  crash _ := False

/-- A database that was there has been verified. -/
def Passed (lib : VersionLib) (disk : Disk) (dbPath : String) (network : NetworkType) : Prop :=
  disk.present = true → verdict lib disk dbPath network = .ok ()

/-- The tables are there, and the last version recorded is the build's. -/
def Recorded (build : Build) (network : NetworkType) (disk : Disk) : Prop :=
  disk.network? = some network ∧
    disk.versions.getLast?.map (·.toVersionTuple) = some build.tuple

theorem opened_of_present (h : disk.present = true) : disk.opened = disk := by
  cases disk with
  | missing => cases h
  | _ => rfl

theorem versions_of_network_none (h : disk.network? = none) : disk.versions = [] := by
  cases disk with
  | tables network versions => cases h
  | _ => rfl

theorem last_record {row : VersionRow} {network : NetworkType} (h : disk.network? = some network) :
    (disk.record row).versions.getLast? = some row := by
  cases disk with
  | tables n versions => exact List.getLast?_concat
  | _ => cases h

theorem network_of_last {row : VersionRow} (h : disk.versions.getLast? = some row) :
    ∃ network, disk.network? = some network := by
  cases disk with
  | tables network versions => exact ⟨network, rfl⟩
  | _ => cases h

theorem verdict_of_last {dbPath : String} {network : NetworkType} {row : VersionRow}
    (h : disk.versions.getLast? = some row) : verdict lib disk dbPath network =
      ((lib.parse row.version).mapError (invalidZalletVersionError row.version)).bind
        fun version => if lib.le lib.minimum version then
          disk.network?.elim (.error incompatibleAlphaDatabaseError) (matching dbPath network)
        else .error incompatibleAlphaDatabaseError := by
  rw [verdict, h]
  rfl

theorem verdict_eq_ok {dbPath : String} {network : NetworkType} :
    verdict lib disk dbPath network = .ok () ↔
      (∃ row, disk.versions.getLast? = some row ∧ Accepted lib row.version) ∧
        disk.network? = some network := by
  cases hlast : disk.versions.getLast? with
  | none =>
      rw [verdict, hlast]
      exact iff_of_false (by rintro ⟨⟩) (by rintro ⟨⟨row, ⟨⟩, -⟩, -⟩)
  | some row =>
      obtain ⟨n, hn⟩ := network_of_last hlast
      rw [verdict_of_last hlast, hn]
      constructor
      · intro h
        cases hparse : lib.parse row.version with
        | error e =>
            rw [hparse] at h
            cases h
        | ok v =>
            rw [hparse] at h
            simp only [mapError_ok, Except.bind, Option.elim_some, matching] at h
            split at h
            case isTrue hle =>
                split at h
                case isTrue heq => exact ⟨⟨row, rfl, v, hparse, hle⟩, congrArg some heq⟩
                case isFalse hne => cases h
            case isFalse hle => cases h
      · rintro ⟨⟨_, ⟨⟩, v, hparse, hle⟩, ⟨⟩⟩
        rw [hparse]
        simp only [mapError_ok, Except.bind, Option.elim_some, matching, hle, if_true]

theorem network_of_verdict {dbPath : String} {network : NetworkType}
    (h : verdict lib disk dbPath network = .ok ()) (n : NetworkType)
    (hn : disk.network? = some n) : n = network :=
  Option.some.inj (hn.symm.trans (verdict_eq_ok.mp h).2)

section
variable {w passed : Prop} {build : Build} {network : NetworkType} {dbPath : String}

/-- The version last recorded is read, or there is none. -/
theorem wp_latestVersion {Q : Disk → String → Prop} {R : Disk → Error → Prop}
    (hnone : (w → disk.versions = []) → R disk incompatibleAlphaDatabaseError)
    (hsome : ∀ row, disk.versions.getLast? = some row → Q disk row.version) :
    wp (attended w passed build) latestRecordedZalletVersion Q R disk := by
  simp only [latestRecordedZalletVersion, wp_query]
  refine ⟨trivial, ?_⟩
  rintro (e | latest) disk' ⟨hstep, hworks⟩
  · cases hstep
    exact hnone fun hw => versions_of_network_none (hworks hw)
  · obtain ⟨-, rfl, rfl⟩ := hstep
    cases hlast : disk'.versions.getLast? with
    | none => exact hnone fun _ => List.getLast?_eq_none_iff.mp hlast
    | some row => exact hsome row hlast

/-- The verification writes nothing; on a disk that works it comes to the verdict, and where it
passes, the verdict is that it does. -/
theorem wp_verifyExistingDatabase {Q : Disk → Unit → Prop} {R : Disk → Error → Prop}
    (hfail : ∀ e, (w → verdict lib disk dbPath network = .error e) → R disk e)
    (hpass : verdict lib disk dbPath network = .ok () → Q disk ()) :
    wp (attended w passed build) (verifyExistingDatabase lib dbPath network) Q R disk := by
  simp only [verifyExistingDatabase, verifyAlphaDbCompatibility, verifyWalletNetworkType, wp_bind]
  refine wp_latestVersion ?_ ?_
  · intro hempty
    refine hfail _ fun hw => ?_
    rw [verdict, hempty hw]
    rfl
  · intro row hrow
    rw [verdict_of_last hrow] at hfail hpass
    rw [wp_ofExcept]
    cases hparse : lib.parse row.version with
    | error e =>
        rw [hparse] at hfail
        exact hfail _ fun _ => rfl
    | ok version =>
        rw [hparse] at hfail hpass
        simp only [mapError_ok, Except.bind] at hfail hpass
        rw [ends_ok, lib.parse_minimum]
        dsimp only
        by_cases hle : lib.le lib.minimum version = true
        · rw [if_pos hle] at hfail hpass ⊢
          simp only [wp_pure, wp_query]
          refine ⟨trivial, ?_⟩
          rintro (e | walletNetwork) disk' ⟨hstep, hworks⟩
          · cases hstep
            obtain ⟨network', hnetwork⟩ := network_of_last hrow
            refine hfail _ fun hw => ?_
            cases hnetwork.symm.trans (hworks hw)
          · obtain ⟨hnetwork, rfl⟩ := hstep
            rw [hnetwork, Option.elim_some] at hfail hpass
            show wp (attended w passed build) (ofExcept id (matching dbPath network walletNetwork)) Q R disk'
            rw [wp_ofExcept]
            cases hmatch : matching dbPath network walletNetwork with
            | error e => exact hfail e fun _ => hmatch
            | ok _ => exact hpass hmatch
        · rw [if_neg hle] at hfail ⊢
          exact hfail _ fun _ => rfl

/-- After the migrations the version is on record, whether it had to be entered or not. -/
theorem wp_upgradeDatabase (hpassed : passed)
    (hnetwork : ∀ n, disk.network? = some n → n = network)
    {R : Disk → Error → Prop} (hfail : ∀ s e, ¬ w → R s e) :
    wp (attended w passed build) (upgradeDatabase build network)
      (fun s _ => Recorded build network s) R disk := by
  have hmigrated : (disk.migrated network).network? = some network := by
    cases disk with
    | tables n versions => exact congrArg some (hnetwork n rfl)
    | _ => rfl
  simp only [upgradeDatabase, recordVersion, wp_bind, wp_query]
  refine ⟨hpassed, ?_⟩
  rintro (e | _) disk₁ ⟨hstep, hworks⟩
  · exact hfail _ _ fun hw => hworks hw
  · cases hstep
    refine ⟨trivial, ?_⟩
    rintro now disk₂ ⟨hstep, -⟩
    cases hstep
    refine ⟨trivial, ?_⟩
    rintro (e | latest) disk₃ ⟨hstep, hworks⟩
    · refine hfail _ _ fun hw => ?_
      cases hmigrated.symm.trans (hworks hw)
    · obtain ⟨-, rfl, rfl⟩ := hstep
      simp only [mapError_ok, ends_ok]
      split
      case isTrue hsame => exact ⟨hmigrated, hsame⟩
      case isFalse hother =>
          rw [wp_query]
          refine ⟨⟨hpassed, rfl, hother⟩, ?_⟩
          rintro (e | _) disk₄ ⟨hstep, hworks⟩
          · refine hfail _ _ fun hw => ?_
            cases hmigrated.symm.trans (hworks hw)
          · obtain ⟨-, rfl⟩ := hstep
            refine ⟨(Disk.network_record _ _).trans hmigrated, ?_⟩
            rw [last_record hmigrated]
            rfl

/-- An opening writes to the database only after it was verified; it succeeds with its version on
record, and on a disk that works it fails with the verdict, having written nothing. -/
theorem wp_openDatabase {R : Disk → Error → Prop}
    (hfail : ∀ s e, (w → disk.present = true ∧ s = disk ∧
      verdict lib disk dbPath network = .error e) → R s e) :
    wp (attended w (Passed lib disk dbPath network) build)
      (openDatabase lib build dbPath network)
      (fun s _ => Recorded build network s ∧ Passed lib disk dbPath network) R disk := by
  simp only [openDatabase, wp_bind, wp_query]
  refine ⟨trivial, ?_⟩
  rintro (e | dbExists) disk₁ ⟨hstep, hworks⟩
  · exact hfail _ _ fun hw => (hworks hw).elim
  obtain ⟨rfl, rfl⟩ := hstep
  refine ⟨trivial, ?_⟩
  rintro (e | _) disk₂ ⟨hstep, hworks⟩
  · exact hfail _ _ fun hw => (hworks hw).elim
  cases hstep
  refine ⟨trivial, ?_⟩
  rintro (e | _) disk₃ ⟨hstep, hworks⟩
  · exact hfail _ _ fun hw => (hworks hw).elim
  cases hstep
  have hupgrade : ∀ s : Disk, (∀ n, s.network? = some n → n = network) →
      Passed lib disk₁ dbPath network →
      wp (attended w (Passed lib disk₁ dbPath network) build) (upgradeDatabase build network)
        (fun s _ => Recorded build network s ∧ Passed lib disk₁ dbPath network) R s := by
    intro s hs hpassed
    refine wp_mono (fun t _ ht => ⟨ht, hpassed⟩) (fun _ _ h => h)
      (wp_upgradeDatabase hpassed hs ?_)
    intro t e hw
    exact hfail t e fun h => absurd h hw
  rw [mapError_ok, ends_ok]
  by_cases hpresent : disk₁.present = true
  · rw [if_pos hpresent, opened_of_present hpresent, wp_bind]
    refine wp_verifyExistingDatabase ?_ ?_
    · intro e he
      exact hfail _ _ fun hw => ⟨hpresent, rfl, he hw⟩
    · intro hverdict
      exact hupgrade _ (network_of_verdict hverdict) fun _ => hverdict
  · have hmissing : disk₁ = .missing := by
      cases disk₁ with
      | missing => rfl
      | _ => exact absurd rfl hpresent
    rw [if_neg hpresent]
    refine hupgrade _ ?_ fun h => absurd h hpresent
    rw [hmissing]
    rintro _ ⟨⟩

end

theorem path_attended {passed : Prop} {build : Build} {tr : Trace openSig}
    (h : Path diskStep disk tr disk') : Path (attended False passed build).step disk tr disk' := by
  induction h with
  | nil disk => exact .nil disk
  | cons hstep _ ih => exact .cons ⟨hstep, False.elim⟩ ih

section
variable {q : OpenProg Unit}

/-- What an opening may do at each of its steps. -/
theorem opening_keeps {I : Disk → Prop} (hrun : Run (o.program lib) o.trace q)
    (hpath : Path diskStep disk o.trace disk')
    (hstep : ∀ s op a s', I s →
      (attended False (Passed lib disk o.dbPath o.network) o.build).guard s op →
      diskStep s op a s' → I s') (hI : I disk) : I disk' :=
  (wp_openDatabase (w := False) (R := fun _ _ => True) fun _ _ _ => trivial).keeps hrun
    (path_attended hpath) (fun s op a s' hs hguard h => hstep s op a s' hs hguard h.1) hI

theorem opening_succeeds (hrun : Run (o.program lib) o.trace (.ret ()))
    (hpath : Path diskStep disk o.trace disk') :
    Recorded o.build o.network disk' ∧ Passed lib disk o.dbPath o.network :=
  (wp_openDatabase (w := False) (R := fun _ _ => True) fun _ _ _ => trivial).sound hrun
    (path_attended hpath)

end

/-! ## On a disk that works -/

/-- The steps of a disk that works. -/
def workingStep (disk : Disk) (op : OpenOp) (a : op.Ans) (disk' : Disk) : Prop :=
  diskStep disk op a disk' ∧ Works disk op a

/-- On a disk that works, the opening is over and came to this. -/
def Opening.EndsIn (lib : VersionLib) (o : Opening) (disk disk' : Disk) (r : Except Error Unit) :
    Prop :=
  Run (o.program lib) o.trace (ended r) ∧ Path workingStep disk o.trace disk'

theorem path_working {passed : Prop} {build : Build} {tr : Trace openSig}
    (h : Path workingStep disk tr disk') :
    Path (attended True passed build).step disk tr disk' ∧ Path diskStep disk tr disk' := by
  induction h with
  | nil disk => exact ⟨.nil disk, .nil disk⟩
  | cons hstep _ ih => exact ⟨.cons ⟨hstep.1, fun _ => hstep.2⟩ ih.1, .cons hstep.1 ih.2⟩

/-- A database that does not pass is left as it is. -/
theorem opening_refused {q : OpenProg Unit} (hpresent : disk.present = true)
    (hverdict : verdict lib disk o.dbPath o.network ≠ .ok ())
    (hrun : Run (o.program lib) o.trace q) (hpath : Path diskStep disk o.trace disk') :
    disk' = disk ∧ q ≠ .ret () := by
  have hpassed : ¬ Passed lib disk o.dbPath o.network := fun h => hverdict (h hpresent)
  constructor
  · refine opening_keeps (I := fun s => s = disk) hrun hpath ?_ rfl
    rintro s op a s' rfl hguard hstep
    obtain h | ⟨-, h⟩ | ⟨network, rfl, -⟩ | ⟨row, rfl, -⟩ := diskStep_cases hstep
    · exact h
    · exact h.trans (opened_of_present hpresent)
    · exact absurd hguard hpassed
    · exact absurd hguard.1 hpassed
  · rintro rfl
    exact hpassed (opening_succeeds hrun hpath).2

/-- On a disk that works, a database that is there is opened or refused by the verdict. -/
theorem opening_verdict {r : Except Error Unit} (hpresent : disk.present = true)
    (h : o.EndsIn lib disk disk' r) : r = verdict lib disk o.dbPath o.network := by
  have hwp : wp (attended True (Passed lib disk o.dbPath o.network) o.build) (o.program lib)
      (fun s _ => Recorded o.build o.network s ∧ Passed lib disk o.dbPath o.network)
      (fun s e => disk.present = true ∧ s = disk ∧
        verdict lib disk o.dbPath o.network = .error e) disk :=
    wp_openDatabase fun _ _ hfail => hfail trivial
  have hfits := hwp.sound h.1 (path_working h.2).1
  cases r with
  | ok _ => exact (hfits.2 hpresent).symm
  | error e => exact hfits.2.2.symm

/-! ## A disk that answers -/

/-- A disk that works, and migrations that need no seed. -/
def answering : Answer openSig Disk := fun disk op =>
  match op with
  | .tryExists => (.ok disk.present, disk)
  | .buildPool => (.ok (), disk)
  | .handle => (.ok (), disk.opened)
  | .selectLatestVersion =>
      if disk.network?.isSome then (.ok (disk.versions.getLast?.map (·.version)), disk)
      else (.error "no such table: ext_zallet_db_version_metadata", disk)
  | .selectNetworkType =>
      match disk.network? with
      | some network => (.ok network, disk)
      | none => (.error "no such table: ext_zallet_db_wallet_metadata", disk)
  | .initOrMigrate network => (.ok (), disk.migrated network)
  | .nowUtc => (0, disk)
  | .selectLatestTuple =>
      if disk.network?.isSome then (.ok (disk.versions.getLast?.map (·.toVersionTuple)), disk)
      else (.error "no such table: ext_zallet_db_version_metadata", disk)
  | .insertVersion row =>
      if disk.network?.isSome then (.ok (), disk.record row)
      else (.error "no such table: ext_zallet_db_version_metadata", disk)

theorem network_none_of_isSome (h : ¬ disk.network?.isSome = true) : disk.network? = none :=
  Option.not_isSome_iff_eq_none.mp h

theorem answering_works (disk : Disk) (op : OpenOp) :
    workingStep disk op (answering disk op).1 (answering disk op).2 := by
  cases op with
  | tryExists => exact ⟨⟨rfl, rfl⟩, trivial⟩
  | buildPool | handle | nowUtc | initOrMigrate => exact ⟨rfl, trivial⟩
  | selectLatestVersion | selectLatestTuple =>
      dsimp only [answering]
      split
      case isTrue htables => exact ⟨⟨htables, rfl, rfl⟩, trivial⟩
      case isFalse htables => exact ⟨rfl, network_none_of_isSome htables⟩
  | selectNetworkType =>
      dsimp only [answering]
      cases hnetwork : disk.network? with
      | some network => exact ⟨⟨hnetwork, rfl⟩, trivial⟩
      | none => exact ⟨rfl, hnetwork⟩
  | insertVersion row =>
      dsimp only [answering]
      split
      case isTrue htables => exact ⟨⟨htables, rfl⟩, trivial⟩
      case isFalse htables => exact ⟨rfl, network_none_of_isSome htables⟩

/-- The versions of the alphas, as far as they are used here. -/
def alphas : VersionLib where
  Version := Nat
  parse version :=
    if version = "0.1.0-alpha.4" then .ok 4
    else if version = "0.1.0-alpha.5" then .ok 5
    else .error "unexpected character while parsing major version number"
  le a b := decide (a ≤ b)
  minimum := 4
  parse_minimum := rfl

def alphaFour : Build := ⟨"0.1.0-alpha.4", "", true⟩

def alphaFive : Build := ⟨"0.1.0-alpha.5", "5d3a", false⟩

end Zallet.Database
