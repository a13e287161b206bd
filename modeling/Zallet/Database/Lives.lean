/-
# `Zallet.Database.Lives` — the life of a wallet database

A database is opened again and again, by one process after the other: by builds
of several versions, for one network or another, each process dying wherever it
does and each statement failing as it likes.

Along such a life the network that was entered stays, versions are only added,
and no two in a row are the same (`life_kept`).  What a life cannot mend is a
first opening that stopped after it connected and before it recorded its
version: the database it leaves is refused from then on, as one of an
incompatible version, and nothing about it changes any more.  One that was
recorded once is opened by every later process of its network
(`life_decided`).
-/
import Mathlib.Data.List.Chain
import Mathlib.Data.List.Infix
import Zallet.Database.Opening

namespace Zallet.Database

open Prog

section
variable (lib : VersionLib)

/-- The database is opened by one process after the other. -/
inductive Lives : Disk → List Opening → Disk → Prop
  | nil (disk : Disk) : Lives disk [] disk
  | cons {disk disk₁ disk' : Disk} {o : Opening} {os : List Opening} {q : OpenProg Unit} :
      Run (o.program lib) o.trace q → Path diskStep disk o.trace disk₁ → Lives disk₁ os disk' →
      Lives disk (o :: os) disk'

end

variable {lib : VersionLib} {disk disk' : Disk} {os : List Opening}

/-! ## What is never undone -/

/-- The network stays, and versions are only added. -/
def Grows (disk disk' : Disk) : Prop :=
  (∀ network, disk.network? = some network → disk'.network? = some network) ∧
    disk.versions <+: disk'.versions

theorem Grows.refl (disk : Disk) : Grows disk disk := ⟨fun _ h => h, List.prefix_rfl⟩

theorem Grows.trans {disk₁ : Disk} (h : Grows disk disk₁) (h' : Grows disk₁ disk') :
    Grows disk disk' :=
  ⟨fun network hn => h'.1 network (h.1 network hn), h.2.trans h'.2⟩

theorem grows_opened : Grows disk disk.opened := by
  constructor
  · intro network h
    rwa [Disk.network_opened]
  · rw [Disk.versions_opened]

theorem grows_migrated {network : NetworkType} : Grows disk (disk.migrated network) := by
  constructor
  · intro n h
    cases disk with
    | tables m versions => exact h
    | _ => cases h
  · rw [Disk.versions_migrated]

theorem grows_record {row : VersionRow} : Grows disk (disk.record row) := by
  constructor
  · intro network h
    rwa [Disk.network_record]
  · cases disk with
    | tables m versions => exact List.prefix_append _ _
    | _ => exact List.prefix_rfl

theorem diskStep_grows {op : OpenOp} {a : op.Ans} (h : diskStep disk op a disk') :
    Grows disk disk' := by
  obtain rfl | ⟨-, rfl⟩ | ⟨network, -, rfl⟩ | ⟨row, -, rfl⟩ := diskStep_cases h
  · exact .refl _
  · exact grows_opened
  · exact grows_migrated
  · exact grows_record

theorem path_grows {tr : Trace openSig} (h : Path diskStep disk tr disk') : Grows disk disk' := by
  induction h with
  | nil disk => exact .refl disk
  | cons hstep _ ih => exact (diskStep_grows hstep).trans ih

/-! ## The versions that are recorded -/

/-- No two versions in a row are the same. -/
def Distinct (disk : Disk) : Prop :=
  List.IsChain (fun a b : VersionRow => a.toVersionTuple ≠ b.toVersionTuple) disk.versions

theorem distinct_record {row : VersionRow} (h : Distinct disk)
    (hother : disk.versions.getLast?.map (·.toVersionTuple) ≠ some row.toVersionTuple) :
    Distinct (disk.record row) := by
  cases disk with
  | tables network versions =>
      refine List.isChain_append.mpr ⟨h, List.isChain_singleton row, ?_⟩
      intro last hlast first hfirst hsame
      cases hfirst
      refine hother ?_
      rw [show (Disk.tables network versions).versions.getLast? = some last from hlast,
        Option.map_some, hsame]
  | _ => exact h

/-- A step that records nothing leaves the versions as they are. -/
theorem diskStep_versions {op : OpenOp} {a : op.Ans} (h : diskStep disk op a disk')
    (hop : ∀ row, op ≠ .insertVersion row) : disk'.versions = disk.versions := by
  obtain rfl | ⟨-, rfl⟩ | ⟨network, -, rfl⟩ | ⟨row, hrow, -⟩ := diskStep_cases h
  · rfl
  · exact Disk.versions_opened _
  · exact Disk.versions_migrated _ _
  · exact absurd hrow (hop row)

/-- An insert that is answered adds its row, and one that fails nothing. -/
theorem versions_insert {row : VersionRow} {a : Except String Unit}
    (h : diskStep disk (.insertVersion row) a disk') :
    disk'.versions = disk.versions ++ if a.isOk then [row] else [] := by
  cases a with
  | error e =>
      rw [show disk' = disk from h]
      exact (List.append_nil _).symm
  | ok _ =>
      obtain ⟨htables, rfl⟩ := h
      cases disk with
      | tables network versions => rfl
      | _ => cases htables

theorem diskStep_distinct {op : OpenOp} {a : op.Ans} {w passed : Prop} {build : Build}
    (h : diskStep disk op a disk') (hguard : (attended w passed build).guard disk op)
    (hd : Distinct disk) : Distinct disk' := by
  cases op with
  | insertVersion row =>
      cases a with
      | error e => exact (show disk' = disk from h) ▸ hd
      | ok _ =>
          obtain ⟨-, hrow, hother⟩ := hguard
          exact h.2 ▸ distinct_record hd (hrow ▸ hother)
  | _ =>
      rw [Distinct, diskStep_versions h (by rintro _ ⟨⟩)]
      exact hd

/-- Along a life the network stays and versions are only added, no two in a row the same.  Whoever
opened the database has its network, and its version on record. -/
theorem life_kept (h : Lives lib disk os disk') (hdistinct : Distinct disk) :
    Grows disk disk' ∧ Distinct disk' ∧
      ∀ o ∈ os, Run (o.program lib) o.trace (.ret ()) →
        disk'.network? = some o.network ∧
          ∃ row ∈ disk'.versions, row.toVersionTuple = o.build.tuple := by
  induction h with
  | nil disk => exact ⟨.refl disk, hdistinct, by rintro _ ⟨⟩⟩
  | @cons disk disk₁ disk' o os q hrun hpath hlife ih =>
      have hd : Distinct disk₁ := opening_keeps hrun hpath
        (fun s op a s' hs hguard hstep => diskStep_distinct hstep hguard hs) hdistinct
      obtain ⟨hgrows, hd', hrest⟩ := ih hd
      refine ⟨(path_grows hpath).trans hgrows, hd', ?_⟩
      rintro o' ho' hret
      rcases List.mem_cons.mp ho' with rfl | ho'
      · obtain ⟨⟨hnetwork, hlast⟩, -⟩ := opening_succeeds hret hpath
        obtain ⟨row, hrow, htuple⟩ := Option.map_eq_some_iff.mp hlast
        exact ⟨hgrows.1 _ hnetwork, row, hgrows.2.subset (List.mem_of_getLast? hrow), htuple⟩
      · exact hrest o' ho' hret

/-! ### Two builds, one after the other -/

/-- The opening that gets to take so many steps. -/
def taking (steps : Nat) (build : Build) (disk : Disk) : Opening where
  build := build
  dbPath := "wallet.db"
  network := .test
  trace := (exec answering steps disk (openDatabase alphas build "wallet.db" .test)).1

/-- What it leaves. -/
def leaving (steps : Nat) (build : Build) (disk : Disk) : Disk :=
  (exec answering steps disk (openDatabase alphas build "wallet.db" .test)).2.1

theorem lives_taking {steps : Nat} {build : Build}
    (h : Lives alphas (leaving steps build disk) os disk') :
    Lives alphas disk (taking steps build disk :: os) disk' := by
  have hworking : Path workingStep disk (taking steps build disk).trace (leaving steps build disk) :=
    exec_path id answering_works steps disk (openDatabase alphas build "wallet.db" .test)
  have hpaths : Path (attended True True build).step disk (taking steps build disk).trace
      (leaving steps build disk) ∧
      Path diskStep disk (taking steps build disk).trace (leaving steps build disk) :=
    path_working hworking
  exact .cons (exec_run answering steps disk _) hpaths.2 h

/-- The disk after the first opening, by one build, and after the second, by the next. -/
def created : Disk := leaving 20 alphaFour .missing

def upgraded : Disk := leaving 20 alphaFive created

theorem lives_upgraded : Lives alphas .missing
    [taking 20 alphaFour .missing, taking 20 alphaFive created] upgraded :=
  lives_taking (lives_taking (.nil upgraded))

theorem life_kept_upgraded :
    Grows .missing upgraded ∧ Distinct upgraded ∧ upgraded.network? = some .test ∧
      upgraded.versions.map (·.version) = ["0.1.0-alpha.4", "0.1.0-alpha.5"] := by
  obtain ⟨hgrows, hdistinct, hopened⟩ := life_kept lives_upgraded List.isChain_nil
  have hlast : Run ((taking 20 alphaFive created).program alphas)
      (taking 20 alphaFive created).trace (.ret ()) := exec_ret rfl
  exact ⟨hgrows, hdistinct, (hopened _ (by simp) hlast).1, rfl⟩

/-! ## What the first openings decide -/

/-- The process recorded its version. -/
def Opening.Records (o : Opening) : Prop :=
  ∃ row, (⟨.insertVersion row, .ok ()⟩ : Event openSig) ∈ o.trace

theorem step_recorded {op : OpenOp} {a : op.Ans} (h : diskStep disk op a disk') :
    disk'.versions ≠ [] ↔ disk.versions ≠ [] ∨
      ∃ row, (⟨op, a⟩ : Event openSig) = ⟨.insertVersion row, .ok ()⟩ := by
  cases op with
  | insertVersion row =>
      rw [versions_insert h]
      cases a with
      | error e =>
          simp only [Except.isOk, Except.toBool, Bool.false_eq_true, if_false, List.append_nil]
          refine (or_iff_left ?_).symm
          rintro ⟨row', ⟨⟩⟩
      | ok _ => exact iff_of_true (List.append_ne_nil_of_right_ne_nil _ (by simp [Except.isOk,
          Except.toBool])) (.inr ⟨row, rfl⟩)
  | _ =>
      rw [diskStep_versions h (by rintro _ ⟨⟩)]
      refine (or_iff_left ?_).symm
      rintro ⟨row', ⟨⟩⟩

theorem path_recorded {tr : Trace openSig} (h : Path diskStep disk tr disk') :
    disk'.versions ≠ [] ↔ disk.versions ≠ [] ∨
      ∃ row, (⟨.insertVersion row, .ok ()⟩ : Event openSig) ∈ tr := by
  induction h with
  | nil disk =>
      refine (or_iff_left ?_).symm
      rintro ⟨_, ⟨⟩⟩
  | cons hstep _ ih =>
      rw [ih, step_recorded hstep, or_assoc, ← exists_or]
      simp only [List.mem_cons, eq_comm]

theorem Lives.recorded (h : Lives lib disk os disk') :
    disk'.versions ≠ [] ↔ disk.versions ≠ [] ∨ ∃ o ∈ os, o.Records := by
  induction h with
  | nil disk =>
      refine (or_iff_left ?_).symm
      rintro ⟨_, ⟨⟩, _⟩
  | cons _ hpath _ ih => rw [ih, path_recorded hpath, or_assoc, List.exists_mem_cons_iff]; rfl

/-- A version that is recorded is the build's own. -/
theorem diskStep_accepted {op : OpenOp} {a : op.Ans} {w passed : Prop} {build : Build}
    (h : diskStep disk op a disk') (hguard : (attended w passed build).guard disk op)
    (hbuild : Accepted lib build.pkgVersion)
    (hd : ∀ row ∈ disk.versions, Accepted lib row.version) :
    ∀ row ∈ disk'.versions, Accepted lib row.version := by
  cases op with
  | insertVersion row =>
      obtain ⟨-, htuple, -⟩ := hguard
      have hrow : row.version = build.pkgVersion := congrArg VersionTuple.version htuple
      rw [versions_insert h, List.forall_mem_append]
      refine ⟨hd, ?_⟩
      split
      case isTrue hok =>
          rw [List.forall_mem_singleton, hrow]
          exact hbuild
      case isFalse herror => rintro _ ⟨⟩
  | _ =>
      rw [diskStep_versions h (by rintro _ ⟨⟩)]
      exact hd

theorem Lives.accepted (h : Lives lib disk os disk')
    (hcurrent : ∀ o ∈ os, Accepted lib o.build.pkgVersion)
    (hd : ∀ row ∈ disk.versions, Accepted lib row.version) :
    ∀ row ∈ disk'.versions, Accepted lib row.version := by
  induction h with
  | nil disk => exact hd
  | cons hrun hpath _ ih =>
      obtain ⟨ho, hrest⟩ := List.forall_mem_cons.mp hcurrent
      exact ih hrest (opening_keeps hrun hpath
        (fun s op a s' hs hguard hstep => diskStep_accepted hstep hguard ho hs) hd)

/-- A database without a version on record does not pass. -/
theorem verdict_unrecorded {dbPath : String} {network : NetworkType} (h : disk.versions = []) :
    verdict lib disk dbPath network = .error incompatibleAlphaDatabaseError := by
  rw [verdict, h]
  rfl

theorem Lives.stuck (h : Lives lib disk os disk') (hpresent : disk.present = true)
    (hnone : disk.versions = []) :
    disk' = disk ∧ ∀ o ∈ os, ¬ Run (o.program lib) o.trace (.ret ()) := by
  induction h with
  | nil disk => exact ⟨rfl, by rintro _ ⟨⟩⟩
  | @cons disk disk₁ disk' o os q hrun hpath _ ih =>
      have hverdict : verdict lib disk o.dbPath o.network ≠ .ok () := by
        rw [verdict_unrecorded hnone]
        rintro ⟨⟩
      obtain ⟨rfl, -⟩ := opening_refused hpresent hverdict hrun hpath
      obtain ⟨hdisk, hrest⟩ := ih hpresent hnone
      refine ⟨hdisk, List.forall_mem_cons.mpr ⟨?_, hrest⟩⟩
      intro hret
      exact (opening_refused hpresent hverdict hret hpath).2 rfl

/-- A database that any process recorded its version in is opened by every later one for its
network, and refused by name to those for another.  One that none did, but that is there, is
refused as incompatible to all, and stays as it is. -/
theorem life_decided (h : Lives lib .missing os disk)
    (hcurrent : ∀ o ∈ os, Accepted lib o.build.pkgVersion) :
    ((∃ o ∈ os, o.Records) → ∃ network, disk.network? = some network ∧
      ∀ (o : Opening) disk' r, o.EndsIn lib disk disk' r →
        r = matching o.dbPath o.network network) ∧
    ((¬ ∃ o ∈ os, o.Records) → disk ≠ .missing →
      (∀ (o : Opening) disk' r, o.EndsIn lib disk disk' r →
        r = .error incompatibleAlphaDatabaseError) ∧
      ∀ os' disk', Lives lib disk os' disk' →
        disk' = disk ∧ ∀ o ∈ os', ¬ Run (o.program lib) o.trace (.ret ())) := by
  have hrecorded : disk.versions ≠ [] ↔ ∃ o ∈ os, o.Records :=
    h.recorded.trans (or_iff_right fun hne => hne rfl)
  constructor
  · intro hsome
    have hne : disk.versions ≠ [] := hrecorded.mpr hsome
    obtain ⟨network, hnetwork⟩ := network_of_last (List.getLast?_eq_some_getLast hne)
    refine ⟨network, hnetwork, ?_⟩
    intro o disk' r hends
    obtain ⟨v, hparse, hle⟩ := h.accepted hcurrent (by rintro _ ⟨⟩) _ (List.getLast_mem hne)
    have hpresent : disk.present = true := by
      cases disk with
      | missing => cases hnetwork
      | _ => rfl
    rw [opening_verdict hpresent hends,
      verdict_of_last (List.getLast?_eq_some_getLast hne), hparse, hnetwork]
    simp only [mapError_ok, Except.bind, Option.elim_some, hle, if_true]
  · intro hnone hmissing
    have hempty : disk.versions = [] := by
      by_contra hne
      exact hnone (hrecorded.mp hne)
    have hpresent : disk.present = true := by
      cases disk with
      | missing => exact absurd rfl hmissing
      | _ => rfl
    constructor
    · intro o disk' r hends
      rw [opening_verdict hpresent hends, verdict_unrecorded hempty]
    · intro os' disk' hlife
      exact hlife.stuck hpresent hempty

/-! ### A first opening that stopped, and one that did not -/

/-- The disk after an opening that stopped when it was connected. -/
def abandoned : Disk := leaving 3 alphaFour .missing

theorem life_decided_abandoned :
    (∀ (o : Opening) disk' r, o.EndsIn alphas created disk' r →
      r = matching o.dbPath o.network .test) ∧
    ∀ (o : Opening) disk' r, o.EndsIn alphas abandoned disk' r →
      r = .error incompatibleAlphaDatabaseError := by
  have hfour : Accepted alphas "0.1.0-alpha.4" := ⟨(4 : Nat), rfl, rfl⟩
  have hcurrent : ∀ steps, ∀ o ∈ [taking steps alphaFour .missing],
      Accepted alphas o.build.pkgVersion := by
    intro steps o ho
    rw [List.mem_singleton.mp ho]
    exact hfour
  constructor
  · have hlife : Lives alphas .missing [taking 20 alphaFour .missing] created :=
      lives_taking (.nil created)
    have hsome := (hlife.recorded.mp (by decide)).resolve_left fun hne => hne rfl
    obtain ⟨network, hnetwork, h⟩ := (life_decided hlife (hcurrent 20)).1 hsome
    cases (hnetwork.symm.trans rfl : some network = some .test)
    exact h
  · have hlife : Lives alphas .missing [taking 3 alphaFour .missing] abandoned :=
      lives_taking (.nil abandoned)
    refine ((life_decided hlife (hcurrent 3)).2 ?_ (by decide)).1
    intro hsome
    exact hlife.recorded.mpr (.inr hsome) rfl

end Zallet.Database
