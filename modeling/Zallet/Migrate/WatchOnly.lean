/-
# `Zallet.Migrate.WatchOnly` — whose the watch-only keys become

After the import of a document, its watch-only public keys are registered with
"the accounts whose address lists carry them".  Which Zallet account was created
from an account of the document is told by the report under the account's name
only, and where several have one name, the last of the report has it.

`registered_iff` says for which documents and reports every key is registered
with the account created from the one that lists it, and with no other:
`NamesTell`.  Nothing in a document keeps its accounts' names apart
(`registered_elsewhere`).
-/
import Zallet.Migrate.Retry

namespace Zallet

open Prog

/-! ## What is registered -/

/-- The accounts of a document, in its order. -/
def Zewif.accounts (document : Zewif) : List ZewifAccount := document.wallets.flatMap (·.accounts)

section
variable (lib : MigrateLib)

/-- The watch-only keys that an account lists. -/
def watchPubkeys (account : ZewifAccount) : List PublicKey :=
  account.addresses.filterMap (watchPubkey lib)

/-- What is registered for an account of the document. -/
def registeredFor (report : ZewifImportReport) (account : ZewifAccount) :
    List (AccountUuid × PublicKey) :=
  (report.accountByName account.name).elim [] fun uuid =>
    (watchPubkeys lib account).map fun pk => (uuid, pk)

end

section
variable {lib : MigrateLib} {importer : Importer} {s : MigrateStores} {report : ZewifImportReport}

theorem registerAccount_watched {height : Nat} {account : ZewifAccount} :
    wp (migrateWorld lib importer) (registerAccount lib report height account)
      (fun t _ => t.wallet.watched = s.wallet.watched ++ registeredFor lib report account)
      (fun t _ => ∃ part, part <+: registeredFor lib report account ∧
        t.wallet.watched = s.wallet.watched ++ part) s := by
  unfold registerAccount registeredFor
  cases report.accountByName account.name with
  | none => exact (List.append_nil _).symm
  | some uuid =>
      dsimp only [Option.elim_some]
      split
      case isTrue hnone =>
        rw [watchPubkeys, hnone]
        exact (List.append_nil _).symm
      case isFalse =>
        rw [wp_bind, wp_query]
        refine ⟨trivial, fun r t hstep => ?_⟩
        cases r with
        | error e =>
            obtain ⟨k, rfl⟩ := hstep
            refine ⟨_, List.IsPrefix.map _ (List.take_prefix k _), rfl⟩
        | ok registered =>
            rw [show t = s.watch _ _ from hstep]
            show wp _ (query _ _) _ _ _
            rw [wp_query]
            refine ⟨trivial, fun r u hstep => ?_⟩
            cases r with
            | error e =>
                obtain ⟨k, rfl⟩ := hstep
                exact ⟨_, List.prefix_rfl, rfl⟩
            | ok exposed =>
                rw [show u = MigrateStores.expose _ _ from hstep]
                rfl

/-- Account by account, in the order of the document. -/
theorem registerWatchOnly_watched {plan : ImportPlan} :
    wp (migrateWorld lib importer) (registerWatchOnly lib plan report)
      (fun t _ => t.wallet.watched =
        s.wallet.watched ++ plan.document.accounts.flatMap (registeredFor lib report))
      (fun t _ => ∃ part, part <+: plan.document.accounts.flatMap (registeredFor lib report) ∧
        t.wallet.watched = s.wallet.watched ++ part) s := by
  refine wp_foldlM (fun l _ (t : MigrateStores) =>
    t.wallet.watched = s.wallet.watched ++ l.flatMap (registeredFor lib report)) ?_ ?_
  · exact (List.append_nil _).symm
  · intro l account rest _ t hsplit ht
    refine wp_mono ?_ ?_ registerAccount_watched
    · intro u _ hu
      rw [hu, ht, List.flatMap_append, List.flatMap_singleton, List.append_assoc]
    · rintro u _ ⟨part, hpart, hu⟩
      refine ⟨l.flatMap (registeredFor lib report) ++ part, ?_, ?_⟩
      · have haccounts : plan.document.accounts = l ++ account :: rest := hsplit
        rw [haccounts, List.flatMap_append, List.flatMap_cons]
        exact (List.prefix_append_right_inj _).mpr (hpart.trans (List.prefix_append _ _))
      · rw [hu, ht, List.append_assoc]

end

/-! ## What was created from what -/

/-- The report's last account of this name. -/
def LastNamed (report : ZewifImportReport) (name : String) (uuid : AccountUuid) : Prop :=
  ∃ before after, report.importedAccounts = before ++ (name, uuid) :: after ∧
    ∀ entry ∈ after, entry.1 ≠ name

/-- The Zallet account was created from an account of the document.  For each of these, in the
document's order, `created` has what was created from it, if it was imported. -/
def CreatedFrom (document : Zewif) (created : List (Option AccountUuid)) (uuid : AccountUuid)
    (account : ZewifAccount) : Prop :=
  ∃ i : ℕ, document.accounts[i]? = some account ∧ created[i]? = some (some uuid)

/-- What the importer tells of an import: under their names, the accounts it created, each from one
account of the document. -/
structure Creates (document : Zewif) (report : ZewifImportReport)
    (created : List (Option AccountUuid)) : Prop where
  each : created.length = document.accounts.length
  reported : ∀ name uuid, (name, uuid) ∈ report.importedAccounts ↔
    ∃ account, CreatedFrom document created uuid account ∧ account.name = name
  apart : ∀ {i j : ℕ} {uuid}, created[i]? = some (some uuid) → created[j]? = some (some uuid) → i = j

/-- Each watch-only key is registered with the account created from one that lists it, and with no
other. -/
def RegisteredRight (lib : MigrateLib) (document : Zewif) (created : List (Option AccountUuid))
    (added : List (AccountUuid × PublicKey)) : Prop :=
  ∀ uuid pk, (uuid, pk) ∈ added ↔
    ∃ account, CreatedFrom document created uuid account ∧ pk ∈ watchPubkeys lib account

/-- Of the accounts with watch-only keys, the imported ones are the last of their names in the
report; and what is the last of the name of one that was not imported lists its keys too. -/
structure NamesTell (lib : MigrateLib) (document : Zewif) (report : ZewifImportReport)
    (created : List (Option AccountUuid)) : Prop where
  imported : ∀ (i : ℕ) account uuid, document.accounts[i]? = some account →
    created[i]? = some (some uuid) → watchPubkeys lib account ≠ [] →
      LastNamed report account.name uuid
  skipped : ∀ (i : ℕ) account uuid, document.accounts[i]? = some account → created[i]? = some none →
    LastNamed report account.name uuid → ∀ pk ∈ watchPubkeys lib account,
      ∃ other, CreatedFrom document created uuid other ∧ pk ∈ watchPubkeys lib other

section
variable {lib : MigrateLib} {document : Zewif} {report : ZewifImportReport}
  {created : List (Option AccountUuid)}

theorem accountByName_iff {name : String} {uuid : AccountUuid} :
    report.accountByName name = some uuid ↔ LastNamed report name uuid := by
  rw [ZewifImportReport.accountByName, Option.map_eq_some_iff]
  simp only [List.find?_eq_some_iff_append]
  constructor
  · rintro ⟨⟨name', uuid'⟩, ⟨hname, after, before, hsplit, hafter⟩, rfl⟩
    obtain rfl : name' = name := of_decide_eq_true hname
    refine ⟨before.reverse, after.reverse, ?_, ?_⟩
    · rw [List.reverse_eq_iff] at hsplit
      rw [hsplit]
      simp
    · intro entry hentry heq
      have hne := hafter entry (List.mem_reverse.mp hentry)
      simp [heq] at hne
  · rintro ⟨before, after, hsplit, hafter⟩
    refine ⟨(name, uuid), ⟨decide_eq_true rfl, after.reverse, before.reverse, ?_, ?_⟩, rfl⟩
    · rw [hsplit]
      simp
    · intro entry hentry
      simpa using hafter entry (List.mem_reverse.mp hentry)

theorem LastNamed.mem {name : String} {uuid : AccountUuid} (h : LastNamed report name uuid) :
    (name, uuid) ∈ report.importedAccounts := by
  obtain ⟨before, after, hsplit, -⟩ := h
  rw [hsplit]
  exact List.mem_append_right _ List.mem_cons_self

theorem mem_registered {uuid : AccountUuid} {pk : PublicKey} :
    (uuid, pk) ∈ document.accounts.flatMap (registeredFor lib report) ↔
      ∃ account ∈ document.accounts, LastNamed report account.name uuid ∧
        pk ∈ watchPubkeys lib account := by
  rw [List.mem_flatMap]
  refine exists_congr fun account => and_congr_right fun _ => ?_
  rw [registeredFor, ← accountByName_iff]
  cases report.accountByName account.name with
  | none => exact iff_of_false (by rintro ⟨⟩) (by rintro ⟨⟨⟩, -⟩)
  | some uuid' =>
      rw [Option.elim_some, List.mem_map]
      constructor
      · rintro ⟨pk', hpk, heq⟩
        cases heq
        exact ⟨rfl, hpk⟩
      · rintro ⟨huuid, hpk⟩
        cases huuid
        exact ⟨pk, hpk, rfl⟩

/-- The keys are registered right just when the names tell the accounts. -/
theorem registeredRight_iff (h : Creates document report created) :
    RegisteredRight lib document created (document.accounts.flatMap (registeredFor lib report)) ↔
      NamesTell lib document report created := by
  constructor
  · intro hright
    constructor
    · intro i account uuid hi hcreated hkeys
      obtain ⟨pk, hpk⟩ := List.exists_mem_of_ne_nil _ hkeys
      obtain ⟨account', -, hnamed, -⟩ :=
        mem_registered.mp ((hright uuid pk).mpr ⟨account, ⟨i, hi, hcreated⟩, hpk⟩)
      -- only one account was created with this id, and the report has it under one name
      obtain ⟨account'', ⟨j, hj, hcreated'⟩, hname⟩ := (h.reported _ _).mp hnamed.mem
      obtain rfl := h.apart hcreated hcreated'
      obtain rfl := Option.some.inj (hi.symm.trans hj)
      rwa [hname]
    · intro i account uuid hi _ hnamed pk hpk
      exact (hright uuid pk).mp
        (mem_registered.mpr ⟨account, List.mem_of_getElem? hi, hnamed, hpk⟩)
  · intro htell uuid pk
    rw [mem_registered]
    constructor
    · rintro ⟨account, hmem, hnamed, hpk⟩
      obtain ⟨i, hi⟩ := List.mem_iff_getElem?.mp hmem
      obtain ⟨hlt, -⟩ := List.getElem?_eq_some_iff.mp hi
      rw [← h.each] at hlt
      cases hcreated : created[i] with
      | none =>
          exact htell.skipped i account uuid hi (List.getElem?_eq_some_iff.mpr ⟨hlt, hcreated⟩)
            hnamed pk hpk
      | some uuid' =>
          have hsome : created[i]? = some (some uuid') :=
            List.getElem?_eq_some_iff.mpr ⟨hlt, hcreated⟩
          have hnamed' := htell.imported i account uuid' hi hsome (List.ne_nil_of_mem hpk)
          rw [← accountByName_iff] at hnamed hnamed'
          obtain rfl := Option.some.inj (hnamed.symm.trans hnamed')
          exact ⟨account, ⟨i, hi, hsome⟩, hpk⟩
    · rintro ⟨account, ⟨i, hi, hcreated⟩, hpk⟩
      exact ⟨account, List.mem_of_getElem? hi,
        htell.imported i account uuid hi hcreated (List.ne_nil_of_mem hpk), hpk⟩

end

/-- In a migration that succeeds, what is registered after the import is right just when the names
tell the accounts of the document; and if they do, what is registered before an error is right as far
as it goes. -/
theorem registered_iff (lib : MigrateLib) (importer : Importer) :
    (∀ scan wallet buffer allow tr s t,
      Run (migrateZcashdWallet lib scan wallet buffer allow) tr (.ret ()) →
      Path (migrateStep lib importer) s tr t →
      ∃ document report before after s₁ added,
        tr = before ++ ⟨.importWallet document, .ok report⟩ :: after ∧
        Path (migrateStep lib importer) s (before ++ [⟨.importWallet document, .ok report⟩]) s₁ ∧
        t.wallet.watched = s₁.wallet.watched ++ added ∧
        ∀ created, Creates document report created →
          (RegisteredRight lib document created added ↔ NamesTell lib document report created)) ∧
    ∀ plan report tr s t e, Run (registerWatchOnly lib plan report) tr (.fail e) →
      Path (migrateStep lib importer) s tr t →
      ∃ added, t.wallet.watched = s.wallet.watched ++ added ∧
        ∀ created, Creates plan.document report created →
          NamesTell lib plan.document report created → ∀ uuid pk, (uuid, pk) ∈ added →
            ∃ account, CreatedFrom plan.document created uuid account ∧
              pk ∈ watchPubkeys lib account := by
  constructor
  · intro scan wallet buffer allow tr s t hrun hpath
    unfold migrateZcashdWallet at hrun
    obtain ⟨plan, l, r, rfl, -, hrun₁⟩ := hrun.bind_ret
    obtain ⟨_, l', r', rfl, -, hrun₂⟩ := hrun₁.bind_ret
    obtain ⟨report, l'', after, rfl, himported, hrun₃⟩ := hrun₂.bind_ret
    obtain rfl := importWallet_imported himported
    have hsplit : l ++ (l' ++ ([⟨.importWallet plan.document, .ok report⟩] ++ after)) =
        ((l ++ l') ++ [⟨.importWallet plan.document, .ok report⟩]) ++ after := by simp
    rw [hsplit] at hpath
    obtain ⟨s₁, hbefore, hafter⟩ := hpath.split
    have hwatched : t.wallet.watched = s₁.wallet.watched ++ _ :=
      registerWatchOnly_watched.sound hrun₃ hafter
    refine ⟨plan.document, report, l ++ l', after, s₁, _, ?_, hbefore, hwatched, ?_⟩
    · simp
    · intro created hcreates
      exact registeredRight_iff hcreates
  · intro plan report tr s t e hrun hpath
    obtain ⟨added, hpart, hwatched⟩ :=
      registerWatchOnly_watched.sound hrun hpath
    refine ⟨added, hwatched, ?_⟩
    intro created hcreates htell uuid pk hmem
    exact ((registeredRight_iff hcreates).mpr htell uuid pk).mp (hpart.subset hmem)

namespace MigrateSample

/-- An import of one account of that name that lists this key. -/
def importsDefault : Event migrateSig → Bool
  | ⟨.importWallet document, .ok report'⟩ =>
      (document.accounts.map fun account => (account.name, watchPubkeys lib account)) =
        [("Default", [pubkey])] ∧ report' = report
  | _ => true

theorem default_creates {document : Zewif}
    (h : (document.accounts.map fun account => (account.name, watchPubkeys lib account)) =
      [("Default", [pubkey])]) :
    Creates document report [some ⟨1⟩] ∧ NamesTell lib document report [some ⟨1⟩] := by
  obtain ⟨account, haccounts, hname⟩ := List.map_eq_singleton_iff.mp h
  have hcreated : ∀ {i : ℕ} {x : Option AccountUuid},
      [some ⟨1⟩][i]? = some x → i = 0 ∧ x = some ⟨1⟩ := by
    intro i x hi
    obtain ⟨hlt, rfl⟩ := List.getElem?_eq_some_iff.mp hi
    obtain rfl : i = 0 := Nat.lt_one_iff.mp hlt
    exact ⟨rfl, rfl⟩
  have hfirst : document.accounts[0]? = some account := by
    rw [haccounts]
    rfl
  refine ⟨⟨?_, ?_, ?_⟩, ?_, ?_⟩
  · rw [haccounts]
    rfl
  · intro name uuid
    constructor
    · intro hmem
      obtain ⟨rfl, rfl⟩ := Prod.mk.inj (List.mem_singleton.mp hmem)
      exact ⟨account, ⟨0, hfirst, rfl⟩, (Prod.mk.inj hname).1⟩
    · rintro ⟨account', ⟨i, hi, hsome⟩, rfl⟩
      obtain ⟨rfl, heq⟩ := hcreated hsome
      cases heq
      obtain rfl := Option.some.inj (hfirst.symm.trans hi)
      rw [(Prod.mk.inj hname).1]
      exact List.mem_singleton_self _
  · intro i j uuid hi hj
    rw [(hcreated hi).1, (hcreated hj).1]
  · intro i account' uuid hi hsome _
    obtain ⟨rfl, heq⟩ := hcreated hsome
    cases heq
    obtain rfl := Option.some.inj (hfirst.symm.trans hi)
    rw [(Prod.mk.inj hname).1]
    exact ⟨[], [], rfl, by rintro _ ⟨⟩⟩
  · intro i account' uuid _ hnone
    cases (hcreated hnone).2

end MigrateSample

open MigrateSample in
theorem registered_iff_default : ∃ document report' added,
    (ends false false false stores).2.1.wallet.watched = added ∧ added ≠ [] ∧
      Creates document report' [some ⟨1⟩] ∧ RegisteredRight lib document [some ⟨1⟩] added := by
  have hreturns : (ends false false false stores).2.2.result? = some () := by decide +kernel
  have himports : (ends false false false stores).1.all importsDefault = true := by decide +kernel
  have hwatched : (ends false false false stores).2.1.wallet.watched = [(⟨1⟩, pubkey)] := by
    decide +kernel
  have hrun : Run (migrateZcashdWallet lib false wallet false false) (ends false false false stores).1
      (.ret ()) := exec_ret hreturns
  obtain ⟨document, report', before, after, s₁, added, htr, hbefore, hadded, hright⟩ :=
    (registered_iff lib importer).1 false wallet false false _ stores _ hrun
      (ends_path false false false stores)
  rw [htr, List.all_append, Bool.and_eq_true, List.all_cons, Bool.and_eq_true] at himports
  obtain ⟨hdocument, rfl⟩ := of_decide_eq_true himports.2.1
  obtain ⟨hcreates, htell⟩ := default_creates hdocument
  have hnone : s₁.wallet.watched = [] := by
    obtain ⟨s₀, -, himport⟩ := hbefore.split
    cases himport with
    | cons hstep hend =>
        cases hend
        rw [hstep.2.2]
        rfl
  rw [hnone, List.nil_append] at hadded
  refine ⟨document, report, added, hadded, ?_, hcreates, (hright _ hcreates).mpr htell⟩
  rw [← hadded, hwatched]
  exact List.cons_ne_nil _ _

namespace MigrateSample

/-- Two accounts of one name, of which the first lists a key. -/
def namesakes : ImportPlan :=
  ⟨⟨419200, none, [⟨.main, [account, { account with addresses := [] }], [], []⟩], [], none, []⟩,
    419200⟩

def namesakesReport : ZewifImportReport := ⟨[("Default", ⟨1⟩), ("Default", ⟨2⟩)]⟩

theorem namesakes_create : Creates namesakes.document namesakesReport [some ⟨1⟩, some ⟨2⟩] where
  each := rfl
  reported name uuid := by
    constructor
    · intro hmem
      rcases List.mem_cons.mp hmem with heq | hmem
      · cases heq
        exact ⟨_, ⟨0, rfl, rfl⟩, rfl⟩
      · cases List.mem_singleton.mp hmem
        exact ⟨_, ⟨1, rfl, rfl⟩, rfl⟩
    · rintro ⟨other, ⟨i, hi, hcreated⟩, rfl⟩
      match i with
      | 0 =>
          cases hi
          cases hcreated
          exact List.mem_cons_self
      | 1 =>
          cases hi
          cases hcreated
          exact List.mem_cons_of_mem _ List.mem_cons_self
      | n + 2 => cases hi
  apart {i j uuid} hi hj := by
    match i, j with
    | 0, 0 => rfl
    | 1, 1 => rfl
    | 0, 1 => cases hi; cases hj
    | 1, 0 => cases hi; cases hj
    | n + 2, _ => cases hi
    | _, n + 2 => cases hj

end MigrateSample

open MigrateSample in
/-- The key of the first of two accounts of one name is registered with the second. -/
theorem registered_elsewhere :
    Creates namesakes.document namesakesReport [some ⟨1⟩, some ⟨2⟩] ∧
    ∃ tr t, Run (registerWatchOnly lib namesakes namesakesReport) tr (.ret ()) ∧
      Path (migrateStep lib importer) stores tr t ∧ t.wallet.watched = [(⟨2⟩, pubkey)] ∧
      ¬ RegisteredRight lib namesakes.document [some ⟨1⟩, some ⟨2⟩] t.wallet.watched := by
  have hreturns : (exec (answer false false) 10 stores
      (registerWatchOnly lib namesakes namesakesReport)).2.2.result? = some () := by decide +kernel
  have hwatched : (exec (answer false false) 10 stores
      (registerWatchOnly lib namesakes namesakesReport)).2.1.wallet.watched = [(⟨2⟩, pubkey)] := by
    decide +kernel
  refine ⟨namesakes_create, _, _, exec_ret hreturns,
    exec_path id (answer_step false false) 10 stores _, hwatched, ?_⟩
  show ¬ RegisteredRight lib namesakes.document [some ⟨1⟩, some ⟨2⟩] (exec (answer false false) 10
    stores (registerWatchOnly lib namesakes namesakesReport)).2.1.wallet.watched
  rw [hwatched]
  intro hright
  have hlisted := (hright ⟨1⟩ pubkey).mpr ⟨account, ⟨0, rfl, rfl⟩, by decide +kernel⟩
  cases List.mem_singleton.mp hlisted

end Zallet
