/-
# `Zallet.Migrate.Plan` — when the migration is refused

Up to its writes the migration reads.  It is refused where the wallet database
has accounts of a `zcashd` wallet and only one such wallet may be imported, or
where the wallet is that one, by the fingerprint of its mnemonic (`Refuses`).
The fingerprint is found in the export, and all exports of a wallet agree on it
(`Exported.unique`): so whether a wallet is refused is a matter of the accounts
alone (`Rejected`).
-/
import Mathlib.Data.List.Nodup
import Zallet.Migrate.Secrets

namespace Zallet

open Prog

/-! ## The check -/

/-- The seeds that accounts of `zcashd` wallets were derived from. -/
def WalletData.zcashdFingerprints (w : WalletData) : List SeedFingerprint :=
  w.accounts.filterMap (·.source.zcashdFingerprint)

theorem WalletData.find_account {w : WalletData} {account : WalletAccount}
    (h : account ∈ w.accounts) : w.accounts.find? (·.uuid = account.uuid) = some account := by
  cases hfind : w.accounts.find? (·.uuid = account.uuid) with
  | none =>
      have hne := List.find?_eq_none.mp hfind account h
      simp at hne
  | some found =>
      have huuid : found.uuid = account.uuid := by simpa using List.find?_some hfind
      rw [List.inj_on_of_nodup_map w.distinct (List.mem_of_find?_eq_some hfind) h huuid]

/-- What the check refuses: a `zcashd` wallet is there, and no other may be imported or it is the
one. -/
def Refuses (lib : MigrateLib) (mnemonicFp : Option String) (allow : Bool) (w : WalletData) :
    Prop :=
  w.zcashdFingerprints ≠ [] ∧ (allow = true →
    ∃ fp ∈ w.zcashdFingerprints, mnemonicFp.bind (decodeSeedFingerprint lib) = some fp)

section
variable {lib : MigrateLib} {importer : Importer} {s : MigrateStores}

theorem existingZcashdSourcedAccounts_reads :
    wp (migrateWorld lib importer) existingZcashdSourcedAccounts
      (fun t found => t = s ∧ found = s.wallet.zcashdFingerprints)
      (fun t e => t = s ∧ ¬ e.Refusal) s := by
  unfold existingZcashdSourcedAccounts
  rw [wp_bind, wp_query]
  refine ⟨trivial, fun r t hstep => ?_⟩
  cases r with
  | error e => exact ⟨hstep, by rintro ⟨⟩⟩
  | ok ids =>
      obtain ⟨rfl, rfl⟩ := hstep
      show wp _ (List.foldlM _ [] (t.wallet.accounts.map (·.uuid))) _ _ t
      rw [List.foldlM_map]
      refine wp_foldlM (fun (l : List WalletAccount) found u =>
        u = t ∧ found = l.filterMap (·.source.zcashdFingerprint)) ⟨rfl, rfl⟩ ?_
      rintro l account rest _ u hsplit ⟨rfl, rfl⟩
      have hmem : account ∈ u.wallet.accounts := by simp [hsplit]
      rw [wp_bind, wp_query]
      refine ⟨trivial, fun r u' hstep => ?_⟩
      cases r with
      | error e => exact ⟨hstep, by rintro ⟨⟩⟩
      | ok found =>
          obtain ⟨rfl, hstay⟩ := hstep
          subst hstay
          rw [WalletData.find_account hmem]
          refine ⟨rfl, ?_⟩
          rw [List.filterMap_append]
          cases hfp : account.source.zcashdFingerprint <;> simp [hfp]

theorem checkNotImported_reads {mnemonicFp : Option String} {allow : Bool} :
    wp (migrateWorld lib importer) (checkNotImported lib mnemonicFp allow)
      (fun t _ => t = s ∧ ¬ Refuses lib mnemonicFp allow s.wallet)
      (fun t e => t = s ∧ (e.Refusal → Refuses lib mnemonicFp allow s.wallet)) s := by
  unfold checkNotImported
  rw [wp_bind]
  refine wp_mono ?_ (fun _ _ h => ⟨h.1, fun hrefusal => absurd hrefusal h.2⟩)
    existingZcashdSourcedAccounts_reads
  rintro t existing ⟨rfl, rfl⟩
  split
  · rename_i hnone
    exact ⟨rfl, fun h => h.1 hnone⟩
  · rename_i hsome
    split
    · rename_i hallow
      cases hfp : mnemonicFp.bind (decodeSeedFingerprint lib) with
      | none => exact ⟨rfl, fun h => by obtain ⟨fp, -, hfp'⟩ := h.2 hallow; simp [hfp] at hfp'⟩
      | some fp =>
          dsimp only
          split
          · rename_i hmem
            exact ⟨rfl, fun _ => ⟨hsome, fun _ => ⟨fp, hmem, hfp⟩⟩⟩
          · rename_i hmem
            refine ⟨rfl, fun h => ?_⟩
            obtain ⟨fp', hmem', hfp'⟩ := h.2 hallow
            rw [hfp] at hfp'
            cases hfp'
            exact hmem hmem'
    · rename_i hallow
      exact ⟨rfl, fun _ => ⟨hsome, fun h => absurd h hallow⟩⟩

/-! ## The plan -/

/-- The secret store and the mnemonic's fingerprint, of some export of the wallet. -/
def Exported (lib : MigrateLib) (wallet : ZcashdWallet) (store : Option SecretStore)
    (mnemonicFp : Option String) : Prop :=
  ∃ h document, lib.migrateToZewif wallet h = .ok document ∧
    normalizeSecrets lib document.secrets = .ret (store, mnemonicFp)

/-- All exports agree on them. -/
theorem Exported.unique (hlib : lib.Documented) {wallet : ZcashdWallet}
    {store store' : Option SecretStore} {mnemonicFp mnemonicFp' : Option String}
    (h : Exported lib wallet store mnemonicFp) (h' : Exported lib wallet store' mnemonicFp') :
    store = store' ∧ mnemonicFp = mnemonicFp' := by
  obtain ⟨height, document, hexport, hnormal⟩ := h
  obtain ⟨height', document', hexport', hnormal'⟩ := h'
  rw [hlib.secrets hexport hexport', hnormal'] at hnormal
  cases hnormal
  exact ⟨rfl, rfl⟩

/-- With these accounts in the wallet database, the check refuses the wallet. -/
def Rejected (lib : MigrateLib) (wallet : ZcashdWallet) (allow : Bool) (w : WalletData) : Prop :=
  ∃ store mnemonicFp, Exported lib wallet store mnemonicFp ∧ Refuses lib mnemonicFp allow w

/-- Normalizing asks nothing and does not panic: it is over, with a result or an error. -/
theorem normalizeStore_over (hlib : lib.Documented) (store : SecretStore) :
    (∃ r, normalizeStore lib store = .ret r) ∨
      ∃ e, normalizeStore lib store = .fail e ∧ ¬ e.Refusal := by
  unfold normalizeStore
  cases store.mnemonicFp with
  | some fp => exact .inl ⟨_, rfl⟩
  | none =>
      cases store.legacySeed with
      | none => exact .inl ⟨_, rfl⟩
      | some seed =>
          dsimp only
          cases lib.deriveMnemonic seed with
          | none => exact .inr ⟨_, rfl, by rintro ⟨⟩⟩
          | some mnemonic =>
              obtain ⟨fp, hfp⟩ := Option.isSome_iff_exists.mp (hlib.fingerprint mnemonic)
              simp only [hfp]
              exact .inl ⟨_, rfl⟩

theorem normalizeSecrets_over (hlib : lib.Documented) (secrets : Option Secrets) :
    (∃ r, normalizeSecrets lib secrets = .ret r) ∨
      ∃ e, normalizeSecrets lib secrets = .fail e ∧ ¬ e.Refusal := by
  match secrets with
  | none => exact .inl ⟨_, rfl⟩
  | some .encrypted => exact .inr ⟨_, rfl, by rintro ⟨⟩⟩
  | some (.plain store) =>
      rcases normalizeStore_over hlib store with ⟨r, hr⟩ | ⟨e, he, hplain⟩
      · simp only [normalizeSecrets, hr]
        exact .inl ⟨_, rfl⟩
      · simp only [normalizeSecrets, he]
        exact .inr ⟨e, rfl, hplain⟩

/-- A program that writes nothing and refuses nothing. -/
def OnlyReads (lib : MigrateLib) (importer : Importer) {α : Type} (p : MigrateProg α) : Prop :=
  ∀ s, wp (migrateWorld lib importer) p (fun t _ => t = s) (fun t e => t = s ∧ ¬ e.Refusal) s

namespace OnlyReads

variable {α β σ : Type} {p : MigrateProg α} {f : α → MigrateProg β}

theorem pure {a : α} : OnlyReads lib importer (Pure.pure a) := fun _ => rfl

theorem fail {e : MigrateError} (h : ¬ e.Refusal) : OnlyReads lib importer (.fail e : MigrateProg α) :=
  fun _ => ⟨rfl, h⟩

theorem ofExcept {δ : Type} {toError : δ → MigrateError} (h : ∀ d, ¬ (toError d).Refusal)
    {x : Except δ α} : OnlyReads lib importer (Prog.ofExcept toError x) := fun s => by
  cases x with
  | ok a => exact rfl
  | error d => exact ⟨rfl, h d⟩

theorem query {op : MigrateOp} (hop : op.reads = true) {f : op.Ans → Except MigrateError α}
    (h : ∀ a e, f a = .error e → ¬ e.Refusal) :
    OnlyReads lib importer (Prog.query (E := migrateSig) op f) := fun s => by
  rw [wp_query]
  refine ⟨trivial, fun a t hstep => ?_⟩
  obtain rfl := migrateStep_reads hop hstep
  cases hf : f a with
  | ok b => exact rfl
  | error e => exact ⟨rfl, h a e hf⟩

/-- Going on from where it started. -/
theorem bind_wp (hp : OnlyReads lib importer p) {Q : MigrateStores → β → Prop}
    {R : MigrateStores → MigrateError → Prop} (hf : ∀ a, wp (migrateWorld lib importer) (f a) Q R s)
    (hR : ∀ e, ¬ e.Refusal → R s e) : wp (migrateWorld lib importer) (p >>= f) Q R s := by
  rw [wp_bind]
  refine wp_mono ?_ ?_ (hp s)
  · rintro _ a rfl
    exact hf a
  · rintro _ e ⟨rfl, he⟩
    exact hR e he

theorem bind (hp : OnlyReads lib importer p) (hf : ∀ a, OnlyReads lib importer (f a)) :
    OnlyReads lib importer (p >>= f) :=
  fun s => hp.bind_wp (fun a => hf a s) fun _ he => ⟨rfl, he⟩

theorem foldlM {γ : Type} {f : σ → γ → MigrateProg σ} (h : ∀ y c, OnlyReads lib importer (f y c))
    {xs : List γ} {x : σ} : OnlyReads lib importer (xs.foldlM f x) := by
  induction xs generalizing x with
  | nil => exact pure
  | cons c xs ih =>
      rw [List.foldlM_cons]
      exact (h x c).bind fun _ => ih

end OnlyReads

/-- An error that is only told otherwise. -/
theorem mapError_error {α δ : Type} {toError : δ → MigrateError} (h : ∀ d, ¬ (toError d).Refusal)
    (x : Except δ α) (e : MigrateError) (he : x.mapError toError = .error e) : ¬ e.Refusal := by
  cases x with
  | ok a => cases he
  | error d =>
      cases he
      exact h d

theorem wrapped_plain (e : String) : ¬ (MigrateError.wrapped e).Refusal := by rintro ⟨⟩

theorem chainStart_reads {scan : Bool} : OnlyReads lib importer (chainStart scan) := by
  unfold chainStart
  split
  · refine (OnlyReads.query rfl (mapError_error wrapped_plain)).bind fun chainView => ?_
    exact (OnlyReads.query rfl (mapError_error wrapped_plain)).bind fun tip => .pure
  · exact .pure

theorem minedHeights_reads {chainView : ChainViewRef} {document : Zewif} :
    OnlyReads lib importer (minedHeights chainView document) := by
  refine OnlyReads.foldlM fun blockHeights tx => ?_
  cases tx.2.blockPosition with
  | none => exact .pure
  | some blockHash =>
      dsimp only
      split
      · exact .pure
      · exact (OnlyReads.query rfl (mapError_error wrapped_plain)).bind fun height => .pure

theorem walletBirthday_reads {chainView : Option ChainViewRef} {chainTip : Option Nat}
    {document : Zewif} : OnlyReads lib importer (walletBirthday lib chainView chainTip document) := by
  cases chainView with
  | none => exact .pure
  | some chainView =>
      refine minedHeights_reads.bind fun blockHeights => ?_
      refine (OnlyReads.query rfl (mapError_error wrapped_plain)).bind fun chainState => ?_
      cases chainState with
      | none => exact .fail (wrapped_plain _)
      | some chainState => exact .pure

theorem checkNetwork_plain {zewifNetwork networkType : NetworkType} (e : MigrateError)
    (he : checkNetwork zewifNetwork networkType = .error e) : ¬ e.Refusal := by
  cases zewifNetwork <;> cases networkType <;> cases he <;> rintro ⟨⟩

/-- What the plan says of the wallet: it is not refused, and its secrets are to be stored. -/
structure Plans (lib : MigrateLib) (wallet : ZcashdWallet) (allow : Bool) (w : WalletData)
    (plan : ImportPlan) (store : Option SecretStore) (mnemonicFp : Option String) : Prop where
  exported : Exported lib wallet store mnemonicFp
  allowed : ¬ Refuses lib mnemonicFp allow w
  secrets : plan.document.secrets = store.map .plain

theorem Plans.not_rejected (hlib : lib.Documented) {wallet : ZcashdWallet} {allow : Bool}
    {w : WalletData} {plan : ImportPlan} {store : Option SecretStore} {mnemonicFp : Option String}
    (h : Plans lib wallet allow w plan store mnemonicFp) : ¬ Rejected lib wallet allow w := by
  rintro ⟨store', mnemonicFp', hexported, hrefuses⟩
  obtain ⟨-, rfl⟩ := h.exported.unique hlib hexported
  exact h.allowed hrefuses

theorem planImport_reads (hlib : lib.Documented) {scan : Bool} {wallet : ZcashdWallet}
    {buffer allow : Bool} :
    wp (migrateWorld lib importer) (planImport lib scan wallet buffer allow)
      (fun t plan => t = s ∧ ∃ store mnemonicFp,
        Plans lib wallet allow s.wallet plan store mnemonicFp)
      (fun t e => t = s ∧ (e.Refusal → Rejected lib wallet allow s.wallet)) s := by
  have hplain : ∀ e : MigrateError, ¬ e.Refusal →
      s = s ∧ (e.Refusal → Rejected lib wallet allow s.wallet) := fun e he => ⟨rfl, fun h => absurd h he⟩
  unfold planImport
  refine (OnlyReads.query rfl (mapError_error wrapped_plain)).bind_wp (fun _ => ?_) hplain
  rw [wp_bind, wp_ofExcept]
  cases hnetwork : checkNetwork wallet.network lib.networkType with
  | error e => exact hplain e (checkNetwork_plain e hnetwork)
  | ok network =>
      refine chainStart_reads.bind_wp (fun start => ?_) hplain
      obtain ⟨chainView, chainTip⟩ := start
      dsimp only
      rw [wp_bind, wp_ofExcept]
      cases hexport : lib.migrateToZewif wallet (exportHeight lib chainTip wallet) with
      | error e => exact hplain _ (by rintro ⟨⟩)
      | ok document =>
          show wp _ _ _ _ s
          rw [wp_bind]
          rcases normalizeSecrets_over hlib document.secrets with ⟨r, hr⟩ | ⟨e, he, herror⟩
          · rw [hr]
            obtain ⟨store, mnemonicFp⟩ := r
            have hexported : Exported lib wallet store mnemonicFp := ⟨_, document, hexport, hr⟩
            show wp _ (_ >>= _) _ _ s
            rw [wp_bind]
            refine wp_mono ?_ ?_ checkNotImported_reads
            · rintro _ checked ⟨rfl, hallowed⟩
              refine walletBirthday_reads.bind_wp (fun birthday => ?_) hplain
              exact ⟨rfl, store, mnemonicFp, hexported, hallowed, rfl⟩
            · rintro _ e ⟨rfl, hrefuses⟩
              exact ⟨rfl, fun h => ⟨store, mnemonicFp, hexported, hrefuses h⟩⟩
          · rw [he]
            exact hplain e herror

end

end Zallet
