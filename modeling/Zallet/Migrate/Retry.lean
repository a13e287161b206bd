/-
# `Zallet.Migrate.Retry` — running a failed migration again

A migration that failed while it stored the secrets, or whose document was not
imported, has left nothing but some of the rows that the next run inserts
anyway.  The next run finds the accounts as they were; it is not refused, and if
it gets through, the stores are what they would be without the failed run.  Once
the document is imported the accounts are there: what fails after that, while
watch-only keys are registered, cannot be made up for, because the next run
finds those accounts and is refused (`migrate_retry`).
-/
import Mathlib.Algebra.Group.Nat.Defs
import Zallet.Migrate.Plan
import Zallet.Prog.Exec

namespace Zallet

open Prog

section
variable {lib : MigrateLib} {importer : Importer} {s : MigrateStores}

/-! ## After the import -/

theorem registerAccount_secrets {report : ZewifImportReport} {height : Nat}
    {account : ZewifAccount} :
    wp (migrateWorld lib importer) (registerAccount lib report height account)
      (fun t _ => t.secrets lib = s.secrets lib)
      (fun t e => t.secrets lib = s.secrets lib ∧ ¬ e.Refusal) s := by
  unfold registerAccount
  split
  · rfl
  · dsimp only
    split
    · rfl
    · rw [wp_bind, wp_query]
      refine ⟨trivial, fun r t hstep => ?_⟩
      cases r with
      | error e =>
          obtain ⟨k, rfl⟩ := hstep
          exact ⟨rfl, by rintro ⟨⟩⟩
      | ok registered =>
          rw [show t = s.watch _ _ from hstep]
          show wp _ (query _ _) _ _ _
          rw [wp_query]
          refine ⟨trivial, fun r u hstep => ?_⟩
          cases r with
          | error e =>
              obtain ⟨k, rfl⟩ := hstep
              exact ⟨rfl, by rintro ⟨⟩⟩
          | ok exposed =>
              rw [show u = MigrateStores.expose _ _ from hstep]
              rfl

theorem registerWatchOnly_secrets {plan : ImportPlan} {report : ZewifImportReport} :
    wp (migrateWorld lib importer) (registerWatchOnly lib plan report)
      (fun t _ => t.secrets lib = s.secrets lib)
      (fun t e => t.secrets lib = s.secrets lib ∧ ¬ e.Refusal) s := by
  refine wp_foldlM (fun _ _ (t : MigrateStores) => t.secrets lib = s.secrets lib) rfl ?_
  rintro l account rest _ t - ht
  rw [← ht]
  exact registerAccount_secrets

theorem importWallet_secrets {document : Zewif} :
    wp (migrateWorld lib importer)
      (query (E := migrateSig) (.importWallet document) (Except.mapError MigrateError.importing))
      (fun t _ => t.secrets lib = s.secrets lib) (fun t e => t = s ∧ ¬ e.Refusal) s := by
  rw [wp_query]
  refine ⟨trivial, fun r t hstep => ?_⟩
  cases r with
  | error e => exact ⟨hstep, by rintro ⟨⟩⟩
  | ok report =>
      show t.keystore.mapValues _ = _
      rw [hstep.1]
      rfl

/-! ## Runs -/

/-- The rows of a store that may be missing. -/
def rowsOf (lib : MigrateLib) (store : Option SecretStore) : List (SecretId × Secret) :=
  store.elim [] (SecretStore.rows lib)

theorem storeSecrets_stores (hlib : lib.Documented) {document : Zewif}
    {store : Option SecretStore} (hsecrets : document.secrets = store.map .plain) :
    wp (migrateWorld lib importer) (storeSecrets lib document)
      (fun t _ => Inserted lib s (rowsOf lib store) t)
      (fun t e => InsertedSome lib s (rowsOf lib store) t ∧ ¬ e.Refusal) s := by
  unfold storeSecrets
  refine (OnlyReads.query rfl (mapError_error wrapped_plain)).bind_wp (fun encryptor => ?_)
    fun e he => ⟨.none, he⟩
  rw [hsecrets]
  cases store with
  | none => exact .nil
  | some store =>
      show wp _ ((storeSecretStore lib encryptor store).mapErr MigrateError.secretSink) _ _ s
      rw [wp_mapErr]
      exact wp_mono (fun _ _ h => h) (fun _ _ h => ⟨h, by rintro ⟨⟩⟩)
        (storeSecretStore_stores hlib store s)

/-- A document was imported. -/
def imports : Event migrateSig → Bool
  | ⟨.importWallet _, .ok _⟩ => true
  | _ => false

/-- The document was imported in the run. -/
def Imported (tr : Trace migrateSig) : Prop := ∃ e ∈ tr, imports e = true

/-- The run came to the first of its writes. -/
def CameToWrites (lib : MigrateLib) (scan : Bool) (wallet : ZcashdWallet) (buffer allow : Bool)
    (tr : Trace migrateSig) : Prop :=
  ∃ plan l, l <+: tr ∧ Run (planImport lib scan wallet buffer allow) l (.ret plan)

theorem importWallet_imported {document : Zewif} {tr : Trace migrateSig}
    {report : ZewifImportReport}
    (hrun : Run (query (E := migrateSig) (.importWallet document)
      (Except.mapError MigrateError.importing)) tr (.ret report)) :
    tr = [⟨.importWallet document, .ok report⟩] := by
  cases hrun with
  | @call _ _ a tr _ hrun =>
      cases a with
      | error e => cases hrun
      | ok report => cases hrun; rfl

/-- Of the rows that a run inserts that gets through, `t` has the first ones more than `s`. -/
def StoredSome (lib : MigrateLib) (wallet : ZcashdWallet) (s t : MigrateStores) : Prop :=
  ∀ store mnemonicFp, Exported lib wallet store mnemonicFp →
    ∃ done, done <+: rowsOf lib store ∧ t.secrets lib = (s.secrets lib).insertAll (inTheClear done)

/-- And here all of them. -/
def StoredAll (lib : MigrateLib) (wallet : ZcashdWallet) (s t : MigrateStores) : Prop :=
  ∀ store mnemonicFp, Exported lib wallet store mnemonicFp →
    t.secrets lib = (s.secrets lib).insertAll (inTheClear (rowsOf lib store))

section
variable {scan buffer allow : Bool} {wallet : ZcashdWallet} {t u : MigrateStores}
  {tr : Trace migrateSig}

theorem StoredSome.refl : StoredSome lib wallet s s :=
  fun _ _ _ => ⟨[], List.nil_prefix, rfl⟩

theorem InsertedSome.storedSome (hlib : lib.Documented) {store : Option SecretStore}
    {mnemonicFp : Option String} (hexported : Exported lib wallet store mnemonicFp)
    (h : InsertedSome lib s (rowsOf lib store) t) : StoredSome lib wallet s t := by
  intro store' mnemonicFp' hexported'
  obtain ⟨rfl, -⟩ := hexported.unique hlib hexported'
  obtain ⟨done, hdone, ht⟩ := h
  exact ⟨done, hdone, ht.secrets⟩

theorem Inserted.storedAll (hlib : lib.Documented) {store : Option SecretStore}
    {mnemonicFp : Option String} (hexported : Exported lib wallet store mnemonicFp)
    (h : Inserted lib s (rowsOf lib store) t) : StoredAll lib wallet s t := by
  intro store' mnemonicFp' hexported'
  obtain ⟨rfl, -⟩ := hexported.unique hlib hexported'
  exact h.secrets

/-- A run that stores all of them does not see that some were there. -/
theorem StoredSome.again (h : StoredSome lib wallet s t) (h' : StoredAll lib wallet t u) :
    StoredAll lib wallet s u := by
  intro store mnemonicFp hexported
  obtain ⟨done, hdone, ht⟩ := h store mnemonicFp hexported
  rw [h' store mnemonicFp hexported, ht]
  exact Table.insertAll_prefix (hdone.map _)

/-- What a run that fails leaves, and when it is refused. -/
theorem migrate_fails (hlib : lib.Documented) {e : MigrateError}
    (hrun : Run (migrateZcashdWallet lib scan wallet buffer allow) tr (.fail e))
    (hpath : Path (migrateStep lib importer) s tr t) :
    (e.Refusal → Rejected lib wallet allow s.wallet) ∧ (Imported tr ∨ t.wallet = s.wallet) ∧
      StoredSome lib wallet s t := by
  unfold migrateZcashdWallet at hrun
  rcases hrun.bind_fail with hfails | ⟨plan, l, r, rfl, hplanned, hrun₁⟩
  · obtain ⟨rfl, hrefusal⟩ := (planImport_reads hlib).sound hfails hpath
    exact ⟨hrefusal, .inr rfl, .refl⟩
  obtain ⟨s₁, hread, hpath₁⟩ := hpath.split
  obtain ⟨hs₁, store, mnemonicFp, hplan⟩ := (planImport_reads hlib).sound hplanned hread
  subst s₁
  rcases hrun₁.bind_fail with hfails | ⟨_, l', r', rfl, hstored, hrun₂⟩
  · obtain ⟨hsome, hplain⟩ := (storeSecrets_stores hlib hplan.secrets).sound hfails hpath₁
    exact ⟨fun h => absurd h hplain, .inr hsome.wallet, hsome.storedSome hlib hplan.exported⟩
  obtain ⟨s₂, hstore, hpath₂⟩ := hpath₁.split
  have hall : Inserted lib s (rowsOf lib store) s₂ :=
    (storeSecrets_stores hlib hplan.secrets).sound hstored hstore
  have hsome : StoredSome lib wallet s s₂ := hall.some.storedSome hlib hplan.exported
  rcases hrun₂.bind_fail with hfails | ⟨report, l'', r'', rfl, himported, hrun₃⟩
  · obtain ⟨rfl, hplain⟩ := importWallet_secrets.sound hfails hpath₂
    exact ⟨fun h => absurd h hplain, .inr hall.wallet, hsome⟩
  obtain ⟨s₃, himport, hpath₃⟩ := hpath₂.split
  have hsecrets : s₃.secrets lib = s₂.secrets lib := importWallet_secrets.sound himported himport
  obtain ⟨hsecrets', hplain⟩ := registerWatchOnly_secrets.sound hrun₃ hpath₃
  refine ⟨fun h => absurd h hplain, .inl ?_, ?_⟩
  · rw [importWallet_imported himported]
    exact ⟨⟨.importWallet plan.document, .ok report⟩, by simp, rfl⟩
  · intro store mnemonicFp hexported
    rw [hsecrets', hsecrets]
    exact hsome store mnemonicFp hexported

/-- What a run leaves that gets through. -/
theorem migrate_returns (hlib : lib.Documented)
    (hrun : Run (migrateZcashdWallet lib scan wallet buffer allow) tr (.ret ()))
    (hpath : Path (migrateStep lib importer) s tr t) :
    ¬ Rejected lib wallet allow s.wallet ∧ StoredAll lib wallet s t ∧
      ∃ store mnemonicFp, Exported lib wallet store mnemonicFp := by
  unfold migrateZcashdWallet at hrun
  obtain ⟨plan, l, r, rfl, hplanned, hrun₁⟩ := hrun.bind_ret
  obtain ⟨s₁, hread, hpath₁⟩ := hpath.split
  obtain ⟨hs₁, store, mnemonicFp, hplan⟩ := (planImport_reads hlib).sound hplanned hread
  subst s₁
  obtain ⟨_, l', r', rfl, hstored, hrun₂⟩ := hrun₁.bind_ret
  obtain ⟨s₂, hstore, hpath₂⟩ := hpath₁.split
  have hall : Inserted lib s (rowsOf lib store) s₂ :=
    (storeSecrets_stores hlib hplan.secrets).sound hstored hstore
  obtain ⟨report, l'', r'', rfl, himported, hrun₃⟩ := hrun₂.bind_ret
  obtain ⟨s₃, himport, hpath₃⟩ := hpath₂.split
  have hsecrets : s₃.secrets lib = s₂.secrets lib := importWallet_secrets.sound himported himport
  have hsecrets' : t.secrets lib = s₃.secrets lib := registerWatchOnly_secrets.sound hrun₃ hpath₃
  refine ⟨hplan.not_rejected hlib, fun store mnemonicFp hexported => ?_, _, _, hplan.exported⟩
  rw [hsecrets', hsecrets]
  exact hall.storedAll hlib hplan.exported store mnemonicFp hexported

/-- A run that came to its writes was not refused. -/
theorem CameToWrites.not_rejected (hlib : lib.Documented)
    (h : CameToWrites lib scan wallet buffer allow tr)
    (hpath : Path (migrateStep lib importer) s tr t) : ¬ Rejected lib wallet allow s.wallet := by
  obtain ⟨plan, l, ⟨r, rfl⟩, hplanned⟩ := h
  obtain ⟨s₁, hread, -⟩ := hpath.split
  obtain ⟨rfl, store, mnemonicFp, hplan⟩ := (planImport_reads hlib).sound hplanned hread
  exact hplan.not_rejected hlib

/-- What is answered with one keystore can be answered with another. -/
theorem migrateStep_otherKeystore {s t s' : MigrateStores} {op : MigrateOp} {a : op.Ans}
    (hwallet : t.wallet = s.wallet) (hstep : migrateStep lib importer s op a s') :
    ∃ t', migrateStep lib importer t op a t' ∧ t'.wallet = s'.wallet := by
  obtain ⟨w, keystore⟩ := t
  cases hwallet
  cases op with
  | handle | snapshot | tip view | blockHeight view hash | treeStateAsOf view height | encryptor =>
      cases (show s' = s from hstep)
      exact ⟨_, rfl, rfl⟩
  | getAccountIds | getAccount uuid | encrypt encryptor secret =>
      cases a with
      | error e =>
          cases (show s' = s from hstep)
          exact ⟨_, rfl, rfl⟩
      | ok r =>
          cases hstep.2
          exact ⟨_, ⟨hstep.1, rfl⟩, rfl⟩
  | insert id encrypted =>
      cases a with
      | error e =>
          cases (show s' = s from hstep)
          exact ⟨_, rfl, rfl⟩
      | ok r =>
          rw [show s' = _ from hstep]
          exact ⟨_, rfl, rfl⟩
  | importWallet document =>
      cases a with
      | error e =>
          cases (show s' = s from hstep)
          exact ⟨_, rfl, rfl⟩
      | ok report => exact ⟨⟨s'.wallet, keystore⟩, ⟨rfl, hstep.2⟩, rfl⟩
  | importStandaloneTransparentPubkeys account pubkeys =>
      cases a with
      | error e =>
          obtain ⟨k, rfl⟩ := hstep
          exact ⟨_, ⟨k, rfl⟩, rfl⟩
      | ok r =>
          rw [show s' = _ from hstep]
          exact ⟨_, rfl, rfl⟩
  | markTransparentAddressesExposed addresses =>
      cases a with
      | error e =>
          obtain ⟨k, rfl⟩ := hstep
          exact ⟨_, ⟨k, rfl⟩, rfl⟩
      | ok r =>
          rw [show s' = _ from hstep]
          exact ⟨_, rfl, rfl⟩

end

end

/-- A second run is refused only where the accounts it finds are, and after a run that came to its
writes these are so only if that run had imported the document.  If the second run gets through, the
keystore is as any run leaves it that was not preceded by another, and unless the first had imported
the document, all is as the same run leaves it by itself. -/
theorem migrate_retry {lib : MigrateLib} {importer : Importer} (hlib : lib.Documented)
    {scan buffer allow : Bool} {wallet : ZcashdWallet} {s₀ s₁ s₂ : MigrateStores}
    {tr₁ tr₂ : Trace migrateSig} {e : MigrateError}
    (hfailed : Run (migrateZcashdWallet lib scan wallet buffer allow) tr₁ (.fail e))
    (hpath₁ : Path (migrateStep lib importer) s₀ tr₁ s₁)
    (hpath₂ : Path (migrateStep lib importer) s₁ tr₂ s₂) :
    (∀ e', Run (migrateZcashdWallet lib scan wallet buffer allow) tr₂ (.fail e') → e'.Refusal →
      Rejected lib wallet allow s₁.wallet) ∧
    (CameToWrites lib scan wallet buffer allow tr₁ → Rejected lib wallet allow s₁.wallet →
      Imported tr₁) ∧
    (Run (migrateZcashdWallet lib scan wallet buffer allow) tr₂ (.ret ()) →
      ¬ Rejected lib wallet allow s₁.wallet ∧
      (∀ tr s, Run (migrateZcashdWallet lib scan wallet buffer allow) tr (.ret ()) →
        Path (migrateStep lib importer) s₀ tr s → s.secrets lib = s₂.secrets lib) ∧
      (Imported tr₁ ∨ ∃ s, Path (migrateStep lib importer) s₀ tr₂ s ∧ s.wallet = s₂.wallet ∧
        s.secrets lib = s₂.secrets lib)) := by
  obtain ⟨-, hwallet, hsome⟩ := migrate_fails hlib hfailed hpath₁
  refine ⟨fun e' hrun hrefusal => ?_, fun hwrites hrejected => ?_, fun hrun => ?_⟩
  · exact (migrate_fails hlib hrun hpath₂).1 hrefusal
  · rcases hwallet with himported | hwallet
    · exact himported
    · rw [hwallet] at hrejected
      exact absurd hrejected (hwrites.not_rejected hlib hpath₁)
  · obtain ⟨hallowed, hall, store, mnemonicFp, hexported⟩ := migrate_returns hlib hrun hpath₂
    have hsecrets : ∀ tr s, Run (migrateZcashdWallet lib scan wallet buffer allow) tr (.ret ()) →
        Path (migrateStep lib importer) s₀ tr s → s.secrets lib = s₂.secrets lib := by
      intro tr s hrun' hpath
      have halone : StoredAll lib wallet s₀ s := (migrate_returns hlib hrun' hpath).2.1
      rw [halone store mnemonicFp hexported, hsome.again hall store mnemonicFp hexported]
    refine ⟨hallowed, hsecrets, hwallet.imp_right fun hwallet => ?_⟩
    obtain ⟨s, hpath, hsame⟩ := hpath₂.sim (fun s (t : MigrateStores) => t.wallet = s.wallet)
      (fun _ _ _ _ _ => migrateStep_otherKeystore) hwallet.symm
    exact ⟨s, hpath, hsame, hsecrets tr₂ s hrun hpath⟩

/-! ## A wallet with a watch-only key -/

namespace MigrateSample

/-- The `n` bytes of a number, the highest first. -/
def bytes (n value : Nat) : List UInt8 :=
  (List.range n).reverse.map fun i => (value / 256 ^ i % 256).toUInt8

/-- The mnemonic of the all-zero entropy. -/
def phrase : String :=
  "abandon abandon abandon abandon abandon abandon abandon abandon abandon abandon abandon " ++
    "abandon abandon abandon abandon abandon abandon abandon abandon abandon abandon abandon " ++
    "abandon art"

def seed : Seed :=
  ⟨bytes 32 0x408b285c123836004f4b8842c89324c1f01382450c0d439af345ba7fc49acf70 ++
    bytes 32 0x5489c6fc77dbd4e3dc1dd8cc6bc9f043db8ada1e243c4a0eafb290d399480840⟩

def fingerprint : SeedFingerprint :=
  ⟨bytes 32 0xe62855dc1419972e2d8fd349b740de6a67d8cf6feaafe90cf2f37a2344566ccc⟩

def encodedFingerprint : String :=
  "zip32seedfp1uc59thq5rxtjutv06dymwsx7dfna3nm0a2h7jr8j7dazx3zkdnxqqgyu24"

/-- The public key of the tests of `z_importaddress`. -/
def pubkey : PublicKey :=
  ⟨bytes 33 0x03b0da749730dc9b4b1f4a14d6902877a92541f5368778853d9c4a0cb7802dcfb2⟩

def secretStore : SecretStore :=
  ⟨[⟨encodedFingerprint, .bip39Mnemonic ⟨phrase, some .english⟩⟩], [], [], [], []⟩

def account : ZewifAccount where
  name := "Default"
  keySource := some (.derived ⟨encodedFingerprint, 0, none⟩)
  addresses := [.transparent none (some pubkey.bytes)]
  birthdayHeight := none
  birthdayChainState := none
  recoverUntilHeight := none

def wallet : ZcashdWallet := ⟨.main, [], []⟩

def lib : MigrateLib where
  seedFingerprintFromStr s := if s = encodedFingerprint then .ok fingerprint else .error "invalid"
  seedFingerprintToString _ := encodedFingerprint
  hexDecode _ := none
  accountIdTryFrom n := if n < 2 ^ 31 then .ok n else .error "out of range"
  accountUuidFromStr _ := none
  hrpSaplingExtendedSpendingKey := "secret-extended-key-main"
  hrpSaplingPaymentAddress := "zs"
  decodeExtendedSpendingKey _ _ := .error "invalid Bech32 encoding"
  encodeDefaultAddress _ _ := ""
  toDiversifiableFullViewingKey extsk := ⟨extsk.bytes⟩
  ufvkFromSapling _ := .error "unsupported"
  publicKeyFromSlice slice := if slice = pubkey.bytes then some pubkey else none
  addressFromPubkey _ := "t1SRgDBrpcd4LNMUhGbBfh8S8rs7G335v6R"
  addressFromScriptHash _ := ""
  redeemParse _ := none
  networkType := .main
  activationHeight := 419200
  migrateToZewif _ height :=
    .ok ⟨height, none, [⟨.main, [account], [], []⟩], [], some (.plain secretStore), []⟩
  bech32mDecode s :=
    if s = encodedFingerprint then some ("zip32seedfp", fingerprint.bytes) else none
  encodeSeedFingerprint _ := encodedFingerprint
  seedFingerprintFromSeed _ := some fingerprint
  deriveMnemonic _ := none
  mnemonicFromPhrase s := if s = phrase then .ok ⟨phrase⟩ else .error "invalid word count"
  toSeed _ := seed
  decodeBase58 _ := none
  pubkey _ := pubkey
  serialize pubkey := pubkey.bytes
  serializeUncompressed pubkey := pubkey.bytes
  hrpSaplingExtendedFullViewingKey := "zxviews"
  encodeExtendedFullViewingKey _ _ := ""
  transparentAddressFromPubkey _ := ⟨0x5dd1d3a048119c27b28293056724d9522f26d945⟩
  decrypt encrypted := if encrypted = [0] then some (.phrase phrase) else none

theorem lib_documented : lib.Documented where
  secrets hexport hexport' := by
    cases hexport
    cases hexport'
    rfl
  fingerprint _ := rfl

/-- An empty wallet. -/
def stores : MigrateStores := ⟨⟨[], [], [], List.nodup_nil⟩, []⟩

def report : ZewifImportReport := ⟨[("Default", ⟨1⟩)]⟩

/-- With the account of the document. -/
def imported : WalletData :=
  ⟨[⟨⟨1⟩, .derived fingerprint (some "zcashd_mnemonic")⟩], [], [], List.nodup_singleton _⟩

/-- The importer, on an empty wallet. -/
def importer : Importer := fun _ _ report' w => report' = report ∧ w = imported

/-- The database is locked for the keystore, or for the registration of public keys. -/
def answer (insertLocked registerLocked : Bool) : Answer migrateSig MigrateStores
  | s, .handle => (.ok (), s)
  | s, .snapshot => (.error "unavailable", s)
  | s, .tip _ => (.error "unavailable", s)
  | s, .blockHeight _ _ => (.error "unavailable", s)
  | s, .treeStateAsOf _ _ => (.error "unavailable", s)
  | s, .getAccountIds => (.ok (s.wallet.accounts.map (·.uuid)), s)
  | s, .getAccount uuid => (.ok (s.wallet.accounts.find? (·.uuid = uuid)), s)
  | s, .encryptor => (.ok ⟨["age1"]⟩, s)
  | s, .encrypt _ secret =>
      (if secret = .phrase phrase then .ok [0] else .error "encryption failed", s)
  | s, .insert id encrypted =>
      if insertLocked then (.error "database is locked", s)
      else (.ok (), { s with keystore := s.keystore.insertNew (id, encrypted) })
  | s, .importWallet _ => (.ok report, { s with wallet := imported })
  | s, .importStandaloneTransparentPubkeys account pubkeys =>
      if registerLocked then (.error "database is locked", s.watch account (pubkeys.take 0))
      else (.ok (), s.watch account pubkeys)
  | s, .markTransparentAddressesExposed addresses => (.ok (), s.expose addresses)

theorem answer_step (insertLocked registerLocked : Bool) (s : MigrateStores) (op : MigrateOp) :
    migrateStep lib importer s op (answer insertLocked registerLocked s op).1
      (answer insertLocked registerLocked s op).2 := by
  cases op with
  | getAccountIds | getAccount uuid => exact ⟨rfl, rfl⟩
  | encrypt encryptor secret =>
      by_cases hsecret : secret = .phrase phrase
      · subst hsecret
        simp only [answer, if_true]
        exact ⟨by simp only [lib, if_true], rfl⟩
      · simp only [answer, hsecret, if_false]
        rfl
  | insert id encrypted => cases insertLocked <;> rfl
  | importWallet document => exact ⟨rfl, rfl, rfl⟩
  | importStandaloneTransparentPubkeys account pubkeys =>
      cases registerLocked with
      | true => exact ⟨0, rfl⟩
      | false => rfl
  | _ => rfl

/-- A run without the chain, from given stores. -/
def ends (allow insertLocked registerLocked : Bool) (s : MigrateStores) :
    Trace migrateSig × MigrateStores × MigrateProg Unit :=
  exec (answer insertLocked registerLocked) 40 s (migrateZcashdWallet lib false wallet false allow)

theorem ends_path (allow insertLocked registerLocked : Bool) (s : MigrateStores) :
    Path (migrateStep lib importer) s (ends allow insertLocked registerLocked s).1
      (ends allow insertLocked registerLocked s).2.1 :=
  exec_path id (answer_step insertLocked registerLocked) 40 s _

end MigrateSample

open MigrateSample in
/-- The public key cannot be registered because the database is locked: every further run is refused,
with the flag and without. -/
theorem migrate_not_retriable :
    (∃ tr₁ s₁ tr₂ s₂, Run (migrateZcashdWallet lib false wallet false false) tr₁
        (.fail (.database "database is locked")) ∧ Path (migrateStep lib importer) stores tr₁ s₁ ∧
      Run (migrateZcashdWallet lib false wallet false false) tr₂ (.fail .multiImportDisabled) ∧
        Path (migrateStep lib importer) s₁ tr₂ s₂) ∧
    ∃ tr₁ s₁ tr₂ s₂, Run (migrateZcashdWallet lib false wallet false true) tr₁
        (.fail (.database "database is locked")) ∧ Path (migrateStep lib importer) stores tr₁ s₁ ∧
      Run (migrateZcashdWallet lib false wallet false true) tr₂
        (.fail (.duplicateImport fingerprint)) ∧ Path (migrateStep lib importer) s₁ tr₂ s₂ := by
  have hfails : ∀ allow, (ends allow false true stores).2.2.failed? =
      some (.database "database is locked") := by decide +kernel
  have hdisabled : (ends false false false (ends false false true stores).2.1).2.2.failed? =
      some .multiImportDisabled := by decide +kernel
  have hduplicate : (ends true false false (ends true false true stores).2.1).2.2.failed? =
      some (.duplicateImport fingerprint) := by decide +kernel
  exact ⟨⟨_, _, _, _, exec_fail (hfails false), ends_path _ _ _ _, exec_fail hdisabled,
      ends_path _ _ _ _⟩,
    _, _, _, _, exec_fail (hfails true), ends_path _ _ _ _, exec_fail hduplicate, ends_path _ _ _ _⟩

open MigrateSample in
/-- The mnemonic cannot be stored because the database is locked: the next run leaves what it would
have left by itself. -/
theorem migrate_retry_locked :
    ∃ tr₁ s₁ tr₂ s₂, Run (migrateZcashdWallet lib false wallet false false) tr₁
        (.fail (.secretSink (.keystore "database is locked"))) ∧
      Path (migrateStep lib importer) stores tr₁ s₁ ∧
      Run (migrateZcashdWallet lib false wallet false false) tr₂ (.ret ()) ∧
      Path (migrateStep lib importer) s₁ tr₂ s₂ ∧
      ∃ s, Path (migrateStep lib importer) stores tr₂ s ∧ s.wallet = s₂.wallet ∧
        s.secrets lib = s₂.secrets lib := by
  have hfails : (ends false true false stores).2.2.failed? =
      some (.secretSink (.keystore "database is locked")) := by decide +kernel
  have hreturns : (ends false false false (ends false true false stores).2.1).2.2.result? =
      some () := by decide +kernel
  have himported : ¬ Imported (ends false true false stores).1 := by
    unfold Imported
    decide +kernel
  have hretry := migrate_retry lib_documented (exec_fail hfails) (ends_path _ _ _ _)
    (ends_path false false false (ends false true false stores).2.1)
  exact ⟨_, _, _, _, exec_fail hfails, ends_path _ _ _ _, exec_ret hreturns, ends_path _ _ _ _,
    (hretry.2.2 (exec_ret hreturns)).2.2.resolve_left himported⟩

end Zallet
