/-
# `Zallet.Migrate.Secrets` — what the migration stores

An entry of the document's secret store becomes a row of the keystore, whose key
and secret do not depend on the run (`SecretStore.rows`).  Storing the secrets
inserts these rows, in order; where it fails it has inserted some of them, the
first ones (`storeSecretStore_stores`).  Ciphertexts differ from run to run, so
the keystore is compared by what its rows decrypt to.
-/
import Zallet.Migrate.Import

namespace Zallet

open Prog

/-- The stores, with the demand on the migration that it does not panic. -/
def migrateWorld (lib : MigrateLib) (importer : Importer) : World migrateSig MigrateStores :=
  ⟨migrateStep lib importer, fun _ _ => True, fun _ => False⟩

/-- What is documented of the exporter and of the seeds of mnemonics. -/
structure MigrateLib.Documented (lib : MigrateLib) : Prop where
  secrets : ∀ {wallet h h' document document'}, lib.migrateToZewif wallet h = .ok document →
    lib.migrateToZewif wallet h' = .ok document' → document.secrets = document'.secrets
  fingerprint : ∀ mnemonic, (lib.seedFingerprintFromSeed (lib.toSeed mnemonic)).isSome

/-- The check refuses to import the wallet. -/
inductive MigrateError.Refusal : MigrateError → Prop
  | multiImportDisabled : Refusal .multiImportDisabled
  | duplicateImport (fp : SeedFingerprint) : Refusal (.duplicateImport fp)

/-! ## What is read -/

/-- Operations that are not writes. -/
def MigrateOp.reads : MigrateOp → Bool
  | .insert _ _ | .importWallet _ => false
  | .importStandaloneTransparentPubkeys _ _ | .markTransparentAddressesExposed _ => false
  | _ => true

section
variable {lib : MigrateLib} {importer : Importer} {s : MigrateStores}

theorem migrateStep_reads {op : MigrateOp} (h : op.reads = true) {a : op.Ans} {s' : MigrateStores}
    (hstep : migrateStep lib importer s op a s') : s' = s := by
  cases op with
  | getAccountIds | getAccount uuid | encrypt encryptor secret =>
      cases a with
      | error e => exact hstep
      | ok a => exact hstep.2
  | handle | snapshot | tip view | blockHeight view hash | treeStateAsOf view height | encryptor =>
      exact hstep
  | _ => cases h

section
variable {α ε : Type} {Q : MigrateStores → α → Prop} {R : MigrateStores → ε → Prop}

theorem wp_readStores {op : MigrateOp} (h : op.reads = true) {f : op.Ans → Except ε α}
    (hok : ∀ a, Q s a) (herror : ∀ e, R s e) :
    wp (migrateWorld lib importer) (query (E := migrateSig) op f) Q R s :=
  wp_query_still trivial (fun _ _ => migrateStep_reads h) hok herror

end

/-! ## The keystore -/

/-- The secrets in the keystore, in the clear. -/
def MigrateStores.secrets (lib : MigrateLib) (s : MigrateStores) : Table SecretId (Option Secret) :=
  s.keystore.mapValues lib.decrypt

def inTheClear (rows : List (SecretId × Secret)) : List (SecretId × Option Secret) :=
  rows.map fun row => (row.1, some row.2)

theorem inTheClear_append {rows rest : List (SecretId × Secret)} :
    inTheClear (rows ++ rest) = inTheClear rows ++ inTheClear rest := List.map_append

/-- `t` is `s` with secrets inserted, each unless its key was there. -/
structure Inserted (lib : MigrateLib) (s : MigrateStores) (rows : List (SecretId × Secret))
    (t : MigrateStores) : Prop where
  wallet : t.wallet = s.wallet
  secrets : t.secrets lib = (s.secrets lib).insertAll (inTheClear rows)

/-- Inserting was broken off. -/
def InsertedSome (lib : MigrateLib) (s : MigrateStores) (rows : List (SecretId × Secret))
    (t : MigrateStores) : Prop :=
  ∃ done, done <+: rows ∧ Inserted lib s done t

section
variable {t u : MigrateStores} {rows rest : List (SecretId × Secret)}

theorem Inserted.nil : Inserted lib s [] s := ⟨rfl, rfl⟩

theorem Inserted.append (h : Inserted lib s rows t) (h' : Inserted lib t rest u) :
    Inserted lib s (rows ++ rest) u where
  wallet := h'.wallet.trans h.wallet
  secrets := by rw [h'.secrets, h.secrets, inTheClear_append, Table.insertAll_append]

theorem InsertedSome.none : InsertedSome lib s rows s := ⟨[], List.nil_prefix, .nil⟩

theorem Inserted.some (h : Inserted lib s rows t) : InsertedSome lib s rows t :=
  ⟨rows, List.prefix_rfl, h⟩

theorem InsertedSome.more (h : InsertedSome lib s rows t) : InsertedSome lib s (rows ++ rest) t := by
  obtain ⟨done, hdone, ht⟩ := h
  exact ⟨done, hdone.trans (List.prefix_append _ _), ht⟩

theorem Inserted.appendSome (h : Inserted lib s rows t) (h' : InsertedSome lib t rest u) :
    InsertedSome lib s (rows ++ rest) u := by
  obtain ⟨done, hdone, hu⟩ := h'
  exact ⟨rows ++ done, (List.prefix_append_right_inj rows).mpr hdone, h.append hu⟩

theorem InsertedSome.wallet (h : InsertedSome lib s rows t) : t.wallet = s.wallet :=
  h.elim fun _ h => h.2.wallet

end

/-- A program that stores the secret `row`, or fails before or after. -/
def StoresRow (lib : MigrateLib) (importer : Importer) {α ε : Type} (p : Prog migrateSig ε α)
    (row : Option (SecretId × Secret)) : Prop :=
  ∀ s, wp (migrateWorld lib importer) p (fun t _ => Inserted lib s row.toList t)
    (fun t _ => InsertedSome lib s row.toList t) s

theorem storeEncrypted_stores {encryptor : Encryptor} {secretId : SecretId} {secret : Secret} :
    StoresRow lib importer (storeEncrypted encryptor secretId secret) (some (secretId, secret)) := by
  intro s
  unfold storeEncrypted
  rw [wp_bind, wp_query]
  refine ⟨trivial, fun r t hstep => ?_⟩
  cases r with
  | error e =>
      obtain rfl : t = s := hstep
      exact .none
  | ok encrypted =>
      obtain ⟨hencrypted, rfl⟩ := hstep
      show wp _ (query _ _) _ _ t
      rw [wp_query]
      refine ⟨trivial, fun r u hstep => ?_⟩
      cases r with
      | error e =>
          obtain rfl : u = t := hstep
          exact .none
      | ok inserted =>
          obtain rfl : u = { t with keystore := t.keystore.insertNew (secretId, encrypted) } := hstep
          refine ⟨rfl, ?_⟩
          rw [MigrateStores.secrets, Table.mapValues_insertNew, hencrypted]
          rfl

/-- Reading the recipients before, and the errors told otherwise, makes no difference. -/
theorem StoresRow.mapErr {α ε ε' : Type} {p : Prog migrateSig ε α} {f : ε → ε'}
    {row : Option (SecretId × Secret)} (h : StoresRow lib importer p row) :
    StoresRow lib importer (p.mapErr f) row :=
  fun s => wp_mapErr.mpr (h s)

theorem StoresRow.fail {α ε : Type} {e : ε} {row : Option (SecretId × Secret)} :
    StoresRow lib importer (.fail e : Prog migrateSig ε α) row :=
  fun _ => .none

theorem StoresRow.afterRead {α β ε : Type} {op : MigrateOp} (hop : op.reads = true)
    {f : op.Ans → Except ε β} {p : β → Prog migrateSig ε α} {row : Option (SecretId × Secret)}
    (h : ∀ b, StoresRow lib importer (p b) row) :
    StoresRow lib importer (query (E := migrateSig) op f >>= p) row := fun s => by
  rw [wp_bind]
  exact wp_readStores hop (fun b => h b s) fun _ => .none

/-- What comes after does not write. -/
theorem StoresRow.thenReads {α β ε : Type} {p : Prog migrateSig ε α} {f : α → Prog migrateSig ε β}
    {row : Option (SecretId × Secret)} (h : StoresRow lib importer p row)
    (hf : ∀ a s, wp (migrateWorld lib importer) (f a) (fun t _ => t = s) (fun t _ => t = s) s) :
    StoresRow lib importer (p >>= f) row := fun s => by
  rw [wp_bind]
  refine wp_mono (fun t a ht => ?_) (fun _ _ ht => ht) (h s)
  refine wp_mono ?_ ?_ (hf a t)
  · rintro _ b rfl
    exact ht
  · rintro _ e rfl
    exact ht.some

/-! ## The secrets of a store -/

/-- The row of a mnemonic. -/
def mnemonicRow (lib : MigrateLib) (mnemonic : Mnemonic) : Option (SecretId × Secret) :=
  (lib.seedFingerprintFromSeed (lib.toSeed mnemonic)).map fun fp =>
    (.mnemonic fp, .phrase mnemonic.phrase)

def seedRow (lib : MigrateLib) : SeedMaterial → Option (SecretId × Secret)
  | .bip39Mnemonic mnemonic =>
      (lib.mnemonicFromPhrase mnemonic.mnemonic).toOption.bind (mnemonicRow lib)
  | .legacySeed bytes =>
      (lib.seedFingerprintFromSeed ⟨bytes⟩).map fun fp => (.legacySeed fp, .bytes bytes)

theorem seedRow_bip39Mnemonic {mnemonic : Bip39Mnemonic} :
    seedRow lib (.bip39Mnemonic mnemonic) =
      (lib.mnemonicFromPhrase mnemonic.mnemonic).toOption.bind (mnemonicRow lib) := rfl

theorem seedRow_legacySeed {bytes : List UInt8} :
    seedRow lib (.legacySeed bytes) = (lib.seedFingerprintFromSeed ⟨bytes⟩).map fun fp =>
      (.legacySeed fp, .bytes bytes) := rfl

def transparentKeyRow (lib : MigrateLib) (entry : TransparentKeyEntry) :
    Option (SecretId × Secret) :=
  (lib.decodeBase58 entry.spendingKey).map fun key =>
    (.standaloneTransparentKey (lib.pubkey key), .bytes key.secret)

def saplingKeyRow (lib : MigrateLib) (entry : SaplingKeyEntry) : Option (SecretId × Secret) :=
  (lib.decodeExtendedSpendingKey lib.hrpSaplingExtendedSpendingKey
    entry.spendingKey).toOption.map fun extsk =>
      (.standaloneSaplingKey (lib.toDiversifiableFullViewingKey extsk), .bytes extsk.bytes)

/-- What a store's secrets are in the keystore. -/
def SecretStore.rows (lib : MigrateLib) (store : SecretStore) : List (SecretId × Secret) :=
  store.seeds.filterMap (seedRow lib ·.material) ++
    (store.transparentKeys.filterMap (transparentKeyRow lib) ++
      store.saplingKeys.filterMap (saplingKeyRow lib))

theorem encryptAndStoreMnemonic_stores (hlib : lib.Documented) {mnemonic : Mnemonic} :
    StoresRow lib importer (encryptAndStoreMnemonic lib mnemonic) (mnemonicRow lib mnemonic) := by
  obtain ⟨fp, hfp⟩ := Option.isSome_iff_exists.mp (hlib.fingerprint mnemonic)
  unfold encryptAndStoreMnemonic mnemonicRow
  rw [hfp]
  refine .afterRead rfl fun encryptor => ?_
  exact StoresRow.thenReads storeEncrypted_stores fun _ _ => rfl

theorem encryptAndStoreLegacySeed_stores {bytes : List UInt8} :
    StoresRow lib importer (encryptAndStoreLegacySeed lib bytes)
      (seedRow lib (.legacySeed bytes)) := by
  unfold encryptAndStoreLegacySeed
  rw [seedRow_legacySeed]
  refine .afterRead rfl fun encryptor => ?_
  cases lib.seedFingerprintFromSeed ⟨bytes⟩ with
  | none => exact .fail
  | some fp => exact StoresRow.thenReads storeEncrypted_stores fun _ _ => rfl

theorem storeSeed_stores (hlib : lib.Documented) (entry : SeedEntry) :
    StoresRow lib importer (storeSeed lib entry) (seedRow lib entry.material) := by
  have hcheck : ∀ computed s, wp (migrateWorld lib importer)
      (ofExcept id (checkFingerprint lib entry.fingerprint computed) : SinkProg Unit)
      (fun t _ => t = s) (fun t _ => t = s) s := fun computed s => by
    rw [wp_ofExcept]
    cases checkFingerprint lib entry.fingerprint computed <;> rfl
  refine StoresRow.thenReads ?_ hcheck
  unfold storeSeedMaterial
  cases entry.material with
  | legacySeed bytes => exact encryptAndStoreLegacySeed_stores.mapErr
  | bip39Mnemonic mnemonic =>
      dsimp only
      split
      · exact .fail
      · rw [seedRow_bip39Mnemonic]
        cases lib.mnemonicFromPhrase mnemonic.mnemonic with
        | error e => exact .fail
        | ok mnemonic => exact (encryptAndStoreMnemonic_stores hlib).mapErr

theorem storeTransparentKey_stores {encryptor : Encryptor} (entry : TransparentKeyEntry) :
    StoresRow lib importer (storeTransparentKey lib encryptor entry)
      (transparentKeyRow lib entry) := by
  unfold storeTransparentKey transparentKeyRow
  cases lib.decodeBase58 entry.spendingKey with
  | none => exact .fail
  | some key =>
      dsimp only
      split
      · split
        · exact storeEncrypted_stores.mapErr
        · exact .fail
      · split
        · exact storeEncrypted_stores.mapErr
        · exact .fail

theorem storeSaplingKey_stores (entry : SaplingKeyEntry) :
    StoresRow lib importer (storeSaplingKey lib entry) (saplingKeyRow lib entry) := by
  unfold storeSaplingKey saplingKeyRow
  cases lib.decodeExtendedSpendingKey lib.hrpSaplingExtendedSpendingKey entry.spendingKey with
  | error e => exact .fail
  | ok extsk =>
      dsimp only
      split
      · exact (StoresRow.afterRead rfl fun _ => storeEncrypted_stores).mapErr
      · exact .fail

/-- A program that stores all of `rows`, or some and fails. -/
def StoresRows (lib : MigrateLib) (importer : Importer) {ε : Type} (p : Prog migrateSig ε Unit)
    (rows : List (SecretId × Secret)) : Prop :=
  ∀ s, wp (migrateWorld lib importer) p (fun t _ => Inserted lib s rows t)
    (fun t _ => InsertedSome lib s rows t) s

theorem StoresRows.bind {ε : Type} {p q : Prog migrateSig ε Unit}
    {rows rest : List (SecretId × Secret)} (hp : StoresRows lib importer p rows)
    (hq : StoresRows lib importer q rest) :
    StoresRows lib importer (p >>= fun _ => q) (rows ++ rest) := fun s => by
  rw [wp_bind]
  refine wp_mono (fun t _ ht => ?_) (fun _ _ ht => ht.more) (hp s)
  exact wp_mono (fun _ _ hu => ht.append hu) (fun _ _ hu => ht.appendSome hu) (hq t)

theorem storeEach_stores {ι : Type} {store : ι → SinkProg Unit}
    {row : ι → Option (SecretId × Secret)} (h : ∀ entry, StoresRow lib importer (store entry) (row entry))
    (entries : List ι) :
    StoresRows lib importer (storeEach store entries) (entries.filterMap row) := by
  induction entries with
  | nil => exact fun _ => .nil
  | cons entry entries ih =>
      have hrows : (entry :: entries).filterMap row =
          (row entry).toList ++ entries.filterMap row := by
        cases hrow : row entry <;> simp [hrow]
      rw [hrows]
      exact StoresRows.bind (h entry) ih

theorem storeSecretStore_stores (hlib : lib.Documented) {encryptor : Encryptor}
    (store : SecretStore) :
    StoresRows lib importer (storeSecretStore lib encryptor store) (store.rows lib) :=
  (storeEach_stores (storeSeed_stores hlib) _).bind
    ((storeEach_stores storeTransparentKey_stores _).bind
      (storeEach_stores storeSaplingKey_stores _))

end

end Zallet
