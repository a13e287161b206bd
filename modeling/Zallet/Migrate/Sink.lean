/-
# `Zallet.Migrate.Sink` — what the secret sink leaves where it fails

An entry of a secret store comes with a record of what it should be: the
fingerprint of a seed, the public key of a transparent key, the viewing key of a
Sapling key.  The two kinds of keys are checked against their record and then
stored; a seed is stored and then checked, because its fingerprint is told by
the keystore.  So an operation that fails has left the keystore as it was,
unless it is that of a seed that is not the recorded one and was not there:
this one stays (`store_unchanged_iff`).
-/
import Zallet.Migrate.Retry

namespace Zallet

open Prog

/-! ## Entries -/

/-- A secret of the document, of a kind that the sink stores. -/
inductive SecretEntry where
  | seed (entry : SeedEntry)
  | transparentKey (entry : TransparentKeyEntry)
  | saplingKey (entry : SaplingKeyEntry)
  deriving DecidableEq, Repr

section
variable (lib : MigrateLib)

def SecretEntry.store (encryptor : Encryptor) : SecretEntry → SinkProg Unit
  | .seed entry => storeSeed lib entry
  | .transparentKey entry => storeTransparentKey lib encryptor entry
  | .saplingKey entry => storeSaplingKey lib entry

/-- The fingerprint of the seed, if it is one that can be stored. -/
def SeedMaterial.fingerprint : SeedMaterial → Option SeedFingerprint
  | .bip39Mnemonic mnemonic =>
      if ∃ language ∈ mnemonic.language, language ≠ .english then none
      else (lib.mnemonicFromPhrase mnemonic.mnemonic).toOption.bind fun mnemonic =>
        lib.seedFingerprintFromSeed (lib.toSeed mnemonic)
  | .legacySeed bytes => lib.seedFingerprintFromSeed ⟨bytes⟩

def SeedMaterial.secretId (fp : SeedFingerprint) : SeedMaterial → SecretId
  | .bip39Mnemonic _ => .mnemonic fp
  | .legacySeed _ => .legacySeed fp

/-- The secret is the recorded one. -/
def SecretEntry.Matches : SecretEntry → Prop
  | .seed entry => ∃ fp, entry.material.fingerprint lib = some fp ∧
      decodeSeedFingerprint lib entry.fingerprint = some fp
  | .transparentKey entry => ∃ key, lib.decodeBase58 entry.spendingKey = some key ∧
      (if key.compressed then lib.serialize (lib.pubkey key)
        else lib.serializeUncompressed (lib.pubkey key)) = entry.pubkey
  | .saplingKey entry => ∃ extsk,
      lib.decodeExtendedSpendingKey lib.hrpSaplingExtendedSpendingKey entry.spendingKey =
        .ok extsk ∧
      lib.encodeExtendedFullViewingKey lib.hrpSaplingExtendedFullViewingKey extsk = entry.fvk

/-- A seed that can be stored, under this key, and is not the recorded one. -/
def SecretEntry.Unmatched (id : SecretId) : SecretEntry → Prop
  | .seed entry => ∃ fp, entry.material.fingerprint lib = some fp ∧
      decodeSeedFingerprint lib entry.fingerprint ≠ some fp ∧ id = entry.material.secretId fp
  | .transparentKey _ | .saplingKey _ => False

/-- There is a ciphertext of what the entry would be stored as. -/
def SecretEntry.Encryptable : SecretEntry → Prop
  | .seed entry => ∀ row ∈ seedRow lib entry.material, ∃ c, lib.decrypt c = some row.2
  | .transparentKey entry => ∀ row ∈ transparentKeyRow lib entry, ∃ c, lib.decrypt c = some row.2
  | .saplingKey entry => ∀ row ∈ saplingKeyRow lib entry, ∃ c, lib.decrypt c = some row.2

end

section
variable {lib : MigrateLib} {importer : Importer} {s : MigrateStores} {α ε : Type}

/-! ## What is put in the keystore -/

/-- The stores, with no demand on the program. -/
def sinkWorld (lib : MigrateLib) (importer : Importer) : World migrateSig MigrateStores :=
  ⟨migrateStep lib importer, fun _ _ => True, fun _ => True⟩

/-- A program that puts a secret under a key that `F` tells of what it returns; and where it fails,
nothing. -/
def PutsOne (lib : MigrateLib) (importer : Importer) (p : Prog migrateSig ε α)
    (F : α → SecretId → Prop) : Prop :=
  ∀ s, wp (sinkWorld lib importer) p (fun t a => ∃ id encrypted, F a id ∧
    t = { s with keystore := s.keystore.insertNew (id, encrypted) }) (fun t _ => t = s) s

theorem PutsOne.fail {e : ε} {F : α → SecretId → Prop} :
    PutsOne lib importer (.fail e : Prog migrateSig ε α) F := by
  intro s
  rfl

theorem PutsOne.mapErr {ε' : Type} {p : Prog migrateSig ε α} {f : ε → ε'}
    {F : α → SecretId → Prop} (h : PutsOne lib importer p F) :
    PutsOne lib importer (p.mapErr f) F := by
  intro s
  rw [wp_mapErr]
  exact h s

theorem PutsOne.afterEncryptor {f : Except String Encryptor → Except ε Encryptor}
    {p : Encryptor → Prog migrateSig ε α} {F : α → SecretId → Prop}
    (h : ∀ encryptor, PutsOne lib importer (p encryptor) F) :
    PutsOne lib importer (query (E := migrateSig) .encryptor f >>= p) F := by
  intro s
  rw [wp_bind]
  exact wp_query_still trivial (fun _ _ hstep => hstep) (fun encryptor => h encryptor s)
    fun _ => rfl

theorem PutsOne.thenReturns {β : Type} {p : Prog migrateSig ε α} {b : β} {F : α → SecretId → Prop}
    {G : β → SecretId → Prop} (h : PutsOne lib importer p F) (hG : ∀ a id, F a id → G b id) :
    PutsOne lib importer (p >>= fun _ => pure b) G := by
  intro s
  rw [wp_bind]
  refine wp_mono ?_ (fun _ _ ht => ht) (h s)
  rintro t a ⟨id, encrypted, hid, ht⟩
  exact ⟨id, encrypted, hG a id hid, ht⟩

theorem storeEncrypted_puts {encryptor : Encryptor} {secretId : SecretId} {secret : Secret} :
    PutsOne lib importer (storeEncrypted encryptor secretId secret) fun _ id => id = secretId := by
  intro s
  unfold storeEncrypted
  rw [wp_bind, wp_query]
  refine ⟨trivial, ?_⟩
  intro r t hstep
  cases r with
  | error e => exact hstep
  | ok encrypted =>
      obtain ⟨-, rfl⟩ := hstep
      show wp _ (query _ _) _ _ t
      rw [wp_query]
      refine ⟨trivial, ?_⟩
      intro r u hstep
      cases r with
      | error e => exact hstep
      | ok inserted => exact ⟨secretId, encrypted, rfl, hstep⟩

/-- The seed is stored under its fingerprint, whatever was recorded. -/
theorem storeSeedMaterial_puts {material : SeedMaterial} :
    PutsOne lib importer (storeSeedMaterial lib material) fun fp id =>
      material.fingerprint lib = some fp ∧ id = material.secretId fp := by
  unfold storeSeedMaterial SeedMaterial.fingerprint SeedMaterial.secretId
  cases material with
  | legacySeed bytes =>
      refine PutsOne.mapErr ?_
      refine PutsOne.afterEncryptor ?_
      intro encryptor
      dsimp only
      cases lib.seedFingerprintFromSeed ⟨bytes⟩ with
      | none => exact .fail
      | some fp => exact storeEncrypted_puts.thenReturns fun _ _ hid => ⟨rfl, hid⟩
  | bip39Mnemonic mnemonic =>
      dsimp only
      split
      case isTrue => exact .fail
      case isFalse =>
        cases lib.mnemonicFromPhrase mnemonic.mnemonic with
        | error e => exact .fail
        | ok mnemonic =>
            refine PutsOne.mapErr ?_
            refine PutsOne.afterEncryptor ?_
            intro encryptor
            simp only [Except.toOption, Option.bind_some]
            cases lib.seedFingerprintFromSeed (lib.toSeed mnemonic) with
            | none =>
                intro s
                trivial
            | some fp => exact storeEncrypted_puts.thenReturns fun _ _ hid => ⟨rfl, hid⟩

theorem checkFingerprint_ok {recorded : String} {computed : SeedFingerprint} :
    checkFingerprint lib recorded computed = .ok () ↔
      decodeSeedFingerprint lib recorded = some computed := by
  unfold checkFingerprint
  cases decodeSeedFingerprint lib recorded with
  | none => exact iff_of_false (by rintro ⟨⟩) (by rintro ⟨⟩)
  | some decoded =>
      dsimp only
      split
      case isTrue h => exact iff_of_true rfl (congrArg some h)
      case isFalse h => exact iff_of_false (by rintro ⟨⟩) fun heq => h (Option.some.inj heq)

/-! ## How an operation ends -/

theorem storeSeed_ends {entry : SeedEntry} :
    wp (sinkWorld lib importer) (storeSeed lib entry)
      (fun _ _ => (SecretEntry.seed entry).Matches lib)
      (fun t _ => t = s ∨ ∃ id encrypted, (SecretEntry.seed entry).Unmatched lib id ∧
        t = { s with keystore := s.keystore.insertNew (id, encrypted) }) s := by
  unfold storeSeed
  rw [wp_bind]
  refine wp_mono ?_ (fun _ _ ht => .inl ht) (storeSeedMaterial_puts s)
  rintro t fp ⟨id, encrypted, ⟨hfp, hid⟩, ht⟩
  rw [wp_ofExcept]
  cases hcheck : checkFingerprint lib entry.fingerprint fp with
  | ok _ => exact ⟨fp, hfp, checkFingerprint_ok.mp hcheck⟩
  | error e =>
      refine .inr ⟨id, encrypted, ⟨fp, hfp, ?_, hid⟩, ht⟩
      intro hdecoded
      rw [checkFingerprint_ok.mpr hdecoded] at hcheck
      cases hcheck

theorem storeTransparentKey_ends {encryptor : Encryptor} {entry : TransparentKeyEntry} :
    wp (sinkWorld lib importer) (storeTransparentKey lib encryptor entry)
      (fun _ _ => (SecretEntry.transparentKey entry).Matches lib) (fun t _ => t = s) s := by
  unfold storeTransparentKey
  cases hkey : lib.decodeBase58 entry.spendingKey with
  | none => rfl
  | some key =>
      dsimp only
      by_cases hmatches : (if key.compressed then lib.serialize (lib.pubkey key)
          else lib.serializeUncompressed (lib.pubkey key)) = entry.pubkey
      · rw [if_pos hmatches, wp_mapErr]
        exact wp_mono (fun _ _ _ => ⟨key, hkey, hmatches⟩) (fun _ _ ht => ht)
          (storeEncrypted_puts s)
      · rw [if_neg hmatches]
        rfl

theorem storeSaplingKey_ends {entry : SaplingKeyEntry} :
    wp (sinkWorld lib importer) (storeSaplingKey lib entry)
      (fun _ _ => (SecretEntry.saplingKey entry).Matches lib) (fun t _ => t = s) s := by
  unfold storeSaplingKey
  cases hkey : lib.decodeExtendedSpendingKey lib.hrpSaplingExtendedSpendingKey
      entry.spendingKey with
  | error e => rfl
  | ok extsk =>
      dsimp only
      split
      case isTrue hmatches =>
        have hputs : PutsOne lib importer
            (KeystoreProg.encryptAndStoreStandaloneSaplingKey lib extsk) _ :=
          .afterEncryptor fun _ => storeEncrypted_puts
        rw [wp_mapErr]
        exact wp_mono (fun _ _ _ => ⟨extsk, hkey, hmatches⟩) (fun _ _ ht => ht) (hputs s)
      case isFalse => rfl

/-- What is stored is the recorded secret; and a failure leaves nothing but an unmatched seed. -/
theorem store_ends {encryptor : Encryptor} (entry : SecretEntry) :
    wp (sinkWorld lib importer) (entry.store lib encryptor) (fun _ _ => entry.Matches lib)
      (fun t _ => t = s ∨ ∃ id encrypted, entry.Unmatched lib id ∧
        t = { s with keystore := s.keystore.insertNew (id, encrypted) }) s := by
  cases entry with
  | seed entry => exact storeSeed_ends
  | transparentKey entry =>
      exact wp_mono (fun _ _ h => h) (fun _ _ ht => .inl ht) storeTransparentKey_ends
  | saplingKey entry =>
      exact wp_mono (fun _ _ h => h) (fun _ _ ht => .inl ht) storeSaplingKey_ends

/-! ## A seed that is not the recorded one -/

/-- A run that stores the seed. -/
theorem storeSeedMaterial_run {material : SeedMaterial} {fp : SeedFingerprint}
    (h : material.fingerprint lib = some fp) (encryptor : Encryptor) :
    ∃ secret, seedRow lib material = some (material.secretId fp, secret) ∧
      ∀ encrypted, Run (storeSeedMaterial lib material) [⟨.encryptor, .ok encryptor⟩,
        ⟨.encrypt encryptor secret, .ok encrypted⟩,
        ⟨.insert (material.secretId fp) encrypted, .ok ()⟩] (.ret fp) := by
  cases material with
  | legacySeed bytes =>
      have hfp : lib.seedFingerprintFromSeed ⟨bytes⟩ = some fp := h
      refine ⟨.bytes bytes, ?_, ?_⟩
      · rw [seedRow_legacySeed, hfp]
        rfl
      · intro encrypted
        unfold storeSeedMaterial encryptAndStoreLegacySeed
        dsimp only
        rw [hfp]
        exact .call (.call (.call (.refl _)))
  | bip39Mnemonic mnemonic =>
      unfold SeedMaterial.fingerprint at h
      dsimp only at h
      split at h
      case isTrue => cases h
      case isFalse hlanguage =>
        cases hphrase : lib.mnemonicFromPhrase mnemonic.mnemonic with
        | error e =>
            rw [hphrase] at h
            cases h
        | ok parsed =>
            rw [hphrase] at h
            have hfp : lib.seedFingerprintFromSeed (lib.toSeed parsed) = some fp := h
            refine ⟨.phrase parsed.phrase, ?_, ?_⟩
            · rw [seedRow_bip39Mnemonic, hphrase]
              simp only [Except.toOption, Option.bind_some, mnemonicRow]
              rw [hfp]
              rfl
            · intro encrypted
              unfold storeSeedMaterial encryptAndStoreMnemonic
              dsimp only
              rw [if_neg hlanguage, hphrase]
              dsimp only
              rw [hfp]
              exact .call (.call (.call (.refl _)))

/-- Such a seed is put in the keystore by an operation that fails. -/
theorem store_unmatched {encryptor : Encryptor} {entry : SecretEntry} {id : SecretId}
    (h : entry.Unmatched lib id) (hencrypts : entry.Encryptable lib) :
    ∃ tr e encrypted, Run (entry.store lib encryptor) tr (.fail e) ∧
      Path (migrateStep lib importer) s tr
        { s with keystore := s.keystore.insertNew (id, encrypted) } := by
  cases entry with
  | transparentKey entry => cases h
  | saplingKey entry => cases h
  | seed entry =>
      obtain ⟨fp, hfp, hrecorded, rfl⟩ := h
      obtain ⟨secret, hrow, hrun⟩ := storeSeedMaterial_run hfp encryptor
      obtain ⟨encrypted, hencrypted⟩ := hencrypts _ hrow
      cases hcheck : checkFingerprint lib entry.fingerprint fp with
      | ok _ => exact absurd (checkFingerprint_ok.mp hcheck) hrecorded
      | error e =>
          have hfails : Run (ofExcept id (checkFingerprint lib entry.fingerprint fp) :
              SinkProg Unit) [] (.fail e) := by
            rw [hcheck]
            exact .refl _
          exact ⟨_, e, encrypted, (hrun encrypted).seq hfails,
            .cons rfl (.cons ⟨hencrypted, rfl⟩ (.cons rfl (.nil _)))⟩

theorem keystore_insertNew_iff {id : SecretId} {encrypted : List UInt8} :
    s.keystore.insertNew (id, encrypted) = s.keystore ↔ id ∈ s.keystore.map (·.1) := by
  constructor
  · intro heq
    have hmem : id ∈ (s.keystore.insertNew (id, encrypted)).map (·.1) := Table.key_mem_insertNew
    rwa [heq] at hmem
  · intro hmem
    exact Table.insertNew_of_mem hmem

end

/-- Failures of an operation leave the keystore as it was just when a seed that is not the recorded
one is in there already; and what is stored with success is what was recorded. -/
theorem store_unchanged_iff (lib : MigrateLib) (importer : Importer) (encryptor : Encryptor)
    (entry : SecretEntry) (s : MigrateStores) (hencrypts : entry.Encryptable lib) :
    ((∀ tr t e, Run (entry.store lib encryptor) tr (.fail e) →
        Path (migrateStep lib importer) s tr t → t.keystore = s.keystore) ↔
      ∀ id, entry.Unmatched lib id → id ∈ s.keystore.map (·.1)) ∧
    ∀ tr t, Run (entry.store lib encryptor) tr (.ret ()) →
      Path (migrateStep lib importer) s tr t → entry.Matches lib := by
  constructor
  · constructor
    · intro hunchanged id hunmatched
      obtain ⟨tr, e, encrypted, hrun, hpath⟩ := store_unmatched hunmatched hencrypts
      exact keystore_insertNew_iff.mp (hunchanged tr _ e hrun hpath)
    · intro hthere tr t e hrun hpath
      rcases (store_ends entry).sound hrun hpath with rfl | ⟨id, encrypted, hunmatched, rfl⟩
      · rfl
      · exact keystore_insertNew_iff.mpr (hthere id hunmatched)
  · intro tr t hrun hpath
    exact (store_ends entry).sound hrun hpath

namespace MigrateSample

/-- The fingerprint of another seed. -/
def otherFingerprint : String :=
  "zip32seedfp1qyqszqgpqyqszqgpqyqszqgpqyqszqgpqyqszqgpqyqszqgpqyqsg4ya9p"

def twoSeedsLib : MigrateLib :=
  { lib with
    bech32mDecode s := if s = otherFingerprint then some ("zip32seedfp", List.replicate 32 1)
      else lib.bech32mDecode s }

/-- The mnemonic, with this fingerprint on record. -/
def recordedAs (fingerprint : String) : SecretEntry :=
  .seed ⟨fingerprint, .bip39Mnemonic ⟨phrase, some .english⟩⟩

theorem recordedAs_encryptable (fingerprint : String) :
    (recordedAs fingerprint).Encryptable twoSeedsLib := by
  have hrow : seedRow twoSeedsLib (.bip39Mnemonic ⟨phrase, some .english⟩) =
      some (.mnemonic MigrateSample.fingerprint, .phrase phrase) := by decide +kernel
  rintro ⟨id, secret⟩ hmem
  rw [hrow, Option.mem_some_iff] at hmem
  obtain ⟨-, rfl⟩ := Prod.mk.inj hmem
  have hdecrypts : twoSeedsLib.decrypt [0] = some (.phrase phrase) := by decide +kernel
  exact ⟨[0], hdecrypts⟩

def recipients : Encryptor := ⟨["age1"]⟩

theorem twoSeeds_step : migrateStep twoSeedsLib importer = migrateStep lib importer := rfl

end MigrateSample

open MigrateSample in
theorem store_unchanged_iff_recorded :
    (recordedAs encodedFingerprint).Encryptable twoSeedsLib ∧ ∀ tr t e,
      Run ((recordedAs encodedFingerprint).store twoSeedsLib recipients) tr (.fail e) →
      Path (migrateStep twoSeedsLib importer) stores tr t → t.keystore = stores.keystore := by
  refine ⟨recordedAs_encryptable _, ?_⟩
  refine (store_unchanged_iff twoSeedsLib importer recipients (recordedAs encodedFingerprint) stores
    (recordedAs_encryptable _)).1.mpr ?_
  rintro id ⟨fp, hfp, hrecorded, -⟩
  refine absurd ?_ hrecorded
  have hmaterial : SeedMaterial.fingerprint twoSeedsLib (.bip39Mnemonic ⟨phrase, some .english⟩) =
      decodeSeedFingerprint twoSeedsLib encodedFingerprint := by decide +kernel
  rw [← hmaterial]
  exact hfp

open MigrateSample in
/-- The seed does not have the recorded fingerprint, and is in the keystore when that is found. -/
theorem unmatched_seed_stored : ∃ tr t,
    Run ((recordedAs otherFingerprint).store twoSeedsLib recipients) tr
      (.fail (.seedFingerprintMismatch otherFingerprint)) ∧
    Path (migrateStep twoSeedsLib importer) stores tr t ∧
    t.keystore = [(.mnemonic fingerprint, [0])] ∧ stores.keystore = [] := by
  have hfails : (exec (answer false false) 10 stores
      ((recordedAs otherFingerprint).store twoSeedsLib recipients)).2.2.failed? =
      some (.seedFingerprintMismatch otherFingerprint) := by decide +kernel
  have hkeystore : (exec (answer false false) 10 stores
      ((recordedAs otherFingerprint).store twoSeedsLib recipients)).2.1.keystore =
      [(.mnemonic fingerprint, [0])] := by decide +kernel
  refine ⟨_, _, exec_fail hfails, ?_, hkeystore, rfl⟩
  rw [twoSeeds_step]
  exact exec_path id (answer_step false false) 10 stores _

end Zallet
