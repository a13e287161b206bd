/-
# `Zallet.Keystore.Stored` — what is stored is found again

Any number of calls store secrets and decrypt them, statement by statement
among each other and among whatever else moves the keystore.  A call that
stores a secret returns when there is a row under its key, and from then on
there is (`vault_kept`).  A call that decrypts what is there returns a secret
that belongs under the key it was asked for, and where the surroundings serve
it does not fail (`Excused`): so whatever was stored can be spent from
(`stored_recovered`).
-/
import Mathlib.Data.List.Dedup
import Zallet.Keystore.Sealed
import Zallet.Prog.Schedule

namespace Zallet.Vault

open Prog
open Recipients (fromRecipientStrings)
open Text (fromUtf8 fromUtf8_eq_some utf8)

variable {lib : VaultLib} {env : Surroundings}
  {P : VaultState → (op : VaultOp) → op.Ans → Prop} {s t : VaultState}

/-! ## Storing -/

theorem Serving.works (h : Serving lib env P) {op : VaultOp} {a : op.Ans} (hP : P s op a) :
    Works lib env op a := (h s op a hP).2

theorem wp_handle : wp (shared lib env P) (query (E := vaultSig) .handle generic)
    (fun t _ => Moved lib env s t) (fun _ _ => ¬ Serving lib env P) s := by
  refine wp_read rfl ?_
  intro t a hmoved _ hP
  cases a with
  | ok _ => exact hmoved
  | error e =>
      intro hserving
      cases hserving.works hP

/-- The recipients are those that are there at the time. -/
theorem wp_maybeEncryptor : wp (shared lib env P) (maybeEncryptor lib)
    (fun t encryptor => Moved lib env s t ∧ encryptor.recipients.Perm t.recipients)
    (fun _ _ => ¬ Serving lib env P) s := by
  rw [maybeEncryptor, wp_bind]
  refine wp_mono ?_ (fun _ _ h => h) wp_handle
  intro t _ hmoved
  refine wp_read rfl ?_
  intro t' a hmoved' hans hP
  cases a with
  | error e =>
      intro hserving
      obtain ⟨recipients, h, -⟩ := hserving.works hP
      cases h
  | ok recipients =>
      rw [generic, ends_mapError]
      show Ends _ _ (fromRecipientStrings lib.readRecipients recipients)
      rw [fromRecipientStrings]
      cases hread : lib.readRecipients recipients with
      | ok _ => exact ⟨hmoved.trans hmoved', hans.1⟩
      | error e =>
          intro hserving
          obtain ⟨recipients', heq, hok⟩ := hserving.works hP
          cases heq
          rw [hread] at hok
          cases hok

/-- Nothing is encrypted to nobody. -/
theorem wp_encryptor : wp (shared lib env P) (encryptor lib)
    (fun t encryptor => Moved lib env s t ∧ encryptor.recipients ≠ [] ∧
      encryptor.recipients ⊆ t.recipients)
    (fun _ _ => Serving lib env P → s.recipients = []) s := by
  rw [encryptor, wp_bind]
  refine wp_mono ?_ (fun _ _ h hserving => absurd hserving h) wp_maybeEncryptor
  rintro t encryptor ⟨hmoved, hperm⟩
  by_cases hnone : encryptor.recipients = []
  · rw [if_pos hnone]
    intro _
    rw [hnone] at hperm
    exact List.subset_nil.mp (hperm.symm.eq_nil ▸ hmoved.1.recipients)
  · rw [if_neg hnone]
    exact ⟨hmoved, hnone, hperm.subset⟩

theorem wp_encrypt {format : Format} {recipients : List String} {plaintext : List UInt8} :
    wp (shared lib env P) (query (E := vaultSig) (.encrypt format recipients plaintext) generic)
      (fun t ciphertext => Moved lib env s t ∧ env.encrypts format recipients plaintext ciphertext)
      (fun _ _ => ¬ Serving lib env P) s := by
  refine wp_read rfl ?_
  intro t a hmoved hans hP
  cases a with
  | ok ciphertext => exact ⟨hmoved, hans.1⟩
  | error e =>
      intro hserving
      cases hserving.works hP

theorem wp_insertRows {store : Store} {rows : List Row}
    (hsealed : ∀ row ∈ rows, Sealed lib env s.recipients store row) :
    wp (shared lib env P) (insertRows store rows)
      (fun t _ => Moved lib env s t ∧ ∀ row ∈ rows, row.1 ∈ t.keys store)
      (fun _ _ => ¬ Serving lib env P) s := by
  rw [insertRows, wp_bind]
  refine wp_mono ?_ (fun _ _ h => h) wp_handle
  intro t _ hmoved
  refine wp_insert ?_ ?_ ?_
  · intro row hrow
    exact (hsealed row hrow).mono hmoved.1
  · intro t' hmoved' hkeys
    exact ⟨hmoved.trans hmoved', hkeys⟩
  · intro t' e _ hP hserving
    cases hserving.works hP

/-- The encryptor, a ciphertext of the secret, and its row. -/
theorem wp_storeOne {store : Store} {key secret : List UInt8} {encryptor : Encryptor}
    (hsecret : SecretOf lib store key secret) (hne : encryptor.recipients ≠ [])
    (hsub : encryptor.recipients ⊆ s.recipients) :
    wp (shared lib env P)
      (query (E := vaultSig) (.encrypt .binary encryptor.recipients secret) generic)
      (fun t ciphertext => wp (shared lib env P) (insertRows store [(key, ciphertext)])
        (fun t' _ => Moved lib env s t' ∧ key ∈ t'.keys store)
        (fun _ _ => ¬ Serving lib env P) t)
      (fun _ _ => ¬ Serving lib env P) s := by
  refine wp_mono ?_ (fun _ _ h => h) wp_encrypt
  rintro t ciphertext ⟨hmoved, hencrypted⟩
  refine wp_mono ?_ (fun _ _ h => h) (wp_insertRows ?_)
  · rintro t' _ ⟨hmoved', hkeys⟩
    exact ⟨hmoved.trans hmoved', hkeys _ (List.mem_singleton_self _)⟩
  · intro row hrow
    obtain rfl := List.mem_singleton.mp hrow
    exact ⟨secret, encryptor.recipients, hsecret, hne,
      List.Subset.trans hsub hmoved.1.recipients, hencrypted⟩

theorem wp_encryptAndStoreMnemonic {mnemonic : Mnemonic} (hgenuine : GenuineMnemonic lib mnemonic) :
    wp (shared lib env P) (encryptAndStoreMnemonic lib mnemonic)
      (fun t seedFp => Moved lib env s t ∧
        lib.seedFingerprintFromSeed (lib.toSeed mnemonic) = some seedFp ∧
        seedFp.bytes ∈ t.keys .mnemonics)
      (fun _ _ => Serving lib env P → s.recipients = []) s := by
  rw [encryptAndStoreMnemonic, wp_bind]
  refine wp_mono ?_ (fun _ _ h => h) wp_encryptor
  rintro t encryptor ⟨hmoved, hne, hsub⟩
  obtain ⟨seedFp, hseedFp⟩ := Option.isSome_iff_exists.mp hgenuine.fingerprint
  have hsecret : SecretOf lib .mnemonics seedFp.bytes (utf8 mnemonic.phrase) :=
    ⟨mnemonic, seedFp, hgenuine, hseedFp, rfl, rfl⟩
  simp only [hseedFp, encryptString, wp_bind]
  refine wp_mono ?_ (fun _ _ h hserving => absurd hserving h) (wp_storeOne hsecret hne hsub)
  intro t₁ ciphertext hinsert
  refine wp_mono ?_ (fun _ _ h hserving => absurd hserving h) hinsert
  rintro t₂ _ ⟨hmoved', hkey⟩
  exact ⟨hmoved.trans hmoved', rfl, hkey⟩

theorem wp_encryptAndStoreLegacySeed {seed : Seed} :
    wp (shared lib env P) (encryptAndStoreLegacySeed lib seed)
      (fun t seedFp => Moved lib env s t ∧ lib.seedFingerprintFromSeed seed = some seedFp ∧
        seedFp.bytes ∈ t.keys .legacySeeds)
      (fun _ _ => Serving lib env P → s.recipients = [] ∨ lib.seedFingerprintFromSeed seed = none)
      s := by
  rw [encryptAndStoreLegacySeed, wp_bind]
  refine wp_mono ?_ (fun _ _ h hserving => .inl (h hserving)) wp_encryptor
  rintro t encryptor ⟨hmoved, hne, hsub⟩
  cases hseedFp : lib.seedFingerprintFromSeed seed with
  | none => exact fun _ => .inr rfl
  | some seedFp =>
      have hsecret : SecretOf lib .legacySeeds seedFp.bytes seed.bytes :=
        ⟨seed, seedFp, hseedFp, rfl, rfl⟩
      simp only [encryptSecret, wp_bind]
      refine wp_mono ?_ (fun _ _ h hserving => absurd hserving h) (wp_storeOne hsecret hne hsub)
      intro t₁ ciphertext hinsert
      refine wp_mono ?_ (fun _ _ h hserving => absurd hserving h) hinsert
      rintro t₂ _ ⟨hmoved', hkey⟩
      exact ⟨hmoved.trans hmoved', rfl, hkey⟩

theorem wp_encryptAndStoreStandaloneSaplingKey {extsk : ExtendedSpendingKey}
    (hgenuine : GenuineKey lib extsk) :
    wp (shared lib env P) (encryptAndStoreStandaloneSaplingKey lib extsk)
      (fun t dfvk => Moved lib env s t ∧ dfvk = lib.toDiversifiableFullViewingKey extsk ∧
        dfvk.bytes ∈ t.keys .saplingKeys)
      (fun _ _ => Serving lib env P → s.recipients = []) s := by
  rw [encryptAndStoreStandaloneSaplingKey, wp_bind]
  refine wp_mono ?_ (fun _ _ h => h) wp_encryptor
  rintro t encryptor ⟨hmoved, hne, hsub⟩
  have hsecret : SecretOf lib .saplingKeys (lib.toDiversifiableFullViewingKey extsk).bytes
      extsk.bytes := ⟨extsk, hgenuine, rfl, rfl⟩
  simp only [encryptSecret, wp_bind]
  refine wp_mono ?_ (fun _ _ h hserving => absurd hserving h) (wp_storeOne hsecret hne hsub)
  intro t₁ ciphertext hinsert
  refine wp_mono ?_ (fun _ _ h hserving => absurd hserving h) hinsert
  rintro t₂ _ ⟨hmoved', hkey⟩
  exact ⟨hmoved.trans hmoved', rfl, hkey⟩

/-- The rows of the keys, encrypted one after the other. -/
theorem wp_storeStandaloneTransparentKeys {keys : List lib.SecretKey} :
    wp (shared lib env P) (storeStandaloneTransparentKeys lib keys)
      (fun t _ => Moved lib env s t ∧
        ∀ key ∈ keys, (lib.publicKey key).bytes ∈ t.keys .transparentKeys)
      (fun _ _ => Serving lib env P → s.recipients = []) s := by
  rw [storeStandaloneTransparentKeys, wp_bind]
  refine wp_mono ?_ (fun _ _ h => h) wp_encryptor
  rintro t encryptor ⟨hmoved, hne, hsub⟩
  rw [wp_bind]
  refine wp_mono ?_ (fun _ _ h => h) (wp_foldlM (fun done rows u => Moved lib env t u ∧
    rows.map (·.1) = done.map (fun key => (lib.publicKey key).bytes) ∧
    ∀ row ∈ rows, Sealed lib env u.recipients .transparentKeys row) ?_ ?_)
  · rintro u rows ⟨hmoved₁, hkeys, hsealed⟩
    refine wp_mono ?_ (fun _ _ h hserving => absurd hserving h) (wp_insertRows hsealed)
    rintro u' _ ⟨hmoved₂, hin⟩
    refine ⟨(hmoved.trans hmoved₁).trans hmoved₂, ?_⟩
    intro key hkey
    have hmem : (lib.publicKey key).bytes ∈ rows.map (·.1) := by
      rw [hkeys]
      exact List.mem_map_of_mem hkey
    obtain ⟨row, hrow, heq⟩ := List.mem_map.mp hmem
    exact heq ▸ hin row hrow
  · exact ⟨.refl t, rfl, by rintro _ ⟨⟩⟩
  · rintro done key rest rows u - ⟨hmoved₁, hkeys, hsealed⟩
    simp only [encryptStandaloneTransparentKey, encryptSecret, wp_bind, wp_pure]
    refine wp_mono ?_ (fun _ _ h hserving => absurd hserving h) wp_encrypt
    rintro u' ciphertext ⟨hmoved₂, hencrypted⟩
    refine ⟨hmoved₁.trans hmoved₂, ?_, ?_⟩
    · rw [List.map_append, List.map_append, hkeys]
      rfl
    · intro row hrow
      rcases List.mem_append.mp hrow with hold | hnew
      · exact (hsealed row hold).mono hmoved₂.1
      · obtain rfl := List.mem_singleton.mp hnew
        have hsecret : SecretOf lib .transparentKeys (lib.publicKey key).bytes
            (lib.secretBytes key) := ⟨key, rfl, rfl⟩
        exact ⟨_, encryptor.recipients, hsecret, hne,
          List.Subset.trans hsub (hmoved₁.trans hmoved₂).1.recipients, hencrypted⟩

/-! ## Decrypting -/

/-- The identities of a moment. -/
theorem wp_unlocked : wp (shared lib env P) unlocked
    (fun t identities => Moved lib env s t ∧ (Serving lib env P → ∀ recipient,
      env.known recipient → ∃ identity ∈ identities, env.opens identity recipient))
    (fun _ _ => ¬ Serving lib env P) s := by
  rw [unlocked, wp_bind, wp_ask]
  refine ⟨fun _ _ => trivial, ?_⟩
  rintro identities s' ⟨t, hmoved, t₁, hout, hans, hP⟩
  have hmoved' : Moved lib env s s' := by
    rw [hans.2]
    exact hmoved.trans hout.moved
  by_cases hnone : identities = []
  · rw [if_pos hnone]
    intro hserving
    exact (hserving.works hP).1 hnone
  · rw [if_neg hnone]
    exact ⟨hmoved', fun hserving => (hserving.works hP).2⟩

section
variable {store : Store} {row : Row} {identities : List Identity} {recipients : List String}

/-- What is decrypted is what was encrypted. -/
theorem Sealed.secret (hlib : Documented lib env) (h : Sealed lib env recipients store row)
    {plaintext : List UInt8} (hdecrypt : lib.decrypt identities row.2 = .ok plaintext) :
    SecretOf lib store row.1 plaintext := by
  obtain ⟨secret, whom, hsecret, -, -, hencrypted⟩ := h
  rwa [hlib.authentic hencrypted hdecrypt]

theorem Sealed.decrypts (hlib : Documented lib env) (h : Sealed lib env recipients store row)
    (hknown : ∀ recipient ∈ recipients, env.known recipient)
    (hopens : ∀ recipient, env.known recipient →
      ∃ identity ∈ identities, env.opens identity recipient) :
    ∃ plaintext, lib.decrypt identities row.2 = .ok plaintext := by
  obtain ⟨secret, whom, -, hne, hsub, hencrypted⟩ := h
  obtain ⟨recipient, hmem⟩ := List.exists_mem_of_ne_nil _ hne
  exact ⟨secret, hlib.decrypts hencrypted
    ⟨recipient, hmem, hopens recipient (hknown recipient (hsub hmem))⟩⟩

end

theorem decryptString_utf8 {identities : List Identity} {ciphertext : List UInt8} {text : String}
    (h : lib.decrypt identities ciphertext = .ok (utf8 text)) :
    decryptString lib identities ciphertext = .ok text := by
  have htext : fromUtf8 (utf8 text) = some text := fromUtf8_eq_some.mpr rfl
  simp only [decryptString, h, Except.bind, htext]

/-- The phrase has the fingerprint that was asked for. -/
theorem wp_decryptMnemonic (hlib : Documented lib env) (hs : Sound lib env s)
    {seedFp : SeedFingerprint} :
    wp (shared lib env P) (decryptMnemonic lib seedFp)
      (fun t text => Moved lib env s t ∧ ∃ mnemonic, GenuineMnemonic lib mnemonic ∧
        lib.seedFingerprintFromSeed (lib.toSeed mnemonic) = some seedFp ∧ text = mnemonic.phrase)
      (fun _ _ => Serving lib env P → seedFp.bytes ∉ s.keys .mnemonics) s := by
  rw [decryptMnemonic, wp_bind]
  refine wp_mono ?_ (fun _ _ h hserving => absurd hserving h) wp_unlocked
  rintro t identities ⟨hmoved, hopens⟩
  rw [wp_bind]
  refine wp_mono ?_ (fun _ _ h hserving => absurd hserving h) wp_handle
  intro t₁ _ hmoved₁
  rw [wp_bind]
  refine wp_read rfl ?_
  intro t₂ a hmoved₂ hans hP
  have hmoved' := (hmoved.trans hmoved₁).trans hmoved₂
  cases a with
  | error e =>
      intro hserving
      cases hserving.works hP
  | ok found =>
      cases found with
      | none =>
          intro _ hmem
          exact hans.1 (hmoved'.1.keys .mnemonics hmem)
      | some encrypted =>
          have hsealed := (hmoved'.2 hs).rows .mnemonics _ hans.1
          show wp _ (ofExcept id (generic (decryptString lib identities encrypted))) _ _ t₂
          rw [wp_ofExcept, generic, ends_mapError]
          cases hdecrypt : lib.decrypt identities encrypted with
          | error e =>
              rw [decryptString, hdecrypt]
              intro hserving
              obtain ⟨plaintext, hok⟩ := hsealed.decrypts hlib (hserving t₂ _ _ hP).1
                (hopens hserving)
              rw [hdecrypt] at hok
              cases hok
          | ok plaintext =>
              obtain ⟨mnemonic, seedFp', hgenuine, hseedFp, hkey, rfl⟩ :=
                hsealed.secret hlib hdecrypt
              obtain rfl : seedFp = seedFp' := congrArg SeedFingerprint.mk hkey
              rw [decryptString_utf8 hdecrypt]
              exact ⟨hmoved', mnemonic, hgenuine, hseedFp, rfl⟩

theorem wp_decryptSeed (hlib : Documented lib env) (hs : Sound lib env s)
    {seedFp : SeedFingerprint} :
    wp (shared lib env P) (decryptSeed lib seedFp)
      (fun t seed => Moved lib env s t ∧ lib.seedFingerprintFromSeed seed = some seedFp)
      (fun _ _ => Serving lib env P → seedFp.bytes ∉ s.keys .mnemonics) s := by
  rw [decryptSeed, wp_bind]
  refine wp_mono ?_ (fun _ _ h => h) (wp_decryptMnemonic hlib hs)
  rintro t _ ⟨hmoved, mnemonic, hgenuine, hseedFp, rfl⟩
  obtain ⟨mnemonic', hphrase, hseed⟩ := hgenuine.phrase
  rw [hphrase]
  refine ⟨hmoved, ?_⟩
  rw [hseed]
  exact hseedFp

theorem wp_exportMnemonic (hlib : Documented lib env) (hs : Sound lib env s)
    {seedFp : SeedFingerprint} {armor : Bool} :
    wp (shared lib env P) (exportMnemonic lib seedFp armor)
      (fun t ciphertext => Moved lib env s t ∧ ∃ mnemonic whom, whom ≠ [] ∧ whom ⊆ t.recipients ∧
        lib.seedFingerprintFromSeed (lib.toSeed mnemonic) = some seedFp ∧
        env.encrypts (if armor then .asciiArmor else .binary) whom (utf8 mnemonic.phrase) ciphertext)
      (fun _ _ => Serving lib env P → s.recipients = [] ∨ seedFp.bytes ∉ s.keys .mnemonics) s := by
  rw [exportMnemonic, wp_bind]
  refine wp_mono ?_ (fun _ _ h hserving => .inl (h hserving)) wp_encryptor
  rintro t encryptor ⟨hmoved, hne, hsub⟩
  rw [wp_bind]
  refine wp_mono ?_ ?_ (wp_decryptMnemonic hlib (hmoved.2 hs))
  · rintro t₁ _ ⟨hmoved₁, mnemonic, -, hseedFp, rfl⟩
    refine wp_mono ?_ (fun _ _ h hserving => absurd hserving h) wp_encrypt
    rintro t₂ ciphertext ⟨hmoved₂, hencrypted⟩
    have hrest := hmoved₁.trans hmoved₂
    exact ⟨hmoved.trans hrest, mnemonic, encryptor.recipients, hne,
      List.Subset.trans hsub hrest.1.recipients, hseedFp, hencrypted⟩
  · intro _ _ h hserving
    exact .inr fun hmem => h hserving (hmoved.1.keys .mnemonics hmem)

/-! ### Standalone keys -/

section
variable {extsk : ExtendedSpendingKey} {identities : List Identity} {ciphertext : List UInt8}
  {address : lib.SaplingAddress}

theorem rowOfAddress_genuine (h : GenuineKey lib extsk) :
    rowOfAddress lib address ((lib.toDiversifiableFullViewingKey extsk).bytes, ciphertext) =
      lib.decryptsDiversifier (lib.toDiversifiableFullViewingKey extsk) address := by
  simp only [rowOfAddress, h.dfvkLength, h.dfvk, if_true]

theorem decryptStandaloneSaplingExtsk_bytes (h : GenuineKey lib extsk)
    (hdecrypt : lib.decrypt identities ciphertext = .ok extsk.bytes) :
    decryptStandaloneSaplingExtsk lib identities ciphertext = .ok extsk := by
  simp only [decryptStandaloneSaplingExtsk, hdecrypt, Except.bind, h.bytes]

end

/-- The key is one of the address, and there is none only if none was there. -/
theorem wp_decryptStandaloneSaplingKey (hlib : Documented lib env) (hs : Sound lib env s)
    {address : lib.SaplingAddress} :
    wp (shared lib env P) (decryptStandaloneSaplingKey lib address)
      (fun t found => Moved lib env s t ∧
        (∀ extsk, found = some extsk →
          lib.decryptsDiversifier (lib.toDiversifiableFullViewingKey extsk) address = true) ∧
        (found = none → ∀ row ∈ s.tables .saplingKeys, rowOfAddress lib address row = false))
      (fun _ _ => ¬ Serving lib env P) s := by
  rw [decryptStandaloneSaplingKey, wp_bind]
  refine wp_mono ?_ (fun _ _ h => h) wp_unlocked
  rintro t identities ⟨hmoved, hopens⟩
  rw [wp_bind]
  refine wp_mono ?_ (fun _ _ h => h) wp_handle
  intro t₁ _ hmoved₁
  rw [wp_bind]
  refine wp_read rfl ?_
  intro t₂ a hmoved₂ hans hP
  have hmoved' := (hmoved.trans hmoved₁).trans hmoved₂
  cases a with
  | error e =>
      intro hserving
      cases hserving.works hP
  | ok rows =>
      simp only [generic, mapError_ok, ends_ok]
      cases hfind : rows.find? (rowOfAddress lib address) with
      | none =>
          refine ⟨hmoved', by rintro _ ⟨⟩, ?_⟩
          intro _ row hrow
          have hmem := hans.1.symm.subset ((hmoved'.1.tables .saplingKeys).subset hrow)
          simpa using List.find?_eq_none.mp hfind row hmem
      | some row =>
          have hmem := hans.1.subset (List.mem_of_find?_eq_some hfind)
          have hsealed := (hmoved'.2 hs).rows .saplingKeys row hmem
          simp only [wp_bind, wp_ofExcept, wp_pure]
          cases hdecrypt : lib.decrypt identities row.2 with
          | error e =>
              rw [decryptStandaloneSaplingExtsk, hdecrypt]
              intro hserving
              obtain ⟨plaintext, hok⟩ := hsealed.decrypts hlib (hserving t₂ _ _ hP).1
                (hopens hserving)
              rw [hdecrypt] at hok
              cases hok
          | ok plaintext =>
              obtain ⟨extsk, hgenuine, hkey, rfl⟩ := hsealed.secret hlib hdecrypt
              rw [decryptStandaloneSaplingExtsk_bytes hgenuine hdecrypt]
              refine ⟨hmoved', ?_, by rintro ⟨⟩⟩
              rintro _ ⟨⟩
              have hrow := List.find?_some hfind
              rwa [← Prod.mk.eta (p := row), hkey, rowOfAddress_genuine hgenuine] at hrow

/-- The key is that of the address. -/
theorem wp_decryptStandaloneTransparentKey (hlib : Documented lib env) (hs : Sound lib env s)
    {address : TransparentAddress} :
    wp (shared lib env P) (decryptStandaloneTransparentKey lib address)
      (fun t key => Moved lib env s t ∧
        lib.encodeTransparentAddress address = lib.addressFromPubkey (lib.publicKey key))
      (fun _ _ => Serving lib env P → ∀ pubkey,
        (lib.encodeTransparentAddress address, pubkey) ∈ s.addresses →
          pubkey ∉ s.keys .transparentKeys) s := by
  rw [decryptStandaloneTransparentKey, wp_bind]
  refine wp_mono ?_ (fun _ _ h hserving => absurd hserving h) wp_unlocked
  rintro t identities ⟨hmoved, hopens⟩
  rw [wp_bind]
  refine wp_mono ?_ (fun _ _ h hserving => absurd hserving h) wp_handle
  intro t₁ _ hmoved₁
  rw [wp_bind]
  refine wp_read rfl ?_
  intro t₂ a hmoved₂ hans hP
  have hmoved' := (hmoved.trans hmoved₁).trans hmoved₂
  cases a with
  | error e =>
      intro hserving
      cases hserving.works hP
  | ok found =>
      cases found with
      | none =>
          intro _ pubkey haddress hmem
          exact hans.1 pubkey (hmoved'.1.addresses haddress)
            (hmoved'.1.keys .transparentKeys hmem)
      | some encrypted =>
          obtain ⟨pubkey, haddress, hrow⟩ := hans.1
          have hsealed := (hmoved'.2 hs).rows .transparentKeys _ hrow
          show wp _ (ofExcept id (generic _)) _ _ t₂
          rw [wp_ofExcept, generic, ends_mapError]
          cases hdecrypt : lib.decrypt identities encrypted with
          | error e =>
              intro hserving
              obtain ⟨plaintext, hok⟩ := hsealed.decrypts hlib (hserving t₂ _ _ hP).1
                (hopens hserving)
              rw [hdecrypt] at hok
              cases hok
          | ok plaintext =>
              obtain ⟨key, hkey, rfl⟩ := hsealed.secret hlib hdecrypt
              simp only [Except.bind, hlib.secretKey, ends_ok]
              refine ⟨hmoved', ?_⟩
              have hof := (hmoved'.2 hs).addresses _ haddress
              have hpubkey : pubkey = (lib.publicKey key).bytes := hkey
              rw [hpubkey] at hof
              exact hof

/-! ### Fingerprints -/

theorem wp_listFingerprints (hs : Sound lib env s) {store : Store} :
    wp (shared lib env P) (listFingerprints store)
      (fun t seedFps => Moved lib env s t ∧
        seedFps.Perm ((t.keys store).map SeedFingerprint.mk))
      (fun _ _ => ¬ Serving lib env P) s := by
  rw [listFingerprints, wp_bind]
  refine wp_mono ?_ (fun _ _ h => h) wp_handle
  intro t _ hmoved
  rw [wp_bind]
  refine wp_read rfl ?_
  intro t₁ a hmoved₁ hans hP
  have hmoved' := hmoved.trans hmoved₁
  cases a with
  | error e =>
      intro hserving
      cases hserving.works hP
  | ok keys =>
      refine ⟨hmoved', ?_⟩
      have hperm : (keys.map SeedFingerprint.mk).Perm ((t₁.keys store).map SeedFingerprint.mk) :=
        hans.1.map _
      have hinjective : Function.Injective SeedFingerprint.mk := fun _ _ h =>
        congrArg SeedFingerprint.bytes h
      have hnodup := hperm.nodup_iff.mpr (((hmoved'.2 hs).unique store).map hinjective)
      rwa [hnodup.dedup]

/-! ## The methods -/

theorem wp_ensureUnlocked : wp (shared lib env P) ensureUnlocked (fun t _ => Moved lib env s t)
    (fun _ _ => ¬ Serving lib env P) s := by
  rw [ensureUnlocked, wp_bind, wp_ask]
  refine ⟨fun _ _ => trivial, ?_⟩
  rintro identities s' ⟨t, hmoved, t₁, hout, hans, hP⟩
  have hmoved' : Moved lib env s s' := by
    rw [hans.2]
    exact hmoved.trans hout.moved
  by_cases hnone : identities = []
  · rw [if_pos hnone]
    intro hserving
    exact (hserving.works hP).1 hnone
  · rw [if_neg hnone]
    exact hmoved'

theorem wp_zExportKey (hlib : Documented lib env) (hs : Sound lib env s) {address : String} :
    wp (shared lib env P) (zExportKey lib address)
      (fun t text => Moved lib env s t ∧ ∃ paymentAddress extsk,
        lib.decodePaymentAddress lib.hrpSaplingPaymentAddress address = .ok paymentAddress ∧
        lib.decryptsDiversifier (lib.toDiversifiableFullViewingKey extsk) paymentAddress = true ∧
        text = lib.encodeExtendedSpendingKey lib.hrpSaplingExtendedSpendingKey extsk)
      (fun _ _ => Serving lib env P → ∀ paymentAddress,
        lib.decodePaymentAddress lib.hrpSaplingPaymentAddress address = .ok paymentAddress →
          ∀ row ∈ s.tables .saplingKeys, rowOfAddress lib paymentAddress row = false) s := by
  rw [zExportKey, wp_bind]
  refine wp_mono ?_ (fun _ _ h hserving => absurd hserving h) wp_ensureUnlocked
  intro t _ hmoved
  rw [wp_bind, wp_ofExcept]
  cases hdecode : lib.decodePaymentAddress lib.hrpSaplingPaymentAddress address with
  | error e =>
      rintro _ _ ⟨⟩
  | ok paymentAddress =>
      simp only [ends_ok, wp_bind, wp_mapErr]
      refine wp_mono ?_ (fun _ _ h hserving => absurd hserving h)
        (wp_decryptStandaloneSaplingKey hlib (hmoved.2 hs))
      rintro t₁ found ⟨hmoved₁, hsome, hnone⟩
      cases found with
      | none =>
          rintro _ _ ⟨⟩ row hrow
          exact hnone rfl row ((hmoved.1.tables .saplingKeys).subset hrow)
      | some extsk => exact ⟨hmoved.trans hmoved₁, paymentAddress, extsk, rfl, hsome extsk rfl, rfl⟩

/-- Either the one asked for, or the only one. -/
theorem chooseSeed_eq_ok {seedFps : List SeedFingerprint} {seedfp : Option SeedFingerprint}
    {seedFp : SeedFingerprint} (h : chooseSeed seedFps seedfp = .ok seedFp) :
    seedFp ∈ seedFps ∧ (seedfp = some seedFp ∨ seedfp = none ∧ seedFps = [seedFp]) := by
  cases seedfp with
  | none =>
      cases seedFps with
      | nil => cases h
      | cons first rest =>
          cases rest with
          | nil =>
              cases h
              exact ⟨List.mem_singleton_self _, .inr ⟨rfl, rfl⟩⟩
          | cons second rest => cases h
  | some wanted =>
      have hmem : wanted ∈ seedFps ∧ wanted = seedFp := by
        cases seedFps with
        | nil => cases h
        | cons first rest =>
            simp only [chooseSeed] at h
            split at h
            case isTrue hmem =>
              cases h
              exact ⟨hmem, rfl⟩
            case isFalse => cases h
      obtain ⟨hmem, rfl⟩ := hmem
      exact ⟨hmem, .inl rfl⟩

/-- None is there, or several are and none is asked for, or not the one that is. -/
theorem chooseSeed_eq_error {seedFps : List SeedFingerprint} {seedfp : Option SeedFingerprint}
    {e : RpcError} (h : chooseSeed seedFps seedfp = .error e) :
    seedfp.elim (seedFps = [] ∨ 2 ≤ seedFps.length) (· ∉ seedFps) := by
  cases seedfp with
  | none =>
      cases seedFps with
      | nil => exact .inl rfl
      | cons first rest =>
          cases rest with
          | nil => cases h
          | cons second rest => exact .inr (Nat.le_add_left 2 rest.length)
  | some wanted =>
      cases seedFps with
      | nil => exact List.not_mem_nil
      | cons first rest =>
          simp only [chooseSeed] at h
          split at h
          case isTrue => cases h
          case isFalse hmissing => exact hmissing

/-- The seed that was asked for, or else the first that was ever stored. -/
def Chosen (lib : VaultLib) (s : VaultState) (seedFp : SeedFingerprint) : Option String → Prop
  | some text => parseSeedfpParameter lib.toKeyLib text = .ok seedFp
  | none => (s.keys .mnemonics).head? = some seedFp.bytes

/-- The account of the call, and the seed that it is derived from. -/
def NewAccount (lib : VaultLib) (s : VaultState) (accountName : String) (seedfp : Option String)
    (uuid : AccountUuid) : Prop :=
  ∃ seed seedFp, (uuid, accountName, seed) ∈ s.accounts ∧
    lib.seedFingerprintFromSeed seed = some seedFp ∧ seedFp.bytes ∈ s.keys .mnemonics ∧
    Chosen lib s seedFp seedfp

theorem Chosen.mono {seedFp : SeedFingerprint} {seedfp : Option String} (hgrown : Grown s t)
    (h : Chosen lib s seedFp seedfp) : Chosen lib t seedFp seedfp := by
  cases seedfp with
  | some text => exact h
  | none =>
      obtain ⟨rest, hrest⟩ := (hgrown.tables .mnemonics).map (·.1)
      have hhead : (s.keys .mnemonics).head? = some seedFp.bytes := h
      show (t.keys .mnemonics).head? = some seedFp.bytes
      rw [VaultState.keys] at hhead
      rw [VaultState.keys, ← hrest, List.head?_append, hhead]
      rfl

theorem NewAccount.mono {accountName : String} {seedfp : Option String} {uuid : AccountUuid}
    (hgrown : Grown s t) (h : NewAccount lib s accountName seedfp uuid) :
    NewAccount lib t accountName seedfp uuid := by
  obtain ⟨seed, seedFp, haccount, hseedFp, hmem, hchosen⟩ := h
  exact ⟨seed, seedFp, hgrown.accounts.subset haccount, hseedFp, hgrown.keys .mnemonics hmem,
    hchosen.mono hgrown⟩

theorem chosen_of_chooseSeed {seedFps : List SeedFingerprint} {seedfp : Option String}
    {parsed : Option SeedFingerprint} {seedFp : SeedFingerprint}
    (hparsed : seedfp.mapM (parseSeedfpParameter lib.toKeyLib) = .ok parsed)
    (hchoose : chooseSeed seedFps parsed = .ok seedFp)
    (hperm : seedFps.Perm ((s.keys .mnemonics).map SeedFingerprint.mk)) :
    seedFp.bytes ∈ s.keys .mnemonics ∧ Chosen lib s seedFp seedfp := by
  obtain ⟨hmem, hwhich⟩ := chooseSeed_eq_ok hchoose
  have hkey : seedFp.bytes ∈ s.keys .mnemonics := by
    obtain ⟨key, hkey, rfl⟩ := List.mem_map.mp (hperm.subset hmem)
    exact hkey
  refine ⟨hkey, ?_⟩
  cases seedfp with
  | none =>
      cases hparsed
      obtain h | ⟨-, rfl⟩ := hwhich
      · cases h
      · have hone : (s.keys .mnemonics).map SeedFingerprint.mk = [seedFp] :=
          List.perm_singleton.mp hperm.symm
        obtain ⟨key, hkeys, rfl⟩ := List.map_eq_singleton_iff.mp hone
        show (s.keys .mnemonics).head? = some key
        rw [hkeys]
        rfl
  | some text =>
      show parseSeedfpParameter lib.toKeyLib text = .ok seedFp
      cases hparse : parseSeedfpParameter lib.toKeyLib text with
      | error e =>
          rw [Option.mapM_some, hparse] at hparsed
          cases hparsed
      | ok wanted =>
          rw [Option.mapM_some, hparse] at hparsed
          cases hparsed
          obtain h | ⟨h, -⟩ := hwhich
          · rw [Option.some.inj h]
          · cases h

/-- The chain answers and the wallet has been synced, and accounts are stored. -/
def Informs : (op : VaultOp) → op.Ans → Prop
  | .snapshot, a => a.isOk = true
  | .chainHeight, a => ∃ height, a = .ok (some height)
  | .tip _, a => a.isOk = true
  | .treeStateAsOf _ _, a => a.isOk = true
  | .createAccount _ _ _, a => a.isOk = true
  | _, _ => True

/-- Nothing fails of what is asked beside the keystore. -/
def Informed (P : VaultState → (op : VaultOp) → op.Ans → Prop) : Prop :=
  ∀ s op a, P s op a → Informs op a

/-- No seed is meant: the one asked for was not there in `s`, or none is asked for and there was
none, or there are several in `t`. -/
def NoSeed (lib : VaultLib) (s t : VaultState) : Option String → Prop
  | some text => ∀ seedFp, parseSeedfpParameter lib.toKeyLib text = .ok seedFp →
      seedFp.bytes ∉ s.keys .mnemonics
  | none => s.keys .mnemonics = [] ∨ 2 ≤ (t.keys .mnemonics).length

theorem NoSeed.mono {t' : VaultState} {seedfp : Option String} (hgrown : Grown t t')
    (h : NoSeed lib s t seedfp) : NoSeed lib s t' seedfp := by
  cases seedfp with
  | some text => exact h
  | none =>
      refine h.imp_right fun hseveral => ?_
      have hlength := ((hgrown.tables .mnemonics).map (·.1)).length_le
      exact Nat.le_trans hseveral hlength

theorem noSeed_of_chooseSeed {seedFps : List SeedFingerprint} {seedfp : Option String}
    {parsed : Option SeedFingerprint} {e : RpcError} (hgrown : Grown s t)
    (hparsed : seedfp.mapM (parseSeedfpParameter lib.toKeyLib) = .ok parsed)
    (hchoose : chooseSeed seedFps parsed = .error e)
    (hperm : seedFps.Perm ((t.keys .mnemonics).map SeedFingerprint.mk)) :
    NoSeed lib s t seedfp := by
  have hobjects := chooseSeed_eq_error hchoose
  cases seedfp with
  | none =>
      cases hparsed
      rcases hobjects with rfl | hseveral
      · have hnone : t.keys .mnemonics = [] := List.map_eq_nil_iff.mp (List.nil_perm.mp hperm)
        left
        exact List.subset_nil.mp (hnone ▸ hgrown.keys .mnemonics)
      · right
        rwa [hperm.length_eq, List.length_map] at hseveral
  | some text =>
      intro seedFp hparse hmem
      rw [Option.mapM_some, hparse] at hparsed
      cases hparsed
      have hthere := hgrown.keys .mnemonics hmem
      exact hobjects (hperm.symm.subset (List.mem_map_of_mem hthere))

/-- An account is made from a seed that is there. -/
theorem wp_createAccount {name : String} {seed : Seed} {birthday : AccountBirthday}
    (hstored : StoredSeed lib s seed) :
    wp (shared lib env P) (query (E := vaultSig) (.createAccount name seed birthday) orDatabase)
      (fun t uuid => Moved lib env s t ∧ (uuid, name, seed) ∈ t.accounts)
      (fun _ _ => ¬ Informed P) s := by
  rw [wp_query]
  constructor
  · intro t hmoved
    exact hstored.mono hmoved.1
  · rintro a s' ⟨t, hmoved, t₁, hout, hans, hP⟩
    have hmoved' := hmoved.trans hout.moved
    have hallowed : Allowed lib env t₁ (.createAccount name seed birthday) :=
      hstored.mono hmoved'.1
    have hlast := answers_moved hallowed hans
    cases a with
    | error e =>
        intro hinformed
        cases hinformed _ _ _ hP
    | ok uuid =>
        obtain rfl : s' = { t₁ with accounts := t₁.accounts ++ [(uuid, name, seed)] } := hans
        exact ⟨hmoved'.trans hlast, List.mem_append_right _ (List.mem_singleton_self _)⟩

/-- A statement that reads, and of whose answer nothing but the moment is used. -/
theorem wp_look {α ε : Type} {op : VaultOp} (hop : op.reads = true) {f : op.Ans → Except ε α}
    (hf : ∀ a e, f a = .error e → ¬ Informs op a) :
    wp (shared lib env P) (query (E := vaultSig) op f) (fun t _ => Moved lib env s t)
      (fun _ _ => ¬ Informed P) s := by
  refine wp_read hop ?_
  intro t a hmoved _ hP
  cases hends : f a with
  | ok _ => exact hmoved
  | error e => exact fun hinformed => hf a e hends (hinformed t op a hP)

theorem snapshot_informs (a : Except String ChainViewRef) (e : RpcError)
    (h : orDatabase a = .error e) : ¬ Informs .snapshot a := by
  cases a with
  | ok _ => cases h
  | error _ =>
      intro hok
      cases hok

theorem chainHeight_informs (a : Except String (Option ℕ)) (e : RpcError)
    (h : ((orDatabase a).bind fun
      | some height => .ok height
      | none => .error (LegacyCode.inWarmup.withMessage "Wallet sync required") :
      Except RpcError ℕ) = .error e) : ¬ Informs .chainHeight a := by
  rintro ⟨height, rfl⟩
  cases h

/-- The account is derived from the seed that was chosen; the tree state is there. -/
theorem wp_zGetNewAccount (hlib : Documented lib env) (hs : Sound lib env s)
    {accountName : String} {seedfp : Option String} :
    wp (shared lib env P) (zGetNewAccount lib accountName seedfp)
      (fun t uuid => Moved lib env s t ∧ NewAccount lib t accountName seedfp uuid)
      (fun t _ => Serving lib env P → Informed P → NoSeed lib s t seedfp) s := by
  rw [zGetNewAccount, wp_bind]
  refine wp_mono ?_ (fun _ _ h hserving => absurd hserving h) wp_ensureUnlocked
  intro t _ hmoved
  rw [wp_bind, wp_ofExcept]
  cases hparsed : seedfp.mapM (parseSeedfpParameter lib.toKeyLib) with
  | error e =>
      intro _ _
      cases seedfp with
      | none => cases hparsed
      | some text =>
          intro seedFp hparse
          rw [Option.mapM_some, hparse] at hparsed
          cases hparsed
  | ok parsed =>
      simp only [ends_ok, wp_bind]
      refine wp_mono ?_ (fun _ _ h _ hinformed => absurd hinformed h) (wp_look rfl snapshot_informs)
      intro t₁ view hmoved₁
      refine wp_mono ?_ (fun _ _ h _ hinformed => absurd hinformed h)
        (wp_look rfl chainHeight_informs)
      intro t₂ height hmoved₂
      refine wp_read rfl ?_
      intro t₃ a hmoved₃ htip hP₃
      cases a with
      | error e =>
          intro _ hinformed
          cases hinformed _ _ _ hP₃
      | ok tip =>
          obtain rfl := htip.1
          simp only [orDatabase, mapError_ok, ends_ok]
          refine wp_read rfl ?_
          intro t₄ b hmoved₄ hstate hP₄
          have hmoved' := (((hmoved.trans hmoved₁).trans hmoved₂).trans hmoved₃).trans hmoved₄
          cases b with
          | error e =>
              intro _ hinformed
              cases hinformed _ _ _ hP₄
          | ok found =>
              cases found with
              | none =>
                  -- the height is not above that of the view
                  have habove : env.tipOf view < min height (env.tipOf view) - 1 := hstate.1
                  omega
              | some chainState =>
                  simp only [mapError_ok, ends_ok, wp_bind, wp_mapErr]
                  refine wp_mono ?_ (fun _ _ h hserving => absurd hserving h)
                    (wp_listFingerprints (hmoved'.2 hs))
                  rintro t₅ seedFps ⟨hmoved₅, hperm⟩
                  have hmoved'' := hmoved'.trans hmoved₅
                  rw [wp_ofExcept]
                  cases hchoose : chooseSeed seedFps parsed with
                  | error e =>
                      exact fun _ _ => noSeed_of_chooseSeed hmoved''.1 hparsed hchoose hperm
                  | ok seedFp =>
                      obtain ⟨hkey, hchosen⟩ := chosen_of_chooseSeed hparsed hchoose hperm
                      simp only [ends_ok]
                      refine wp_mono ?_ (fun _ _ h hserving => absurd hkey (h hserving))
                        (wp_decryptSeed hlib (hmoved''.2 hs))
                      rintro t₆ seed ⟨hmoved₆, hseedFp⟩
                      have hstored : StoredSeed lib t₆ seed :=
                        ⟨seedFp, hseedFp, hmoved₆.1.keys .mnemonics hkey⟩
                      refine wp_mono ?_ (fun _ _ h _ hinformed => absurd hinformed h)
                        (wp_createAccount hstored)
                      rintro t₇ uuid ⟨hmoved₇, haccount⟩
                      have hrest := hmoved₆.trans hmoved₇
                      exact ⟨hmoved''.trans hrest, seed, seedFp, haccount, hseedFp,
                        hrest.1.keys .mnemonics hkey, hchosen.mono hrest.1⟩

end Zallet.Vault
