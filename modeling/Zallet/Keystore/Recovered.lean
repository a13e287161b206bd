/-
# `Zallet.Keystore.Recovered` — calls of the keystore, and what they come to

Any number of calls at once, each with what it is to return (`VaultCall`).  A
call that stores returns when the row is there, a call that decrypts returns
what belongs under its key, and rows stay (`vault_kept`).  So a call that wants
what another has stored does not fail where the surroundings serve it
(`stored_recovered`).
-/
import Zallet.Keystore.Stored
import Zallet.Prog.Total

namespace Zallet.Vault

open Prog
open Text (utf8)

/-! ## The calls -/

inductive VaultCall (lib : VaultLib) where
  | encryptAndStoreMnemonic (mnemonic : Mnemonic)
  | encryptAndStoreLegacySeed (legacySeed : Seed)
  | encryptAndStoreStandaloneSaplingKey (saplingKey : ExtendedSpendingKey)
  | storeStandaloneTransparentKeys (keys : List lib.SecretKey)
  | decryptSeed (seedFp : SeedFingerprint)
  | exportMnemonic (seedFp : SeedFingerprint) (armor : Bool)
  | decryptStandaloneSaplingKey (address : lib.SaplingAddress)
  | decryptStandaloneTransparentKey (address : TransparentAddress)
  | listFingerprints (store : Store)
  | zExportKey (address : String)
  | zGetNewAccount (accountName : String) (seedfp : Option String)

section
variable {lib : VaultLib}

abbrev VaultCall.Result : VaultCall lib → Type
  | .encryptAndStoreMnemonic _ | .encryptAndStoreLegacySeed _ => SeedFingerprint
  | .encryptAndStoreStandaloneSaplingKey _ => DiversifiableFullViewingKey
  | .storeStandaloneTransparentKeys _ => Unit
  | .decryptSeed _ => Seed
  | .exportMnemonic _ _ => List UInt8
  | .decryptStandaloneSaplingKey _ => Option ExtendedSpendingKey
  | .decryptStandaloneTransparentKey _ => lib.SecretKey
  | .listFingerprints _ => List SeedFingerprint
  | .zExportKey _ => String
  | .zGetNewAccount _ _ => AccountUuid

/-- A call, with what it returned. -/
abbrev Reply (lib : VaultLib) : Type := Σ call : VaultCall lib, call.Result

abbrev CallProg (lib : VaultLib) := Prog vaultSig (Error ⊕ RpcError) (Reply lib)

/-- What the call is answered with. -/
def answered {ε : Type} (call : VaultCall lib) (f : ε → Error ⊕ RpcError)
    (p : Prog vaultSig ε call.Result) : CallProg lib :=
  (p.mapErr f).bind fun r => .ret ⟨call, r⟩

def VaultCall.run : VaultCall lib → CallProg lib
  | .encryptAndStoreMnemonic mnemonic =>
      answered (.encryptAndStoreMnemonic mnemonic) .inl (Vault.encryptAndStoreMnemonic lib mnemonic)
  | .encryptAndStoreLegacySeed seed =>
      answered (.encryptAndStoreLegacySeed seed) .inl (Vault.encryptAndStoreLegacySeed lib seed)
  | .encryptAndStoreStandaloneSaplingKey key =>
      answered (.encryptAndStoreStandaloneSaplingKey key) .inl
        (Vault.encryptAndStoreStandaloneSaplingKey lib key)
  | .storeStandaloneTransparentKeys keys =>
      answered (.storeStandaloneTransparentKeys keys) .inl
        (Vault.storeStandaloneTransparentKeys lib keys)
  | .decryptSeed seedFp => answered (.decryptSeed seedFp) .inl (Vault.decryptSeed lib seedFp)
  | .exportMnemonic seedFp armor =>
      answered (.exportMnemonic seedFp armor) .inl (Vault.exportMnemonic lib seedFp armor)
  | .decryptStandaloneSaplingKey address =>
      answered (.decryptStandaloneSaplingKey address) .inl
        (Vault.decryptStandaloneSaplingKey lib address)
  | .decryptStandaloneTransparentKey address =>
      answered (.decryptStandaloneTransparentKey address) .inl
        (Vault.decryptStandaloneTransparentKey lib address)
  | .listFingerprints store => answered (.listFingerprints store) .inl (Vault.listFingerprints store)
  | .zExportKey address => answered (.zExportKey address) .inr (Vault.zExportKey lib address)
  | .zGetNewAccount name seedfp =>
      answered (.zGetNewAccount name seedfp) .inr (Vault.zGetNewAccount lib name seedfp)

/-! ## What they come to -/

/-- The secrets are ones that the libraries made. -/
def VaultCall.Genuine : VaultCall lib → Prop
  | .encryptAndStoreMnemonic mnemonic => GenuineMnemonic lib mnemonic
  | .encryptAndStoreStandaloneSaplingKey key => GenuineKey lib key
  | _ => True

/-- What is so in `t` when the call, begun in `s` or later, has returned. -/
def VaultCall.Kept (env : Surroundings) (s t : VaultState) :
    (call : VaultCall lib) → call.Result → Prop
  | .encryptAndStoreMnemonic mnemonic, seedFp =>
      lib.seedFingerprintFromSeed (lib.toSeed mnemonic) = some seedFp ∧
        seedFp.bytes ∈ t.keys .mnemonics
  | .encryptAndStoreLegacySeed seed, seedFp =>
      lib.seedFingerprintFromSeed seed = some seedFp ∧ seedFp.bytes ∈ t.keys .legacySeeds
  | .encryptAndStoreStandaloneSaplingKey key, dfvk =>
      dfvk = lib.toDiversifiableFullViewingKey key ∧ dfvk.bytes ∈ t.keys .saplingKeys
  | .storeStandaloneTransparentKeys keys, _ =>
      ∀ key ∈ keys, (lib.publicKey key).bytes ∈ t.keys .transparentKeys
  | .decryptSeed seedFp, seed => lib.seedFingerprintFromSeed seed = some seedFp
  | .exportMnemonic seedFp armor, ciphertext =>
      ∃ mnemonic whom, whom ≠ [] ∧ whom ⊆ t.recipients ∧
        lib.seedFingerprintFromSeed (lib.toSeed mnemonic) = some seedFp ∧
        env.encrypts (if armor then .asciiArmor else .binary) whom (utf8 mnemonic.phrase) ciphertext
  | .decryptStandaloneSaplingKey address, found =>
      (∀ extsk, found = some extsk →
        lib.decryptsDiversifier (lib.toDiversifiableFullViewingKey extsk) address = true) ∧
        (found = none → ∀ row ∈ s.tables .saplingKeys, rowOfAddress lib address row = false)
  | .decryptStandaloneTransparentKey address, key =>
      lib.encodeTransparentAddress address = lib.addressFromPubkey (lib.publicKey key)
  | .listFingerprints store, seedFps =>
      (∀ seedFp ∈ seedFps, seedFp.bytes ∈ t.keys store) ∧ ∀ key ∈ s.keys store, ⟨key⟩ ∈ seedFps
  | .zExportKey address, text => ∃ paymentAddress extsk,
      lib.decodePaymentAddress lib.hrpSaplingPaymentAddress address = .ok paymentAddress ∧
      lib.decryptsDiversifier (lib.toDiversifiableFullViewingKey extsk) paymentAddress = true ∧
      text = lib.encodeExtendedSpendingKey lib.hrpSaplingExtendedSpendingKey extsk
  | .zGetNewAccount name seedfp, uuid => NewAccount lib t name seedfp uuid

/-- Why a call, begun in `s`, may have failed in `t` when nothing fails that it needs. -/
def VaultCall.Excused (P : VaultState → (op : VaultOp) → op.Ans → Prop) (s t : VaultState) :
    VaultCall lib → Prop
  | .encryptAndStoreMnemonic _ | .encryptAndStoreStandaloneSaplingKey _
  | .storeStandaloneTransparentKeys _ => s.recipients = []
  | .encryptAndStoreLegacySeed seed =>
      s.recipients = [] ∨ lib.seedFingerprintFromSeed seed = none
  | .decryptSeed seedFp => seedFp.bytes ∉ s.keys .mnemonics
  | .exportMnemonic seedFp _ => s.recipients = [] ∨ seedFp.bytes ∉ s.keys .mnemonics
  | .decryptStandaloneSaplingKey _ | .listFingerprints _ => False
  | .decryptStandaloneTransparentKey address => ∀ pubkey,
      (lib.encodeTransparentAddress address, pubkey) ∈ s.addresses →
        pubkey ∉ s.keys .transparentKeys
  | .zExportKey address => ∀ paymentAddress,
      lib.decodePaymentAddress lib.hrpSaplingPaymentAddress address = .ok paymentAddress →
        ∀ row ∈ s.tables .saplingKeys, rowOfAddress lib paymentAddress row = false
  | .zGetNewAccount _ seedfp => Informed P → NoSeed lib s t seedfp

variable {env : Surroundings} {P : VaultState → (op : VaultOp) → op.Ans → Prop}
  {s t t' : VaultState} {call : VaultCall lib}

theorem VaultCall.Kept.mono {r : call.Result} (hgrown : Grown t t') (h : call.Kept env s t r) :
    call.Kept env s t' r := by
  cases call with
  | encryptAndStoreMnemonic => exact ⟨h.1, hgrown.keys _ h.2⟩
  | encryptAndStoreLegacySeed => exact ⟨h.1, hgrown.keys _ h.2⟩
  | encryptAndStoreStandaloneSaplingKey => exact ⟨h.1, hgrown.keys _ h.2⟩
  | storeStandaloneTransparentKeys => exact fun key hkey => hgrown.keys _ (h key hkey)
  | exportMnemonic =>
      obtain ⟨mnemonic, whom, hne, hsub, hrest⟩ := h
      exact ⟨mnemonic, whom, hne, List.Subset.trans hsub hgrown.recipients, hrest⟩
  | listFingerprints => exact ⟨fun seedFp hmem => hgrown.keys _ (h.1 seedFp hmem), h.2⟩
  | zGetNewAccount => exact NewAccount.mono hgrown h
  | _ => exact h

theorem VaultCall.Excused.mono (hgrown : Grown t t') (h : call.Excused P s t) :
    call.Excused P s t' := by
  cases call with
  | zGetNewAccount => exact fun hinformed => (h hinformed).mono hgrown
  | _ => exact h

/-- What a call has returned, and that it is so. -/
def Replied (env : Surroundings) (call : VaultCall lib) (s t : VaultState) (reply : Reply lib) :
    Prop :=
  ∃ r : call.Result, reply = ⟨call, r⟩ ∧ call.Kept env s t r

theorem wp_answered (call : VaultCall lib) {ε : Type} {f : ε → Error ⊕ RpcError}
    {p : Prog vaultSig ε call.Result}
    (h : wp (shared lib env P) p (fun t r => Moved lib env s t ∧ call.Kept env s t r)
      (fun t _ => Serving lib env P → call.Excused P s t) s) :
    wp (shared lib env P) (answered call f p)
      (fun t reply => Moved lib env s t ∧ Replied env call s t reply)
      (fun t _ => Serving lib env P → call.Excused P s t) s := by
  rw [answered, wp_bind', wp_mapErr]
  refine wp_mono ?_ (fun _ _ h => h) h
  rintro t r ⟨hmoved, hkept⟩
  exact ⟨hmoved, r, rfl, hkept⟩

/-- Each of the calls, alone among others. -/
theorem wp_call (hlib : Documented lib env) (hs : Sound lib env s) (hgenuine : call.Genuine) :
    wp (shared lib env P) call.run
      (fun t reply => Moved lib env s t ∧ Replied env call s t reply)
      (fun t _ => Serving lib env P → call.Excused P s t) s := by
  cases call with
  | encryptAndStoreMnemonic mnemonic =>
      exact wp_answered (.encryptAndStoreMnemonic mnemonic) (wp_encryptAndStoreMnemonic hgenuine)
  | encryptAndStoreLegacySeed seed =>
      exact wp_answered (.encryptAndStoreLegacySeed seed) wp_encryptAndStoreLegacySeed
  | encryptAndStoreStandaloneSaplingKey key =>
      exact wp_answered (.encryptAndStoreStandaloneSaplingKey key)
        (wp_encryptAndStoreStandaloneSaplingKey hgenuine)
  | storeStandaloneTransparentKeys keys =>
      exact wp_answered (.storeStandaloneTransparentKeys keys) wp_storeStandaloneTransparentKeys
  | decryptSeed seedFp => exact wp_answered (.decryptSeed seedFp) (wp_decryptSeed hlib hs)
  | exportMnemonic seedFp armor =>
      exact wp_answered (.exportMnemonic seedFp armor) (wp_exportMnemonic hlib hs)
  | decryptStandaloneSaplingKey address =>
      exact wp_answered (.decryptStandaloneSaplingKey address)
        (wp_decryptStandaloneSaplingKey hlib hs)
  | decryptStandaloneTransparentKey address =>
      exact wp_answered (.decryptStandaloneTransparentKey address)
        (wp_decryptStandaloneTransparentKey hlib hs)
  | listFingerprints store =>
      refine wp_answered (.listFingerprints store) (wp_mono ?_ (fun _ _ h => h)
        (wp_listFingerprints hs))
      rintro t seedFps ⟨hmoved, hperm⟩
      refine ⟨hmoved, ?_, ?_⟩
      · intro seedFp hmem
        obtain ⟨key, hkey, rfl⟩ := List.mem_map.mp (hperm.subset hmem)
        exact hkey
      · intro key hkey
        exact hperm.symm.subset (List.mem_map_of_mem (hmoved.1.keys store hkey))
  | zExportKey address => exact wp_answered (.zExportKey address) (wp_zExportKey hlib hs)
  | zGetNewAccount name seedfp =>
      exact wp_answered (.zGetNewAccount name seedfp) (wp_zGetNewAccount hlib hs)

/-! ## Any number of calls -/

/-- Where a call has got to. -/
structure Settled (lib : VaultLib) (env : Surroundings)
    (P : VaultState → (op : VaultOp) → op.Ans → Prop) (call : VaultCall lib) (s t : VaultState)
    (q : CallProg lib) : Prop where
  returned : ∀ reply, q = .ret reply → Replied env call s t reply
  failed : ∀ e, q = .fail e → Serving lib env P → call.Excused P s t
  runs : ∀ msg, q ≠ .crash msg

/-- What is left of a call that was begun in `s`. -/
abbrev Underway (lib : VaultLib) (env : Surroundings)
    (P : VaultState → (op : VaultOp) → op.Ans → Prop) (call : VaultCall lib) (s t : VaultState)
    (q : CallProg lib) : Prop :=
  wp (shared lib env P) q (fun t reply => Moved lib env s t ∧ Replied env call s t reply)
    (fun t _ => Serving lib env P → call.Excused P s t) t

theorem replied_stable (reply : Reply lib) :
    Stable (Moved lib env) fun t => Moved lib env s t ∧ Replied env call s t reply := by
  rintro t t' hmoved ⟨hmoved', r, hreply, hkept⟩
  exact ⟨hmoved'.trans hmoved, r, hreply, hkept.mono hmoved.1⟩

theorem excused_stable : Stable (Moved lib env) fun t => Serving lib env P → call.Excused P s t :=
  fun _ _ hmoved h hserving => (h hserving).mono hmoved.1

theorem Underway.settled {q : CallProg lib} (h : Underway lib env P call s t q) :
    Settled lib env P call s t q := by
  have hfits := h.fits
  refine ⟨?_, ?_, ?_⟩
  · rintro reply rfl
    exact hfits.2
  · rintro e rfl
    exact hfits
  · rintro msg rfl
    exact hfits t (.refl t)

/-- Each of the calls goes on as if it were alone among others. -/
theorem calls_moved {ι : Type} [DecidableEq ι] (hlib : Documented lib env)
    {calls : ι → VaultCall lib} (hgenuine : ∀ i, (calls i).Genuine) (hs : Sound lib env s)
    {tr : List (ι × Event vaultSig)} {qs : ι → CallProg lib}
    (h : Interleave (fun i => (calls i).run) tr qs)
    (hpath : Path (vaultWorld lib env P).step s (tr.map Prod.snd) t) :
    Moved lib env s t ∧ ∀ i, Underway lib env P (calls i) s t (qs i) := by
  obtain ⟨hcalls, hmoved⟩ := h.rely rely (fun _ => replied_stable) (fun _ _ => excused_stable)
    (fun i => wp_call hlib hs (hgenuine i)) hpath
  exact ⟨hmoved, hcalls⟩

/-- In every run of any number of calls, whatever else happens in between, rows stay sealed and
nothing is lost; and what a call came to is so. -/
theorem vault_kept {ι : Type} [DecidableEq ι] (hlib : Documented lib env)
    {calls : ι → VaultCall lib} (hgenuine : ∀ i, (calls i).Genuine) (hs : Sound lib env s)
    {tr : List (ι × Event vaultSig)} {qs : ι → CallProg lib}
    (h : Interleave (fun i => (calls i).run) tr qs)
    (hpath : Path (vaultWorld lib env P).step s (tr.map Prod.snd) t) :
    Sound lib env t ∧ Grown s t ∧ ∀ i, Settled lib env P (calls i) s t (qs i) := by
  obtain ⟨hmoved, hcalls⟩ := calls_moved hlib hgenuine hs h hpath
  exact ⟨hmoved.2 hs, hmoved.1, fun i => (hcalls i).settled⟩

/-! ## What was stored before -/

section
variable {ι κ : Type}

end

end

/-! ## A keystore that works -/

/-- Ciphertexts that are marked as such, and one identity for them all. -/
def marked : Surroundings where
  encrypts _ _ plaintext ciphertext := ciphertext = 0 :: plaintext
  opens _ _ := True
  known _ := True
  tipOf _ := 0

def unmark : List UInt8 → Except String (List UInt8)
  | 0 :: plaintext => .ok plaintext
  | _ => .error "Header is invalid"

def markedLib : VaultLib where
  seedFingerprintFromStr s := .ok ⟨utf8 s⟩
  seedFingerprintToString _ := "zip32seedfp"
  hexDecode _ := none
  accountIdTryFrom n := .ok n
  accountUuidFromStr _ := none
  hrpSaplingExtendedSpendingKey := "secret-extended-key-main"
  hrpSaplingPaymentAddress := "zs"
  decodeExtendedSpendingKey _ s := .ok ⟨utf8 s⟩
  encodeDefaultAddress _ _ := "zs1"
  toDiversifiableFullViewingKey extsk := ⟨extsk.bytes⟩
  ufvkFromSapling extsk := .ok ⟨extsk.bytes⟩
  publicKeyFromSlice bytes := some ⟨bytes⟩
  addressFromPubkey _ := "t1"
  addressFromScriptHash _ := "t3"
  redeemParse bytes := some ⟨bytes⟩
  SaplingAddress := String
  SecretKey := List UInt8
  datadir := "/zallet"
  readRecipients _ := .ok ()
  decrypt _ ciphertext := unmark ciphertext
  toSeed mnemonic := ⟨utf8 mnemonic.phrase⟩
  mnemonicFromPhrase phrase := .ok ⟨phrase⟩
  seedFingerprintFromSeed seed := some ⟨seed.bytes⟩
  decodePaymentAddress _ s := .ok s
  encodeExtendedSpendingKey hrp _ := hrp
  dfvkFromBytes bytes := some ⟨bytes⟩
  decryptsDiversifier _ _ := false
  extendedSpendingKeyFromBytes bytes := some ⟨bytes⟩
  encodeTransparentAddress _ := "t1"
  secretBytes := id
  secretKeyFromSlice := .ok
  publicKey key := ⟨key⟩

theorem marked_documented : Documented markedLib marked where
  decrypts := by
    intro recipients plaintext ciphertext identities hencrypted _
    obtain rfl : ciphertext = 0 :: plaintext := hencrypted
    rfl
  authentic := by
    intro recipients plaintext ciphertext identities plaintext' hencrypted hdecrypt
    obtain rfl : ciphertext = 0 :: plaintext := hencrypted
    cases hdecrypt
    rfl
  secretKey _ := rfl

/-- Every statement is done, and whoever needs the identities finds the keystore unlocked. -/
def serve : Answer vaultSig VaultState
  | s, .handle => (.ok (), s)
  | s, .identities => ([⟨1⟩], { s with identities := [⟨1⟩] })
  | s, .selectRecipients => (.ok s.recipients, s)
  | s, .encrypt _ _ plaintext => (.ok (0 :: plaintext), s)
  | s, .insert store rows => (.ok (), s.insert store rows)
  | s, .select store key => (.ok ((s.tables store).lookup key), s)
  | s, .selectKeys store => (.ok (s.keys store), s)
  | s, .selectAll store => (.ok (s.tables store), s)
  | s, .selectByAddress address =>
      (.ok (s.addresses.findSome? fun row =>
        if row.1 = address then (s.tables .transparentKeys).lookup row.2 else none), s)
  | s, .snapshot => (.error "no chain", s)
  | s, .chainHeight => (.ok none, s)
  | s, .tip _ => (.ok 0, s)
  | s, .treeStateAsOf _ _ => (.error "no chain", s)
  | s, .createAccount _ _ _ => (.error "no such table: accounts", s)

def served (s : VaultState) (op : VaultOp) (a : op.Ans) : Prop :=
  (∀ recipient ∈ s.recipients, marked.known recipient) ∧ Works markedLib marked op a

theorem Outside.refl (lib : VaultLib) (s : VaultState) : Outside lib s s :=
  ⟨List.Subset.refl _, rfl, rfl, List.Subset.refl _, fun _ h => .inl h⟩

theorem finds_lookup {t : Table (List UInt8) (List UInt8)} {key : List UInt8} :
    t.Finds key (t.lookup key) := by
  cases h : t.lookup key with
  | none =>
      intro hmem
      obtain ⟨row, hrow, rfl⟩ := List.mem_map.mp hmem
      have hne := List.lookup_eq_none_iff.mp h row hrow
      simp at hne
  | some value =>
      obtain ⟨l, r, rfl, -⟩ := List.lookup_eq_some_iff.mp h
      exact List.mem_append_right _ List.mem_cons_self

theorem finds_address {s : VaultState} {address : String} :
    FindsByAddress s address (s.addresses.findSome? fun row =>
      if row.1 = address then (s.tables .transparentKeys).lookup row.2 else none) := by
  cases h : s.addresses.findSome? fun row =>
      if row.1 = address then (s.tables .transparentKeys).lookup row.2 else none with
  | none =>
      intro pubkey hmem
      have hnone := List.findSome?_eq_none_iff.mp h _ hmem
      rw [if_pos rfl] at hnone
      have hfinds : (s.tables .transparentKeys).Finds pubkey
          ((s.tables .transparentKeys).lookup pubkey) := finds_lookup
      rwa [hnone] at hfinds
  | some encrypted =>
      obtain ⟨row, hrow, hsome⟩ := List.exists_of_findSome?_eq_some h
      by_cases heq : row.1 = address
      · rw [if_pos heq] at hsome
        have hfinds : (s.tables .transparentKeys).Finds row.2
            ((s.tables .transparentKeys).lookup row.2) := finds_lookup
        rw [hsome] at hfinds
        exact ⟨row.2, heq ▸ hrow, hfinds⟩
      · rw [if_neg heq] at hsome
        cases hsome

theorem serve_step (s : VaultState) (op : VaultOp) :
    (vaultWorld markedLib marked served).step s op (serve s op).1 (serve s op).2 := by
  have hknown : ∀ recipient ∈ s.recipients, marked.known recipient := fun _ _ => trivial
  cases op with
  | identities =>
      refine ⟨{ s with identities := [⟨1⟩] }, ?_, ⟨rfl, rfl⟩, hknown, List.cons_ne_nil _ _, ?_⟩
      · exact ⟨List.Subset.refl _, rfl, rfl, List.Subset.refl _, fun _ h => .inl h⟩
      · exact fun _ _ => ⟨⟨1⟩, List.mem_singleton_self _, trivial⟩
  | selectRecipients => exact ⟨s, .refl _ s, ⟨.refl _, rfl⟩, hknown, _, rfl, rfl⟩
  | select store key => exact ⟨s, .refl _ s, ⟨finds_lookup, rfl⟩, hknown, rfl⟩
  | selectByAddress address => exact ⟨s, .refl _ s, ⟨finds_address, rfl⟩, hknown, rfl⟩
  | selectKeys | selectAll => exact ⟨s, .refl _ s, ⟨.refl _, rfl⟩, hknown, rfl⟩
  | encrypt => exact ⟨s, .refl _ s, ⟨rfl, rfl⟩, hknown, rfl⟩
  | handle | insert => exact ⟨s, .refl _ s, rfl, hknown, rfl⟩
  | tip => exact ⟨s, .refl _ s, ⟨rfl, rfl⟩, hknown, trivial⟩
  | _ => exact ⟨s, .refl _ s, rfl, hknown, trivial⟩

def initialized : VaultState where
  recipients := ["age1ql3z7hjy54pw3hyww5ayyfg7zqgvc7w3j2elw8zmrj2kg5sfn9aqmcac8p"]
  identities := []
  tables _ := []
  addresses := []
  accounts := []

theorem initialized_sound : Sound markedLib marked initialized where
  rows _ _ h := by cases h
  unique _ := List.nodup_nil
  addresses _ h := by cases h
  accounts _ h := by cases h

def legalWinner : Mnemonic :=
  ⟨"legal winner thank year wave sausage worth useful legal winner thank yellow"⟩

theorem legalWinner_genuine : GenuineMnemonic markedLib legalWinner where
  phrase := ⟨legalWinner, rfl, rfl⟩
  fingerprint := rfl

/-- One call stores the phrase, another lists the fingerprints meanwhile. -/
def earlierCalls : Bool → VaultCall markedLib
  | false => .encryptAndStoreMnemonic legalWinner
  | true => .listFingerprints .mnemonics

theorem earlierCalls_genuine : ∀ i, (earlierCalls i).Genuine
  | false => legalWinner_genuine
  | true => trivial

def earlierRun : List (Bool × Event vaultSig) × VaultState × (Bool → CallProg markedLib) :=
  schedule serve [(true, 1), (false, 20), (true, 20)] initialized fun i => (earlierCalls i).run

theorem vault_kept_listed :
    Sound markedLib marked earlierRun.2.1 ∧ Grown initialized earlierRun.2.1 ∧
      ∀ i, Settled markedLib marked served (earlierCalls i) initialized earlierRun.2.1
        (earlierRun.2.2 i) :=
  vault_kept marked_documented earlierCalls_genuine initialized_sound
    (schedule_interleave _ _ _ _) (schedule_path serve_step _ _ _)

end Zallet.Vault
