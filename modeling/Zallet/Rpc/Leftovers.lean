/-
# `Zallet.Rpc.Leftovers` — what a failed import leaves behind

Each of the three methods does its writes one by one, and no write is taken back.
`z_recoveraccounts` reads all it needs before its first write, so only where an
account is not imported it leaves any: those imported before it.  `z_importkey`
stores the key before it knows where to scan from, and `z_importaddress` imports
the address before it sets up the rescan.  So on an error (`imports_on_error`):

    z_recoveraccounts   the accounts of a proper prefix of the request
    z_importkey         the key, in the keystore
    z_importaddress     the address, if a rescan was asked for

and nothing else.
-/
import Mathlib.Algebra.Order.Ring.Nat
import Mathlib.Data.Nat.SuccPred
import Zallet.Rpc.Imports
import Zallet.Prog.Exec

namespace Zallet

open Prog

/-- The stores, with no other demand on the methods than that they do not panic. -/
def importWorld : World importSig Stores := ⟨importStep, fun _ _ => True, fun _ => False⟩

/-- Operations that are not writes. -/
def ImportOp.reads : ImportOp → Bool
  | .importAccountHd _ _ _ _ | .importAccountUfvk _ _ _ => false
  | .insertStandaloneSaplingKey _ _ => false
  | .importStandaloneTransparentPubkey _ _ | .importStandaloneTransparentScript _ _ => false
  | _ => true

section
variable {s : Stores} {α ε : Type} {Q : Stores → α → Prop} {R : Stores → ε → Prop}

theorem importStep_reads {op : ImportOp} (h : op.reads = true) {a : op.Ans} {s' : Stores}
    (hstep : importStep s op a s') : s' = s := by
  cases op <;> first | exact hstep | cases h

/-- A read may answer anything, and nothing changes. -/
theorem wp_read {op : ImportOp} (h : op.reads = true) {f : op.Ans → Except ε α}
    (hok : ∀ a, Q s a) (herror : ∀ e, R s e) :
    wp importWorld (query (E := importSig) op f) Q R s :=
  wp_query_still trivial (fun _ _ => importStep_reads h) hok herror

theorem wp_pureResult {δ : Type} {toError : δ → ε} {x : Except δ α} (hok : ∀ a, x = .ok a → Q s a)
    (herror : ∀ e, R s e) : wp importWorld (ofExcept (E := importSig) toError x) Q R s := by
  rw [wp_ofExcept]
  cases x with
  | ok a => exact hok a rfl
  | error e => exact herror _

end

/-! ## `z_recoveraccounts` -/

section
variable {lib : KeyLib} {s : Stores}

/-- The arguments that are prepared for a requested account. -/
structure Prepared (lib : KeyLib) (account : AccountParameter) (arg : AccountArgs) : Prop where
  name : arg.name = account.name
  seedFp : parseSeedfpParameter lib account.seedfp = .ok arg.seedFp
  accountIndex : lib.accountIdTryFrom account.zip32AccountIndex = .ok arg.accountIndex
  recovering : arg.birthday.recoverUntil ≠ none

theorem prepareAccount_reads {chainView : ChainViewRef} {recoverUntil : Nat}
    {account : AccountParameter} :
    wp importWorld (prepareAccount lib chainView recoverUntil account)
      (fun t arg => t = s ∧ Prepared lib account arg) (fun t _ => t = s) s := by
  unfold prepareAccount
  rw [wp_bind]
  refine wp_pureResult (fun seedFp hseedFp => ?_) fun _ => rfl
  rw [wp_bind]
  refine wp_pureResult (fun accountIndex haccountIndex => ?_) fun _ => rfl
  rw [wp_bind]
  refine wp_read rfl (fun chainState => ?_) fun _ => rfl
  exact ⟨rfl, rfl, hseedFp, haccountIndex, by simp⟩

theorem fetchSeed_reads {seeds : List (SeedFingerprint × Seed)} {arg : AccountArgs} :
    wp importWorld (fetchSeed seeds arg)
      (fun t seeds' => t = s ∧ arg.seedFp ∈ seeds'.map (·.1) ∧
        ∀ fp ∈ seeds.map (·.1), fp ∈ seeds'.map (·.1)) (fun t _ => t = s) s := by
  unfold fetchSeed
  split
  · rename_i hmem
    exact ⟨rfl, hmem, fun _ h => h⟩
  · rw [wp_bind]
    refine wp_read rfl (fun seed => ?_) fun _ => rfl
    refine ⟨rfl, by simp, fun fp hfp => ?_⟩
    rw [List.map_append]
    exact List.mem_append_left _ hfp

/-- `t` is `s` with the accounts of `args` imported, each with addresses of its own. -/
structure Recovered (s : Stores) (args : List AccountArgs) (t : Stores) : Prop where
  saplingKeys : t.saplingKeys = s.saplingKeys
  imported : ∃ accounts tracked, t.accounts = s.accounts ++ accounts ∧
    t.tracked = s.tracked ++ tracked ∧
    List.Forall₂ (fun arg account => account.name = arg.name ∧
      ∃ seed, account.source = .derived seed arg.accountIndex) args accounts ∧
    ∀ a ∈ tracked, ∃ account ∈ accounts, a.account = account.uuid

theorem Recovered.nil : Recovered s [] s where
  saplingKeys := rfl
  imported := ⟨[], [], by simp, by simp, .nil, by simp⟩

theorem Recovered.addAccount {args : List AccountArgs} {t : Stores} (h : Recovered s args t)
    {arg : AccountArgs} {uuid : AccountUuid} {seed : Seed} {addresses : List Nat} :
    Recovered s (args ++ [arg])
      (t.addAccount ⟨uuid, arg.name, .derived seed arg.accountIndex⟩ addresses) where
  saplingKeys := h.saplingKeys
  imported := by
    obtain ⟨accounts, tracked, haccounts, htracked, hmatch, howned⟩ := h.imported
    refine ⟨accounts ++ [⟨uuid, arg.name, .derived seed arg.accountIndex⟩],
      tracked ++ addresses.map fun index => ⟨uuid, .ofAccount index⟩, ?_, ?_, ?_, ?_⟩
    · rw [Stores.addAccount, haccounts, List.append_assoc]
    · rw [Stores.addAccount, htracked, List.append_assoc]
    · exact List.rel_append hmatch (.cons ⟨rfl, seed, rfl⟩ .nil)
    · intro a ha
      rcases List.mem_append.mp ha with ha | ha
      · obtain ⟨account, hmem, heq⟩ := howned a ha
        exact ⟨account, List.mem_append_left _ hmem, heq⟩
      · obtain ⟨index, -, rfl⟩ := List.mem_map.mp ha
        exact ⟨_, List.mem_append_right _ (List.mem_singleton_self _), rfl⟩

/-- What an error of `z_recoveraccounts` leaves: nothing new, or the accounts before the one that
was not imported. -/
def RecoveredBefore (lib : KeyLib) (accounts : List AccountParameter) (s t : Stores) : Prop :=
  t = s ∨ ∃ args, List.Forall₂ (Prepared lib) accounts args ∧
    ∃ k < args.length, Recovered s (args.take k) t

theorem importAccount_imports {seeds : List (SeedFingerprint × Seed)} {args : List AccountArgs}
    {arg : AccountArgs} {t : Stores} (h : Recovered s args t) (hseed : arg.seedFp ∈ seeds.map (·.1)) :
    wp importWorld (importAccount lib seeds arg) (fun t' _ => Recovered s (args ++ [arg]) t')
      (fun t' _ => t' = t) t := by
  unfold importAccount
  cases hfind : seeds.find? (·.1 = arg.seedFp) with
  | none =>
      obtain ⟨pair, hmem, heq⟩ := List.mem_map.mp hseed
      exact absurd heq (by simpa using List.find?_eq_none.mp hfind pair hmem)
  | some pair =>
      rw [wp_bind, wp_query]
      refine ⟨trivial, fun r t' hstep => ?_⟩
      cases r with
      | error e => exact hstep
      | ok uuid =>
          obtain ⟨addresses, rfl⟩ := hstep
          exact h.addAccount

theorem ensureWalletIsUnlocked_reads :
    wp importWorld ensureWalletIsUnlocked (fun t _ => t = s) (fun t _ => t = s) s := by
  unfold ensureWalletIsUnlocked
  rw [wp_bind, wp_ask]
  refine ⟨trivial, fun locked t hstep => ?_⟩
  obtain rfl : t = s := hstep
  cases locked <;> rfl

theorem zRecoverAccounts_errors (accounts : List AccountParameter) :
    wp importWorld (zRecoverAccounts lib accounts) (fun _ _ => True)
      (fun t _ => RecoveredBefore lib accounts s t) s := by
  have hunchanged : ∀ {t} (_ : RpcError), t = s → RecoveredBefore lib accounts s t := fun _ => .inl
  unfold zRecoverAccounts
  rw [wp_bind]
  refine wp_mono ?_ (fun _ e => hunchanged e) ensureWalletIsUnlocked_reads
  rintro t - ht
  subst t
  rw [wp_bind]
  refine wp_read rfl (fun chainView => ?_) fun _ => .inl rfl
  rw [wp_bind]
  refine wp_read rfl (fun recoverUntil => ?_) fun _ => .inl rfl
  -- the arguments, one for each account
  rw [wp_bind]
  refine wp_mono ?_ (fun _ e => hunchanged e)
    (wp_foldlM (fun l args t => t = s ∧ List.Forall₂ (Prepared lib) l args) ⟨rfl, .nil⟩ ?_)
  · rintro t args ⟨ht, hargs⟩
    subst t
    -- the seeds, of all of them
    rw [wp_bind]
    refine wp_mono ?_ (fun _ e => hunchanged e)
      (wp_foldlM (fun l seeds t => t = s ∧ ∀ arg ∈ l, arg.seedFp ∈ seeds.map (·.1))
        ⟨rfl, by simp⟩ ?_)
    · rintro t seeds ⟨ht, hseeds⟩
      subst t
      -- the imports
      refine wp_mono (fun _ _ _ => trivial) (fun _ _ h => h)
        (wp_foldlM (fun l _ t => Recovered s l t) .nil ?_)
      intro l arg r _ t hsplit ht
      have hmem : arg ∈ args := by simp [hsplit]
      rw [wp_bind]
      refine wp_mono (fun _ _ h => h) ?_ (importAccount_imports ht (hseeds arg hmem))
      rintro t' e rfl
      refine .inr ⟨args, hargs, l.length, by simp [hsplit], ?_⟩
      rwa [hsplit, List.take_left]
    · rintro l arg r seeds t - ⟨rfl, hl⟩
      refine wp_mono ?_ (fun _ _ h => h) fetchSeed_reads
      rintro _ seeds' ⟨rfl, hmem, hkept⟩
      refine ⟨rfl, fun arg' harg' => ?_⟩
      rcases List.mem_append.mp harg' with h | h
      · exact hkept _ (hl arg' h)
      · rw [List.mem_singleton.mp h]
        exact hmem
  · rintro l account r args t - ⟨rfl, hl⟩
    rw [wp_bind]
    refine wp_mono ?_ (fun _ _ h => h) prepareAccount_reads
    rintro _ arg ⟨rfl, harg⟩
    exact ⟨rfl, List.rel_append hl (.cons harg .nil)⟩

/-! ## `z_importkey` -/

/-- What an error of `z_importkey` leaves: nothing new, or the key in the keystore. -/
def StoredKey (lib : KeyLib) (key : String) (s t : Stores) : Prop :=
  t = s ∨ ∃ extsk address encrypted,
    decodeKeyAndAddress lib lib.hrpSaplingExtendedSpendingKey lib.hrpSaplingPaymentAddress key =
        .ok (extsk, address) ∧
      t = s.storeSaplingKey (lib.toDiversifiableFullViewingKey extsk) encrypted

theorem encryptAndStore_stores {saplingKey : ExtendedSpendingKey} :
    wp importWorld (encryptAndStoreStandaloneSaplingKey lib saplingKey)
      (fun t _ => ∃ encrypted, t = s.storeSaplingKey
        (lib.toDiversifiableFullViewingKey saplingKey) encrypted)
      (fun t _ => t = s) s := by
  unfold encryptAndStoreStandaloneSaplingKey
  rw [wp_bind]
  refine wp_read rfl (fun encryptor => ?_) fun _ => rfl
  rw [wp_bind]
  refine wp_read rfl (fun encrypted => ?_) fun _ => rfl
  rw [wp_bind, wp_query]
  refine ⟨trivial, fun r t hstep => ?_⟩
  cases r with
  | error e => exact hstep
  | ok u => exact ⟨encrypted, hstep⟩

theorem fetchAccountBirthday_reads {height : Nat} :
    wp importWorld (fetchAccountBirthday height) (fun t _ => t = s) (fun t _ => t = s) s := by
  unfold fetchAccountBirthday
  split
  · rfl
  · rw [wp_bind]
    refine wp_read rfl (fun chainView => ?_) fun _ => rfl
    rw [wp_bind]
    exact wp_read rfl (fun _ => rfl) fun _ => rfl

/-- A rescan value that was validated is one of three. -/
theorem effectiveHeight_reads {rescan : Option String} {validated : String}
    (h : validateRescan rescan = .ok validated) {startHeight : Nat} {chainTip : Option Nat} :
    wp importWorld (effectiveHeight validated startHeight chainTip) (fun t _ => t = s)
      (fun t _ => t = s) s := by
  have hcases : validated = "whenkeyisnew" ∨ validated = "yes" ∨ validated = "no" := by
    unfold validateRescan at h
    cases rescan with
    | none =>
        cases h
        exact .inl rfl
    | some rescan =>
        dsimp only at h
        split at h
        · rename_i hvalid
          cases h
          exact hvalid
        · cases h
  unfold effectiveHeight
  rcases hcases with rfl | rfl | rfl <;> rfl

theorem zImportKey_errors (key : String) (rescan : Option String) (startHeight : Option Nat) :
    wp importWorld (zImportKey lib key rescan startHeight) (fun _ _ => True)
      (fun t _ => StoredKey lib key s t) s := by
  unfold zImportKey
  rw [wp_bind]
  refine wp_pureResult (fun validated hvalidated => ?_) fun _ => .inl rfl
  rw [wp_bind]
  refine wp_pureResult (fun startHeight _ => ?_) fun _ => .inl rfl
  rw [wp_bind]
  refine wp_read rfl (fun chainTip => ?_) fun _ => .inl rfl
  split
  · exact .inl rfl
  · rw [wp_bind]
    refine wp_pureResult (fun decoded hdecoded => ?_) fun _ => .inl rfl
    obtain ⟨extsk, address⟩ := decoded
    dsimp only
    rw [wp_bind, wp_mapErr]
    refine wp_mono ?_ (fun _ _ => .inl) encryptAndStore_stores
    rintro t - ⟨encrypted, ht⟩
    -- from here on the key is stored
    have hstored : StoredKey lib key s t := .inr ⟨extsk, address, encrypted, hdecoded, ht⟩
    rw [wp_bind]
    refine wp_pureResult (fun ufvk _ => ?_) fun _ => hstored
    rw [wp_bind]
    refine wp_read rfl (fun known => ?_) fun _ => hstored
    split
    · rw [wp_bind]
      refine wp_mono ?_ (fun _ _ ht' => ht' ▸ hstored) (effectiveHeight_reads hvalidated)
      rintro _ height rfl
      rw [wp_bind]
      refine wp_mono ?_ (fun _ _ ht' => ht' ▸ hstored) fetchAccountBirthday_reads
      rintro _ birthday rfl
      rw [wp_bind, wp_query]
      refine ⟨trivial, fun r t' hstep => ?_⟩
      cases r with
      | error e =>
          obtain rfl : t' = _ := hstep
          exact hstored
      | ok uuid => trivial
    · trivial

/-! ## `z_importaddress` -/

/-- What is tracked of a parsed import. -/
def ParsedImport.receiver : ParsedImport → Receiver
  | .p2pkh pubkey _ => .pubkey pubkey
  | .p2sh script _ => .script script

/-- What an error of `z_importaddress` leaves: nothing new, or the address where the rescan
failed. -/
def TrackedAddress (lib : KeyLib) (account hexData : String) (rescan : Option Bool) (s t : Stores) :
    Prop :=
  t = s ∨ rescan ≠ some false ∧ ∃ accountId parsed,
    lib.accountUuidFromStr account = some accountId ∧ parseImport lib hexData = .ok parsed ∧
      t = s.track ⟨accountId, parsed.receiver⟩

theorem importParsed_tracks {accountId : AccountUuid} {parsed : ParsedImport} :
    wp importWorld (importParsed accountId parsed)
      (fun t _ => t = s.track ⟨accountId, parsed.receiver⟩) (fun t _ => t = s) s := by
  cases parsed with
  | p2pkh pubkey result | p2sh script result =>
      unfold importParsed
      rw [wp_bind, wp_query]
      refine ⟨trivial, fun r t hstep => ?_⟩
      cases r with
      | error e => exact hstep
      | ok u => exact hstep

theorem rescanFromBirthday_reads {accountId : AccountUuid} :
    wp importWorld (rescanFromBirthday accountId) (fun t _ => t = s) (fun t _ => t = s) s := by
  unfold rescanFromBirthday
  rw [wp_bind]
  refine wp_read rfl (fun birthday => ?_) fun _ => rfl
  rw [wp_bind]
  refine wp_read rfl (fun chainView => ?_) fun _ => rfl
  rw [wp_bind]
  refine wp_read rfl (fun priorChainState => ?_) fun _ => rfl
  exact wp_read rfl (fun _ => rfl) fun _ => rfl

theorem zImportAddress_errors (account hexData : String) (rescan : Option Bool) :
    wp importWorld (zImportAddress lib account hexData rescan) (fun _ _ => True)
      (fun t _ => TrackedAddress lib account hexData rescan s t) s := by
  unfold zImportAddress
  rw [wp_bind]
  refine wp_pureResult (fun accountId haccountId => ?_) fun _ => .inl rfl
  have hparsedId : lib.accountUuidFromStr account = some accountId := by
    cases hid : lib.accountUuidFromStr account with
    | none => rw [hid] at haccountId; cases haccountId
    | some accountId' => rw [hid] at haccountId; cases haccountId; rfl
  rw [wp_bind]
  refine wp_pureResult (fun parsed hparsed => ?_) fun _ => .inl rfl
  rw [wp_bind]
  refine wp_mono ?_ (fun _ _ => .inl) importParsed_tracks
  rintro t result ht
  split
  · rename_i hrescan
    rw [wp_bind]
    refine wp_mono (fun _ _ _ => trivial) ?_ rescanFromBirthday_reads
    rintro _ - rfl
    refine .inr ⟨?_, accountId, parsed, hparsedId, hparsed, ht⟩
    rintro rfl
    cases hrescan
  · trivial

end

/-- What is changed in the accounts, the tracked addresses and the keystore when one of the
methods returns an error. -/
theorem imports_on_error (lib : KeyLib) {s s' : Stores} {tr : Trace importSig} {e : RpcError}
    (hpath : Path importStep s tr s') :
    (∀ accounts, Run (zRecoverAccounts lib accounts) tr (.fail e) →
      RecoveredBefore lib accounts s s') ∧
    (∀ key rescan startHeight, Run (zImportKey lib key rescan startHeight) tr (.fail e) →
      StoredKey lib key s s') ∧
    ∀ account hexData rescan, Run (zImportAddress lib account hexData rescan) tr (.fail e) →
      TrackedAddress lib account hexData rescan s s' := by
  refine ⟨fun accounts hrun => ?_, fun key rescan startHeight hrun => ?_,
    fun account hexData rescan hrun => ?_⟩
  · exact (zRecoverAccounts_errors accounts).sound hrun hpath
  · exact (zImportKey_errors key rescan startHeight).sound hrun hpath
  · exact (zImportAddress_errors account hexData rescan).sound hrun hpath

/-! ## One failed call of each -/

namespace MainnetSample

/-- The spending key of the all-zero seed, as in the tests of `z_importkey`. -/
def spendingKey : String :=
  "secret-extended-key-main1qqqqqqqqqqqqqq8n3zjjmvhhr854uy3qhpda3ml34haf0x388z5r7h4" ++
    "st4kpsf6qysqws3xh6qmha7gna72fs2n4clnc9zgyd22s658f65pex4exe56qjk5pqj9vfdq7dfdhjc2" ++
    "rs9jdwq0zl99uwycyrxzp86705rk687spn44e2uhm7h0hsagfvkk4n7n6nfer6u57v9cac84t7nl2zth" ++
    "0xpyfeg0w2p2wv2yn6jn923aaz0vdaml07l60ahapk6efchyxwysrvjs87qvlj"

/-- Its bytes. -/
def spendingKeyHex : String :=
  "000000000000000000f388a52db2f719e95e1220b85bd8eff1adfa979a2738a83f5eb05d6c182740" ++
    "2400e844d7d0377ef913ef94982a75c7e78289046a950d50e9d503935726cd34095a81048ac4b41e" ++
    "6a5b7961438164d701e2f94bc71304198413ebcfa0eda3fa019d6b9572fbf5df78750965ad59fa7a" ++
    "9a723d729e6171dc1eabf4fea12eef30489ca1ee5054e62893d4a65547bd13d8deefeff7f4fedfa1" ++
    "b6b29c5c867120364a"

/-- The bytes of its viewing key. -/
def viewingKeyHex : String :=
  "44eabb0aaebae28fe9222936fdcc9e7db7340f0674c37eaa0837849c2cdedb487f7233780e972c46" ++
    "65a7762bbaa8fa18159a1033376588cd6a8c2d92e93d814c9d6b9572fbf5df78750965ad59fa7a9a" ++
    "723d729e6171dc1eabf4fea12eef30489ca1ee5054e62893d4a65547bd13d8deefeff7f4fedfa1b6" ++
    "b29c5c867120364a"

/-- The fingerprint of the all-zero seed, the way `zcashd` wrote it. -/
def seedfp : String := "65c65b1da418b49be6db518d23b5c5b149e29b8d92520d7f5baf615a5fa6281e"

/-- The public key of the tests of `z_importaddress`. -/
def pubkeyHex : String := "03b0da749730dc9b4b1f4a14d6902877a92541f5368778853d9c4a0cb7802dcfb2"

def accountUuid : String := "00000000-0000-0000-0000-000000000001"

def hexDigit (c : Char) : Option UInt8 :=
  if c.isDigit then some (c.toNat - '0'.toNat).toUInt8
  else if 'a' ≤ c ∧ c ≤ 'f' then some (c.toNat - 'a'.toNat + 10).toUInt8
  else none

def hexBytes : List Char → Option (List UInt8)
  | [] => some []
  | [_] => none
  | hi :: lo :: rest => do
      let hi ← hexDigit hi
      let lo ← hexDigit lo
      let bytes ← hexBytes rest
      some ((hi * 16 + lo) :: bytes)

/-- The libraries on the keys above. -/
def lib : KeyLib where
  seedFingerprintFromStr _ := .error "InvalidEncoding"
  seedFingerprintToString _ :=
    "zip32seedfp1rc52vh66vxh4klcd22fgmxlzfxcutdfr34gahe5mksv2g82mcejsqqwlyu"
  hexDecode s := hexBytes s.toList
  accountIdTryFrom n := if n < 2 ^ 31 then .ok n else .error "out of range"
  accountUuidFromStr s := if s = accountUuid then some ⟨1⟩ else none
  hrpSaplingExtendedSpendingKey := "secret-extended-key-main"
  hrpSaplingPaymentAddress := "zs"
  decodeExtendedSpendingKey _ key :=
    if key = spendingKey then .ok ⟨(hexBytes spendingKeyHex.toList).getD []⟩
    else .error "invalid Bech32 encoding"
  encodeDefaultAddress _ _ :=
    "zs180m058urhazk8j98zvz9fsq5zd0vd9dpsc8c6ednwd2xkc3l8z9thmxsezepzx4aascp62t6vy2"
  toDiversifiableFullViewingKey _ := ⟨(hexBytes viewingKeyHex.toList).getD []⟩
  ufvkFromSapling _ := .ok ⟨(hexBytes viewingKeyHex.toList).getD []⟩
  publicKeyFromSlice bytes := if bytes.length = 33 then some ⟨bytes⟩ else none
  addressFromPubkey _ := "t1SRgDBrpcd4LNMUhGbBfh8S8rs7G335v6R"
  addressFromScriptHash _ := ""
  redeemParse _ := none

def chainState : ChainState := ⟨999, ⟨1⟩, .empty, .empty, .empty⟩

/-- A backend without the tree state before block 1000000, and a database that is locked when an
account named `b` is imported. -/
def answer : Answer importSig Stores
  | s, .isLocked => (false, s)
  | s, .snapshot => (.ok ⟨0⟩, s)
  | s, .treeStateAsOf _ height =>
      (if height = 999999 then .error "unavailable" else .ok (some chainState), s)
  | s, .chainHeight => (.ok (some 2000000), s)
  | s, .decryptSeed _ => (.ok ⟨List.replicate 32 0⟩, s)
  | s, .importAccountHd name seed accountIndex _ =>
      if name = "b" then (.error "database is locked", s)
      else (.ok ⟨2⟩, s.addAccount ⟨⟨2⟩, name, .derived seed accountIndex⟩ [0])
  | s, .encryptor => (.ok ⟨["age1"]⟩, s)
  | s, .encryptStandaloneSaplingKey _ _ => (.ok [0], s)
  | s, .insertStandaloneSaplingKey dfvk encrypted => (.ok (), s.storeSaplingKey dfvk encrypted)
  | s, .getAccountForUfvk _ => (.ok none, s)
  | s, .importAccountUfvk name ufvk _ => (.ok ⟨2⟩, s.addAccount ⟨⟨2⟩, name, .imported ufvk⟩ [])
  | s, .importStandaloneTransparentPubkey account pubkey =>
      (.ok (), s.track ⟨account, .pubkey pubkey⟩)
  | s, .importStandaloneTransparentScript account script =>
      (.ok (), s.track ⟨account, .script script⟩)
  | s, .getAccountBirthday _ => (.ok 1000000, s)
  | s, .rewindToChainState _ => (.ok (), s)

theorem answer_step (s : Stores) (op : ImportOp) :
    importStep s op (answer s op).1 (answer s op).2 := by
  cases op with
  | importAccountHd name seed accountIndex birthday =>
      by_cases hname : name = "b"
      · simp only [answer, hname, if_true]
        rfl
      · simp only [answer, hname, if_false]
        exact ⟨[0], rfl⟩
  | importAccountUfvk name ufvk birthday => exact ⟨[], rfl⟩
  | _ => rfl

def accounts : List AccountParameter := [⟨"a", seedfp, 1, 1000⟩, ⟨"b", seedfp, 2, 1000⟩]

/-- A wallet with one account. -/
def stores : Stores :=
  ⟨[⟨⟨1⟩, "main", .derived ⟨List.replicate 32 0⟩ 0⟩], [⟨⟨1⟩, .ofAccount 0⟩], []⟩

/-- The run of a method on it. -/
def ends {α : Type} (p : ImportProg α) : Trace importSig × Stores × ImportProg α :=
  exec answer 30 stores p

theorem ends_path {α : Type} (p : ImportProg α) :
    Path importStep stores (ends p).1 (ends p).2.1 := exec_path id answer_step 30 stores p

theorem zImportAddress_fails : (ends (zImportAddress lib accountUuid pubkeyHex none)).2.2.failed? =
    some (LegacyCode.database.withMessage "unavailable") := by
  decide +kernel

end MainnetSample

open MainnetSample in
/-- Each of the methods can fail with a write done: the second of two accounts cannot be imported,
the tree state below the height to scan from is not to be had, nor the one below the birthday. -/
theorem imports_not_atomic :
    (∃ tr e s, Run (zRecoverAccounts lib accounts) tr (.fail e) ∧ Path importStep stores tr s ∧
      s.accounts ≠ stores.accounts) ∧
    (∃ tr e s, Run (zImportKey lib spendingKey none (some 1000000)) tr (.fail e) ∧
      Path importStep stores tr s ∧ s.saplingKeys ≠ stores.saplingKeys) ∧
    ∃ tr e s, Run (zImportAddress lib accountUuid pubkeyHex none) tr (.fail e) ∧
      Path importStep stores tr s ∧ s.tracked ≠ stores.tracked := by
  have hrecover : (ends (zRecoverAccounts lib accounts)).2.2.failed? =
      some (LegacyCode.database.withMessage "database is locked") := by decide +kernel
  have hkey : (ends (zImportKey lib spendingKey none (some 1000000))).2.2.failed? =
      some (RpcErrorCode.internalError "Failed to get treestate at height 999999: unavailable") := by
    decide +kernel
  exact ⟨⟨_, _, _, exec_fail hrecover, ends_path _, by decide +kernel⟩,
    ⟨_, _, _, exec_fail hkey, ends_path _, by decide +kernel⟩,
    _, _, _, exec_fail zImportAddress_fails, ends_path _, by decide +kernel⟩

open MainnetSample in
/-- In the last of these runs the address is what is left. -/
theorem imports_on_error_pubkey :
    ∃ tr e s, Run (zImportAddress lib accountUuid pubkeyHex none) tr (.fail e) ∧
      Path importStep stores tr s ∧ TrackedAddress lib accountUuid pubkeyHex none stores s := by
  have hrun := exec_fail zImportAddress_fails
  exact ⟨_, _, _, hrun, ends_path _, (imports_on_error lib (ends_path _)).2.2 _ _ _ hrun⟩

end Zallet
