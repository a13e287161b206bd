/-
# `Zallet.Migrate.Enriched` — what enrichment changes, and what it keeps

The exported document cannot be mutated, so `enrichedDocument` builds it anew.
Piece by piece: what an account of the new document may differ in from the one
it was built from, and exactly when (`AccountEnriched`); that nothing else of
the document is lost or moved (`DocumentEnriched`); and that each rewritten
field is a fixed point of the condition it was rewritten under, so that a
second enrichment finds nothing to do.
-/
import Mathlib.Data.List.Forall2
import Zallet.Migrate.Import

namespace Zallet

/-! ## One account -/

/-- The account is derived at the legacy index, of another seed than the mnemonic of this
fingerprint. -/
def OfOtherSeed (mnemonicFp : Option String) (account : ZewifAccount) (derived : DerivedKeySource)
    (fp : String) : Prop :=
  account.keySource = some (.derived derived) ∧ derived.accountIndex = zcashdLegacyAccountIndex ∧
    mnemonicFp = some fp ∧ derived.seedFingerprint ≠ fp

/-- The account recorded nothing of its birthday, and there is an estimate to be taken. -/
def Undated (birthday : Birthday) (account : ZewifAccount) : Prop :=
  birthday.chainState = none ∧ birthday.noScanEstimate ≠ none ∧
    account.birthdayHeight = none ∧ account.birthdayChainState = none

/-- `account'` is `account` with what only the wallet knows filled in. -/
structure AccountEnriched (mnemonicFp : Option String) (birthday : Birthday)
    (account account' : ZewifAccount) : Prop where
  only : { account' with
      keySource := account.keySource
      birthdayHeight := account.birthdayHeight
      birthdayChainState := account.birthdayChainState
      recoverUntilHeight := account.recoverUntilHeight } = account
  keySource_iff : account'.keySource ≠ account.keySource ↔
    ∃ derived fp, OfOtherSeed mnemonicFp account derived fp
  keySource : ∀ derived fp, OfOtherSeed mnemonicFp account derived fp →
    account'.keySource = some (.derived { derived with seedFingerprint := fp })
  birthdayChainState :
    account'.birthdayChainState = birthday.chainState.or account.birthdayChainState
  recoverUntilHeight : account'.recoverUntilHeight =
    (birthday.chainState.bind fun _ => birthday.recoverUntil).or account.recoverUntilHeight
  birthdayHeight_iff : account'.birthdayHeight ≠ account.birthdayHeight ↔ Undated birthday account
  birthdayHeight : Undated birthday account → account'.birthdayHeight = birthday.noScanEstimate

section
variable {mnemonicFp : Option String} {birthday : Birthday} {account : ZewifAccount}

theorem normalizedKeySource_of {derived : DerivedKeySource} {fp : String}
    (h : OfOtherSeed mnemonicFp account derived fp) :
    normalizedKeySource mnemonicFp account.keySource =
      some (.derived { derived with seedFingerprint := fp }) := by
  obtain ⟨hsource, hindex, rfl, hfp⟩ := h
  rw [hsource]
  simp only [normalizedKeySource]
  rw [if_pos ⟨hindex, hfp⟩, hindex]

theorem normalizedKeySource_of_not (h : ¬ ∃ derived fp, OfOtherSeed mnemonicFp account derived fp) :
    normalizedKeySource mnemonicFp account.keySource = account.keySource := by
  cases hsource : account.keySource with
  | none => rfl
  | some source =>
      cases source with
      | other => rfl
      | derived derived =>
          cases hfp : mnemonicFp with
          | none => rfl
          | some fp =>
              simp only [normalizedKeySource]
              rw [if_neg]
              rintro ⟨hindex, hne⟩
              exact h ⟨derived, fp, hsource, hindex, hfp, hne⟩

theorem normalizedKeySource_iff :
    normalizedKeySource mnemonicFp account.keySource ≠ account.keySource ↔
      ∃ derived fp, OfOtherSeed mnemonicFp account derived fp := by
  constructor
  · intro hne
    by_contra hnone
    exact hne (normalizedKeySource_of_not hnone)
  · rintro ⟨derived, fp, hother⟩ heq
    rw [normalizedKeySource_of hother, hother.1] at heq
    exact hother.2.2.2 (congrArg DerivedKeySource.seedFingerprint
      (KeySource.derived.inj (Option.some.inj heq))).symm

theorem enrichedAccount_keySource : (enrichedAccount mnemonicFp birthday account).keySource =
    normalizedKeySource mnemonicFp account.keySource := by
  unfold enrichedAccount
  cases birthday.chainState with
  | some chainState => rfl
  | none =>
      simp only
      split <;> rfl

/-- With no chain state, only the height may be filled in. -/
theorem enrichedAccount_of_none (h : birthday.chainState = none) :
    enrichedAccount mnemonicFp birthday account =
      { account with
        keySource := normalizedKeySource mnemonicFp account.keySource
        birthdayHeight := if account.birthdayHeight = none ∧ account.birthdayChainState = none then
          birthday.noScanEstimate else account.birthdayHeight } := by
  unfold enrichedAccount
  rw [h]
  simp only
  split <;> rfl

theorem enrichedAccount_of_some {chainState : ZewifChainState}
    (h : birthday.chainState = some chainState) :
    enrichedAccount mnemonicFp birthday account =
      { account with
        keySource := normalizedKeySource mnemonicFp account.keySource
        birthdayChainState := some chainState
        recoverUntilHeight := birthday.recoverUntil.or account.recoverUntilHeight } := by
  unfold enrichedAccount
  rw [h]

theorem enrichedAccount_birthdayHeight (h : Undated birthday account) :
    (enrichedAccount mnemonicFp birthday account).birthdayHeight = birthday.noScanEstimate := by
  obtain ⟨hchain, -, hheight, hstate⟩ := h
  rw [enrichedAccount_of_none hchain]
  exact if_pos ⟨hheight, hstate⟩

theorem enrichedAccount_birthdayHeight_of_not (h : ¬ Undated birthday account) :
    (enrichedAccount mnemonicFp birthday account).birthdayHeight = account.birthdayHeight := by
  cases hchain : birthday.chainState with
  | some chainState =>
      rw [enrichedAccount_of_some hchain]
  | none =>
      rw [enrichedAccount_of_none hchain]
      show (if _ then _ else _) = _
      split
      case isTrue hnone =>
        cases hestimate : birthday.noScanEstimate with
        | none => exact hnone.1.symm
        | some estimate =>
            exact absurd ⟨hchain, by simp [hestimate], hnone⟩ h
      case isFalse => rfl

theorem enrichedAccount_enriched :
    AccountEnriched mnemonicFp birthday account (enrichedAccount mnemonicFp birthday account) where
  only := by
    cases hchain : birthday.chainState with
    | some chainState => rw [enrichedAccount_of_some hchain]
    | none => rw [enrichedAccount_of_none hchain]
  keySource_iff := by
    rw [enrichedAccount_keySource]
    exact normalizedKeySource_iff
  keySource derived fp hother := by
    rw [enrichedAccount_keySource]
    exact normalizedKeySource_of hother
  birthdayChainState := by
    cases hchain : birthday.chainState with
    | some chainState => rw [enrichedAccount_of_some hchain, Option.some_or]
    | none => rw [enrichedAccount_of_none hchain, Option.none_or]
  recoverUntilHeight := by
    cases hchain : birthday.chainState with
    | some chainState => rw [enrichedAccount_of_some hchain, Option.bind_some]
    | none => rw [enrichedAccount_of_none hchain, Option.bind_none, Option.none_or]
  birthdayHeight_iff := by
    constructor
    · intro hne
      by_contra hdated
      exact hne (enrichedAccount_birthdayHeight_of_not hdated)
    · intro hundated heq
      rw [enrichedAccount_birthdayHeight hundated, hundated.2.2.1] at heq
      exact hundated.2.1 heq
  birthdayHeight := enrichedAccount_birthdayHeight

/-- A key source that was pointed at the mnemonic is of no other seed. -/
theorem normalizedKeySource_idem (keySource : Option KeySource) :
    normalizedKeySource mnemonicFp (normalizedKeySource mnemonicFp keySource) =
      normalizedKeySource mnemonicFp keySource := by
  cases keySource with
  | none => rfl
  | some source =>
      cases source with
      | other => rfl
      | derived derived =>
          cases mnemonicFp with
          | none => rfl
          | some fp =>
              by_cases hother : derived.accountIndex = zcashdLegacyAccountIndex ∧
                  derived.seedFingerprint ≠ fp
              · simp [normalizedKeySource, if_pos hother]
              · simp only [normalizedKeySource, if_neg hother]

theorem enrichedAccount_idem (mnemonicFp : Option String) (birthday : Birthday)
    (account : ZewifAccount) :
    enrichedAccount mnemonicFp birthday (enrichedAccount mnemonicFp birthday account) =
      enrichedAccount mnemonicFp birthday account := by
  cases hchain : birthday.chainState with
  | some chainState =>
      simp only [enrichedAccount_of_some hchain, normalizedKeySource_idem]
      congr 1
      cases birthday.recoverUntil with
      | none => rfl
      | some height => rfl
  | none =>
      simp only [enrichedAccount_of_none hchain, normalizedKeySource_idem]
      congr 1
      -- where the estimate was taken and is none, it is taken again
      by_cases hnone : account.birthdayHeight = none ∧ account.birthdayChainState = none
      · rw [if_pos hnone]
        exact ite_self _
      · rw [if_neg hnone, if_neg hnone]

end

/-! ## The document -/

/-- The same wallet, each account enriched where it stood. -/
structure WalletEnriched (mnemonicFp : Option String) (birthday : Birthday)
    (wallet wallet' : ZewifWallet) : Prop where
  network : wallet'.network = wallet.network
  accounts : List.Forall₂ (AccountEnriched mnemonicFp birthday) wallet.accounts wallet'.accounts
  addressBook : wallet'.addressBook = wallet.addressBook
  extensions : wallet'.extensions = wallet.extensions

structure DocumentEnriched (secretStore : Option SecretStore) (mnemonicFp : Option String)
    (birthday : Birthday) (bufferWalletTransactions : Bool) (document document' : Zewif) : Prop where
  exportHeight : document'.exportHeight = document.exportHeight
  exportHeightBlockHash : document'.exportHeightBlockHash = document.exportHeightBlockHash
  wallets : List.Forall₂ (WalletEnriched mnemonicFp birthday) document.wallets document'.wallets
  allTransactions : bufferWalletTransactions = true → document'.transactions = document.transactions
  noTransactions : bufferWalletTransactions = false → document'.transactions = []
  secrets : document'.secrets = secretStore.map .plain
  extensions : document'.extensions = document.extensions

theorem enrichedDocument_documentEnriched (document : Zewif) (secretStore : Option SecretStore)
    (mnemonicFp : Option String) (birthday : Birthday) (bufferWalletTransactions : Bool) :
    DocumentEnriched secretStore mnemonicFp birthday bufferWalletTransactions document
      (enrichedDocument document secretStore mnemonicFp birthday bufferWalletTransactions) where
  exportHeight := rfl
  exportHeightBlockHash := rfl
  wallets := by
    refine List.forall₂_map_right_iff.mpr (List.forall₂_same.mpr ?_)
    intro wallet _
    refine ⟨rfl, ?_, rfl, rfl⟩
    refine List.forall₂_map_right_iff.mpr (List.forall₂_same.mpr ?_)
    intro account _
    exact enrichedAccount_enriched
  allTransactions := by
    rintro rfl
    rfl
  noTransactions := by
    rintro rfl
    rfl
  secrets := rfl
  extensions := rfl

theorem enrichedDocument_idem (document : Zewif) (secretStore : Option SecretStore)
    (mnemonicFp : Option String) (birthday : Birthday) (bufferWalletTransactions : Bool) :
    enrichedDocument
        (enrichedDocument document secretStore mnemonicFp birthday bufferWalletTransactions)
        secretStore mnemonicFp birthday bufferWalletTransactions =
      enrichedDocument document secretStore mnemonicFp birthday bufferWalletTransactions := by
  unfold enrichedDocument
  congr 1
  · rw [List.map_map]
    refine List.map_congr_left ?_
    intro wallet _
    have haccounts := List.map_congr_left fun account (_ : account ∈ wallet.accounts) =>
      enrichedAccount_idem mnemonicFp birthday account
    simp only [Function.comp_apply, List.map_map]
    rw [← haccounts]
    rfl
  · cases bufferWalletTransactions with
    | false => rfl
    | true => rfl

/-- Enrichment keeps the document and changes its accounts where it should, and a second time
changes nothing. -/
theorem enrichedDocument_keeps (document : Zewif) (secretStore : Option SecretStore)
    (mnemonicFp : Option String) (birthday : Birthday) (bufferWalletTransactions : Bool) :
    let document' :=
      enrichedDocument document secretStore mnemonicFp birthday bufferWalletTransactions
    DocumentEnriched secretStore mnemonicFp birthday bufferWalletTransactions document document' ∧
      enrichedDocument document' secretStore mnemonicFp birthday bufferWalletTransactions =
        document' :=
  ⟨enrichedDocument_documentEnriched document secretStore mnemonicFp birthday _,
    enrichedDocument_idem document secretStore mnemonicFp birthday _⟩

end Zallet
