/-
# `Zallet.Rpc.Attribution` — whose a transparent spend or output is

`z_viewtransaction` asks the wallet of each account in turn whether it knows an
address, for the outputs that are spent and for those that are made:

  * for an output the first account that has metadata decides, and a failed
    lookup is passed over;
  * for a spend the first lookup that does not deny the address decides, and a
    failed lookup is none.

Before that the spent output is fetched from the chain, and a transaction that
the chain does not have, cannot read, or that lacks the output is a panic.
`attributed_iff` says for which wallets and chains the two rules agree and the
call comes back.
-/
import Zallet.Rpc.WalletInternal

namespace Zallet.ViewTransaction

open RpcResult

/-! ## The two searches -/

section
variable {lib : ViewLib} (wallet : WalletDb lib) (accountIds : List AccountUuid)
  (address : TransparentAddress)

/-- The first account for which the lookup of the address finds metadata. -/
def FirstKnowing (account : AccountUuid) : Prop :=
  ∃ before after, accountIds = before ++ account :: after ∧
    (∀ b ∈ before, ∀ m, wallet.getTransparentAddressMetadata b address ≠ .ok (some m)) ∧
    ∃ m, wallet.getTransparentAddressMetadata account address = .ok (some m)

/-- No lookup of the address fails after none but denials. -/
def Unfailing : Prop :=
  ∀ before account after, accountIds = before ++ account :: after →
    (∀ b ∈ before, wallet.getTransparentAddressMetadata b address = .ok none) →
    ∀ e, wallet.getTransparentAddressMetadata account address ≠ .error e

end

section
variable {lib : ViewLib} {wallet : WalletDb lib} {accountIds : List AccountUuid}
  {address : TransparentAddress} {account : AccountUuid}

theorem outputAccount_iff : (outputAccount wallet accountIds address).map (·.1) = some account ↔
    FirstKnowing wallet accountIds address account := by
  simp only [Option.map_eq_some_iff, outputAccount, List.findSome?_eq_some_iff]
  constructor
  · rintro ⟨found, ⟨before, b, after, hsplit, hfound, hbefore⟩, rfl⟩
    split at hfound
    · rename_i m hm
      obtain rfl := Option.some.inj hfound
      refine ⟨before, after, hsplit, ?_, m, hm⟩
      intro b' hb' m' hm'
      have hnone := hbefore b' hb'
      rw [hm'] at hnone
      cases hnone
    · cases hfound
    · cases hfound
  · rintro ⟨before, after, hsplit, hbefore, m, hm⟩
    refine ⟨(account, m.scope), ⟨before, account, after, hsplit, ?_, ?_⟩, rfl⟩
    · rw [hm]
    · intro b hb
      split
      · rename_i m' hm'
        exact absurd hm' (hbefore b hb m')
      · rfl
      · rfl

theorem FirstKnowing.unique {other : AccountUuid}
    (h : FirstKnowing wallet accountIds address account)
    (hother : FirstKnowing wallet accountIds address other) : account = other :=
  Option.some.inj ((outputAccount_iff.mpr h).symm.trans (outputAccount_iff.mpr hother))

/-- A spend goes to the first account whose lookup does not deny the address. -/
theorem spendAccount_eq_some_iff : spendAccount wallet accountIds address = some account ↔
    ∃ before after, accountIds = before ++ account :: after ∧
      (∀ b ∈ before, wallet.getTransparentAddressMetadata b address = .ok none) ∧
      wallet.getTransparentAddressMetadata account address ≠ .ok none := by
  rw [spendAccount, List.find?_eq_some_iff_append]
  constructor
  · rintro ⟨haccount, before, after, hsplit, hbefore⟩
    refine ⟨before, after, hsplit, ?_, ?_⟩
    · intro b hb
      have hdenied := hbefore b hb
      split at hdenied
      · assumption
      · cases hdenied
      · cases hdenied
    · intro hdenied
      rw [hdenied] at haccount
      cases haccount
  · rintro ⟨before, after, hsplit, hbefore, haccount⟩
    refine ⟨?_, before, after, hsplit, ?_⟩
    · split
      · exact absurd ‹_› haccount
      · rfl
      · rfl
    · intro b hb
      rw [hbefore b hb]
      rfl

/-- The rule of the spends is that of the outputs just where no failure decides. -/
theorem spendAccount_iff :
    (∀ a, spendAccount wallet accountIds address = some a ↔
      FirstKnowing wallet accountIds address a) ↔ Unfailing wallet accountIds address := by
  constructor
  · intro h before a after hsplit hbefore e he
    have hspend : spendAccount wallet accountIds address = some a := by
      refine spendAccount_eq_some_iff.mpr ⟨before, after, hsplit, hbefore, ?_⟩
      rw [he]
      rintro ⟨⟩
    obtain ⟨-, -, -, -, m, hm⟩ := (h a).mp hspend
    cases he.symm.trans hm
  · intro h
    have hfirst : ∀ a, spendAccount wallet accountIds address = some a →
        FirstKnowing wallet accountIds address a := by
      intro a ha
      obtain ⟨before, after, hsplit, hbefore, hasked⟩ := spendAccount_eq_some_iff.mp ha
      refine ⟨before, after, hsplit, ?_, ?_⟩
      · intro b hb m hm
        cases (hbefore b hb).symm.trans hm
      · match hlookup : wallet.getTransparentAddressMetadata a address with
        | .error e => exact absurd hlookup (h before a after hsplit hbefore e)
        | .ok none => exact absurd hlookup hasked
        | .ok (some m) => exact ⟨m, rfl⟩
    intro a
    refine ⟨hfirst a, ?_⟩
    intro ha
    cases hspend : spendAccount wallet accountIds address with
    | some b => rw [ha.unique (hfirst b hspend)]
    | none =>
        obtain ⟨before, after, hsplit, -, m, hm⟩ := ha
        have hdenied := List.find?_eq_none.mp hspend a (by simp [hsplit])
        rw [hm] at hdenied
        exact absurd rfl hdenied

end

/-! ## The stages of a call -/

/-- The output that an input spends, as the chain has it. -/
def PrevOutput (chain : ViewedChain) (input : OutPoint) (output : TxOut) : Prop :=
  ∃ bundle, chain.getTransaction input.txid = .ok (some bundle) ∧
    bundle.bind (·.vout[input.n]?) = some output

section
variable {lib : ViewLib} (wallet : WalletDb lib)

/-- The row of a spent note is asked for, and has the value of a note. -/
def spentStage (pool : ShieldedPool) (nf : Nullifier) : Stage where
  answered := ∃ row, wallet.receivedNote pool nf = .ok row
  fit := ∀ row, wallet.receivedNote pool nf = .ok (some row) → row.value ≤ maxMoney

/-- The row of a viewed note is asked for; without one the note's address has to have an encoding.
The note has the value of a note. -/
def viewedStage {Address : Type} (txid : TxId) (pool : ShieldedPool) (encodes : Address → Prop)
    (note : ℕ × Viewed Address) : Stage where
  answered := ∃ row, wallet.sentNote txid (poolCode pool) note.1 = .ok row
  fit := (wallet.sentNote txid (poolCode pool) note.1 = .ok none →
    ∀ address, note.2.address = some address → encodes address) ∧ note.2.value ≤ maxMoney

end

/-- The notes of a bundle: what its outputs are decrypted or else recovered to. -/
def viewedNotes {Out Address : Type} (decrypt recover : Out → Option (Viewed Address))
    (outputs : List Out) : List (ℕ × Viewed Address) :=
  outputs.zipIdx.filterMap fun output =>
    ((decrypt output.1).or (recover output.1)).map fun note => (output.2, note)

section
variable {lib : ViewLib} {wallet : WalletDb lib} {chain : ViewedChain}
  {accountIds : List AccountUuid}

theorem takes_constFromU64 {amount : ℕ} :
    Takes (constFromU64 amount) [⟨True, amount ≤ maxMoney⟩] := by
  by_cases h : amount ≤ maxMoney
  · rw [constFromU64, dif_pos h]
    exact takes_of_fit (iff_of_true settles_pure h) (iff_of_true ⟨_, gives_pure.mpr rfl⟩ h)
  · rw [constFromU64, dif_neg h]
    exact takes_panicWith h

theorem takes_transparentSpend {input : OutPoint × ℕ} :
    Takes (transparentSpend wallet chain accountIds input)
      [⟨True, ∃ output, PrevOutput chain input.1 output⟩] := by
  rw [transparentSpend]
  split
  · rename_i bundle hbundle
    have hprev : (∃ output, PrevOutput chain input.1 output) ↔
        ∃ output, bundle.bind (·.vout[input.1.n]?) = some output := by
      constructor
      · rintro ⟨output, bundle', hbundle', houtput⟩
        cases hbundle.symm.trans hbundle'
        exact ⟨output, houtput⟩
      · rintro ⟨output, houtput⟩
        exact ⟨output, bundle, hbundle, houtput⟩
    rw [hprev]
    exact takes_expect.bind fun _ _ => takes_pure
  · rename_i hnone
    refine takes_panicWith ?_
    rintro ⟨_, _, hbundle, _⟩
    cases hnone.symm.trans hbundle
  · rename_i e herror
    refine takes_panicWith ?_
    rintro ⟨_, _, hbundle, _⟩
    cases herror.symm.trans hbundle

theorem takes_outputWithNullifier {pool : ShieldedPool} {nf : Nullifier} :
    Takes (outputWithNullifier wallet pool nf) [spentStage wallet pool nf] := by
  refine takes_read fun found hfound => ?_
  cases found with
  | none =>
      refine takes_of_fit (iff_of_true settles_pure ?_) (iff_of_true ⟨none, rfl⟩ ?_)
      · intro row hrow
        cases hfound.symm.trans hrow
      · intro row hrow
        cases hfound.symm.trans hrow
  | some row =>
      have hvalue : (∀ row', wallet.receivedNote pool nf = .ok (some row') → row'.value ≤ maxMoney) ↔
          row.value ≤ maxMoney := by
        constructor
        · intro h
          exact h row hfound
        · rintro h row' hrow'
          cases hfound.symm.trans hrow'
          exact h
      rw [hvalue]
      exact takes_constFromU64.bind fun _ _ => takes_pure

theorem takes_shieldedSpends {pool : ShieldedPool} {poolName : String}
    {nullifiers : List Nullifier} :
    Takes (shieldedSpends wallet pool poolName nullifiers)
      (nullifiers.map (spentStage wallet pool)) := by
  have hspends : Takes (nullifiers.zipIdx.mapM (shieldedSpend wallet pool poolName))
      (nullifiers.zipIdx.map fun spend => spentStage wallet pool spend.1) :=
    takes_mapM fun spend => takes_outputWithNullifier.bind fun _ _ => takes_pure
  have hstages : nullifiers.zipIdx.map (fun spend => spentStage wallet pool spend.1) =
      nullifiers.map (spentStage wallet pool) := by
    rw [← List.zipIdx_map_fst 0 nullifiers, List.map_map, List.zipIdx_map_fst]
    rfl
  rw [hstages] at hspends
  exact hspends.map

theorem takes_encodeFallback {Address : Type} {encode : Address → Response String}
    {encodes : Address → Prop} (hencode : ∀ a, Takes (encode a) [⟨True, encodes a⟩])
    (address : Option Address) :
    Takes (encodeFallback encode address) [⟨True, ∀ a, address = some a → encodes a⟩] := by
  cases address with
  | none =>
      refine takes_of_fit (iff_of_true settles_pure ?_) (iff_of_true ⟨none, rfl⟩ ?_)
      · rintro _ ⟨⟩
      · rintro _ ⟨⟩
  | some a =>
      have hencodes : (∀ b, some a = some b → encodes b) ↔ encodes a := by
        constructor
        · intro h
          exact h a rfl
        · rintro h _ ⟨⟩
          exact h
      rw [hencodes]
      exact (hencode a).map

theorem takes_shieldedOutput {Address : Type} {txid : TxId} {pool : ShieldedPool}
    {poolName : String} {encode : Address → Response String} {encodes : Address → Prop}
    (hencode : ∀ a, Takes (encode a) [⟨True, encodes a⟩]) (note : ℕ × Viewed Address) :
    Takes (shieldedOutput wallet txid pool poolName encode note)
      [viewedStage wallet txid pool encodes note] := by
  have haddress : Takes (sentToAddress wallet txid pool note.1
      (encodeFallback encode note.2.address))
      [⟨∃ row, wallet.sentNote txid (poolCode pool) note.1 = .ok row,
        wallet.sentNote txid (poolCode pool) note.1 = .ok none →
          ∀ a, note.2.address = some a → encodes a⟩] := by
    refine takes_read fun row hrow => ?_
    rw [hrow]
    cases row with
    | none =>
        simp only [forall_const]
        exact takes_encodeFallback hencode note.2.address
    | some address =>
        refine takes_of_fit (iff_of_true settles_pure ?_) (iff_of_true ⟨address, rfl⟩ ?_)
        · rintro ⟨⟩
        · rintro ⟨⟩
  exact (haddress.bind fun _ _ => takes_constFromU64.bind fun _ _ => takes_pure).merge

theorem takes_shieldedOutputs {Out Address : Type} {txid : TxId} {pool : ShieldedPool}
    {poolName : String} {encode : Address → Response String} {encodes : Address → Prop}
    (hencode : ∀ a, Takes (encode a) [⟨True, encodes a⟩])
    {decrypt recover : Out → Option (Viewed Address)} {outputs : List Out} :
    Takes (shieldedOutputs wallet txid pool poolName encode decrypt recover outputs)
      ((viewedNotes decrypt recover outputs).map (viewedStage wallet txid pool encodes)) := by
  have hnotes : (outputs.zipIdx.filterMap fun output =>
      (((indexed decrypt outputs).lookup output.2).or
        ((indexed recover outputs).lookup output.2)).map fun note => (output.2, note)) =
      viewedNotes decrypt recover outputs := by
    refine List.filterMap_congr ?_
    rintro ⟨output, i⟩ hmem
    have hi := List.mk_mem_zipIdx_iff_getElem?.mp hmem
    rw [lookup_indexed, lookup_indexed, hi]
    rfl
  rw [shieldedOutputs, hnotes]
  exact takes_mapM (takes_shieldedOutput hencode)

end

/-! ### The call -/

section
variable {lib : ViewLib} {wallet : WalletDb lib} {txidStr : String} (r : Viewing wallet txidStr)

def Viewing.saplingSpent : List Stage :=
  r.tx.saplingBundle.elim [] fun bundle => bundle.shieldedSpends.map (spentStage wallet .sapling)

def Viewing.familySpent (ver : DomainVersion) : List Stage :=
  (r.tx.familyBundle ver).elim [] fun bundle =>
    (bundle.actions.map (·.1)).map (spentStage wallet ver.pool)

def Viewing.saplingViewed : List Stage :=
  r.tx.saplingBundle.elim [] fun bundle =>
    (viewedNotes (decryptIncoming lib.trySaplingNoteDecryption (saplingIvks r.ufvks))
      (recoverOutgoing lib.trySaplingOutputRecovery (ovks r.ufvks))
      bundle.shieldedOutputs).map (viewedStage wallet r.txid .sapling fun _ => True)

def Viewing.familyViewed (ver : DomainVersion) : List Stage :=
  (r.tx.familyBundle ver).elim [] fun bundle =>
    (viewedNotes (decryptIncoming (lib.tryNoteDecryption ver) (orchardIvks r.ufvks))
      (recoverOutgoing (lib.tryOutputRecoveryWithOvk ver) (ovks r.ufvks))
      (bundle.actions.map (·.2))).map
        (viewedStage wallet r.txid ver.pool fun a => ∃ s, lib.zcashAddressFromOrchard a = some s)

/-- The shielded notes that the wallet spends with the transaction or can view of it, in the order
in which their rows are read. -/
def Viewing.noteStages : List Stage :=
  r.saplingSpent ++ (r.familySpent .orchardVersion ++ (r.familySpent .ironwoodVersion ++
    (r.saplingViewed ++ (r.familyViewed .orchardVersion ++ r.familyViewed .ironwoodVersion))))

variable {r}

theorem takes_saplingSpends :
    Takes (saplingSpends wallet r.tx.saplingBundle) r.saplingSpent := by
  rw [saplingSpends, Viewing.saplingSpent]
  cases r.tx.saplingBundle with
  | none => exact takes_pure
  | some bundle => exact takes_shieldedSpends

theorem takes_orchardFamilySpends (ver : DomainVersion) :
    Takes (orchardFamilySpends wallet (r.tx.familyBundle ver) ver.pool ver.poolName)
      (r.familySpent ver) := by
  rw [orchardFamilySpends, Viewing.familySpent]
  cases r.tx.familyBundle ver with
  | none => exact takes_pure
  | some bundle => exact takes_shieldedSpends

theorem takes_saplingOutputs :
    Takes (saplingOutputs wallet r.ufvks r.txid r.tx.saplingBundle) r.saplingViewed := by
  rw [saplingOutputs, Viewing.saplingViewed]
  cases r.tx.saplingBundle with
  | none => exact takes_pure
  | some bundle =>
      refine takes_shieldedOutputs fun a => ?_
      exact takes_of_fit (iff_of_true settles_pure trivial) (iff_of_true ⟨_, rfl⟩ trivial)

theorem takes_orchardFamilyOutputs (ver : DomainVersion) :
    Takes (orchardFamilyOutputs wallet ver r.ufvks r.txid (r.tx.familyBundle ver) ver.pool
      ver.poolName) (r.familyViewed ver) := by
  rw [orchardFamilyOutputs, Viewing.familyViewed]
  cases r.tx.familyBundle ver with
  | none => exact takes_pure
  | some bundle => exact takes_shieldedOutputs fun a => takes_expect

theorem settles_accountEffect {row : Except String (AccountUuid × ℤ)} :
    Settles (accountEffect row : Response (AccountUuid × AccountEffect lib)) := by
  rw [accountEffect]
  simp only [settles_bind]
  exact ⟨settles_mapErr, fun _ _ => ⟨settles_mapErr, fun _ _ => settles_pure⟩⟩

/-- A call panics at an input whose previous output it does not get, or at an unfit note. -/
theorem takes_transparentSpends {inputs : List OutPoint} {chain : ViewedChain}
    {accountIds : List AccountUuid} :
    Takes (inputs.zipIdx.mapM (transparentSpend wallet chain accountIds))
      (inputs.map fun input => ⟨True, ∃ output, PrevOutput chain input output⟩) := by
  have hmap := List.map_map (f := fun input : OutPoint × ℕ => input.1)
    (g := fun input : OutPoint => (⟨True, ∃ output, PrevOutput chain input output⟩ : Stage))
    (l := inputs.zipIdx)
  rw [List.zipIdx_map_fst] at hmap
  rw [hmap]
  exact takes_mapM fun input => takes_transparentSpend

/-- Once all that is asked for first is there. -/
theorem Viewing.settles_call_iff (r : Viewing wallet txidStr) {chain : ViewedChain} :
    Settles (call wallet (.ok chain) txidStr) ↔
      (∀ input ∈ transparentInputs r.tx, ∃ output, PrevOutput chain input output) ∧
        Unbroken r.noteStages := by
  have hparsed : okOr (lib.parseTxid txidStr) (LegacyCode.invalidParameter.withMessage
      "invalid txid") = (pure r.txid : Response TxId) := by rw [r.parsed]; rfl
  have hfound : mapErr (wallet.getTransaction r.txid) databaseError =
      (pure (some r.tx) : Response _) := by rw [r.found]; rfl
  have haccounts : mapErr wallet.getAccountIds databaseError =
      (pure r.accountIds : Response _) := by rw [r.accounts]; rfl
  have hkeys : mapErr wallet.getUnifiedFullViewingKeys databaseError =
      (pure r.ufvks : Response _) := by rw [r.keys]; rfl
  have hchain : mapErr (.ok chain) databaseError = (pure chain : Response _) := rfl
  have htx : okOr (some r.tx) (LegacyCode.invalidAddressOrKey.withMessage
      "Invalid or non-wallet transaction id") = (pure r.tx : Response _) := rfl
  rw [call, hparsed, pure_bind, hchain, pure_bind, hfound, pure_bind, htx, pure_bind, haccounts,
    pure_bind, hkeys, pure_bind, ← unbroken_answered_append, Viewing.noteStages]
  dsimp only
  refine takes_transparentSpends.settles_bind fun transparent _ => ?_
  refine takes_saplingSpends.settles_bind fun sapling _ => ?_
  refine (takes_orchardFamilySpends .orchardVersion).settles_bind fun orchard _ => ?_
  refine (takes_orchardFamilySpends .ironwoodVersion).settles_bind fun ironwood _ => ?_
  refine takes_saplingOutputs.settles_bind fun saplingOut _ => ?_
  refine (takes_orchardFamilyOutputs .orchardVersion).settles_bind fun orchardOut _ => ?_
  refine (takes_orchardFamilyOutputs .ironwoodVersion).settles_last fun ironwoodOut _ => ?_
  -- What is left only reads.
  simp only [settles_bind, settles_mapErr, settles_pure, true_and, implies_true, and_true]
  intro _ _ _ _ _ _ _ _
  exact settles_mapM fun _ => settles_accountEffect

theorem settles_call_iff {snapshot : Except String ViewedChain} :
    Settles (call wallet snapshot txidStr) ↔ ∀ (r : Viewing wallet txidStr) chain,
      snapshot = .ok chain →
        (∀ input ∈ transparentInputs r.tx, ∃ output, PrevOutput chain input output) ∧
          Unbroken r.noteStages := by
  constructor
  · intro h r chain hchain
    subst hchain
    exact r.settles_call_iff.mp h
  · intro h
    by_cases hviewing : ∃ (_ : Viewing wallet txidStr) (chain : ViewedChain), snapshot = .ok chain
    · obtain ⟨r, chain, rfl⟩ := hviewing
      exact r.settles_call_iff.mpr (h r chain rfl)
    · simp only [call, settles_bind, settles_okOr, settles_mapErr, gives_okOr, gives_mapErr,
        true_and]
      rintro txid hparsed chain hchain found hfound tx rfl accountIds haccounts ufvks hkeys
      exact absurd ⟨⟨txid, tx, accountIds, ufvks, hparsed, hfound, haccounts, hkeys⟩, chain, hchain⟩
        hviewing

end

/-! ## What is told -/

section
variable {lib : ViewLib} (wallet : WalletDb lib)

/-- What an input spends was at an address of the account, which is the first to know it. -/
def SpentFrom (chain : ViewedChain) (accountIds : List AccountUuid) (input : OutPoint)
    (account : AccountUuid) : Prop :=
  ∃ output address, PrevOutput chain input output ∧ output.recipientAddress = some address ∧
    FirstKnowing wallet accountIds address account

/-- An output is at an address of the account, which is the first to know it. -/
def PaidTo (accountIds : List AccountUuid) (output : TxOut) (account : AccountUuid) : Prop :=
  ∃ address, output.recipientAddress = some address ∧
    FirstKnowing wallet accountIds address account

variable {wallet} {txidStr : String}

def transparentVout (tx : FullTransaction lib) : List TxOut := tx.transparentBundle.elim [] (·.vout)

/-- A reply that attributes what is transparent by one rule. -/
structure ResultType.Attributes (r : Viewing wallet txidStr) (chain : ViewedChain)
    (result : ResultType lib) : Prop where
  spends : List.Forall₂
    (fun input spend => ∀ a, spend.accountUuid = some a ↔ SpentFrom wallet chain r.accountIds input a)
    (transparentInputs r.tx) (result.spends.filter (·.pool = poolTransparent))
  outputs : List.Forall₂
    (fun output o => ∀ a, o.accountUuid = some a ↔ PaidTo wallet r.accountIds output a)
    (transparentVout r.tx) (result.outputs.filter (·.pool = poolTransparent))
  /-- What is outgoing was funded with a shielded note of the wallet, or from an address it knows. -/
  funded : ∀ o ∈ result.outputs, o.pool = poolTransparent → o.outgoing = some true →
    (∃ spend ∈ result.spends, spend.pool ≠ poolTransparent) ∨
      ∃ input ∈ transparentInputs r.tx, ∃ a, SpentFrom wallet chain r.accountIds input a

/-- The call comes back, and attributes the transparent spends, whether it goes on to reply or is
refused, and all of its reply, by one rule. -/
structure Attributes (wallet : WalletDb lib) (snapshot : Except String ViewedChain)
    (txidStr : String) : Prop where
  settles : Settles (call wallet snapshot txidStr)
  attributes : ∀ (r : Viewing wallet txidStr) chain, snapshot = .ok chain →
    ∀ input ∈ (transparentInputs r.tx).zipIdx, ∀ spend,
      Gives (transparentSpend wallet chain r.accountIds input) spend →
        ∀ a, spend.1.accountUuid = some a ↔ SpentFrom wallet chain r.accountIds input.1 a
  replies : ∀ result, Gives (call wallet snapshot txidStr) result →
    ∃ (r : Viewing wallet txidStr) (chain : ViewedChain), snapshot = .ok chain ∧
      result.Attributes r chain

/-- What the call relies on: the chain has the outputs that are spent, no lookup of their addresses
fails before one knows it, and the notes are as they should be. -/
structure Reliable (wallet : WalletDb lib) (snapshot : Except String ViewedChain)
    (txidStr : String) : Prop where
  fetched : ∀ (r : Viewing wallet txidStr) chain, snapshot = .ok chain →
    ∀ input ∈ transparentInputs r.tx, ∃ output, PrevOutput chain input output
  unfailing : ∀ (r : Viewing wallet txidStr) chain, snapshot = .ok chain →
    ∀ input ∈ transparentInputs r.tx, ∀ output, PrevOutput chain input output →
      ∀ address, output.recipientAddress = some address → Unfailing wallet r.accountIds address
  notes : ∀ (r : Viewing wallet txidStr) chain, snapshot = .ok chain → Unbroken r.noteStages

end

section
variable {lib : ViewLib} {wallet : WalletDb lib} {txidStr : String} {chain : ViewedChain}
  {accountIds : List AccountUuid}

theorem PrevOutput.unique {input : OutPoint} {output output' : TxOut}
    (h : PrevOutput chain input output) (h' : PrevOutput chain input output') :
    output = output' := by
  obtain ⟨bundle, hbundle, houtput⟩ := h
  obtain ⟨bundle', hbundle', houtput'⟩ := h'
  cases hbundle.symm.trans hbundle'
  exact Option.some.inj (houtput.symm.trans houtput')

/-- A spend tells of the output that the chain has for its input. -/
theorem transparentSpend_gives {input : OutPoint × ℕ} {spend : Spend lib × Zatoshis}
    (h : Gives (transparentSpend wallet chain accountIds input) spend) :
    spend.1.pool = poolTransparent ∧ ∃ output, PrevOutput chain input.1 output ∧
      spend.1.accountUuid = output.recipientAddress.bind (spendAccount wallet accountIds) := by
  rw [transparentSpend] at h
  split at h
  · rename_i bundle hbundle
    obtain ⟨output, houtput, hspend⟩ := gives_bind.mp h
    obtain rfl := gives_pure.mp hspend
    exact ⟨rfl, output, ⟨bundle, hbundle, gives_expect.mp houtput⟩, rfl⟩
  · exact absurd h not_gives_panicWith
  · exact absurd h not_gives_panicWith

/-- A spend is attributed by the rule just where no failing lookup decides. -/
theorem transparentSpend_iff {input : OutPoint × ℕ} {spend : Spend lib × Zatoshis}
    (h : Gives (transparentSpend wallet chain accountIds input) spend) :
    (∀ a, spend.1.accountUuid = some a ↔ SpentFrom wallet chain accountIds input.1 a) ↔
      ∀ output, PrevOutput chain input.1 output → ∀ address,
        output.recipientAddress = some address → Unfailing wallet accountIds address := by
  obtain ⟨-, output, hprev, haccount⟩ := transparentSpend_gives h
  rw [haccount]
  cases haddress : output.recipientAddress with
  | none =>
      refine iff_of_true (fun a => iff_of_false ?_ ?_) ?_
      · rintro ⟨⟩
      · rintro ⟨output', address, hprev', haddress', -⟩
        rw [← hprev.unique hprev', haddress] at haddress'
        cases haddress'
      · intro output' hprev' address haddress'
        rw [← hprev.unique hprev', haddress] at haddress'
        cases haddress'
  | some address =>
      have hfrom : ∀ a, SpentFrom wallet chain accountIds input.1 a ↔
          FirstKnowing wallet accountIds address a := by
        intro a
        constructor
        · rintro ⟨output', address', hprev', haddress', hfirst⟩
          rw [← hprev.unique hprev', haddress] at haddress'
          cases haddress'
          exact hfirst
        · intro hfirst
          exact ⟨output, address, hprev, haddress, hfirst⟩
      simp only [hfrom]
      refine spendAccount_iff.trans ?_
      constructor
      · intro hunfailing output' hprev' address' haddress'
        rw [← hprev.unique hprev', haddress] at haddress'
        cases haddress'
        exact hunfailing
      · intro hall
        exact hall output hprev address haddress

/-- Of the outputs the rule always holds. -/
theorem transparentOutput_attributes {funded : Bool} {output : TxOut × ℕ} {a : AccountUuid} :
    (transparentOutput wallet accountIds funded output).accountUuid = some a ↔
      PaidTo wallet accountIds output.1 a := by
  rw [transparentOutput]
  dsimp only
  rw [Option.map_bind, Option.bind_eq_some_iff]
  exact exists_congr fun address => and_congr_right fun _ => outputAccount_iff

theorem transparentOutput_outgoing {funded : Bool} {output : TxOut × ℕ}
    (h : (transparentOutput wallet accountIds funded output).outgoing = some true) :
    funded = true := by
  rw [transparentOutput] at h
  dsimp only at h
  split at h
  · cases h
  · split at h
    · cases h
    · split at h
      · assumption
      · cases h

/-! ### The pools of the reply -/

theorem shieldedSpends_pool {pool : ShieldedPool} {poolName : String}
    {nullifiers : List Nullifier} {spends : List (Spend lib)}
    (h : Gives (shieldedSpends wallet pool poolName nullifiers) spends) :
    ∀ spend ∈ spends, spend.pool = poolName := by
  obtain ⟨found, hfound, rfl⟩ := gives_map.mp h
  have hall : ∀ x ∈ found, ∀ spend, x = some spend → spend.pool = poolName := by
    rw [forall_gives_mapM hfound]
    rintro nf - x hx spend rfl
    obtain ⟨spent, -, hspend⟩ := gives_map.mp hx
    obtain ⟨note, -, rfl⟩ := Option.map_eq_some_iff.mp hspend
    rfl
  intro spend hspend
  exact hall _ (List.reduceOption_mem_iff.mp hspend) spend rfl

theorem shieldedOutputs_pool {Out Address : Type} {txid : TxId} {pool : ShieldedPool}
    {poolName : String} {encode : Address → Response String}
    {decrypt recover : Out → Option (Viewed Address)} {outputs : List Out}
    {shown : List (Output lib)}
    (h : Gives (shieldedOutputs wallet txid pool poolName encode decrypt recover outputs) shown) :
    ∀ o ∈ shown, o.pool = poolName := by
  rw [forall_gives_mapM h]
  rintro note - o ho
  simp only [shieldedOutput, gives_bind, gives_pure] at ho
  obtain ⟨_, -, _, -, rfl⟩ := ho
  rfl

/-- Nothing comes of a bundle that is not there. -/
theorem gives_elim {α β : Type} {x : Option α} {f : α → Response (List β)} {l : List β}
    (h : Gives (x.elim (pure []) f) l) : l = [] ∨ ∃ a, Gives (f a) l := by
  cases x with
  | none => exact .inl (gives_pure.mp h).symm
  | some a => exact .inr ⟨a, h⟩

theorem poolSapling_ne : poolSapling ≠ poolTransparent := by decide

theorem saplingSpends_pool {bundle : Option (SaplingBundle lib)} {spends : List (Spend lib)}
    (h : Gives (saplingSpends wallet bundle) spends) :
    ∀ spend ∈ spends, spend.pool ≠ poolTransparent := by
  intro spend hspend
  rcases gives_elim h with rfl | ⟨bundle, h⟩
  · cases hspend
  · rw [shieldedSpends_pool h spend hspend]
    exact poolSapling_ne

theorem orchardFamilySpends_pool (ver : DomainVersion) {bundle : Option (OrchardBundle lib)}
    {spends : List (Spend lib)}
    (h : Gives (orchardFamilySpends wallet bundle ver.pool ver.poolName) spends) :
    ∀ spend ∈ spends, spend.pool ≠ poolTransparent := by
  intro spend hspend
  rcases gives_elim h with rfl | ⟨bundle, h⟩
  · cases hspend
  · rw [shieldedSpends_pool h spend hspend]
    exact (poolName_ne ver).1

theorem saplingOutputs_pool {ufvks : List (AccountUuid × FullViewingKey lib)} {txid : TxId}
    {bundle : Option (SaplingBundle lib)} {outputs : List (Output lib)}
    (h : Gives (saplingOutputs wallet ufvks txid bundle) outputs) :
    ∀ o ∈ outputs, o.pool ≠ poolTransparent := by
  intro o ho
  rcases gives_elim h with rfl | ⟨bundle, h⟩
  · cases ho
  · rw [shieldedOutputs_pool h o ho]
    exact poolSapling_ne

theorem orchardFamilyOutputs_pool (ver : DomainVersion)
    {ufvks : List (AccountUuid × FullViewingKey lib)} {txid : TxId}
    {bundle : Option (OrchardBundle lib)} {outputs : List (Output lib)}
    (h : Gives (orchardFamilyOutputs wallet ver ufvks txid bundle ver.pool ver.poolName)
      outputs) : ∀ o ∈ outputs, o.pool ≠ poolTransparent := by
  intro o ho
  rcases gives_elim h with rfl | ⟨bundle, h⟩
  · cases ho
  · rw [shieldedOutputs_pool h o ho]
    exact (poolName_ne ver).1

/-- The transparent entries come first, and those of the other pools follow. -/
theorem filter_transparent {α : Type} (pool : α → String) {transparent shielded : List α}
    (htransparent : ∀ x ∈ transparent, pool x = poolTransparent)
    (hshielded : ∀ x ∈ shielded, pool x ≠ poolTransparent) :
    (transparent ++ shielded).filter (pool · = poolTransparent) = transparent := by
  have hall : transparent.filter (pool · = poolTransparent) = transparent :=
    List.filter_eq_self.mpr fun x hx => decide_eq_true (htransparent x hx)
  have hnone : shielded.filter (pool · = poolTransparent) = [] :=
    List.filter_eq_nil_iff.mpr fun x hx => by simpa using hshielded x hx
  rw [List.filter_append, hall, hnone, List.append_nil]

/-! ### The reply -/

/-- A reply's transparent spends are what its inputs come to, and its transparent outputs what is
made of the transaction's. -/
theorem call_gives {snapshot : Except String ViewedChain} {result : ResultType lib}
    (h : Gives (call wallet snapshot txidStr) result) :
    ∃ (r : Viewing wallet txidStr) (chain : ViewedChain), snapshot = .ok chain ∧
      ∃ transparent, Gives ((transparentInputs r.tx).zipIdx.mapM
        (transparentSpend wallet chain r.accountIds)) transparent ∧
      result.spends.filter (·.pool = poolTransparent) = transparent.map (·.1) ∧
      result.outputs.filter (·.pool = poolTransparent) = transparentOutputs wallet r.accountIds
        (result.spends.any (·.accountUuid.isSome)) r.tx := by
  simp only [call, gives_bind, gives_mapErr, gives_okOr, gives_pure] at h
  obtain ⟨txid, hparsed, chain, hchain, found, hfound, tx, rfl, accountIds, haccounts, ufvks, hkeys,
    transparent, htransparent, sapling, hsapling, orchard, horchard, ironwood, hironwood,
    saplingOut, hsaplingOut, orchardOut, horchardOut, ironwoodOut, hironwoodOut, -, -, -, -, -, -,
    -, -, -, -, rfl⟩ := h
  refine ⟨⟨txid, tx, accountIds, ufvks, hparsed, hfound, haccounts, hkeys⟩, chain, hchain,
    transparent, htransparent, ?_, ?_⟩
  · dsimp only
    rw [List.append_assoc, List.append_assoc]
    refine filter_transparent (fun spend : Spend lib => spend.pool) ?_ ?_
    · rw [List.forall_mem_map, forall_gives_mapM htransparent]
      intro input _ spend hspend
      exact (transparentSpend_gives hspend).1
    · rw [List.forall_mem_append, List.forall_mem_append]
      exact ⟨saplingSpends_pool hsapling, orchardFamilySpends_pool .orchardVersion horchard,
        orchardFamilySpends_pool .ironwoodVersion hironwood⟩
  · dsimp only
    rw [List.append_assoc, List.append_assoc]
    refine filter_transparent (fun o : Output lib => o.pool) ?_ ?_
    · rw [transparentOutputs]
      cases tx.transparentBundle with
      | none => rintro _ ⟨⟩
      | some bundle =>
          rw [Option.elim_some, List.forall_mem_map]
          intro _ _
          rfl
    · rw [List.forall_mem_append, List.forall_mem_append]
      exact ⟨saplingOutputs_pool hsaplingOut,
        orchardFamilyOutputs_pool .orchardVersion horchardOut,
        orchardFamilyOutputs_pool .ironwoodVersion hironwoodOut⟩

theorem forall₂_of_zipIdx {α β : Type} {R : α → β → Prop} {xs : List α} {ys : List β}
    (h : List.Forall₂ (fun x y => R x.1 y) xs.zipIdx ys) : List.Forall₂ R xs ys := by
  have hmap : List.Forall₂ R (xs.zipIdx.map (·.1)) ys := List.forall₂_map_left_iff.mpr h
  rwa [List.zipIdx_map_fst] at hmap

/-- Where all spends follow the rule, so does the reply. -/
theorem transparentOutputs_outgoing {accountIds : List AccountUuid} {funded : Bool}
    {tx : FullTransaction lib} {o : Output lib}
    (h : o ∈ transparentOutputs wallet accountIds funded tx) (houtgoing : o.outgoing = true) :
    funded = true := by
  rw [transparentOutputs] at h
  cases hbundle : tx.transparentBundle with
  | none =>
      rw [hbundle] at h
      cases h
  | some bundle =>
      rw [hbundle] at h
      obtain ⟨output, -, rfl⟩ := List.mem_map.mp h
      exact transparentOutput_outgoing houtgoing

theorem attributes_of_spends {snapshot : Except String ViewedChain} {result : ResultType lib}
    (hrule : ∀ (r : Viewing wallet txidStr) chain, snapshot = .ok chain →
      ∀ input ∈ (transparentInputs r.tx).zipIdx, ∀ spend,
        Gives (transparentSpend wallet chain r.accountIds input) spend →
          ∀ a, spend.1.accountUuid = some a ↔ SpentFrom wallet chain r.accountIds input.1 a)
    (h : Gives (call wallet snapshot txidStr) result) :
    ∃ (r : Viewing wallet txidStr) (chain : ViewedChain), snapshot = .ok chain ∧
      result.Attributes r chain := by
  obtain ⟨r, chain, hchain, transparent, htransparent, hspends, houtputs⟩ := call_gives h
  have hrule := hrule r chain hchain
  refine ⟨r, chain, hchain, ?_, ?_, ?_⟩
  · have hgiven := (List.forall₂_and_left _ _).mpr ⟨hrule, gives_mapM.mp htransparent⟩
    rw [hspends]
    refine forall₂_of_zipIdx (List.forall₂_map_right_iff.mpr (hgiven.imp ?_))
    rintro input spend ⟨hinput, hspend⟩
    exact hinput spend hspend
  · rw [houtputs, transparentOutputs, transparentVout]
    cases r.tx.transparentBundle with
    | none => exact .nil
    | some bundle =>
        refine forall₂_of_zipIdx (List.forall₂_map_right_iff.mpr (List.forall₂_same.mpr ?_))
        intro output _ a
        exact transparentOutput_attributes
  · intro o ho hpool houtgoing
    have hmem : o ∈ result.outputs.filter (·.pool = poolTransparent) :=
      List.mem_filter.mpr ⟨ho, decide_eq_true hpool⟩
    rw [houtputs] at hmem
    obtain ⟨spend, hspend, hsome⟩ :=
      List.any_eq_true.mp (transparentOutputs_outgoing hmem houtgoing)
    by_cases htransparentPool : spend.pool = poolTransparent
    · have hmem : spend ∈ result.spends.filter (·.pool = poolTransparent) :=
        List.mem_filter.mpr ⟨hspend, decide_eq_true htransparentPool⟩
      rw [hspends] at hmem
      obtain ⟨x, hx, rfl⟩ := List.mem_map.mp hmem
      have hall : ∀ y ∈ transparent, y.1.accountUuid.isSome →
          ∃ input ∈ transparentInputs r.tx, ∃ a, SpentFrom wallet chain r.accountIds input a := by
        rw [forall_gives_mapM htransparent]
        intro input hinput y hy hsome
        obtain ⟨a, ha⟩ := Option.isSome_iff_exists.mp hsome
        exact ⟨input.1, List.fst_mem_of_mem_zipIdx hinput, a, (hrule input hinput y hy a).mp ha⟩
      exact .inr (hall x hx hsome)
    · exact .inl ⟨spend, hspend, htransparentPool⟩

end

/-- A transaction's spends and outputs are attributed by one rule, and the call comes back, just
when it can rely on what it reads. -/
theorem attributes_iff (lib : ViewLib) (wallet : WalletDb lib)
    (snapshot : Except String ViewedChain) (txidStr : String) :
    Attributes wallet snapshot txidStr ↔ Reliable wallet snapshot txidStr := by
  constructor
  · intro h
    have hsettles := settles_call_iff.mp h.settles
    refine ⟨fun r chain hchain => (hsettles r chain hchain).1, ?_,
      fun r chain hchain => (hsettles r chain hchain).2⟩
    intro r chain hchain input hinput
    obtain ⟨i, hi⟩ := List.mem_iff_getElem?.mp hinput
    have hmem : (input, i) ∈ (transparentInputs r.tx).zipIdx :=
      List.mk_mem_zipIdx_iff_getElem?.mpr hi
    have hfetched := (hsettles r chain hchain).1 input hinput
    have htakes : Takes (transparentSpend wallet chain r.accountIds (input, i))
        [⟨True, ∃ output, PrevOutput chain input output⟩] := takes_transparentSpend
    obtain ⟨spend, hspend⟩ := htakes.gives.mpr (List.forall_mem_singleton.mpr ⟨trivial, hfetched⟩)
    exact (transparentSpend_iff hspend).mp (h.attributes r chain hchain _ hmem spend hspend)
  · intro h
    have hrule : ∀ (r : Viewing wallet txidStr) chain, snapshot = .ok chain →
        ∀ input ∈ (transparentInputs r.tx).zipIdx, ∀ spend,
          Gives (transparentSpend wallet chain r.accountIds input) spend →
            ∀ a, spend.1.accountUuid = some a ↔ SpentFrom wallet chain r.accountIds input.1 a := by
      intro r chain hchain input hinput spend hspend
      refine (transparentSpend_iff hspend).mpr ?_
      exact h.unfailing r chain hchain input.1 (List.fst_mem_of_mem_zipIdx hinput)
    refine ⟨settles_call_iff.mpr fun r chain hchain => ⟨h.fetched r chain hchain,
      h.notes r chain hchain⟩, hrule, fun result hresult => attributes_of_spends hrule hresult⟩

/-! ## A lookup that fails -/

/-- A spend of someone's output, paid on to someone else. -/
def foreignTransaction : FullTransaction ownKeys where
  txid := ⟨9⟩
  header := 5
  expiryHeight := 0
  transparentBundle := some ⟨[⟨⟨1⟩, 0⟩], [⟨⟨10000, outputValue_le⟩, some ⟨8⟩⟩], false⟩
  saplingBundle := none
  orchardBundle := none
  ironwoodBundle := none
  feePaid _ := .ok none

/-- A wallet that cannot look up the spent address, and does not know the other one. -/
def lockedWallet : WalletDb ownKeys :=
  { changeWallet foreignTransaction with
    getTransparentAddressMetadata := fun _ address =>
      if address = changeAddress then .error "database is locked" else .ok none }

def servingChain : ViewedChain :=
  { quietChain with
    getTransaction := fun _ =>
      .ok (some (some ⟨[], [⟨⟨10000, outputValue_le⟩, some changeAddress⟩], false⟩)) }

theorem lockedWallet_not_firstKnowing {accountIds : List AccountUuid}
    {address : TransparentAddress} {account : AccountUuid} :
    ¬ FirstKnowing lockedWallet accountIds address account := by
  rintro ⟨-, -, -, -, m, hm⟩
  have hm : (if address = changeAddress then .error "database is locked" else .ok none :
    Except String (Option TransparentAddressMetadata)) = .ok (some m) := hm
  split at hm
  · cases hm
  · cases hm

/-- The spend is told as the wallet's, and the payment as outgoing, for an address that no lookup
knows; and where the chain does not have the output that is spent, there is no reply. -/
theorem failed_lookup_attributed :
    (∃ result, Gives (call lockedWallet (.ok servingChain) "09") result ∧
      (∃ spend ∈ result.spends, spend.accountUuid = some ⟨0⟩) ∧
      ∃ o ∈ result.outputs, o.outgoing = some true) ∧
    ¬ Attributes lockedWallet (.ok servingChain) "09" ∧
    ¬ Settles (call lockedWallet (.ok quietChain) "09") := by
  refine ⟨⟨_, rfl, ⟨_, .head _, rfl⟩, _, .head _, rfl⟩, ?_, fun h => h _ rfl⟩
  intro h
  have hrule := h.attributes ⟨⟨9⟩, foreignTransaction, [⟨0⟩], [(⟨0⟩, changeKeys)], rfl, rfl, rfl, rfl⟩
    servingChain rfl (⟨⟨1⟩, 0⟩, 0) (.head _) _ rfl ⟨0⟩
  obtain ⟨_, _, -, -, hfirst⟩ := hrule.mp rfl
  exact lockedWallet_not_firstKnowing hfirst

end Zallet.ViewTransaction
