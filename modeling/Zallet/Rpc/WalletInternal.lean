/-
# `Zallet.Rpc.WalletInternal` — what `walletInternal` says of an output

Both methods that tell of outputs say of `walletInternal` that it is set for an
output received by an account's internal viewing key, and that the `address`
field is then absent (`Flagged`).  The flag is computed in a different way for
each pool and method, and the address beside it:

  * of a listed note both follow from the scope of its key, as documented;
  * of a transparent output the flag is the scope of its address, and the
    address is there all the same;
  * of a viewed shielded output the flag is the absence of an address, which
    the row of the sent notes may lack for other reasons, and which an output
    recovered with an internal outgoing key does not have.

`walletInternal_iff` says which wallets and transactions that leaves.
-/
import Zallet.Rpc.ListUnspent
import Zallet.Rpc.ViewTransaction

namespace Zallet

open RpcResult

/-- What the `wallet_internal` fields are documented to be. -/
structure Flagged (received : Prop) (walletInternal : Bool) (account : Option AccountUuid)
    (address : Option String) : Prop where
  received : walletInternal = true → received ∧ account.isSome
  address : walletInternal = true → address = none

theorem flagged_of_eq_false {received : Prop} {walletInternal : Bool} {account : Option AccountUuid}
    {address : Option String} (h : walletInternal = false) :
    Flagged received walletInternal account address := by
  subst h
  exact ⟨by rintro ⟨⟩, by rintro ⟨⟩⟩

/-! ## Listed outputs -/

namespace ListUnspent

variable {lib : AddressLib} {wallet : WalletRead lib} {q : Query lib}

/-- The output was received by an internal key of the account that it is told to be of. -/
inductive UnspentOutput.InternallyReceived (wallet : WalletRead lib) (q : Query lib)
    (o : UnspentOutput lib) : Prop
  | transparent {utxos : List Utxo} {utxo : Utxo} {m : TransparentAddressMetadata} :
      o.pool = "transparent" → Gives (accountUtxos wallet q o.accountUuid) utxos →
      utxo ∈ utxos → utxo.outpoint = ⟨o.txid, o.outindex⟩ →
      wallet.getTransparentAddressMetadata o.accountUuid utxo.recipientAddress = .ok (some m) →
      m.scope = some .internal → InternallyReceived wallet q o
  | sapling {notes : ReceivedNotes lib} {note : ReceivedNote lib.SaplingAddress} :
      o.pool = "sapling" →
      wallet.selectUnspentNotes o.accountUuid [.sapling, .orchard] q.targetHeight = .ok notes →
      note ∈ notes.sapling → (note.txid, note.outputIndex) = (o.txid, o.outindex) →
      note.spendingKeyScope = .internal → InternallyReceived wallet q o
  | orchard {notes : ReceivedNotes lib} {note : ReceivedNote lib.OrchardAddress} :
      o.pool = "orchard" →
      wallet.selectUnspentNotes o.accountUuid [.sapling, .orchard] q.targetHeight = .ok notes →
      note ∈ notes.orchard → (note.txid, note.outputIndex) = (o.txid, o.outindex) →
      note.spendingKeyScope = .internal → InternallyReceived wallet q o

def UnspentOutput.Documented (wallet : WalletRead lib) (q : Query lib) (o : UnspentOutput lib) :
    Prop :=
  Flagged (o.InternallyReceived wallet q) o.walletInternal (some o.accountUuid) o.address

/-- An address of the account is one of its internal ones. -/
def InternalAddress (wallet : WalletRead lib) (account : AccountUuid)
    (address : TransparentAddress) : Prop :=
  ∃ m, wallet.getTransparentAddressMetadata account address = .ok (some m) ∧
    m.scope = some .internal

theorem transparent_documented_iff {account : AccountUuid} {isWatchOnly : Bool}
    {utxos : List Utxo} {utxo : Utxo} {o : UnspentOutput lib}
    (hutxos : Gives (accountUtxos wallet q account) utxos) (hutxo : utxo ∈ utxos)
    (h : Gives (transparentOutput wallet q account isWatchOnly utxo) o) :
    o.Documented wallet q ↔
      (InternalAddress wallet account utxo.recipientAddress → utxo.txoutRecipientAddress = none) := by
  simp only [transparentOutput, gives_bind, gives_mapErr, gives_pure] at h
  obtain ⟨metadata, hmetadata, rfl⟩ := h
  cases hflag : metadata.any (·.scope = some .internal) with
  | false =>
      refine iff_of_true (flagged_of_eq_false rfl) ?_
      rintro ⟨m, hm, hscope⟩
      obtain rfl : metadata = some m := Except.ok.inj (hmetadata.symm.trans hm)
      exact absurd (hflag.symm.trans (decide_eq_true hscope)) Bool.false_ne_true
  | true =>
      obtain ⟨m, rfl, hm⟩ := (Option.any_eq_true _ _).mp hflag
      have hscope : m.scope = some .internal := of_decide_eq_true hm
      constructor
      · intro hdocumented _
        exact Option.map_eq_none_iff.mp (hdocumented.address rfl)
      · intro hnone
        refine ⟨fun _ => ⟨?_, rfl⟩, fun _ => ?_⟩
        · exact .transparent rfl hutxos hutxo rfl hmetadata hscope
        · exact Option.map_eq_none_iff.mpr (hnone ⟨m, hmetadata, hscope⟩)

section
variable {Recipient : Type} {pool : ShieldedPool} {poolName : String}
  {encode : Recipient → Response String} {account : AccountUuid} {isWatchOnly : Bool}

/-- A note's flag and address both follow from the scope of its key. -/
theorem note_documented {note : ReceivedNote Recipient} {o : UnspentOutput lib}
    (h : Gives (noteOutput wallet pool poolName encode q account isWatchOnly note) (some o))
    (hreceived : o.pool = poolName → o.accountUuid = account →
      (note.txid, note.outputIndex) = (o.txid, o.outindex) → note.spendingKeyScope = .internal →
        o.InternallyReceived wallet q) : o.Documented wallet q := by
  obtain ⟨minedHeight, -, h⟩ := gives_bind.mp h
  split at h
  case isTrue => cases gives_pure.mp h
  case isFalse =>
    obtain ⟨_, hrender, hsome⟩ := gives_map.mp h
    obtain rfl := Option.some.inj hsome
    simp only [renderNote, gives_bind, gives_pure] at hrender
    obtain ⟨memo, -, address, haddress, rfl⟩ := hrender
    refine ⟨fun hflag => ⟨hreceived rfl rfl rfl (of_decide_eq_true hflag), rfl⟩, fun hflag => ?_⟩
    rw [noteAddress, if_pos (of_decide_eq_true hflag)] at haddress
    exact (gives_pure.mp haddress).symm

theorem notes_documented {notes : List (ReceivedNote Recipient)}
    {outputs : List (Option (UnspentOutput lib))}
    (h : Gives (notes.mapM (noteOutput wallet pool poolName encode q account isWatchOnly)) outputs)
    (hreceived : ∀ note ∈ notes, ∀ o : UnspentOutput lib, o.pool = poolName →
      o.accountUuid = account → (note.txid, note.outputIndex) = (o.txid, o.outindex) →
        note.spendingKeyScope = .internal → o.InternallyReceived wallet q) :
    ∀ o ∈ outputs.reduceOption, o.Documented wallet q := by
  have hall : ∀ o ∈ outputs, ∀ x, o = some x → x.Documented wallet q := by
    rw [forall_gives_mapM h]
    rintro note hnote _ hgives x rfl
    exact note_documented hgives (hreceived note hnote x)
  intro o ho
  exact hall _ (List.reduceOption_mem_iff.mp ho) o rfl

end

/-- What is unspent at an internal address of the account does not name it in its script. -/
def AccountUnaddressed (wallet : WalletRead lib) (q : Query lib) (account : AccountUuid) : Prop :=
  ∀ utxos, Gives (accountUtxos wallet q account) utxos → ∀ utxo ∈ utxos,
    InternalAddress wallet account utxo.recipientAddress → utxo.txoutRecipientAddress = none

def Unaddressed (wallet : WalletRead lib) (q : Query lib) : Prop :=
  ∀ accounts, wallet.getAccountIds = .ok accounts →
    ∀ account ∈ accounts, AccountUnaddressed wallet q account

theorem account_documented_iff {account : AccountUuid} {outputs : List (UnspentOutput lib)}
    (h : Gives (accountOutputs wallet q account) outputs) :
    (∀ o ∈ outputs, o.Documented wallet q) ↔ AccountUnaddressed wallet q account := by
  simp only [accountOutputs, gives_bind, gives_mapErr, gives_okOr, gives_pure] at h
  obtain ⟨_, -, purpose, -, utxos, hutxos, transparent, htransparent, notes, hnotes, sapling,
    hsapling, orchard, horchard, rfl⟩ := h
  have hsaplingDoc : ∀ o ∈ sapling.reduceOption, o.Documented wallet q := by
    refine notes_documented hsapling ?_
    rintro note hnote o hpool rfl hid hscope
    exact .sapling hpool hnotes (List.mem_filter.mp hnote).1 hid hscope
  have horchardDoc : ∀ o ∈ orchard.reduceOption, o.Documented wallet q := by
    refine notes_documented horchard ?_
    rintro note hnote o hpool rfl hid hscope
    exact .orchard hpool hnotes (List.mem_filter.mp hnote).1 hid hscope
  simp only [List.forall_mem_append, forall_gives_mapM htransparent]
  constructor
  · rintro ⟨⟨h, -⟩, -⟩ utxos' hutxos' utxo hutxo
    rw [hutxos'.unique hutxos] at hutxo
    obtain ⟨o, -, ho⟩ := forall₂_mem (gives_mapM.mp htransparent) utxo hutxo
    exact (transparent_documented_iff hutxos hutxo ho).mp (h utxo hutxo o ho)
  · intro h
    refine ⟨⟨?_, hsaplingDoc⟩, horchardDoc⟩
    intro utxo hutxo o ho
    exact (transparent_documented_iff hutxos hutxo ho).mpr (h utxos hutxos utxo hutxo)

/-- The listed outputs are documented just when none names an internal address in its script. -/
theorem call_documented_iff {params : Params} {outputs : List (UnspentOutput lib)}
    (h : Gives (call wallet params) outputs) (hparams : Gives (parseParams wallet params) (some q)) :
    (∀ o ∈ outputs, o.Documented wallet q) ↔ Unaddressed wallet q := by
  obtain ⟨_, hparsed, h⟩ := gives_bind.mp h
  obtain rfl := hparsed.unique hparams
  simp only [gives_bind, gives_mapErr, gives_pure] at h
  obtain ⟨accounts, haccounts, lists, hlists, rfl⟩ := h
  have hflatten : (∀ o ∈ lists.flatten, o.Documented wallet q) ↔
      ∀ list ∈ lists, ∀ o ∈ list, o.Documented wallet q := by
    simp only [List.mem_flatten, forall_exists_index, and_imp]
    exact forall_comm.trans (forall_congr' fun _ => forall_comm)
  rw [hflatten, forall_gives_mapM hlists]
  constructor
  · intro h accounts' haccounts' account haccount
    obtain rfl : accounts = accounts' := Except.ok.inj (haccounts.symm.trans haccounts')
    obtain ⟨list, -, hlist⟩ := forall₂_mem (gives_mapM.mp hlists) account haccount
    exact (account_documented_iff hlist).mp (h account haccount list hlist)
  · intro h account haccount list hlist
    exact (account_documented_iff hlist).mpr (h accounts haccounts account haccount)

end ListUnspent

/-! ## Viewed outputs -/

namespace ViewTransaction

/-- An incoming key of internal scope decrypts the output. -/
def DecryptsInternally {Ivk Out Address : Type} (decrypt : Ivk → Out → Option (Decrypted Address))
    (ivks : List (IncomingKey Ivk)) (output : Out) : Prop :=
  ∃ key ∈ ivks, key.scope = .internal ∧ (decrypt key.ivk output).isSome

variable {lib : ViewLib} {wallet : WalletDb lib}

/-- The bundle of the actions with these plaintexts. -/
def FullTransaction.familyBundle (tx : FullTransaction lib) :
    DomainVersion → Option (OrchardBundle lib)
  | .orchardVersion => tx.orchardBundle
  | .ironwoodVersion => tx.ironwoodBundle

/-- What a call has read when it comes to the outputs. -/
structure Viewing (wallet : WalletDb lib) (txidStr : String) where
  txid : TxId
  tx : FullTransaction lib
  accountIds : List AccountUuid
  ufvks : List (AccountUuid × FullViewingKey lib)
  parsed : lib.parseTxid txidStr = some txid
  found : wallet.getTransaction txid = .ok (some tx)
  accounts : wallet.getAccountIds = .ok accountIds
  keys : wallet.getUnifiedFullViewingKeys = .ok ufvks

section
variable {txidStr : String} (r : Viewing wallet txidStr)

/-- The output was received by an internal key of one of the wallet's accounts. -/
inductive Output.InternallyReceived (o : Output lib) : Prop
  | transparent {bundle : TransparentBundle} {i : ℕ} {output : TxOut}
      {address : TransparentAddress} {account : AccountUuid} {m : TransparentAddressMetadata} :
      o.pool = poolTransparent → r.tx.transparentBundle = some bundle →
      bundle.vout[i]? = some output → o.tOut = some (u16 i) →
      output.recipientAddress = some address → account ∈ r.accountIds →
      wallet.getTransparentAddressMetadata account address = .ok (some m) →
      m.scope = some .internal → InternallyReceived o
  | sapling {bundle : SaplingBundle lib} {i : ℕ} {output : lib.SaplingOutput} :
      o.pool = poolSapling → r.tx.saplingBundle = some bundle →
      bundle.shieldedOutputs[i]? = some output → o.output = some i →
      DecryptsInternally lib.trySaplingNoteDecryption (saplingIvks r.ufvks) output →
      InternallyReceived o
  | orchardFamily {ver : DomainVersion} {bundle : OrchardBundle lib} {i : ℕ}
      {action : lib.OrchardAction} :
      o.pool = ver.poolName → r.tx.familyBundle ver = some bundle →
      (bundle.actions.map (·.2))[i]? = some action → o.action = some i →
      DecryptsInternally (lib.tryNoteDecryption ver) (orchardIvks r.ufvks) action →
      InternallyReceived o

def Output.Documented (o : Output lib) : Prop :=
  Flagged (o.InternallyReceived r) o.walletInternal o.accountUuid o.address

end

/-! ### The notes that are viewed -/

section
variable {Ivk Ovk Out Address : Type} {decrypt : Ivk → Out → Option (Decrypted Address)}
  {recover : Ovk → Out → Option (Decrypted Address)} {ivks : List (IncomingKey Ivk)}
  {ovks : List (OutgoingKey Ovk)} {output : Out}

theorem lookup_indexed {f : Out → Option (Viewed Address)} {outputs : List Out} {i : ℕ} :
    (indexed f outputs).lookup i = outputs[i]?.bind f := by
  suffices H : ∀ k, ((outputs.zipIdx k).filterMap fun output =>
      (f output.1).map fun note => (output.2, note)).lookup (k + i) = outputs[i]?.bind f by
    have h := H 0
    rwa [Nat.zero_add] at h
  induction outputs generalizing i with
  | nil => intro k; rfl
  | cons output outputs ih =>
      intro k
      have hrest : ∀ p ∈ (outputs.zipIdx (k + 1)).filterMap (fun output =>
          (f output.1).map fun note => (output.2, note)), k < p.1 := by
        intro p hp
        obtain ⟨x, hx, hp⟩ := List.mem_filterMap.mp hp
        obtain ⟨note, -, rfl⟩ := Option.map_eq_some_iff.mp hp
        exact List.le_snd_of_mem_zipIdx hx
      rw [List.zipIdx_cons, List.filterMap_cons]
      cases i with
      | zero =>
          cases hf : f output with
          | none =>
              show List.lookup k _ = f output
              rw [hf, List.lookup_eq_none_iff]
              intro p hp
              exact bne_iff_ne.mpr (hrest p hp).ne
          | some note =>
              show List.lookup k ((k, note) :: _) = f output
              rw [List.lookup_cons_self, hf]
      | succ j =>
          have hj : k + (j + 1) = k + 1 + j := by omega
          rw [hj]
          cases hf : f output with
          | none => exact ih (k + 1)
          | some note =>
              show List.lookup _ ((k, note) :: _) = _
              have hne : (k + 1 + j == k) = false := by
                rw [beq_eq_false_iff_ne]
                omega
              rw [List.lookup_cons, hne]
              exact ih (k + 1)

/-- The notes of a bundle are what its outputs are decrypted or else recovered to. -/
theorem mem_viewed {f g : Out → Option (Viewed Address)} {outputs : List Out} {i : ℕ}
    {note : Viewed Address} :
    (i, note) ∈ (outputs.zipIdx.filterMap fun output =>
      (((indexed f outputs).lookup output.2).or ((indexed g outputs).lookup output.2)).map
        fun note => (output.2, note)) ↔
      ∃ output, outputs[i]? = some output ∧ (f output).or (g output) = some note := by
  have hlookup : ∀ {output : Out} {j : ℕ}, outputs[j]? = some output →
      ((indexed f outputs).lookup j).or ((indexed g outputs).lookup j) =
        (f output).or (g output) := by
    intro output j hj
    rw [lookup_indexed, lookup_indexed, hj]
    rfl
  rw [List.mem_filterMap]
  constructor
  · rintro ⟨⟨output, j⟩, hmem, hnote⟩
    obtain ⟨note', hnote', heq⟩ := Option.map_eq_some_iff.mp hnote
    cases heq
    have hj := List.mk_mem_zipIdx_iff_getElem?.mp hmem
    exact ⟨output, hj, (hlookup hj).symm.trans hnote'⟩
  · rintro ⟨output, hi, hnote⟩
    refine ⟨(output, i), List.mk_mem_zipIdx_iff_getElem?.mpr hi, ?_⟩
    rw [hlookup hi, hnote]
    rfl

/-- Some key of the wallet fits the output. -/
def Views (decrypt : Ivk → Out → Option (Decrypted Address))
    (recover : Ovk → Out → Option (Decrypted Address)) (ivks : List (IncomingKey Ivk))
    (ovks : List (OutgoingKey Ovk)) (output : Out) : Prop :=
  (∃ key ∈ ivks, (decrypt key.ivk output).isSome) ∨ ∃ key ∈ ovks, (recover key.ovk output).isSome

/-- What goes for an output that no internal incoming key decrypts, where `row` is its row in the
sent notes. -/
structure Told (decrypt : Ivk → Out → Option (Decrypted Address))
    (recover : Ovk → Out → Option (Decrypted Address)) (ivks : List (IncomingKey Ivk))
    (ovks : List (OutgoingKey Ovk)) (row : Except String (Option (Option String)))
    (output : Out) : Prop where
  /-- If it is viewed, its row does not lack the address. -/
  recorded : Views decrypt recover ivks ovks output → row ≠ .ok (some none)
  /-- If it has no row, and is not incoming, the first outgoing key that fits is external. -/
  outgoing : row = .ok none → (∀ key ∈ ivks, decrypt key.ivk output = none) →
    ∀ key, ovks.find? (fun key => (recover key.ovk output).isSome) = some key →
      key.scope = .external

theorem decryptIncoming_eq_none : decryptIncoming decrypt ivks output = none ↔
    ∀ key ∈ ivks, decrypt key.ivk output = none := by
  simp only [decryptIncoming, List.findSome?_eq_none_iff, Option.map_eq_none_iff]

theorem recoverOutgoing_eq : recoverOutgoing recover ovks output =
    (ovks.find? fun key => (recover key.ovk output).isSome).bind fun key =>
      (recover key.ovk output).map fun note =>
        ⟨note.value, none, recipientOf key.scope note, note.memo⟩ := by
  rw [recoverOutgoing]
  induction ovks with
  | nil => rfl
  | cons key keys ih =>
      cases hkey : recover key.ovk output with
      | none =>
          rw [List.findSome?_cons, List.find?_cons, hkey]
          exact ih
      | some note =>
          rw [List.findSome?_cons, List.find?_cons, hkey]
          show _ = Option.map _ (recover key.ovk output)
          rw [hkey]
          rfl

/-- A note has no address to fall back on just when it is not incoming, and recovered with an
internal key; if no internal key decrypts it. -/
theorem fallback_eq_none_iff (hnot : ¬ DecryptsInternally decrypt ivks output)
    {note : Viewed Address}
    (h : (decryptIncoming decrypt ivks output).or (recoverOutgoing recover ovks output) =
      some note) :
    note.address = none ↔ (∀ key ∈ ivks, decrypt key.ivk output = none) ∧
      ∃ key, ovks.find? (fun key => (recover key.ovk output).isSome) = some key ∧
        key.scope = .internal := by
  cases hincoming : decryptIncoming decrypt ivks output with
  | some note' =>
      rw [hincoming, Option.some_or, Option.some.injEq] at h
      subst h
      obtain ⟨key, hmem, hkey⟩ := List.exists_of_findSome?_eq_some hincoming
      obtain ⟨plain, hplain, rfl⟩ := Option.map_eq_some_iff.mp hkey
      have hsome : (decrypt key.ivk output).isSome := Option.isSome_of_eq_some hplain
      have hscope : key.scope = .external := by
        cases hscope : key.scope with
        | external => rfl
        | internal => exact absurd ⟨key, hmem, hscope, hsome⟩ hnot
      refine iff_of_false ?_ ?_
      · rw [recipientOf, if_pos hscope]
        exact Option.some_ne_none _
      · rintro ⟨hnone, -⟩
        rw [hnone key hmem] at hsome
        cases hsome
  | none =>
      rw [hincoming, Option.none_or, recoverOutgoing_eq] at h
      obtain ⟨key, hkey, hrecover⟩ := Option.bind_eq_some_iff.mp h
      obtain ⟨plain, hplain, rfl⟩ := Option.map_eq_some_iff.mp hrecover
      have hscope : recipientOf key.scope plain = none ↔ key.scope = .internal := by
        cases key.scope with
        | external => exact iff_of_false (by rintro ⟨⟩) (by rintro ⟨⟩)
        | internal => exact iff_of_true rfl rfl
      rw [hscope, and_iff_right (decryptIncoming_eq_none.mp hincoming)]
      constructor
      · intro h
        exact ⟨key, hkey, h⟩
      · rintro ⟨key', hkey', h⟩
        obtain rfl : key = key' := Option.some.inj (hkey.symm.trans hkey')
        exact h

theorem views_iff : Views decrypt recover ivks ovks output ↔
    ∃ note, (decryptIncoming decrypt ivks output).or (recoverOutgoing recover ovks output) =
      some note := by
  rw [← Option.isSome_iff_exists, Option.isSome_or, Bool.or_eq_true, decryptIncoming,
    recoverOutgoing, List.findSome?_isSome_iff, List.findSome?_isSome_iff]
  simp only [Option.isSome_map]
  rfl

/-- An incoming key that decrypts the output tells whose it is. -/
theorem account_isSome (h : DecryptsInternally decrypt ivks output) {note : Viewed Address}
    (hnote : (decryptIncoming decrypt ivks output).or (recoverOutgoing recover ovks output) =
      some note) : note.account.isSome := by
  cases hincoming : decryptIncoming decrypt ivks output with
  | some note' =>
      rw [hincoming, Option.some_or, Option.some.injEq] at hnote
      subst hnote
      obtain ⟨key, -, hkey⟩ := List.exists_of_findSome?_eq_some hincoming
      obtain ⟨plain, -, rfl⟩ := Option.map_eq_some_iff.mp hkey
      rfl
  | none =>
      obtain ⟨key, hmem, -, hsome⟩ := h
      rw [decryptIncoming_eq_none.mp hincoming key hmem] at hsome
      cases hsome

/-- What goes for an output, said of the address that is told of it. -/
theorem told_iff {row : Except String (Option (Option String))} :
    Told decrypt recover ivks ovks row output ∨ DecryptsInternally decrypt ivks output ↔
      ∀ note, (decryptIncoming decrypt ivks output).or (recoverOutgoing recover ovks output) =
        some note → row = .ok (some none) ∨ row = .ok none ∧ note.address = none →
          DecryptsInternally decrypt ivks output := by
  by_cases hinternal : DecryptsInternally decrypt ivks output
  · exact iff_of_true (.inr hinternal) fun _ _ _ => hinternal
  rw [or_iff_left hinternal]
  constructor
  · rintro ⟨hrecorded, houtgoing⟩ note hnote (hrow | ⟨hrow, haddress⟩)
    · exact absurd hrow (hrecorded (views_iff.mpr ⟨note, hnote⟩))
    · obtain ⟨hnone, key, hkey, hscope⟩ := (fallback_eq_none_iff hinternal hnote).mp haddress
      have hexternal := houtgoing hrow hnone key hkey
      rw [hscope] at hexternal
      cases hexternal
  · intro h
    refine ⟨?_, ?_⟩
    · intro hviews hrow
      obtain ⟨note, hnote⟩ := views_iff.mp hviews
      exact hinternal (h note hnote (.inl hrow))
    · intro hrow hnone key hkey
      cases hscope : key.scope with
      | external => rfl
      | internal =>
          have hfits := List.find?_some hkey
          have hviews : Views decrypt recover ivks ovks output :=
            .inr ⟨key, List.mem_of_find?_eq_some hkey, hfits⟩
          obtain ⟨note, hnote⟩ := views_iff.mp hviews
          refine absurd (h note hnote (.inr ⟨hrow, ?_⟩)) hinternal
          exact (fallback_eq_none_iff hinternal hnote).mpr ⟨hnone, key, hkey, hscope⟩

end

/-! ### The outputs that are reported -/

section
variable {txidStr : String} {r : Viewing wallet txidStr} {txid : TxId} {pool : ShieldedPool}
  {poolName : String} {Ivk Ovk Out Address : Type} {encode : Address → Response String}
  {decrypt : Ivk → Out → Option (Decrypted Address)}
  {recover : Ovk → Out → Option (Decrypted Address)} {ivks : List (IncomingKey Ivk)}
  {ovks : List (OutgoingKey Ovk)}

theorem encodeFallback_eq_none {fallback : Option Address} {address : Option String}
    (h : Gives (encodeFallback encode fallback) address) : address = none ↔ fallback = none := by
  cases fallback with
  | none => exact iff_of_true (gives_pure.mp h).symm rfl
  | some recipient =>
      obtain ⟨text, -, rfl⟩ := gives_map.mp h
      exact iff_of_false (Option.some_ne_none _) (Option.some_ne_none _)

/-- No address is told if the row lacks it, or there is neither a row nor a fallback. -/
theorem sentToAddress_eq_none {i : ℕ} {fallback : Option Address} {address : Option String}
    (h : Gives (sentToAddress wallet txid pool i (encodeFallback encode fallback)) address) :
    address = none ↔ wallet.sentNote txid (poolCode pool) i = .ok (some none) ∨
      wallet.sentNote txid (poolCode pool) i = .ok none ∧ fallback = none := by
  simp only [sentToAddress, gives_bind, gives_mapErr] at h
  obtain ⟨row, hrow, h⟩ := h
  rw [hrow]
  cases row with
  | none =>
      have hnot : (.ok none : Except String (Option (Option String))) ≠ .ok (some none) := by
        rintro ⟨⟩
      rw [encodeFallback_eq_none h, or_iff_right hnot, and_iff_right rfl]
  | some recorded =>
      have hnot : (.ok (some recorded) : Except String (Option (Option String))) ≠ .ok none := by
        rintro ⟨⟩
      obtain rfl : recorded = address := gives_pure.mp h
      rw [or_iff_left fun h => hnot h.1, Except.ok.injEq, Option.some.injEq]

theorem shieldedOutput_documented_iff {i : ℕ} {output : Out} {note : Viewed Address}
    {o : Output lib}
    (hnote : (decryptIncoming decrypt ivks output).or (recoverOutgoing recover ovks output) =
      some note)
    (h : Gives (shieldedOutput wallet txid pool poolName encode (i, note)) o)
    (hreceived : o.pool = poolName → o.output = bundleIndex pool i → o.action = actionIndex pool i →
      (o.InternallyReceived r ↔ DecryptsInternally decrypt ivks output)) :
    o.Documented r ↔ (wallet.sentNote txid (poolCode pool) i = .ok (some none) ∨
      wallet.sentNote txid (poolCode pool) i = .ok none ∧ note.address = none →
        DecryptsInternally decrypt ivks output) := by
  simp only [shieldedOutput, gives_bind, gives_pure] at h
  obtain ⟨address, haddress, value, -, rfl⟩ := h
  have hreceived := hreceived rfl rfl rfl
  rw [← sentToAddress_eq_none haddress, ← hreceived]
  constructor
  · intro hdocumented hnone
    exact (hdocumented.received (Option.isNone_iff_eq_none.mpr hnone)).1
  · intro h
    refine ⟨fun hflag => ?_, Option.isNone_iff_eq_none.mp⟩
    have hinternal := h (Option.isNone_iff_eq_none.mp hflag)
    exact ⟨hinternal, account_isSome (hreceived.mp hinternal) hnote⟩

/-- The outputs of a bundle are documented if what is told of each of them is. -/
theorem shieldedOutputs_documented_iff {outs : List Out} {outputs : List (Output lib)}
    (h : Gives (shieldedOutputs wallet txid pool poolName encode (decryptIncoming decrypt ivks)
      (recoverOutgoing recover ovks) outs) outputs)
    (hreceived : ∀ i output, outs[i]? = some output → ∀ o : Output lib, o.pool = poolName →
      o.output = bundleIndex pool i → o.action = actionIndex pool i →
        (o.InternallyReceived r ↔ DecryptsInternally decrypt ivks output)) :
    (∀ o ∈ outputs, o.Documented r) ↔ ∀ i output, outs[i]? = some output →
      Told decrypt recover ivks ovks (wallet.sentNote txid (poolCode pool) i) output ∨
        DecryptsInternally decrypt ivks output := by
  rw [shieldedOutputs] at h
  rw [forall_gives_mapM h]
  constructor
  · intro hall i output hi
    rw [told_iff]
    intro note hnote
    have hmem := mem_viewed.mpr ⟨output, hi, hnote⟩
    obtain ⟨o, -, ho⟩ := forall₂_mem (gives_mapM.mp h) _ hmem
    exact (shieldedOutput_documented_iff hnote ho (hreceived i output hi o)).mp (hall _ hmem o ho)
  · rintro hall ⟨i, note⟩ hmem o ho
    obtain ⟨output, hi, hnote⟩ := mem_viewed.mp hmem
    exact (shieldedOutput_documented_iff hnote ho (hreceived i output hi o)).mpr
      (told_iff.mp (hall i output hi) note hnote)

end

section
variable {txidStr : String} {r : Viewing wallet txidStr}

/-- A transparent output is told with its address, so it must not be told as internal. -/
theorem transparentOutput_documented_iff {fundedByThisWallet : Bool} {output : TxOut × ℕ} :
    (transparentOutput wallet r.accountIds fundedByThisWallet output).Documented r ↔
      ∀ address, output.1.recipientAddress = some address →
        (outputAccount wallet r.accountIds address).map (·.2) ≠ some (some .internal) := by
  constructor
  · intro hdocumented address haddress hinternal
    have hflag : (transparentOutput wallet r.accountIds fundedByThisWallet
        output).walletInternal = true := by
      rw [transparentOutput, haddress]
      exact decide_eq_true hinternal
    have hnone := hdocumented.address hflag
    rw [transparentOutput, haddress] at hnone
    cases hnone
  · intro h
    refine flagged_of_eq_false (decide_eq_false ?_)
    cases haddress : output.1.recipientAddress with
    | none => rintro ⟨⟩
    | some address => exact h address haddress

/-- What goes for the transaction's outputs where all that is told of them is documented. -/
structure Viewing.Consistent (r : Viewing wallet txidStr) : Prop where
  transparent : ∀ bundle, r.tx.transparentBundle = some bundle → ∀ output ∈ bundle.vout,
    ∀ address, output.recipientAddress = some address →
      (outputAccount wallet r.accountIds address).map (·.2) ≠ some (some .internal)
  sapling : ∀ bundle, r.tx.saplingBundle = some bundle → ∀ i output,
    bundle.shieldedOutputs[i]? = some output →
      Told lib.trySaplingNoteDecryption lib.trySaplingOutputRecovery (saplingIvks r.ufvks)
          (ovks r.ufvks) (wallet.sentNote r.txid (poolCode .sapling) i) output ∨
        DecryptsInternally lib.trySaplingNoteDecryption (saplingIvks r.ufvks) output
  orchardFamily : ∀ ver bundle, r.tx.familyBundle ver = some bundle → ∀ i action,
    (bundle.actions.map (·.2))[i]? = some action →
      Told (lib.tryNoteDecryption ver) (lib.tryOutputRecoveryWithOvk ver) (orchardIvks r.ufvks)
          (ovks r.ufvks) (wallet.sentNote r.txid (poolCode ver.pool) i) action ∨
        DecryptsInternally (lib.tryNoteDecryption ver) (orchardIvks r.ufvks) action

theorem transparentOutputs_documented_iff {fundedByThisWallet : Bool} :
    (∀ o ∈ transparentOutputs wallet r.accountIds fundedByThisWallet r.tx, o.Documented r) ↔
      ∀ bundle, r.tx.transparentBundle = some bundle → ∀ output ∈ bundle.vout,
        ∀ address, output.recipientAddress = some address →
          (outputAccount wallet r.accountIds address).map (·.2) ≠ some (some .internal) := by
  rw [transparentOutputs]
  cases r.tx.transparentBundle with
  | none => exact iff_of_true (by rintro _ ⟨⟩) (by rintro _ ⟨⟩)
  | some bundle =>
      rw [Option.elim_some, List.forall_mem_map]
      constructor
      · rintro h _ ⟨⟩ output houtput
        obtain ⟨i, hi⟩ := List.mem_iff_getElem?.mp houtput
        exact transparentOutput_documented_iff.mp
          (h (output, i) (List.mk_mem_zipIdx_iff_getElem?.mpr hi))
      · intro h output houtput
        refine transparentOutput_documented_iff.mpr ?_
        exact h bundle rfl output.1 (List.fst_mem_of_mem_zipIdx houtput)

/-! ### The three shielded pools -/

theorem internallyReceived_sapling {o : Output lib} {bundle : SaplingBundle lib} {i : ℕ}
    {output : lib.SaplingOutput} (hpool : o.pool = poolSapling)
    (hbundle : r.tx.saplingBundle = some bundle) (hi : bundle.shieldedOutputs[i]? = some output)
    (hindex : o.output = some i) : o.InternallyReceived r ↔
      DecryptsInternally lib.trySaplingNoteDecryption (saplingIvks r.ufvks) output := by
  constructor
  · intro h
    cases h with
    | transparent hpool' => exact absurd (hpool.symm.trans hpool') (by decide)
    | @orchardFamily ver _ _ _ hpool' =>
        cases ver with
        | orchardVersion => exact absurd (hpool.symm.trans hpool') (by decide)
        | ironwoodVersion => exact absurd (hpool.symm.trans hpool') (by decide)
    | sapling _ hbundle' hi' hindex' hdecrypts =>
        cases hbundle.symm.trans hbundle'
        cases hindex.symm.trans hindex'
        cases hi.symm.trans hi'
        exact hdecrypts
  · exact .sapling hpool hbundle hi hindex

theorem poolName_injective {ver ver' : DomainVersion} (h : ver.poolName = ver'.poolName) :
    ver = ver' := by
  cases ver with
  | orchardVersion =>
      cases ver' with
      | orchardVersion => rfl
      | ironwoodVersion => exact absurd h (by decide)
  | ironwoodVersion =>
      cases ver' with
      | orchardVersion => exact absurd h (by decide)
      | ironwoodVersion => rfl

theorem poolName_ne (ver : DomainVersion) :
    ver.poolName ≠ poolTransparent ∧ ver.poolName ≠ poolSapling := by
  cases ver with
  | orchardVersion => decide
  | ironwoodVersion => decide

theorem internallyReceived_orchardFamily {ver : DomainVersion} {o : Output lib}
    {bundle : OrchardBundle lib} {i : ℕ} {action : lib.OrchardAction} (hpool : o.pool = ver.poolName)
    (hbundle : r.tx.familyBundle ver = some bundle)
    (hi : (bundle.actions.map (·.2))[i]? = some action) (hindex : o.action = some i) :
    o.InternallyReceived r ↔
      DecryptsInternally (lib.tryNoteDecryption ver) (orchardIvks r.ufvks) action := by
  constructor
  · intro h
    cases h with
    | transparent hpool' => exact absurd (hpool.symm.trans hpool') (poolName_ne ver).1
    | sapling hpool' => exact absurd (hpool.symm.trans hpool') (poolName_ne ver).2
    | orchardFamily hpool' hbundle' hi' hindex' hdecrypts =>
        obtain rfl := poolName_injective (hpool.symm.trans hpool')
        cases hbundle.symm.trans hbundle'
        cases hindex.symm.trans hindex'
        cases hi.symm.trans hi'
        exact hdecrypts
  · exact .orchardFamily hpool hbundle hi hindex

theorem saplingOutputs_documented_iff {outputs : List (Output lib)}
    (h : Gives (saplingOutputs wallet r.ufvks r.txid r.tx.saplingBundle) outputs) :
    (∀ o ∈ outputs, o.Documented r) ↔ ∀ bundle, r.tx.saplingBundle = some bundle → ∀ i output,
      bundle.shieldedOutputs[i]? = some output →
        Told lib.trySaplingNoteDecryption lib.trySaplingOutputRecovery (saplingIvks r.ufvks)
            (ovks r.ufvks) (wallet.sentNote r.txid (poolCode .sapling) i) output ∨
          DecryptsInternally lib.trySaplingNoteDecryption (saplingIvks r.ufvks) output := by
  cases hbundle : r.tx.saplingBundle with
  | none =>
      rw [hbundle] at h
      obtain rfl := gives_pure.mp h
      exact iff_of_true (by rintro _ ⟨⟩) (by rintro _ ⟨⟩)
  | some bundle =>
      rw [hbundle] at h
      have hreceived : ∀ i output, bundle.shieldedOutputs[i]? = some output → ∀ o : Output lib,
          o.pool = poolSapling → o.output = some i → o.action = none → (o.InternallyReceived r ↔
            DecryptsInternally lib.trySaplingNoteDecryption (saplingIvks r.ufvks) output) :=
        fun _ _ hi _ hpool hindex _ => internallyReceived_sapling hpool hbundle hi hindex
      refine (shieldedOutputs_documented_iff h hreceived).trans ?_
      constructor
      · rintro hall _ ⟨⟩
        exact hall
      · intro hall
        exact hall bundle rfl

theorem orchardFamilyOutputs_documented_iff (ver : DomainVersion) {outputs : List (Output lib)}
    (h : Gives (orchardFamilyOutputs wallet ver r.ufvks r.txid (r.tx.familyBundle ver) ver.pool
      ver.poolName) outputs) :
    (∀ o ∈ outputs, o.Documented r) ↔ ∀ bundle, r.tx.familyBundle ver = some bundle →
      ∀ i action, (bundle.actions.map (·.2))[i]? = some action →
        Told (lib.tryNoteDecryption ver) (lib.tryOutputRecoveryWithOvk ver) (orchardIvks r.ufvks)
            (ovks r.ufvks) (wallet.sentNote r.txid (poolCode ver.pool) i) action ∨
          DecryptsInternally (lib.tryNoteDecryption ver) (orchardIvks r.ufvks) action := by
  have hindex : ∀ i, actionIndex ver.pool i = some i := by
    intro i
    cases ver with
    | orchardVersion => rfl
    | ironwoodVersion => rfl
  cases hbundle : r.tx.familyBundle ver with
  | none =>
      rw [hbundle] at h
      obtain rfl := gives_pure.mp h
      exact iff_of_true (by rintro _ ⟨⟩) (by rintro _ ⟨⟩)
  | some bundle =>
      rw [hbundle] at h
      refine (shieldedOutputs_documented_iff h ?_).trans ?_
      · intro i action hi o hpool _ haction
        exact internallyReceived_orchardFamily hpool hbundle hi (haction.trans (hindex i))
      · constructor
        · rintro hall _ ⟨⟩
          exact hall
        · intro hall
          exact hall bundle rfl

/-! ### The call -/

/-- A call that returns has read the transaction and the keys; what it reports is documented just
when what is told of all of the outputs is. -/
theorem call_documented_iff {snapshot : Except String ViewedChain} {result : ResultType lib}
    (h : Gives (call wallet snapshot txidStr) result) : ∃ r : Viewing wallet txidStr,
      (∀ o ∈ result.outputs, o.Documented r) ↔ r.Consistent := by
  simp only [call, gives_bind, gives_mapErr, gives_okOr, gives_pure] at h
  obtain ⟨txid, hparsed, chain, -, found, hfound, tx, rfl, accountIds, haccounts, ufvks, hkeys,
    transparent, -, sapling, -, orchard, -, ironwood, -, saplingOut, hsapling, orchardOut, horchard,
    ironwoodOut, hironwood, -, -, -, -, -, -, -, -, -, -, rfl⟩ := h
  let r : Viewing wallet txidStr := ⟨txid, tx, accountIds, ufvks, hparsed, hfound, haccounts, hkeys⟩
  have hsapling := saplingOutputs_documented_iff (r := r) hsapling
  have horchard := orchardFamilyOutputs_documented_iff (r := r) .orchardVersion horchard
  have hironwood := orchardFamilyOutputs_documented_iff (r := r) .ironwoodVersion hironwood
  refine ⟨r, ?_⟩
  dsimp only
  rw [List.forall_mem_append, List.forall_mem_append, List.forall_mem_append,
    transparentOutputs_documented_iff (r := r), hsapling, horchard, hironwood]
  constructor
  · rintro ⟨⟨⟨ht, hs⟩, ho⟩, hi⟩
    refine ⟨ht, hs, ?_⟩
    intro ver
    cases ver with
    | orchardVersion => exact ho
    | ironwoodVersion => exact hi
  · rintro ⟨ht, hs, hfamily⟩
    exact ⟨⟨⟨ht, hs⟩, hfamily .orchardVersion⟩, hfamily .ironwoodVersion⟩

end

end ViewTransaction

open ViewTransaction

/-- What `z_listunspent` reports is documented just when no internal address is named by the script
of what is unspent there, and what `z_viewtransaction` reports just when the transaction is
`Consistent`: no transparent output is at an internal address of the account it is attributed to,
and no other output is told without an address that no internal incoming key decrypts. -/
theorem walletInternal_iff (lib : ViewLib) (wallet : WalletDb lib) (params : ListUnspent.Params)
    (snapshot : Except String ViewedChain) (txidStr : String) :
    (∀ listed, Gives (ListUnspent.call wallet.toWalletRead params) listed → listed = [] ∨
      ∃ q, Gives (ListUnspent.parseParams wallet.toWalletRead params) (some q) ∧
        ((∀ o ∈ listed, o.Documented wallet.toWalletRead q) ↔
          ListUnspent.Unaddressed wallet.toWalletRead q)) ∧
    ∀ result, Gives (call wallet snapshot txidStr) result → ∃ r : Viewing wallet txidStr,
      (∀ o ∈ result.outputs, o.Documented r) ↔ r.Consistent := by
  refine ⟨?_, fun result h => call_documented_iff h⟩
  intro listed h
  obtain ⟨query, hquery, hlisted⟩ := gives_bind.mp h
  cases query with
  | none => exact .inl (gives_pure.mp hlisted).symm
  | some q => exact .inr ⟨q, hquery, ListUnspent.call_documented_iff h hquery⟩

/-! ## A wallet with change -/

theorem outputValue_le : 10000 ≤ maxMoney := by decide

theorem noteValue_le : 20000 ≤ maxMoney := by decide

/-- Notes that are decrypted with the key they were made for. -/
def ownKeys : ViewLib where
  toAddressLib := ListUnspent.singleReceivers
  SaplingIvk := Scope
  OrchardIvk := Scope
  Ovk := Scope
  SaplingOutput := Scope
  OrchardAction := Scope
  parseTxid _ := some ⟨9⟩
  trySaplingNoteDecryption ivk output := if ivk = output then some ⟨20000, (5 : ℕ), []⟩ else none
  trySaplingOutputRecovery _ _ := none
  tryNoteDecryption _ ivk output := if ivk = output then some ⟨20000, (5 : ℕ), []⟩ else none
  tryOutputRecoveryWithOvk _ _ _ := none
  zcashAddressFromSapling := fun (address : ℕ) => "zs1" ++ toString address
  zcashAddressFromOrchard := fun (address : ℕ) => some ("u1" ++ toString address)
  memoFromBytes bytes := some (.other bytes)
  zatBalanceFromI64 n := if h : |n| ≤ maxMoney then .ok ⟨n, h⟩ else .error "out of range"
  chainHeightUnknown := "Chain height unknown"

def changeKeys : FullViewingKey ownKeys := ⟨none, some ⟨id, id⟩, none⟩

def changeAddress : TransparentAddress := ⟨7⟩

/-- One transparent output at this address, and one Sapling output of the internal key. -/
def changeTransaction (address : TransparentAddress) : FullTransaction ownKeys where
  txid := ⟨9⟩
  header := 5
  expiryHeight := 0
  transparentBundle := some ⟨[], [⟨⟨10000, outputValue_le⟩, some address⟩], false⟩
  saplingBundle := some ⟨[], [Scope.internal]⟩
  orchardBundle := none
  ironwoodBundle := none
  feePaid _ := .ok none

/-- An account with an internal transparent address; nothing of it is unspent. -/
def changeWallet (tx : FullTransaction ownKeys) : WalletDb ownKeys where
  chainHeight := .ok (some 10)
  getAccountIds := .ok [⟨0⟩]
  getAccount _ := .ok (some .spending)
  getTransparentReceivers _ _ _ := .ok []
  getTransparentAddressMetadata _ address :=
    .ok (if address = changeAddress then some ⟨some .internal⟩ else none)
  getSpendableTransparentOutputs _ _ _ _ := .ok []
  selectUnspentNotes _ _ _ := .ok ⟨[⟨⟨9⟩, 0, (5 : ℕ), ⟨20000, noteValue_le⟩, .internal⟩], [], []⟩
  getMemo _ := .ok none
  getTxHeight _ := .ok none
  getTransaction _ := .ok (some tx)
  getUnifiedFullViewingKeys := .ok [(⟨0⟩, changeKeys)]
  receivedNote _ _ := .ok none
  sentNote _ _ _ := .ok none
  balanceDeltas _ := .ok []

def quietChain : ViewedChain where
  tip := .ok ⟨10, ⟨10⟩⟩
  getTransaction _ := .ok none
  getBlock _ := .ok none

theorem change_listed : ∃ listed,
    Gives (ListUnspent.call (changeWallet (changeTransaction ⟨8⟩)).toWalletRead
      ListUnspent.defaults) listed ∧ ∃ o ∈ listed, o.walletInternal = true :=
  ⟨_, rfl, _, .head _, rfl⟩

theorem change_viewed (address : TransparentAddress) : ∃ result,
    Gives (call (changeWallet (changeTransaction address)) (.ok quietChain) "09") result ∧
      ∃ o ∈ result.outputs, o.walletInternal = true := ⟨_, rfl, _, .tail _ (.head _), rfl⟩

theorem change_unaddressed (tx : FullTransaction ownKeys) (q : ListUnspent.Query _) :
    ListUnspent.Unaddressed (changeWallet tx).toWalletRead q := by
  intro accounts _ account _ utxos hutxos utxo hutxo
  have hnone : Gives (ListUnspent.accountUtxos (changeWallet tx).toWalletRead q account) [] := rfl
  rw [hutxos.unique hnone] at hutxo
  cases hutxo

/-- Where the transparent output is not the wallet's. -/
theorem change_consistent (r : Viewing (changeWallet (changeTransaction ⟨8⟩)) "09") :
    r.Consistent := by
  have htx : changeTransaction ⟨8⟩ = r.tx := Option.some.inj (Except.ok.inj r.found)
  have hids : [⟨0⟩] = r.accountIds := Except.ok.inj r.accounts
  have hkeys : [(⟨0⟩, changeKeys)] = r.ufvks := Except.ok.inj r.keys
  refine ⟨?_, ?_, ?_⟩
  · rw [← htx, ← hids]
    rintro _ ⟨⟩ output houtput address haddress
    obtain rfl := List.mem_singleton.mp houtput
    cases haddress
    rintro ⟨⟩
  · rw [← htx, ← hkeys]
    rintro _ ⟨⟩ i output hi
    obtain rfl := List.mem_singleton.mp (List.mem_of_getElem? hi)
    exact .inr ⟨⟨⟨0⟩, .internal, .internal⟩, .tail _ (.head _), rfl, rfl⟩
  · rw [← htx]
    intro ver bundle hbundle
    cases ver with
    | orchardVersion => cases hbundle
    | ironwoodVersion => cases hbundle

theorem walletInternal_iff_change :
    (∃ listed q, Gives (ListUnspent.call (changeWallet (changeTransaction ⟨8⟩)).toWalletRead
        ListUnspent.defaults) listed ∧
      Gives (ListUnspent.parseParams (changeWallet (changeTransaction ⟨8⟩)).toWalletRead
        ListUnspent.defaults) (some q) ∧ (∃ o ∈ listed, o.walletInternal = true) ∧
      ∀ o ∈ listed, o.Documented (changeWallet (changeTransaction ⟨8⟩)).toWalletRead q) ∧
    ∃ result, Gives (call (changeWallet (changeTransaction ⟨8⟩)) (.ok quietChain) "09") result ∧
      (∃ o ∈ result.outputs, o.walletInternal = true) ∧
        ∃ r : Viewing (changeWallet (changeTransaction ⟨8⟩)) "09",
          ∀ o ∈ result.outputs, o.Documented r := by
  obtain ⟨hlist, hview⟩ := walletInternal_iff ownKeys (changeWallet (changeTransaction ⟨8⟩))
    ListUnspent.defaults (.ok quietChain) "09"
  constructor
  · obtain ⟨listed, hlisted, hinternal⟩ := change_listed
    rcases hlist listed hlisted with rfl | ⟨q, hq, hiff⟩
    · obtain ⟨o, ho, -⟩ := hinternal
      cases ho
    · exact ⟨listed, q, hlisted, hq, hinternal, hiff.mpr (change_unaddressed _ q)⟩
  · obtain ⟨result, hresult, hinternal⟩ := change_viewed ⟨8⟩
    obtain ⟨r, hiff⟩ := hview result hresult
    exact ⟨result, hresult, hinternal, r, hiff.mpr (change_consistent r)⟩

/-- Transparent change is told as internal, and with its address. -/
theorem transparent_change_addressed : ∃ result,
    Gives (call (changeWallet (changeTransaction changeAddress)) (.ok quietChain) "09") result ∧
      ∃ o ∈ result.outputs, o.walletInternal = true ∧ o.address = some "t17" ∧
        ∀ r : Viewing (changeWallet (changeTransaction changeAddress)) "09", ¬ o.Documented r := by
  refine ⟨_, rfl, _, .head _, rfl, rfl, ?_⟩
  intro r hdocumented
  cases hdocumented.address rfl

end Zallet
