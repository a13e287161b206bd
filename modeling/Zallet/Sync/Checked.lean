/-
# `Zallet.Sync.Checked` — up to where an address is recorded as checked

Without a spend index, `service_address_request` looks for the spends of the
wallet's outputs at an address and then tells the wallet up to which height it
looked.  The wallet never asks again below that height, so a height that was
not looked at hides its spends for good.

`recordsChecked_iff` says when what is recorded is right: the request may not
start above the block after the tip, may not be the empty range at the
genesis block, and the view has to know the spending transactions that it
lists.  A call that fails never leaves a record.
-/
import Zallet.Sync.Requests
import Zallet.Prog.Outcome

namespace Zallet

variable {V : Type}

open Prog

/-! ## The view's chain -/

/-- What the address queries read of a mined transaction. -/
structure MinedTx where
  height : Nat
  txid : TxId
  spends : List OutPoint
  /-- the address of each output -/
  outputs : List TransparentAddress
  deriving DecidableEq, Repr

def MinedTx.outpointsAt (tx : MinedTx) (address : TransparentAddress) : List OutPoint :=
  ((List.range tx.outputs.length).filter fun n => tx.outputs[n]? = some address).map
    fun n => ⟨tx.txid, n⟩

section
variable (txs : List MinedTx) (address : TransparentAddress)

/-- The outputs that the transactions spend. -/
def spentOutpoints : List OutPoint := txs.flatMap (·.spends)

/-- The outputs at the address. -/
def receivedAt : List OutPoint := txs.flatMap (·.outpointsAt address)

/-- What `get_address_unspent_outpoints` is asked for. -/
def unspentAt : List OutPoint :=
  (receivedAt txs address).filter fun outpoint => outpoint ∉ spentOutpoints txs

/-- What `get_address_tx_ids` is asked for: the transactions mined in `start..stop` that pay to the
address, or spend an output at it. -/
def txIdsAt (start stop : Nat) : List TxId :=
  (txs.filter fun tx => start ≤ tx.height ∧ tx.height < stop ∧
    (address ∈ tx.outputs ∨ ∃ outpoint ∈ tx.spends, outpoint ∈ receivedAt txs address)).map (·.txid)

end

/-- A view's chain, and the wallet's outputs on it. -/
structure AddressChain where
  tip : Nat
  txs : List MinedTx
  /-- what `get_transaction` finds -/
  lookup : TxId → Option ChainTx
  /-- the outputs that the wallet tracks as spendable at each address -/
  tracked : TransparentAddress → List OutPoint
  height_le : ∀ tx ∈ txs, tx.height ≤ tip
  lookup_txid : ∀ txid tx, lookup txid = some tx → tx.inner.txid = txid
  tracked_received : ∀ address, ∀ outpoint ∈ tracked address,
    outpoint ∈ spentOutpoints txs → outpoint ∈ receivedAt txs address

/-- The answers about that chain and those outputs, errors apart; the order of a list is the
backend's. -/
def AddressChain.Tells (chain : AddressChain) : SyncEvent V → Prop
  | ⟨.getAddressUnspentOutpoints _ address, .ok outpoints⟩ =>
      ∀ outpoint, outpoint ∈ outpoints ↔ outpoint ∈ unspentAt chain.txs address
  | ⟨.getAddressTxIds _ address start stop, .ok txids⟩ =>
      ∀ txid, txid ∈ txids ↔ txid ∈ txIdsAt chain.txs address start stop
  | ⟨.getTransaction _ txid, .ok tx⟩ => tx = chain.lookup txid
  | ⟨.getSpendableTransparentOutputs address _, .ok outpoints⟩ => outpoints = chain.tracked address
  | _ => True

theorem not_spent_of_unspent {txs : List MinedTx} {address : TransparentAddress}
    {outpoint : OutPoint} (h : outpoint ∈ unspentAt txs address) :
    outpoint ∉ spentOutpoints txs := by
  have hnot := (List.mem_filter.mp h).2
  exact of_decide_eq_true hnot

theorem spender_listed {txs : List MinedTx} {address : TransparentAddress} {outpoint : OutPoint}
    {tx : MinedTx} {start stop : Nat} (htx : tx ∈ txs) (hspends : outpoint ∈ tx.spends)
    (hreceived : outpoint ∈ receivedAt txs address) (hstart : start ≤ tx.height)
    (hstop : tx.height < stop) : tx.txid ∈ txIdsAt txs address start stop := by
  have hlisted : start ≤ tx.height ∧ tx.height < stop ∧
      (address ∈ tx.outputs ∨ ∃ outpoint ∈ tx.spends, outpoint ∈ receivedAt txs address) :=
    ⟨hstart, hstop, .inr ⟨outpoint, hspends, hreceived⟩⟩
  exact List.mem_map_of_mem (List.mem_filter.mpr ⟨htx, decide_eq_true hlisted⟩)

/-! ## What has to hold of a record -/

/-- The range to query for a request, and the height to record. -/
abbrev AddressRequest.bounds (request : AddressRequest) (viewTip : Nat) : (Nat × Nat) × Nat :=
  addressRequestBounds request.blockRangeStart request.blockRangeEnd viewTip

/-- The call failed. -/
def CallFailed (e : SyncEvent V) : Prop := (chainErrorOf e).isSome ∨ (dbErrorOf e).isSome

/-- A transaction of that id was stored. -/
def Ingested (tr : SyncTrace V) (txid : TxId) : Prop :=
  ∃ tx minedHeight, tx.txid = txid ∧ ⟨.decryptAndStoreTransaction tx minedHeight, .ok ()⟩ ∈ tr

/-- After `tr`, the address may be recorded as checked at this height. -/
structure Searched (chain : AddressChain) (request : AddressRequest) (tr : SyncTrace V)
    (asOfHeight : Nat) : Prop where
  tip : asOfHeight ≤ chain.tip
  /-- the recorded heights are in the range that is queried -/
  queried : ∀ height, request.blockRangeStart ≤ height → height ≤ asOfHeight →
    (request.bounds chain.tip).1.1 ≤ height ∧
    height < (request.bounds chain.tip).1.2
  /-- the spends at the recorded heights were ingested -/
  ingested : ∀ outpoint ∈ chain.tracked request.address, ∀ tx ∈ chain.txs, outpoint ∈ tx.spends →
    request.blockRangeStart ≤ tx.height → tx.height ≤ asOfHeight → Ingested tr tx.txid

/-- Only what was searched is recorded as checked, and nothing when a call failed. -/
structure RecordsChecked (chain : AddressChain) (request : AddressRequest) (tr : SyncTrace V) :
    Prop where
  searched : ∀ l m request' asOfHeight,
    tr = l ++ ⟨.notifyAddressChecked request' asOfHeight, .ok ()⟩ :: m →
    request' = request ∧ Searched chain request l asOfHeight
  failed : (∃ e ∈ tr, CallFailed e) → ∀ request' asOfHeight,
    ⟨.notifyAddressChecked request' asOfHeight, .ok ()⟩ ∉ tr

/-- The requests that are recorded rightly. -/
structure Searchable (chain : AddressChain) (request : AddressRequest) : Prop where
  start_le : request.blockRangeStart ≤ chain.tip + 1
  not_empty : ¬ (request.blockRangeStart = 0 ∧ request.blockRangeEnd = some 0)
  /-- the view knows the transactions that spend the wallet's outputs in the range -/
  known : ∀ outpoint ∈ chain.tracked request.address, ∀ tx ∈ chain.txs, outpoint ∈ tx.spends →
    request.blockRangeStart ≤ tx.height →
    (∀ stop, request.blockRangeEnd = some stop → tx.height < stop) → chain.lookup tx.txid ≠ none

/-! ## The bounds -/

section
variable {start tip height : Nat} {stop : Option Nat}

/-- The height that is recorded is the last of the range, except when the range is `0..0`. -/
theorem addressRequestBounds_asOf (h : ¬ (start = 0 ∧ stop = some 0)) :
    (addressRequestBounds start stop tip).2 + 1 = (addressRequestBounds start stop tip).1.2 := by
  have hpos : 0 < (addressRequestBounds start stop tip).1.2 := by
    cases stop with
    | none =>
        show 0 < max (tip + 1) start
        omega
    | some e =>
        have hne : ¬ (start = 0 ∧ e = 0) := by
          rintro ⟨hstart, he⟩
          exact h ⟨hstart, congrArg some he⟩
        show 0 < max (min e (tip + 1)) start
        omega
  exact Nat.sub_add_cancel hpos

theorem addressRequestBounds_le_tip (h : start ≤ tip + 1) :
    (addressRequestBounds start stop tip).2 ≤ tip := by
  cases stop with
  | none =>
      show max (tip + 1) start - 1 ≤ tip
      omega
  | some e =>
      show max (min e (tip + 1)) start - 1 ≤ tip
      omega

theorem start_le_of_asOf (h : (addressRequestBounds start stop tip).2 ≤ tip) : start ≤ tip + 1 := by
  cases stop with
  | none =>
      have h : max (tip + 1) start - 1 ≤ tip := h
      omega
  | some e =>
      have h : max (min e (tip + 1)) start - 1 ≤ tip := h
      omega

theorem lt_stop_of_asOf (hstart : start ≤ height)
    (hheight : height < (addressRequestBounds start stop tip).1.2) :
    ∀ e, stop = some e → height < e := by
  rintro e rfl
  have hheight : height < max (min e (tip + 1)) start := hheight
  omega

theorem lt_bounds_stop (hstart : start ≤ height) (htip : height ≤ tip)
    (hstop : ∀ e, stop = some e → height < e) :
    height < (addressRequestBounds start stop tip).1.2 := by
  cases stop with
  | none =>
      show height < max (tip + 1) start
      omega
  | some e =>
      have he := hstop e rfl
      show height < max (min e (tip + 1)) start
      omega

end

/-! ## What is done before the record -/

/-- Nothing failed so far, and nothing is recorded. -/
def Unrecorded (tr : SyncTrace V) : Prop :=
  ∀ e ∈ tr, ¬ CallFailed e ∧
    ∀ request asOfHeight, e ≠ ⟨.notifyAddressChecked request asOfHeight, .ok ()⟩

/-- Calls are only made while nothing failed and nothing is recorded; what is recorded was
searched. -/
def RecordsLast (chain : AddressChain) (request : AddressRequest) (tr : SyncTrace V) (op : Op V) :
    Prop :=
  Unrecorded tr ∧ ∀ request' asOfHeight, op = .notifyAddressChecked request' asOfHeight →
    request' = request ∧ Searched chain request tr asOfHeight

/-- The transaction was stored if the view knows it. -/
def Fetched (chain : AddressChain) (tr : SyncTrace V) (txid : TxId) : Prop :=
  chain.lookup txid ≠ none → Ingested tr txid

/-- The world of that chain, which demands that records come last. -/
abbrev checking (chain : AddressChain) (request : AddressRequest) :
    World (syncSig V) (SyncTrace V) :=
  .recall chain.Tells (RecordsLast chain request) fun _ => False

theorem Unrecorded.nil : Unrecorded ([] : SyncTrace V) := by
  intro e he
  cases he

theorem Unrecorded.next {tr : SyncTrace V} {e : SyncEvent V} (h : Unrecorded tr)
    (hwent : ¬ CallFailed e)
    (hother : ∀ request asOfHeight, e ≠ ⟨.notifyAddressChecked request asOfHeight, .ok ()⟩) :
    Unrecorded (tr ++ [e]) := by
  intro e' he'
  rcases List.mem_append.mp he' with he' | he'
  · exact h e' he'
  · rw [List.mem_singleton.mp he']
    exact ⟨hwent, hother⟩

theorem Ingested.mono {tr tr' : SyncTrace V} {txid : TxId} (h : Ingested tr txid)
    (hsub : tr ⊆ tr') : Ingested tr' txid := by
  obtain ⟨tx, minedHeight, htxid, hmem⟩ := h
  exact ⟨tx, minedHeight, htxid, hsub hmem⟩

theorem Fetched.mono {chain : AddressChain} {tr tr' : SyncTrace V} {txid : TxId}
    (h : Fetched chain tr txid) (hsub : tr ⊆ tr') : Fetched chain tr' txid := by
  intro hknown
  exact (h hknown).mono hsub

section
variable {chain : AddressChain} {request : AddressRequest} {view : V}

theorem fetchAndStore_checks {tr : SyncTrace V} {txid : TxId} (htr : Unrecorded tr) :
    wp (checking chain request) (fetchAndStore view txid)
      (fun tr' _ => Unrecorded tr' ∧ tr ⊆ tr' ∧ Fetched chain tr' txid) (fun _ _ => True) tr := by
  simp only [fetchAndStore, wp_bind, wp_chainCall]
  refine ⟨⟨htr, by rintro _ _ ⟨⟩⟩, ?_⟩
  rintro (e | found) tr₁ ⟨htells, rfl⟩
  · trivial
  · have hfound : found = chain.lookup txid := htells
    have htr₁ := htr.next (e := ⟨.getTransaction view txid, .ok found⟩)
      (by rintro (h | h) <;> cases h) (by rintro _ _ ⟨⟩)
    cases found with
    | none =>
        refine ⟨htr₁, List.subset_append_left _ _, ?_⟩
        intro hknown
        exact absurd hfound.symm hknown
    | some tx =>
        show wp _ (_ >>= _) _ _ _
        rw [wp_bind, wp_dbCall]
        refine ⟨⟨htr₁, by rintro _ _ ⟨⟩⟩, ?_⟩
        rintro (e | ⟨⟩) tr₂ ⟨-, rfl⟩
        · trivial
        · refine ⟨htr₁.next (by rintro (h | h) <;> cases h) (by rintro _ _ ⟨⟩), ?_, ?_⟩
          · rw [List.append_assoc]
            exact List.subset_append_left _ _
          · intro _
            exact ⟨tx.inner, tx.minedHeight, chain.lookup_txid txid tx hfound.symm,
              List.mem_append_right _ (List.mem_singleton_self _)⟩

theorem fetchAll_checks {tr : SyncTrace V} {txids : List TxId} (htr : Unrecorded tr) :
    wp (checking chain request)
      (forM txids fun txid => do
        let _ ← fetchAndStore view txid
        pure ())
      (fun tr' _ => Unrecorded tr' ∧ ∀ txid ∈ txids, Fetched chain tr' txid)
      (fun _ _ => True) tr := by
  refine wp_forM (fun visited tr' => Unrecorded tr' ∧ ∀ txid ∈ visited, Fetched chain tr' txid)
    ⟨htr, by rintro _ ⟨⟩⟩ ?_
  rintro visited txid rest tr' - ⟨htr', hfetched⟩
  rw [wp_bind]
  refine wp_mono ?_ (fun _ _ h => h) (fetchAndStore_checks htr')
  rintro tr'' _ ⟨htr'', hsub, hfetch⟩
  refine ⟨htr'', ?_⟩
  intro txid' htxid'
  rcases List.mem_append.mp htxid' with htxid' | htxid'
  · exact (hfetched txid' htxid').mono hsub
  · rw [List.mem_singleton.mp htxid']
    exact hfetch

/-- The record of a searchable request, once the spends in its range were ingested. -/
theorem Searchable.searched (h : Searchable chain request) {tr : SyncTrace V}
    (hingested : ∀ outpoint ∈ chain.tracked request.address, ∀ tx ∈ chain.txs,
      outpoint ∈ tx.spends → request.blockRangeStart ≤ tx.height →
      tx.height <
        (request.bounds chain.tip).1.2 →
      chain.lookup tx.txid ≠ none → Ingested tr tx.txid) :
    Searched chain request tr
      (request.bounds chain.tip).2 := by
  have hasOf : (request.bounds chain.tip).2 + 1 = (request.bounds chain.tip).1.2 :=
    addressRequestBounds_asOf h.not_empty
  refine ⟨addressRequestBounds_le_tip h.start_le, ?_, ?_⟩
  · intro height hstart hheight
    exact ⟨hstart, by omega⟩
  · intro outpoint htracked tx htx hspends hstart hheight
    have hstop : tx.height <
        (request.bounds chain.tip).1.2 := by
      omega
    exact hingested outpoint htracked tx htx hspends hstart hstop
      (h.known outpoint htracked tx htx hspends hstart (lt_stop_of_asOf hstart hstop))

theorem notify_checks {tr : SyncTrace V} {asOfHeight : Nat} (htr : Unrecorded tr)
    (h : Searched chain request tr asOfHeight) :
    wp (checking (V := V) chain request) (dbCall (.notifyAddressChecked request asOfHeight) id)
      (fun _ _ => True) (fun _ _ => True) tr := by
  rw [wp_dbCall]
  refine ⟨⟨htr, ?_⟩, ?_⟩
  · rintro request' asOfHeight' heq
    cases heq
    exact ⟨rfl, h⟩
  · rintro (e | ⟨⟩) _ _ <;> trivial

theorem serviceAddressRequest_checks (h : Searchable chain request) :
    wp (checking chain request) (serviceAddressRequest view request chain.tip) (fun _ _ => True)
      (fun _ _ => True) [] := by
  simp only [serviceAddressRequest, wp_bind, wp_chainCall, wp_dbCall]
  refine ⟨⟨.nil, by rintro _ _ ⟨⟩⟩, ?_⟩
  rintro (e | chainUnspent) tr₁ ⟨hunspent, rfl⟩
  · trivial
  have htr₁ := Unrecorded.nil.next
    (e := ⟨.getAddressUnspentOutpoints view request.address, .ok chainUnspent⟩)
    (by rintro (h | h) <;> cases h) (by rintro _ _ ⟨⟩)
  refine ⟨⟨htr₁, by rintro _ _ ⟨⟩⟩, ?_⟩
  rintro (e | ourOutputs) tr₂ ⟨hours, rfl⟩
  · trivial
  obtain rfl : ourOutputs = chain.tracked request.address := hours
  have htr₂ := htr₁.next (e := ⟨.getSpendableTransparentOutputs request.address (chain.tip + 1),
    .ok (chain.tracked request.address)⟩) (by rintro (h | h) <;> cases h) (by rintro _ _ ⟨⟩)
  show wp _ (ite _ _ _) _ _ _
  split
  case isTrue =>
    simp only [wp_bind, wp_chainCall]
    refine ⟨⟨htr₂, by rintro _ _ ⟨⟩⟩, ?_⟩
    rintro (e | txids) tr₃ ⟨hlisted, rfl⟩
    · trivial
    have htr₃ := htr₂.next (e := ⟨.getAddressTxIds view request.address
      (request.bounds chain.tip).1.1
      (request.bounds chain.tip).1.2, .ok txids⟩)
      (by rintro (h | h) <;> cases h) (by rintro _ _ ⟨⟩)
    refine wp_mono ?_ (fun _ _ h => h) (fetchAll_checks htr₃)
    rintro tr ⟨⟩ ⟨htr, hfetched⟩
    refine notify_checks htr (h.searched ?_)
    intro outpoint htracked tx htx hspends hstart hstop hknown
    have hreceived := chain.tracked_received _ outpoint htracked
      (List.mem_flatMap.mpr ⟨tx, htx, hspends⟩)
    have hlist := (hlisted tx.txid).mpr (spender_listed htx hspends hreceived hstart hstop)
    exact hfetched tx.txid hlist hknown
  case isFalse hany =>
    refine notify_checks htr₂ (h.searched ?_)
    intro outpoint htracked tx htx hspends
    -- an output that the chain has as unspent has no spender
    have hin : outpoint ∈ chainUnspent := by
      by_contra hout
      exact hany (List.any_eq_true.mpr ⟨outpoint, htracked, by simpa using hout⟩)
    exact absurd (List.mem_flatMap.mpr ⟨tx, htx, hspends⟩)
      (not_spent_of_unspent ((hunspent outpoint).mp hin))

/-- What comes last is right about all that came before. -/
theorem recordsChecked_of (h : Searchable chain request) {tr : SyncTrace V} {q : Sync V Unit}
    (hrun : Run (serviceAddressRequest view request chain.tip) tr q)
    (htells : ∀ e ∈ tr, chain.Tells e) : RecordsChecked chain request tr := by
  have hlast : ∀ l e m, tr = l ++ e :: m → RecordsLast chain request l e.op := by
    rintro l e m rfl
    refine (serviceAddressRequest_checks h).allowed hrun ?_
    intro e' he'
    exact htells e' (List.mem_append_left _ he')
  refine ⟨?_, ?_⟩
  · intro l m request' asOfHeight htr
    exact (hlast l _ m htr).2 request' asOfHeight rfl
  · rintro ⟨e, he, hfailed⟩ request' asOfHeight hrecord
    obtain ⟨l, m, htr⟩ := List.append_of_mem hrecord
    cases m with
    | nil =>
        rw [htr] at he
        rcases List.mem_append.mp he with he | he
        · exact ((hlast l _ [] htr).1 e he).1 hfailed
        · rw [List.mem_singleton.mp he] at hfailed
          rcases hfailed with h | h <;> cases h
    | cons e' m =>
        have hunrecorded := (hlast (l ++ [_]) e' m (by rw [htr, List.append_assoc]; rfl)).1
        exact (hunrecorded _ (List.mem_append_right l (List.mem_singleton_self _))).2 _ _ rfl

/-! ## What a record needs -/

theorem fetchAndStore_outcome (txid : TxId) :
    Outcome chain.Tells (fetchAndStore view txid) (.ok (chain.lookup txid).isSome) := by
  have htold : chain.Tells (⟨.getTransaction view txid, .ok (chain.lookup txid)⟩ : SyncEvent V) :=
    rfl
  refine .bind (.query htold rfl) ?_
  cases chain.lookup txid with
  | none => exact .pure
  | some tx =>
      have hstored : chain.Tells
        (⟨.decryptAndStoreTransaction tx.inner tx.minedHeight, .ok ()⟩ : SyncEvent V) := trivial
      exact .bind (.query hstored rfl) .pure

/-- The service may come to its record. -/
theorem serviceAddressRequest_outcome :
    Outcome chain.Tells (serviceAddressRequest view request chain.tip) (.ok ()) := by
  let bounds := request.bounds chain.tip
  have hunspent : chain.Tells (⟨.getAddressUnspentOutpoints view request.address,
      .ok (unspentAt chain.txs request.address)⟩ : SyncEvent V) := fun _ => Iff.rfl
  have htracked : chain.Tells (⟨.getSpendableTransparentOutputs request.address (chain.tip + 1),
      .ok (chain.tracked request.address)⟩ : SyncEvent V) := rfl
  have hlisted : chain.Tells (⟨.getAddressTxIds view request.address bounds.1.1 bounds.1.2,
      .ok (txIdsAt chain.txs request.address bounds.1.1 bounds.1.2)⟩ : SyncEvent V) :=
    fun _ => Iff.rfl
  have hrecorded : chain.Tells (⟨.notifyAddressChecked request bounds.2, .ok ()⟩ : SyncEvent V) :=
    trivial
  refine .bind (.query hunspent rfl) (.bind (.query htracked rfl) ?_)
  split
  · refine .bind (.query hlisted rfl) (.bind (.forM fun txid _ => ?_) (.query hrecorded rfl))
    exact .bind (fetchAndStore_outcome txid) .pure
  · exact .query hrecorded rfl

/-- A service that returns ends with its record. -/
theorem serviceAddressRequest_records {tr : SyncTrace V}
    (hrun : Run (serviceAddressRequest view request chain.tip) tr (.ret ())) :
    ∃ l, tr = l ++ [⟨.notifyAddressChecked request
      (request.bounds chain.tip).2, .ok ()⟩] := by
  obtain ⟨unspent, _, l₁, rfl, -, hrun⟩ := chainCall_bind_ret hrun
  obtain ⟨tracked, ours, l₂, rfl, -, hrun⟩ := dbCall_bind_ret hrun
  have hnotified : ∀ {l : SyncTrace V} {asOfHeight : Nat},
      Run (dbCall (.notifyAddressChecked request asOfHeight) id : Sync V Unit) l (.ret ()) →
      l = [⟨.notifyAddressChecked request asOfHeight, .ok ()⟩] := by
    intro l asOfHeight h
    obtain ⟨a, rfl, ha⟩ := h.query_ret
    obtain rfl : a = .ok () := mapError_eq_ok.mp ha
    rfl
  split at hrun
  · obtain ⟨listed, txids, l₃, rfl, -, hrun⟩ := chainCall_bind_ret hrun
    obtain ⟨_, l₄, l₅, rfl, -, hrun⟩ := hrun.bind_ret
    rw [hnotified hrun]
    exact ⟨_ :: _ :: _ :: l₄, rfl⟩
  · rw [hnotified hrun]
    exact ⟨[_, _], rfl⟩

/-- What was stored is known to the view. -/
theorem ingested_known {tr : SyncTrace V} {q : Sync V Unit} {txid : TxId}
    (hrun : Run (serviceAddressRequest view request chain.tip) tr q)
    (htells : ∀ e ∈ tr, chain.Tells e) (h : Ingested tr txid) : chain.lookup txid ≠ none := by
  obtain ⟨tx, minedHeight, rfl, hmem⟩ := h
  obtain ⟨l, m, rfl⟩ := List.append_of_mem hmem
  obtain ⟨l', view', txid', fetched, rfl, rfl, -⟩ :=
    (serviceAddressRequest_fetching []).allowed hrun fun _ _ => trivial
  have hfetched : some fetched = chain.lookup txid' :=
    htells ⟨.getTransaction view' txid', .ok (some fetched)⟩ (by simp)
  rw [chain.lookup_txid txid' fetched hfetched.symm, ← hfetched]
  exact Option.some_ne_none fetched

end

/-- Only a searchable request is recorded rightly. -/
theorem searchable_of {chain : AddressChain} {request : AddressRequest} {view : V}
    (h : ∀ tr q, Run (serviceAddressRequest view request chain.tip) tr q →
      (∀ e ∈ tr, chain.Tells e) → RecordsChecked chain request tr) : Searchable chain request := by
  have houtcome : Outcome chain.Tells (serviceAddressRequest view request chain.tip) (.ok ()) :=
    serviceAddressRequest_outcome
  obtain ⟨tr, hrun, htells⟩ := houtcome
  obtain ⟨l, rfl⟩ := serviceAddressRequest_records hrun
  obtain ⟨-, hsearched⟩ := (h _ _ hrun htells).searched l [] request _ rfl
  refine ⟨start_le_of_asOf hsearched.tip, ?_, ?_⟩
  · rintro ⟨hstart, hstop⟩
    have hzero := hsearched.queried 0 (Nat.le_of_eq hstart) (Nat.zero_le _)
    rw [AddressRequest.bounds, hstart, hstop] at hzero
    exact absurd hzero.2 (by simp [addressRequestBounds])
  · intro outpoint htracked tx htx hspends hstart hstop
    have hlt := lt_bounds_stop hstart (chain.height_le tx htx) hstop
    have hasOf := Nat.le_pred_of_lt hlt
    have hingested := hsearched.ingested outpoint htracked tx htx hspends hstart hasOf
    exact ingested_known hrun htells (hingested.mono (List.subset_append_left _ _))

/-- The service of an address request records rightly, on every run and up to where it got, just
if it starts at or below the block after the tip, is not the empty range at the genesis block, and
the view knows the transactions that spend the wallet's outputs in the range. -/
theorem recordsChecked_iff (chain : AddressChain) (request : AddressRequest) (view : V) :
    (∀ tr q, Run (serviceAddressRequest view request chain.tip) tr q → (∀ e ∈ tr, chain.Tells e) →
      RecordsChecked chain request tr) ↔ Searchable chain request := by
  constructor
  · exact searchable_of
  · intro h tr q hrun htells
    exact recordsChecked_of h hrun htells

/-- A chain of eleven blocks that has nothing at any address. -/
def elevenBlocks : AddressChain where
  tip := 10
  txs := []
  lookup _ := none
  tracked _ := []
  height_le := by rintro _ ⟨⟩
  lookup_txid := by rintro _ _ ⟨⟩
  tracked_received := by rintro _ _ ⟨⟩

/-- A request from two blocks above the tip is recorded as checked one block above it. -/
theorem records_above_tip :
    ¬ ∀ tr q, Run (serviceAddressRequest () ⟨⟨7⟩, 12, none⟩ elevenBlocks.tip) tr q →
      (∀ e ∈ tr, elevenBlocks.Tells e) → RecordsChecked elevenBlocks ⟨⟨7⟩, 12, none⟩ tr := by
  intro h
  exact absurd (searchable_of h).start_le (by decide)

end Zallet
