/-
# `Zallet.Sync.Requests` — what the data requests store

`data_requests` stores a transaction in one place only, `fetchAndStore`: right
after the view gave it, with the mined height the view gave
(`dataRequests_stores`).  So what the wallet believes of where a transaction is
mined is what `get_transaction` says.
-/
import Zallet.Sync.Traversal

namespace Zallet

open Prog

variable {V : Type}

/-- The last thing the backend gave is this transaction, with this mined height. -/
def JustFetched (tr : SyncTrace V) (tx : Transaction) (minedHeight : Option Nat) : Prop :=
  ∃ l view txid fetched, tr = l ++ [⟨.getTransaction view txid, .ok (some fetched)⟩] ∧
    fetched.inner = tx ∧ fetched.minedHeight = minedHeight

/-- Only what was just fetched is stored. -/
def StoresFetched (tr : SyncTrace V) : Op V → Prop
  | .decryptAndStoreTransaction tx minedHeight => JustFetched tr tx minedHeight
  | _ => True

/-- In which any answer may come, and only what was just fetched is stored. -/
abbrev fetching : World (syncSig V) (SyncTrace V) :=
  .recall (fun _ => True) StoresFetched fun _ => False

theorem fetchAndStore_fetching {view : V} {txid : TxId} : Safe fetching (fetchAndStore view txid) := by
  intro tr
  simp only [fetchAndStore, wp_bind, wp_chainCall]
  refine ⟨trivial, fun a tr₁ hstep => ?_⟩
  obtain ⟨-, rfl⟩ := hstep
  rcases a with e | _ | fetched
  · trivial
  · trivial
  · show wp _ (_ >>= _) _ _ _
    rw [wp_bind, wp_dbCall]
    refine ⟨⟨tr, view, txid, fetched, rfl, rfl, rfl⟩, fun a tr₂ _ => ?_⟩
    cases a <;> trivial

theorem fetching_quiet : AllowsQuiet (fetching (V := V)) := by
  intro tr op hquiet
  cases op with
  | decryptAndStoreTransaction tx minedHeight => cases hquiet
  | _ => trivial

theorem serviceAddressRequest_fetching {view : V} {request : AddressRequest} {viewTip : Nat} :
    Safe fetching (serviceAddressRequest view request viewTip) :=
  serviceAddressRequest_safe fetching_quiet fun _ _ => fetchAndStore_fetching

theorem dataRequests_fetching {spendIndex : Bool} :
    Safe fetching (dataRequests (V := V) spendIndex) :=
  dataRequests_safe fetching_quiet fun _ _ => fetchAndStore_fetching

/-- Whatever a run of the data requests stores, the view gave it just before, with its height. -/
theorem dataRequests_stores {spendIndex : Bool} {l m : SyncTrace V} {q : Sync V Unit}
    {tx : Transaction} {minedHeight : Option Nat} {r : Except SqliteClientError Unit}
    (h : Run (dataRequests spendIndex) (l ++ ⟨.decryptAndStoreTransaction tx minedHeight, r⟩ :: m) q) :
    JustFetched l tx minedHeight :=
  (dataRequests_fetching []).allowed h fun _ _ => trivial

end Zallet
