/-
# `Zallet.Backends` — the transaction lookups of both backends

A view's two transaction lookups are used interchangeably, so they should
agree.  `lookups_agree` says for both backends when they do, answered in one
state of the chain, and what the data requests make of it: a transaction is
stored at the height where it is mined just when the lookup that gave it was not
about a stray one.  Zebra has no strays; Zaino has (`orphan_mined`).
-/
import Zallet.Sync.Requests
import Zallet.Zebra.Transactions
import Zallet.Zaino.Transactions
import Mathlib.Data.List.Forall2

namespace Zallet

open Prog

inductive Backend where
  | zebra | zaino
  deriving DecidableEq, Repr

namespace Backend

/-- The views of a backend. -/
abbrev View : Backend → Type
  | .zebra => ZebraChainView
  | .zaino => ZainoChainView

/-- What a backend knows of transactions at a moment. -/
abbrev State : Backend → Type
  | .zebra => TxState
  | .zaino => IndexState

/-- In a state, `get_transaction` may answer so. -/
def GetsTransaction : (b : Backend) → b.State → b.View → TxId →
    Except ChainError (Option ChainTx) → Prop
  | .zebra, s, view, txid, r => Outcome s.Answers (ZebraChainView.getTransaction view txid) r
  | .zaino, s, view, txid, r => Outcome s.Answers (ZainoChainView.getTransaction view txid) r

/-- In a state, `get_transaction_status` may answer so. -/
def GetsStatus : (b : Backend) → b.State → b.View → TxId →
    Except ChainError TransactionStatus → Prop
  | .zebra, s, _, txid, r => Outcome s.Answers (ZebraChainView.getTransactionStatus txid) r
  | .zaino, s, view, txid, r => Outcome s.Answers (ZainoChainView.getTransactionStatus view txid) r

/-- Where a transaction is. -/
def whereabouts : (b : Backend) → b.State → TxId → TransactionStatus
  | .zebra, s, txid => TxState.whereabouts s txid
  | .zaino, s, txid => IndexState.whereabouts s txid

/-- The transaction is off the best chain, and its orphaned block is taken for its place. -/
def Strays : (b : Backend) → b.State → TxId → Prop
  | .zebra, _, _ => False
  | .zaino, s, txid => IndexState.Strays s txid

/-- The engine's transaction lookups are answered by the backend, in a state of its. -/
def Serves (b : Backend) (s : b.State) : SyncEvent b.View → Prop
  | ⟨.getTransaction view txid, r⟩ => b.GetsTransaction s view txid r
  | ⟨.getTransactionStatus view txid, r⟩ => b.GetsStatus s view txid r
  | _ => True

/-- Whatever is stored follows the lookup of a transaction, and is stored at the height at which
that transaction is mined on the best chain, if it is. -/
def StoresMined (b : Backend) (states : List b.State) (tr : SyncTrace b.View) : Prop :=
  ∀ l tx minedHeight r m, tr = l ++ ⟨.decryptAndStoreTransaction tx minedHeight, r⟩ :: m →
    ∃ l' view txid a s, l = l' ++ [⟨.getTransaction view txid, a⟩] ∧
      states[l'.length]? = some s ∧ minedHeight = (b.whereabouts s txid).height?

/-- No lookup that is followed by a store is about a stray transaction. -/
def FetchesNoStray (b : Backend) (states : List b.State) (tr : SyncTrace b.View) : Prop :=
  ∀ l view txid a tx minedHeight r m s,
    tr = l ++ ⟨.getTransaction view txid, a⟩ :: ⟨.decryptAndStoreTransaction tx minedHeight, r⟩ :: m →
    states[l.length]? = some s → ¬ b.Strays s txid

/-! ## One lookup -/

section
variable {b : Backend} {s : b.State} {view : b.View} {txid : TxId}

theorem getsTransaction_whereabouts {r : Option ChainTx}
    (h : b.GetsTransaction s view txid (.ok r)) :
    foundStatus r = b.whereabouts s txid ↔ ¬ b.Strays s txid := by
  cases b with
  | zebra =>
      obtain ⟨tr, hrun, hs⟩ := h
      exact iff_of_true ((getTransaction_found hrun).whereabouts hs) not_false
  | zaino =>
      obtain ⟨tr, hrun, hs⟩ := h
      exact getTransaction_whereabouts hrun hs

theorem getsStatus_whereabouts {status : TransactionStatus}
    (h : b.GetsStatus s view txid (.ok status)) : status = b.whereabouts s txid := by
  cases b with
  | zebra =>
      obtain ⟨tr, hrun, hs⟩ := h
      exact (getTransactionStatus_found hrun).whereabouts hs
  | zaino =>
      obtain ⟨tr, hrun, hs⟩ := h
      exact getTransactionStatus_whereabouts hrun hs

/-- The two lookups agree but on strays. -/
theorem lookup_agree {r : Option ChainTx} {status : TransactionStatus}
    (hr : b.GetsTransaction s view txid (.ok r)) (hs : b.GetsStatus s view txid (.ok status)) :
    Agree r status ↔ ¬ b.Strays s txid := by
  rw [agree_iff, getsStatus_whereabouts hs]
  exact getsTransaction_whereabouts hr

/-- A transaction is given its height on the best chain just when it is no stray. -/
theorem getsTransaction_height {tx : ChainTx} (h : b.GetsTransaction s view txid (.ok (some tx))) :
    tx.minedHeight = (b.whereabouts s txid).height? ↔ ¬ b.Strays s txid := by
  constructor
  · intro hheight hstray
    cases b with
    | zebra => exact hstray
    | zaino =>
        obtain ⟨tr, hrun, hs⟩ := h
        exact hstray.misplaced hrun hs hheight
  · intro hnot
    rw [← (getsTransaction_whereabouts h).mpr hnot, foundStatus_height]

end

/-! ## The data requests -/

section
variable {b : Backend} {states : List b.State} {tr : SyncTrace b.View}

/-- The state in which the request at a place of the trace was answered. -/
theorem served_at {l m : SyncTrace b.View} {e : SyncEvent b.View}
    (h : List.Forall₂ b.Serves states (l ++ e :: m)) :
    ∃ s, states[l.length]? = some s ∧ b.Serves s e := by
  induction l generalizing states with
  | nil =>
      cases h with
      | cons hs _ => exact ⟨_, rfl, hs⟩
  | cons e' l ih =>
      cases h with
      | cons _ hrest =>
          obtain ⟨s, hs, he⟩ := ih hrest
          exact ⟨s, by simpa using hs, he⟩

/-- The data requests store as mined what is mined just when no lookup they store from was about
a stray transaction. -/
theorem dataRequests_mined {spendIndex : Bool} {q : Sync b.View Unit}
    (hrun : Run (dataRequests spendIndex) tr q) (hserved : List.Forall₂ b.Serves states tr) :
    b.StoresMined states tr ↔ b.FetchesNoStray states tr := by
  constructor
  · intro h l view txid a tx minedHeight r m s htr hs
    have htr' : tr = (l ++ [⟨.getTransaction view txid, a⟩]) ++
        ⟨.decryptAndStoreTransaction tx minedHeight, r⟩ :: m := by simpa using htr
    obtain ⟨l₁, view₁, txid₁, a₁, s₁, hl₁, hs₁, hheight⟩ := h _ tx minedHeight r m htr'
    obtain ⟨rfl, hlast⟩ := List.append_inj' hl₁ rfl
    cases hlast
    obtain rfl : s = s₁ := Option.some.inj (hs.symm.trans hs₁)
    obtain ⟨l₂, view₂, txid₂, tx₂, hl₂, -, hmined⟩ := dataRequests_stores (htr' ▸ hrun)
    obtain ⟨rfl, hlast⟩ := List.append_inj' hl₂ rfl
    cases hlast
    obtain ⟨s', hs', hgets⟩ := served_at (htr ▸ hserved)
    obtain rfl : s = s' := Option.some.inj (hs.symm.trans hs')
    exact (getsTransaction_height hgets).mp (hmined.trans hheight)
  · intro h l tx minedHeight r m htr
    obtain ⟨l', view, txid, tx', rfl, -, hmined⟩ := dataRequests_stores (htr ▸ hrun)
    have htr' : tr = l' ++ ⟨.getTransaction view txid, .ok (some tx')⟩ ::
        ⟨.decryptAndStoreTransaction tx minedHeight, r⟩ :: m := by simpa using htr
    obtain ⟨s, hs, hgets⟩ := served_at (htr' ▸ hserved)
    have hnot := h l' view txid _ tx minedHeight r m s htr' hs
    exact ⟨l', view, txid, _, s, rfl, hs, hmined.symm.trans ((getsTransaction_height hgets).mpr hnot)⟩

end

/-- In one state, the two lookups of a backend agree about all but strays; and of the data
requests' runs, those that never store a stray store as mined just what is mined. -/
theorem lookups_agree (b : Backend) :
    (∀ (s : b.State) (view : b.View) (txid : TxId) (r : Option ChainTx) (status : TransactionStatus),
      b.GetsTransaction s view txid (.ok r) → b.GetsStatus s view txid (.ok status) →
      (Agree r status ↔ ¬ b.Strays s txid)) ∧
    ∀ (spendIndex : Bool) (states : List b.State) (tr : SyncTrace b.View) (q : Sync b.View Unit),
      Run (dataRequests spendIndex) tr q → List.Forall₂ b.Serves states tr →
      (b.StoresMined states tr ↔ b.FetchesNoStray states tr) :=
  ⟨fun _ _ _ _ _ hr hs => lookup_agree hr hs,
    fun _ _ _ _ hrun hserved => dataRequests_mined hrun hserved⟩

end Backend

/-- A transaction that one orphaned block holds, or one of the best chain. -/
def placedAt (place : TxLocations) : IndexState where
  location txid := if txid = ⟨7⟩ then place else (none, [])
  raw txid := if txid = ⟨7⟩ ∧ place ≠ (none, []) then some ⟨⟨fun _ => .ok ⟨⟨7⟩⟩⟩, none⟩ else none
  held txid := by
    by_cases h : txid = ⟨7⟩ <;> by_cases hplace : place = (none, []) <;> simp [h, hplace]

/-- An index in such a state. -/
def indexing (place : TxLocations) : Answer indexSig Unit := fun _ op =>
  match op with
  | .bestChaintip _ => (.ok ⟨9, ⟨90⟩⟩, ())
  | .getRawTransaction _ txid => (.ok ((placedAt place).raw txid), ())
  | .getTransactionStatus _ txid => (.ok ((placedAt place).location txid), ())
  | .getBlockRange _ _ _ => (none, ())

theorem indexing_answers {place : TxLocations} (t : Unit) (op : IndexOp) :
    (placedAt place).Answers ⟨op, (indexing place t op).1⟩ := by
  cases op with
  | getRawTransaction _ txid => exact rfl
  | getTransactionStatus _ txid => exact rfl
  | _ => trivial

/-- What the two lookups answer of transaction 7 in such a state. -/
theorem indexing_outcomes {place : TxLocations}
    (h : place = (some (.block ⟨50⟩ 5), []) ∨ place = (none, [.block ⟨50⟩ 5])) :
    Backend.GetsTransaction .zaino (placedAt place) ⟨⟨0⟩⟩ ⟨7⟩
      (.ok (some ⟨⟨⟨7⟩⟩, some ⟨50⟩, some 5, none⟩)) ∧
    Backend.GetsStatus .zaino (placedAt place) ⟨⟨0⟩⟩ ⟨7⟩ (.ok (ZainoChainView.statusOf place)) := by
  rcases h with rfl | rfl
  · exact ⟨@Outcome.of_exec_ok _ _ _ _ _ (indexing _) 10 () _ _ indexing_answers (by decide +kernel),
      @Outcome.of_exec_ok _ _ _ _ _ (indexing _) 10 () _ _ indexing_answers (by decide +kernel)⟩
  · exact ⟨@Outcome.of_exec_ok _ _ _ _ _ (indexing _) 10 () _ _ indexing_answers (by decide +kernel),
      @Outcome.of_exec_ok _ _ _ _ _ (indexing _) 10 () _ _ indexing_answers (by decide +kernel)⟩

/-- A wallet that asks for one transaction, which its view gives as mined at 5. -/
def enhancingStray : Answer (syncSig ZainoChainView) Unit := fun _ op =>
  match op with
  | .snapshot => (.ok ⟨⟨0⟩⟩, ())
  | .transactionDataRequests => (.ok [.enhancement ⟨7⟩], ())
  | .getTransaction _ _ => (.ok (some ⟨⟨⟨7⟩⟩, some ⟨50⟩, some 5, none⟩), ())
  | op => (op.idle ⟨⟨0⟩⟩, ())

/-- One turn of the data requests, up to the store. -/
def strayTurn : SyncTrace ZainoChainView :=
  [⟨.notified, ()⟩, ⟨.snapshot, .ok ⟨⟨0⟩⟩⟩, ⟨.transactionDataRequests, .ok [.enhancement ⟨7⟩]⟩,
    ⟨.tip ⟨⟨0⟩⟩, .ok ⟨0, ⟨0⟩⟩⟩,
    ⟨.getTransaction ⟨⟨0⟩⟩ ⟨7⟩, .ok (some ⟨⟨⟨7⟩⟩, some ⟨50⟩, some 5, none⟩)⟩,
    ⟨.decryptAndStoreTransaction ⟨⟨7⟩⟩ (some 5), .ok ()⟩]

theorem strayTurn_run : ∃ q, Run (dataRequests true) strayTurn q :=
  ⟨_, (show (exec enhancingStray 7 () (dataRequests true)).1 = strayTurn by decide +kernel) ▸
    exec_run enhancingStray 7 () _⟩

theorem strayTurn_served {place : TxLocations}
    (h : place = (some (.block ⟨50⟩ 5), []) ∨ place = (none, [.block ⟨50⟩ 5])) :
    List.Forall₂ (Backend.Serves .zaino) (List.replicate 6 (placedAt place)) strayTurn :=
  .cons trivial (.cons trivial (.cons trivial (.cons trivial
    (.cons (indexing_outcomes h).1 (.cons trivial .nil)))))

theorem lookups_agree_mined :
    (Agree (some ⟨⟨⟨7⟩⟩, some ⟨50⟩, some 5, none⟩) (.mined 5) ↔
      ¬ Backend.Strays .zaino (placedAt (some (.block ⟨50⟩ 5), [])) ⟨7⟩) ∧
    (Backend.StoresMined .zaino (List.replicate 6 (placedAt (some (.block ⟨50⟩ 5), []))) strayTurn ↔
      Backend.FetchesNoStray .zaino (List.replicate 6 (placedAt (some (.block ⟨50⟩ 5), [])))
        strayTurn) := by
  obtain ⟨hr, hs⟩ := indexing_outcomes (.inl rfl)
  obtain ⟨q, hrun⟩ := strayTurn_run
  exact ⟨(Backend.lookups_agree .zaino).1 _ _ _ _ _ hr hs,
    (Backend.lookups_agree .zaino).2 _ _ _ _ hrun (strayTurn_served (.inl rfl))⟩

/-- Zaino gives a transaction that is only in an orphaned block as mined there, against its
status; and the data requests store it so. -/
theorem orphan_mined :
    (¬ ∀ (b : Backend) (s : b.State) (view : b.View) (txid : TxId) (r : Option ChainTx)
      (status : TransactionStatus), b.GetsTransaction s view txid (.ok r) →
      b.GetsStatus s view txid (.ok status) → Agree r status) ∧
    ¬ ∀ (b : Backend) (spendIndex : Bool) (states : List b.State) (tr : SyncTrace b.View)
      (q : Sync b.View Unit), Run (dataRequests spendIndex) tr q →
      List.Forall₂ b.Serves states tr → b.StoresMined states tr := by
  have hplace : ((none, [.block ⟨50⟩ 5]) : TxLocations) = (some (.block ⟨50⟩ 5), []) ∨
      ((none, [.block ⟨50⟩ 5]) : TxLocations) = (none, [.block ⟨50⟩ 5]) := .inr rfl
  constructor
  · intro h
    obtain ⟨hr, hs⟩ := indexing_outcomes hplace
    have hagree := h .zaino _ _ _ _ _ hr hs
    cases (hagree.mined 5).mp ⟨_, rfl, rfl⟩
  · intro h
    obtain ⟨q, hrun⟩ := strayTurn_run
    have hstores := h .zaino true _ _ q hrun (strayTurn_served hplace)
    obtain ⟨l, view, txid, a, s, hl, hs, hheight⟩ := hstores (strayTurn.take 5) ⟨⟨7⟩⟩ (some 5) (.ok ()) [] rfl
    obtain ⟨rfl, hlast⟩ := List.append_inj' (show strayTurn.take 4 ++ [_] = l ++ [_] from hl) rfl
    cases hlast
    cases hs
    cases hheight

end Zallet
