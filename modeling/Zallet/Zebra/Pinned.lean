/-
# `Zallet.Zebra.Pinned` — lookups that are not pinned

A view is to answer for the chain it was captured at.  `resolve` does, by hash;
five of the view's methods ask the live best chain, or everything zebrad holds,
and hand on what they are told.  `lookup_pinned` says for each of them when its
answer is nevertheless the captured chain's: exactly when the live chain, at the
moment of the request, gives what was looked up the same place.  A new block is
enough for it not to (`lookup_live`).
-/
import Zallet.Zebra.Resolve
import Zallet.Zebra.Transactions
import Mathlib.Data.List.Forall2

namespace Zallet

open Prog

/-- The lookups that read the live chain, by the type of their answers. -/
inductive Lookup : Type → Type where
  | findForkPoint (locator : BlockLocator) : Lookup (Option ChainBlock)
  | getTransaction (txid : TxId) : Lookup (Option ChainTx)
  | getTransactionStatus (txid : TxId) : Lookup TransactionStatus
  | outpointSpendStatus (outpoint : OutPoint) : Lookup SpendStatus
  | blockHeight (hash : BlockHash) : Lookup (Option Nat)

/-- The view's method. -/
def Lookup.ask (view : ZebraChainView) : {α : Type} → Lookup α → Reads α
  | _, .findForkPoint locator => ZebraChainView.findForkPoint locator
  | _, .getTransaction txid => view.getTransaction txid
  | _, .getTransactionStatus txid => ZebraChainView.getTransactionStatus txid
  | _, .outpointSpendStatus outpoint => ZebraChainView.outpointSpendStatus outpoint
  | _, .blockHeight hash => ZebraChainView.blockHeight hash

/-- The answer is the one for the chain `c`.  Of the transaction lookups, where they say that it
is mined. -/
def Lookup.Right (c : History) : {α : Type} → Lookup α → α → Prop
  | _, .findForkPoint locator, r => r = c.forkPoint locator
  | _, .getTransaction txid, r => ∀ tx height, r = some tx → tx.minedHeight = some height →
      c.minedAt txid = some height ∧ tx.blockHash = c.hashAt height
  | _, .getTransactionStatus txid, r => ∀ height, r = .mined height → c.minedAt txid = some height
  | _, .outpointSpendStatus outpoint, .unspent => c.unspent outpoint = true
  | _, .outpointSpendStatus outpoint, .spentBy txid => c.spender outpoint = some txid
  | _, .outpointSpendStatus outpoint, .spentSpenderUnknown => c.unspent outpoint = false
  | _, .blockHeight hash, r => r = c.heightOf hash

/-- Of the locator's blocks, the first that is on one of the two chains is on both. -/
def History.SameFork (live c : History) (locator : BlockLocator) : Prop :=
  ∀ l hash r, locator.hashes = l ++ hash :: r →
    (∀ h ∈ l, live.heightOf h = none ∧ c.heightOf h = none) →
    (live.heightOf hash).isSome = (c.heightOf hash).isSome

/-- At each request, the backend gives what is looked up the place it has on `c`. -/
def Lookup.SamePlace (c : History) (states : List (LaterState c)) : {α : Type} → Lookup α → Prop
  | _, .findForkPoint locator => ∀ s ∈ states.head?, s.best.SameFork c locator
  | _, .getTransaction txid | _, .getTransactionStatus txid =>
      ∀ s ∈ states.head?, ∀ height, s.best.minedAt txid = some height →
        c.minedAt txid = some height
  | _, .outpointSpendStatus outpoint =>
      (∀ s ∈ states.head?, s.best.unspent outpoint = c.unspent outpoint) ∧
      ∀ s ∈ states[1]?, ∀ txid, s.spendIndex outpoint = some txid → c.spender outpoint = some txid
  | _, .blockHeight hash =>
      ∀ s ∈ states.head?, (s.known hash).isSome = (c.heightOf hash).isSome

/-- Request by request, the state each was answered in. -/
def Served {c : History} (states : List (LaterState c)) (tr : ReaderTrace) : Prop :=
  List.Forall₂ (fun s e => LaterState.Answers s e) states tr

section
variable {c : History} {states : List (LaterState c)} {tr : ReaderTrace}

theorem Served.pinning (h : Served states tr) : ∀ e ∈ tr, ∃ s : LaterState c, s.Answers e := by
  induction h with
  | nil => simp
  | @cons s e states tr hs _ ih =>
      intro e' he'
      rcases List.mem_cons.mp he' with rfl | he'
      · exact ⟨s, hs⟩
      · exact ih e' he'

/-- The state the first request was answered in. -/
theorem Served.first {e : ReaderEvent} {l : ReaderTrace} (h : Served states (e :: l)) :
    ∃ s rest, states = s :: rest ∧ s.Answers e ∧ Served rest l := by
  cases h with
  | cons hs hrest => exact ⟨_, _, rfl, hs, hrest⟩

/-- What a method of one request is told. -/
theorem Served.query_ret {ε α : Type} {op : ReaderOp} {f : readerSig.Ans op → Except ε α} {r : α}
    (hrun : Run (query (E := readerSig) op f) tr (.ret r)) (hserved : Served states tr) :
    ∃ s rest a, states = s :: rest ∧ LaterState.Answers s ⟨op, a⟩ ∧ f a = .ok r := by
  obtain ⟨a, rfl, ha⟩ := hrun.query_ret
  obtain ⟨s, rest, rfl, hs, -⟩ := hserved.first
  exact ⟨s, rest, a, rfl, hs, ha⟩

/-! ## The fork point -/

/-- A fork point is at the height its hash was looked up at. -/
theorem History.forkPoint_place {locator : BlockLocator} {fork : ChainBlock}
    (h : c.forkPoint locator = some fork) : c.heightOf fork.hash = some fork.height := by
  obtain ⟨hash, -, hfound⟩ := List.exists_of_findSome?_eq_some h
  obtain ⟨height, hheight, rfl⟩ := Option.map_eq_some_iff.mp hfound
  exact hheight

theorem History.forkPoint_cons_some {hash : BlockHash} {hashes : List BlockHash} {height : Nat}
    (h : c.heightOf hash = some height) : c.forkPoint ⟨hash :: hashes⟩ = some ⟨height, hash⟩ := by
  rw [History.forkPoint, List.findSome?_cons, h]
  rfl

theorem History.forkPoint_cons_none {hash : BlockHash} {hashes : List BlockHash}
    (h : c.heightOf hash = none) : c.forkPoint ⟨hash :: hashes⟩ = c.forkPoint ⟨hashes⟩ := by
  rw [History.forkPoint, List.findSome?_cons, h]
  rfl

theorem History.sameFork_cons {live : History} {hash : BlockHash} {hashes : List BlockHash} :
    live.SameFork c ⟨hash :: hashes⟩ ↔
      (live.heightOf hash).isSome = (c.heightOf hash).isSome ∧
        (live.heightOf hash = none → c.heightOf hash = none → live.SameFork c ⟨hashes⟩) := by
  constructor
  · intro h
    refine ⟨h [] hash hashes rfl (by simp), ?_⟩
    intro hl hc l hash' r hsplit hbefore
    refine h (hash :: l) hash' r (congrArg (hash :: ·) hsplit) ?_
    exact List.forall_mem_cons.mpr ⟨⟨hl, hc⟩, hbefore⟩
  · rintro ⟨hfirst, hrest⟩ l hash' r hsplit hbefore
    cases l with
    | nil =>
        cases hsplit
        exact hfirst
    | cons first l =>
        cases hsplit
        obtain ⟨⟨hl, hc⟩, hbefore⟩ := List.forall_mem_cons.mp hbefore
        exact hrest hl hc l hash' r rfl hbefore

/-- Two chains on which a hash has one height name the same fork point exactly when the first of
the locator's blocks that either has is on both. -/
theorem forkPoint_eq_iff {live : History} {locator : BlockLocator}
    (hplace : ∀ {height height' hash}, c.hashAt height = some hash →
      live.hashAt height' = some hash → height' = height) :
    live.forkPoint locator = c.forkPoint locator ↔ live.SameFork c locator := by
  obtain ⟨hashes⟩ := locator
  induction hashes with
  | nil =>
      refine iff_of_true rfl ?_
      intro l hash r h
      cases l <;> cases h
  | cons hash hashes ih =>
      rw [History.sameFork_cons]
      cases hl : live.heightOf hash with
      | some height' =>
          rw [History.forkPoint_cons_some hl]
          cases hc : c.heightOf hash with
          | some height =>
              obtain rfl : height' = height :=
                hplace (History.hashAt_heightOf hc) (History.hashAt_heightOf hl)
              rw [History.forkPoint_cons_some hc]
              exact iff_of_true rfl ⟨rfl, fun h => by cases h⟩
          | none =>
              -- the live chain names this block, the other can only name another
              refine iff_of_false ?_ fun h => by cases h.1
              intro h
              have hfork := History.forkPoint_place h.symm
              rw [hc] at hfork
              cases hfork
      | none =>
          rw [History.forkPoint_cons_none hl]
          cases hc : c.heightOf hash with
          | some height =>
              rw [History.forkPoint_cons_some hc]
              refine iff_of_false ?_ fun h => by cases h.1
              intro h
              have hfork := History.forkPoint_place h
              rw [hl] at hfork
              cases hfork
          | none =>
              rw [History.forkPoint_cons_none hc, ih]
              exact ⟨fun h => ⟨rfl, fun _ _ => h⟩, fun h => h.2 rfl rfl⟩

/-! ## Transactions -/

/-- A mined transaction is given the height it was found at and the pinned hash there. -/
theorem minedTx_pinned {mined : MinedTxInfo} :
    wp (pinning c) (c.view.minedTx mined)
      (fun _ tx => tx.minedHeight = some mined.height ∧ tx.blockHash = c.hashAt mined.height)
      (fun _ _ => True) tr := by
  rw [ZebraChainView.minedTx, wp_bind, wp_ofExcept]
  cases ZebraChainView.parseTx mined.raw mined.height with
  | error e => trivial
  | ok inner =>
      show wp _ (_ >>= _) _ _ _
      rw [wp_bind]
      exact wp_mono (fun _ blockHash h => ⟨rfl, h⟩) (fun _ _ h => h) resolve_pinned

/-- What `getTransaction` says of a transaction follows the first request it makes. -/
theorem getTransaction_first {txid : TxId} {r : Option ChainTx}
    (hrun : Run (c.view.getTransaction txid) tr (.ret r)) (hserved : Served states tr) :
    ∃ s rest, states = s :: rest ∧
      ((∃ tx height, r = some tx ∧ s.best.minedAt txid = some height ∧
        tx.minedHeight = some height ∧ tx.blockHash = c.hashAt height) ∨
      (s.best.minedAt txid = none ∧ ∀ tx, r = some tx → tx.minedHeight = none)) := by
  obtain ⟨a, m, l, rfl, rfl, hrest⟩ := hrun.query_bind_ret
  obtain ⟨s, rest, rfl, hs, hserved⟩ := hserved.first
  have hpath : Path (pinning c).step [] l l := Path.recall hserved.pinning
  refine ⟨s, rest, rfl, ?_⟩
  cases m with
  | some mined =>
      obtain ⟨tx, l₁, l₂, rfl, htx, hret⟩ := hrest.bind_ret
      cases hret
      rw [List.append_nil] at hpath
      obtain ⟨hheight, hhash⟩ := minedTx_pinned.sound htx hpath
      exact .inl ⟨tx, mined.height, rfl, Eq.symm hs, hheight, hhash⟩
  | none =>
      refine .inr ⟨Eq.symm hs, ?_⟩
      rintro tx rfl
      obtain ⟨_, side, l₁, rfl, -, hrest₂⟩ := hrest.query_bind_ret
      cases side with
      | some info =>
          obtain ⟨tx', _, _, rfl, htx', hend⟩ := hrest₂.bind_ret
          cases hend
          exact (sideTx_ret htx').1
      | none =>
          obtain ⟨txids, -, hfound⟩ := mempoolTx_ret hrest₂
          rw [← foundStatus_height, hfound]
          split <;> rfl

/-- The status is `Mined` just when the first request found the transaction. -/
theorem getTransactionStatus_first {txid : TxId} {r : TransactionStatus}
    (hrun : Run (ZebraChainView.getTransactionStatus txid) tr (.ret r))
    (hserved : Served states tr) :
    ∃ s rest, states = s :: rest ∧ ∀ height, r = .mined height ↔ s.best.minedAt txid = some height := by
  obtain ⟨a, m, l, rfl, rfl, hrest⟩ := hrun.query_bind_ret
  obtain ⟨s, rest, rfl, hs, -⟩ := hserved.first
  refine ⟨s, rest, rfl, fun height => ?_⟩
  rw [← show m.map (·.height) = s.best.minedAt txid from hs]
  cases m with
  | some mined =>
      cases hrest
      constructor
      · intro h
        cases h
        rfl
      · intro h
        cases h
        rfl
  | none =>
      refine iff_of_false (fun h => ?_) fun h => by cases h
      subst h
      obtain ⟨a, side, l, rfl, -, hrest⟩ := hrest.query_bind_ret
      cases side with
      | some side => cases hrest
      | none =>
          obtain ⟨a, mempool, l, rfl, -, hrest⟩ := hrest.query_bind_ret
          have hrest : Run (.ret (if txid ∈ mempool then TransactionStatus.notInMainChain
            else .txidNotRecognized) : Reads _) l (.ret (.mined height)) := hrest
          split at hrest <;> cases hrest

/-! ## Outputs -/

/-- The spend status follows two requests, and the second is made only of a spent output. -/
theorem outpointSpendStatus_requests {outpoint : OutPoint} {r : SpendStatus}
    (hrun : Run (ZebraChainView.outpointSpendStatus outpoint) tr (.ret r))
    (hserved : Served states tr) :
    (∃ s, states = [s] ∧ s.best.unspent outpoint = true ∧ r = .unspent) ∨
    ∃ s s', states = [s, s'] ∧ s.best.unspent outpoint = false ∧
      r = (s'.spendIndex outpoint).elim .spentSpenderUnknown .spentBy := by
  obtain ⟨a, b, l, rfl, rfl, hrest⟩ := hrun.query_bind_ret
  obtain ⟨s, rest, rfl, hs, hserved₁⟩ := hserved.first
  have hs : b = s.best.unspent outpoint := hs
  cases b with
  | true =>
      cases hrest
      cases hserved₁
      exact .inl ⟨s, rfl, hs.symm, rfl⟩
  | false =>
      obtain ⟨a, m, l, rfl, rfl, hend⟩ := hrest.query_bind_ret
      obtain ⟨s', rest, rfl, hs', hserved₂⟩ := hserved₁.first
      have hs' : m = s'.spendIndex outpoint := hs'
      refine .inr ⟨s, s', ?_⟩
      cases m with
      | none =>
          cases hend
          cases hserved₂
          exact ⟨rfl, hs.symm, by rw [← hs']; rfl⟩
      | some txid =>
          cases hend
          cases hserved₂
          exact ⟨rfl, hs.symm, by rw [← hs']; rfl⟩

/-! ## All of them -/

theorem forall_mem_head {s : LaterState c} {P : LaterState c → Prop} :
    (∀ s' ∈ some s, P s') ↔ P s := by
  simp only [Option.mem_some_iff, forall_eq']

/-- The height of a block that zebrad holds is that of the captured chain, if it is on it. -/
theorem LaterState.known_height_iff (s : LaterState c) {hash : BlockHash} :
    (s.known hash).map (·.height) = c.heightOf hash ↔
      (s.known hash).isSome = (c.heightOf hash).isSome := by
  cases hknown : s.known hash with
  | none =>
      cases c.heightOf hash with
      | none => exact iff_of_true rfl rfl
      | some height => exact iff_of_false (fun h => by cases h) fun h => by cases h
  | some info =>
      cases hplace : c.heightOf hash with
      | none => exact iff_of_false (fun h => by cases h) fun h => by cases h
      | some height =>
          have hheight := (s.known_pinned (History.hashAt_heightOf hplace) hknown).1
          exact iff_of_true (congrArg some hheight) rfl

/-- A transaction that is told to be mined has its place on the captured chain if it has it on
the live one. -/
theorem getTransaction_right_iff {txid : TxId} {r : Option ChainTx}
    (hrun : Run (c.view.getTransaction txid) tr (.ret r)) (hserved : Served states tr) :
    (Lookup.getTransaction txid).Right c r ↔ (Lookup.getTransaction txid).SamePlace c states := by
  obtain ⟨s, rest, rfl, hfirst⟩ := getTransaction_first hrun hserved
  show (∀ tx height, r = some tx → _ → _) ↔ ∀ s' ∈ some s, _
  rw [forall_mem_head]
  rcases hfirst with ⟨tx, height, rfl, hlive, hheight, hhash⟩ | ⟨hlive, hunmined⟩
  · constructor
    · intro h height' hlive'
      exact (h tx height' rfl (hheight.trans (hlive.symm.trans hlive'))).1
    · intro h tx' height' heq hheight'
      cases heq
      obtain rfl : height = height' := Option.some.inj (hheight.symm.trans hheight')
      exact ⟨h height hlive, hhash⟩
  · constructor
    · intro _ height' hlive'
      rw [hlive] at hlive'
      cases hlive'
    · intro _ tx height heq hheight
      rw [hunmined tx heq] at hheight
      cases hheight

/-- The status of an output follows the live chain, and the index of spends where it is spent. -/
theorem outpointSpendStatus_right_iff {outpoint : OutPoint} {r : SpendStatus}
    (hrun : Run (ZebraChainView.outpointSpendStatus outpoint) tr (.ret r))
    (hserved : Served states tr) :
    (Lookup.outpointSpendStatus outpoint).Right c r ↔
      (Lookup.outpointSpendStatus outpoint).SamePlace c states := by
  rcases outpointSpendStatus_requests hrun hserved with
    ⟨s, rfl, hlive, rfl⟩ | ⟨s, s', rfl, hlive, rfl⟩
  · show c.unspent outpoint = true ↔ (∀ t ∈ some s, _) ∧ ∀ t ∈ none, _
    rw [forall_mem_head, hlive]
    exact ⟨fun h => ⟨h.symm, by simp⟩, fun h => h.1.symm⟩
  · show _ ↔ (∀ t ∈ some s, _) ∧ ∀ t ∈ some s', _
    rw [forall_mem_head, forall_mem_head, hlive]
    cases hindex : s'.spendIndex outpoint with
    | none =>
        show c.unspent outpoint = false ↔ _
        exact ⟨fun h => ⟨h.symm, fun txid h => by cases h⟩, fun h => h.1.symm⟩
    | some txid =>
        show c.spender outpoint = some txid ↔ _
        constructor
        · intro h
          refine ⟨(History.unspent_spender h).symm, ?_⟩
          intro txid' heq
          cases heq
          exact h
        · intro h
          exact h.2 txid rfl

/-- An answer of a view's live lookup is the one for the chain the view was captured at exactly
when the chains it was answered from give what is looked up the place it has there. -/
theorem lookup_pinned {α : Type} {lookup : Lookup α} {r : α}
    (hrun : Run (lookup.ask c.view) tr (.ret r)) (hserved : Served states tr) :
    lookup.Right c r ↔ lookup.SamePlace c states := by
  cases lookup with
  | findForkPoint locator =>
      obtain ⟨s, rest, a, rfl, hs, ha⟩ := Served.query_ret hrun hserved
      obtain rfl : a = .ok r := ha
      have hs : r = s.best.forkPoint locator := hs
      show r = _ ↔ ∀ s' ∈ some s, _
      rw [hs, forkPoint_eq_iff s.best_pinned, forall_mem_head]
  | getTransaction txid => exact getTransaction_right_iff hrun hserved
  | getTransactionStatus txid =>
      obtain ⟨s, rest, rfl, hfirst⟩ := getTransactionStatus_first hrun hserved
      show (∀ height, r = .mined height → _) ↔ ∀ s' ∈ some s, _
      rw [forall_mem_head]
      exact forall_congr' fun height => imp_congr_left (hfirst height)
  | outpointSpendStatus outpoint => exact outpointSpendStatus_right_iff hrun hserved
  | blockHeight hash =>
      obtain ⟨s, rest, a, rfl, hs, ha⟩ := Served.query_ret hrun hserved
      cases a with
      | error e => cases ha
      | ok info =>
          cases ha
          have hs : info = s.known hash := hs
          show info.map (·.height) = c.heightOf hash ↔ ∀ s' ∈ some s, _
          rw [forall_mem_head, hs, s.known_height_iff]

end

/-- A block of one transaction. -/
def blockOf (hash : Nat) (txid : Nat) : BlockData :=
  ⟨⟨hash⟩, [⟨⟨txid⟩, 1, []⟩], .empty, .empty, .empty⟩

/-- A chain of two blocks. -/
def captured : History := ⟨[blockOf 0 70, blockOf 1 71], List.cons_ne_nil _ _⟩

theorem captured_hashAt {height : Nat} {hash : BlockHash} (h : captured.hashAt height = some hash) :
    height ≤ 1 ∧ hash = ⟨height⟩ := by
  match height with
  | 0 => exact ⟨Nat.zero_le 1, (Option.some.inj h).symm⟩
  | 1 => exact ⟨Nat.le_refl 1, (Option.some.inj h).symm⟩
  | n + 2 => cases h

/-- The backend once a third block was mined. -/
def grown : LaterState captured where
  best := ⟨[blockOf 0 70, blockOf 1 71, blockOf 2 72], List.cons_ne_nil _ _⟩
  known hash := if hash.bytes ≤ 2 then some ⟨hash.bytes, ⟨hash.bytes - 1⟩⟩ else none
  spendIndex _ := none
  known_pinned := by
    intro height hash info h hknown
    obtain ⟨hle, rfl⟩ := captured_hashAt h
    rw [if_pos (show height ≤ 2 by omega)] at hknown
    cases hknown
    refine ⟨rfl, fun hpos => ?_⟩
    obtain rfl : height = 1 := by omega
    rfl
  best_pinned := by
    intro height height' hash h h'
    obtain ⟨hle, rfl⟩ := captured_hashAt h
    match height' with
    | 0 => exact BlockHash.mk.inj (Option.some.inj h')
    | 1 => exact BlockHash.mk.inj (Option.some.inj h')
    | 2 =>
        have := BlockHash.mk.inj (Option.some.inj h')
        omega
    | n + 3 => cases h'
  final := by
    intro height hle
    obtain rfl : height = 0 := Nat.le_zero.mp hle
    rfl

/-- The one request of a status lookup that finds its transaction. -/
def foundAt (txid height : Nat) : ReaderTrace :=
  [⟨.transaction ⟨txid⟩, .ok (some ⟨⟨fun _ => .ok ⟨⟨txid⟩⟩⟩, height, 0⟩)⟩]

theorem foundAt_run {txid height : Nat} :
    Run ((Lookup.getTransactionStatus ⟨txid⟩).ask captured.view) (foundAt txid height)
      (.ret (.mined height)) := .call (.refl _)

theorem lookup_pinned_grown :
    (Lookup.getTransactionStatus ⟨71⟩).Right captured (.mined 1) ↔
      (Lookup.getTransactionStatus ⟨71⟩).SamePlace captured [grown] :=
  @lookup_pinned captured [grown] (foundAt 71 1) _ _ _ foundAt_run (.cons rfl .nil)

/-- A view reports a transaction as mined above its own tip. -/
theorem lookup_live :
    ¬ ∀ (c : History) (states : List (LaterState c)) (tr : ReaderTrace) (α : Type)
      (lookup : Lookup α) (r : α),
      Run (lookup.ask c.view) tr (.ret r) → Served states tr → lookup.Right c r := by
  intro h
  have hright := h captured [grown] (foundAt 72 2) _ (.getTransactionStatus ⟨72⟩) (.mined 2)
    foundAt_run (.cons rfl .nil)
  have hmined : captured.minedAt ⟨72⟩ = some 2 := hright 2 rfl
  cases hmined

end Zallet
