/-
# `Zallet.Backends.Assertions` — no assertion fails over either backend

The views of Zebra and of Zaino keep to the contract that the assertions of an
iteration rest on (`ZebraServed.served`, `ZainoServes.served`), so
`assertions_hold` says of runs over both what has to be true of the wallet and
the chain before each iteration.  Of a view of Zebra all of it is derived from
what the backend is asked: that a stream gives consecutive blocks, that headers
are of blocks up to the tip, and that a fork point is an entry of the locator on
the live chain.  A fork point of Zaino's is an ancestor of one on the chain of
the view itself.
-/
import Zallet.Sync.Assertions
import Zallet.Zebra.Streams
import Zallet.Zaino.ForkPoint

namespace Zallet

open Ancestry Prog

variable {V : Type}

/-- The view a call is made on. -/
def Op.view? : Op V → Option V
  | .tip view | .findForkPoint view _ | .treeStateAsOf view _ | .getBlockHeader view _
  | .getBlock view _ | .tryNext view _ _ | .getMempoolStream view | .mempoolNext view
  | .getTransaction view _ | .getTransactionStatus view _ | .outpointSpendStatus view _
  | .getAddressUnspentOutpoints view _ | .getAddressTxIds view _ _ _ => some view
  | _ => none

/-- The wallet's part of an answer: its blocks, whose hashes are of the heights they are recorded
at, and its birthday. -/
structure WalletServed (heightOf : BlockHash → Nat) (birthday : Option Nat)
    (wallet : SyncTrace V → Wallet) (l : SyncTrace V) (e : SyncEvent V) : Prop where
  step : walletStep (wallet l) e.op e.ans (wallet (l ++ [e]))
  numbered : ∀ height hash, wallet l height = some hash → heightOf hash = height
  birthday : ∀ r, e = ⟨.getWalletBirthday, .ok r⟩ → r = birthday

/-! ## Zebra -/

section
variable (content : BlockHash → Block)

/-- The height that the block of a hash claims. -/
def claimedBy (hash : BlockHash) : Nat := (content hash).claimedHeight

/-- The blocks of the chain claim the heights they have on it. -/
def History.Numbered (c : History) : Prop :=
  ∀ {height hash}, c.hashAt height = some hash → claimedBy content hash = height

/-- A call on a view is answered while the best chain of the backend is one of `bests`: the view
was captured of some chain, and at each request the backend is in a state after that. -/
def OnZebra (bests : Set History) (e : SyncEvent ZebraChainView) : Prop :=
  ∀ view, e.op.view? = some view → ∃ (c : History) (states : Set (StoringState c)),
    c.view = view ∧ c.Numbered content ∧ states.Nonempty ∧
      (∀ s ∈ states, s.best ∈ bests ∧ s.best.Numbered content) ∧
      ZebraAnswer (ServedIn content states) e

/-- The best chains of the backend, after each prefix of a run, bound the fork points. -/
def zebraSurroundings (wallet : SyncTrace ZebraChainView → Wallet)
    (bests : SyncTrace ZebraChainView → Set History) : SyncSurroundings ZebraChainView where
  wallet := wallet
  reach l _ := {top | ∃ best ∈ bests l, best.tip.height = top}

/-- The answer to the event, of the wallet or of a Zebra backend. -/
structure ZebraServed (birthday : Option Nat) (wallet : SyncTrace ZebraChainView → Wallet)
    (bests : SyncTrace ZebraChainView → Set History) (l : SyncTrace ZebraChainView)
    (e : SyncEvent ZebraChainView) : Prop where
  wallet : WalletServed (claimedBy content) birthday wallet l e
  chain : OnZebra content (bests l) e

end

section
variable {content : BlockHash → Block} {c : History} {states : Set (StoringState c)}

theorem zebra_tip {tip : ChainBlock}
    (h : Outcome (ServedIn content states) c.view.getTip (.ok tip)) : tip = c.tip := by
  have hpure : Ensures (ServedIn content states) (fun r => r = .ok c.tip) c.view.getTip :=
    .pure rfl
  exact Except.ok.inj (hpure.sound h)

theorem zebra_header_le {height : Nat} {header : BlockHeader}
    (h : Outcome (ServedIn content states) (c.view.getBlockHeader height) (.ok (some header))) :
    height ≤ c.tip.height := by
  by_contra habove
  have hread : c.view.getBlockHeader height = pure none :=
    readPinned_above .header (Nat.lt_of_not_le habove)
  rw [hread] at h
  have hnone := (Ensures.pure (Q := fun r => r = .ok none) rfl).sound h
  cases hnone

/-- The items of a stream are consecutive. -/
theorem zebra_stream_next (hstates : states.Nonempty) (hnumbered : c.Numbered content)
    {start pos : Nat} {block : Block}
    (h : Outcome (ServedIn content states) (c.view.streamNext pos (.toTip start))
      (.ok (some block))) : block.claimedHeight = start + pos := by
  by_cases hle : start + pos ≤ c.tip.height
  · have hcovers : (BlockStream.toTip start).Covers (start + pos) := Nat.le_add_right start pos
    have hserves : c.view.streamNext pos (.toTip start) = c.view.getBlock (start + pos) :=
      streamNext_covered hcovers hle
    rw [hserves, getBlock_eq] at h
    rcases (readPinned_ends .block hstates hle).sound h with hblock | ⟨hnone, -⟩
    · obtain ⟨hash, hhash⟩ := History.hashAt_below hle
      rw [blockAt, hhash] at hblock
      obtain rfl : block = content hash := Option.some.inj hblock
      exact hnumbered hhash
    · cases hnone
  · have hpast : c.view.streamNext pos (.toTip start) = pure none :=
      if_pos (show c.view.tip.height < start + pos from Nat.lt_of_not_le hle)
    rw [hpast] at h
    have hnone := (Ensures.pure (Q := fun r => r = .ok none) rfl).sound h
    cases hnone

/-- A fork point is an entry of the locator, where it is on the live chain. -/
theorem zebra_fork {locator : BlockLocator} {fork : ChainBlock}
    (h : Outcome (ServedIn content states) (ZebraChainView.findForkPoint locator)
      (.ok (some fork))) :
    ∃ s ∈ states, fork.hash ∈ locator.hashes ∧ s.best.hashAt fork.height = some fork.hash := by
  obtain ⟨tr, hrun, htold⟩ := h
  obtain ⟨a, rfl, rfl⟩ := Run.query_ret hrun
  obtain ⟨s, hs, hanswer⟩ := htold _ (List.mem_singleton_self _)
  have hfork : s.best.forkPoint locator = some fork := Eq.symm hanswer
  obtain ⟨hash, hmem, hfound⟩ := List.exists_of_findSome?_eq_some hfork
  obtain ⟨height, hheight, rfl⟩ := Option.map_eq_some_iff.mp hfound
  exact ⟨s, hs, hmem, History.hashAt_heightOf hheight⟩

end

/-- The views of a Zebra backend keep to the contract. -/
theorem ZebraServed.served {content : BlockHash → Block} {birthday : Option Nat}
    {wallet : SyncTrace ZebraChainView → Wallet} {bests : SyncTrace ZebraChainView → Set History}
    {l : SyncTrace ZebraChainView} {e : SyncEvent ZebraChainView}
    (h : ZebraServed content birthday wallet bests l e) :
    AnsweredIn ZebraChainView.tip (claimedBy content) birthday
      (zebraSurroundings wallet bests) l e := by
  refine ⟨h.wallet.step, h.wallet.numbered, ?_⟩
  have hchain := h.chain
  have hbirthday := h.wallet.birthday
  obtain ⟨op, a⟩ := e
  cases op with
  | tip view =>
      obtain ⟨c, states, rfl, -, -, -, hanswer⟩ := hchain view rfl
      cases a with
      | error e => trivial
      | ok tip => exact zebra_tip hanswer
  | getBlockHeader view height =>
      obtain ⟨c, states, rfl, -, -, -, hanswer⟩ := hchain view rfl
      rcases a with e | _ | header
      · trivial
      · trivial
      · exact zebra_header_le hanswer
  | tryNext view stream pos =>
      obtain ⟨c, states, rfl, hnumbered, hstates, -, hanswer⟩ := hchain view rfl
      cases stream with
      | range start stop => trivial
      | toTip start =>
          rcases a with e | _ | block
          · trivial
          · trivial
          · exact zebra_stream_next hstates hnumbered hanswer
  | findForkPoint view locator =>
      obtain ⟨c, states, rfl, -, -, hbests, hanswer⟩ := hchain view rfl
      rcases a with e | _ | fork
      · trivial
      · trivial
      · obtain ⟨s, hs, hmem, hhash⟩ := zebra_fork hanswer
        obtain ⟨hbest, hnumbered⟩ := hbests s hs
        have hheight : claimedBy content fork.hash = fork.height := hnumbered hhash
        refine ⟨⟨_, ⟨s.best, hbest, rfl⟩, History.height_le_tip hhash⟩, fork.hash, hmem, .inl ?_⟩
        rw [hheight]
  | getWalletBirthday =>
      cases a with
      | error e => trivial
      | ok r => exact hbirthday r rfl
  | _ => trivial

/-! ## Zaino -/

/-- What is relied on of the index about a snapshot of a chain: its tip, and the blocks of a range,
each of its height. -/
def BlocksOf (c : History) : IndexEvent → Prop
  | ⟨.bestChaintip _, .ok tip⟩ => tip = c.tip
  | ⟨.getBlockRange _ start _, some items⟩ => ∀ i raw, items[i]? = some (.ok raw) →
      (∀ header, raw.header = .ok header → c.hashAt (start + i) = some header.hash) ∧
        ∀ block, raw.block = .ok block → block.claimedHeight = start + i
  | _ => True

/-- What a stream is polled for, its items known. -/
def polled : Option (Except ChainError Block) → Except ChainError (Option Block)
  | none => .ok none
  | some item => item.map some

/-- A stream of a view is the items the index answers with, polled one after the other. -/
def ZainoStreams (A : IndexEvent → Prop) : SyncEvent ZainoChainView → Prop
  | ⟨.tryNext view (.toTip start) pos, r⟩ =>
      ∃ items, Outcome A (view.streamBlocksToTip start) (.ok items) ∧ r = polled items[pos]?
  | ⟨.tryNext view (.range start stop) pos, r⟩ =>
      ∃ items, Outcome A (view.streamBlocks start stop) (.ok items) ∧ r = polled items[pos]?
  | _ => True

section
variable (t : BlockTree) (chainOf : ZainoChainView → History)

/-- A call on a view is answered by the index about the chain of the view's snapshot. -/
def OnZaino (e : SyncEvent ZainoChainView) : Prop :=
  ∀ view, e.op.view? = some view → (chainOf view).Grows t ∧
    ZainoAnswer (BlocksOf (chainOf view)) (ForksOf t (chainOf view)) e ∧
    ZainoStreams (BlocksOf (chainOf view)) e

/-- A view names fork points from its own chain. -/
def zainoSurroundings (wallet : SyncTrace ZainoChainView → Wallet) :
    SyncSurroundings ZainoChainView where
  wallet := wallet
  reach _ view := {(chainOf view).tip.height}

/-- The answer to the event, of the wallet or of a Zaino backend. -/
structure ZainoServes (birthday : Option Nat) (wallet : SyncTrace ZainoChainView → Wallet)
    (l : SyncTrace ZainoChainView) (e : SyncEvent ZainoChainView) : Prop where
  wallet : WalletServed t.heightOf birthday wallet l e
  chain : OnZaino t chainOf e

end

section
variable {t : BlockTree} {c : History}

theorem zaino_tip {view : ZainoChainView} {tip : ChainBlock}
    (h : Outcome (BlocksOf c) view.getTip (.ok tip)) : tip = c.tip := by
  obtain ⟨tr, hrun, htold⟩ := h
  obtain ⟨a, rfl, ha⟩ := Run.query_ret hrun
  obtain rfl : a = .ok tip := mapError_eq_ok.mp ha
  exact htold _ (List.mem_singleton_self _)

theorem zaino_header_le {view : ZainoChainView} {height : Nat} {header : BlockHeader}
    (h : Outcome (BlocksOf c) (view.getBlockHeader height) (.ok (some header))) :
    height ≤ c.tip.height := by
  obtain ⟨tr, hrun, htold⟩ := h
  have hheaders : Outcome (HeadersOf c) (view.getBlockHeader height) (.ok (some header)) := by
    refine ⟨tr, hrun, fun e he => ?_⟩
    have hblocks := htold e he
    obtain ⟨op, a⟩ := e
    cases op with
    | getBlockRange snapshot start stop =>
        rcases a with _ | _ | ⟨e | raw, rest⟩
        · trivial
        · trivial
        · trivial
        · exact fun header hread => (hblocks 0 raw rfl).1 header hread
    | _ => trivial
  exact History.height_le_tip (getBlockHeader_onChain hheaders)

theorem zaino_stream_next {view : ZainoChainView} {start pos : Nat} {block : Block}
    {items : List (Except ChainError Block)}
    (h : Outcome (BlocksOf c) (view.streamBlocksToTip start) (.ok items))
    (hitem : .ok (some block) = polled items[pos]?) : block.claimedHeight = start + pos := by
  obtain ⟨tr, hrun, htold⟩ := h
  obtain ⟨a, rfl, ha⟩ := Run.query_ret hrun
  have hblocks := htold _ (List.mem_singleton_self _)
  obtain rfl := Except.ok.inj ha
  cases a with
  | none => cases hitem
  | some raws =>
      rw [Option.elim_some, List.getElem?_map] at hitem
      cases hraw : raws[pos]? with
      | none =>
          rw [hraw] at hitem
          cases hitem
      | some raw =>
          rw [hraw] at hitem
          cases raw with
          | error e => cases hitem
          | ok bytes =>
              have hparsed : Except.ok (some block) =
                  (bytes.block.mapError ChainError.invalidData).map some := hitem
              cases hread : bytes.block with
              | error e =>
                  rw [hread] at hparsed
                  cases hparsed
              | ok b =>
                  rw [hread] at hparsed
                  cases hparsed
                  exact (hblocks pos bytes hraw).2 block hread

theorem zaino_fork {view : ZainoChainView} {locator : BlockLocator} {fork : ChainBlock}
    (hgrows : c.Grows t)
    (h : Outcome (ForksOf t c) (view.findForkPoint locator) (.ok (some fork))) :
    fork.height ≤ c.tip.height ∧ NamedFrom t.heightOf locator fork := by
  obtain ⟨l, entry, r, hlocator, -, hon, hnewest⟩ := findForkPoint_named h
  refine ⟨History.height_le_tip hon, entry, by simp [hlocator], ?_⟩
  have hfork : t.heightOf fork.hash = fork.height := hgrows.height hon
  rcases Nat.lt_or_ge fork.height (t.heightOf entry) with hlt | hge
  · exact .inr hlt
  · have hsame : fork.hash = entry :=
      hnewest.ancestor.eq_of_height t.ranked (by omega)
    refine .inl ?_
    calc fork = ⟨fork.height, fork.hash⟩ := rfl
      _ = ⟨t.heightOf entry, entry⟩ := by rw [← hsame, hfork]

end

/-- The views of a Zaino backend keep to the contract. -/
theorem ZainoServes.served {t : BlockTree} {chainOf : ZainoChainView → History}
    {birthday : Option Nat} {wallet : SyncTrace ZainoChainView → Wallet}
    {l : SyncTrace ZainoChainView} {e : SyncEvent ZainoChainView}
    (h : ZainoServes t chainOf birthday wallet l e) :
    AnsweredIn (fun view => (chainOf view).tip) t.heightOf birthday
      (zainoSurroundings chainOf wallet) l e := by
  refine ⟨h.wallet.step, h.wallet.numbered, ?_⟩
  have hchain := h.chain
  have hbirthday := h.wallet.birthday
  obtain ⟨op, a⟩ := e
  cases op with
  | tip view =>
      obtain ⟨-, hanswer, -⟩ := hchain view rfl
      cases a with
      | error e => trivial
      | ok tip => exact zaino_tip hanswer
  | getBlockHeader view height =>
      obtain ⟨-, hanswer, -⟩ := hchain view rfl
      rcases a with e | _ | header
      · trivial
      · trivial
      · exact zaino_header_le hanswer
  | tryNext view stream pos =>
      obtain ⟨-, -, hstreams⟩ := hchain view rfl
      cases stream with
      | range start stop => trivial
      | toTip start =>
          rcases a with e | _ | block
          · trivial
          · trivial
          · obtain ⟨items, hitems, hitem⟩ := hstreams
            exact zaino_stream_next hitems hitem
  | findForkPoint view locator =>
      obtain ⟨hgrows, hanswer, -⟩ := hchain view rfl
      rcases a with e | _ | fork
      · trivial
      · trivial
      · obtain ⟨hle, hnamed⟩ := zaino_fork hgrows hanswer
        exact ⟨⟨_, rfl, hle⟩, hnamed⟩
  | getWalletBirthday =>
      cases a with
      | error e => trivial
      | ok r => exact hbirthday r rfl
  | _ => trivial

/-! ## Runs -/

/-- In a run over either backend whose iterations fit, no assertion fails. -/
theorem assertions_hold (shutdownHeight birthday : Option Nat) :
    (∀ (content : BlockHash → Block) (wallet : SyncTrace ZebraChainView → Wallet)
      (bests : SyncTrace ZebraChainView → Set History) (tr : SyncTrace ZebraChainView)
      (q : Sync ZebraChainView Unit), Run (follow shutdownHeight) tr q →
      (∀ l e, l ++ [e] <+: tr → ZebraServed content birthday wallet bests l e) →
      IterationsFit shutdownHeight ZebraChainView.tip birthday (zebraSurroundings wallet bests) tr →
      ∀ msg, q ≠ .crash msg) ∧
    ∀ (t : BlockTree) (chainOf : ZainoChainView → History)
      (wallet : SyncTrace ZainoChainView → Wallet) (tr : SyncTrace ZainoChainView)
      (q : Sync ZainoChainView Unit), Run (follow shutdownHeight) tr q →
      (∀ l e, l ++ [e] <+: tr → ZainoServes t chainOf birthday wallet l e) →
      IterationsFit shutdownHeight (fun view => (chainOf view).tip) birthday
        (zainoSurroundings chainOf wallet) tr →
      ∀ msg, q ≠ .crash msg := by
  constructor
  · intro content wallet bests tr q hrun hserved hfit
    exact hfit.no_crash hrun fun l e hpre => (hserved l e hpre).served
  · intro t chainOf wallet tr q hrun hserved hfit
    exact hfit.no_crash hrun fun l e hpre => (hserved l e hpre).served

/-! ## A wallet that is started -/

/-- A wallet whose blocks are all scanned: views are pinned one after the other, and fork points
are named as `fork` says. -/
def started (views : Nat → V) (tipOf : V → ChainBlock) (wallet : Wallet)
    (fork : V → BlockLocator → Option ChainBlock) : Answer (syncSig V) Nat := fun pinned op =>
  match op with
  | .snapshot => (.ok (views pinned), pinned + 1)
  | .tip view => (.ok (tipOf view), pinned)
  | .blockMetadata height => (.ok (some ⟨height, ⟨0⟩, 0, 0, 0⟩), pinned)
  | .getBlockHash height => (.ok (wallet height), pinned)
  | .findForkPoint view locator => (.ok (fork view locator), pinned)
  | op => (op.idle (views 0), pinned)

/-- On one of these views, only its tip and fork points are asked for; the wallet is not written
to. -/
def onlyAsks [DecidableEq V] (views : List V) : Op V → Bool
  | .tip view | .findForkPoint view _ => view ∈ views
  | .putBlocks _ _ | .truncateToHeight _ => false
  | op => op.view?.isNone

theorem onlyAsks_view [DecidableEq V] {views : List V} {op : Op V} {view : V}
    (honly : onlyAsks views op = true) (hview : op.view? = some view) :
    view ∈ views ∧ (op = .tip view ∨ ∃ locator, op = .findForkPoint view locator) := by
  cases op with
  | tip v =>
      cases hview
      exact ⟨of_decide_eq_true honly, .inl rfl⟩
  | findForkPoint v locator =>
      cases hview
      exact ⟨of_decide_eq_true honly, .inr ⟨locator, rfl⟩⟩
  | _ => simp [onlyAsks, Op.view?] at honly hview

section
variable [DecidableEq V] {views : Nat → V} {tipOf : V → ChainBlock} {wallet : Wallet}
  {fork : V → BlockLocator → Option ChainBlock} {heightOf : BlockHash → Nat} {e : SyncEvent V}
  {pinned : Nat} {asked : List V}

theorem started_wallet (hanswer : (started views tipOf wallet fork pinned e.op).1 = e.ans)
    (honly : onlyAsks asked e.op = true)
    (hnumbered : ∀ height hash, wallet height = some hash → heightOf hash = height)
    (l : SyncTrace V) : WalletServed heightOf none (fun _ => wallet) l e := by
  obtain ⟨op, a⟩ := e
  refine ⟨?_, hnumbered, ?_⟩
  · cases op with
    | getBlockHash height =>
        cases hanswer
        exact ⟨rfl, rfl⟩
    | putBlocks fromState blocks => cases honly
    | truncateToHeight height => cases honly
    | _ => rfl
  · rintro r he
    cases he
    cases hanswer
    rfl

omit [DecidableEq V] in
/-- Two runs with a notification between them. -/
theorem first_answered {α β ε : Type} {p : Prog (syncSig V) ε α} {q : Prog (syncSig V) ε β}
    {m n pinned₁ pinned₂ : Nat} (e : SyncEvent V)
    (he : e ∈ (exec (started views tipOf wallet fork) m pinned₁ p).1 ++
      ⟨.notifyOne, ()⟩ :: (exec (started views tipOf wallet fork) n pinned₂ q).1) :
    ∃ pinned, (started views tipOf wallet fork pinned e.op).1 = e.ans := by
  rcases List.mem_append.mp he with he | he
  · exact exec_answered _ _ _ _ e he
  · rcases List.mem_cons.mp he with rfl | he
    · exact ⟨0, rfl⟩
    · exact exec_answered _ _ _ _ e he

end

/-- `initialize` and the first iteration, up to what it asks for next. -/
structure FirstIteration (l m : SyncTrace V) (startingTip : ChainBlock) (op : Op V) : Prop where
  start : ∃ boundary, Run (initializeSync none) l (.ret (startingTip, boundary))
  turn : StopsAt (steadyTurn none startingTip) m (.asks op)

namespace FirstIteration

variable {l m : SyncTrace V} {startingTip : ChainBlock} {op : Op V}

theorem run (h : FirstIteration l m startingTip op) :
    ∃ q, Run (follow none) (l ++ ⟨.notifyOne, ()⟩ :: m) q := by
  obtain ⟨boundary, hstart⟩ := h.start
  obtain ⟨k, hturn⟩ := h.turn.asked
  have hsteady : Run (steadyState none startingTip) (⟨.notifyOne, ()⟩ :: m) _ :=
    .call (.loop (hturn.bind _))
  exact ⟨_, hstart.seq (f := fun start : ChainBlock × Nat => steadyState none start.1) hsteady⟩

/-- It fits where the wallet is in position and the view is not below `prevTip`. -/
theorem fit (h : FirstIteration l m startingTip op) {tipOf : V → ChainBlock}
    {birthday : Option Nat} {w : SyncSurroundings V}
    (hpos : ∀ l, Positioned (w.wallet l) birthday startingTip)
    (hask : ∀ view locator r, (⟨.findForkPoint view locator, r⟩ : SyncEvent V) ∈ m →
      startingTip.height ≤ (tipOf view).height) :
    IterationsFit none tipOf birthday w (l ++ ⟨.notifyOne, ()⟩ :: m) := by
  obtain ⟨boundary, hstart⟩ := h.start
  obtain ⟨k, hturn⟩ := h.turn.asked
  constructor
  · intro l' prevTip hpre hiter
    rw [← List.append_nil l'] at hpre
    obtain ⟨rfl, -⟩ := IterationFrom.only hstart hturn hpre hiter
    exact hpos l'
  · intro l' m' prevTip view locator r q hpre hiter _
    obtain ⟨rfl, hm⟩ := IterationFrom.only hstart hturn hpre hiter
    exact .inl (hask view locator r (hm.subset (by simp)))

end FirstIteration

/-! ### On Zebra -/

def plainBlock (n : Nat) : BlockData := ⟨⟨n⟩, [], .empty, .empty, .empty⟩

/-- The block of a hash of these scenarios: the hash tells the height, and which of the competing
blocks it is. -/
def plainContent (hash : BlockHash) : Block := ⟨hash.bytes / 10, ⟨hash, 0⟩⟩

/-- The chain the wallet has scanned, up to block 20. -/
def ownChain : History := ⟨[plainBlock 0, plainBlock 10, plainBlock 20], List.cons_ne_nil _ _⟩

/-- The chain with block 21 in place of 20. -/
def rivalChain : History := ⟨[plainBlock 0, plainBlock 10, plainBlock 21], List.cons_ne_nil _ _⟩

/-- The chain where block 30 is mined on 20. -/
def longerChain : History :=
  ⟨[plainBlock 0, plainBlock 10, plainBlock 20, plainBlock 30], List.cons_ne_nil _ _⟩

/-- The wallet's record of `ownChain`. -/
def ownWallet : Wallet := fun height => if height = 2 then some ⟨20⟩ else none

theorem numbered_of {content : BlockHash → Block} {c : History}
    (h : ∀ height ≤ c.tip.height, (c.hashAt height).all fun hash =>
      claimedBy content hash = height) : c.Numbered content := by
  intro height hash hhash
  have hall := h height (History.height_le_tip hhash)
  rw [hhash] at hall
  exact of_decide_eq_true hall

theorem ownChain_numbered : ownChain.Numbered plainContent := numbered_of (by decide)

theorem rivalChain_numbered : rivalChain.Numbered plainContent := numbered_of (by decide)

theorem longerChain_numbered : longerChain.Numbered plainContent := numbered_of (by decide)

/-- The backend with `longerChain` as its best one, after a view of another chain was captured. -/
def extendedTo {c : History} (hnumbered : c.Numbered plainContent)
    (hfloor : c.view.finalizedFloor = 0) (hgenesis : c.hashAt 0 = some ⟨0⟩) : StoringState c where
  best := longerChain
  known _ := none
  spendIndex _ := none
  known_pinned := fun _ h => nomatch h
  best_pinned := fun h h' => (longerChain_numbered h').symm.trans (hnumbered h)
  final := by
    intro height hle
    obtain rfl : height = 0 := by omega
    exact hgenesis.symm
  holds _ := true
  holds_final := fun _ _ _ _ => rfl

/-- The answers over these chains are a Zebra backend's. -/
theorem started_onZebra {views : Nat → ZebraChainView} {pinned : Nat}
    {e : SyncEvent ZebraChainView}
    (hanswer : (started views ZebraChainView.tip ownWallet (fun _ => longerChain.forkPoint)
      pinned e.op).1 = e.ans)
    (honly : onlyAsks [ownChain.view, rivalChain.view, longerChain.view] e.op = true) :
    OnZebra plainContent {longerChain} e := by
  have hchain : ∀ view ∈ [ownChain.view, rivalChain.view, longerChain.view],
      ∃ (c : History) (s : StoringState c), c.view = view ∧ c.Numbered plainContent ∧
        s.best = longerChain := by
    intro view hview
    simp only [List.mem_cons, List.not_mem_nil, or_false] at hview
    rcases hview with rfl | rfl | rfl
    · exact ⟨ownChain, extendedTo ownChain_numbered rfl rfl, rfl, ownChain_numbered, rfl⟩
    · exact ⟨rivalChain, extendedTo rivalChain_numbered rfl rfl, rfl, rivalChain_numbered, rfl⟩
    · exact ⟨longerChain, extendedTo longerChain_numbered rfl rfl, rfl, longerChain_numbered, rfl⟩
  intro view hview
  obtain ⟨hmem, hop⟩ := onlyAsks_view honly hview
  obtain ⟨c, s, hc, hnumbered, hbest⟩ := hchain view hmem
  refine ⟨c, {s}, hc, hnumbered, ⟨s, rfl⟩, ?_, ?_⟩
  · rintro _ rfl
    exact ⟨hbest, hbest ▸ longerChain_numbered⟩
  obtain ⟨op, a⟩ := e
  rcases hop with rfl | ⟨locator, rfl⟩
  · cases hanswer
    exact .pure
  · cases hanswer
    have htold : ServedIn plainContent {s}
        ⟨.findForkPoint locator, .ok (longerChain.forkPoint locator)⟩ :=
      ⟨s, rfl, by rw [← hbest]; rfl⟩
    exact .query htold rfl

/-- `rivalChain` is pinned when the wallet starts, or `ownChain`; then `longerChain`. -/
def viewsFrom (first : History) (pinned : Nat) : ZebraChainView :=
  if pinned = 0 then first.view else longerChain.view

abbrev startedFrom (first : History) : Answer (syncSig ZebraChainView) Nat :=
  started (viewsFrom first) ZebraChainView.tip ownWallet fun _ => longerChain.forkPoint

theorem ownWallet_numbered (height : Nat) (hash : BlockHash) (h : ownWallet height = some hash) :
    claimedBy plainContent hash = height := by
  unfold ownWallet at h
  split at h
  · rename_i heq
    cases h
    exact heq.symm
  · cases h

theorem startedFrom_served {first : History} {pinned : Nat} {e : SyncEvent ZebraChainView}
    (hanswer : (startedFrom first pinned e.op).1 = e.ans)
    (honly : onlyAsks [ownChain.view, rivalChain.view, longerChain.view] e.op = true)
    (l : SyncTrace ZebraChainView) :
    ZebraServed plainContent none (fun _ => ownWallet) (fun _ => {longerChain}) l e :=
  ⟨started_wallet hanswer honly ownWallet_numbered l, started_onZebra hanswer honly⟩

/-- The wallet's block at `prev_tip.height` is the fork point, and is not `prev_tip`. -/
theorem fork_point_not_below :
    ¬ ∀ (shutdownHeight birthday : Option Nat) (content : BlockHash → Block)
      (wallet : SyncTrace ZebraChainView → Wallet)
      (bests : SyncTrace ZebraChainView → Set History) (tr : SyncTrace ZebraChainView)
      (q : Sync ZebraChainView Unit), Run (follow shutdownHeight) tr q →
      (∀ l e, l ++ [e] <+: tr → ZebraServed content birthday wallet bests l e) →
      ∀ msg, q ≠ .crash msg := by
  intro h
  have hcrash : Run (follow none) (exec (startedFrom rivalChain) 40 0 (follow none)).1
      (.crash "fork point is not below the previous tip") := exec_crash (by decide +kernel)
  have honly : ∀ e ∈ (exec (startedFrom rivalChain) 40 0 (follow none)).1,
      onlyAsks [ownChain.view, rivalChain.view, longerChain.view] e.op = true := by decide +kernel
  refine h none none plainContent (fun _ => ownWallet) (fun _ => {longerChain}) _ _ hcrash ?_ _ rfl
  intro l e hpre
  have hmem := hpre.subset (List.mem_append_right l (List.mem_singleton_self e))
  obtain ⟨pinned, hanswer⟩ := exec_answered _ _ _ _ e hmem
  exact startedFrom_served hanswer (honly e hmem) l

/-- The wallet starts on its own chain, and finds the next block mined on it. -/
def zebraStart : SyncTrace ZebraChainView :=
  (exec (startedFrom ownChain) 40 0 (initializeSync none)).1

def zebraTurn : SyncTrace ZebraChainView :=
  (exec (startedFrom ownChain) 10 1 (steadyTurn none ⟨2, ⟨20⟩⟩)).1

theorem zebra_firstIteration :
    FirstIteration zebraStart zebraTurn ⟨2, ⟨20⟩⟩ (.tryNext longerChain.view (.toTip 3) 0) where
  start := ⟨0, exec_ret (by decide +kernel)⟩
  turn := (exec_asks (by decide +kernel)).elim fun _ h => h.asks

theorem zebra_onlyAsks : ∀ e ∈ zebraStart ++ ⟨.notifyOne, ()⟩ :: zebraTurn,
    onlyAsks [ownChain.view, rivalChain.view, longerChain.view] e.op = true := by decide +kernel

theorem zebra_served (l : SyncTrace ZebraChainView) (e : SyncEvent ZebraChainView)
    (hpre : l ++ [e] <+: zebraStart ++ ⟨.notifyOne, ()⟩ :: zebraTurn) :
    ZebraServed plainContent none (fun _ => ownWallet) (fun _ => {longerChain}) l e := by
  have hmem := hpre.subset (List.mem_append_right l (List.mem_singleton_self e))
  obtain ⟨pinned, hanswer⟩ := first_answered e hmem
  exact startedFrom_served hanswer (zebra_onlyAsks e hmem) l

theorem ownWallet_positioned : Positioned ownWallet none ⟨2, ⟨20⟩⟩ where
  at_tip _ h := (Option.some.inj h).symm
  floor h := absurd h (by decide)

theorem zebra_fits : IterationsFit none ZebraChainView.tip none
    (zebraSurroundings (fun _ => ownWallet) fun _ => {longerChain})
    (zebraStart ++ ⟨.notifyOne, ()⟩ :: zebraTurn) := by
  refine zebra_firstIteration.fit (fun _ => ownWallet_positioned) ?_
  intro view locator r hmem
  have hview := zebra_onlyAsks _ (List.mem_append_right _ (List.mem_cons_of_mem _ hmem))
  have hlist : view ∈ [ownChain.view, rivalChain.view, longerChain.view] := of_decide_eq_true hview
  simp only [List.mem_cons, List.not_mem_nil, or_false] at hlist
  rcases hlist with rfl | rfl | rfl <;> decide

/-! ### On Zaino -/

/-- The chain up to block 1. -/
def upToOne : History := ⟨[plainBlock 0, plainBlock 1], List.cons_ne_nil _ _⟩

theorem upToOne_grows : upToOne.Grows siblings where
  height := by
    rintro (_ | _ | height) hash h <;> cases h <;> rfl
  parent := by
    rintro (_ | height) hash h
    · cases h
      rfl
    · cases h

/-- The first snapshot is of the chain up to block 1, the others of the one with block 2. -/
def chainOfSnapshot (view : ZainoChainView) : History :=
  if view.snapshot.id = 0 then upToOne else bestOfSiblings

theorem chainOfSnapshot_grows (view : ZainoChainView) : (chainOfSnapshot view).Grows siblings := by
  unfold chainOfSnapshot
  split
  · exact upToOne_grows
  · exact bestOfSiblings_grows

/-- The wallet's record of block 1. -/
def walletOfOne : Wallet := fun height => if height = 1 then some ⟨1⟩ else none

theorem walletOfOne_numbered (height : Nat) (hash : BlockHash)
    (h : walletOfOne height = some hash) : siblings.heightOf hash = height := by
  unfold walletOfOne at h
  split at h
  · rename_i heq
    cases h
    exact heq.symm
  · cases h

/-- An index may name the first entry that is on the chain. -/
theorem firstFork_entry {t : BlockTree} {c : History} (view : ZainoChainView) :
    ∀ hashes : List BlockHash,
      Outcome (ForksOf t c) (view.firstFork hashes) (.ok (c.forkPoint ⟨hashes⟩)) := by
  intro hashes
  induction hashes with
  | nil => exact .pure
  | cons hash rest ih =>
      cases hheight : c.heightOf hash with
      | some height =>
          have hon : c.hashAt height = some hash := History.hashAt_heightOf hheight
          have hindex : ForksOf t c
              ⟨.findForkPoint view.snapshot hash, .ok (some ⟨height, hash⟩)⟩ :=
            ⟨hon, .refl hash, ⟨height, hon⟩, fun _ h _ => h⟩
          rw [History.forkPoint_cons_some hheight]
          exact .bind (.query hindex rfl) .pure
      | none =>
          have hindex : ForksOf t c ⟨.findForkPoint view.snapshot hash, .ok none⟩ := by
            rintro ⟨height, hon⟩
            obtain ⟨block, hblock, hhash⟩ := Option.map_eq_some_iff.mp hon
            have hnot := List.findIdx?_eq_none_iff.mp hheight block (List.mem_of_getElem? hblock)
            exact absurd hhash (of_decide_eq_false hnot)
          rw [History.forkPoint_cons_none hheight]
          exact .bind (.query hindex rfl) ih

abbrev startedOnOne : Answer (syncSig ZainoChainView) Nat :=
  started (fun pinned => ⟨⟨pinned⟩⟩) (fun view => (chainOfSnapshot view).tip) walletOfOne
    fun view => (chainOfSnapshot view).forkPoint

theorem startedOnOne_served {pinned : Nat} {e : SyncEvent ZainoChainView}
    (hanswer : (startedOnOne pinned e.op).1 = e.ans)
    (honly : onlyAsks [⟨⟨0⟩⟩, ⟨⟨1⟩⟩] e.op = true) (l : SyncTrace ZainoChainView) :
    ZainoServes siblings chainOfSnapshot none (fun _ => walletOfOne) l e := by
  refine ⟨started_wallet hanswer honly walletOfOne_numbered l, ?_⟩
  intro view hview
  obtain ⟨-, hop⟩ := onlyAsks_view honly hview
  refine ⟨chainOfSnapshot_grows view, ?_⟩
  obtain ⟨op, a⟩ := e
  rcases hop with rfl | ⟨locator, rfl⟩
  · cases hanswer
    have htold : BlocksOf (chainOfSnapshot view)
        ⟨.bestChaintip view.snapshot, .ok (chainOfSnapshot view).tip⟩ := rfl
    exact ⟨.query htold rfl, trivial⟩
  · cases hanswer
    exact ⟨firstFork_entry view locator.hashes, trivial⟩

/-- The wallet starts on the chain up to block 1, and finds block 2 mined on it. -/
def zainoStart : SyncTrace ZainoChainView := (exec startedOnOne 40 0 (initializeSync none)).1

def zainoTurn : SyncTrace ZainoChainView :=
  (exec startedOnOne 9 1 (steadyTurn none ⟨1, ⟨1⟩⟩)).1

theorem zaino_firstIteration :
    FirstIteration zainoStart zainoTurn ⟨1, ⟨1⟩⟩ (.tryNext ⟨⟨1⟩⟩ (.toTip 2) 0) where
  start := ⟨0, exec_ret (by decide +kernel)⟩
  turn := (exec_asks (by decide +kernel)).elim fun _ h => h.asks

theorem zaino_onlyAsks : ∀ e ∈ zainoStart ++ ⟨.notifyOne, ()⟩ :: zainoTurn,
    onlyAsks [⟨⟨0⟩⟩, ⟨⟨1⟩⟩] e.op = true := by decide +kernel

theorem zaino_served (l : SyncTrace ZainoChainView) (e : SyncEvent ZainoChainView)
    (hpre : l ++ [e] <+: zainoStart ++ ⟨.notifyOne, ()⟩ :: zainoTurn) :
    ZainoServes siblings chainOfSnapshot none (fun _ => walletOfOne) l e := by
  have hmem := hpre.subset (List.mem_append_right l (List.mem_singleton_self e))
  obtain ⟨pinned, hanswer⟩ := first_answered e hmem
  exact startedOnOne_served hanswer (zaino_onlyAsks e hmem) l

theorem walletOfOne_positioned : Positioned walletOfOne none ⟨1, ⟨1⟩⟩ where
  at_tip _ h := (Option.some.inj h).symm
  floor h := absurd h (by decide)

theorem zaino_fits : IterationsFit none (fun view => (chainOfSnapshot view).tip) none
    (zainoSurroundings chainOfSnapshot fun _ => walletOfOne)
    (zainoStart ++ ⟨.notifyOne, ()⟩ :: zainoTurn) := by
  refine zaino_firstIteration.fit (fun _ => walletOfOne_positioned) ?_
  intro view locator r _
  show 1 ≤ (chainOfSnapshot view).tip.height
  unfold chainOfSnapshot
  split <;> decide

/-- Over each backend, the first iteration of a wallet that is extended by a block. -/
theorem assertions_hold_extending :
    (∃ q, Run (follow none) (zebraStart ++ ⟨.notifyOne, ()⟩ :: zebraTurn) q ∧
      ∀ msg, q ≠ .crash msg) ∧
    ∃ q, Run (follow none) (zainoStart ++ ⟨.notifyOne, ()⟩ :: zainoTurn) q ∧
      ∀ msg, q ≠ .crash msg := by
  constructor
  · obtain ⟨q, hrun⟩ := zebra_firstIteration.run
    exact ⟨q, hrun, (assertions_hold none none).1 _ _ _ _ q hrun zebra_served zebra_fits⟩
  · obtain ⟨q, hrun⟩ := zaino_firstIteration.run
    exact ⟨q, hrun, (assertions_hold none none).2 _ _ _ _ q hrun zaino_served zaino_fits⟩

end Zallet
