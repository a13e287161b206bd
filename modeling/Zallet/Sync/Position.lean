/-
# `Zallet.Sync.Position` — `prev_tip` and the wallet's blocks

`steady_state` keeps its position twice: in `prev_tip`, and in the blocks the
wallet database holds.  They are in step (`InStep`) when the wallet's block at
`prev_tip.height` is `prev_tip` and it holds none above.  Every way out of an
iteration keeps them in step, and so does the recovery from a block conflict,
with three exceptions.  `Exact` names two: a truncation that reached less far
up than it was asked to, since the height it returns is not looked at, and a
failure to record the new chain tip after its block was stored.  The third is a
view that names a fork point which is no block of the wallet (`NamesHeld`): a
backend may name an ancestor of the blocks in the locator.
-/
import Zallet.Sync.Traversal
import Zallet.Prog.Exec

namespace Zallet

variable {V : Type}

open Prog

/-! ## The wallet's blocks -/

/-- The hash of the wallet's block at each height. -/
abbrev Wallet := Nat → Option BlockHash

/-- Forget the blocks above a height. -/
def Wallet.truncate (wallet : Wallet) (height : Nat) : Wallet :=
  fun h => if h ≤ height then wallet h else none

def Wallet.put (wallet : Wallet) (b : ScannedBlock) : Wallet :=
  fun h => if h = b.height then some b.hash else wallet h

/-- What an operation does to the wallet's blocks.  All that is known of a truncation is that
the height it reaches, and returns, is at most the requested one. -/
def walletStep (wallet : Wallet) : (op : Op V) → op.Ans → Wallet → Prop
  | .getBlockHash height, .ok hash, wallet' => hash = wallet height ∧ wallet' = wallet
  | .truncateToHeight height, .ok reached, wallet' =>
      reached ≤ height ∧ wallet' = wallet.truncate reached
  | .putBlocks _ blocks, .ok _, wallet' => wallet' = blocks.foldl Wallet.put wallet
  | _, _, wallet' => wallet' = wallet

/-- A fork point that a view names is a block the wallet holds. -/
def NamesHeld (wallet : Wallet) : SyncEvent V → Prop
  | ⟨.findForkPoint _ _, .ok (some fork)⟩ => wallet fork.height = some fork.hash
  | _ => True

/-- The wallet's blocks along a run in which every fork point named is one of them. -/
def heldStep (wallet : Wallet) (op : Op V) (a : op.Ans) (wallet' : Wallet) : Prop :=
  walletStep wallet op a wallet' ∧ NamesHeld wallet ⟨op, a⟩

/-- The wallet's block at `prevTip.height` is `prevTip`, and there is none above. -/
structure InStep (wallet : Wallet) (prevTip : ChainBlock) : Prop where
  at_tip : wallet prevTip.height = some prevTip.hash
  above : ∀ h, prevTip.height < h → wallet h = none

/-- A truncation reached the height it was asked for; the chain tip was recorded. -/
def Exact : SyncEvent V → Prop
  | ⟨.truncateToHeight height, .ok reached⟩ => reached = height
  | ⟨.updateChainTip _, .error _⟩ => False
  | _ => True

theorem InStep.truncate {wallet : Wallet} {fork : ChainBlock}
    (h : wallet fork.height = some fork.hash) : InStep (wallet.truncate fork.height) fork where
  at_tip := by simp [Wallet.truncate, h]
  above k hk := by simp [Wallet.truncate, Nat.not_le.mpr hk]

theorem InStep.put {wallet : Wallet} {prevTip : ChainBlock} (h : InStep wallet prevTip)
    {b : ScannedBlock} (hb : b.height = prevTip.height + 1) :
    InStep (wallet.put b) ⟨b.height, b.hash⟩ where
  at_tip := by simp [Wallet.put]
  above k (hk : b.height < k) := by
    simp only [Wallet.put, if_neg (Nat.ne_of_gt hk)]
    exact h.above k (by omega)

/-! ## The world of exact answers -/

/-- The world of the wallet's blocks, in which truncations are exact. -/
def exactWorld (V : Type) : World (syncSig V) Wallet where
  step wallet op a wallet' := heldStep wallet op a wallet' ∧ Exact ⟨op, a⟩
  guard _ _ := True
  crash _ := True

/-- Operations that do not touch the wallet's blocks. -/
def Untouching : Op V → Prop
  | .putBlocks _ _ | .truncateToHeight _ => False
  | _ => True

theorem Untouching.wallet_eq {wallet wallet' : Wallet} {op : Op V} {a : op.Ans}
    (h : Untouching op) (hstep : walletStep wallet op a wallet') : wallet' = wallet := by
  cases op with
  | getBlockHash height =>
      cases a with
      | error e => exact hstep
      | ok hash => exact hstep.2
  | putBlocks fromState blocks => exact h.elim
  | truncateToHeight height => exact h.elim
  | _ => exact hstep

theorem exactWorld_still (wallet : Wallet) (op : Op V) (a : op.Ans) (wallet' : Wallet)
    (h : Untouching op) (hstep : (exactWorld V).step wallet op a wallet') :
    wallet' = wallet := h.wallet_eq hstep.1.1

theorem untouching_still {α : Type} {ε : Type} {p : Prog (syncSig V) ε α}
    (hp : Safe (World.history Untouching) p) (wallet : Wallet) :
    wp (exactWorld V) p (fun t _ => t = wallet) (fun t _ => t = wallet) wallet :=
  hp.still (fun _ _ _ => trivial) exactWorld_still wallet

theorem chainCall_still {α : Type} {op : Op V} {f : (syncSig V).Ans op → Except ChainError α}
    {wallet : Wallet} (h : Untouching op := by trivial) :
    wp (exactWorld V) (chainCall op f) (fun t _ => t = wallet) (fun t _ => t = wallet)
      wallet :=
  untouching_still (safe_chainCall fun _ => h) wallet

theorem dbCall_still {α : Type} {op : Op V} {f : (syncSig V).Ans op → Except SqliteClientError α}
    {wallet : Wallet} (h : Untouching op := by trivial) :
    wp (exactWorld V) (dbCall op f) (fun t _ => t = wallet) (fun t _ => t = wallet)
      wallet :=
  untouching_still (safe_dbCall fun _ => h) wallet

theorem Quiet.untouching {op : Op V} (h : Quiet op) : Untouching op := by
  cases op <;> trivial

theorem history_quiet : AllowsQuiet (World.history (Untouching (V := V))) :=
  fun _ _ h => h.untouching

/-! ## Scanning a block -/

/-- Scanning a block puts that block or nothing. -/
theorem scanBlock_puts {view : V} {block : Block} {shutdownHeight : Option Nat}
    {wallet : Wallet} :
    wp (exactWorld V) (scanBlock view block shutdownHeight)
      (fun t flow => match flow with
        | .brk _ => t = wallet
        | .cont _ => ∃ b : ScannedBlock, b.height = block.claimedHeight ∧
            b.hash = block.header.hash ∧ t = wallet.put b)
      (fun t _ => t = wallet) wallet := by
  unfold scanBlock
  dsimp only
  split
  · rfl
  · refine wp_bind_still chainCall_still (fun fromState => ?_) fun _ => rfl
    refine wp_bind_still (untouching_still (queueBlock_safe history_quiet) _) (fun _ => ?_)
      fun _ => rfl
    refine wp_bind_still dbCall_still (fun _ => ?_) fun _ => rfl
    refine wp_bind_still (untouching_still (transparentAddressIndex_safe history_quiet) _)
      (fun _ => ?_) fun _ => rfl
    refine wp_bind_still (untouching_still (awaitDecrypted_safe history_quiet) _) (fun _ => ?_)
      fun _ => rfl
    simp only [fullScanBlock, wp_bind, wp_query]
    refine ⟨trivial, fun a t hstep => ?_⟩
    obtain rfl : t = wallet := hstep.1.1
    rcases a with e | ⟨sapling, orchard, ironwood⟩
    · rfl
    · simp only [ends_ok, wp_dbCall]
      refine ⟨trivial, fun a t hstep => ?_⟩
      have hwallet := hstep.1.1
      cases a with
      | error e => exact hwallet
      | ok _ => exact ⟨_, rfl, rfl, hwallet⟩

/-! ## The fork point -/

/-- The fork point a search finds is a block of the wallet, if `prevTip` is. -/
theorem locateForkPoint_in_wallet {view : V} {prevTip : ChainBlock} {wallet : Wallet}
    (htip : wallet prevTip.height = some prevTip.hash) :
    wp (exactWorld V) (locateForkPoint view prevTip)
      (fun t fork => t = wallet ∧ wallet fork.height = some fork.hash)
      (fun t _ => t = wallet) wallet := by
  have hstill : ∀ s op a s', SearchReads view op → (exactWorld V).step s op a s' →
      s' = s := fun s op a s' h => exactWorld_still s op a s' h.quiet.untouching
  refine locateForkPoint_history.of_history (fun _ _ _ _ _ _ => trivial) ?_
    fun tr t e hpath hreads _ => (hpath.still hreads hstill).1
  intro tr t fork hpath hreads hfound
  obtain ⟨rfl, hsteps⟩ := hpath.still hreads hstill
  have hrecorded : ∀ {height hash}, WalletHas tr height hash → t height = some hash :=
    fun hhas => ((hsteps _ hhas).1.1.1).symm
  refine ⟨rfl, ?_⟩
  cases hfound with
  | named locator _ hnamed => exact (hsteps _ hnamed).1.2
  | fresh _ _ hfork => exact hfork ▸ htip
  | walked birthday header _ _ hhas _ _ => exact hrecorded hhas

/-! ## An iteration -/

theorem applyBlocks_inStep {view : V} {start : Nat} {prevTip : ChainBlock}
    {shutdownHeight : Option Nat} {wallet : Wallet} (h : InStep wallet prevTip) :
    wp (exactWorld V) (applyBlocks view start prevTip shutdownHeight)
      (fun t r => InStep t r.1) (fun t e => InStep t e.1) wallet := by
  refine wp_iterate (fun x t => InStep t x.2) h ?_
  rintro ⟨pos, p⟩ t (hp : InStep t p)
  refine wp_mapErr.mpr (wp_bind_still chainCall_still (fun block => ?_) fun _ => hp)
  cases block with
  | none => exact hp
  | some block =>
      simp only [wp_bind, wp_check]
      refine ⟨fun hnext => ?_, fun _ => trivial⟩
      refine wp_mono (fun t' flow hflow => ?_) (fun t' e he => ?_) scanBlock_puts
      · cases flow with
        | brk boundary =>
            obtain rfl : t' = t := hflow
            exact hp
        | cont _ =>
            obtain ⟨b, hheight, hhash, rfl⟩ := hflow
            simp only [wp_bind, wp_dbCall]
            refine ⟨trivial, fun a t'' hstep => ?_⟩
            obtain rfl : t'' = t.put b := hstep.1.1
            cases a with
            | error e => exact hstep.2.elim
            | ok _ =>
                have hput := hp.put (hheight.trans hnext)
                rw [hheight, hhash] at hput
                exact hput
      · obtain rfl : t' = t := he
        exact hp

theorem applyTipChange_inStep {view : V} {currentTip prevTip : ChainBlock}
    {shutdownHeight : Option Nat} {wallet : Wallet} (h : InStep wallet prevTip) :
    wp (exactWorld V) (applyTipChange view currentTip prevTip shutdownHeight)
      (fun t r => InStep t r.1) (fun t e => InStep t e.1) wallet := by
  simp only [applyTipChange, wp_bind]
  refine ⟨trivial, fun _ t hstep => ⟨trivial, fun _ t' hstep' => ?_⟩⟩
  obtain rfl : t = wallet := hstep.1.1
  obtain rfl : t' = t := hstep'.1.1
  simp only [leaving, wp_ret, wp_mapErr]
  refine wp_mono ?_ ?_ (locateForkPoint_in_wallet h.at_tip)
  · rintro t fork ⟨rfl, hfork⟩
    simp only [wp_check]
    refine ⟨fun _ => ?_, fun _ => trivial⟩
    split
    · exact applyBlocks_inStep h
    · simp only [wp_bind, wp_check, wp_mapErr, wp_dbCall]
      refine ⟨fun _ => ⟨trivial, fun a t' hstep => ?_⟩, fun _ => trivial⟩
      have hwallet := hstep.1.1
      cases a with
      | error e =>
          obtain rfl : t' = t := hwallet
          exact h
      | ok reached =>
          obtain rfl : reached = fork.height := hstep.2
          obtain rfl := hwallet.2
          exact applyBlocks_inStep (.truncate hfork)
  · rintro t e rfl
    exact h

theorem catchUp_inStep {view : V} {currentTip prevTip : ChainBlock}
    {shutdownHeight : Option Nat} {wallet : Wallet} (h : InStep wallet prevTip) :
    wp (exactWorld V) (catchUp view currentTip prevTip shutdownHeight)
      (fun t r => InStep t r.1) (fun t e => InStep t e.1) wallet := by
  unfold catchUp
  split
  · exact applyTipChange_inStep h
  · exact h

/-- However an iteration ends, it leaves `prev_tip` in step with the wallet. -/
theorem steadyStateIteration_inStep {prevTip : ChainBlock} {shutdownHeight : Option Nat}
    {wallet : Wallet} (h : InStep wallet prevTip) :
    wp (exactWorld V) (steadyStateIteration shutdownHeight prevTip)
      (fun t r => InStep t r.1) (fun t e => InStep t e.1) wallet := by
  simp only [steadyStateIteration, leaving, wp_bind, wp_mapErr]
  refine wp_still chainCall_still (fun view => ?_) fun _ => h
  refine wp_still chainCall_still (fun currentTip => ?_) fun _ => h
  refine wp_mono ?_ (fun _ _ he => he) (catchUp_inStep h)
  rintro t ⟨prevTip', _ | _⟩ h'
  · exact h'
  · simp only [wp_bind, wp_mapErr]
    refine wp_still (untouching_still ?_ t) (fun _ => h') fun _ => h'
    exact followMempool_safe history_quiet fun _ =>
      streamMempool_safe (fun _ => trivial) fun _ _ => trivial

/-! ## Turns -/

theorem recoverConflict_inStep {height : Nat} {wallet : Wallet} :
    wp (exactWorld V) (recoverConflict height : Sync V _)
      (fun t fork => InStep t fork) (fun t _ => t = wallet) wallet := by
  simp only [recoverConflict, wp_bind, wp_query]
  refine ⟨trivial, fun a t hstep => ?_⟩
  have hwallet := hstep.1.1
  rcases a with e | _ | hash
  · exact hwallet
  · exact hwallet.2
  obtain ⟨hhash, rfl⟩ : some hash = wallet (height - 1) ∧ t = wallet := hwallet
  simp only [Except.mapError, Except.bind, Option.elim_some, ends_ok]
  refine wp_still chainCall_still (fun view => ?_) fun _ => rfl
  have htip : t (ChainBlock.mk (height - 1) hash).height = some hash := hhash.symm
  refine wp_mono ?_ (fun _ _ he => he) (locateForkPoint_in_wallet htip)
  rintro t' fork ⟨rfl, hfork⟩
  simp only [wp_dbCall]
  refine ⟨trivial, fun a t'' hstep => ?_⟩
  have hwallet := hstep.1.1
  cases a with
  | error e => exact hwallet
  | ok reached =>
      obtain rfl : reached = fork.height := hstep.2
      obtain rfl := hwallet.2
      exact .truncate hfork

theorem handleError_inStep {prevTip : ChainBlock} {error : SyncError} {wallet : Wallet}
    (h : InStep wallet prevTip) :
    wp (exactWorld V) (handleError prevTip error : Sync V _)
      (fun t e => InStep t e.prevTip) (fun _ _ => False) wallet := by
  unfold handleError
  split
  · refine ⟨trivial, fun _ t hstep => ?_⟩
    obtain rfl : t = wallet := hstep.1.1
    exact h
  · split
    · simp only [wp_bind, wp_attempt]
      refine wp_mono (fun t fork hfork => hfork) (fun t e ht => ?_) recoverConflict_inStep
      obtain rfl : t = wallet := ht
      exact h
    · exact h

/-- However a turn of the loop ends, it leaves `prev_tip` in step with the wallet. -/
theorem steadyStatePass_inStep {prevTip : ChainBlock} {shutdownHeight : Option Nat}
    {wallet : Wallet} (h : InStep wallet prevTip) :
    wp (exactWorld V) (steadyStatePass shutdownHeight prevTip : Sync V _)
      (fun t e => InStep t e.prevTip) (fun _ _ => False) wallet := by
  simp only [steadyStatePass, wp_bind, wp_attempt]
  refine wp_mono ?_ (fun t e he => handleError_inStep he) (steadyStateIteration_inStep h)
  rintro t ⟨prevTip', _ | _⟩ h'
  · exact h'
  · exact h'

theorem steadyTurn_inStep {prevTip : ChainBlock} {shutdownHeight : Option Nat}
    {wallet : Wallet} (h : InStep wallet prevTip) :
    wp (exactWorld V) (steadyTurn shutdownHeight prevTip : Sync V _)
      (fun t => Sum.elim (fun z => InStep t z) fun _ => True) (fun _ _ => True) wallet := by
  simp only [steadyTurn, wp_bind]
  refine wp_mono ?_ (fun _ _ _ => trivial) (steadyStatePass_inStep h)
  intro t e he
  cases e with
  | again _ => exact he
  | shutdown _ _ => trivial
  | fatal _ _ => trivial

/-! ## Whole runs -/

/-- Along the events of a run of `steady_state` from `start`, an iteration has just ended with
`prev_tip` at the given block: it returned, it failed, or its failure was dealt with. -/
inductive IterationEnds (shutdownHeight : Option Nat) (start : ChainBlock) :
    SyncTrace V → ChainBlock → Prop
  | returned {l m : SyncTrace V} {p prevTip : ChainBlock} {flow : ControlFlow Nat Unit} :
      Turns (steadyTurn shutdownHeight) start l p →
      Run (steadyStateIteration shutdownHeight p) m (.ret (prevTip, flow)) →
      IterationEnds shutdownHeight start (⟨.notifyOne, ()⟩ :: (l ++ m)) prevTip
  | failed {l m : SyncTrace V} {p prevTip : ChainBlock} {error : SyncError} :
      Turns (steadyTurn shutdownHeight) start l p →
      Run (steadyStateIteration shutdownHeight p) m (.fail (prevTip, error)) →
      IterationEnds shutdownHeight start (⟨.notifyOne, ()⟩ :: (l ++ m)) prevTip
  | handled {l m : SyncTrace V} {p : ChainBlock} {e : PassEnd} :
      Turns (steadyTurn shutdownHeight) start l p →
      Run (steadyStatePass shutdownHeight p) m (.ret e) →
      IterationEnds shutdownHeight start (⟨.notifyOne, ()⟩ :: (l ++ m)) e.prevTip

/-- As long as truncations are exact, the chain tip is recorded and the wallet holds the fork
points that views name, `prev_tip` and the wallet's blocks are in step whenever an iteration
ends. -/
theorem position_in_step {shutdownHeight : Option Nat} {start prevTip : ChainBlock}
    {tr : SyncTrace V} {wallet wallet' : Wallet}
    (hend : IterationEnds shutdownHeight start tr prevTip)
    (hpath : Path heldStep wallet tr wallet')
    (hstart : InStep wallet start) (hexact : ∀ e ∈ tr, Exact e) : InStep wallet' prevTip := by
  have hpath : Path (exactWorld V).step wallet tr wallet' := hpath.restrict hexact
  -- the finished turns keep the position, from `start` to the last iteration's `prev_tip`
  have hturns : ∀ {l p t}, Turns (steadyTurn shutdownHeight) start l p →
      Path (exactWorld V).step wallet l t → InStep t p := fun h hp =>
    h.invariant (fun z t => InStep t z) (fun _ _ h => steadyTurn_inStep h) hp hstart
  have hnotify : ∀ {r t}, Path (exactWorld V).step wallet (⟨.notifyOne, ()⟩ :: r) t →
      Path (exactWorld V).step wallet r t := by
    intro r t h
    cases h with
    | cons hstep hrest =>
        obtain rfl := hstep.1.1
        exact hrest
  cases hend with
  | returned hl hm =>
      obtain ⟨t, hpl, hpm⟩ := (hnotify hpath).split
      exact (steadyStateIteration_inStep (hturns hl hpl)).sound hm hpm
  | failed hl hm =>
      obtain ⟨t, hpl, hpm⟩ := (hnotify hpath).split
      exact (steadyStateIteration_inStep (hturns hl hpl)).sound hm hpm
  | handled hl hm =>
      obtain ⟨t, hpl, hpm⟩ := (hnotify hpath).split
      exact (steadyStatePass_inStep (hturns hl hpl)).sound hm hpm

/-! ## A short truncation -/

/-- The blocks 10 and 20, at heights 1 and 2. -/
def walletOfTwo : Wallet := fun height =>
  if height = 1 then some ⟨10⟩ else if height = 2 then some ⟨20⟩ else none

/-- The wallet has the blocks 10 and 20, up to the height in the state; the best chain has 21 in
place of 20.  A truncation ends `short` blocks below the requested height, and the view goes
stale before any block is read. -/
def replaced (short : Nat) : Answer (syncSig Unit) Nat := fun limit op =>
  match op with
  | .tip _ => (.ok ⟨2, ⟨21⟩⟩, limit)
  | .getBlockHash height => (.ok (walletOfTwo.truncate limit height), limit)
  | .findForkPoint _ locator =>
      (.ok (if ⟨10⟩ ∈ locator.hashes ∧ 1 ≤ limit then some ⟨1, ⟨10⟩⟩ else none), limit)
  | .truncateToHeight height => (.ok (height - short), min limit (height - short))
  | .tryNext _ _ _ => (.error (.unavailable "reorged away"), limit)
  | .putBlocks _ _ => (.error (.other "read-only"), limit)
  | op => (op.idle (), limit)

def replacedRun (short : Nat) : Trace (syncSig Unit) × Nat × Sync Unit PassEnd :=
  exec (replaced short) 20 2 (steadyStatePass none ⟨2, ⟨20⟩⟩)

theorem truncate_truncate (wallet : Wallet) (m n : Nat) :
    (wallet.truncate m).truncate n = wallet.truncate (min m n) := by
  funext h
  simp only [Wallet.truncate, Nat.le_min]
  by_cases hm : h ≤ m <;> by_cases hn : h ≤ n <;> simp [hm, hn]

theorem walletOfTwo_inStep : InStep (walletOfTwo.truncate 2) ⟨2, ⟨20⟩⟩ :=
  @InStep.truncate walletOfTwo ⟨2, ⟨20⟩⟩ rfl

/-- All that `steady_state` did: its first turn ends in a retry. -/
def replacedTrace (short : Nat) : SyncTrace Unit := ⟨.notifyOne, ()⟩ :: (replacedRun short).1

theorem replaced_path (short : Nat) :
    Path heldStep (walletOfTwo.truncate 2) (replacedTrace short)
      (walletOfTwo.truncate (replacedRun short).2.1) := by
  refine .cons ⟨rfl, trivial⟩
    (exec_path (fun limit => walletOfTwo.truncate limit) (fun limit op => ?_) 20 2 _)
  cases op with
  | getBlockHash height => exact ⟨⟨rfl, rfl⟩, trivial⟩
  | truncateToHeight height => exact ⟨⟨Nat.sub_le _ _, (truncate_truncate _ _ _).symm⟩, trivial⟩
  | findForkPoint view locator =>
      refine ⟨rfl, ?_⟩
      by_cases h : ⟨10⟩ ∈ locator.hashes ∧ 1 ≤ limit
      · simp [replaced, h, NamesHeld, Wallet.truncate, walletOfTwo]
      · simp [replaced, h, NamesHeld]
  | _ => exact ⟨rfl, trivial⟩

theorem replaced_exact : ∀ e ∈ replacedTrace 0, Exact e := by
  intro e he
  rcases List.mem_cons.mp he with rfl | he
  · trivial
  · refine exec_forall (fun limit op => ?_) _ _ _ e he
    cases op <;> trivial

theorem replaced_ends {short : Nat}
    (h : (replacedRun short).2.2.result? = some (.again ⟨1, ⟨10⟩⟩)) :
    IterationEnds none ⟨2, ⟨20⟩⟩ (replacedTrace short) ⟨1, ⟨10⟩⟩ :=
  .handled .start (exec_ret h)

theorem position_in_step_replaced :
    InStep (walletOfTwo.truncate (replacedRun 0).2.1) ⟨1, ⟨10⟩⟩ :=
  position_in_step (replaced_ends (by decide +kernel)) (replaced_path 0) walletOfTwo_inStep
    replaced_exact

/-- A truncation to height 0 leaves `prev_tip` at height 1, where the wallet has no block. -/
theorem position_out_of_step :
    ¬ ∀ (shutdownHeight : Option Nat) (start prevTip : ChainBlock) (tr : SyncTrace Unit)
      (wallet wallet' : Wallet), IterationEnds shutdownHeight start tr prevTip →
      Path heldStep wallet tr wallet' → InStep wallet start → InStep wallet' prevTip := by
  intro h
  have hstep := h _ _ _ _ _ _ (replaced_ends (by decide +kernel)) (replaced_path 1)
    walletOfTwo_inStep
  exact absurd hstep.at_tip (by decide +kernel)

end Zallet
