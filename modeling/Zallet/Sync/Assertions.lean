/-
# `Zallet.Sync.Assertions` — the assertions of `steady_state_iteration`

An iteration asserts three things: the fork point is not above the view's tip,
a fork point other than `prev_tip` is strictly below it, and every streamed
block is the next one.  The third follows from what is promised of a stream.
The first two rest on the fork search, whose three ways to an answer can each
disagree with them; what keeps them from it is where the wallet and the chain
stand (`Positioned`, `Askable`):

* `find_fork_point` may answer from a chain that has moved on past the view, or
  name the wallet's block at `prev_tip.height` when `prev_tip` is another block
  of that height;
* a wallet without blocks is told to go on from `prev_tip`, wherever the view's
  tip is;
* the walk back is floored at the birthday, which need not be below `prev_tip`.

What a backend answers is left open here, up to `Contract`; that both of them
keep to it is the subject of `Zallet.Backends.Assertions`.
-/
import Zallet.Sync.Runs
import Zallet.Sync.Position
import Mathlib.Data.List.Induction
import Mathlib.Data.Set.Basic

namespace Zallet

variable {V : Type}

open Prog

/-! ## What is around a run -/

/-- What the answers to a run depend on, after each of its prefixes: the wallet's blocks, and the
heights of the chains from which a view may name a fork point. -/
structure SyncSurroundings (V : Type) where
  wallet : SyncTrace V → Wallet
  reach : SyncTrace V → V → Set Nat

/-- The fork point is an entry of the locator, or further down. -/
def NamedFrom (heightOf : BlockHash → Nat) (locator : BlockLocator) (fork : ChainBlock) : Prop :=
  ∃ entry ∈ locator.hashes, fork = ⟨heightOf entry, entry⟩ ∨ fork.height < heightOf entry

/-- What is relied on of the answers.  A view has one tip, headers are of blocks up to the tip, a
stream gives consecutive blocks, and a fork point is from one of the chains. -/
def Contract (tipOf : V → ChainBlock) (heightOf : BlockHash → Nat) (birthday : Option Nat)
    (reach : V → Set Nat) : SyncEvent V → Prop
  | ⟨.tip view, .ok tip⟩ => tip = tipOf view
  | ⟨.getBlockHeader view height, .ok (some _)⟩ => height ≤ (tipOf view).height
  | ⟨.tryNext _ (.toTip start) pos, .ok (some block)⟩ => block.claimedHeight = start + pos
  | ⟨.findForkPoint view locator, .ok (some fork)⟩ =>
      (∃ top ∈ reach view, fork.height ≤ top) ∧ NamedFrom heightOf locator fork
  | ⟨.getWalletBirthday, .ok r⟩ => r = birthday
  | _ => True

section
variable (tipOf : V → ChainBlock) (heightOf : BlockHash → Nat) (birthday : Option Nat)
  (w : SyncSurroundings V)

/-- The event comes after the others in these surroundings. -/
structure AnsweredIn (l : SyncTrace V) (e : SyncEvent V) : Prop where
  wallet : walletStep (w.wallet l) e.op e.ans (w.wallet (l ++ [e]))
  numbered : ∀ height hash, w.wallet l height = some hash → heightOf hash = height
  contract : Contract tipOf heightOf birthday (w.reach l) e

/-- The wallet before an iteration from `prevTip`: its block of that height, if it has one, is
`prevTip`, and at a birthday further up it has none. -/
structure Positioned (wallet : Wallet) (birthday : Option Nat) (prevTip : ChainBlock) : Prop where
  at_tip : ∀ hash, wallet prevTip.height = some hash → hash = prevTip.hash
  floor : prevTip.height < birthday.getD 0 → wallet (birthday.getD 0) = none

/-- When the fork point is asked for: `prevTip` is not above the view's tip, or the locator has an
entry and no chain that it is looked for on reaches past the view's tip. -/
def Askable (tip : ChainBlock) (wallet : Wallet) (reach : Set Nat) (prevTip : ChainBlock) : Prop :=
  prevTip.height ≤ tip.height ∨
    (∃ height ∈ locatorBlockHeights prevTip.height, wallet height ≠ none) ∧
      ∀ top ∈ reach, top ≤ tip.height

/-- The event is answered in these surroundings, and a fork point may be asked for. -/
structure FitsIn (prevTip : ChainBlock) (l : SyncTrace V) (e : SyncEvent V) : Prop
    extends AnsweredIn tipOf heightOf birthday w l e where
  askable : ∀ view locator, e.op = .findForkPoint view locator →
    Askable (tipOf view) (w.wallet l) (w.reach l view) prevTip

end

section
variable {tipOf : V → ChainBlock} {heightOf : BlockHash → Nat} {birthday : Option Nat}
  {w : SyncSurroundings V} {prevTip fork : ChainBlock} {s tr : SyncTrace V} {view : V}

/-! ## The fork search -/

section
variable (hfit : ∀ m e, m ++ [e] <+: tr → FitsIn tipOf heightOf birthday w prevTip (s ++ m) e)
  (hreads : ∀ e ∈ tr, SearchReads view e.op)
include hfit hreads

/-- The wallet does not change while a fork point is searched for. -/
theorem search_wallet : ∀ m, m <+: tr → w.wallet (s ++ m) = w.wallet s := by
  intro m
  induction m using List.reverseRecOn with
  | nil =>
      intro _
      rw [List.append_nil]
  | append_singleton m e ih =>
      intro hpre
      have hmem : e ∈ tr := hpre.subset (by simp)
      have hstep := (hreads e hmem).quiet.untouching.wallet_eq (hfit m e hpre).wallet
      rw [← List.append_assoc, hstep]
      exact ih ((List.prefix_append m [e]).trans hpre)

/-- Each event of the search was answered with the wallet as it was before it. -/
theorem search_answered {e : SyncEvent V} (he : e ∈ tr) :
    ∃ m, w.wallet (s ++ m) = w.wallet s ∧ FitsIn tipOf heightOf birthday w prevTip (s ++ m) e := by
  obtain ⟨m, r, rfl⟩ := List.append_of_mem he
  have hpre : m ++ [e] <+: m ++ e :: r := ⟨r, by simp⟩
  exact ⟨m, search_wallet hfit hreads m (List.prefix_append _ _), hfit m e hpre⟩

theorem search_has {height : Nat} {hash : BlockHash} (h : WalletHas tr height hash) :
    w.wallet s height = some hash ∧ heightOf hash = height := by
  obtain ⟨m, hw, hm⟩ := search_answered hfit hreads h
  have hhas : some hash = w.wallet (s ++ m) height := hm.wallet.1
  exact ⟨hw ▸ hhas.symm, hm.numbered height hash hhas.symm⟩

theorem search_lacks {height : Nat} (h : WalletLacks tr height) : w.wallet s height = none := by
  obtain ⟨m, hw, hm⟩ := search_answered hfit hreads h
  have hlacks : none = w.wallet (s ++ m) height := hm.wallet.1
  exact hw ▸ hlacks.symm

/-- A fork point that was named is below `prevTip`, or the wallet's block at its height. -/
theorem named_below {locator : BlockLocator}
    (hlocator : ∀ hash ∈ locator.hashes, ∃ height ≤ prevTip.height, WalletHas tr height hash)
    (hmem : (⟨.findForkPoint view locator, .ok (some fork)⟩ : SyncEvent V) ∈ tr) :
    fork.height < prevTip.height ∨
      fork.height = prevTip.height ∧ w.wallet s prevTip.height = some fork.hash := by
  obtain ⟨m, -, hm⟩ := search_answered hfit hreads hmem
  obtain ⟨-, entry, hentry, hnamed⟩ := hm.contract
  obtain ⟨height, hle, hhas⟩ := hlocator entry hentry
  obtain ⟨hwallet, hheight⟩ := search_has hfit hreads hhas
  rcases hnamed with rfl | hlt
  · rcases Nat.lt_or_eq_of_le hle with hlt | rfl
    · exact .inl (hheight ▸ hlt)
    · exact .inr ⟨hheight, hwallet⟩
  · exact .inl (by omega)

/-- The first assertion: the fork point is not above the view's tip. -/
theorem ForkFound.le_tip (h : ForkFound view prevTip tr fork) :
    fork.height ≤ (tipOf view).height := by
  cases h with
  | named locator hlocator hmem =>
      have hbelow := named_below hfit hreads hlocator hmem
      obtain ⟨m, -, hm⟩ := search_answered hfit hreads hmem
      obtain ⟨⟨top, htop, hle⟩, -⟩ := hm.contract
      rcases hm.askable view locator rfl with htip | ⟨-, hreach⟩
      · omega
      · exact hle.trans (hreach top htop)
  | fresh hmem hlacks hfork =>
      obtain ⟨m, hw, hm⟩ := search_answered hfit hreads hmem
      rcases hm.askable view _ rfl with htip | ⟨⟨height, hheight, hhas⟩, -⟩
      · exact hfork ▸ htip
      · rw [hw] at hhas
        exact absurd (search_lacks hfit hreads (hlacks height hheight)) hhas
  | walked _ header _ _ _ _ hheader =>
      obtain ⟨m, -, hm⟩ := search_answered hfit hreads hheader
      exact hm.contract

/-- The second: it is `prevTip` or below it. -/
theorem ForkFound.below_or_eq (hpos : Positioned (w.wallet s) birthday prevTip)
    (h : ForkFound view prevTip tr fork) : fork.height < prevTip.height ∨ fork = prevTip := by
  have hown : fork.height = prevTip.height → w.wallet s prevTip.height = some fork.hash →
      fork = prevTip := by
    intro hheight hhash
    have hsame := hpos.at_tip fork.hash hhash
    calc fork = ⟨fork.height, fork.hash⟩ := rfl
      _ = ⟨prevTip.height, prevTip.hash⟩ := by rw [hheight, hsame]
  cases h with
  | named locator hlocator hmem =>
      exact (named_below hfit hreads hlocator hmem).imp_right fun h => hown h.1 h.2
  | fresh _ _ hfork => exact .inr hfork
  | walked birthday' header hbirthday hplace hhas _ _ =>
      obtain ⟨m, -, hm⟩ := search_answered hfit hreads hbirthday
      obtain rfl : birthday' = birthday := hm.contract
      obtain ⟨hwallet, -⟩ := search_has hfit hreads hhas
      rcases hplace with hlt | hfloor
      · exact .inl hlt
      · rcases Nat.lt_trichotomy fork.height prevTip.height with hlt | heq | hgt
        · exact .inl hlt
        · exact .inr (hown heq (heq ▸ hwallet))
        · -- the floor is above `prevTip`, where the wallet was to have no block
          rw [hfloor] at hgt hwallet
          rw [hpos.floor hgt] at hwallet
          cases hwallet

end

/-! ## An iteration -/

/-- The world of an iteration from `prevTip`. -/
abbrev fittingWorld (tipOf : V → ChainBlock) (heightOf : BlockHash → Nat) (birthday : Option Nat)
    (w : SyncSurroundings V) (prevTip : ChainBlock) : World (syncSig V) (SyncTrace V) :=
  .along (FitsIn tipOf heightOf birthday w prevTip)

theorem streamMempool_asserts :
    Safe (fittingWorld tipOf heightOf birthday w prevTip) (streamMempool view) :=
  streamMempool_safe (fun _ => trivial) fun _ _ => trivial

theorem fittingWorld_bounded {shutdownHeight : Option Nat} :
    Bounded (fittingWorld tipOf heightOf birthday w prevTip) shutdownHeight (fun _ => True) where
  quiet _ _ _ := trivial
  truncate _ _ := trivial
  put _ := trivial
  below _ := trivial
  range _ _ := trivial
  mempool _ _ := streamMempool_asserts

/-- Blocks streamed from one above `p` are each the next one. -/
theorem applyBlocks_asserts {shutdownHeight : Option Nat} {start : Nat} {p : ChainBlock}
    (hstart : start = p.height + 1) :
    wp (fittingWorld tipOf heightOf birthday w prevTip) (applyBlocks view start p shutdownHeight)
      (fun _ _ => True) (fun _ _ => True) s := by
  refine wp_iterate (fun x _ => start + x.1 = x.2.height + 1) hstart ?_
  rintro ⟨pos, q⟩ t (hpos : start + pos = q.height + 1)
  simp only [leaving, wp_mapErr, wp_bind, wp_chainCall]
  refine ⟨trivial, fun a t' hstep => ?_⟩
  rcases a with e | _ | block
  · trivial
  · trivial
  · have hheight : block.claimedHeight = start + pos := hstep.1.contract
    simp only [id, ends_ok, wp_bind, wp_check]
    refine ⟨fun _ => ?_, fun hne => absurd (by omega) hne⟩
    refine wp_mono (fun t flow _ => ?_) (fun _ _ h => h)
      (scanBlock_safe fittingWorld_bounded t')
    cases flow with
    | brk _ => trivial
    | cont _ =>
        simp only [wp_bind, wp_dbCall]
        refine ⟨trivial, fun a _ _ => ?_⟩
        cases a with
        | error e => trivial
        | ok _ =>
            show start + (pos + 1) = block.claimedHeight + 1
            omega

/-- An operation that does not touch the wallet's blocks leaves them. -/
theorem FitsIn.wallet_eq {op : Op V} {a : op.Ans} {t : SyncTrace V}
    (h : (fittingWorld tipOf heightOf birthday w prevTip).step s op a t) (hop : Untouching op) :
    w.wallet t = w.wallet s := by
  obtain ⟨hfit, rfl⟩ := h
  exact hop.wallet_eq hfit.wallet

theorem applyTipChange_asserts {shutdownHeight : Option Nat} {currentTip : ChainBlock}
    (htip : currentTip = tipOf view) (hpos : Positioned (w.wallet s) birthday prevTip) :
    wp (fittingWorld tipOf heightOf birthday w prevTip)
      (applyTipChange view currentTip prevTip shutdownHeight)
      (fun _ _ => True) (fun _ _ => True) s := by
  simp only [applyTipChange, wp_bind]
  refine ⟨trivial, fun _ s₁ hstep₁ => ⟨trivial, fun _ s₂ hstep₂ => ?_⟩⟩
  have hwallet : w.wallet s₂ = w.wallet s :=
    (FitsIn.wallet_eq hstep₂ trivial).trans (FitsIn.wallet_eq hstep₁ trivial)
  simp only [leaving, wp_mapErr]
  refine locateForkPoint_history.of_history (fun _ _ _ _ _ _ => trivial) ?_
    fun _ _ _ _ _ _ => trivial
  intro tr t fork hpath hreads hfound
  obtain ⟨rfl, hfit⟩ := hpath.along_inv
  simp only [wp_check]
  refine ⟨fun _ => ?_, fun hne => hne (htip ▸ hfound.le_tip hfit hreads)⟩
  split
  · rename_i heq
    exact applyBlocks_asserts (by rw [heq])
  · rename_i hne
    simp only [wp_bind, wp_check, wp_mapErr, wp_dbCall]
    refine ⟨fun _ => ⟨trivial, fun a _ _ => ?_⟩, fun hnlt => ?_⟩
    · cases a with
      | error e => trivial
      | ok _ => exact applyBlocks_asserts rfl
    · rw [← hwallet] at hpos
      exact (hfound.below_or_eq hfit hreads hpos).elim hnlt hne

/-- An iteration whose wallet is positioned does not crash. -/
theorem steadyStateIteration_asserts {shutdownHeight : Option Nat}
    (hpos : Positioned (w.wallet s) birthday prevTip) :
    wp (fittingWorld tipOf heightOf birthday w prevTip)
      (steadyStateIteration shutdownHeight prevTip) (fun _ _ => True) (fun _ _ => True) s := by
  simp only [steadyStateIteration, leaving, wp_bind, wp_mapErr, wp_chainCall]
  refine ⟨trivial, fun a s₁ hstep₁ => ?_⟩
  rcases a with e | view
  · trivial
  refine ⟨trivial, fun a s₂ hstep₂ => ?_⟩
  rcases a with e | currentTip
  · trivial
  have htip : currentTip = tipOf view := hstep₂.1.contract
  have hwallet : w.wallet s₂ = w.wallet s :=
    (FitsIn.wallet_eq hstep₂ trivial).trans (FitsIn.wallet_eq hstep₁ trivial)
  have hcatch : wp (fittingWorld tipOf heightOf birthday w prevTip)
      (catchUp view currentTip prevTip shutdownHeight) (fun _ _ => True) (fun _ _ => True) s₂ := by
    unfold catchUp
    split
    · exact applyTipChange_asserts htip (hwallet ▸ hpos)
    · trivial
  refine wp_mono (fun t x _ => ?_) (fun _ _ h => h) hcatch
  rcases x with ⟨prevTip', _ | _⟩
  · trivial
  · have hmempool : Safe (fittingWorld tipOf heightOf birthday w prevTip) (streamMempool view) :=
      streamMempool_asserts
    have hfollow : Safe (fittingWorld tipOf heightOf birthday w prevTip)
        (followMempool view currentTip (currentTip ≠ prevTip) shutdownHeight) :=
      followMempool_safe (fun _ _ _ => trivial) fun _ => hmempool
    exact (hfollow.mapErr.bind fun _ => .pure) t

end

/-! ## Whole runs -/

/-- Each iteration of a run starts from a wallet in position, and asks for the fork point when it
may be asked for. -/
structure IterationsFit (shutdownHeight : Option Nat) (tipOf : V → ChainBlock)
    (birthday : Option Nat) (w : SyncSurroundings V) (tr : SyncTrace V) : Prop where
  positioned : ∀ l prevTip, l <+: tr → IterationFrom shutdownHeight l prevTip →
    Positioned (w.wallet l) birthday prevTip
  askable : ∀ l m prevTip view locator r q, l ++ (m ++ [⟨.findForkPoint view locator, r⟩]) <+: tr →
    IterationFrom shutdownHeight l prevTip →
    Run (steadyStateIteration shutdownHeight prevTip) (m ++ [⟨.findForkPoint view locator, r⟩]) q →
    Askable (tipOf view) (w.wallet (l ++ m)) (w.reach (l ++ m) view) prevTip

/-- In a run whose iterations fit, no assertion fails. -/
theorem IterationsFit.no_crash {shutdownHeight : Option Nat} {tipOf : V → ChainBlock}
    {heightOf : BlockHash → Nat} {birthday : Option Nat} {w : SyncSurroundings V}
    {tr : SyncTrace V} {q : Sync V Unit} (h : IterationsFit shutdownHeight tipOf birthday w tr)
    (hrun : Run (follow shutdownHeight) tr q)
    (hanswered : ∀ l e, l ++ [e] <+: tr → AnsweredIn tipOf heightOf birthday w l e) :
    ∀ msg, q ≠ .crash msg := by
  rintro msg rfl
  obtain ⟨l, m, prevTip, rfl, hiter, hcrash⟩ := follow_crash hrun
  have hpath : Path (fittingWorld tipOf heightOf birthday w prevTip).step l m (l ++ m) := by
    refine Path.along fun m' e hpre => ?_
    obtain ⟨r, rfl⟩ := hpre
    refine ⟨hanswered (l ++ m') e ⟨r, by simp⟩, fun view locator hop => ?_⟩
    obtain ⟨k, hask, -⟩ := Run.split (by simpa using hcrash)
    have hup : Run (steadyStateIteration shutdownHeight prevTip) (m' ++ [e]) (k e.ans) :=
      hask.trans (.call (.refl _))
    obtain ⟨op, a⟩ := e
    obtain rfl : op = .findForkPoint view locator := hop
    exact h.askable l m' prevTip view locator a _ ⟨r, by simp⟩ hiter hup
  have hpos := h.positioned l prevTip (List.prefix_append l m) hiter
  exact (steadyStateIteration_asserts hpos).sound hcrash hpath

end Zallet
