/-
# `Zallet.Zebra.Mempool` — the mempool stream of the Zebra backend

The closure that `get_mempool_stream` unfolds: it yields what an earlier poll
has buffered, and when nothing is left it polls.  A poll asks for the tip and
the listing, and then for the raw transaction of every txid that it has not
seen.  A txid is marked as seen before it is asked for, so one whose bytes
could not be fetched or read is not asked for again by this stream, however
long the node goes on to list it.

`mempoolStream` is the stream as a machine, `pollTurn_yields` and
`pollTurn_polls` tie a turn of the closure to an action of it, and
`mempoolStream_delivers_iff` says which runs leave no transaction out.
-/
import Mathlib.Data.List.Nodup
import Zallet.Prog.Machine
import Zallet.Prog.Total
import Zallet.Zebra.View

namespace Zallet

open Prog

/-! ## The closure -/

/-- The part of the state of the stream that changes. -/
structure MempoolState where
  seen : List TxId
  pending : List Transaction
  deriving DecidableEq, Repr

/-- Buffer what a txid was answered with.  Failures to fetch or to decode are only logged. -/
def MempoolState.receive (s : MempoolState) (height : Nat) :
    Except String (Except String RawTx) → MempoolState
  | .error _ => s
  | .ok (.error _) => s
  | .ok (.ok raw) =>
      match raw.read height with
      | .ok tx => { s with pending := s.pending ++ [tx] }
      | .error _ => s

namespace ZebraChainView

/-- The chain tip is the one that the view was captured at. -/
def tipHolds (view : ZebraChainView) : Except ChainError (Option ChainBlock) → Bool
  | .ok (some tip) => tip.hash = view.tip.hash
  | _ => false

/-- One txid of a listing. -/
def bufferTxid (view : ZebraChainView) (s : MempoolState) (txid : TxId) : Reads MempoolState :=
  if txid ∈ s.seen then pure s
  else do
    let s := { s with seen := txid :: s.seen }
    let raw ← onCache (.getRawTransaction txid)
    pure (s.receive (view.tip.height + 1) raw)

/-- One turn of the loop: go round again, or give the next transaction, or end the stream. -/
def pollTurn (view : ZebraChainView) (s : MempoolState) :
    Reads (MempoolState ⊕ Option (Transaction × MempoolState)) :=
  match s.pending with
  | tx :: pending => pure (.inr (some (tx, { s with pending })))
  | [] => do
      let tip ← onCache .tip
      if view.tipHolds tip then do
        match ← onCache .getRawMempool with
        | .error _ => pure (.inl s)
        | .ok txids => do
            let s ← txids.foldlM view.bufferTxid s
            pure (.inl s)
      else pure (.inr none)

/-- The closure that is unfolded from `⟨[], []⟩`. -/
def mempoolNext (view : ZebraChainView) (s : MempoolState) :
    Reads (Option (Transaction × MempoolState)) :=
  iterate s view.pollTurn

end ZebraChainView

/-! ## The stream as a machine -/

/-- What the node says at one poll. -/
structure MempoolPoll where
  tip : Except ChainError (Option ChainBlock)
  rawMempool : Except String (List TxId)
  rawTransaction : TxId → Except String (Except String RawTx)

namespace MempoolPoll

def Answers (p : MempoolPoll) : ReaderEvent → Prop
  | ⟨.tip, a⟩ => a = p.tip
  | ⟨.getRawMempool, a⟩ => a = p.rawMempool
  | ⟨.getRawTransaction txid, a⟩ => a = p.rawTransaction txid
  | _ => False

/-- The txids that the poll goes through. -/
def listed (p : MempoolPoll) (view : ZebraChainView) : List TxId :=
  if view.tipHolds p.tip then p.rawMempool.toOption.getD [] else []

/-- The transaction, where fetching and decoding it succeeds at this poll. -/
def retrieve (p : MempoolPoll) (view : ZebraChainView) (txid : TxId) : Option Transaction :=
  match p.rawTransaction txid with
  | .ok (.ok raw) => (raw.read (view.tip.height + 1)).toOption
  | _ => none

end MempoolPoll

/-- What buffering a txid does where it is `found`. -/
def MempoolState.buffered (found : TxId → Option Transaction) (s : MempoolState) (txid : TxId) :
    MempoolState :=
  if txid ∈ s.seen then s else ⟨txid :: s.seen, s.pending ++ (found txid).toList⟩

/-- The stream, with what it has yielded so far. -/
structure MempoolStream extends MempoolState where
  yielded : List Transaction
  ended : Bool
  deriving DecidableEq, Repr

inductive MempoolAction where
  | yield
  | poll (p : MempoolPoll)

namespace MempoolStream

def start : MempoolStream := ⟨⟨[], []⟩, [], false⟩

/-- A stream yields as long as anything is pending, and else polls. -/
def Enabled (s : MempoolStream) : MempoolAction → Prop
  | .yield => s.pending ≠ []
  | .poll _ => s.pending = [] ∧ s.ended = false

def next (view : ZebraChainView) (s : MempoolStream) : MempoolAction → MempoolStream
  | .yield => { s with pending := s.pending.tail, yielded := s.yielded ++ s.pending.head?.toList }
  | .poll p =>
      { s with
        toMempoolState :=
          (p.listed view).foldl (MempoolState.buffered (p.retrieve view)) s.toMempoolState
        ended := !view.tipHolds p.tip }

/-- What the stream has yielded and what it is about to yield. -/
def delivered (s : MempoolStream) : List Transaction := s.yielded ++ s.pending

end MempoolStream

def mempoolStream (view : ZebraChainView) : Machine MempoolStream MempoolAction :=
  ⟨MempoolStream.Enabled, MempoolStream.next view⟩

def MempoolAction.poll? : MempoolAction → Option MempoolPoll
  | .yield => none
  | .poll p => some p

/-- The polls of a run. -/
def pollsOf (actions : List MempoolAction) : List MempoolPoll := actions.filterMap (·.poll?)

/-- The node answers a request for a transaction with that transaction, where it can be read. -/
def MempoolPoll.Honest (p : MempoolPoll) (view : ZebraChainView) : Prop :=
  ∀ txid tx, p.retrieve view txid = some tx → tx.txid = txid

/-- The stream of a node that is honest at every poll. -/
def honestStream (view : ZebraChainView) : Machine MempoolStream MempoolAction :=
  (mempoolStream view).restrict fun _ a => ∀ p ∈ a.poll?, p.Honest view

/-- The transactions that a stream has yielded after a run and the yields that are then left. -/
def yieldedBy (view : ZebraChainView) (actions : List MempoolAction) : List Transaction :=
  let s := (mempoolStream view).after .start actions
  ((mempoolStream view).after s (List.replicate s.pending.length .yield)).yielded

/-- No transaction is yielded twice, and one that is listed at a poll in which fetching and
decoding it succeeds is yielded, whatever became of it at the polls before. -/
structure MempoolDelivers (view : ZebraChainView) (actions : List MempoolAction) : Prop where
  once : ((yieldedBy view actions).map (·.txid)).Nodup
  retrieved : ∀ p ∈ pollsOf actions, ∀ txid ∈ p.listed view, (p.retrieve view txid).isSome →
    ∃ tx ∈ yieldedBy view actions, tx.txid = txid

/-- The first poll of a list that goes through a txid. -/
def firstListing (view : ZebraChainView) (polls : List MempoolPoll) (txid : TxId) :
    Option MempoolPoll :=
  polls.find? fun p => txid ∈ p.listed view

/-- What could not be retrieved at the first poll that lists it cannot be retrieved at a later
one that lists it either. -/
def FailsForGood (view : ZebraChainView) (polls : List MempoolPoll) : Prop :=
  ∀ txid first, firstListing view polls txid = some first → first.retrieve view txid = none →
    ∀ p ∈ polls, txid ∈ p.listed view → p.retrieve view txid = none

/-! ## One turn of the closure -/

section
variable {view : ZebraChainView} {p : MempoolPoll} {s : MempoolState}

theorem receive_eq {txid : TxId} :
    s.receive (view.tip.height + 1) (p.rawTransaction txid) =
      { s with pending := s.pending ++ (p.retrieve view txid).toList } := by
  rw [MempoolPoll.retrieve]
  cases p.rawTransaction txid with
  | error e => simp [MempoolState.receive]
  | ok decoded =>
      cases decoded with
      | error e => simp [MempoolState.receive]
      | ok raw => cases h : raw.read (view.tip.height + 1) <;> simp [MempoolState.receive, h,
          Except.toOption]

theorem bufferTxid_ends (s : MempoolState) (txid : TxId) :
    Ensures p.Answers (fun r => r = .ok (s.buffered (p.retrieve view) txid))
      (view.bufferTxid s txid) := by
  rw [ZebraChainView.bufferTxid, MempoolState.buffered]
  split
  · exact .pure rfl
  · have htold : ∃ a, p.Answers ⟨.getRawTransaction txid, a⟩ := ⟨p.rawTransaction txid, rfl⟩
    refine .bind (.ask htold ?_)
    intro a ha
    obtain rfl : a = p.rawTransaction txid := ha
    exact .pure (congrArg Except.ok receive_eq)

/-- A turn with something pending asks the node for nothing, and yields. -/
theorem pollTurn_yields {tx : Transaction} {pending : List Transaction}
    (h : s.pending = tx :: pending) :
    view.pollTurn s = pure (.inr (some (tx, { s with pending }))) := by
  rw [ZebraChainView.pollTurn, h]

/-- Another turn polls, and ends the stream or goes round with what it has buffered. -/
theorem pollTurn_polls (h : s.pending = []) :
    Ensures p.Answers
      (fun r => r = .ok (if view.tipHolds p.tip then
        .inl ((p.listed view).foldl (MempoolState.buffered (p.retrieve view)) s) else .inr none))
      (view.pollTurn s) := by
  rw [ZebraChainView.pollTurn, h, MempoolPoll.listed]
  have htip : ∃ a, p.Answers ⟨.tip, a⟩ := ⟨p.tip, rfl⟩
  refine .bind (.ask htip ?_)
  intro tip htip
  obtain rfl : tip = p.tip := htip
  show Ensures _ _ (if view.tipHolds p.tip then _ else _)
  split
  case isFalse => exact .pure rfl
  case isTrue =>
    have hlisting : ∃ a, p.Answers ⟨.getRawMempool, a⟩ := ⟨p.rawMempool, rfl⟩
    refine .bind (.ask hlisting ?_)
    intro listing hlisting
    obtain rfl : listing = p.rawMempool := hlisting
    cases p.rawMempool with
    | error e => exact .pure rfl
    | ok txids =>
        refine .bind (.mono ?_ (.foldlM bufferTxid_ends))
        intro r hr
        subst hr
        exact .pure rfl

end

/-! ## What a run has seen, and what it delivers -/

section
variable {view : ZebraChainView} {found : TxId → Option Transaction} {s : MempoolState}
  {txids : List TxId} {txid : TxId} {tx : Transaction}

theorem seen_buffered : txid ∈ (txids.foldl (.buffered found) s).seen ↔
    txid ∈ s.seen ∨ txid ∈ txids := by
  induction txids generalizing s with
  | nil => simp
  | cons t txids ih =>
      rw [List.foldl_cons, ih, MempoolState.buffered]
      split
      case isTrue h => grind
      case isFalse h => grind

/-- What is buffered is what was not seen before and could be retrieved. -/
theorem pending_buffered : tx ∈ (txids.foldl (.buffered found) s).pending ↔
    tx ∈ s.pending ∨ ∃ txid ∈ txids, txid ∉ s.seen ∧ found txid = some tx := by
  induction txids generalizing s with
  | nil => simp
  | cons t txids ih =>
      rw [List.foldl_cons, ih, MempoolState.buffered]
      split
      case isTrue h => grind
      case isFalse h =>
        by_cases hfound : found t = some tx
        · simp [hfound, h]
        · have hother : tx ∉ (found t).toList := by simpa using hfound
          grind

end

section
variable {view : ZebraChainView} {s : MempoolStream} {actions : List MempoolAction} {txid : TxId}
  {tx : Transaction}

theorem firstListing_cons {p : MempoolPoll} {polls : List MempoolPoll} :
    firstListing view (p :: polls) txid =
      if txid ∈ p.listed view then some p else firstListing view polls txid := by
  simp only [firstListing, List.find?_cons]
  split <;> simp_all

theorem firstListing_isSome {p : MempoolPoll} {polls : List MempoolPoll} (hp : p ∈ polls)
    (hlisted : txid ∈ p.listed view) : ∃ first, firstListing view polls txid = some first := by
  refine Option.isSome_iff_exists.mp (List.find?_isSome.mpr ⟨p, hp, ?_⟩)
  exact decide_eq_true hlisted

/-! ### Yields -/

theorem delivered_yield : ((mempoolStream view).next s .yield).delivered = s.delivered := by
  show (s.yielded ++ s.pending.head?.toList) ++ s.pending.tail = s.yielded ++ s.pending
  cases s.pending <;> simp

theorem drain_yielded :
    ((mempoolStream view).after s (List.replicate s.pending.length .yield)).yielded =
      s.delivered := by
  generalize hn : s.pending.length = n
  induction n generalizing s with
  | zero =>
      have hnone : s.pending = [] := List.length_eq_zero_iff.mp hn
      show s.yielded = s.yielded ++ s.pending
      rw [hnone, List.append_nil]
  | succ n ih =>
      rw [List.replicate_succ, Machine.after_cons, ih, delivered_yield]
      show s.pending.tail.length = n
      rw [List.length_tail, hn, Nat.add_sub_cancel]

theorem yieldedBy_eq :
    yieldedBy view actions = ((mempoolStream view).after .start actions).delivered :=
  drain_yielded

/-! ### Polls -/

theorem delivered_poll {p : MempoolPoll} :
    tx ∈ ((mempoolStream view).next s (.poll p)).delivered ↔
      tx ∈ s.delivered ∨
        ∃ txid ∈ p.listed view, txid ∉ s.seen ∧ p.retrieve view txid = some tx := by
  show tx ∈ s.yielded ++ (List.foldl (.buffered _) s.toMempoolState (p.listed view)).pending ↔
    tx ∈ s.yielded ++ s.pending ∨ _
  rw [List.mem_append, List.mem_append, pending_buffered, or_assoc]

theorem seen_poll {p : MempoolPoll} :
    txid ∈ ((mempoolStream view).next s (.poll p)).seen ↔ txid ∈ s.seen ∨ txid ∈ p.listed view :=
  seen_buffered

/-- From any state, a run delivers what the first poll that goes through a txid retrieves for it,
unless the txid was seen before. -/
theorem delivered_after : tx ∈ ((mempoolStream view).after s actions).delivered ↔
    tx ∈ s.delivered ∨ ∃ txid first, txid ∉ s.seen ∧
      firstListing view (pollsOf actions) txid = some first ∧
        first.retrieve view txid = some tx := by
  induction actions generalizing s with
  | nil => simp [pollsOf, firstListing]
  | cons a actions ih =>
      rw [Machine.after_cons, ih]
      cases a with
      | yield =>
          rw [delivered_yield]
          rfl
      | poll p =>
          have hpolls : pollsOf (.poll p :: actions) = p :: pollsOf actions := rfl
          rw [hpolls, delivered_poll, or_assoc]
          refine or_congr_right ?_
          constructor
          · rintro (⟨txid, hlisted, hseen, hfound⟩ | ⟨txid, first, hseen, hfirst, hfound⟩)
            · exact ⟨txid, p, hseen, by rw [firstListing_cons, if_pos hlisted], hfound⟩
            · rw [seen_poll, not_or] at hseen
              refine ⟨txid, first, hseen.1, ?_, hfound⟩
              rw [firstListing_cons, if_neg hseen.2, hfirst]
          · rintro ⟨txid, first, hseen, hfirst, hfound⟩
            rw [firstListing_cons] at hfirst
            split at hfirst
            case isTrue hlisted =>
              cases hfirst
              exact .inl ⟨txid, hlisted, hseen, hfound⟩
            case isFalse hlisted =>
              exact .inr ⟨txid, first, by rw [seen_poll, not_or]; exact ⟨hseen, hlisted⟩, hfirst,
                hfound⟩

end

/-! ## No transaction twice -/

/-- The transactions are different, and each is marked as seen. -/
structure MempoolStream.Marked (s : MempoolStream) : Prop where
  apart : (s.delivered.map (·.txid)).Nodup
  seen : ∀ tx ∈ s.delivered, tx.txid ∈ s.seen

section
variable {view : ZebraChainView} {s : MempoolStream} {actions : List MempoolAction}
  {found : TxId → Option Transaction}

theorem marked_buffered (hfound : ∀ txid tx, found txid = some tx → tx.txid = txid)
    (hs : s.Marked) (txid : TxId) :
    ({ s with toMempoolState := s.buffered found txid } : MempoolStream).Marked := by
  rw [MempoolState.buffered]
  split
  case isTrue => exact hs
  case isFalse hseen =>
    cases hget : found txid with
    | none =>
        refine ⟨?_, ?_⟩
        · simpa [MempoolStream.delivered] using hs.apart
        · intro tx htx
          have htx : tx ∈ s.delivered := by simpa [MempoolStream.delivered] using htx
          exact List.mem_cons_of_mem _ (hs.seen tx htx)
    | some tx =>
        have hnew : ({ s with
            toMempoolState := ⟨txid :: s.seen, s.pending ++ (some tx).toList⟩ } :
              MempoolStream).delivered = s.delivered ++ [tx] :=
          (List.append_assoc ..).symm
        have hid : tx.txid = txid := hfound txid tx hget
        refine ⟨?_, ?_⟩
        · rw [hnew, List.map_append, List.nodup_append]
          refine ⟨hs.apart, List.nodup_singleton _, ?_⟩
          intro old hold new hnew heq
          obtain ⟨tx', htx', rfl⟩ := List.mem_map.mp hold
          obtain rfl : new = tx.txid := List.mem_singleton.mp hnew
          exact hseen (hid ▸ heq ▸ hs.seen tx' htx')
        · intro tx' htx'
          rw [hnew, List.mem_append, List.mem_singleton] at htx'
          rcases htx' with htx' | rfl
          · exact List.mem_cons_of_mem _ (hs.seen tx' htx')
          · exact hid ▸ List.mem_cons_self

theorem marked_foldl (hfound : ∀ txid tx, found txid = some tx → tx.txid = txid) (hs : s.Marked)
    (txids : List TxId) :
    ({ s with toMempoolState := txids.foldl (.buffered found) s.toMempoolState } :
      MempoolStream).Marked := by
  induction txids generalizing s with
  | nil => exact hs
  | cons txid txids ih => exact ih (marked_buffered hfound hs txid)

theorem marked_next {a : MempoolAction} (ha : ∀ p ∈ a.poll?, p.Honest view) (hs : s.Marked) :
    ((mempoolStream view).next s a).Marked := by
  cases a with
  | yield =>
      have hsame : ((mempoolStream view).next s .yield).delivered = s.delivered := delivered_yield
      exact ⟨hsame.symm ▸ hs.apart, fun tx htx => hs.seen tx (hsame ▸ htx)⟩
  | poll p =>
      have hp := marked_foldl (ha p rfl) hs (p.listed view)
      exact ⟨hp.apart, hp.seen⟩

theorem marked_after (hrun : (honestStream view).Runs .start actions) :
    ((mempoolStream view).after .start actions).Marked := by
  have hstart : MempoolStream.start.Marked := ⟨List.nodup_nil, fun _ h => absurd h List.not_mem_nil⟩
  refine Machine.invariant_of ?_ hstart hrun
  intro s a hs _ ha
  exact marked_next ha hs

theorem honest_of_runs (hrun : (honestStream view).Runs s actions) :
    ∀ p ∈ pollsOf actions, p.Honest view := by
  induction actions generalizing s with
  | nil =>
      intro p hp
      cases hp
  | cons a actions ih =>
      intro p hp
      obtain ⟨b, hb, hpoll⟩ := List.mem_filterMap.mp hp
      rcases List.mem_cons.mp hb with rfl | hb
      · exact hrun.1.2 p hpoll
      · exact ih hrun.2 p (List.mem_filterMap.mpr ⟨b, hb, hpoll⟩)

/-- A run delivers what it should exactly if no txid that fails at the first poll that lists it
is listed at a later poll at which it could be retrieved. -/
theorem mempoolStream_delivers_iff (view : ZebraChainView) (actions : List MempoolAction)
    (hrun : (honestStream view).Runs .start actions) :
    MempoolDelivers view actions ↔ FailsForGood view (pollsOf actions) := by
  have hmarked := marked_after hrun
  -- what the first listing of a txid retrieves is the transaction with that id
  have hid : ∀ {txid first tx}, firstListing view (pollsOf actions) txid = some first →
      first.retrieve view txid = some tx → tx.txid = txid := by
    intro txid first tx hfirst hfound
    exact honest_of_runs hrun first (List.mem_of_find?_eq_some hfirst) txid tx hfound
  constructor
  · intro hdelivers txid first hfirst hfail p hp hlisted
    by_contra hsome
    obtain ⟨tx, htx, rfl⟩ :=
      hdelivers.retrieved p hp txid hlisted (Option.isSome_iff_ne_none.mpr hsome)
    rw [yieldedBy_eq, delivered_after] at htx
    rcases htx with htx | ⟨txid, first', -, hfirst', hfound⟩
    · cases htx
    · rw [hid hfirst' hfound, hfirst'] at hfirst
      cases hfirst
      rw [← hid hfirst' hfound, hfail] at hfound
      cases hfound
  · intro hgood
    refine ⟨yieldedBy_eq ▸ hmarked.apart, ?_⟩
    intro p hp txid hlisted hsome
    obtain ⟨first, hfirst⟩ := firstListing_isSome hp hlisted
    cases hfound : first.retrieve view txid with
    | none =>
        rw [hgood txid first hfirst hfound p hp hlisted] at hsome
        cases hsome
    | some tx =>
        refine ⟨tx, ?_, ?_⟩
        · rw [yieldedBy_eq, delivered_after]
          exact .inr ⟨txid, first, List.not_mem_nil, hfirst, hfound⟩
        · exact hid hfirst hfound

/-! ### A transaction that is lost -/

/-- A view captured at block 100. -/
def viewAtHundred : ZebraChainView := .capture ⟨100, ⟨0xb0⟩⟩

/-- A poll at which the one txid of the listing is answered. -/
def answeredPoll : MempoolPoll :=
  ⟨.ok (some ⟨100, ⟨0xb0⟩⟩), .ok [⟨7⟩], fun txid => .ok (.ok ⟨fun _ => .ok ⟨txid⟩⟩)⟩

/-- The same poll, but the request for the transaction fails. -/
def failedPoll : MempoolPoll :=
  { answeredPoll with rawTransaction := fun _ => .error "connection reset" }

theorem answeredPoll_honest : answeredPoll.Honest viewAtHundred := by
  intro txid tx h
  cases h
  rfl

theorem failedPoll_honest : failedPoll.Honest viewAtHundred := by
  intro txid tx h
  cases h

theorem mempoolStream_delivers_iff_answered :
    (honestStream viewAtHundred).Runs .start [.poll answeredPoll, .yield, .poll failedPoll] ∧
      (MempoolDelivers viewAtHundred [.poll answeredPoll, .yield, .poll failedPoll] ↔
        FailsForGood viewAtHundred [answeredPoll, failedPoll]) := by
  have hrun : (honestStream viewAtHundred).Runs .start
      [.poll answeredPoll, .yield, .poll failedPoll] := by
    have hpending : ([⟨⟨7⟩⟩] : List Transaction) ≠ [] := List.cons_ne_nil _ _
    refine ⟨⟨⟨rfl, rfl⟩, ?_⟩, ⟨hpending, ?_⟩, ⟨⟨rfl, rfl⟩, ?_⟩, trivial⟩
    · rintro _ ⟨⟩
      exact answeredPoll_honest
    · rintro _ ⟨⟩
    · rintro _ ⟨⟩
      exact failedPoll_honest
  exact ⟨hrun, mempoolStream_delivers_iff _ _ hrun⟩

/-- One failed request, and the transaction is not yielded although the next poll has it. -/
theorem mempoolStream_loses :
    (honestStream viewAtHundred).Runs .start [.poll failedPoll, .poll answeredPoll] ∧
      ¬ MempoolDelivers viewAtHundred [.poll failedPoll, .poll answeredPoll] := by
  refine ⟨⟨⟨⟨rfl, rfl⟩, ?_⟩, ⟨⟨rfl, rfl⟩, ?_⟩, trivial⟩, ?_⟩
  · rintro _ ⟨⟩
    exact failedPoll_honest
  · rintro _ ⟨⟩
    exact answeredPoll_honest
  · intro hdelivers
    have hpoll : answeredPoll ∈ pollsOf [.poll failedPoll, .poll answeredPoll] :=
      List.mem_cons_of_mem _ List.mem_cons_self
    obtain ⟨tx, htx, -⟩ := hdelivers.retrieved answeredPoll hpoll ⟨7⟩ List.mem_cons_self rfl
    cases htx

end

end Zallet
