/-
# `Zallet.Zebra.Streams` — what a stream of a view yields

`stream_blocks_inner` reads one height after the other with `get_block`, and
ends where that gives nothing.  `get_block` gives nothing above the tip, but
also for a block of the pinned chain whose bytes the backend no longer has; the
stream then ends as if it were complete.  The half-open range of
`stream_blocks` is turned into a closed one by a subtraction that saturates, so
the empty range at the genesis block still yields it.

`streams_right_iff` says that these are the only ways in which a stream is not
what it should be.
-/
import Zallet.Zebra.Pinned
import Mathlib.Data.Set.Basic
import Mathlib.Data.Nat.Find

namespace Zallet

open Prog

/-! ## The backend's store -/

/-- The bytes read, where they can be read, as the block. -/
structure RawBlock.ReadAs (raw : RawBlock) (block : Block) : Prop where
  whole : ∀ b, raw.block = .ok b → b = block
  front : ∀ h, raw.header = .ok h → h = block.header

/-- A state at a moment after the view of `c` was captured, with the blocks whose bytes the backend
has.  `content` is the block that a hash stands for.  A finalized block is never dropped. -/
structure StoringState (c : History) extends LaterState c where
  holds : BlockHash → Bool
  holds_final : ∀ height ≤ c.view.finalizedFloor, ∀ hash, c.hashAt height = some hash →
    holds hash = true

section
variable {c : History} (content : BlockHash → Block)

/-- What requests are answered with in a state. -/
def StoringState.Answers (s : StoringState c) : ReaderEvent → Prop
  | ⟨.rawBlockByHash hash, .ok r⟩ =>
      r.isSome = s.holds hash ∧ ∀ raw, r = some raw → raw.ReadAs (content hash)
  | e => s.toLaterState.Answers e

/-- The answers of a backend that is in one of the states at each request. -/
def ServedIn (states : Set (StoringState c)) (e : ReaderEvent) : Prop :=
  ∃ s ∈ states, s.Answers content e

/-- In each of the states, the backend has the bytes of the pinned block. -/
def HeldAt (states : Set (StoringState c)) (height : Nat) : Prop :=
  ∀ s ∈ states, ∀ hash, c.hashAt height = some hash → s.holds hash = true

/-- The block of the pinned chain at a height. -/
def blockAt (c : History) (height : Nat) : Option Block := (c.hashAt height).map content

end

/-! ## Streams -/

namespace BlockStream

def start : BlockStream → Nat
  | .toTip start => start
  | .range start _ => start

/-- The stream is of this height. -/
def Covers : BlockStream → Nat → Prop
  | .toTip start, height => start ≤ height
  | .range start stop, height => start ≤ height ∧ height < stop

/-- The blocks of the pinned chain at the heights of the stream. -/
def expected (content : BlockHash → Block) (c : History) : BlockStream → List Block
  | .toTip start => (c.blocks.drop start).map fun block => content block.hash
  | .range start stop => ((c.blocks.take stop).drop start).map fun block => content block.hash

end BlockStream

/-- Poll a stream that yielded `blocks`. -/
def drainTurn (view : ZebraChainView) (stream : BlockStream) (blocks : List Block) :
    Reads (List Block ⊕ List Block × Option ChainError) := do
  match ← attempt (view.streamNext blocks.length stream) with
  | .ok (some block) => pure (.inl (blocks ++ [block]))
  | .ok none => pure (.inr (blocks, none))
  | .error (e : ChainError) => pure (.inr (blocks, some e))

/-- Poll a stream until it ends: what it yielded, and the error it ended with if there was one. -/
def drain (view : ZebraChainView) (stream : BlockStream) :
    Reads (List Block × Option ChainError) :=
  iterate [] (drainTurn view stream)

/-- All of the blocks, or some from the first on and then an error. -/
def StreamsRight (expected : List Block) : List Block × Option ChainError → Prop
  | (blocks, none) => blocks = expected
  | (blocks, some _) => blocks <+: expected

/-- A method that reads one block of the pinned chain, or a part of it. -/
def readPinned {β : Type} (view : ZebraChainView) (read : RawBlock → Except String β)
    (height : Nat) : Reads (Option β) := do
  match ← view.resolve height with
  | none => pure none
  | some hash =>
      query (.rawBlockByHash hash) fun r => r.bind fun o =>
        o.elim (.ok none) fun raw => ((read raw).mapError .invalidData).map some

theorem getBlock_eq (view : ZebraChainView) : view.getBlock = readPinned view RawBlock.block := rfl

section
variable {c : History} {content : BlockHash → Block} {states : Set (StoringState c)} {height : Nat}

/-! ## One block -/

theorem servedIn_resolving (hstates : states.Nonempty) :
    Resolving c (ServedIn content states) (fun _ => True) := by
  obtain ⟨s, hs⟩ := hstates
  refine ⟨?_, ?_, ?_, ?_, ?_⟩
  · intro height hfloor
    refine .query ⟨.ok (c.hashAt height), s, hs, (s.final height hfloor).symm⟩ ?_
    rintro (e | r) ⟨s', -, ha⟩
    · trivial
    · exact Eq.trans ha (s'.final height hfloor)
  · intro height hash hpos hhash
    refine .query ⟨.ok (s.known hash), s, hs, rfl⟩ ?_
    rintro (e | _ | info) ⟨s', -, ha⟩
    · trivial
    · trivial
    · exact (s'.known_pinned hhash (Eq.symm ha)).2 hpos
  · intro height
    refine ⟨⟨none, s, hs, fun _ h => by cases h⟩, ?_⟩
    rintro a ⟨s', -, ha⟩
    exact ha
  · intro height hle
    have htip : ∃ start, some (c.tip.height, c.tip.hash) = some start ∧ height ≤ start.1 ∧
        c.hashAt start.1 = some start.2 := ⟨_, rfl, hle, History.hashAt_tip⟩
    refine ⟨⟨some (c.tip.height, c.tip.hash), s, hs, fun _ => htip⟩, ?_⟩
    rintro a ⟨s', -, ha⟩
    exact ha hle
  · intro height hash
    exact ⟨(), s, hs, trivial⟩

/-- Resolving may end with the pinned hash, which other users of the view may have put into the
cache. -/
theorem resolve_outcome (hstates : states.Nonempty) (hle : height ≤ c.tip.height) :
    Outcome (ServedIn content states) (c.view.resolve height) (.ok (c.hashAt height)) := by
  obtain ⟨s, hs⟩ := hstates
  obtain ⟨hash, hhash⟩ := History.hashAt_below hle
  rw [ZebraChainView.resolve, if_neg (show ¬ c.view.tip.height < height from Nat.not_lt.mpr hle)]
  split
  case isTrue hfloor =>
    have htold : ServedIn content states ⟨.bestChainBlockHash height, .ok (c.hashAt height)⟩ :=
      ⟨s, hs, (s.final height hfloor).symm⟩
    exact .query htold rfl
  case isFalse =>
    have htold : ServedIn content states ⟨.cacheGet height, some hash⟩ := by
      refine ⟨s, hs, ?_⟩
      rintro _ ⟨⟩
      exact hhash
    rw [hhash]
    exact .bind (.bind (.ask htold) .pure) .pure

theorem resolve_above (hlt : c.tip.height < height) : c.view.resolve height = pure none := by
  rw [ZebraChainView.resolve, if_pos (show c.view.tip.height < height from hlt)]

/-- A part of a block, and how it is read from the bytes. -/
structure BlockPart (β : Type) where
  read : RawBlock → Except String β
  of : Block → β
  read_as : ∀ raw block, raw.ReadAs block → ∀ x, read raw = .ok x → x = of block
  reads : ∀ block : Block, read ⟨.ok block, .ok block.header⟩ = .ok (of block)

def BlockPart.block : BlockPart Block := ⟨RawBlock.block, id, fun _ _ h => h.whole, fun _ => rfl⟩

def BlockPart.header : BlockPart BlockHeader :=
  ⟨RawBlock.header, Block.header, fun _ _ h => h.front, fun _ => rfl⟩

variable {β : Type} (part : BlockPart β)

/-- What a read ends with, at or below the tip: the part of the pinned block, or nothing where
the bytes are gone, or an error. -/
theorem readPinned_ends (hstates : states.Nonempty) (hle : height ≤ c.tip.height) :
    Ensures (ServedIn content states)
      (Ends (fun r => r = (blockAt content c height).map part.of ∨
        r = none ∧ ¬ HeldAt states height) fun _ => True)
      (readPinned c.view part.read height) := by
  obtain ⟨hash, hhash⟩ := History.hashAt_below hle
  refine .bind (.mono ?_ ((servedIn_resolving hstates).resolve hle))
  rintro (e | r) hr
  · trivial
  obtain rfl : r = some hash := Eq.trans hr hhash
  obtain ⟨s, hs⟩ := hstates
  have htold : ∃ a, ServedIn content states ⟨.rawBlockByHash hash, a⟩ :=
    ⟨.error (.unavailable ""), s, hs, trivial⟩
  refine .query htold ?_
  rintro (e | _ | raw) ⟨s', hs', ha⟩
  · trivial
  · refine .inr ⟨rfl, ?_⟩
    intro hheld
    have hnone : false = s'.holds hash := ha.1
    rw [hheld s' hs' hash hhash] at hnone
    cases hnone
  · show Ends _ _ (((part.read raw).mapError ChainError.invalidData).map some)
    cases hread : part.read raw with
    | error e => trivial
    | ok x =>
        have hx := part.read_as raw (content hash) (ha.2 raw rfl) x hread
        refine .inl ?_
        rw [blockAt, hhash, hx]
        rfl

/-- A read may give the part of the pinned block where its bytes are held. -/
theorem readPinned_outcome_some {s : StoringState c} (hs : s ∈ states) {hash : BlockHash}
    (hhash : c.hashAt height = some hash) (hheld : s.holds hash = true) :
    Outcome (ServedIn content states) (readPinned c.view part.read height)
      (.ok (some (part.of (content hash)))) := by
  have hresolve : Outcome (ServedIn content states) (c.view.resolve height) (.ok (some hash)) := by
    rw [← hhash]
    exact resolve_outcome ⟨s, hs⟩ (History.height_le_tip hhash)
  have htold : ServedIn content states ⟨.rawBlockByHash hash,
      .ok (some ⟨.ok (content hash), .ok (content hash).header⟩)⟩ := by
    refine ⟨s, hs, hheld.symm, ?_⟩
    rintro _ ⟨⟩
    exact ⟨fun _ h => (Except.ok.inj h).symm, fun _ h => (Except.ok.inj h).symm⟩
  refine .bind hresolve (.query htold ?_)
  show ((part.read _).mapError ChainError.invalidData).map some = _
  rw [part.reads]
  rfl

/-- It may give nothing where they are gone. -/
theorem readPinned_outcome_none {s : StoringState c} (hs : s ∈ states) {hash : BlockHash}
    (hhash : c.hashAt height = some hash) (hgone : s.holds hash = false) :
    Outcome (ServedIn content states) (readPinned c.view part.read height) (.ok none) := by
  have hresolve : Outcome (ServedIn content states) (c.view.resolve height) (.ok (some hash)) := by
    rw [← hhash]
    exact resolve_outcome ⟨s, hs⟩ (History.height_le_tip hhash)
  have htold : ServedIn content states ⟨.rawBlockByHash hash, .ok none⟩ := by
    refine ⟨s, hs, hgone.symm, ?_⟩
    rintro _ ⟨⟩
  exact .bind hresolve (.query htold rfl)

theorem readPinned_above (hlt : c.tip.height < height) :
    readPinned c.view part.read height = pure none := by
  rw [readPinned, resolve_above hlt]
  rfl

/-- Nothing is given only above the tip, just if the bytes stay. -/
theorem readPinned_none_iff (hstates : states.Nonempty) :
    Ensures (ServedIn content states) (fun r => r = .ok none → c.tip.height < height)
      (readPinned c.view part.read height) ↔
    (height ≤ c.tip.height → HeldAt states height) := by
  constructor
  · intro h hle s hs hash hhash
    by_contra hgone
    have hnone : Outcome (ServedIn content states) (readPinned c.view part.read height)
        (.ok none) := readPinned_outcome_none part hs hhash (eq_false_of_ne_true hgone)
    exact absurd (h.sound hnone rfl) (Nat.not_lt.mpr hle)
  · intro h
    rcases Nat.lt_or_ge c.tip.height height with hlt | hle
    · rw [readPinned_above part hlt]
      exact .pure fun _ => hlt
    · refine .mono ?_ (readPinned_ends part hstates hle)
      rintro r hends rfl
      rcases hends with hblock | ⟨-, hgone⟩
      · obtain ⟨hash, hhash⟩ := History.hashAt_below hle
        rw [blockAt, hhash] at hblock
        cases hblock
      · exact absurd (h hle) hgone

/-! ## The items of a stream -/

variable {stream : BlockStream} {pos : Nat}

theorem covers_between (hcovers : stream.Covers height) (hle : stream.start + pos ≤ height) :
    stream.Covers (stream.start + pos) := by
  cases stream with
  | toTip start => exact Nat.le_add_right start pos
  | range start stop => exact ⟨Nat.le_add_right start pos, Nat.lt_of_le_of_lt hle hcovers.2⟩

theorem start_le (hcovers : stream.Covers height) : stream.start ≤ height := by
  cases stream with
  | toTip start => exact hcovers
  | range start stop => exact hcovers.1

theorem expected_covered (hcovers : stream.Covers (stream.start + pos)) :
    (stream.expected content c)[pos]? = blockAt content c (stream.start + pos) := by
  cases stream with
  | toTip start =>
      show ((c.blocks.drop start).map fun block => content block.hash)[pos]? = _
      rw [List.getElem?_map, List.getElem?_drop, blockAt, History.hashAt, Option.map_map]
      rfl
  | range start stop =>
      show (((c.blocks.take stop).drop start).map fun block => content block.hash)[pos]? = _
      have hlt : start + pos < stop := hcovers.2
      rw [List.getElem?_map, List.getElem?_drop, List.getElem?_take, if_pos hlt, blockAt,
        History.hashAt, Option.map_map]
      rfl

theorem expected_past (hpast : ¬ stream.Covers (stream.start + pos)) :
    (stream.expected content c)[pos]? = none := by
  cases stream with
  | toTip start => exact absurd (Nat.le_add_right start pos) hpast
  | range start stop =>
      have hge : ¬ start + pos < stop := fun h => hpast ⟨Nat.le_add_right start pos, h⟩
      show (((c.blocks.take stop).drop start).map fun block => content block.hash)[pos]? = _
      rw [List.getElem?_map, List.getElem?_drop, List.getElem?_take, if_neg hge]
      rfl

/-- A poll reads the block at its height. -/
theorem streamNext_covered (hcovers : stream.Covers (stream.start + pos))
    (hle : stream.start + pos ≤ c.tip.height) :
    c.view.streamNext pos stream = c.view.getBlock (stream.start + pos) := by
  cases stream with
  | toTip start => exact if_neg (Nat.not_lt.mpr hle)
  | range start stop =>
      have hstop : ¬ stop - 1 < start + pos := by
        have : start + pos < stop := hcovers.2
        omega
      exact if_neg hstop

/-- A poll past the heights of the stream, or past the tip, ends it. -/
theorem streamNext_past (hne : stream ≠ .range 0 0)
    (hpast : ¬ (stream.Covers (stream.start + pos) ∧ stream.start + pos ≤ c.tip.height)) :
    c.view.streamNext pos stream = pure none := by
  cases stream with
  | toTip start =>
      have htip : c.tip.height < start + pos :=
        Nat.lt_of_not_le fun h => hpast ⟨Nat.le_add_right start pos, h⟩
      exact if_pos htip
  | range start stop =>
      show c.view.streamStep (stop - 1) (start + pos) = _
      rw [ZebraChainView.streamStep]
      by_cases hstop : start + pos < stop
      · have htip : c.tip.height < start + pos :=
          Nat.lt_of_not_le fun h => hpast ⟨⟨Nat.le_add_right start pos, hstop⟩, h⟩
        rw [if_neg (by omega)]
        exact readPinned_above .block htip
      · -- a closed range of this end is only longer than the half-open one when that is `0..0`
        have hend : stop - 1 < start + pos := by
          have : ¬ (start = 0 ∧ stop = 0) := by
            rintro ⟨rfl, rfl⟩
            exact hne rfl
          omega
        rw [if_pos hend]

/-- While the bytes stay, each poll gives the next of the expected blocks, or an error. -/
theorem streamNext_expected (hstates : states.Nonempty) (hne : stream ≠ .range 0 0)
    (hheld : ∀ height ≤ c.tip.height, stream.Covers height → HeldAt states height) :
    Ensures (ServedIn content states)
      (Ends (fun r => r = (stream.expected content c)[pos]?) fun _ => True)
      (c.view.streamNext pos stream) := by
  by_cases hwithin : stream.Covers (stream.start + pos) ∧ stream.start + pos ≤ c.tip.height
  · obtain ⟨hcovers, hle⟩ := hwithin
    rw [streamNext_covered hcovers hle, expected_covered hcovers, getBlock_eq]
    refine .mono ?_ (readPinned_ends .block hstates hle)
    rintro (e | r) hends
    · trivial
    · rcases hends with hblock | ⟨-, hgone⟩
      · exact hblock.trans Option.map_id'
      · exact absurd (hheld _ hle hcovers) hgone
  · rw [streamNext_past hne hwithin]
    refine .pure ?_
    by_cases hcovers : stream.Covers (stream.start + pos)
    · have habove : c.tip.height < stream.start + pos :=
        Nat.lt_of_not_le fun h => hwithin ⟨hcovers, h⟩
      rw [expected_covered hcovers, blockAt, History.hashAt_above habove]
      rfl
    · exact (expected_past hcovers).symm

/-! ## Whole streams -/

theorem drain_right (hstates : states.Nonempty) (hne : stream ≠ .range 0 0)
    (hheld : ∀ height ≤ c.tip.height, stream.Covers height → HeldAt states height) :
    Ensures (ServedIn content states)
      (fun r => ∃ out, r = .ok out ∧ StreamsRight (stream.expected content c) out)
      (drain c.view stream) := by
  refine .iterate (fun blocks => blocks <+: stream.expected content c)
    (fun blocks => (stream.expected content c).length - blocks.length) (List.nil_prefix) ?_
  intro blocks hprefix
  refine .bind (.attempt (.mono ?_ (streamNext_expected hstates hne hheld)))
  rintro (e | r) hr
  · exact .pure ⟨_, rfl, hprefix⟩
  · obtain rfl : r = _ := hr
    cases hnext : (stream.expected content c)[blocks.length]? with
    | none =>
        have hlen := List.getElem?_eq_none_iff.mp hnext
        exact .pure ⟨_, rfl, hprefix.eq_of_length_le hlen⟩
    | some block =>
        obtain ⟨hlt, -⟩ := List.getElem?_eq_some_iff.mp hnext
        refine .pure ⟨?_, ?_⟩
        · have htake := List.prefix_iff_eq_take.mp hprefix
          show blocks ++ [block] <+: _
          rw [List.prefix_iff_eq_take, List.length_append, List.length_singleton, List.take_add_one,
            ← htake, hnext]
          rfl
        · show _ - (blocks ++ [block]).length < _ - blocks.length
          rw [List.length_append, List.length_singleton]
          omega

/-- A block that some state has may be yielded. -/
theorem drainTurn_yields {s : StoringState c} (hs : s ∈ states) {hash : BlockHash}
    (hcovers : stream.Covers (stream.start + pos))
    (hhash : c.hashAt (stream.start + pos) = some hash) (hheld : s.holds hash = true) :
    Outcome (ServedIn content states)
      (drainTurn c.view stream ((stream.expected content c).take pos))
      (.ok (.inl ((stream.expected content c).take (pos + 1)))) := by
  have hget : (stream.expected content c)[pos]? = some (content hash) := by
    rw [expected_covered hcovers, blockAt, hhash]
    rfl
  obtain ⟨hlt, -⟩ := List.getElem?_eq_some_iff.mp hget
  have hnext : Outcome (ServedIn content states)
      (c.view.streamNext ((stream.expected content c).take pos).length stream)
      (.ok (some (content hash))) := by
    rw [List.length_take_of_le (Nat.le_of_lt hlt),
      streamNext_covered hcovers (History.height_le_tip hhash)]
    exact readPinned_outcome_some .block hs hhash hheld
  refine .bind hnext.attempt ?_
  rw [List.take_add_one, hget]
  exact .pure

variable (content) in
/-- One that some state has not may end the stream. -/
theorem drainTurn_ends {s : StoringState c} (hs : s ∈ states) {hash : BlockHash}
    (hcovers : stream.Covers (stream.start + pos))
    (hhash : c.hashAt (stream.start + pos) = some hash) (hgone : s.holds hash = false) :
    ((stream.expected content c).take pos).length < (stream.expected content c).length ∧
    Outcome (ServedIn content states)
      (drainTurn c.view stream ((stream.expected content c).take pos))
      (.ok (.inr ((stream.expected content c).take pos, none))) := by
  have hget : (stream.expected content c)[pos]? = some (content hash) := by
    rw [expected_covered hcovers, blockAt, hhash]
    rfl
  obtain ⟨hlt, -⟩ := List.getElem?_eq_some_iff.mp hget
  have hlength := List.length_take_of_le (Nat.le_of_lt hlt)
  refine ⟨by rwa [hlength], ?_⟩
  have hnext : Outcome (ServedIn content states)
      (c.view.streamNext ((stream.expected content c).take pos).length stream) (.ok none) := by
    rw [hlength, streamNext_covered hcovers (History.height_le_tip hhash)]
    exact readPinned_outcome_none .block hs hhash hgone
  exact .bind hnext.attempt .pure

/-- Blocks that the backend has may be yielded one after the other. -/
theorem drain_reaches {r : Except ChainError (List Block × Option ChainError)}
    (hheld : ∀ k < pos, stream.Covers (stream.start + k) ∧ ∃ hash, ∃ s ∈ states,
      c.hashAt (stream.start + k) = some hash ∧ s.holds hash = true)
    (h : Outcome (ServedIn content states)
      (iterate ((stream.expected content c).take pos) (drainTurn c.view stream)) r) :
    Outcome (ServedIn content states) (drain c.view stream) r := by
  induction pos with
  | zero => exact h
  | succ pos ih =>
      obtain ⟨hcovers, hash, s, hs, hhash, hholds⟩ := hheld pos (Nat.lt_succ_self pos)
      refine ih ?_ (.next (drainTurn_yields hs hcovers hhash hholds) h)
      intro k hk
      exact hheld k (Nat.lt_succ_of_lt hk)

variable (content) in
/-- Where a block of the stream is gone, the stream may end early: there or before. -/
theorem drain_cut (hstates : states.Nonempty) (hcovers : stream.Covers height)
    (hle : height ≤ c.tip.height) (hgone : ¬ HeldAt states height) :
    ∃ blocks, blocks.length < (stream.expected content c).length ∧
      Outcome (ServedIn content states) (drain c.view stream) (.ok (blocks, none)) := by
  classical
  have hstart := start_le hcovers
  have hexists : ∃ pos, stream.start + pos ≤ height ∧ ¬ HeldAt states (stream.start + pos) :=
    ⟨height - stream.start, by omega, by rwa [Nat.add_sub_cancel' hstart]⟩
  -- the first that is gone
  obtain ⟨hpos, hfirst⟩ := Nat.find_spec hexists
  generalize hn : Nat.find hexists = pos at hpos hfirst
  have hbefore : ∀ k < pos, HeldAt states (stream.start + k) := by
    intro k hk
    by_contra hnot
    exact Nat.find_min hexists (hn ▸ hk) ⟨by omega, hnot⟩
  have hlost : ∃ s ∈ states, ∃ hash, c.hashAt (stream.start + pos) = some hash ∧
      s.holds hash = false := by
    by_contra hnone
    refine hfirst ?_
    intro s hs hash hhash
    by_contra hlost
    exact hnone ⟨s, hs, hash, hhash, eq_false_of_ne_true hlost⟩
  obtain ⟨s, hs, hash, hhash, hlost⟩ := hlost
  obtain ⟨hshort, hends⟩ := drainTurn_ends content hs (covers_between hcovers hpos)
    hhash hlost
  refine ⟨_, hshort, drain_reaches ?_ (.last hends)⟩
  intro k hk
  have hk' : stream.start + k ≤ height := by omega
  obtain ⟨hash', hhash'⟩ := History.hashAt_below (Nat.le_trans hk' hle)
  obtain ⟨s', hs'⟩ := hstates
  exact ⟨covers_between hcovers hk', hash', s', hs', hhash', hbefore k hk s' hs' hash' hhash'⟩

variable (content) in
/-- The empty range at the genesis block yields it. -/
theorem drain_genesis (hstates : states.Nonempty) :
    ∃ block, Outcome (ServedIn content states) (drain c.view (.range 0 0))
      (.ok ([block], none)) := by
  obtain ⟨s, hs⟩ := hstates
  obtain ⟨hash, hhash⟩ := History.hashAt_below (Nat.zero_le c.tip.height)
  have hheld := s.holds_final 0 (Nat.zero_le _) hash hhash
  have hfirst : Outcome (ServedIn content states) (c.view.streamNext 0 (.range 0 0))
      (.ok (some (content hash))) := readPinned_outcome_some .block hs hhash hheld
  have hsecond : Outcome (ServedIn content states) (c.view.streamNext 1 (.range 0 0)) (.ok none) :=
    .pure
  exact ⟨content hash, .next (.bind hfirst.attempt .pure) (.last (.bind hsecond.attempt .pure))⟩

/-- A stream is as it should be on every run only if none of its blocks can be gone. -/
theorem held_of_right (hstates : states.Nonempty)
    (h : Ensures (ServedIn content states)
      (fun r => ∃ out, r = .ok out ∧ StreamsRight (stream.expected content c) out)
      (drain c.view stream)) :
    stream ≠ .range 0 0 ∧
    ∀ height ≤ c.tip.height, stream.Covers height → HeldAt states height := by
  constructor
  · rintro rfl
    obtain ⟨block, houtcome⟩ := drain_genesis content hstates
    obtain ⟨out, heq, hright⟩ := h.sound houtcome
    cases heq
    cases hright
  · intro height hle hcovers
    by_contra hgone
    obtain ⟨blocks, hshort, houtcome⟩ := drain_cut content hstates hcovers hle hgone
    obtain ⟨out, heq, hright⟩ := h.sound houtcome
    cases heq
    have hblocks : blocks = stream.expected content c := hright
    rw [hblocks] at hshort
    exact Nat.lt_irrefl _ hshort

end

/-- Each stream of a view yields just the blocks of the captured chain at its heights, in order, or
ends with an error, if and only if it is not the empty range at the genesis block and the backend
has the bytes of these blocks whenever it is asked.  Nothing is given for a height at or below the
tip, only if the bytes of its block can be gone. -/
theorem streams_right_iff {c : History} (content : BlockHash → Block)
    (states : Set (StoringState c)) (hstates : states.Nonempty) :
    (∀ stream : BlockStream,
      Ensures (ServedIn content states)
        (fun r => ∃ out, r = .ok out ∧ StreamsRight (stream.expected content c) out)
        (drain c.view stream) ↔
      stream ≠ .range 0 0 ∧
        ∀ height ≤ c.tip.height, stream.Covers height → HeldAt states height) ∧
    ∀ height,
      (Ensures (ServedIn content states) (fun r => r = .ok none → c.tip.height < height)
        (c.view.getBlock height) ↔ (height ≤ c.tip.height → HeldAt states height)) ∧
      (Ensures (ServedIn content states) (fun r => r = .ok none → c.tip.height < height)
        (c.view.getBlockHeader height) ↔ (height ≤ c.tip.height → HeldAt states height)) := by
  refine ⟨?_, ?_⟩
  · intro stream
    constructor
    · exact held_of_right hstates
    · rintro ⟨hne, hheld⟩
      exact drain_right hstates hne hheld
  · intro height
    exact ⟨readPinned_none_iff .block hstates,
      readPinned_none_iff .header hstates⟩

/-- The backend once another block replaced the tip of the chain, and the bytes of the old one are
gone. -/
def replacedTip : StoringState captured where
  best := ⟨[blockOf 0 70, blockOf 9 79], List.cons_ne_nil _ _⟩
  known hash := if hash.bytes = 0 then some ⟨0, ⟨0⟩⟩ else none
  spendIndex _ := none
  known_pinned := by
    intro height hash info h hknown
    obtain ⟨-, rfl⟩ := captured_hashAt h
    dsimp only at hknown
    split at hknown
    case isTrue hzero =>
      obtain rfl : height = 0 := hzero
      cases hknown
      exact ⟨rfl, fun hpos => absurd hpos (Nat.lt_irrefl 0)⟩
    case isFalse => cases hknown
  best_pinned := by
    intro height height' hash h h'
    obtain ⟨hle, rfl⟩ := captured_hashAt h
    match height' with
    | 0 => exact BlockHash.mk.inj (Option.some.inj h')
    | 1 =>
        have hnine := BlockHash.mk.inj (Option.some.inj h')
        omega
    | n + 2 => cases h'
  final := by
    intro height hle
    obtain rfl : height = 0 := Nat.le_zero.mp hle
    rfl
  holds hash := hash.bytes ≠ 1
  holds_final := by
    intro height hle hash h
    obtain rfl : height = 0 := Nat.le_zero.mp hle
    obtain ⟨-, rfl⟩ := captured_hashAt h
    rfl

/-- The block that a hash stands for. -/
def blockNumbered (hash : BlockHash) : Block := ⟨hash.bytes, ⟨hash, 0⟩⟩

theorem streams_right_iff_replacedTip :
    Ensures (ServedIn blockNumbered {replacedTip})
      (fun r => ∃ out, r = .ok out ∧
        StreamsRight ((BlockStream.range 0 1).expected blockNumbered captured) out)
      (drain captured.view (.range 0 1)) := by
  refine ((streams_right_iff blockNumbered {replacedTip} ⟨_, rfl⟩).1 (.range 0 1)).mpr
    ⟨by decide, ?_⟩
  rintro height - ⟨-, hlt⟩ s rfl hash hhash
  obtain rfl : height = 0 := Nat.lt_one_iff.mp hlt
  obtain ⟨-, rfl⟩ := captured_hashAt hhash
  rfl

/-- A stream ends silently at a block that is gone, and an empty range yields a block. -/
theorem streams_end_early :
    ¬ (∀ (c : History) (content : BlockHash → Block) (states : Set (StoringState c)),
      states.Nonempty → ∀ start, Ensures (ServedIn content states)
        (fun r => ∃ out, r = .ok out ∧
          StreamsRight ((BlockStream.toTip start).expected content c) out)
        (drain c.view (.toTip start))) ∧
    ¬ ∀ (c : History) (content : BlockHash → Block) (states : Set (StoringState c)),
      states.Nonempty → ∀ start stop, Ensures (ServedIn content states)
        (fun r => ∃ out, r = .ok out ∧
          StreamsRight ((BlockStream.range start stop).expected content c) out)
        (drain c.view (.range start stop)) := by
  have hstates : ({replacedTip} : Set (StoringState captured)).Nonempty := ⟨_, rfl⟩
  refine ⟨?_, ?_⟩
  · intro h
    obtain ⟨-, hheld⟩ := held_of_right hstates (h captured blockNumbered _ hstates 0)
    have hgone : replacedTip.holds ⟨1⟩ = true :=
      hheld 1 (Nat.le_refl 1) (Nat.zero_le 1) replacedTip rfl ⟨1⟩ rfl
    exact absurd hgone (by decide)
  · intro h
    exact (held_of_right hstates (h captured blockNumbered _ hstates 0 0)).1 rfl

end Zallet
