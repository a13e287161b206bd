/-
# `Zallet.Keystore.Recipients` — who the keystore encrypts to

`initialize_recipients` looks whether there are recipients, and if there are
none inserts its list, one statement a recipient.  The look and the inserts are
on two handles, and no transaction holds them together; any number of callers
may be at it at once, here statement by statement.  (Handles of one pool keep
others out while they write, so that their runs are some of these.)

One list is stored, and whole, if two things do not happen: that a call begins
to insert after another has inserted, and that an insert of a call fails when
an earlier one did not (`Exclusive`, `oneList_of_exclusive`).  Neither is
excluded by the code (`two_lists`).
-/
import Mathlib.Algebra.Order.Ring.Nat
import Mathlib.Algebra.Order.Sub.Basic
import Mathlib.Data.List.Basic
import Mathlib.Data.List.TakeDrop
import Mathlib.Data.Nat.SuccPred
import Zallet.Keystore.Keys
import Zallet.Prog.Schedule

namespace Zallet.Recipients

open Prog

/-! ## The method -/

inductive RecipientsOp where
  | handle
  /-- `SELECT recipient FROM ext_zallet_keystore_age_recipients` -/
  | selectRecipients
  | nowUtc
  | prepareInsert
  | insertRecipient (recipient : String) (added : Nat)
  deriving DecidableEq, Repr

abbrev RecipientsOp.Ans : RecipientsOp → Type
  | .handle => Except String Unit
  | .selectRecipients => Except String (List String)
  | .nowUtc => Nat
  | .prepareInsert => Except String Unit
  | .insertRecipient _ _ => Except String Unit

abbrev recipientsSig : Sig := ⟨RecipientsOp, RecipientsOp.Ans⟩

abbrev RecipientsProg := Prog recipientsSig String

def errKeystoreAlreadyInitialized : String := "Keystore age recipients already initialized"

section
variable (readRecipients : List String → Except String Unit)

def fromRecipientStrings (recipientStrings : List String) : Except String Encryptor :=
  (readRecipients recipientStrings).map fun _ => ⟨recipientStrings⟩

/-- The recipients that are there. -/
def maybeEncryptor : RecipientsProg Encryptor := do
  query .handle id
  query .selectRecipients fun answer => answer.bind (fromRecipientStrings readRecipients)

/-- The inserts, each committed by itself. -/
def insertEach (added : Nat) (recipientStrings : List String) : RecipientsProg Unit :=
  recipientStrings.foldlM (fun _ recipient => query (.insertRecipient recipient added) id) ()

def initializeRecipients (recipientStrings : List String) : RecipientsProg Unit := do
  let encryptor ← maybeEncryptor readRecipients
  if encryptor.recipients ≠ [] then .fail errKeystoreAlreadyInitialized
  else do
    -- the handle of the look is gone by now
    let now ← ask (E := recipientsSig) .nowUtc
    query .handle id
    query .prepareInsert id
    insertEach now recipientStrings

end

/-- The rows of the table: a recipient, and when it was added. -/
abbrev Rows := List (String × Nat)

/-- How the table answers: a statement is done or fails and does nothing. -/
def recipientsStep (rows : Rows) : (op : RecipientsOp) → op.Ans → Rows → Prop
  | .selectRecipients, .ok recipients, rows' => recipients.Perm (rows.map (·.1)) ∧ rows' = rows
  | .insertRecipient recipient added, .ok (), rows' => rows' = rows ++ [(recipient, added)]
  | _, _, rows' => rows' = rows

/-! ## What a run inserts -/

/-- The row that was inserted. -/
def insertedRow : Event recipientsSig → Option (String × Nat)
  | ⟨.insertRecipient recipient added, .ok ()⟩ => some (recipient, added)
  | _ => none

/-- An insert that failed. -/
def insertFails : Event recipientsSig → Bool
  | ⟨.insertRecipient _ _, .error _⟩ => true
  | _ => false

theorem insertedRow_of_fails {e : Event recipientsSig} (h : insertFails e = true) :
    insertedRow e = none := by
  obtain ⟨op, a⟩ := e
  cases op with
  | insertRecipient recipient added =>
      cases a with
      | ok _ => cases h
      | error e => rfl
  | _ => cases h

def inserted (tr : Trace recipientsSig) : Rows := tr.filterMap insertedRow

theorem inserted_append {l r : Trace recipientsSig} :
    inserted (l ++ r) = inserted l ++ inserted r := List.filterMap_append

/-- The table has the rows that were inserted, in their order. -/
theorem path_inserted {rows t : Rows} {tr : Trace recipientsSig}
    (h : Path recipientsStep rows tr t) : t = rows ++ inserted tr := by
  induction h with
  | nil rows => exact (List.append_nil rows).symm
  | @cons rows rows₁ t op a tr hstep _ ih =>
      have hrow : rows₁ = rows ++ inserted [⟨op, a⟩] := by
        cases op with
        | handle | prepareInsert | nowUtc =>
            rw [show rows₁ = rows from hstep]
            exact (List.append_nil rows).symm
        | selectRecipients =>
            cases a with
            | ok recipients =>
                rw [hstep.2]
                exact (List.append_nil rows).symm
            | error e =>
                rw [show rows₁ = rows from hstep]
                exact (List.append_nil rows).symm
        | insertRecipient recipient added =>
            cases a with
            | ok _ => exact hstep
            | error e =>
                rw [show rows₁ = rows from hstep]
                exact (List.append_nil rows).symm
      rw [ih, hrow, List.append_assoc, ← inserted_append]
      rfl

/-! ## One call -/

/-- What the call does next is an insert. -/
def Inserting (q : RecipientsProg Unit) : Prop :=
  ∃ recipient added k, q = .call (.insertRecipient recipient added) k

/-- How far the inserts of a list have got. -/
inductive Filling (recipients : List String) : Trace recipientsSig → RecipientsProg Unit → Prop
  | inserting {tr : Trace recipientsSig} {q : RecipientsProg Unit} : Inserting q →
      (inserted tr).map (·.1) <+: recipients → Filling recipients tr q
  | broken {l : Trace recipientsSig} {e : Event recipientsSig} {msg : String} :
      insertFails e = true → Filling recipients (l ++ [e]) (.fail msg)
  | complete {tr : Trace recipientsSig} : (inserted tr).map (·.1) = recipients →
      Filling recipients tr (.ret ())

theorem Filling.after {recipients : List String} {l tr : Trace recipientsSig}
    {q : RecipientsProg Unit} (hl : inserted l = []) (h : Filling recipients tr q) :
    Filling recipients (l ++ tr) q := by
  have hinserted : inserted (l ++ tr) = inserted tr := by rw [inserted_append, hl, List.nil_append]
  cases h with
  | inserting hnext hpart =>
      refine .inserting hnext ?_
      rwa [hinserted]
  | broken hfails =>
      rw [← List.append_assoc]
      exact .broken hfails
  | complete hall =>
      refine .complete ?_
      rwa [hinserted]

theorem Filling.next {recipients : List String} {recipient : String} {added : Nat}
    {tr : Trace recipientsSig} {q : RecipientsProg Unit} (h : Filling recipients tr q) :
    Filling (recipient :: recipients) (⟨.insertRecipient recipient added, .ok ()⟩ :: tr) q := by
  cases h with
  | inserting hnext hpart => exact .inserting hnext (List.prefix_cons_inj recipient |>.mpr hpart)
  | broken hfails => exact .broken (l := ⟨.insertRecipient recipient added, .ok ()⟩ :: _) hfails
  | complete hall => exact .complete (congrArg (recipient :: ·) hall)

theorem Filling.of_ret {recipients : List String} {tr : Trace recipientsSig}
    (h : Filling recipients tr (.ret ())) : (inserted tr).map (·.1) = recipients := by
  cases h with
  | inserting hnext =>
      obtain ⟨_, _, _, hcall⟩ := hnext
      cases hcall
  | complete hall => exact hall

theorem Filling.of_fail {recipients : List String} {tr : Trace recipientsSig} {msg : String}
    (h : Filling recipients tr (.fail msg)) : ∃ l e, tr = l ++ [e] ∧ insertFails e = true := by
  cases h with
  | inserting hnext =>
      obtain ⟨_, _, _, hcall⟩ := hnext
      cases hcall
  | broken hfails => exact ⟨_, _, rfl, hfails⟩

theorem Filling.of_not_ended {recipients : List String} {tr : Trace recipientsSig}
    {q : RecipientsProg Unit} (h : Filling recipients tr q) (hret : q ≠ .ret ())
    (hfail : ∀ msg, q ≠ .fail msg) : Inserting q ∧ (inserted tr).map (·.1) <+: recipients := by
  cases h with
  | inserting hnext hpart => exact ⟨hnext, hpart⟩
  | broken => exact absurd rfl (hfail _)
  | complete => exact absurd rfl hret

theorem insertEach_filling {added : Nat} {recipients : List String} {tr : Trace recipientsSig}
    {q : RecipientsProg Unit} (h : Run (insertEach added recipients) tr q) :
    Filling recipients tr q := by
  induction recipients generalizing tr with
  | nil =>
      cases h with
      | refl => exact .complete rfl
  | cons recipient recipients ih =>
      rcases h.query_bind_inv with ⟨rfl, rfl⟩ | ⟨a, l, rfl, ⟨e, ha, rfl, rfl⟩ | ⟨_, ha, hrest⟩⟩
      · exact .inserting ⟨recipient, added, _, rfl⟩ List.nil_prefix
      · cases a with
        | ok _ => cases ha
        | error e' => exact .broken (l := []) rfl
      · cases a with
        | ok _ => exact (ih hrest).next
        | error e' => cases ha

/-- How far a call has got. -/
inductive Progress (recipients : List String) (tr : Trace recipientsSig)
    (q : RecipientsProg Unit) : Prop
  | nothing : inserted tr = [] → q ≠ .ret () → Progress recipients tr q
  | filling : Filling recipients tr q → Progress recipients tr q

/-- An event that inserts nothing, before what is done. -/
theorem Progress.after {recipients : List String} {e : Event recipientsSig}
    {tr : Trace recipientsSig} {q : RecipientsProg Unit} (he : insertedRow e = none)
    (h : Progress recipients tr q) : Progress recipients (e :: tr) q := by
  have hnone : inserted [e] = [] := List.filterMap_eq_nil_iff.mpr (List.forall_mem_singleton.mpr he)
  cases h with
  | nothing htr hret =>
      refine .nothing ?_ hret
      rw [← List.singleton_append, inserted_append, hnone, htr]
      rfl
  | filling hfilling => exact .filling (hfilling.after (l := [e]) hnone)

/-- Asking for something else than an insert makes no difference. -/
theorem Progress.query {recipients : List String} {op : RecipientsOp} {α : Type}
    {f : op.Ans → Except String α} {g : α → RecipientsProg Unit} {tr : Trace recipientsSig}
    {q : RecipientsProg Unit} (hop : ∀ a, insertedRow ⟨op, a⟩ = none)
    (hg : ∀ a tr, Run (g a) tr q → Progress recipients tr q)
    (h : Run (query (E := recipientsSig) op f >>= g) tr q) : Progress recipients tr q := by
  rcases h.query_bind_inv with ⟨rfl, rfl⟩ | ⟨a, l, rfl, ⟨e, -, rfl, rfl⟩ | ⟨x, -, hrest⟩⟩
  · exact .nothing rfl (by rintro ⟨⟩)
  · exact (Progress.nothing rfl (by rintro ⟨⟩)).after (hop a)
  · exact (hg x l hrest).after (hop a)

theorem initializeRecipients_progress {readRecipients : List String → Except String Unit}
    {recipients : List String} {tr : Trace recipientsSig} {q : RecipientsProg Unit}
    (h : Run (initializeRecipients readRecipients recipients) tr q) :
    Progress recipients tr q := by
  unfold initializeRecipients maybeEncryptor at h
  have h : Run (Prog.bind (Prog.bind (query (E := recipientsSig) .handle id) _) _) tr q := h
  rw [Prog.bind_assoc] at h
  refine Progress.query (fun _ => rfl) ?_ h
  intro _ tr h
  refine Progress.query (fun _ => rfl) ?_ h
  intro encryptor tr h
  split at h
  case isTrue =>
    cases h
    exact .nothing rfl (by rintro ⟨⟩)
  case isFalse =>
    cases h with
    | refl => exact .nothing rfl (by rintro ⟨⟩)
    | call h =>
        refine Progress.after rfl (Progress.query (fun _ => rfl) ?_ h)
        intro _ tr h
        refine Progress.query (fun _ => rfl) ?_ h
        intro _ tr h
        exact .filling (insertEach_filling h)

/-! ## Any number of calls -/

section
variable {ι : Type} [DecidableEq ι]

/-- What was inserted, by whomever. -/
def insertedByAll (tr : List (ι × Event recipientsSig)) : Rows := inserted (tr.map (·.2))

/-- A call's first insert finds the table empty, and its later ones do not fail. -/
def Fitting (rows : Rows) (before : List (ι × Event recipientsSig))
    (e : ι × Event recipientsSig) : Prop :=
  (insertedRow e.2 ≠ none → inserted (own e.1 before) = [] →
    rows = [] ∧ insertedByAll before = []) ∧
  (insertFails e.2 = true → inserted (own e.1 before) = [])

instance (rows : Rows) (before : List (ι × Event recipientsSig)) (e : ι × Event recipientsSig) :
    Decidable (Fitting rows before e) :=
  inferInstanceAs (Decidable ((_ → _ → _ ∧ _) ∧ (_ → _)))

/-- Every step of the run, from a table with these rows, is such. -/
def Exclusive (rows : Rows) (tr : List (ι × Event recipientsSig)) : Prop :=
  ∀ l e r, tr = l ++ e :: r → Fitting rows l e

theorem exclusive_iff_take {rows : Rows} {tr : List (ι × Event recipientsSig)} :
    Exclusive rows tr ↔ ∀ n, (h : n < tr.length) → Fitting rows (tr.take n) tr[n] := by
  constructor
  · intro h n hn
    refine h _ _ (tr.drop (n + 1)) ?_
    rw [List.cons_getElem_drop_succ, List.take_append_drop]
  · intro h l e r htr
    subst htr
    have hfits := h l.length (by simp)
    simpa using hfits

instance (rows : Rows) (tr : List (ι × Event recipientsSig)) : Decidable (Exclusive rows tr) :=
  decidable_of_iff _ exclusive_iff_take.symm

/-- The callers have stored one list, or are about to. -/
structure OneList (lists : ι → List String) (rows : Rows)
    (tr : List (ι × Event recipientsSig)) (calls : ι → RecipientsProg Unit) (t : Rows) : Prop where
  failed : ∀ i msg, calls i = .fail msg → inserted (own i tr) = []
  once : ∀ i j, calls i = .ret () → calls j = .ret () → lists i ≠ [] → lists j ≠ [] → i = j
  stored : t = rows ∨ rows = [] ∧ ∃ i, calls i = .ret () ∧ t.map (·.1) = lists i ∨
    Inserting (calls i) ∧ t.map (·.1) <+: lists i

variable {lists : ι → List String} {rows t : Rows} {tr : List (ι × Event recipientsSig)}
  {calls : ι → RecipientsProg Unit} {i j : ι}

/-- A call that has inserted began to, and found the table empty. -/
theorem Exclusive.began (h : Exclusive rows tr) (hi : inserted (own i tr) ≠ []) :
    rows = [] ∧ ∃ l e r, tr = l ++ (i, e) :: r ∧ insertedRow e ≠ none ∧
      insertedByAll l = [] := by
  obtain ⟨row, hrow⟩ := List.exists_mem_of_ne_nil _ hi
  obtain ⟨e, he, hsome⟩ := List.mem_filterMap.mp hrow
  have hfound : (tr.find? fun e => e.1 = i ∧ insertedRow e.2 ≠ none).isSome := by
    rw [List.find?_isSome]
    refine ⟨(i, e), mem_own.mp he, ?_⟩
    simp [hsome]
  obtain ⟨⟨k, first⟩, hfirst⟩ := Option.isSome_iff_exists.mp hfound
  obtain ⟨hfirst, l, r, htr, hl⟩ := List.find?_eq_some_iff_append.mp hfirst
  obtain ⟨hk, hinserts⟩ := of_decide_eq_true hfirst
  obtain rfl : k = i := hk
  have hnone : inserted (own k l) = [] := by
    refine List.filterMap_eq_nil_iff.mpr ?_
    intro e he
    have hne := hl (k, e) (mem_own.mp he)
    simpa using hne
  obtain ⟨hrows, hempty⟩ := (h l (k, first) r htr).1 hinserts hnone
  exact ⟨hrows, l, first, r, htr, hinserts, hempty⟩

omit [DecidableEq ι] in
/-- Of two runs up to an insert with none before it, neither is a part of the other. -/
theorem first_unique {l l' r r' : List (ι × Event recipientsSig)} {e e' : Event recipientsSig}
    (htr : l ++ (i, e) :: r = l' ++ (j, e') :: r') (he : insertedRow e ≠ none)
    (he' : insertedRow e' ≠ none) (hl : insertedByAll l = []) (hl' : insertedByAll l' = []) :
    i = j := by
  have hnot : ∀ {k : ι} {x : Event recipientsSig} {m : List (ι × Event recipientsSig)},
      insertedRow x ≠ none → insertedByAll m = [] → (k, x) ∉ m := by
    intro k x m hx hm hmem
    exact hx (List.filterMap_eq_nil_iff.mp hm x (List.mem_map_of_mem hmem))
  rcases List.append_eq_append_iff.mp htr with ⟨m, rfl, hm⟩ | ⟨m, rfl, hm⟩
  · cases m with
    | nil => exact congrArg Prod.fst (List.cons.inj hm).1
    | cons x m =>
        obtain ⟨rfl, -⟩ := List.cons.inj hm
        exact absurd (List.mem_append_right _ List.mem_cons_self) (hnot he hl')
  · cases m with
    | nil => exact (congrArg Prod.fst (List.cons.inj hm).1).symm
    | cons x m =>
        obtain ⟨rfl, -⟩ := List.cons.inj hm
        exact absurd (List.mem_append_right _ List.mem_cons_self) (hnot he' hl)

/-- No two calls insert. -/
theorem Exclusive.one (h : Exclusive rows tr) (hi : inserted (own i tr) ≠ [])
    (hj : inserted (own j tr) ≠ []) : i = j := by
  obtain ⟨-, l, e, r, htr, he, hl⟩ := h.began hi
  obtain ⟨-, l', e', r', htr', he', hl'⟩ := h.began hj
  exact first_unique (htr.symm.trans htr') he he' hl hl'

/-- What one call inserted is all that was. -/
theorem Exclusive.all (h : Exclusive rows tr) (hi : inserted (own i tr) ≠ []) :
    insertedByAll tr = inserted (own i tr) := by
  rw [insertedByAll, inserted, inserted, own, List.filterMap_map, List.filterMap_filterMap]
  refine List.filterMap_congr ?_
  rintro ⟨j, e⟩ hmem
  by_cases hj : j = i
  · simp [hj]
  · have hnone : insertedRow e = none := by
      by_contra hsome
      refine hj (h.one ?_ hi)
      intro hnone
      exact hsome (List.filterMap_eq_nil_iff.mp hnone e (mem_own.mpr hmem))
    simp [hj, hnone]

theorem Exclusive.failed (h : Exclusive rows tr) {msg : String}
    (hprogress : Progress (lists i) (own i tr) (calls i)) (hfail : calls i = .fail msg) :
    inserted (own i tr) = [] := by
  rw [hfail] at hprogress
  cases hprogress with
  | nothing hnone => exact hnone
  | filling hfilling =>
      -- the last thing it did was an insert that failed, and this was its first
      obtain ⟨l, e, hown, hfails⟩ := hfilling.of_fail
      obtain ⟨l', r', htr, rfl, -⟩ := own_split hown
      have hbefore : inserted (own i l') = [] := (h l' (i, e) r' htr).2 hfails
      rw [hown, inserted_append, hbefore, List.nil_append]
      exact List.filterMap_eq_nil_iff.mpr
        (List.forall_mem_singleton.mpr (insertedRow_of_fails hfails))

end

/-- In every run of any number of calls whose steps are all such, one list is stored at most, by the
only call that succeeds with one, and a call that fails has stored nothing. -/
theorem oneList_of_exclusive {ι : Type} [DecidableEq ι]
    (readRecipients : List String → Except String Unit) (lists : ι → List String) (rows t : Rows)
    (tr : List (ι × Event recipientsSig)) (calls : ι → RecipientsProg Unit)
    (h : Interleave (fun i => initializeRecipients readRecipients (lists i)) tr calls)
    (hpath : Path recipientsStep rows (tr.map (·.2)) t) (hexclusive : Exclusive rows tr) :
    OneList lists rows tr calls t := by
  have hprogress : ∀ i, Progress (lists i) (own i tr) (calls i) := fun i =>
    initializeRecipients_progress (h.own i)
  have hcomplete : ∀ i, calls i = .ret () → (inserted (own i tr)).map (·.1) = lists i := by
    intro i hret
    have hi := hprogress i
    rw [hret] at hi
    cases hi with
    | nothing _ hne => exact absurd rfl hne
    | filling hfilling => exact hfilling.of_ret
  have hsome : ∀ i, calls i = .ret () → lists i ≠ [] → inserted (own i tr) ≠ [] := by
    intro i hret hlist hnone
    apply hlist
    rw [← hcomplete i hret, hnone]
    rfl
  have htable : t = rows ++ insertedByAll tr := path_inserted hpath
  refine ⟨?_, ?_, ?_⟩
  · intro i msg hfail
    exact hexclusive.failed (hprogress i) hfail
  · intro i j hi hj hlisti hlistj
    exact hexclusive.one (hsome i hi hlisti) (hsome j hj hlistj)
  · by_cases hall : insertedByAll tr = []
    · rw [hall, List.append_nil] at htable
      exact .inl htable
    · -- some call has inserted, and then it is the only one
      obtain ⟨row, hrow⟩ := List.exists_mem_of_ne_nil _ hall
      obtain ⟨e, he, hinserts⟩ := List.mem_filterMap.mp hrow
      obtain ⟨⟨i, e⟩, hmem, rfl⟩ := List.mem_map.mp he
      have hi : inserted (own i tr) ≠ [] :=
        List.ne_nil_of_mem (List.mem_filterMap.mpr ⟨e, mem_own.mpr hmem, hinserts⟩)
      obtain ⟨hrows, -⟩ := hexclusive.began hi
      refine .inr ⟨hrows, i, ?_⟩
      rw [hrows, List.nil_append, hexclusive.all hi] at htable
      rw [htable]
      have hcall := hprogress i
      cases hcall with
      | nothing hnone => exact absurd hnone hi
      | filling hfilling =>
          by_cases hret : calls i = .ret ()
          · exact .inl ⟨hret, hcomplete i hret⟩
          · refine .inr (hfilling.of_not_ended hret ?_)
            intro msg hfail
            exact hi (hexclusive.failed (hprogress i) hfail)

/-! ## Two callers -/

/-- The statements of a database that has room for so many rows. -/
def answer (capacity : Nat) : Answer recipientsSig Rows
  | rows, .handle => (.ok (), rows)
  | rows, .selectRecipients => (.ok (rows.map (·.1)), rows)
  | rows, .nowUtc => (1700000000, rows)
  | rows, .prepareInsert => (.ok (), rows)
  | rows, .insertRecipient recipient added =>
      if rows.length < capacity then (.ok (), rows ++ [(recipient, added)])
      else (.error "database or disk is full", rows)

theorem answer_step (capacity : Nat) (rows : Rows) (op : RecipientsOp) :
    recipientsStep rows op (answer capacity rows op).1 (answer capacity rows op).2 := by
  cases op with
  | selectRecipients => exact ⟨.refl _, rfl⟩
  | insertRecipient recipient added =>
      by_cases hroom : rows.length < capacity
      · simp only [answer, if_pos hroom]
        rfl
      · simp only [answer, if_neg hroom]
        rfl
  | _ => rfl

/-- One caller with two recipients and one with another. -/
def twoLists : Bool → List String
  | false =>
      ["age1ql3z7hjy54pw3hyww5ayyfg7zqgvc7w3j2elw8zmrj2kg5sfn9aqmcac8p",
        "age1lggyhqrw2nlhcxprm67z43rta597azn8gknawjehu9d9dl0jq3yqqvfafg"]
  | true => ["age1cy0su9fwf3gf9mw868g5yut09p6nytfmmnktexz2ya5uqg9vl9sss4euqm"]

/-- Runs of the two, from an empty table. -/
def runs (capacity : Nat) (turns : List (Bool × Nat)) :
    List (Bool × Event recipientsSig) × Rows × (Bool → RecipientsProg Unit) :=
  schedule (answer capacity) turns [] fun caller =>
    initializeRecipients (fun _ => .ok ()) (twoLists caller)

theorem runs_interleave (capacity : Nat) (turns : List (Bool × Nat)) :
    Interleave (fun caller => initializeRecipients (fun _ => .ok ()) (twoLists caller))
      (runs capacity turns).1 (runs capacity turns).2.2 :=
  schedule_interleave _ _ _ _

theorem runs_path (capacity : Nat) (turns : List (Bool × Nat)) :
    Path recipientsStep [] ((runs capacity turns).1.map (·.2)) (runs capacity turns).2.1 :=
  schedule_path (answer_step capacity) _ _ _

/-- One after the other. -/
theorem oneList_of_exclusive_turns :
    OneList twoLists [] (runs 10 [(false, 20), (true, 20)]).1
      (runs 10 [(false, 20), (true, 20)]).2.2 (runs 10 [(false, 20), (true, 20)]).2.1 :=
  oneList_of_exclusive _ twoLists [] _ _ _ (runs_interleave 10 _) (runs_path 10 _)
    (by decide +kernel)

/-- Both look before either inserts, and both succeed; and where there is room for one row, the one
that fails has inserted it. -/
theorem two_lists :
    (∃ tr calls t,
      Interleave (fun caller => initializeRecipients (fun _ => .ok ()) (twoLists caller)) tr calls ∧
      Path recipientsStep [] (tr.map (·.2)) t ∧ (∀ caller, calls caller = .ret ()) ∧
      t.map (·.1) = twoLists false ++ twoLists true) ∧
    ∃ tr calls t,
      Interleave (fun caller => initializeRecipients (fun _ => .ok ()) (twoLists caller)) tr calls ∧
      Path recipientsStep [] (tr.map (·.2)) t ∧
      calls false = .fail "database or disk is full" ∧ t.map (·.1) = (twoLists false).take 1 := by
  constructor
  · have hreturn : ∀ caller, ((runs 10 [(false, 2), (true, 2), (false, 20), (true, 20)]).2.2
        caller).result? = some () := by decide +kernel
    exact ⟨_, _, _, runs_interleave 10 [(false, 2), (true, 2), (false, 20), (true, 20)],
      runs_path 10 _, fun caller => eq_ret_of_result? (hreturn caller), by decide +kernel⟩
  · have hfails : ((runs 1 [(false, 20)]).2.2 false).failed? =
        some "database or disk is full" := by decide +kernel
    exact ⟨_, _, _, runs_interleave 1 [(false, 20)], runs_path 1 _, eq_fail_of_failed? hfails,
      by decide +kernel⟩

end Zallet.Recipients
