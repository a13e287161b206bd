/-
# `Zallet.Rpc.Error` — the errors of the RPC methods

`json_rpc/server/error.rs`, the codes the modelled methods use, and the two codes of
the RPC library they use beside them.  `RpcResult` is the type of the code that only
computes or reads: it returns, refuses with such an error, or panics.  `Gives p a` says
that it returns `a`, and is read off the code by one equivalence for each way the code
is put together.  `Settles p` says that it does not panic; where a panic and a refusal
depend on the same reads, `Takes p stages` tells both off the list of its stages.
-/
import Mathlib.Data.List.Forall2
import Mathlib.Data.List.Perm.Basic

namespace Zallet

structure RpcError where
  code : Int
  message : String
  deriving DecidableEq, Repr

inductive LegacyCode where
  | misc
  | type
  | wallet
  | invalidAddressOrKey
  | invalidParameter
  | walletUnlockNeeded
  | database
  | inWarmup
  deriving DecidableEq, Repr

namespace LegacyCode

def code : LegacyCode → Int
  | .misc => -1
  | .type => -3
  | .wallet => -4
  | .invalidAddressOrKey => -5
  | .invalidParameter => -8
  | .walletUnlockNeeded => -13
  | .database => -20
  | .inWarmup => -28

/-- `with_static` and `with_message` -/
def withMessage (code : LegacyCode) (message : String) : RpcError := ⟨code.code, message⟩

end LegacyCode

namespace RpcErrorCode

def invalidParams : RpcError := ⟨-32602, "Invalid params"⟩

def internalError (message : String) : RpcError := ⟨-32603, message⟩

end RpcErrorCode

/-- An error with more to say than its message: what `RpcError::owned` makes. -/
structure ErrorObject extends RpcError where
  data : Option String
  deriving DecidableEq, Repr

def RpcError.noData (e : RpcError) : ErrorObject := ⟨e, none⟩

/-! ## Results -/

/-- What a call that changes nothing ends with; `π` are its panics. -/
abbrev RpcResult (π : Type) := ExceptT RpcError (Except π)

namespace RpcResult

variable {π ε α β δ σ : Type}

/-- `.ok_or_else(..)?` -/
def okOr (x : Option α) (e : ε) : ExceptT ε (Except π) α := x.elim (throw e) pure

/-- `.map_err(..)?` -/
def mapErr (x : Except δ α) (f : δ → ε) : ExceptT ε (Except π) α := ExceptT.mk (.ok (x.mapError f))

/-- An early return of an error. -/
def refuseIf (c : Prop) [Decidable c] (e : ε) : ExceptT ε (Except π) Unit :=
  if c then throw e else pure ()

/-- The call does not come back. -/
def panicWith (panic : π) : ExceptT ε (Except π) α := ExceptT.mk (.error panic)

/-- `.expect(..)` -/
def expect (x : Option α) (panic : π) : ExceptT ε (Except π) α := x.elim (panicWith panic) pure

/-- The call returns this result. -/
def Gives (p : ExceptT ε (Except π) α) (a : α) : Prop := p.run = .ok (.ok a)

theorem Gives.unique {p : ExceptT ε (Except π) α} {a b : α} (ha : Gives p a) (hb : Gives p b) :
    a = b := by
  have h : (.ok (.ok a) : Except π (Except ε α)) = .ok (.ok b) := Eq.trans (Eq.symm ha) hb
  cases h
  rfl

theorem gives_pure {a b : α} : Gives (pure a : ExceptT ε (Except π) α) b ↔ a = b := by
  constructor
  · intro h
    cases h
    rfl
  · rintro rfl
    rfl

theorem not_gives_throw {e : ε} {b : α} : ¬ Gives (throw e : ExceptT ε (Except π) α) b := by
  intro h
  cases h

theorem not_gives_panicWith {panic : π} {b : α} :
    ¬ Gives (panicWith panic : ExceptT ε (Except π) α) b := by
  intro h
  cases h

theorem gives_bind {p : ExceptT ε (Except π) α} {f : α → ExceptT ε (Except π) β} {b : β} :
    Gives (p >>= f) b ↔ ∃ a, Gives p a ∧ Gives (f a) b := by
  constructor
  · intro h
    have h : ExceptT.bindCont f =<< p.run = .ok (.ok b) := h
    match hp : p.run with
    | .error panic =>
        rw [hp] at h
        cases h
    | .ok (.error e) =>
        rw [hp] at h
        cases h
    | .ok (.ok a) =>
        rw [hp] at h
        exact ⟨a, hp, h⟩
  · rintro ⟨a, ha, hb⟩
    show ExceptT.bindCont f =<< p.run = .ok (.ok b)
    rw [show p.run = .ok (.ok a) from ha]
    exact hb

theorem gives_map {p : ExceptT ε (Except π) α} {f : α → β} {b : β} :
    Gives (f <$> p) b ↔ ∃ a, Gives p a ∧ f a = b := by
  rw [map_eq_pure_bind, gives_bind]
  simp only [gives_pure]

theorem gives_okOr {x : Option α} {e : ε} {a : α} :
    Gives (okOr x e : ExceptT ε (Except π) α) a ↔ x = some a := by
  cases x with
  | none => exact iff_of_false not_gives_throw (by rintro ⟨⟩)
  | some b => exact gives_pure.trans Option.some_inj.symm

theorem gives_expect {x : Option α} {panic : π} {a : α} :
    Gives (expect x panic : ExceptT ε (Except π) α) a ↔ x = some a := by
  cases x with
  | none => exact iff_of_false not_gives_panicWith (by rintro ⟨⟩)
  | some b => exact gives_pure.trans Option.some_inj.symm

theorem gives_mapErr {x : Except δ α} {f : δ → ε} {a : α} :
    Gives (mapErr x f : ExceptT ε (Except π) α) a ↔ x = .ok a := by
  cases x with
  | error e => exact iff_of_false (by rintro ⟨⟩) (by rintro ⟨⟩)
  | ok b =>
      constructor
      · rintro ⟨⟩
        rfl
      · rintro ⟨⟩
        rfl

theorem gives_refuseIf {c : Prop} [Decidable c] {e : ε} {a : Unit} :
    Gives (refuseIf c e : ExceptT ε (Except π) Unit) a ↔ ¬ c := by
  by_cases h : c
  · rw [refuseIf, if_pos h]
    exact iff_of_false not_gives_throw (not_not_intro h)
  · rw [refuseIf, if_neg h]
    exact iff_of_true rfl h

theorem gives_adapt {p : ExceptT δ (Except π) α} {f : δ → ε} {a : α} :
    Gives (p.adapt f) a ↔ Gives p a := by
  show (Except.mapError f <$> p.run) = .ok (.ok a) ↔ p.run = .ok (.ok a)
  rcases p.run with panic | e | b
  · exact iff_of_false (by rintro ⟨⟩) (by rintro ⟨⟩)
  · exact iff_of_false (by rintro ⟨⟩) (by rintro ⟨⟩)
  · constructor
    · rintro ⟨⟩
      rfl
    · rintro ⟨⟩
      rfl

/-- A pass over a list gives the results of its elements. -/
theorem gives_mapM {f : α → ExceptT ε (Except π) β} {xs : List α} {ys : List β} :
    Gives (xs.mapM f) ys ↔ List.Forall₂ (fun x y => Gives (f x) y) xs ys := by
  induction xs generalizing ys with
  | nil =>
      rw [List.mapM_nil, gives_pure, List.forall₂_nil_left_iff]
      exact eq_comm
  | cons x xs ih =>
      simp only [List.mapM_cons, gives_bind, gives_pure, ih, List.forall₂_cons_left_iff]
      constructor
      · rintro ⟨y, hy, ys, hys, rfl⟩
        exact ⟨y, ys, hy, hys, rfl⟩
      · rintro ⟨y, ys, hy, hys, rfl⟩
        exact ⟨y, hy, ys, hys, rfl⟩

/-- A pass in another order gives the same results in another order. -/
theorem gives_mapM_perm {f : α → ExceptT ε (Except π) β} {xs xs' : List α} {ys : List β}
    (h : Gives (xs.mapM f) ys) (hperm : xs.Perm xs') :
    ∃ ys', Gives (xs'.mapM f) ys' ∧ ys'.Perm ys := by
  obtain ⟨ys', hys', hys⟩ := List.perm_comp_forall₂ hperm.symm (gives_mapM.mp h)
  exact ⟨ys', gives_mapM.mpr hys', hys⟩

/-- Where each element gives a result that is known up to `g`, the pass gives them all. -/
theorem exists_gives_mapM {f : α → ExceptT ε (Except π) β} {g : β → δ} {k : α → δ} {xs : List α}
    (h : ∀ x ∈ xs, ∃ y, Gives (f x) y ∧ g y = k x) :
    ∃ ys, Gives (xs.mapM f) ys ∧ ys.map g = xs.map k := by
  induction xs with
  | nil => exact ⟨[], gives_mapM.mpr .nil, rfl⟩
  | cons x xs ih =>
      obtain ⟨⟨y, hy, hgy⟩, hrest⟩ := List.forall_mem_cons.mp h
      obtain ⟨ys, hys, hgys⟩ := ih hrest
      refine ⟨y :: ys, gives_mapM.mpr (.cons hy (gives_mapM.mp hys)), ?_⟩
      rw [List.map_cons, List.map_cons, hgy, hgys]

/-- Each element of a list has one of a list related to it. -/
theorem forall₂_mem {α β : Type} {R : α → β → Prop} {xs : List α} {ys : List β}
    (h : List.Forall₂ R xs ys) : ∀ x ∈ xs, ∃ y ∈ ys, R x y := by
  induction h with
  | nil => rintro _ ⟨⟩
  | @cons x y xs ys hfirst _ ih =>
      refine List.forall_mem_cons.mpr ⟨⟨y, List.mem_cons_self, hfirst⟩, ?_⟩
      intro x' hx'
      obtain ⟨y', hy', hR⟩ := ih x' hx'
      exact ⟨y', List.mem_cons_of_mem y hy', hR⟩

/-- What holds of all the results of a pass is what holds of the result of each element. -/
theorem forall_gives_mapM {f : α → ExceptT ε (Except π) β} {xs : List α} {ys : List β}
    {P : β → Prop} (h : Gives (xs.mapM f) ys) :
    (∀ y ∈ ys, P y) ↔ ∀ x ∈ xs, ∀ y, Gives (f x) y → P y := by
  induction gives_mapM.mp h with
  | nil => exact iff_of_true (by rintro _ ⟨⟩) (by rintro _ ⟨⟩)
  | @cons x y _ _ hfirst _ ih =>
      rw [List.forall_mem_cons, List.forall_mem_cons]
      refine and_congr ?_ (ih (gives_mapM.mpr ‹_›))
      constructor
      · intro hP y' hy'
        rwa [hy'.unique hfirst]
      · intro hP
        exact hP y hfirst

/-! ## Calls that come back -/

/-- The call comes back, with a result or with a refusal. -/
def Settles (p : ExceptT ε (Except π) α) : Prop := ∀ panic, p.run ≠ .error panic

theorem Gives.settles {p : ExceptT ε (Except π) α} {a : α} (h : Gives p a) : Settles p := by
  intro panic hpanic
  cases h.symm.trans hpanic

theorem settles_pure {a : α} : Settles (pure a : ExceptT ε (Except π) α) := by
  rintro _ ⟨⟩

theorem settles_throw {e : ε} : Settles (throw e : ExceptT ε (Except π) α) := by
  rintro _ ⟨⟩

theorem not_settles_panicWith {panic : π} :
    ¬ Settles (panicWith panic : ExceptT ε (Except π) α) := by
  intro h
  exact h panic rfl

theorem settles_bind {p : ExceptT ε (Except π) α} {f : α → ExceptT ε (Except π) β} :
    Settles (p >>= f) ↔ Settles p ∧ ∀ a, Gives p a → Settles (f a) := by
  have hbind : (p >>= f).run = ExceptT.bindCont f =<< p.run := rfl
  constructor
  · intro h
    constructor
    · intro panic hp
      refine h panic ?_
      rw [hbind, hp]
      rfl
    · intro a ha panic hf
      refine h panic ?_
      rw [hbind, show p.run = .ok (.ok a) from ha]
      exact hf
  · rintro ⟨hp, hf⟩ panic
    rw [hbind]
    match hrun : p.run with
    | .error q => exact absurd hrun (hp q)
    | .ok (.error e) => rintro ⟨⟩
    | .ok (.ok a) => exact hf a hrun panic

theorem settles_okOr {x : Option α} {e : ε} : Settles (okOr x e : ExceptT ε (Except π) α) := by
  cases x with
  | none => exact settles_throw
  | some a => exact settles_pure

theorem settles_mapErr {x : Except δ α} {f : δ → ε} :
    Settles (mapErr x f : ExceptT ε (Except π) α) := by
  rintro _ ⟨⟩

theorem settles_expect {x : Option α} {panic : π} :
    Settles (expect x panic : ExceptT ε (Except π) α) ↔ ∃ a, x = some a := by
  cases x with
  | none => exact iff_of_false not_settles_panicWith (by rintro ⟨_, ⟨⟩⟩)
  | some a => exact iff_of_true settles_pure ⟨a, rfl⟩

theorem settles_mapM {f : α → ExceptT ε (Except π) β} {xs : List α} (h : ∀ x, Settles (f x)) :
    Settles (xs.mapM f) := by
  induction xs with
  | nil => exact settles_pure
  | cons x xs ih =>
      rw [List.mapM_cons]
      simp only [settles_bind]
      exact ⟨h x, fun _ _ => ⟨ih, fun _ _ => settles_pure⟩⟩

/-- A stage of a call: whether what it asks for is answered, and whether it can go on with the
answer.  The call is refused at a stage that is not answered, and panics at an unfit answer. -/
structure Stage where
  answered : Prop
  fit : Prop

/-- Of the stages that are come to, none has an unfit answer. -/
def Unbroken : List Stage → Prop
  | [] => True
  | stage :: rest => stage.answered → stage.fit ∧ Unbroken rest

def AllPass (stages : List Stage) : Prop := ∀ stage ∈ stages, stage.answered ∧ stage.fit

theorem unbroken_append {stages rest : List Stage} :
    Unbroken (stages ++ rest) ↔ Unbroken stages ∧ (AllPass stages → Unbroken rest) := by
  induction stages with
  | nil => exact ⟨fun h => ⟨trivial, fun _ => h⟩, fun h => h.2 (by rintro _ ⟨⟩)⟩
  | cons stage stages ih =>
      rw [AllPass, List.forall_mem_cons, List.cons_append, Unbroken, Unbroken, ih, AllPass]
      tauto

/-- Where every stage is answered, every answer has to be fit. -/
theorem unbroken_answered_append {xs : List α} {fit : α → Prop} {rest : List Stage} :
    Unbroken ((xs.map fun x => ⟨True, fit x⟩) ++ rest) ↔ (∀ x ∈ xs, fit x) ∧ Unbroken rest := by
  induction xs with
  | nil => exact ⟨fun h => ⟨by rintro _ ⟨⟩, h⟩, fun h => h.2⟩
  | cons x xs ih =>
      rw [List.map_cons, List.cons_append, Unbroken, ih, List.forall_mem_cons, forall_const,
        and_assoc]

/-- The call takes these stages, in this order, and none but these. -/
structure Takes (p : ExceptT ε (Except π) α) (stages : List Stage) : Prop where
  settles : Settles p ↔ Unbroken stages
  gives : (∃ a, Gives p a) ↔ AllPass stages

theorem takes_pure {a : α} : Takes (pure a : ExceptT ε (Except π) α) [] :=
  ⟨iff_of_true settles_pure trivial, iff_of_true ⟨a, gives_pure.mpr rfl⟩ (by rintro _ ⟨⟩)⟩

section
variable {p : ExceptT ε (Except π) α} {f : α → ExceptT ε (Except π) β} {stages rest : List Stage}

theorem Takes.settles_bind (h : Takes p stages)
    (hf : ∀ a, Gives p a → (Settles (f a) ↔ Unbroken rest)) :
    Settles (p >>= f) ↔ Unbroken (stages ++ rest) := by
  rw [RpcResult.settles_bind, unbroken_append, h.settles, ← h.gives]
  refine and_congr_right fun _ => ?_
  constructor
  · rintro hsettles ⟨a, ha⟩
    exact (hf a ha).mp (hsettles a ha)
  · intro hrest a ha
    exact (hf a ha).mpr (hrest ⟨a, ha⟩)

/-- After the last stage the call cannot panic any more. -/
theorem Takes.settles_last (h : Takes p stages) (hf : ∀ a, Gives p a → Settles (f a)) :
    Settles (p >>= f) ↔ Unbroken stages := by
  have hbind : Settles (p >>= f) ↔ Unbroken (stages ++ []) :=
    h.settles_bind fun a ha => iff_of_true (hf a ha) trivial
  rwa [List.append_nil] at hbind

theorem Takes.bind (h : Takes p stages) (hf : ∀ a, Gives p a → Takes (f a) rest) :
    Takes (p >>= f) (stages ++ rest) := by
  refine ⟨h.settles_bind fun a ha => (hf a ha).settles, ?_⟩
  have hall : AllPass (stages ++ rest) ↔ AllPass stages ∧ AllPass rest := List.forall_mem_append
  rw [hall, ← h.gives]
  simp only [gives_bind]
  constructor
  · rintro ⟨b, a, ha, hb⟩
    exact ⟨⟨a, ha⟩, (hf a ha).gives.mp ⟨b, hb⟩⟩
  · rintro ⟨⟨a, ha⟩, hrest⟩
    obtain ⟨b, hb⟩ := (hf a ha).gives.mpr hrest
    exact ⟨b, a, ha, hb⟩

/-- What is looked at next belongs to the answer before it. -/
theorem Takes.merge {asked fit also : Prop} (h : Takes p [⟨asked, fit⟩, ⟨True, also⟩]) :
    Takes p [⟨asked, fit ∧ also⟩] := by
  refine ⟨h.settles.trans ?_, h.gives.trans ?_⟩
  · simp only [Unbroken, and_true, forall_const]
  · simp only [AllPass, List.forall_mem_cons, true_and, and_assoc]

theorem Takes.map {f : α → β} (h : Takes p stages) : Takes (f <$> p) stages := by
  have hbind : Takes (p >>= fun a => pure (f a)) (stages ++ []) := h.bind fun _ _ => takes_pure
  rwa [List.append_nil, ← map_eq_pure_bind] at hbind

/-- A stage at which nothing is asked for. -/
theorem takes_of_fit {fit : Prop} (hsettles : Settles p ↔ fit) (hgives : (∃ a, Gives p a) ↔ fit) :
    Takes p [⟨True, fit⟩] := by
  refine ⟨hsettles.trans ?_, hgives.trans ?_⟩
  · rw [Unbroken, Unbroken, and_true, forall_const]
  · rw [AllPass, List.forall_mem_singleton, true_and]

theorem takes_panicWith {panic : π} {fit : Prop} (h : ¬ fit) :
    Takes (panicWith panic : ExceptT ε (Except π) α) [⟨True, fit⟩] := by
  refine takes_of_fit (iff_of_false not_settles_panicWith h) (iff_of_false ?_ h)
  rintro ⟨_, hgives⟩
  exact not_gives_panicWith hgives

theorem takes_expect {x : Option α} {panic : π} :
    Takes (expect x panic : ExceptT ε (Except π) α) [⟨True, ∃ a, x = some a⟩] := by
  refine takes_of_fit settles_expect ?_
  simp only [gives_expect]

/-- What is read is asked for, and looked at next. -/
theorem takes_read {x : Except δ σ} {g : δ → ε} {f : σ → ExceptT ε (Except π) β} {fit : Prop}
    (h : ∀ a, x = .ok a → Takes (f a) [⟨True, fit⟩]) :
    Takes (mapErr x g >>= f) [⟨∃ a, x = .ok a, fit⟩] := by
  have hread : Takes (mapErr x g : ExceptT ε (Except π) σ) [⟨∃ a, x = .ok a, True⟩] := by
    constructor
    · exact iff_of_true settles_mapErr (fun _ => ⟨trivial, trivial⟩)
    · simp only [gives_mapErr, AllPass, List.forall_mem_singleton, and_true]
  have hmerged := (hread.bind fun a ha => h a (gives_mapErr.mp ha)).merge
  rwa [true_and] at hmerged

theorem takes_mapM {stage : α → Stage} {xs : List α} (h : ∀ x, Takes (f x) [stage x]) :
    Takes (xs.mapM f) (xs.map stage) := by
  induction xs with
  | nil => exact takes_pure
  | cons x xs ih =>
      rw [List.mapM_cons]
      refine (h x).bind fun y _ => ?_
      rw [← map_eq_pure_bind]
      exact ih.map

end

end RpcResult

end Zallet
