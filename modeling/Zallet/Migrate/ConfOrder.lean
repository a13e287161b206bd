/-
# `Zallet.Migrate.ConfOrder` — the order of the options in a `zcash.conf`

What a line does to the migration does not depend on the lines before it, only
whether it may do it does.  A line that sets a field claims its option, and its
target if it has one, and it is refused if that is claimed already.  So a run
comes to an end exactly if each line has an effect and no two effects claim the
same (`runLines_ok_iff`), which is symmetric, and what it comes to is the effects
one after the other.

Two effects on different fields commute.  On the same field there are several
only if they are of a multi-valued option, because the others would claim the
same (`not_apart`).  This is where the list of actions comes in (`Action.Fits`).
-/
import Zallet.Data.Reorder
import Zallet.Migrate.ZcashConf

namespace Zallet.ZcashConf

/-! ## Effects -/

/-- What a line does to the migration. -/
structure Effect where
  /-- the option that may not come again, and its target -/
  claim : Option (String × Option String)
  put : Option ((field : Field) × field.Value)
  warnings : List Message

def Effect.nothing : Effect := ⟨none, none, []⟩

/-- The effects that one file can have both of. -/
def Effect.Apart (e e' : Effect) : Prop :=
  ∀ c ∈ e.claim, ∀ c' ∈ e'.claim, c.1 ≠ c'.1 ∧ ∀ t ∈ c.2, t ∉ c'.2

def Effect.Free (e : Effect) (s : Migration) : Prop :=
  ∀ c ∈ e.claim, c.1 ∉ s.observed ∧ ∀ t ∈ c.2, ∀ p ∈ s.related, p.1 ≠ t

/-- Set a field, if there is one to set. -/
def ZalletConfig.apply (config : ZalletConfig) (put : (field : Field) × field.Value) :
    ZalletConfig := config.put put.1 put.2

def Migration.add (s : Migration) (e : Effect) : Migration where
  config := e.put.toList.foldl ZalletConfig.apply s.config
  observed := e.claim.toList.map Prod.fst ++ s.observed
  related := (e.claim.toList.flatMap fun c => c.2.toList.map (·, c.1)) ++ s.related
  warnings := s.warnings ++ e.warnings

section
variable {lib : ConfLib} {conf option value : String} {s s' : Migration} {e e' : Effect}

theorem Effect.Apart.symm (h : e.Apart e') : e'.Apart e := by
  intro c' hc' c hc
  obtain ⟨hoption, htarget⟩ := h c hc c' hc'
  exact ⟨hoption.symm, fun t ht ht' => htarget t ht' ht⟩

@[simp] theorem add_nothing : s.add .nothing = s := by
  simp [Migration.add, Effect.nothing]

@[simp] theorem free_nothing : Effect.Free .nothing s := by
  intro c hc
  cases hc

@[simp] theorem free_start : e.Free .start := by
  intro c hc
  exact ⟨List.not_mem_nil, fun _ _ _ hp => absurd hp List.not_mem_nil⟩

theorem mem_add_observed {o : String} :
    o ∈ (s.add e).observed ↔ (∃ c ∈ e.claim, c.1 = o) ∨ o ∈ s.observed := by
  simp [Migration.add]

theorem mem_add_related {p : String × String} :
    p ∈ (s.add e).related ↔ (∃ c ∈ e.claim, ∃ t ∈ c.2, (t, c.1) = p) ∨ p ∈ s.related := by
  simp [Migration.add]

/-- After an effect those are free that were, and are apart from it. -/
theorem free_add : e'.Free (s.add e) ↔ e'.Free s ∧ e.Apart e' := by
  constructor
  · intro h
    constructor
    · intro c' hc'
      obtain ⟨hobserved, hrelated⟩ := h c' hc'
      refine ⟨fun ho => hobserved (mem_add_observed.mpr (.inr ho)), ?_⟩
      intro t ht p hp
      exact hrelated t ht p (mem_add_related.mpr (.inr hp))
    · intro c hc c' hc'
      obtain ⟨hobserved, hrelated⟩ := h c' hc'
      refine ⟨fun ho => hobserved (mem_add_observed.mpr (.inl ⟨c, hc, ho⟩)), ?_⟩
      intro t ht ht'
      exact hrelated t ht' (t, c.1) (mem_add_related.mpr (.inl ⟨c, hc, t, ht, rfl⟩)) rfl
  · rintro ⟨hfree, hapart⟩ c' hc'
    obtain ⟨hobserved, hrelated⟩ := hfree c' hc'
    constructor
    · intro ho
      obtain ⟨c, hc, heq⟩ | ho := mem_add_observed.mp ho
      · exact (hapart c hc c' hc').1 heq
      · exact hobserved ho
    · intro t ht p hp hpt
      obtain ⟨c, hc, t', ht', rfl⟩ | hp := mem_add_related.mp hp
      · have heq : t' = t := hpt
        exact (hapart c hc c' hc').2 t' ht' (heq ▸ ht)
      · exact hrelated t ht p hp hpt

/-- The effect of an option and its value. -/
def effect (lib : ConfLib) (option value : String) : Option Effect :=
  match actionOf lib option with
  | some (.mapTo field f target) =>
      (f value).map fun v => ⟨some (option, target), v.map (⟨field, ·⟩), []⟩
  | some (.mapMulti field f) => (f value).map fun v => ⟨none, some ⟨field, v⟩, []⟩
  | some .ignore => some .nothing
  | some (.warn f) => some ⟨none, none, (f value).toList⟩
  | none => none

theorem mapTo_free {target : Option String} (put : Option ((field : Field) × field.Value)) :
    Effect.Free ⟨some (option, target), put, []⟩ s ↔
      option ∉ s.observed ∧ (target.bind fun target => s.related.lookup target) = none := by
  cases target with
  | none => simp [Effect.Free]
  | some target =>
      rw [Option.bind_some, List.lookup_eq_none_iff]
      simp [Effect.Free, @eq_comm _ target]

theorem add_mapTo {target : Option String} {field : Field} (v : Option field.Value) :
    s.add ⟨some (option, target), v.map (⟨field, ·⟩), []⟩ =
      { s with
        config := s.config.putSome field v
        observed := option :: s.observed
        related := target.toList.map (·, option) ++ s.related } := by
  cases v with
  | none => simp [Migration.add, ZalletConfig.putSome]
  | some v => simp [Migration.add, ZalletConfig.putSome, ZalletConfig.apply]

/-- An action is taken exactly if it has an effect that is free. -/
theorem act_ok_iff :
    act lib conf s option value = .ok s' ↔
      ∃ e, effect lib option value = some e ∧ e.Free s ∧ s' = s.add e := by
  rw [act, effect]
  cases hact : actionOf lib option with
  | none => simp
  | some action =>
      cases action with
      | mapTo field f target =>
          cases hv : f value with
          | none =>
              simp only [hv, Option.map_none, reduceCtorEq, false_and, exists_false, iff_false]
              intro h
              split at h
              · cases h
              · split at h
                · cases h
                · cases h
          | some v =>
              simp only [hv, Option.map_some, Option.some.injEq, exists_eq_left', mapTo_free,
                add_mapTo]
              cases hrelated : target.bind fun target => s.related.lookup target with
              | some prev => simp
              | none =>
                  by_cases hobserved : option ∈ s.observed
                  · simp [hobserved]
                  · simp [hobserved, eq_comm]
      | mapMulti field f =>
          cases hv : f value with
          | none => simp [hv]
          | some v => simp [hv, Effect.Free, Migration.add, ZalletConfig.apply, eq_comm]
      | ignore => simp [eq_comm]
      | warn f => simp [Effect.Free, Migration.add, eq_comm]

end

/-! ## Runs -/

/-- The effect of a line, `none` if the migration always fails at it. -/
def lineEffect (lib : ConfLib) : Option (List Char) → Option Effect
  | none => none
  | some line =>
      match parseLine line with
      | .skip => some .nothing
      | .invalid => none
      | .pair option value => effect lib (String.ofList option) (String.ofList value)

/-- The effects of the lines that have one. -/
def effects (lib : ConfLib) (lines : List (Option (List Char))) : List Effect :=
  lines.filterMap (lineEffect lib)

section
variable {lib : ConfLib} {conf : String} {s s' : Migration}
  {line : Option (List Char)} {lines : List (Option (List Char))}

theorem runLines_cons_ok :
    (runLines lib conf parseLine s (line :: lines)).2 = .ok s' ↔
      ∃ e, lineEffect lib line = some e ∧ e.Free s ∧
        (runLines lib conf parseLine (s.add e) lines).2 = .ok s' := by
  cases line with
  | none => simp [lineEffect]
  | some line =>
      rw [lineEffect]
      cases hparse : parseLine line with
      | skip => simp [runLines_skip hparse]
      | invalid => simp [runLines_invalid hparse]
      | pair option value =>
          cases hact : act lib conf s (String.ofList option) (String.ofList value) with
          | error e =>
              rw [runLines_pair_error hparse hact]
              constructor
              · intro h
                cases h
              · rintro ⟨e', he, hfree, -⟩
                rw [act_ok_iff.mpr ⟨e', he, hfree, rfl⟩] at hact
                cases hact
          | ok s₁ =>
              rw [runLines_pair_ok hparse hact]
              obtain ⟨e, he, hfree, rfl⟩ := act_ok_iff.mp hact
              constructor
              · intro h
                exact ⟨e, he, hfree, h⟩
              · rintro ⟨e', he', -, h⟩
                cases he.symm.trans he'
                exact h

/-- A run comes to an end if each line has an effect and the effects are free and apart, and it
comes to the effects one after the other. -/
theorem runLines_ok_iff :
    (runLines lib conf parseLine s lines).2 = .ok s' ↔
      (∀ line ∈ lines, (lineEffect lib line).isSome) ∧ (∀ e ∈ effects lib lines, e.Free s) ∧
        (effects lib lines).Pairwise Effect.Apart ∧
        s' = (effects lib lines).foldl Migration.add s := by
  induction lines generalizing s with
  | nil =>
      rw [runLines_nil]
      constructor
      · intro h
        cases h
        exact ⟨fun _ h => absurd h List.not_mem_nil, fun _ h => absurd h List.not_mem_nil, .nil,
          rfl⟩
      · rintro ⟨-, -, -, rfl⟩
        rfl
  | cons line lines ih =>
      rw [runLines_cons_ok, List.forall_mem_cons]
      cases he : lineEffect lib line with
      | none => simp
      | some e =>
          have heffects : effects lib (line :: lines) = e :: effects lib lines :=
            List.filterMap_cons_some he
          rw [heffects, List.forall_mem_cons, List.pairwise_cons, List.foldl_cons]
          constructor
          · rintro ⟨e', he', hfree, hrun⟩
            cases he'
            obtain ⟨hsome, hrest, hapart, hs'⟩ := ih.mp hrun
            refine ⟨⟨rfl, hsome⟩, ⟨hfree, ?_⟩, ⟨?_, hapart⟩, hs'⟩
            · intro e' he'
              exact (free_add.mp (hrest e' he')).1
            · intro e' he'
              exact (free_add.mp (hrest e' he')).2
          · rintro ⟨⟨-, hsome⟩, ⟨hfree, hrest⟩, ⟨hfirst, hapart⟩, hs'⟩
            refine ⟨e, rfl, hfree, ih.mpr ⟨hsome, ?_, hapart, hs'⟩⟩
            intro e' he'
            exact free_add.mpr ⟨hrest e' he', hfirst e' he'⟩

end

/-! ## What effects come to -/

section
variable {s : Migration} {es es' : List Effect}

/-- The fields that are set, with what they are set to. -/
def puts (es : List Effect) : List ((field : Field) × field.Value) := es.filterMap Effect.put

theorem foldl_add_config :
    (es.foldl Migration.add s).config = (puts es).foldl ZalletConfig.apply s.config := by
  induction es generalizing s with
  | nil => rfl
  | cons e es ih =>
      rw [List.foldl_cons, ih]
      cases hput : e.put with
      | none => simp [puts, Migration.add, hput]
      | some put => simp [puts, Migration.add, hput]

theorem foldl_add_warnings :
    (es.foldl Migration.add s).warnings = s.warnings ++ es.flatMap Effect.warnings := by
  induction es generalizing s with
  | nil => simp
  | cons e es ih =>
      rw [List.foldl_cons, ih, List.flatMap_cons, ← List.append_assoc]
      rfl

/-- Over another order, with the puts on each field in the same order, the effects come to the
same configuration and the same warnings. -/
theorem foldl_add_sameOrder (hperm : es.Perm es')
    (hputs : ∀ field, (puts es).filter (·.1 = field) = (puts es').filter (·.1 = field)) :
    (es.foldl Migration.add s).config = (es'.foldl Migration.add s).config ∧
      (es.foldl Migration.add s).warnings.Perm (es'.foldl Migration.add s).warnings := by
  constructor
  · rw [foldl_add_config, foldl_add_config]
    refine Reorder.foldl_of_sameOrder Sigma.fst ?_ (hperm.filterMap _) hputs s.config
    intro p q config hne
    exact put_comm config hne p.2 q.2
  · rw [foldl_add_warnings, foldl_add_warnings]
    exact (hperm.flatMap_right _).append_left _

end

/-! ## The fields of the options -/

def multiValued : List String := ["nuparams", "rpcauth", "rpcbind"]

/-- The option that sets a field, if there is one only. -/
def Field.option : Field → Option String
  | .orchardActions => some "orchardactionlimit"
  | .spendZeroconfChange => some "spendzeroconfchange"
  | .txExpiryDelta => some "txexpirydelta"
  | .broadcast => some "walletbroadcast"
  | .notify => some "walletnotify"
  | .exportDir => some "exportdir"
  | .requireBackup => some "walletrequirebackup"
  | .network => none
  | .regtestNuparams => some "nuparams"
  | .auth => some "rpcauth"
  | .bind => some "rpcbind"
  | .timeout => some "rpcservertimeout"

/-- An option that is not multi-valued is the one of its field, or is related to the others. -/
def Action.Fits (option : String) : Action → Prop
  | .mapTo field _ target =>
      field.option = some option ∨ field.option = none ∧ target = some "network"
  | .mapMulti field _ => field.option = some option ∧ option ∈ multiValued
  | .ignore => True
  | .warn _ => True

theorem buildActions_fit (lib : ConfLib) :
    ∀ entry ∈ buildActions lib, entry.2.Fits entry.1 := by
  have hunused : ∀ entry ∈ nodeOptionsUnusedWallet.map Action.ignored,
      entry.2.Fits entry.1 := by
    rw [List.forall_mem_map]
    intro option _
    trivial
  simp only [buildActions, List.forall_mem_append]
  refine ⟨⟨⟨⟨⟨?_, ?_⟩, ?_⟩, ?_⟩, ?_⟩, hunused⟩
  · simp [documentedWalletOptions, Action.Fits, Action.ignored, Action.warned, Action.map,
      Field.option]
  · simp [documentedWalletDebugOptions, Action.Fits, Action.ignored]
  · simp [undocumentedWalletOptions, Action.Fits, Action.ignored]
  · simp [nodeOptionsDirectWallet, Action.Fits, Action.ignored]
  · simp [nodeOptionsIndirectWallet, Action.Fits, Action.ignored, Action.warned, Action.map,
      Action.mapRelated, Action.multi, Field.option, multiValued]

/-- A put is of a multi-valued option, or the effect claims the option. -/
def Effect.Claims (e : Effect) (option : String) (field : Field) : Prop :=
  field.option = some option ∧ option ∈ multiValued ∨
    ∃ target, e.claim = some (option, target) ∧
      (field.option = some option ∨ field.option = none ∧ target = some "network")

section
variable {lib : ConfLib} {option value : String} {e e' : Effect}
  {put put' : (field : Field) × field.Value} {field : Field}
  {line : Option (List Char)} {lines : List (Option (List Char))}

theorem actionOf_fits {action : Action} (h : actionOf lib option = some action) :
    action.Fits option := by
  obtain ⟨before, after, hlist, -⟩ := List.lookup_eq_some_iff.mp h
  have hmem : (option, action) ∈ (buildActions lib).reverse := by
    rw [hlist]
    exact List.mem_append_right _ List.mem_cons_self
  exact buildActions_fit lib _ (List.mem_reverse.mp hmem)

theorem effect_claims (h : effect lib option value = some e) (hput : e.put = some put) :
    e.Claims option put.1 := by
  rw [effect] at h
  cases haction : actionOf lib option with
  | none =>
      rw [haction] at h
      cases h
  | some action =>
      rw [haction] at h
      have hfits := actionOf_fits haction
      cases action with
      | mapTo field f target =>
          obtain ⟨v, -, rfl⟩ := Option.map_eq_some_iff.mp h
          obtain ⟨x, -, rfl⟩ := Option.map_eq_some_iff.mp hput
          exact .inr ⟨target, rfl, hfits⟩
      | mapMulti field f =>
          obtain ⟨v, -, rfl⟩ := Option.map_eq_some_iff.mp h
          cases hput
          exact .inl hfits
      | ignore =>
          cases h
          cases hput
      | warn f =>
          cases h
          cases hput

/-- Effects that are apart put on the same field only for a multi-valued option. -/
theorem multi_of_apart {option' : String} (h : e.Claims option field)
    (h' : e'.Claims option' field) (hapart : e.Apart e') :
    ∃ m ∈ multiValued, field.option = some m := by
  obtain ⟨hfield, hmulti⟩ | ⟨target, hclaim, hown⟩ := h
  · exact ⟨option, hmulti, hfield⟩
  · obtain ⟨hfield, hmulti⟩ | ⟨target', hclaim', hown'⟩ := h'
    · exact ⟨option', hmulti, hfield⟩
    · obtain ⟨hoption, htarget⟩ := hapart _ hclaim _ hclaim'
      obtain hsome | ⟨hnone, rfl⟩ := hown
      · obtain hsome' | ⟨hnone', -⟩ := hown'
        · exact absurd (Option.some.inj (hsome.symm.trans hsome')) hoption
        · cases hsome.symm.trans hnone'
      · obtain hsome' | ⟨-, rfl⟩ := hown'
        · cases hnone.symm.trans hsome'
        · exact absurd rfl (htarget "network" rfl)

/-! ## The order of the lines -/

/-- The line is of an option. -/
def names (option : String) (line : Option (List Char)) : Bool :=
  line.any fun line =>
    match parseLine line with
    | .pair name _ => String.ofList name = option
    | _ => false

/-- The lines that are not empty and not a comment. -/
def optionLines (lines : List (Option (List Char))) : List (Option (List Char)) :=
  lines.filter (·.map parseLine ≠ some .skip)

theorem lineEffect_claims (h : lineEffect lib line = some e) (hput : e.put = some put) :
    ∃ option, names option line = true ∧ e.Claims option put.1 := by
  cases line with
  | none => cases h
  | some line =>
      rw [lineEffect] at h
      cases hparse : parseLine line with
      | skip =>
          rw [hparse] at h
          cases h
          cases hput
      | invalid =>
          rw [hparse] at h
          cases h
      | pair option value =>
          rw [hparse] at h
          refine ⟨String.ofList option, ?_, effect_claims h hput⟩
          simp [names, hparse]

/-- What a line puts on a field. -/
def fieldPut (lib : ConfLib) (field : Field) (line : Option (List Char)) :
    Option ((field : Field) × field.Value) :=
  ((lineEffect lib line).bind Effect.put).filter (·.1 = field)

theorem puts_effects :
    (puts (effects lib lines)).filter (·.1 = field) = lines.filterMap (fieldPut lib field) := by
  rw [puts, effects, List.filterMap_filterMap, List.filter_filterMap]
  rfl

theorem fieldPut_eq_some (h : fieldPut lib field line = some put) :
    ∃ e option, lineEffect lib line = some e ∧ e.put = some put ∧ put.1 = field ∧
      names option line = true ∧ e.Claims option field := by
  obtain ⟨hbind, hfield⟩ := Option.filter_eq_some_iff.mp h
  obtain ⟨e, he, hput⟩ := Option.bind_eq_some_iff.mp hbind
  obtain ⟨option, hnames, hclaims⟩ := lineEffect_claims he hput
  have hfield : put.1 = field := of_decide_eq_true hfield
  exact ⟨e, option, he, hput, hfield, hnames, hfield ▸ hclaims⟩

/-- The field of a multi-valued option is set by the lines of the option alone. -/
theorem fieldPut_filter_names {m : String} (h : field.option = some m) :
    (lines.filter (names m)).filterMap (fieldPut lib field) =
      lines.filterMap (fieldPut lib field) := by
  rw [List.filterMap_filter]
  refine List.filterMap_congr ?_
  intro line _
  cases hput : fieldPut lib field line with
  | none => exact ite_self none
  | some put =>
      obtain ⟨e, option, -, -, -, hnames, hclaims⟩ := fieldPut_eq_some hput
      have hoption : option = m := by
        obtain ⟨hown, -⟩ | ⟨target, -, hown | ⟨hnone, -⟩⟩ := hclaims
        · exact Option.some.inj (hown.symm.trans h)
        · exact Option.some.inj (hown.symm.trans h)
        · cases hnone.symm.trans h
      exact if_pos (hoption ▸ hnames)

/-- Of effects that are apart one at most puts on a field that is not of a multi-valued option. -/
theorem fieldPut_single (hfield : ¬ ∃ m ∈ multiValued, field.option = some m)
    (hapart : (effects lib lines).Pairwise Effect.Apart) :
    (lines.filterMap (fieldPut lib field)).Pairwise fun _ _ => False := by
  rw [List.pairwise_filterMap]
  refine (List.pairwise_filterMap.mp hapart).imp ?_
  intro line line' hlines put hput put' hput'
  obtain ⟨e, option, he, -, -, -, hclaims⟩ := fieldPut_eq_some hput
  obtain ⟨e', option', he', -, -, -, hclaims'⟩ := fieldPut_eq_some hput'
  exact hfield (multi_of_apart hclaims hclaims' (hlines e he e' he'))

end

/-- Two files with the same option lines, those of each multi-valued option in the same order. -/
structure SameOptions (lines lines' : List (Option (List Char))) : Prop where
  perm : (optionLines lines).Perm (optionLines lines')
  order : ∀ option ∈ multiValued,
    (optionLines lines).filter (names option) = (optionLines lines').filter (names option)

/-- Both migrations fail, or both succeed with the same configuration and the same warnings, in
some order. -/
def SameOutcome : Except ConfError Migrated → Except ConfError Migrated → Prop
  | .ok m, .ok m' => m.config = m'.config ∧ m.warnings.Perm m'.warnings
  | .error _, .error _ => True
  | _, _ => False

section
variable {lib : ConfLib} {conf : String} {s s' : Migration}
  {lines lines' : List (Option (List Char))}

theorem SameOptions.symm (h : SameOptions lines lines') : SameOptions lines' lines :=
  ⟨h.perm.symm, fun option hoption => (h.order option hoption).symm⟩

theorem runLines_optionLines :
    (runLines lib conf parseLine s (optionLines lines)).2 =
      (runLines lib conf parseLine s lines).2 := by
  induction s, lines using turns_induction lib conf parseLine with
  | ended => rfl
  | unreadable => rfl
  | skip hparse ih =>
      rw [optionLines, List.filter_cons, if_neg (by simp [hparse]), runLines_skip hparse]
      exact ih
  | invalid hparse =>
      rw [optionLines, List.filter_cons, if_pos (by simp [hparse]), runLines_invalid hparse,
        runLines_invalid hparse]
  | refused hparse hact =>
      rw [optionLines, List.filter_cons, if_pos (by simp [hparse]),
        runLines_pair_error hparse hact, runLines_pair_error hparse hact]
  | acted hparse hact ih =>
      rw [optionLines, List.filter_cons, if_pos (by simp [hparse]),
        runLines_pair_ok hparse hact, runLines_pair_ok hparse hact]
      exact ih

/-- The run over one of two files with the same options comes to an end if the other does. -/
theorem runLines_sameOptions (conf' : String) (h : SameOptions lines lines')
    (hrun : (runLines lib conf parseLine .start lines).2 = .ok s) :
    ∃ s', (runLines lib conf' parseLine .start lines').2 = .ok s' ∧ s.config = s'.config ∧
      s.warnings.Perm s'.warnings := by
  rw [← runLines_optionLines] at hrun
  obtain ⟨hsome, -, hapart, rfl⟩ := runLines_ok_iff.mp hrun
  have hperm : (effects lib (optionLines lines)).Perm (effects lib (optionLines lines')) :=
    h.perm.filterMap _
  refine ⟨(effects lib (optionLines lines')).foldl Migration.add .start, ?_, ?_⟩
  · rw [← runLines_optionLines]
    refine runLines_ok_iff.mpr ⟨?_, fun _ _ => free_start, ?_, rfl⟩
    · intro line hline
      exact hsome line (h.perm.mem_iff.mpr hline)
    · exact (hperm.pairwise_iff Effect.Apart.symm).mp hapart
  · refine foldl_add_sameOrder hperm ?_
    intro field
    rw [puts_effects, puts_effects]
    by_cases hmulti : ∃ m ∈ multiValued, field.option = some m
    · obtain ⟨m, hm, hfield⟩ := hmulti
      rw [← fieldPut_filter_names hfield, h.order m hm, fieldPut_filter_names hfield]
    · exact Reorder.eq_of_perm_of_single (h.perm.filterMap _) (fieldPut_single hmulti hapart)

theorem finish_sameOutcome {cmd cmd' : MigrateZcashConfCmd}
    (hflags : cmd.allowWarnings = cmd'.allowWarnings)
    (halpha : cmd.thisIsAlphaCodeAndYouWillNeedToRedoTheMigrationLater =
      cmd'.thisIsAlphaCodeAndYouWillNeedToRedoTheMigrationLater)
    (hconfig : s.config = s'.config) (hwarnings : s.warnings.Perm s'.warnings) :
    SameOutcome (cmd.finish lib s) (cmd'.finish lib s') := by
  have hnil : s.warnings = [] ↔ s'.warnings = [] := by
    rw [← List.length_eq_zero_iff, ← List.length_eq_zero_iff, hwarnings.length_eq]
  rw [MigrateZcashConfCmd.finish, MigrateZcashConfCmd.finish, hflags, halpha, hconfig]
  simp only [ne_eq, hnil]
  by_cases hwarn : ¬ s'.warnings = [] ∧ (!cmd'.allowWarnings) = true
  · simp only [if_pos hwarn]
    trivial
  · simp only [if_neg hwarn]
    by_cases halpha' : (!cmd'.thisIsAlphaCodeAndYouWillNeedToRedoTheMigrationLater) = true
    · simp only [if_pos halpha']
      trivial
    · simp only [if_neg halpha']
      cases htoml : lib.toToml s'.config with
      | error e => trivial
      | ok configToml => exact ⟨rfl, hwarnings⟩

end

/-- What a migration comes to does not depend on the order of the options. -/
theorem run_sameOutcome (lib : ConfLib) (conf conf' : String) (allowWarnings alpha : Bool)
    (content content' : List UInt8) (h : SameOptions (fileLines content) (fileLines content')) :
    SameOutcome (MigrateZcashConfCmd.run ⟨conf, allowWarnings, alpha⟩ lib content)
      (MigrateZcashConfCmd.run ⟨conf', allowWarnings, alpha⟩ lib content') := by
  rw [MigrateZcashConfCmd.run, MigrateZcashConfCmd.run]
  cases hrun : (runLines lib conf parseLine .start (fileLines content)).2 with
  | ok s =>
      obtain ⟨s', hrun', hconfig, hwarnings⟩ := runLines_sameOptions conf' h hrun
      rw [hrun']
      exact finish_sameOutcome rfl rfl hconfig hwarnings
  | error e =>
      cases hrun' : (runLines lib conf' parseLine .start (fileLines content')).2 with
      | ok s' =>
          obtain ⟨s, hrun'', -⟩ := runLines_sameOptions conf h.symm hrun'
          cases hrun.symm.trans hrun''
      | error e' => trivial

/-! ### Two files -/

theorem run_sameOutcome_swapped :
    let lib : ConfLib := ⟨fun _ => true, fun s => some ⟨s⟩, fun _ => .ok ""⟩
    let content := Text.utf8 "testnet=1\nrpcauth=a:b\n#\nrpcport=1"
    let content' := Text.utf8 "rpcport=1\nrpcauth=a:b\ntestnet=1\n"
    fileLines content ≠ fileLines content' ∧
      SameOutcome (MigrateZcashConfCmd.run ⟨"a", true, true⟩ lib content)
        (MigrateZcashConfCmd.run ⟨"b", true, true⟩ lib content') := by
  intro lib content content'
  have hne : fileLines content ≠ fileLines content' := by decide
  have hsame : SameOptions (fileLines content) (fileLines content') := ⟨by decide, by decide⟩
  exact ⟨hne, run_sameOutcome lib "a" "b" true true content content' hsame⟩

end Zallet.ZcashConf
