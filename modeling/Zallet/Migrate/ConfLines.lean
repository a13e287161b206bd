/-
# `Zallet.Migrate.ConfLines` — which lines of a `zcash.conf` are read as they are meant

The loop of the migration says that it parses the file format of
Boost.Program_options.  In that format a comment and the blanks around a line
are dropped before anything else is decided, and the blanks around a name and
around a value are dropped too (`refLine`).  The loop decides first: a line is a
comment if `#` is its first character, the name is all that stands before the
first `=`, and of the value only the end is trimmed.

The two runs agree on the pairs they act on, and on the line they fail at,
exactly if each line that the format reads is in one of the four forms of
`Plain` (`reads_iff`).  Every other line is read in a way in which the format
reads no line at all, and so what comes after it does not matter.
-/
import Zallet.Migrate.ZcashConf

namespace Zallet.ZcashConf

open Text (splitOnce trim trimEnd CleanStart CleanEnd)

/-! ## The format -/

def beforeComment (line : List Char) : List Char := line.takeWhile (· ≠ '#')

/-- A line by the format of Boost.Program_options. -/
def refLine (line : List Char) : Parsed :=
  let text := trim isWhitespace (beforeComment line)
  if text = [] then .skip
  else
    match splitOnce '=' text with
    | none => .invalid
    | some (name, value) => .pair (trim isWhitespace name) (trim isWhitespace value)

/-- The forms of a line for which it does not matter when blanks and comments are dropped. -/
inductive Plain : List Char → Prop
  | empty : Plain []
  | comment {rest : List Char} : Plain ('#' :: rest)
  | noEquals {line : List Char} (hline : '=' ∉ line)
      (htext : trim isWhitespace (beforeComment line) ≠ []) : Plain line
  | pair {option rest : List Char} (hequals : '=' ∉ option) (hcomment : '#' ∉ option)
      (hstart : CleanStart isWhitespace option) (hend : CleanEnd isWhitespace option)
      (hvalue : CleanStart isWhitespace (trimEnd isWhitespace (beforeComment rest))) :
      Plain (option ++ '=' :: rest)

section
variable {line l r option value rest : List Char}

theorem beforeComment_append (h : '#' ∉ l) :
    beforeComment (l ++ r) = l ++ beforeComment r := by
  refine List.takeWhile_append_of_pos ?_
  intro c hc
  exact decide_eq_true fun heq => h (heq ▸ hc)

theorem beforeComment_of_not_mem (h : '#' ∉ l) : beforeComment l = l := by
  have hnil := beforeComment_append (r := []) h
  rwa [List.append_nil, show beforeComment [] = [] from rfl, List.append_nil] at hnil

theorem not_mem_beforeComment : '#' ∉ beforeComment line := by
  intro h
  have hne := List.mem_takeWhile_imp h
  exact of_decide_eq_true hne rfl

/-- What a line is read as. -/
theorem parseLine_cases (line : List Char) :
    (parseLine line = .skip ∧ (line = [] ∨ ∃ rest, line = '#' :: rest)) ∨
      (parseLine line = .invalid ∧ '=' ∉ line) ∨
      ∃ option rest, line = option ++ '=' :: rest ∧ '=' ∉ option ∧
        parseLine line = .pair option (trimEnd isWhitespace (beforeComment rest)) := by
  rw [parseLine]
  split
  case isTrue h =>
    refine .inl ⟨rfl, h.imp_right ?_⟩
    intro hhead
    cases line with
    | nil => cases hhead
    | cons c rest => exact ⟨rest, by rw [Option.some.inj hhead]⟩
  case isFalse h =>
    right
    cases hsplit : splitOnce '=' line with
    | none => exact .inl ⟨rfl, Text.splitOnce_eq_none.mp hsplit⟩
    | some parts =>
        obtain ⟨option, rest⟩ := parts
        obtain ⟨hline, hoption⟩ := Text.splitOnce_eq_some.mp hsplit
        refine .inr ⟨option, rest, hline, hoption, ?_⟩
        cases hvalue : splitOnce '#' rest with
        | none =>
            rw [beforeComment_of_not_mem (Text.splitOnce_eq_none.mp hvalue)]
            simp only [hvalue]
        | some parts =>
            obtain ⟨value, comment⟩ := parts
            obtain ⟨rfl, hnot⟩ := Text.splitOnce_eq_some.mp hvalue
            rw [beforeComment_append hnot, show beforeComment ('#' :: comment) = [] from rfl,
              List.append_nil]
            simp only [hvalue]

/-- What the format reads a line as. -/
theorem refLine_cases (line : List Char) :
    (refLine line = .skip ∧ trim isWhitespace (beforeComment line) = []) ∨
      (refLine line = .invalid ∧ trim isWhitespace (beforeComment line) ≠ [] ∧
        '=' ∉ trim isWhitespace (beforeComment line)) ∨
      ∃ name value, trim isWhitespace (beforeComment line) = name ++ '=' :: value ∧
        '=' ∉ name ∧ refLine line = .pair (trim isWhitespace name) (trim isWhitespace value) := by
  rw [refLine]
  by_cases h : trim isWhitespace (beforeComment line) = []
  · exact .inl ⟨if_pos h, h⟩
  · right
    rw [if_neg h]
    cases hsplit : splitOnce '=' (trim isWhitespace (beforeComment line)) with
    | none => exact .inl ⟨rfl, h, Text.splitOnce_eq_none.mp hsplit⟩
    | some parts =>
        obtain ⟨name, value⟩ := parts
        obtain ⟨htext, hname⟩ := Text.splitOnce_eq_some.mp hsplit
        exact .inr ⟨name, value, htext, hname, rfl⟩

/-- A name that is trimmed and a value that is trimmed after it make a text that is trimmed. -/
theorem trim_pair (hstart : CleanStart isWhitespace option) :
    trim isWhitespace (option ++ '=' :: value) = option ++ '=' :: trimEnd isWhitespace value := by
  have hequals : isWhitespace '=' = false := rfl
  rw [trim, Text.trimEnd_append_cons hequals]
  cases option with
  | nil => exact List.dropWhile_cons_of_neg (by simp [hequals])
  | cons c option => exact List.dropWhile_cons_of_neg (by simp [hstart c rfl])

/-! ## Lines of the four forms -/

theorem parseLine_pair (hequals : '=' ∉ option) (hcomment : '#' ∉ option) :
    parseLine (option ++ '=' :: rest) =
      .pair option (trimEnd isWhitespace (beforeComment rest)) := by
  obtain ⟨-, hskip⟩ | ⟨-, hnone⟩ | ⟨option', rest', hline, hequals', hparse⟩ :=
    parseLine_cases (option ++ '=' :: rest)
  · obtain hnil | ⟨tail, hhead⟩ := hskip
    · simp at hnil
    · cases option with
      | nil => cases hhead
      | cons c option =>
          rw [List.cons_append] at hhead
          exact absurd (List.mem_cons.mpr (.inl (List.cons.inj hhead).1.symm)) hcomment
  · exact absurd (List.mem_append_right _ List.mem_cons_self) hnone
  · obtain ⟨rfl, rfl⟩ := Text.split_unique hequals hequals' hline
    exact hparse

theorem refLine_pair (hequals : '=' ∉ option) (hcomment : '#' ∉ option)
    (hstart : CleanStart isWhitespace option) :
    refLine (option ++ '=' :: rest) = .pair (trim isWhitespace option)
      (trim isWhitespace (trimEnd isWhitespace (beforeComment rest))) := by
  have htext : trim isWhitespace (beforeComment (option ++ '=' :: rest)) =
      option ++ '=' :: trimEnd isWhitespace (beforeComment rest) := by
    rw [beforeComment_append hcomment, ← trim_pair hstart]
    rfl
  obtain ⟨-, hnil⟩ | ⟨-, -, hnone⟩ | ⟨name, value, heq, hname, hread⟩ :=
    refLine_cases (option ++ '=' :: rest)
  · rw [htext] at hnil
    simp at hnil
  · rw [htext] at hnone
    exact absurd (List.mem_append_right _ List.mem_cons_self) hnone
  · rw [htext] at heq
    obtain ⟨rfl, rfl⟩ := Text.split_unique hequals hname heq
    exact hread

/-- A line of one of the forms is read as the format reads it. -/
theorem Plain.reads (h : Plain line) : parseLine line = refLine line := by
  cases h with
  | empty => rfl
  | comment => rfl
  | noEquals hline htext =>
      have hparse : parseLine line = .invalid := by
        obtain ⟨-, rfl | ⟨rest, rfl⟩⟩ | ⟨hparse, -⟩ | ⟨option, rest, rfl, -, -⟩ :=
          parseLine_cases line
        · exact absurd rfl htext
        · exact absurd rfl htext
        · exact hparse
        · exact absurd (List.mem_append_right _ List.mem_cons_self) hline
      obtain ⟨-, hnil⟩ | ⟨hread, -, -⟩ | ⟨name, value, heq, -, -⟩ := refLine_cases line
      · exact absurd hnil htext
      · rw [hparse, hread]
      · have hmem : '=' ∈ trim isWhitespace (beforeComment line) :=
          heq ▸ List.mem_append_right _ List.mem_cons_self
        exact absurd ((List.takeWhile_prefix _).subset (Text.trim_sublist.subset hmem)) hline
  | pair hequals hcomment hstart hend hvalue =>
      rw [parseLine_pair hequals hcomment, refLine_pair hequals hcomment hstart,
        Text.trim_of_clean hstart hend, Text.trim_of_clean hvalue Text.trimEnd_cleanEnd]

/-! ## What the format reads -/

/-- The names and values that the format reads. -/
theorem refLine_clean (h : refLine line = .pair option value) :
    '#' ∉ option ∧ CleanStart isWhitespace option ∧ CleanEnd isWhitespace option ∧
      CleanStart isWhitespace value := by
  obtain ⟨hread, -⟩ | ⟨hread, -, -⟩ | ⟨name, rest, htext, -, hread⟩ := refLine_cases line
  · rw [hread] at h
    cases h
  · rw [hread] at h
    cases h
  · rw [hread] at h
    cases h
    refine ⟨?_, Text.trim_cleanStart, Text.trim_cleanEnd, Text.trim_cleanStart⟩
    intro hmem
    have hname : '#' ∈ trim isWhitespace (beforeComment line) := by
      rw [htext]
      exact List.mem_append_left _ (Text.trim_sublist.subset hmem)
    exact not_mem_beforeComment (Text.trim_sublist.subset hname)

theorem refLine_invalid (h : refLine line = .invalid) :
    trim isWhitespace (beforeComment line) ≠ [] := by
  obtain ⟨hread, -⟩ | ⟨-, htext, -⟩ | ⟨name, rest, -, -, hread⟩ := refLine_cases line
  · rw [hread] at h
    cases h
  · exact htext
  · rw [hread] at h
    cases h

end

/-! ## Runs -/

/-- The option and the value of a line. -/
def Parsed.pair? : Parsed → Option (List Char × List Char)
  | .pair option value => some (option, value)
  | _ => none

abbrev Run : Type := List (List Char × Parsed) × Except ConfError Migration

/-- The options and values that a run acts on. -/
def Run.acted (run : Run) : List (List Char × List Char) := run.1.filterMap (·.2.pair?)

def Run.linesRead (run : Run) : List (List Char) := run.1.map Prod.fst

def Run.FailsAt (run : Run) (conf : String) (line : List Char) : Prop :=
  run.2 = .error (errMigrateInvalidLine (String.ofList line) conf)

/-- Two runs act on the same pairs, and fail at the same line as invalid if they do. -/
structure Run.Agrees (run run' : Run) (conf : String) : Prop where
  acted : run.acted = run'.acted
  fails : ∀ line, run.FailsAt conf line ↔ run'.FailsAt conf line

section
variable {lib : ConfLib} {conf : String} {parse : List Char → Parsed} {s s' : Migration}
  {line : List Char} {lines : List (Option (List Char))}

theorem errMigrateInvalidLine_injective {l l' : List Char}
    (h : errMigrateInvalidLine (String.ofList l) conf =
      errMigrateInvalidLine (String.ofList l') conf) : l = l' := by
  simpa [errMigrateInvalidLine, String.ofList_inj] using h

/-- No action fails as an invalid line does. -/
theorem act_ne_invalidLine (option value text : String) :
    act lib conf s option value ≠ .error (errMigrateInvalidLine text conf) := by
  intro h
  rw [act] at h
  split at h
  · split at h
    · simp [errMigrateInvalidLine, errMigrateMultipleRelatedZcashdOptions] at h
    · split at h
      · simp [errMigrateInvalidLine, errMigrateDuplicateZcashdOption] at h
      · split at h
        · simp [errMigrateInvalidLine, invalidOptionValue] at h
        · cases h
  · split at h
    · simp [errMigrateInvalidLine, invalidOptionValue] at h
    · cases h
  · cases h
  · cases h
  · simp [errMigrateInvalidLine, errMigrateUnknownZcashdOption] at h

/-- The line a run fails at is one that is read as invalid. -/
theorem failsAt_invalid (h : Run.FailsAt (runLines lib conf parse s lines) conf line) :
    parse line = .invalid := by
  induction s, lines using turns_induction lib conf parse with
  | ended => cases h
  | unreadable => cases h
  | skip hparse ih =>
      rw [runLines_skip hparse] at h
      exact ih h
  | invalid hparse =>
      rw [runLines_invalid hparse] at h
      exact errMigrateInvalidLine_injective (Except.error.inj h) ▸ hparse
  | refused hparse hact =>
      rw [runLines_pair_error hparse hact] at h
      have he := Except.error.inj h
      rw [he] at hact
      exact absurd hact (act_ne_invalidLine _ _ _)
  | acted hparse hact ih =>
      rw [runLines_pair_ok hparse hact] at h
      exact ih h

/-- The turns of a run are told by what each line is read as. -/
theorem turn_parsed {turn : List Char × Parsed}
    (h : turn ∈ (runLines lib conf parse s lines).1) : turn.2 = parse turn.1 := by
  induction s, lines using turns_induction lib conf parse with
  | ended => cases h
  | unreadable => cases h
  | skip hparse ih =>
      rw [runLines_skip hparse] at h
      obtain rfl | hrest := List.mem_cons.mp h
      · exact hparse.symm
      · exact ih hrest
  | invalid hparse =>
      rw [runLines_invalid hparse] at h
      rw [List.mem_singleton.mp h]
      exact hparse.symm
  | refused hparse hact =>
      rw [runLines_pair_error hparse hact] at h
      rw [List.mem_singleton.mp h]
      exact hparse.symm
  | acted hparse hact ih =>
      rw [runLines_pair_ok hparse hact] at h
      obtain rfl | hrest := List.mem_cons.mp h
      · exact hparse.symm
      · exact ih hrest

theorem mem_acted {option value : List Char}
    (h : (option, value) ∈ Run.acted (runLines lib conf parse s lines)) :
    ∃ line, parse line = .pair option value := by
  obtain ⟨⟨line, parsed⟩, hturn, hpair⟩ := List.mem_filterMap.mp h
  refine ⟨line, ?_⟩
  rw [← turn_parsed hturn]
  cases parsed with
  | skip => cases hpair
  | invalid => cases hpair
  | pair option' value' =>
      cases hpair
      rfl

/-! ## The runs agree -/

/-- The first line of a run that agrees with the format is of one of the forms. -/
theorem plain_of_agrees
    (h : Run.Agrees (runLines lib conf parseLine s (some line :: lines))
      (runLines lib conf refLine s (some line :: lines)) conf) : Plain line := by
  obtain ⟨-, rfl | ⟨rest, rfl⟩⟩ | ⟨hparse, hequals⟩ | ⟨option, rest, rfl, hequals, hparse⟩ :=
    parseLine_cases line
  · exact .empty
  · exact .comment
  · have hfails : Run.FailsAt (runLines lib conf parseLine s (some line :: lines)) conf line := by
      rw [runLines_invalid hparse]
      rfl
    exact .noEquals hequals (refLine_invalid (failsAt_invalid ((h.fails line).mp hfails)))
  · have hmem : (option, trimEnd isWhitespace (beforeComment rest)) ∈
        Run.acted (runLines lib conf parseLine s (some (option ++ '=' :: rest) :: lines)) := by
      cases hact : act lib conf s (String.ofList option)
          (String.ofList (trimEnd isWhitespace (beforeComment rest))) with
      | error e =>
          rw [runLines_pair_error hparse hact]
          exact List.mem_cons_self
      | ok s' =>
          rw [runLines_pair_ok hparse hact]
          exact List.mem_cons_self
    obtain ⟨line, hread⟩ := mem_acted (h.acted ▸ hmem)
    obtain ⟨hcomment, hstart, hend, hvalue⟩ := refLine_clean hread
    exact .pair hequals hcomment hstart hend hvalue

theorem plain_of_runs_agree
    (h : Run.Agrees (runLines lib conf parseLine s lines)
      (runLines lib conf refLine s lines) conf) :
    ∀ line ∈ Run.linesRead (runLines lib conf refLine s lines), Plain line := by
  induction s, lines using turns_induction lib conf refLine with
  | ended =>
      intro line hline
      cases hline
  | unreadable =>
      intro line hline
      cases hline
  | skip hread ih =>
      have hfirst := plain_of_agrees h
      rw [runLines_skip hread, runLines_skip (hfirst.reads.trans hread)] at h
      rw [runLines_skip hread]
      exact List.forall_mem_cons.mpr ⟨hfirst, ih ⟨h.acted, h.fails⟩⟩
  | invalid hread =>
      have hfirst := plain_of_agrees h
      rw [runLines_invalid hread]
      exact List.forall_mem_singleton.mpr hfirst
  | refused hread hact =>
      have hfirst := plain_of_agrees h
      rw [runLines_pair_error hread hact]
      exact List.forall_mem_singleton.mpr hfirst
  | acted hread hact ih =>
      have hfirst := plain_of_agrees h
      rw [runLines_pair_ok hread hact, runLines_pair_ok (hfirst.reads.trans hread) hact] at h
      rw [runLines_pair_ok hread hact]
      exact List.forall_mem_cons.mpr ⟨hfirst, ih ⟨(List.cons.inj h.acted).2, h.fails⟩⟩

theorem runs_eq_of_plain
    (h : ∀ line ∈ Run.linesRead (runLines lib conf refLine s lines), Plain line) :
    runLines lib conf parseLine s lines = runLines lib conf refLine s lines := by
  induction s, lines using turns_induction lib conf refLine with
  | ended => rfl
  | unreadable => rfl
  | skip hread ih =>
      rw [runLines_skip hread] at h ⊢
      obtain ⟨hfirst, hrest⟩ := List.forall_mem_cons.mp h
      rw [runLines_skip (hfirst.reads.trans hread), ih hrest]
  | invalid hread =>
      rw [runLines_invalid hread] at h ⊢
      obtain ⟨hfirst, -⟩ := List.forall_mem_cons.mp h
      rw [runLines_invalid (hfirst.reads.trans hread)]
  | refused hread hact =>
      rw [runLines_pair_error hread hact] at h ⊢
      obtain ⟨hfirst, -⟩ := List.forall_mem_cons.mp h
      rw [runLines_pair_error (hfirst.reads.trans hread) hact]
  | acted hread hact ih =>
      rw [runLines_pair_ok hread hact] at h ⊢
      obtain ⟨hfirst, hrest⟩ := List.forall_mem_cons.mp h
      rw [runLines_pair_ok (hfirst.reads.trans hread) hact, ih hrest]

end

/-- The migration reads a file as the format does exactly if each line that the format reads is
of one of the forms. -/
theorem reads_iff (lib : ConfLib) (conf : String) (content : List UInt8) :
    Run.Agrees (runLines lib conf parseLine .start (fileLines content))
        (runLines lib conf refLine .start (fileLines content)) conf ↔
      ∀ line ∈ Run.linesRead (runLines lib conf refLine .start (fileLines content)),
        Plain line := by
  constructor
  · exact plain_of_runs_agree
  · intro h
    rw [runs_eq_of_plain h]
    exact ⟨rfl, fun _ => Iff.rfl⟩

/-! ### An indented comment -/

/-- The migration fails at a comment that has a blank before it. -/
theorem indentedComment_fails :
    let content := Text.utf8 " # a\n"
    let lib : ConfLib := ⟨fun _ => true, fun s => some ⟨s⟩, fun _ => .ok ""⟩
    (runLines lib "zcash.conf" parseLine .start (fileLines content)).2 =
        .error (errMigrateInvalidLine " # a" "zcash.conf") ∧
      ¬ Run.Agrees (runLines lib "zcash.conf" parseLine .start (fileLines content))
        (runLines lib "zcash.conf" refLine .start (fileLines content)) "zcash.conf" := by
  have hlines : fileLines (Text.utf8 " # a\n") = [some " # a".toList] := by decide
  have hparse : parseLine " # a".toList = .invalid := by decide
  have href : refLine " # a".toList = .skip := by decide
  intro content lib
  rw [show fileLines content = [some " # a".toList] from hlines, runLines_invalid hparse,
    runLines_skip href]
  refine ⟨rfl, ?_⟩
  intro h
  have hfails := (h.fails " # a".toList).mp rfl
  cases hfails

end Zallet.ZcashConf
