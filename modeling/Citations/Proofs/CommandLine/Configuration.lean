/-
**Configurations that are of no use.**

A configuration is of no use when its file cannot be read, when it does not hold named settings,
when some setting is not acceptable, or when the settings name no Markdown dialect.  In most of
these cases a value is not acceptable: the program says what is wrong and ends with 2.  But a file
that holds something else than named settings, a file that cannot be opened, an exception of another
kind while the file is read, and an unknown dialect are not caught: then the program ends with the
exception, unless there is something else to complain of first.

What reads the text of the file is left open, so that the results hold of whatever a file can hold,
and of whatever exceptions reading it can raise.

Main definitions:

* `Citations.Config.HoldsFields` — whether a file holds named settings;
* `Citations.Config.Unreported` — **why there are no settings, when the user is not told**;
* `Citations.CommandLine.Ending.Reports` — whether the program says what is wrong and ends with 2.

Main results:

* `Citations.Config.isValueError_raised_eq_false_iff` — the user is not told for those reasons only;
* `Citations.CommandLine.Command.ending_of_unusable` — **how a command ends when the configuration
  is of no use**;
* `Citations.CommandLine.Command.not_ending_of_unusable` — the user is not always told.
-/

import Citations.CommandLine

set_option relaxedAutoImplicit false
set_option autoImplicit false

namespace Citations

/-! ### Files without settings -/

namespace Config

variable {read : Reading} {t : FileTree} {env : List (String × String)}
  {options : List (String × Value)} {hasEnvironment hasOptions : Bool} {e : Failure}

/-- Whether a file holds named settings.  What counts as nothing holds none, and that is enough. -/
def HoldsFields : Yaml.Content → Prop
  | .other _ isVoid => isVoid = true
  | .entries es => ∀ e ∈ es, ∃ name, e.1 = .text name

theorem isSome_mapM_field?_iff (es : List (Value × Value)) :
    (es.mapM field?).isSome ↔ ∀ e ∈ es, ∃ name, e.1 = .text name := by
  induction es with
  | nil => simp
  | cons e es ih =>
      have hfirst : (field? e).isSome ↔ ∃ name, e.1 = .text name := by
        obtain ⟨key, v⟩ := e
        cases key <;> simp [field?]
      rw [List.forall_mem_cons, ← ih, ← hfirst, List.mapM_cons]
      cases field? e <;> cases es.mapM field? <;> simp

/-- A file that does not hold named settings yields no fields. -/
theorem exists_fieldsOf_eq_error {content : Yaml.Content} (h : ¬ HoldsFields content)
    (hasEnvironment hasOptions : Bool) :
    ∃ e, fieldsOf hasEnvironment hasOptions content = .error e := by
  cases content with
  | other kind isVoid =>
      cases isVoid with
      | true => exact absurd rfl h
      | false => exact ⟨_, rfl⟩
  | entries es =>
      rw [HoldsFields, ← isSome_mapM_field?_iff, Option.not_isSome_iff_eq_none] at h
      rw [fieldsOf, h]
      exact ⟨_, rfl⟩

/-- Where a file yields no fields, it does not hold named settings, and no value is to blame. -/
theorem of_fieldsOf_eq_error {content : Yaml.Content}
    (h : fieldsOf hasEnvironment hasOptions content = .error e) :
    ¬ HoldsFields content ∧ e.raised.isValueError = false := by
  cases content with
  | other kind isVoid =>
      cases isVoid with
      | true => cases h
      | false =>
          cases h
          exact ⟨Bool.false_ne_true, isValueError_misuse ..⟩
  | entries es =>
      rw [HoldsFields, ← isSome_mapM_field?_iff]
      rw [fieldsOf] at h
      cases hes : es.mapM field? with
      | some fields =>
          rw [hes] at h
          cases h
      | none =>
          rw [hes] at h
          cases h
          exact ⟨by simp, rfl⟩

/-- **Why there are no settings, when the user is not told.** -/
inductive Unreported (read : Reading) (t : FileTree) : Prop where
  /-- The way to the file holds a name that is too long. -/
  | way (hlocate : t.locate fileName = .error .nameTooLong)
  /-- There is something of that name, but it cannot be opened. -/
  | closed {place : Place} {fault : FileTree.Fault} {path name : String}
      (hlocate : t.locate fileName = .ok place)
      (htext : t.readText fileName = .error ⟨path, .fault fault name⟩)
  /-- Reading the file raises an exception that does not blame a value. -/
  | raised {place : Place} {text : String} {e : Raised} (hlocate : t.locate fileName = .ok place)
      (htext : t.readText fileName = .ok text) (hread : read text.toList = .error (.raised e))
      (hkind : e.isValueError = false)
  /-- The file holds something else than named settings. -/
  | content {place : Place} {text : String} {content : Yaml.Content}
      (hlocate : t.locate fileName = .ok place) (htext : t.readText fileName = .ok text)
      (hread : read text.toList = .ok content) (hfields : ¬ HoldsFields content)

/-- The fields of a file that can be read as a text. -/
theorem fileFields_of_readText {place : Place} {text : String}
    (hlocate : t.locate fileName = .ok place) (htext : t.readText fileName = .ok text) :
    fileFields read t hasEnvironment hasOptions =
      match read text.toList with
      | .error refusal => .error (.noContent refusal)
      | .ok content => fieldsOf hasEnvironment hasOptions content := by
  simp only [fileFields, hlocate, htext]
  cases read text.toList <;> rfl

/-- The user is not told why there are no fields for those reasons only. -/
theorem fileFields_unreported_iff (hasEnvironment hasOptions : Bool) :
    (∃ e, fileFields read t hasEnvironment hasOptions = .error e ∧
      e.raised.isValueError = false) ↔ Unreported read t := by
  constructor
  · rintro ⟨e, hfields, he⟩
    cases hlocate : t.locate fileName with
    | error fault =>
        cases fault with
        | nameTooLong => exact .way hlocate
        | _ => simp [fileFields, hlocate] at hfields
    | ok place =>
        cases htext : t.readText fileName with
        | error failure =>
            simp only [fileFields, hlocate, htext, Except.error.injEq] at hfields
            subst hfields
            obtain ⟨path, cause⟩ := failure
            cases cause with
            | fault fault name => exact .closed hlocate htext
            | encoding fault => cases he
        | ok text =>
            rw [fileFields_of_readText hlocate htext] at hfields
            cases hread : read text.toList with
            | error refusal =>
                rw [hread] at hfields
                cases hfields
                cases refusal with
                | malformed => cases he
                | raised e => exact .raised hlocate htext hread he
            | ok content =>
                rw [hread] at hfields
                exact .content hlocate htext hread (of_fieldsOf_eq_error hfields).1
  · rintro (hlocate | ⟨hlocate, htext⟩ | ⟨hlocate, htext, hread, hkind⟩ |
      ⟨hlocate, htext, hread, hfields⟩)
    · exact ⟨_, by rw [fileFields, hlocate], rfl⟩
    · exact ⟨_, by rw [fileFields, hlocate, htext], rfl⟩
    · refine ⟨.noContent (.raised _), ?_, hkind⟩
      rw [fileFields_of_readText hlocate htext, hread]
    · obtain ⟨e, he⟩ := exists_fieldsOf_eq_error hfields hasEnvironment hasOptions
      refine ⟨e, ?_, (of_fieldsOf_eq_error he).2⟩
      rw [fileFields_of_readText hlocate htext, hread]
      exact he

/-- **The user is not told why there are no settings for those reasons only.** -/
theorem isValueError_raised_eq_false_iff (h : loadWith read t env options = .error e) :
    e.raised.isValueError = false ↔ Unreported read t := by
  unfold loadWith at h
  rw [← fileFields_unreported_iff (!(environmentFields env).isEmpty) (!options.isEmpty)]
  cases hfields : fileFields read t (!(environmentFields env).isEmpty) (!options.isEmpty) with
  | error o =>
      rw [hfields] at h
      cases h
      simp
  | ok fields =>
      rw [hfields] at h
      dsimp only at h
      -- settings that are not acceptable are always reported
      split at h
      · cases h
      · cases h
        simp [Failure.raised]

end Config

/-! ### Unknown dialects -/

namespace Workflow

variable {t : FileTree} {settings : Settings} {e : Markdown.Dialect.Error}

/-- There is no session of a dialect that there is not. -/
theorem session_of_dialect (h : Markdown.Dialect.named settings.parserConfig = .error e)
    (scope : Option String) : session t settings scope = .error (.dialect e) := by
  rw [session, h]

theorem outline_of_dialect (h : Markdown.Dialect.named settings.parserConfig = .error e)
    (path : String) : outline t settings path = .error (.dialect e) := by
  rw [outline, h]

end Workflow

namespace CommandLine

/-! ### Ends of the program -/

/-- **Whether the program says what is wrong and ends with 2.** -/
def Ending.Reports (e : Ending) : Prop := ∃ words, e = .exit 2 "" ("Error: " ++ words)

theorem plain_report (code : Nat) (message : String) (cause : Option String) :
    (Ending.report code message cause).plain =
      .exit code "" (Output.withoutSequences (errorText message cause)) := by
  have hempty : Output.withoutSequences "" = "" := Output.withoutSequences_of_plain (by simp)
  rw [Ending.report, Ending.plain, hempty]

theorem reports_plain_report (message : String) (cause : Option String) :
    (Ending.report 2 message cause).plain.Reports := by
  have hwords : Output.escapeCharacter ∉ "Error: ".toList := by decide
  obtain ⟨words, hleft⟩ := Output.exists_withoutSequences_append hwords
    (message ++ "\n" ++ ((cause.map fun c => "  " ++ c ++ "\n").getD ""))
  refine ⟨words, ?_⟩
  rw [plain_report, ← hleft, ← String.append_assoc, ← String.append_assoc]
  rfl

/-! ### Commands without settings -/

namespace Command

variable {read : Config.Reading} {t : FileTree} {env : List (String × String)} {c : Command}

/-- What the program complains of before it looks for settings: the form of output. -/
def formatFailure? : Command → Option Failure
  | .validate _ _ format _ =>
      if format ≠ "text" ∧ format ≠ "json" then some (.unknownFormat format) else none
  | _ => none

/-- What the program complains of before it looks for the document: the range of lines. -/
def linesFailure? : Command → Option Failure
  | .validate _ _ _ lines =>
      match lineRange lines with
      | .error e => some e
      | .ok _ => none
  | _ => none

/-- Whether a command catches exceptions that blame a value. -/
def isGuarded : Command → Bool
  | .extractHeader .. | .extractFile .. => true
  | _ => false

/-- Without settings, a command is not carried out. -/
theorem runWith_of_loadWith {e : Config.Failure}
    (h : Config.loadWith read t env c.options = .error e) :
    c.runWith read t env = .error (c.formatFailure?.getD (.config e)) := by
  have hsettings : c.settings read t env = .error (.config e) := by
    rw [settings, h]
    rfl
  cases c with
  | validate path scope format lines =>
      by_cases hformat : format ≠ "text" ∧ format ≠ "json"
      · simp only [runWith, formatFailure?, if_pos hformat]
        rfl
      · simp only [runWith, formatFailure?, if_neg hformat, hsettings]
        rfl
  | _ =>
      simp only [runWith, hsettings]
      rfl

/-- Without a dialect, a command is not carried out. -/
theorem runWith_of_dialect {s : Settings} {e : Markdown.Dialect.Error}
    (h : Config.loadWith read t env c.options = .ok s)
    (hdialect : Markdown.Dialect.named s.parserConfig = .error e) :
    c.runWith read t env =
      .error ((c.formatFailure?.or c.linesFailure?).getD (.run c.isGuarded (.dialect e))) := by
  have hsettings : c.settings read t env = .ok s := by
    rw [settings, h]
    rfl
  have hsession : Workflow.session t s none = .error (.dialect e) :=
    Workflow.session_of_dialect hdialect none
  cases c with
  | validate path scope format lines =>
      by_cases hformat : format ≠ "text" ∧ format ≠ "json"
      · simp only [runWith, formatFailure?, if_pos hformat]
        rfl
      · have hrun : Workflow.validate t s none path = .error (.dialect e) := by
          rw [Workflow.validate, hsession]
          rfl
        simp only [runWith, formatFailure?, if_neg hformat, hsettings, linesFailure?, bind,
          Except.bind, hrun]
        cases lineRange lines <;> rfl
  | outline path =>
      have hrun : Workflow.outline t s path = .error (.dialect e) :=
        Workflow.outline_of_dialect hdialect path
      simp only [runWith, hsettings, bind, Except.bind, hrun]
      rfl
  | extractLinks path scope fullFiles =>
      have hrun : Workflow.extractLinks t s none path = .error (.dialect e) := by
        rw [Workflow.extractLinks, hsession]
        rfl
      simp only [runWith, hsettings, bind, Except.bind, hrun]
      rfl
  | extractHeader path heading scope =>
      have hrun : Workflow.extractSection t s none path heading = .error (.dialect e) := by
        rw [Workflow.extractSection, hsession]
        rfl
      simp only [runWith, hsettings, bind, Except.bind, hrun]
      rfl
  | extractFile path scope =>
      have hrun : Workflow.extractFile t s none path = .error (.dialect e) := by
        rw [Workflow.extractFile, hsession]
        rfl
      simp only [runWith, hsettings, bind, Except.bind, hrun]
      rfl

theorem reports_of_formatFailure? {f : Failure} (h : c.formatFailure? = some f) :
    (ending (.error f)).Reports := by
  unfold formatFailure? at h
  split at h
  · split at h
    · cases h
      exact reports_plain_report _ _
    · cases h
  · cases h

theorem exists_of_lineRange {written : Option String} {f : Failure}
    (h : lineRange written = .error f) : ∃ e, f = .lines e := by
  unfold lineRange at h
  split at h
  · cases h
  · cases h
  · rename_i written _
    cases hparse : LineRange.parse written with
    | ok range =>
        rw [hparse] at h
        cases h
    | error e =>
        rw [hparse] at h
        cases h
        exact ⟨e, rfl⟩

theorem reports_of_linesFailure? {f : Failure} (h : c.linesFailure? = some f) :
    (ending (.error f)).Reports := by
  unfold linesFailure? at h
  split at h
  · split at h
    · rename_i hlines
      cases h
      obtain ⟨e, rfl⟩ := exists_of_lineRange hlines
      exact reports_plain_report _ _
    · cases h
  · cases h

theorem ending_config (e : Config.Failure) : ending (.error (.config e)) =
    if e.raised.isValueError then
      .exit 2 "" (Output.withoutSequences (errorText e.raised.message none))
    else .crash e.raised := by
  rw [ending, Failure.ending]
  split
  · exact plain_report 2 e.raised.message none
  · rfl

/-- The exception for an unknown dialect does not blame a value, so that no command catches it. -/
theorem ending_dialect (guarded : Bool) (e : Markdown.Dialect.Error) :
    ending (.error (.run guarded (.dialect e))) = .crash ⟨"KeyError", e.message, false⟩ := by
  cases guarded <;> rfl

/-- **How a command ends when the configuration is of no use.**  Where there are no settings, the
user is told why, except for the reasons that are not reported; then, and where there is no dialect,
the program ends with an exception.  What else is wrong with the arguments is told before. -/
theorem ending_of_unusable (read : Config.Reading) (t : FileTree) (env : List (String × String))
    (c : Command) :
    (∀ e, Config.loadWith read t env c.options = .error e →
      (e.raised.isValueError = false ↔ Config.Unreported read t) ∧
      (e.raised.isValueError = true ∨ c.formatFailure?.isSome →
        (ending (c.runWith read t env)).Reports) ∧
      (c.formatFailure? = none → e.raised.isValueError = true →
        ending (c.runWith read t env) =
          .exit 2 "" (Output.withoutSequences (errorText e.raised.message none))) ∧
      (c.formatFailure? = none → e.raised.isValueError = false →
        ending (c.runWith read t env) = .crash e.raised)) ∧
    ∀ s e, Config.loadWith read t env c.options = .ok s →
      Markdown.Dialect.named s.parserConfig = .error e →
      ((c.formatFailure?.or c.linesFailure?).isSome → (ending (c.runWith read t env)).Reports) ∧
      (c.formatFailure?.or c.linesFailure? = none →
        ending (c.runWith read t env) = .crash ⟨"KeyError", e.message, false⟩) := by
  refine ⟨fun e hload => ⟨Config.isValueError_raised_eq_false_iff hload, fun htold => ?_,
    fun hformat htold => ?_, fun hformat htold => ?_⟩, fun s e hload hdialect => ⟨?_, ?_⟩⟩
  · rw [runWith_of_loadWith hload]
    cases hformat : c.formatFailure? with
    | some f => exact reports_of_formatFailure? hformat
    | none =>
        have htold : e.raised.isValueError = true := by simpa [hformat] using htold
        rw [Option.getD_none, ending, Failure.ending, if_pos htold]
        exact reports_plain_report _ _
  · rw [runWith_of_loadWith hload, hformat, Option.getD_none, ending_config, if_pos htold]
  · rw [runWith_of_loadWith hload, hformat, Option.getD_none, ending_config,
      if_neg (by simp [htold])]
  · intro htold
    rw [runWith_of_dialect hload hdialect]
    obtain ⟨f, hf⟩ := Option.isSome_iff_exists.1 htold
    rw [hf, Option.getD_some]
    rcases Option.or_eq_some_iff.1 hf with hformat | ⟨-, hlines⟩
    · exact reports_of_formatFailure? hformat
    · exact reports_of_linesFailure? hlines
  · intro hnone
    rw [runWith_of_dialect hload hdialect, hnone, Option.getD_none, ending_dialect]

/-- A directory with a note. -/
def noted : FileTree where
  cwd := []
  nodes := [(["s.md"], .file "# S\n".toUTF8.toList)]

/-- The same directory with a configuration file that holds a list. -/
def listed : FileTree where
  cwd := []
  nodes := (["config.yaml"], .file "- a\n".toUTF8.toList) :: noted.nodes

/-- An environment that names a dialect that there is not. -/
def unknownDialect : List (String × String) := [("MDCITE_PARSER_CONFIG", "bogus")]

/-- The exception for the list. -/
def listRaised : Raised :=
  ⟨"TypeError", "mdcite.config.Settings() argument after ** must be a mapping, not list", false⟩

theorem exists_load_listed :
    ∃ e, Config.load listed [] [] = .error e ∧ e.raised = listRaised := by
  have hcheck : (match Config.load listed [] [] with
      | .error e => decide (e.raised = listRaised)
      | .ok _ => false) = true := by decide +kernel
  cases hload : Config.load listed [] [] with
  | ok s =>
      rw [hload] at hcheck
      cases hcheck
  | error e =>
      rw [hload] at hcheck
      exact ⟨e, rfl, of_decide_eq_true hcheck⟩

theorem exists_load_unknownDialect :
    ∃ s, Config.load noted unknownDialect [] = .ok s ∧
      Markdown.Dialect.named s.parserConfig = .error (.unknown "bogus") := by
  have hname : (Config.load noted unknownDialect []).toOption.map Settings.parserConfig =
      some "bogus" := by decide +kernel
  cases hload : Config.load noted unknownDialect [] with
  | ok s =>
      rw [hload] at hname
      have hparser : s.parserConfig = "bogus" := Option.some.inj hname
      exact ⟨s, rfl, by rw [hparser]; rfl⟩
  | error e =>
      rw [hload] at hname
      cases hname

/-- The exception for the dialect. -/
def dialectRaised : Raised :=
  ⟨"KeyError", (Markdown.Dialect.Error.unknown "bogus").message, false⟩

/-- A list in the configuration file, a setting that is not acceptable, and an unknown dialect. -/
theorem ending_of_unusable_noted :
    ending ((outline "s.md").run listed []) = .crash listRaised ∧
      (ending ((outline "s.md").run noted [("MDCITE_MAX_SUGGESTIONS", "0")])).Reports ∧
      ending ((outline "s.md").run noted unknownDialect) = .crash dialectRaised := by
  obtain ⟨e, hlisted, hraised⟩ := exists_load_listed
  obtain ⟨s, hload, hdialect⟩ := exists_load_unknownDialect
  refine ⟨?_, ?_, ?_⟩
  · rw [← hraised]
    exact ((ending_of_unusable Config.reading listed [] (outline "s.md")).1 e hlisted).2.2.2 rfl
      (by rw [hraised]; rfl)
  · have hcheck : (match Config.load noted [("MDCITE_MAX_SUGGESTIONS", "0")] [] with
        | .error e => e.raised.isValueError
        | .ok _ => false) = true := by decide +kernel
    cases hload : Config.load noted [("MDCITE_MAX_SUGGESTIONS", "0")] [] with
    | ok s =>
        rw [hload] at hcheck
        cases hcheck
    | error e =>
        rw [hload] at hcheck
        exact ((ending_of_unusable Config.reading noted _ (outline "s.md")).1 e hload).2.1
          (.inl hcheck)
  · exact ((ending_of_unusable Config.reading noted unknownDialect (outline "s.md")).2 s _ hload
      hdialect).2 rfl

/-- **The user is not always told that the configuration is of no use**: neither of a list in the
configuration file nor of an unknown dialect. -/
theorem not_ending_of_unusable :
    (¬ ∀ (t : FileTree) (env : List (String × String)) (options : List (String × Value))
        (e : Config.Failure), Config.load t env options = .error e →
          e.raised.isValueError = true) ∧
      ¬ ∀ (t : FileTree) (env : List (String × String)) (c : Command) (s : Settings)
        (e : Markdown.Dialect.Error), Config.load t env c.options = .ok s →
          Markdown.Dialect.named s.parserConfig = .error e → (ending (c.run t env)).Reports := by
  refine ⟨fun h => ?_, fun h => ?_⟩
  · obtain ⟨e, hload, hraised⟩ := exists_load_listed
    have htold := h _ _ _ e hload
    rw [hraised] at htold
    cases htold
  · obtain ⟨s, hload, hdialect⟩ := exists_load_unknownDialect
    obtain ⟨words, hends⟩ := h noted unknownDialect (outline "s.md") s _ hload hdialect
    rw [run, runWith_of_dialect (c := outline "s.md") (s := s) hload hdialect] at hends
    cases hends

end Command

end CommandLine

end Citations
