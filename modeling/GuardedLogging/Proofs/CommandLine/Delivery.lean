import GuardedLogging.CommandLine.Run
import GuardedLogging.Proofs.CompilationUnit.Documents
import GuardedLogging.Proofs.Transformation.Invariants
import GuardedLogging.Yaml.Library

/-!
# A transformation is delivered or withheld

The effects of a command are played on the files they are about: a path names a place, several paths may name one place, and a change replaces or extends what is at a place. The log file apart, a `transform` command changes one place at most, and that only after everything that can be refused has been accepted.
-/

namespace GuardedLogging

theorem CompilationUnit.isWellFormed_of_parseFile {read : FileReader} {path : String} {name : Option Scalar}
    {unit : CompilationUnit} (h : parseFile read path name = .ok unit) : unit.IsWellFormed := by
  obtain ⟨bytes, _, hrest⟩ := bind_eq_ok_iff.mp h
  obtain ⟨text, _, hparse⟩ := bind_eq_ok_iff.mp hrest
  cases hsource : parse text (name.getD (.text (fileStem path))) with
  | error error =>
    rw [hsource] at hparse
    cases hparse
  | ok found =>
    rw [hsource] at hparse
    cases hparse
    exact (isParsed_of_parse hsource).isWellFormed

namespace CommandLine

/-! ### Effects that only log -/

namespace Effects

@[simp] theorem stdout_append (first second : Effects) : (first ++ second).stdout = first.stdout ++ second.stdout := rfl

theorem append_assoc (first second third : Effects) : first ++ second ++ third = first ++ (second ++ third) := by
  show Effects.mk _ _ _ = Effects.mk _ _ _
  rw [Effects.mk.injEq]
  exact ⟨String.append_assoc, String.append_assoc, List.append_assoc _ _ _⟩

/-- Nothing is shown on the standard output, and no file is changed but the log file, if there is one, which grows. -/
structure IsSilent (logFile : Option String) (effects : Effects) : Prop where
  stdout : effects.stdout = ""
  changes : ∀ change ∈ effects.changes, ∃ path ∈ logFile, ∃ text, change = .append path text

variable {logFile : Option String} {first second : Effects}

theorem IsSilent.append (hfirst : first.IsSilent logFile) (hsecond : second.IsSilent logFile) :
    (first ++ second).IsSilent logFile where
  stdout := by rw [stdout_append, hfirst.stdout, hsecond.stdout, String.append_empty]
  changes := List.forall_mem_append.mpr ⟨hfirst.changes, hsecond.changes⟩

theorem isSilent_stderr (text : String) : IsSilent logFile { stderr := text } :=
  ⟨rfl, List.forall_mem_nil _⟩

theorem isSilent_complaint (message : String) : IsSilent logFile (complaint message) :=
  isSilent_stderr _

theorem isSilent_log (target : LogTarget) (records : List LogRecord) : IsSilent target.file (target.log records) := by
  refine ⟨rfl, ?_⟩
  unfold LogTarget.log
  cases hfile : target.file with
  | none => exact List.forall_mem_nil _
  | some path => exact List.forall_mem_singleton.mpr ⟨path, rfl, _, rfl⟩

/-- A refusal is logged up to where it happens and explained on the error output. -/
theorem isSilent_refusal (target : LogTarget) (records : List LogRecord) (message : String) :
    IsSilent target.file (target.log records ++ complaint message) :=
  (isSilent_log target records).append (isSilent_complaint message)

end Effects

/-! ### Files -/

/-- What commands run on: the place that a path names, the bytes at a place, what cannot be written, and the environment. -/
structure System (Place : Type) where
  placeOf : String → Place
  contents : Place → Except FileError (List UInt8)
  writeError? : String → Option FileError
  environment? : String → Option String

/-- The bytes of a file that holds a text. -/
def utf8Bytes (text : String) : List UInt8 := text.toUTF8.data.toList

namespace System

variable {Place : Type}

/-- What a command can ask of the system. -/
def surroundings (system : System Place) : Surroundings where
  read path := system.contents (system.placeOf path)
  writeError? := system.writeError?
  environment? := system.environment?

/-- The place is that of the log file which the settings of a command ask for. -/
def IsLogFile (yaml : YamlLibrary) (system : System Place) (invocation : Invocation) (place : Place) : Prop :=
  ∃ settings path,
    Settings.load yaml system.surroundings.read system.environment? invocation.settingsPath = .ok settings ∧
      settings.logFile.path? = some path ∧ place = system.placeOf path

section Changes

variable [DecidableEq Place]

/-- The system after a change. A text that is appended where nothing is starts a file. -/
def change (system : System Place) : FileChange → System Place
  | .append path text =>
    let earlier := (system.contents (system.placeOf path)).toOption.getD []
    { system with
      contents := Function.update system.contents (system.placeOf path) (.ok (earlier ++ utf8Bytes text)) }
  | .replace path text =>
    { system with contents := Function.update system.contents (system.placeOf path) (.ok (utf8Bytes text)) }

/-- The system after the effects of a command, in their order. -/
def after (system : System Place) (effects : Effects) : System Place :=
  effects.changes.foldl change system

variable {system : System Place} {effects : Effects} {place : Place}

@[simp] theorem placeOf_change (change : FileChange) : (system.change change).placeOf = system.placeOf := by
  cases change <;> rfl

theorem after_append (first second : Effects) : system.after (first ++ second) = (system.after first).after second :=
  List.foldl_append

@[simp] theorem placeOf_after : (system.after effects).placeOf = system.placeOf := by
  unfold after
  induction effects.changes generalizing system with
  | nil => rfl
  | cons first rest ih => exact ih.trans (placeOf_change first)

/-- A silent command leaves every place as it is but that of the log file. -/
theorem contents_after_of_isSilent {logFile : Option String} (h : effects.IsSilent logFile)
    (hplace : ∀ path ∈ logFile, place ≠ system.placeOf path) :
    (system.after effects).contents place = system.contents place := by
  have hchanges := h.changes
  unfold after
  generalize effects.changes = changes at hchanges
  induction changes generalizing system with
  | nil => rfl
  | cons first rest ih =>
    obtain ⟨⟨path, hpath, text, happend⟩, hrest⟩ := List.forall_mem_cons.mp hchanges
    have hkept : (system.change first).contents place = system.contents place := by
      rw [happend]
      exact Function.update_of_ne (hplace path hpath) _ _
    refine Eq.trans (ih ?_ hrest) hkept
    intro other hother
    rw [placeOf_change]
    exact hplace other hother

theorem contents_after_replace (path text stdout stderr : String) :
    (system.after ⟨stdout, stderr, [.replace path text]⟩).contents
      = Function.update system.contents (system.placeOf path) (.ok (utf8Bytes text)) := rfl

/-- Nothing has been shown on the standard output, and every place is as it was, the log file aside. -/
structure Withholds (yaml : YamlLibrary) (system : System Place) (invocation : Invocation)
    (effects : Effects) : Prop where
  stdout : effects.stdout = ""
  files : ∀ place, ¬ system.IsLogFile yaml invocation place →
    (system.after effects).contents place = system.contents place

/-- The output file holds a text, or else the standard output is the text, and every other place is as it was, the log file aside. -/
structure Delivers (yaml : YamlLibrary) (system : System Place) (invocation : Invocation) (output : Option String)
    (text : String) (effects : Effects) : Prop where
  stdout : effects.stdout = output.elim text fun _ => ""
  file : ∀ path ∈ output, ¬ system.IsLogFile yaml invocation (system.placeOf path) →
    (system.after effects).contents (system.placeOf path) = .ok (utf8Bytes text)
  files : ∀ place, ¬ system.IsLogFile yaml invocation place → (∀ path ∈ output, place ≠ system.placeOf path) →
    (system.after effects).contents place = system.contents place

end Changes

end System

/-! ### The text on its way out -/

namespace Effects

/-- A text goes to the output file, if there is one, or else to the standard output. -/
def written (output : Option String) (text : String) : Effects :=
  match output with
  | none => { stdout := text }
  | some path => { changes := [.replace path text] }

end Effects

section Commands

variable {yaml : YamlLibrary} {surroundings : Surroundings} {settings : Settings} {target : LogTarget}
  {binding : BindingState}

theorem LogTarget.path?_of_ofSettings {logLevel : Option String} {path : String}
    (h : LogTarget.ofSettings surroundings logLevel settings = .ok target) (hfile : target.file = some path) :
    settings.logFile.path? = some path := by
  unfold LogTarget.ofSettings at h
  dsimp only at h
  split at h
  · cases Except.ok.inj h
    cases hfile
  · rename_i named hnamed _
    split at h
    · cases h
    · split at h
      · cases h
      · cases Except.ok.inj h
        cases hfile
        exact hnamed
  · cases h

/-- A source file declares a unit, or the command ends with exit code 1 and has only logged and complained. -/
theorem readSource_eq_ok {path : String} {found : Except Outcome CompilationUnit}
    (h : readSource surroundings target binding path = .ok found) :
    (∃ unit, found = .ok unit ∧ CompilationUnit.parseFile surroundings.read path = .ok unit) ∨
      ∃ effects, found = .error ⟨1, effects, binding⟩ ∧ effects.IsSilent target.file := by
  unfold readSource at h
  split at h
  · rename_i unit hparse
    cases h
    exact .inl ⟨unit, rfl, hparse⟩
  · cases h
    exact .inr ⟨_, rfl, Effects.isSilent_refusal target _ _⟩
  · cases h
  · cases h
    exact .inr ⟨_, rfl, Effects.isSilent_refusal target _ _⟩

theorem deliver_eq_ok {options : TransformOptions} {unit : CompilationUnit} {report : UnitReport} {effects : Effects}
    (h : deliver yaml surroundings target options unit report = .ok effects) :
    ∃ later, effects = Effects.written (Settings.nonempty? options.output) unit.toSource ++ later ∧
      later.IsSilent target.file := by
  have hreport : Effects.IsSilent target.file
      { stderr := (options.report.map fun format => reportText yaml format report).getD "" } :=
    Effects.isSilent_stderr _
  unfold deliver at h
  split at h
  · rename_i hnone
    cases h
    rw [hnone]
    exact ⟨_, rfl, hreport⟩
  · rename_i path hsome
    split at h
    · cases h
    · cases h
      rw [hsome]
      exact ⟨_, Effects.append_assoc _ _ _, (Effects.isSilent_log target _).append hreport⟩

/-- A transformation that ends normally has failed in silence, or it has passed every check and its text is out. -/
theorem runTransform_eq_ok {source : String} {options : TransformOptions} {outcome : Outcome}
    (h : runTransform yaml surroundings settings target binding source options = .ok outcome) :
    (outcome.exitCode = 1 ∧ outcome.effects.IsSilent target.file) ∨
      (outcome.exitCode = 0 ∧ ∃ unit report before later,
        CompilationUnit.parseFile surroundings.read source = .ok unit ∧
          (unit.transform binding settings.visibleTypes settings.skipSimple).result = .ok report ∧
          (options.check = true →
            (unit.transform binding settings.visibleTypes settings.skipSimple).unit.checkTypes settings.visibleTypes
              = .ok ()) ∧
          outcome.effects = before ++ Effects.written (Settings.nonempty? options.output)
            (unit.transform binding settings.visibleTypes settings.skipSimple).unit.toSource ++ later ∧
          before.IsSilent target.file ∧ later.IsSilent target.file) := by
  unfold runTransform at h
  cases hread : readSource surroundings target binding source with
  | error crash =>
    rw [hread] at h
    cases h
  | ok found =>
    rw [hread] at h
    obtain ⟨unit, rfl, hparse⟩ | ⟨effects, rfl, hsilent⟩ := readSource_eq_ok hread
    · dsimp only [bind, Except.bind] at h
      split at h
      · cases Except.ok.inj h
        exact .inl ⟨rfl, Effects.isSilent_refusal target _ _⟩
      · rename_i report hresult
        split at h
        · cases Except.ok.inj h
          exact .inl ⟨rfl, Effects.isSilent_refusal target _ _⟩
        · rename_i hchecked
          split at h
          · rename_i effects hdeliver
            obtain ⟨later, hlater, hsilent⟩ := deliver_eq_ok hdeliver
            cases Except.ok.inj h
            subst hlater
            refine .inr ⟨rfl, unit, report, _, later, hparse, hresult, fun hcheck => ?_,
              (Effects.append_assoc _ _ _).symm, Effects.isSilent_log target _, hsilent⟩
            rwa [if_pos hcheck] at hchecked
          · cases Except.ok.inj h
            exact .inl ⟨rfl, Effects.isSilent_refusal target _ _⟩
          · cases h
    · cases Except.ok.inj h
      exact .inl ⟨rfl, hsilent⟩

theorem run_transform_eq_ok {invocation : Invocation} {source : String} {options : TransformOptions} {outcome : Outcome}
    (hcommand : invocation.command = .transform source options)
    (h : run yaml surroundings binding invocation = .ok outcome) :
    (∃ message, outcome = ⟨1, complaint message, binding⟩) ∨
      ∃ settings target,
        Settings.load yaml surroundings.read surroundings.environment? invocation.settingsPath = .ok settings ∧
          LogTarget.ofSettings surroundings invocation.logLevel settings = .ok target ∧
            runTransform yaml surroundings settings target binding source options = .ok outcome := by
  unfold run at h
  cases hload : Settings.load yaml surroundings.read surroundings.environment? invocation.settingsPath with
  | error error =>
    rw [hload] at h
    dsimp only at h
    split at h
    · rename_i message _
      exact .inl ⟨message, (Except.ok.inj h).symm⟩
    · cases h
  | ok settings =>
    rw [hload] at h
    dsimp only at h
    cases htarget : LogTarget.ofSettings surroundings invocation.logLevel settings with
    | error crash =>
      rw [htarget] at h
      cases h
    | ok target =>
      rw [htarget, hcommand] at h
      exact .inr ⟨settings, target, rfl, htarget, h⟩

end Commands

namespace System

variable {yaml : YamlLibrary} {Place : Type} [DecidableEq Place] {system : System Place} {invocation : Invocation}
  {effects : Effects}

theorem withholds_of_isSilent {logFile : Option String} (h : effects.IsSilent logFile)
    (hlog : ∀ path ∈ logFile, system.IsLogFile yaml invocation (system.placeOf path)) :
    system.Withholds yaml invocation effects where
  stdout := h.stdout
  files := fun _ hplace => contents_after_of_isSilent h fun path hpath heq => hplace (heq ▸ hlog path hpath)

theorem contents_after_written {output : Option String} {text : String} {place : Place}
    (hplace : ∀ path ∈ output, place ≠ system.placeOf path) :
    (system.after (Effects.written output text)).contents place = system.contents place := by
  cases output with
  | none => rfl
  | some path => exact Function.update_of_ne (hplace path rfl) _ _

theorem delivers_of_written {logFile output : Option String} {text : String} {before later : Effects}
    (hbefore : before.IsSilent logFile) (hlater : later.IsSilent logFile)
    (hlog : ∀ path ∈ logFile, system.IsLogFile yaml invocation (system.placeOf path)) :
    system.Delivers yaml invocation output text (before ++ Effects.written output text ++ later) := by
  have hother {place : Place} (hplace : ¬ system.IsLogFile yaml invocation place) (path : String)
      (hpath : path ∈ logFile) : place ≠ system.placeOf path := fun heq => hplace (heq ▸ hlog path hpath)
  -- whatever comes before and later does not touch the place
  have hafter {place : Place} (hplace : ¬ system.IsLogFile yaml invocation place) :
      (system.after (before ++ Effects.written output text ++ later)).contents place
        = ((system.after before).after (Effects.written output text)).contents place := by
    rw [after_append, after_append]
    refine contents_after_of_isSilent hlater fun path hpath => ?_
    rw [placeOf_after, placeOf_after]
    exact hother hplace path hpath
  refine ⟨?_, fun path hpath hplace => ?_, fun place hplace houtput => ?_⟩
  · rw [Effects.stdout_append, Effects.stdout_append, hbefore.stdout, hlater.stdout, String.empty_append,
      String.append_empty]
    cases output <;> rfl
  · rw [hafter hplace, Option.mem_def.mp hpath, Effects.written, contents_after_replace, placeOf_after]
    exact Function.update_self _ _ _
  · rw [hafter hplace, contents_after_written]
    · exact contents_after_of_isSilent hbefore (hother hplace)
    · rw [placeOf_after]
      exact houtput

end System

/-- Whatever library reads the settings, the command either ends with exit code 1 and withholds everything, or it ends with exit code 0 and delivers the text of the transformed unit, which has passed the check if one was asked for. -/
theorem transform_delivers_or_withholds {Place : Type} [DecidableEq Place] (yaml : YamlLibrary) (system : System Place)
    (binding : BindingState) (invocation : Invocation) (source : String) (options : TransformOptions)
    (outcome : Outcome) (hcommand : invocation.command = .transform source options)
    (hrun : run yaml system.surroundings binding invocation = .ok outcome) :
    (outcome.exitCode = 1 ∧ system.Withholds yaml invocation outcome.effects) ∨
      (outcome.exitCode = 0 ∧ ∃ settings unit report text,
        Settings.load yaml system.surroundings.read system.environment? invocation.settingsPath = .ok settings ∧
          CompilationUnit.parseFile system.surroundings.read source = .ok unit ∧
          let transformed := unit.transform binding settings.visibleTypes settings.skipSimple
          transformed.result = .ok report ∧ transformed.unit.toSource? = some text ∧
            system.Delivers yaml invocation (Settings.nonempty? options.output) text outcome.effects ∧
              (options.check = true → transformed.unit.checkTypes settings.visibleTypes = .ok ())) := by
  obtain ⟨message, rfl⟩ | ⟨settings, target, hload, htarget, htransform⟩ := run_transform_eq_ok hcommand hrun
  · have hsilent : Effects.IsSilent none (complaint message) := Effects.isSilent_complaint message
    exact .inl ⟨rfl, System.withholds_of_isSilent hsilent nofun⟩
  have hlog : ∀ path ∈ target.file, system.IsLogFile yaml invocation (system.placeOf path) := fun path hpath =>
    ⟨settings, path, hload, LogTarget.path?_of_ofSettings htarget hpath, rfl⟩
  obtain ⟨hcode, hsilent⟩ |
      ⟨hcode, unit, report, before, later, hparse, hresult, hcheck, heffects, hbefore, hlater⟩ :=
    runTransform_eq_ok htransform
  · exact .inl ⟨hcode, System.withholds_of_isSilent hsilent hlog⟩
  · have hwellFormed := (CompilationUnit.isWellFormed_of_parseFile hparse).transform binding settings.visibleTypes
      settings.skipSimple
    refine .inr ⟨hcode, settings, unit, report, _, hload, hparse, hresult, hwellFormed.toSource?_eq _, ?_, hcheck⟩
    rw [heffects]
    exact System.delivers_of_written hbefore hlater hlog

/-- One source file, whose class asks for a logger, and nothing else: no settings, so no facade is known. -/
def sampleSystem : System String where
  placeOf := id
  contents path := if path = "A.groovy" then .ok (utf8Bytes "@Commons\nclass A \x7b\n\x7d\n") else .error .missing
  writeError? _ := none
  environment? _ := none

/-- The source file after the transformation. -/
def rewrittenSource : String :=
  "class A \x7b\n    private static final transient org.apache.commons.logging.Log log = "
    ++ "org.apache.commons.logging.LogFactory.getLog(A)\n\x7d\n"

/-- The command that puts the transformed source in the place of the source. -/
def rewriting (check : Bool) : Invocation :=
  ⟨none, none, .transform "A.groovy" { output := some "A.groovy", check }⟩

theorem exists_of_exitCode {result : Except Crash Outcome} {code : Nat}
    (h : result.toOption.map Outcome.exitCode = some code) :
    ∃ outcome, result = .ok outcome ∧ outcome.exitCode = code := by
  cases result with
  | error crash => cases h
  | ok outcome => exact ⟨outcome, rfl, Option.some.inj h⟩

theorem not_isLogFile_sampleSystem (check : Bool) (place : String) :
    ¬ sampleSystem.IsLogFile Yaml.library (rewriting check) place := by
  intro ⟨settings, path, hload, hpath, _⟩
  cases Except.ok.inj hload
  cases hpath

/-- The check keeps the source as it is, because the facade is missing; without the check the source is rewritten. -/
theorem rewriting_waits_for_the_check :
    (∃ outcome, run Yaml.library sampleSystem.surroundings none (rewriting true) = .ok outcome ∧
        outcome.exitCode = 1 ∧
        (sampleSystem.after outcome.effects).contents "A.groovy" = sampleSystem.contents "A.groovy") ∧
      ∃ outcome, run Yaml.library sampleSystem.surroundings none (rewriting false) = .ok outcome ∧
        outcome.exitCode = 0 ∧
        (sampleSystem.after outcome.effects).contents "A.groovy" = .ok (utf8Bytes rewrittenSource) := by
  constructor
  · obtain ⟨outcome, hrun, hcode⟩ : ∃ outcome,
        run Yaml.library sampleSystem.surroundings none (rewriting true) = .ok outcome ∧
        outcome.exitCode = 1 := exists_of_exitCode (by decide +kernel)
    obtain ⟨_, hwithheld⟩ | ⟨hzero, _⟩ :=
      transform_delivers_or_withholds Yaml.library sampleSystem none (rewriting true) "A.groovy" _ outcome rfl hrun
    · exact ⟨outcome, hrun, hcode, hwithheld.files "A.groovy" (not_isLogFile_sampleSystem true _)⟩
    · cases hcode.symm.trans hzero
  · obtain ⟨outcome, hrun, hcode⟩ : ∃ outcome,
        run Yaml.library sampleSystem.surroundings none (rewriting false) = .ok outcome ∧
        outcome.exitCode = 0 := exists_of_exitCode (by decide +kernel)
    obtain ⟨hone, _⟩ | ⟨_, settings, unit, report, text, hload, hparse, _, htext, hdelivered, _⟩ :=
      transform_delivers_or_withholds Yaml.library sampleSystem none (rewriting false) "A.groovy" _ outcome rfl hrun
    · cases hcode.symm.trans hone
    · have hfile := hdelivered.file "A.groovy" rfl (not_isLogFile_sampleSystem false _)
      have hknown : ((CompilationUnit.parseFile sampleSystem.surroundings.read "A.groovy").toOption.bind fun unit =>
          (unit.transform none (Settings.visibleTypes {}) false).unit.toSource?) = some rewrittenSource := by
        decide +kernel
      cases Except.ok.inj hload
      rw [hparse] at hknown
      cases htext.symm.trans hknown
      exact ⟨outcome, hrun, hcode, hfile⟩

end CommandLine

end GuardedLogging
