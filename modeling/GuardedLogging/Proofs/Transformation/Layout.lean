import GuardedLogging.Proofs.CompilationUnit.Layout
import GuardedLogging.Proofs.Transformation.Boundaries
import GuardedLogging.Proofs.Transformation.Invariants
import GuardedLogging.Proofs.Walk.Safety

/-!
# Layout does not matter

What a source declares depends on its lexemes alone, so blanks, comments and line breaks between them do not matter. The indentation of a unit that is written does not matter either, whatever it was parsed from and however often it was transformed: names that were parsed are words, and the name of a logger is an identifier, so nothing in a written line opens a comment or a literal that the line does not close. The tokens of the text are then on the same lines under any indentation, or the text is refused at the same character.
-/

namespace GuardedLogging

/-- One unit leads to the other by runs whose bindings came from class paths, each under any settings, whether it succeeds or fails. -/
inductive CompilationUnit.RunsTo (unit : CompilationUnit) : CompilationUnit → Prop
  | refl : RunsTo unit unit
  | run {later : CompilationUnit} (state : BindingState) (classPath : ClassPath) (skipSimple : Bool)
      (hstate : ∀ binding ∈ state, binding.IsResolved) (h : RunsTo unit later) :
      RunsTo unit (later.transform state classPath skipSimple).unit

theorem CompilationUnit.RunsTo.reaches {unit later : CompilationUnit} (h : unit.RunsTo later) : unit.Reaches later := by
  induction h with
  | refl => exact .refl
  | run state classPath skipSimple _ _ ih => exact .run state classPath skipSimple ih

/-! ### Names of a source -/

section Parsed

theorem Expr.IsParsed.namesOpenNothing {expr : Expr} (h : expr.IsParsed) : expr.NamesOpenNothing := by
  refine h.mono fun node hnode => ?_
  cases node with
  | var name => exact List.forall_mem_singleton.mpr (.of_isWord (isWord_of_isName hnode))
  | call receiver method arguments => exact List.forall_mem_singleton.mpr (.of_isWord hnode)
  | property receiver name => exact List.forall_mem_singleton.mpr (.of_isWord hnode)
  | classRef type => cases hnode
  | _ => exact List.forall_mem_nil _

theorem Annotation.IsWritten.namesOpenNothing {mark : Annotation} (h : mark.IsWritten) : mark.NamesOpenNothing where
  name := .of_isDottedName h.name
  members := fun member hmember => .of_isWord (isWord_of_isName (h.members member hmember).1)

theorem Parameter.IsWritten.namesOpenNothing {parameter : Parameter} (h : parameter.IsWritten TypeRef.IsParsed) :
    parameter.NamesOpenNothing where
  name := .of_isWord (isWord_of_isName h.name)
  type := fun type htype => .of_isDottedName (h.type type htype).dotted

theorem Field.IsWritten.namesOpenNothing {field : Field} {owner : String}
    (h : field.IsWritten TypeRef.IsParsed Expr.IsParsed owner) : field.NamesOpenNothing where
  name := .of_isWord (isWord_of_isName h.name)
  type := fun type htype => .of_isDottedName (h.type type htype).dotted
  initial := by
    rcases h.initial with habsent | hparsed
    · rw [habsent]
      exact List.forall_mem_singleton.mpr (List.forall_mem_nil _)
    · exact hparsed.namesOpenNothing

theorem Method.IsWritten.namesOpenNothing {method : Method} (h : method.IsWritten TypeRef.IsParsed Expr.IsParsed) :
    method.NamesOpenNothing where
  name := .of_isWord (isWord_of_isName h.name)
  returnType := fun type htype => .of_isDottedName (h.returnType type htype).dotted
  parameters := fun parameter hparameter => (h.parameters parameter hparameter).namesOpenNothing
  body := fun statement hstatement => (h.body statement hstatement).namesOpenNothing

theorem CompilationUnit.IsWritten.namesOpenNothing {unit : CompilationUnit}
    (h : unit.IsWritten TypeRef.IsParsed Expr.IsParsed) : unit.NamesOpenNothing where
  package := by
    rw [h.text]
    rcases h.package with hempty | hdotted
    · rw [hempty]
      decide
    · exact .of_isDottedName hdotted
  classes := fun decl hdecl => by
    have hwritten := h.classes decl hdecl
    have hname := isDottedName_qualify h.package hwritten.simpleName
    rw [← hwritten.name] at hname
    exact {
      name := .of_isDottedName hname
      annotations := fun mark hmark => (hwritten.annotations mark hmark).namesOpenNothing
      fields := fun field hfield => (hwritten.fields field hfield).namesOpenNothing
      methods := fun method hmethod => (hwritten.methods method hmethod).namesOpenNothing
    }

end Parsed

/-! ### Names after a run -/

namespace Guarding

open GuardedLogging.Expr

variable {guarding : Guarding}

theorem allowsGuards_ownNames : AllowsGuards fun node => ∀ name ∈ node.ownNames, OpensNothing name where
  null := List.forall_mem_nil _
  check := fun _ level => List.forall_mem_singleton.mpr (.of_isWord (isWord_check level))
  ternary := fun _ _ _ => List.forall_mem_nil _
  args := fun _ _ => id
  call := fun _ _ _ _ _ => id
  property := fun _ _ _ => id
  condition := fun _ _ => id
  not := fun _ _ => id

theorem namesOpenNothing_guardField {field : Field} (h : field.NamesOpenNothing) :
    (guarding.guardField field).NamesOpenNothing where
  name := h.name
  type := h.type
  initial := everyNode_guard allowsGuards_ownNames h.initial

theorem namesOpenNothing_guardMethod {method : Method} (h : method.NamesOpenNothing) :
    (guarding.guardMethod method).NamesOpenNothing := by
  unfold guardMethod
  split
  · exact h
  · exact ⟨h.name, h.returnType, h.parameters, List.forall_mem_map.mpr fun statement hstatement =>
      everyNode_guard allowsGuards_ownNames (h.body statement hstatement)⟩

end Guarding

namespace ClassDecl

open GuardedLogging.Expr

variable {decl : ClassDecl} {binding : FacadeBinding} {guarding : Guarding}

theorem namesOpenNothing_loggerField {name : String} (hname : OpensNothing name) (hdecl : OpensNothing decl.name)
    (hbinding : binding.IsResolved) : (binding.loggerField decl name).NamesOpenNothing where
  name := hname
  type := by
    intro type htype
    cases Option.mem_some.mp htype
    exact .of_isDottedName (FacadeBinding.isDotted_logger hbinding)
  initial := by
    refine EveryNode.call_iff.mpr ⟨?_, ?_, ?_⟩
    · exact List.forall_mem_singleton.mpr (by decide)
    · refine EveryNode.classRef_iff.mpr (List.forall_mem_singleton.mpr ?_)
      exact .of_isDottedName (FacadeBinding.isDotted_factory hbinding)
    · exact List.forall_mem_singleton.mpr (EveryNode.classRef_iff.mpr (List.forall_mem_singleton.mpr hdecl))

theorem NamesOpenNothing.withLogger (h : decl.NamesOpenNothing) (hlogger : OpensNothing guarding.logger)
    (hbinding : binding.IsResolved) : (decl.withLogger binding guarding).NamesOpenNothing where
  name := h.name
  annotations := fun mark hmark => h.annotations mark (List.mem_of_mem_eraseP hmark)
  fields := List.forall_mem_cons.mpr ⟨namesOpenNothing_loggerField hlogger h.name hbinding,
    List.forall_mem_map.mpr fun field hfield => Guarding.namesOpenNothing_guardField (h.fields field hfield)⟩
  methods := List.forall_mem_map.mpr fun method hmethod =>
    Guarding.namesOpenNothing_guardMethod (h.methods method hmethod)

theorem TransformsTo.namesOpenNothing {skipSimple : Bool} {result : ClassDecl × Option ClassReport}
    (hresult : decl.TransformsTo binding skipSimple result) (hbinding : binding.IsResolved)
    (h : decl.NamesOpenNothing) : result.1.NamesOpenNothing := by
  rcases transformsTo_iff.mp hresult with ⟨_, rfl⟩ | ⟨changed, report, htransform, rfl⟩
  · exact h
  · obtain ⟨mark, request, strategy, _, haccept, rfl, _⟩ := transform_eq_ok_some_iff.mp htransform
    obtain ⟨hrequest, _, _⟩ := accept_eq_ok_iff.mp haccept
    have hname := LoggerRequest.isIdentifier_of_fieldNameOf (LoggerRequest.fieldNameOf_of_ofMark hrequest)
    show (decl.withLogger binding ⟨request.fieldName, skipSimple⟩).NamesOpenNothing
    exact h.withLogger (.of_isIdentifier hname) hbinding

end ClassDecl

namespace CompilationUnit

variable {unit later : CompilationUnit}

theorem NamesOpenNothing.of_runsTo (h : unit.NamesOpenNothing) (hlater : unit.RunsTo later) :
    later.NamesOpenNothing := by
  induction hlater with
  | refl => exact h
  | run state classPath skipSimple hstate _ ih =>
    have hbinding := BindingState.isResolved_settle hstate
    exact ⟨ih.package, ClassesOutcome.forall_ofClasses
      (fun _ _ hresult => hresult.namesOpenNothing (hbinding _)) ih.classes⟩

end CompilationUnit

open CompilationUnit in
/-- Two sources with the same lexemes declare the same unit, or are refused with the same message behind the line. A unit that was parsed, transformed or not, can be written under any two indentations, and both texts declare the same unit or are refused with the same error. -/
theorem layout_does_not_matter :
    (∀ (source other : String) (name : Scalar) (list otherList : TokenList), tokenize source = .ok list →
      tokenize other = .ok otherList → list.lexemes = otherList.lexemes →
        (∃ unit, parse source name = .ok unit ∧ parse other name = .ok unit) ∨
          ∃ (error otherError : ParseError) (line otherLine : Nat) (message : String),
            parse source name = .error error ∧ parse other name = .error otherError ∧
              error.message = s!"line {toString line}: {message}" ∧
                otherError.message = s!"line {toString otherLine}: {message}") ∧
      ∀ (source : String) (name : Scalar) (parsed unit : CompilationUnit) (indent otherIndent : String),
        parse source name = .ok parsed → parsed.RunsTo unit → IsIndent indent → IsIndent otherIndent →
          ∃ text otherText, unit.toSource? indent = some text ∧ unit.toSource? otherIndent = some otherText ∧
            ∀ label, parse text label = parse otherText label := by
  constructor
  · intro source other name list otherList htokens hother hlexemes
    refine (parse_same_of_lexemes_eq name htokens hother hlexemes).imp_right fun h => ?_
    obtain ⟨line, otherLine, cause, herror, hotherError⟩ := h
    exact ⟨_, _, line, otherLine, cause.message, herror, hotherError, rfl, rfl⟩
  · intro source name parsed unit indent otherIndent hparse hunit hindent hother
    have hwritten := isParsed_of_parse hparse
    have hformed := hwritten.isWellFormed.of_reaches hunit.reaches
    have hnames := hwritten.namesOpenNothing.of_runsTo hunit
    exact ⟨_, _, hformed.toSource?_eq indent, hformed.toSource?_eq otherIndent,
      parse_toSource_eq hnames hindent hother⟩

namespace CompilationUnit

/-- A field without its initial value, on one line and on several. -/
def crampedSource : String := "class A\x7bdef a=;\x7d"

def roomySource : String := "class A \x7b // one field\n\tdef a =\n\t;\n\x7d\n"

def crampedTokens : TokenList where
  tokens := [⟨.word "class", 1⟩, ⟨.word "A", 1⟩, ⟨.op '\x7b', 1⟩, ⟨.word "def", 1⟩, ⟨.word "a", 1⟩, ⟨.op '=', 1⟩,
    ⟨.op ';', 1⟩, ⟨.op '\x7d', 1⟩]
  lastLine := 1

def roomyTokens : TokenList where
  tokens := [⟨.word "class", 1⟩, ⟨.word "A", 1⟩, ⟨.op '\x7b', 1⟩, ⟨.word "def", 2⟩, ⟨.word "a", 2⟩, ⟨.op '=', 2⟩,
    ⟨.op ';', 3⟩, ⟨.op '\x7d', 4⟩]
  lastLine := 5

theorem tokenize_crampedSource : tokenize crampedSource = .ok crampedTokens := by
  decide +kernel

theorem tokenize_roomySource : tokenize roomySource = .ok roomyTokens := by
  decide +kernel

end CompilationUnit

open CompilationUnit in
/-- The first two are refused alike, and a class that has got its logger is read alike, indented by a tab or by blanks. -/
theorem roomySource_and_repeatingUnit_are_read_alike :
    let changed := (repeatingUnit.transform none .empty false).unit
    (tokenize crampedSource = .ok crampedTokens ∧ tokenize roomySource = .ok roomyTokens ∧
        crampedTokens.lexemes = roomyTokens.lexemes ∧
        ((∃ unit, parse crampedSource = .ok unit ∧ parse roomySource = .ok unit) ∨
          ∃ (error otherError : ParseError) (line otherLine : Nat) (message : String),
            parse crampedSource = .error error ∧ parse roomySource = .error otherError ∧
              error.message = s!"line {toString line}: {message}" ∧
                otherError.message = s!"line {toString otherLine}: {message}")) ∧
      parse repeatingUnit.toSource repeatingUnit.name = .ok repeatingUnit ∧ repeatingUnit.RunsTo changed ∧
        IsIndent "\t" ∧ IsIndent "  " ∧
          ∃ text otherText, changed.toSource? "\t" = some text ∧ changed.toSource? "  " = some otherText ∧
            ∀ label, parse text label = parse otherText label := by
  intro changed
  have hruns : repeatingUnit.RunsTo changed := .run none .empty false nofun .refl
  have htab : IsIndent "\t" := by decide
  have hblanks : IsIndent "  " := by decide
  refine ⟨⟨tokenize_crampedSource, tokenize_roomySource, rfl, ?_⟩, parse_repeatingUnit, hruns, htab, hblanks, ?_⟩
  · exact layout_does_not_matter.1 _ _ _ _ _ tokenize_crampedSource tokenize_roomySource rfl
  · exact layout_does_not_matter.2 _ _ _ _ _ _ parse_repeatingUnit hruns htab hblanks

end GuardedLogging
