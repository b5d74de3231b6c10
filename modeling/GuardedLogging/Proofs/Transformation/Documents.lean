import GuardedLogging.Proofs.CompilationUnit.Documents
import GuardedLogging.Proofs.Transformation.Invariants

/-!
# Documents of transformed units

A source gives each field to the class that it stands in, and so does a document. A run keeps this: guarding a field leaves its owner, and a logger belongs to its class. So what any number of runs makes of a unit comes back from its document.
-/

namespace GuardedLogging

/-- Whether a unit comes from a source or from a document. -/
inductive CompilationUnit.IsGiven : CompilationUnit → Prop
  | source {unit : CompilationUnit} (text : String) (name : Scalar) (h : parse text name = .ok unit) : IsGiven unit
  | document {unit : CompilationUnit} (document : Document) (h : ofDocument document = .ok unit) : IsGiven unit

/-- A class keeps its fields, and owns the logger that it gets. -/
theorem ClassDecl.TransformsTo.ownsFields {decl : ClassDecl} {binding : FacadeBinding} {skipSimple : Bool}
    {result : ClassDecl × Option ClassReport} (hresult : decl.TransformsTo binding skipSimple result)
    (h : decl.OwnsFields) : result.1.OwnsFields := by
  rcases transformsTo_iff.mp hresult with ⟨_, rfl⟩ | ⟨changed, report, htransform, rfl⟩
  · exact h
  · obtain ⟨mark, request, strategy, _, _, rfl, _⟩ := transform_eq_ok_some_iff.mp htransform
    exact List.forall_mem_cons.mpr ⟨rfl, List.forall_mem_map.mpr h⟩

namespace CompilationUnit

variable {given unit : CompilationUnit}

theorem IsGiven.ownsFields (h : given.IsGiven) : given.OwnsFields := by
  cases h with
  | source text name hparse =>
    exact fun decl hdecl field hfield => (((isParsed_of_parse hparse).classes decl hdecl).fields field hfield).owner
  | document document hread => exact ownsFields_of_ofDocument hread

theorem OwnsFields.of_reaches (h : given.OwnsFields) (hunit : given.Reaches unit) : unit.OwnsFields := by
  induction hunit with
  | refl => exact h
  | run state classPath skipSimple _ ih => exact ClassesOutcome.forall_ofClasses (fun _ _ hresult => hresult.ownsFields) ih

end CompilationUnit

/-- Documents lose nothing: every expression comes back from its document, and so does every unit that was parsed or read, after any number of runs. -/
theorem documents_lose_nothing :
    (∀ expr : Expr, Expr.ofDocument expr.toDocument = .ok expr) ∧
      ∀ given unit : CompilationUnit, given.IsGiven → given.Reaches unit →
        CompilationUnit.ofDocument unit.toDocument = .ok unit :=
  ⟨Expr.ofDocument_toDocument, fun _ _ hgiven hunit =>
    CompilationUnit.ofDocument_toDocument (hgiven.ownsFields.of_reaches hunit)⟩

namespace CompilationUnit

/-- A document with its entries in an order of its own, one of them unknown, and much left out. -/
def looseDocument : Document :=
  let size : Document := .record [("object", .null), ("property", .text "size"), ("type", .text "property")]
  let field : Document := .record [("initial_expression", size), ("name", .text "size")]
  .record [("classes", .list [.record [("comment", .text "unfinished"), ("name", .text "Service"),
    ("fields", .list [field]), ("modifiers", .list [.text "Final", .text "NONE"]),
    ("annotations", .list [.record [("name", .text "Commons")]])]])]

def looseUnit : CompilationUnit :=
  let field : Field := { name := "size", initial := .property .absent "size", owner := "Service" }
  { name := .text ""
    classes := [{ name := "Service"
                  modifiers := { isFinal := true }
                  annotations := [{ name := "Commons" }]
                  fields := [field] }] }

open Document in
theorem ofDocument_looseDocument : ofDocument looseDocument = .ok looseUnit := by
  have hsize : Expr.ofDocument
      (.mapping [(.text "object", .null), (.text "property", .text "size"), (.text "type", .text "property")])
        = .ok (.property .absent "size") :=
    Expr.ofDocument_of_property (by simp) (by simp; rfl) (Expr.ofDocument_toDocument .absent) (by simp)
  have hmodifiers : Modifiers.ofDocuments [.text "Final", .text "NONE"] = .ok { isFinal := true } := rfl
  have hempty : Modifiers.ofDocuments [] = .ok {} := rfl
  simp [looseDocument, record, ofDocument, ClassDecl.ofDocument, Field.ofDocument, Annotation.ofDocument,
    Document.entries, requiredText, required, asText, asScalar, membersOr, members, hsize, hmodifiers, hempty, bind, Except.bind,
    pure, Except.pure, looseUnit, Annotation.membersOfDocument, TypeRef.optionOfDocument]

end CompilationUnit

open CompilationUnit in
/-- The loose document is read, the unit gets its logger, and then it comes back from its own document. -/
theorem looseUnit_comes_back_with_its_logger :
    let run := looseUnit.transform none .empty false
    ofDocument looseDocument = .ok looseUnit ∧ (∃ report, run.result = .ok report ∧ report.classes.length = 1) ∧
      ofDocument run.unit.toDocument = .ok run.unit := by
  intro run
  refine ⟨ofDocument_looseDocument, ?_, ?_⟩
  · exact ⟨_, result_transform_of_ofClasses (ClassesOutcome.ofClasses_of_commons rfl rfl _), rfl⟩
  · exact documents_lose_nothing.2 looseUnit run.unit (.document looseDocument ofDocument_looseDocument)
      (.run none .empty false .refl)

end GuardedLogging
