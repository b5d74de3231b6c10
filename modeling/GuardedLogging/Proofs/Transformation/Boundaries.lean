import GuardedLogging.Proofs.CompilationUnit.BrokenNames
import GuardedLogging.Proofs.Transformation.Run
import GuardedLogging.Proofs.Transformation.Written

/-!
# Where written statements end

Statements are written one a line, and a reader does not see where lines end: an expression goes on as far as it can. So what is read is the unit with its statements joined, if the text is read at all, and a unit keeps its statements exactly if none of them join. Signs, names that are not ASCII, and variables in front of a parenthesis make a text that is not read.
-/

namespace GuardedLogging

/-- For each statement of the method, whether it returns. -/
def Method.statementKinds (method : Method) : List Bool := method.body.map (·.returns)

/-- For each class of the unit and each of its methods, the kinds of its statements. -/
def CompilationUnit.statementKinds (unit : CompilationUnit) : List (String × List (String × List Bool)) :=
  unit.classes.map fun decl =>
    (decl.name, decl.methods.map fun method => (method.name, method.statementKinds))

/-- The unit was parsed, or it is the outcome of a transformation, whatever the loggers are called. -/
inductive CompilationUnit.Becomes (parsed : CompilationUnit) : CompilationUnit → Prop
  | parsed : Becomes parsed parsed
  | transformed (state : BindingState) (classPath : ClassPath) (skipSimple : Bool) (report : UnitReport)
      (hstate : ∀ binding ∈ state, binding.IsResolved)
      (hresult : (parsed.transform state classPath skipSimple).result = .ok report) :
      Becomes parsed (parsed.transform state classPath skipSimple).unit

/-! ### What a transformation leaves -/

namespace LoggerRequest

variable {mark : Annotation}

theorem fieldNameOf_of_ofMark {request : LoggerRequest} (h : ofMark mark = .ok request) :
    fieldNameOf mark = .ok request.fieldName := by
  unfold ofMark at h
  simp only at h
  split at h
  · cases hname : fieldNameOf mark with
    | error cause =>
      rw [hname] at h
      cases h
    | ok name =>
      cases hstrategy : strategyOf mark with
      | error cause =>
        rw [hname, hstrategy] at h
        cases h
      | ok strategy =>
        rw [hname, hstrategy] at h
        cases h
        rfl
  · cases h

theorem isIdentifier_of_fieldNameOf {name : String} (h : fieldNameOf mark = .ok name) :
    isIdentifier name = true := by
  unfold fieldNameOf at h
  split at h
  · cases h
    decide
  · split at h
    · rename_i hidentifier
      cases h
      exact hidentifier
    · cases h
  · cases h

end LoggerRequest

variable {binding : FacadeBinding} {declared : List String} {package : String} {skipSimple : Bool}

theorem ClassDecl.IsWritten.isSaid {decl : ClassDecl} (hdeclared : ∀ name ∈ declared, isName name = true)
    (h : decl.IsWritten package TypeRef.IsDotted (Expr.IsWritten (declared.map (qualify package)))) :
    decl.IsWritten package (TypeRef.IsSaid (declared.map (qualify package)))
      (Expr.IsWritten (declared.map (qualify package))) :=
  h.imp (fun _ _ hdotted => TypeRef.isDottedName_toSource hdeclared hdotted) fun _ _ => id

theorem ClassDecl.TransformsTo.isWritten_or {decl : ClassDecl} {result : ClassDecl × Option ClassReport}
    (hdeclared : ∀ name ∈ declared, isName name = true)
    (hpackage : package = "" ∨ isDottedName package = true) (hbinding : binding.IsResolved)
    (h : decl.IsWritten package TypeRef.IsDotted (Expr.IsWritten (declared.map (qualify package))))
    (hresult : decl.TransformsTo binding skipSimple result) :
    result.1.IsWritten package (TypeRef.IsSaid (declared.map (qualify package)))
        (Expr.IsWritten (declared.map (qualify package))) ∨
      ∃ field, result.1.HasBrokenName (declared.map (qualify package)) field := by
  rcases ClassDecl.transformsTo_iff.mp hresult with ⟨_, rfl⟩ | ⟨changed, report, htransform, rfl⟩
  · exact .inl (h.isSaid hdeclared)
  · obtain ⟨mark, request, strategy, _, haccept, rfl, rfl⟩ :=
      ClassDecl.transform_eq_ok_some_iff.mp htransform
    obtain ⟨hrequest, _, hnew⟩ := ClassDecl.accept_eq_ok_iff.mp haccept
    cases hname : isName request.fieldName with
    | true =>
      have hwritten : (decl.withLogger binding ⟨request.fieldName, skipSimple⟩).IsWritten package
          TypeRef.IsDotted (Expr.IsWritten (declared.map (qualify package))) :=
        ClassDecl.isWritten_withLogger hdeclared hpackage hbinding hname hnew h
      exact .inl (hwritten.isSaid hdeclared)
    | false =>
      refine .inr ⟨binding.loggerField decl request.fieldName, h.simpleName,
        fun mark hmark => h.annotations mark (List.mem_of_mem_eraseP hmark), ⟨_, rfl⟩, ?_,
        LoggerRequest.isIdentifier_of_fieldNameOf (LoggerRequest.fieldNameOf_of_ofMark hrequest), hname⟩
      rintro known hknown
      cases Option.mem_some.mp hknown
      exact TypeRef.isDottedName_toSource hdeclared (FacadeBinding.isDotted_logger hbinding)

theorem ClassesOutcome.isWritten_or {decls : List ClassDecl} {results : List (ClassDecl × Option ClassReport)}
    (hdeclared : ∀ name ∈ declared, isName name = true)
    (hpackage : package = "" ∨ isDottedName package = true) (hbinding : binding.IsResolved)
    (h : ∀ decl ∈ decls, decl.IsWritten package TypeRef.IsDotted
      (Expr.IsWritten (declared.map (qualify package))))
    (hresults : List.Forall₂ (ClassDecl.TransformsTo binding skipSimple) decls results) :
    ∀ decl ∈ results.map (·.1),
      decl.IsWritten package (TypeRef.IsSaid (declared.map (qualify package)))
          (Expr.IsWritten (declared.map (qualify package))) ∨
        ∃ field, decl.HasBrokenName (declared.map (qualify package)) field := by
  induction hresults with
  | nil => exact List.forall_mem_nil _
  | cons hresult _ ih =>
    obtain ⟨hdecl, hdecls⟩ := List.forall_mem_cons.mp h
    exact List.forall_mem_cons.mpr
      ⟨hresult.isWritten_or hdeclared hpackage hbinding hdecl, ih hdecls⟩

namespace CompilationUnit

variable {unit parsed : CompilationUnit}

theorem IsWritten.isSaid (h : unit.IsWritten TypeRef.IsDotted (Expr.IsWritten unit.classNames)) :
    unit.IsWritten (TypeRef.IsSaid unit.classNames) (Expr.IsWritten unit.classNames) := by
  have hdeclared := isName_of_mem_simpleNames h
  refine h.imp (fun _ _ _ _ hdotted => ?_) fun _ _ _ _ => id
  rw [classNames_eq h]
  exact TypeRef.isDottedName_toSource hdeclared hdotted

theorem isWritten_or_of_classes (htext : unit.package = .text unit.packageName)
    (hpackage : unit.packageName = "" ∨ isDottedName unit.packageName = true)
    (hdistinct : unit.classNames.Nodup)
    (h : ∀ decl ∈ unit.classes,
      decl.IsWritten unit.packageName (TypeRef.IsSaid unit.classNames) (Expr.IsWritten unit.classNames) ∨
        ∃ field, decl.HasBrokenName unit.classNames field) :
    unit.IsWritten (TypeRef.IsSaid unit.classNames) (Expr.IsWritten unit.classNames) ∨
      unit.HasBrokenName := by
  rcases forall_mem_or_exists_first h with hall | ⟨earlier, decl, later, hsplit, hearlier, hdecl⟩
  · exact .inl ⟨htext, hpackage, hall, hdistinct⟩
  · exact .inr ⟨htext, hpackage, hdistinct, earlier, decl, later, hsplit, hearlier, hdecl⟩

theorem Becomes.isWritten_or (hparsed : parsed.IsWritten TypeRef.IsParsed Expr.IsParsed)
    (h : parsed.Becomes unit) :
    unit.IsWritten (TypeRef.IsSaid unit.classNames) (Expr.IsWritten unit.classNames) ∨
      unit.HasBrokenName := by
  have hwritten := isWritten_of_isParsed hparsed
  have hdeclared := isName_of_mem_simpleNames hwritten
  have hdecls := hwritten.classes
  have hnames := classNames_eq hwritten
  rw [hnames] at hdecls
  cases h with
  | parsed => exact .inl hwritten.isSaid
  | transformed state classPath skipSimple report hstate hresult =>
    obtain ⟨results, hresults, hunit, _⟩ := exists_results_of_transform hresult
    have hall := ClassesOutcome.isWritten_or hdeclared hwritten.package
      (state.isResolved_settle hstate (classPath.withUnit parsed)) hdecls hresults
    have hclassNames : classNames { parsed with classes := results.map (·.1) } = parsed.classNames :=
      ClassesOutcome.map_name_results hresults
    rw [hunit]
    refine isWritten_or_of_classes hwritten.text hwritten.package ?_ ?_
    · rw [hclassNames]
      exact hwritten.distinct
    · rw [hclassNames, hnames]
      exact hall

/-- The kinds of the statements of a unit do not change where it is read in a scope. -/
theorem statementKinds_reread (scope : NameScope) (unit : CompilationUnit) :
    (unit.reread scope).statementKinds = unit.statementKinds := by
  simp only [statementKinds, Method.statementKinds, reread, ClassDecl.reread, Method.reread,
    Statement.reread, List.map_map, Function.comp_def]

/-- Joined statements are of the same kinds as the statements that they are made of if and only if none are joined. -/
theorem statementKinds_joined_iff : unit.joined.statementKinds = unit.statementKinds ↔ unit.JoinsNone := by
  have hmethod : ∀ method : Method, (method.joined unit.classNames).statementKinds = method.statementKinds ↔
      method.JoinsNone unit.classNames := fun method => Statement.map_returns_joinAll_iff
  have hdecl : ∀ decl : ClassDecl,
      (decl.joined unit.classNames).methods.map (fun method => (method.name, method.statementKinds))
        = decl.methods.map (fun method => (method.name, method.statementKinds)) ↔
      decl.JoinsNone unit.classNames := by
    intro decl
    rw [ClassDecl.joined, List.map_map, List.map_inj_left]
    exact forall₂_congr fun method _ => Prod.ext_iff.trans ((and_iff_right rfl).trans (hmethod method))
  rw [statementKinds, statementKinds, joined, List.map_map, List.map_inj_left]
  exact forall₂_congr fun decl _ => Prod.ext_iff.trans ((and_iff_right rfl).trans (hdecl decl))

theorem IsWritten.lexemes_of_tokenize {indent : String} {list : TokenList} (hindent : IsIndent indent)
    (h : unit.IsWritten (TypeRef.IsSaid unit.classNames) (Expr.IsWritten unit.classNames))
    (htokenize : tokenize (unit.toSource indent) = .ok list) :
    list.tokens.map Token.lexeme = unit.lexemes := by
  have hspelled : unit.IsWritten (TypeRef.IsSaid unit.classNames)
      (Expr.IsSpelled (.ifAtAll (· = [])) unit.classNames) :=
    h.imp (fun _ _ _ _ => id) fun _ _ _ _ hexpr => hexpr.isSpelled_ifAtAll _
  have hmarks : ∀ decl ∈ unit.classes, ∀ mark ∈ decl.annotations,
      mark.IsSpelled (.ifAtAll (· = [])) :=
    fun decl hdecl mark hmark => ((h.classes decl hdecl).annotations mark hmark).isSpelled_ifAtAll _
  have hend : (Scan.Cutting.ifAtAll (· = [])).Relates [] [] := by
    intro all hall
    cases hall with
    | nil => exact ⟨[], rfl, rfl⟩
    | piece hpiece _ => cases hpiece
  obtain ⟨tail, rfl, hlexemes⟩ :=
    relates_toSource hindent hspelled hmarks hend _ (Scan.cut_of_tokensFrom htokenize)
  rwa [List.append_nil] at hlexemes

/-- A unit that can be written is read back with its joined statements in the scope of its text, if it is read back at all. -/
theorem IsWritten.eq_reread {indent : String} {reread : CompilationUnit} (hindent : IsIndent indent)
    (h : unit.IsWritten (TypeRef.IsSaid unit.classNames) (Expr.IsWritten unit.classNames))
    (hread : unit.readBack indent = .ok reread) :
    reread = unit.joined.reread ⟨unit.packageName, [], classWords unit.lexemes⟩ := by
  obtain ⟨list, htokenize, _, htokens⟩ := exists_tokenize_of_parse hread
  have hlexemes := h.lexemes_of_tokenize hindent htokenize
  rw [← hlexemes, ← wordsAfterClass_eq]
  exact eq_reread_joined h hlexemes htokens

theorem IsWritten.exists_eq_reread {indent : String} {reread : CompilationUnit} (hindent : IsIndent indent)
    (h : unit.IsWritten (TypeRef.IsSaid unit.classNames) (Expr.IsWritten unit.classNames))
    (hread : unit.readBack indent = .ok reread) : ∃ scope, reread = unit.joined.reread scope :=
  ⟨_, h.eq_reread hindent hread⟩

theorem IsWritten.isExact {types : TypeRef → Prop}
    (h : unit.IsWritten types (Expr.IsWritten unit.classNames)) (hintegers : unit.HasIntegersOnly) :
    unit.IsWritten types (Expr.IsExact unit.classNames) :=
  h.imp (fun _ _ _ _ => id) fun decl hdecl entry hentry hwritten node hnode =>
    ⟨hwritten node hnode, hintegers.exprs decl hdecl entry hentry node hnode⟩

/-- A unit without fractions is read back with its joined statements in a scope, unless one of them runs into the next. -/
theorem IsWritten.exists_readBack_eq {indent : String} (hindent : IsIndent indent)
    (h : unit.IsWritten (TypeRef.IsSaid unit.classNames) (Expr.IsWritten unit.classNames))
    (hintegers : unit.HasIntegersOnly)
    (hapart : ∀ decl ∈ unit.joined.classes, ∀ method ∈ decl.methods, method.KeepsApart unit.classNames) :
    ∃ scope, unit.readBack indent = .ok (unit.joined.reread scope) := by
  obtain ⟨list, htokenize, hlexemes⟩ :=
    exists_tokenize_eq hindent (h.isExact hintegers) hintegers.annotations
  exact ⟨_, (readBack_eq_ofTokens htokenize).trans (ofTokens_eq_reread_joined h hapart hlexemes)⟩

end CompilationUnit

open CompilationUnit in
/-- If the text of a unit that came from a source is read, then as a unit that has the same classes and methods with as many statements of the same kinds, if and only if no two of its statements join. -/
theorem statements_stay_apart_iff (source : String) (name : Scalar) (parsed unit reread : CompilationUnit)
    (indent : String) (hparse : parse source name = .ok parsed) (hunit : parsed.Becomes unit)
    (hindent : IsIndent indent) (hread : unit.readBack indent = .ok reread) :
    reread.statementKinds = unit.statementKinds ↔ unit.JoinsNone := by
  rcases hunit.isWritten_or (isParsed_of_parse hparse) with hwritten | hbroken
  · obtain ⟨scope, rfl⟩ := hwritten.exists_eq_reread hindent hread
    rw [statementKinds_reread]
    exact statementKinds_joined_iff
  · exact absurd hread (hbroken.readBack_ne_ok hindent reread)

/-- A class that asks for a logger and has one method. -/
def ClassDecl.chainedClass (body : List Statement) : ClassDecl :=
  { name := "A"
    annotations := [{ name := "Commons" }]
    methods := [{ name := "m", parameters := [{ name := "a" }], body }] }

theorem ClassDecl.isWritten_chainedClass {body : List Statement}
    (h : ∀ statement ∈ body, statement.expr.IsParsed) :
    (chainedClass body).IsWritten "" TypeRef.IsParsed Expr.IsParsed := by
  have hdot : '.' ∉ "A".toList := by decide
  have hsimple : (chainedClass body).simpleName = "A" := lastPart_eq_self hdot
  have hname : isName "A" = true ∧ isName "m" = true ∧ isName "a" = true := by decide
  have hparameters : ∀ parameter ∈ [({ name := "a" } : Parameter)], parameter.IsWritten TypeRef.IsParsed :=
    List.forall_mem_singleton.mpr ⟨hname.2.2, nofun⟩
  exact
    { fields := List.forall_mem_nil _
      distinct := List.nodup_nil
      methods := List.forall_mem_singleton.mpr
        ⟨hname.2.1, nofun, hparameters, List.nodup_singleton "a", h⟩
      simpleName := hsimple ▸ hname.1
      name := hsimple ▸ rfl
      annotations := List.forall_mem_singleton.mpr ⟨by decide, nofun, List.nodup_nil⟩ }

namespace CompilationUnit

def chainedUnit (body : List Statement) : CompilationUnit :=
  { name := .text "Script", classes := [.chainedClass body] }

theorem isWritten_chainedUnit {body : List Statement} (h : ∀ statement ∈ body, statement.expr.IsParsed) :
    (chainedUnit body).IsWritten TypeRef.IsParsed Expr.IsParsed where
  text := rfl
  package := .inl rfl
  classes := List.forall_mem_singleton.mpr (ClassDecl.isWritten_chainedClass h)
  distinct := List.nodup_singleton "A"

theorem transform_chainedUnit {body : List Statement} (h : ∀ statement ∈ body, statement.expr.IsParsed) :
    let unit := ((chainedUnit body).transform none .empty false).unit
    (chainedUnit body).Becomes unit ∧
      unit.IsWritten (TypeRef.IsSaid unit.classNames) (Expr.IsWritten unit.classNames) := by
  intro unit
  let report : UnitReport := ⟨(chainedUnit body).name, [(ClassDecl.chainedClass body).report
    ⟨LoggerRequest.defaultFieldName, false⟩ Strategy.commonsName]⟩
  have hresult : ((chainedUnit body).transform none .empty false).result = .ok report :=
    result_transform_of_ofClasses (ClassesOutcome.ofClasses_of_commons rfl rfl _)
  have hnames : ∀ decl ∈ report.classes, isName decl.fieldName = true :=
    List.forall_mem_singleton.mpr (show isName LoggerRequest.defaultFieldName = true by decide)
  have hwritten := isWritten_of_isParsed (isWritten_chainedUnit h)
  have hstate : ∀ binding ∈ (none : BindingState), binding.IsResolved := nofun
  exact ⟨.transformed none .empty false report hstate hresult,
    (isWritten_transform hstate hwritten hresult hnames).isSaid⟩

end CompilationUnit

open CompilationUnit in
/-- A call of what a logging call returns starts with a parenthesis once it is guarded; it stays a statement of its own behind a call. -/
theorem chained_calls_stay_apart :
    let first : Statement := ⟨false, .call (.var "a") "b" []⟩
    let second : Statement := ⟨false, .call (.call (.var "log") "debug" [.var "a"]) "c" []⟩
    let parsed := chainedUnit [first, second]
    let unit := (parsed.transform none .empty false).unit
    parse parsed.toSource parsed.name = .ok parsed ∧ parsed.Becomes unit ∧ IsIndent "  " ∧
      ∃ reread, unit.readBack "  " = .ok reread ∧
        ¬unit.IsSeparated ∧ unit.JoinsNone ∧ reread.statementKinds = unit.statementKinds := by
  intro first second parsed unit
  have hexprs : ∀ statement ∈ [first, second], statement.expr.IsParsed := by decide
  have hparse : parse parsed.toSource parsed.name = .ok parsed :=
    parse_toSource (isWritten_chainedUnit hexprs) ⟨by decide, by decide⟩ (by decide +kernel)
      ⟨by decide, by decide⟩ ⟨by decide, by decide, by decide, by decide⟩
  obtain ⟨hbecomes, hwritten⟩ := transform_chainedUnit hexprs
  have hindent : IsIndent "  " := by decide +kernel
  have hintegers : unit.HasIntegersOnly := ⟨by decide +kernel, by decide +kernel⟩
  obtain ⟨scope, hread⟩ := hwritten.exists_readBack_eq hindent hintegers (by decide +kernel)
  have hjoins : unit.JoinsNone := by decide +kernel
  have hsame := (statements_stay_apart_iff _ _ _ _ _ _ hparse hbecomes hindent hread).mpr hjoins
  exact ⟨hparse, hbecomes, hindent, _, hread, by decide +kernel, hjoins, hsame⟩

open CompilationUnit in
/-- Behind a property it does not: the two are read as one call. -/
theorem chained_call_runs_into_property :
    let first : Statement := ⟨false, .property (.var "a") "b"⟩
    let second : Statement := ⟨false, .call (.call (.var "log") "debug" [.var "a"]) "c" []⟩
    let parsed := chainedUnit [first, second]
    let unit := (parsed.transform none .empty false).unit
    parse parsed.toSource parsed.name = .ok parsed ∧ parsed.Becomes unit ∧
      ∃ reread, unit.readBack "  " = .ok reread ∧ reread.statementKinds ≠ unit.statementKinds := by
  intro first second parsed unit
  have hexprs : ∀ statement ∈ [first, second], statement.expr.IsParsed := by decide
  have hparse : parse parsed.toSource parsed.name = .ok parsed :=
    parse_toSource (isWritten_chainedUnit hexprs) ⟨by decide, by decide⟩ (by decide +kernel)
      ⟨by decide, by decide⟩ ⟨by decide, by decide, by decide, by decide⟩
  obtain ⟨hbecomes, hwritten⟩ := transform_chainedUnit hexprs
  have hindent : IsIndent "  " := by decide +kernel
  have hintegers : unit.HasIntegersOnly := ⟨by decide +kernel, by decide +kernel⟩
  obtain ⟨scope, hread⟩ := hwritten.exists_readBack_eq hindent hintegers (by decide +kernel)
  refine ⟨hparse, hbecomes, _, hread, ?_⟩
  rw [statementKinds_reread]
  exact statementKinds_joined_iff.not.mpr (by decide +kernel)

end GuardedLogging
