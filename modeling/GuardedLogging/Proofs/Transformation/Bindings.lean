import GuardedLogging.Proofs.Transformation.Run
import GuardedLogging.Proofs.Transformation.Written

/-!
# One binding between two resets

What a program does with the facade is a sequence of operations. Any of them may be the first to need a binding, and may fail after it has settled it. From then on the operations see that binding, whatever class paths they come with, and the fields that they add refer to its types; a reset begins anew.
-/

namespace GuardedLogging

/-! ### The fields that a transformation adds -/

/-- The fields in front of as many as there were before. -/
def ClassDecl.addedFields (before after : ClassDecl) : List Field :=
  after.fields.take (after.fields.length - before.fields.length)

/-- The fields added to the classes of a unit. -/
def CompilationUnit.addedFields (before after : CompilationUnit) : List Field :=
  (List.zipWith ClassDecl.addedFields before.classes after.classes).flatten

/-- A field holds a logger of the binding's type, made by the binding's factory. -/
structure FacadeBinding.IsCarriedBy (binding : FacadeBinding) (field : Field) : Prop where
  type : field.type = some binding.logger
  initial : ∃ decl : ClassDecl, field.owner = decl.name ∧
    field.initial = .call (.classRef binding.factory) Facade.factoryMethod [.classRef decl.type]

section AddedFields

variable {binding : FacadeBinding} {skipSimple : Bool}

theorem FacadeBinding.isCarriedBy_loggerField (decl : ClassDecl) (name : String) :
    binding.IsCarriedBy (binding.loggerField decl name) :=
  ⟨rfl, decl, rfl, rfl⟩

namespace ClassDecl

theorem addedFields_self (decl : ClassDecl) : decl.addedFields decl = [] := by
  rw [addedFields, Nat.sub_self, List.take_zero]

theorem addedFields_withLogger (decl : ClassDecl) (guarding : Guarding) :
    decl.addedFields (decl.withLogger binding guarding) = [binding.loggerField decl guarding.logger] := by
  have hone : (decl.withLogger binding guarding).fields.length - decl.fields.length = 1 := by
    simp [withLogger]
  rw [addedFields, hone]
  rfl

theorem addedFields_of_transform {decl changed : ClassDecl} {report : ClassReport}
    (h : decl.transform binding skipSimple = .ok (some (changed, report))) :
    decl.addedFields changed = [binding.loggerField decl report.fieldName] := by
  obtain ⟨mark, request, strategy, _, _, rfl, rfl⟩ := transform_eq_ok_some_iff.mp h
  exact decl.addedFields_withLogger _

theorem TransformsTo.isCarriedBy {decl : ClassDecl} {result : ClassDecl × Option ClassReport}
    (h : decl.TransformsTo binding skipSimple result) : ∀ field ∈ decl.addedFields result.1, binding.IsCarriedBy field := by
  rcases transformsTo_iff.mp h with ⟨_, rfl⟩ | ⟨changed, report, htransform, rfl⟩
  · simp [addedFields_self]
  · rw [addedFields_of_transform htransform, List.forall_mem_singleton]
    exact FacadeBinding.isCarriedBy_loggerField decl report.fieldName

theorem isCarriedBy_transformInPlace (decl : ClassDecl) :
    ∀ field ∈ decl.addedFields (decl.transformInPlace binding skipSimple).decl, binding.IsCarriedBy field := by
  rcases decl.transformInPlace_cases binding skipSimple with ⟨error, _, hrun⟩ | ⟨result, hresult, hrun⟩
  · rw [hrun, addedFields_self]
    exact List.forall_mem_nil _
  · rw [hrun]
    exact hresult.isCarriedBy

end ClassDecl

/-- A run adds fields of its binding only, whether it ends with an error or not. -/
theorem ClassesOutcome.isCarriedBy_added (decls : List ClassDecl) :
    ∀ field ∈ (List.zipWith ClassDecl.addedFields decls (ofClasses binding skipSimple decls).classes).flatten,
      binding.IsCarriedBy field := by
  induction decls with
  | nil => exact List.forall_mem_nil _
  | cons decl rest ih =>
    rcases ofClasses_cons decl rest with ⟨error, _, hrun⟩ | ⟨result, hresult, hrun⟩
    · -- The class is refused, so nothing is added here or later.
      rw [hrun, List.zipWith_self]
      simp [ClassDecl.addedFields_self]
    · rw [hrun, List.zipWith_cons_cons, List.flatten_cons, List.forall_mem_append]
      exact ⟨hresult.isCarriedBy, ih⟩

theorem CompilationUnit.isCarriedBy_added (unit : CompilationUnit) (state : BindingState) (classPath : ClassPath)
    (skipSimple : Bool) : ∀ field ∈ unit.addedFields (unit.transform state classPath skipSimple).unit,
      (state.settle (classPath.withUnit unit)).IsCarriedBy field :=
  ClassesOutcome.isCarriedBy_added unit.classes

end AddedFields

/-! ### Operations and what they do -/

namespace Facade

/-- What a program can do that may need the binding or forget it. A strategy may be given its binding; a bare one is not. -/
inductive Operation where
  | transformUnit (classPath : ClassPath) (skipSimple : Bool) (unit : CompilationUnit)
  | transformClass (classPath : ClassPath) (skipSimple : Bool) (decl : ClassDecl)
  | lookUp (classPath : ClassPath)
  | bareStrategy
  | reset

/-- What an operation did: the binding that it saw if it consulted one, the fields that it added, and the error that it ended with. -/
structure Effect where
  seen : Option FacadeBinding := none
  added : List Field := []
  error : Option TransformError := none

namespace Operation

/-- The class path with which an operation consults the binding; none if it does not. -/
def classPath? : Operation → Option ClassPath
  | transformUnit classPath _ unit => some (classPath.withUnit unit)
  | transformClass classPath _ decl => decl.request?.map fun _ => classPath.extended [decl.name]
  | lookUp classPath => some classPath
  | bareStrategy => some .empty
  | reset => none

/-- The binding in force after an operation, and what the operation did. -/
def step (state : BindingState) : Operation → BindingState × Effect
  | transformUnit classPath skipSimple unit =>
    let outcome := unit.transform state classPath skipSimple
    (some outcome.binding,
      { seen := some outcome.binding
        added := unit.addedFields outcome.unit
        error := match outcome.result with
          | .error error => some error
          | .ok _ => none })
  | transformClass classPath skipSimple decl =>
    let (after, outcome) := decl.transformAlone state classPath skipSimple
    (after,
      { seen := if decl.request?.isSome then after else none
        added := decl.addedFields outcome.decl
        error := match outcome.result with
          | .error error => some error
          | .ok _ => none })
  | lookUp classPath => (some (state.settle classPath), { seen := some (state.settle classPath) })
  | bareStrategy => (some (state.settle .empty), { seen := some (state.settle .empty) })
  | reset => (none, {})

/-- The operations, each with what it did. -/
def trace : BindingState → List Operation → List (Operation × Effect)
  | _, [] => []
  | state, operation :: rest => (operation, (operation.step state).2) :: trace (operation.step state).1 rest

/-- The binding in force after the operations. -/
def stateAfter (state : BindingState) (operations : List Operation) : BindingState :=
  operations.foldl (fun state operation => (operation.step state).1) state

theorem trace_append (state : BindingState) (first second : List Operation) :
    trace state (first ++ second) = trace state first ++ trace (stateAfter state first) second := by
  induction first generalizing state with
  | nil => rfl
  | cons operation rest ih => exact congrArg _ (ih _)

theorem map_fst_trace (state : BindingState) (operations : List Operation) :
    (trace state operations).map (·.1) = operations := by
  induction operations generalizing state with
  | nil => rfl
  | cons operation rest ih => exact congrArg _ (ih _)

/-! ### One step -/

variable {operation : Operation} {state : BindingState}

theorem some_settle (state : BindingState) (classPath : ClassPath) :
    some (state.settle classPath) = state.or (some (.resolve classPath)) := by
  cases state with
  | none => rfl
  | some binding => rfl

theorem step_state (h : operation ≠ .reset) :
    (operation.step state).1 = state.or (operation.classPath?.map .resolve) := by
  cases operation with
  | transformUnit classPath skipSimple unit => exact some_settle state _
  | transformClass classPath skipSimple decl =>
    simp only [step, classPath?, ClassDecl.transformAlone]
    cases decl.request? with
    | none => exact Option.or_none.symm
    | some mark => exact some_settle state _
  | lookUp classPath => exact some_settle state _
  | bareStrategy => exact some_settle state _
  | reset => exact absurd rfl h

theorem step_seen : (operation.step state).2.seen = operation.classPath?.map state.settle := by
  cases operation with
  | transformClass classPath skipSimple decl =>
    simp only [step, classPath?, ClassDecl.transformAlone]
    cases decl.request? with
    | none => rfl
    | some mark => rfl
  | _ => rfl

theorem step_added : ∀ field ∈ (operation.step state).2.added,
    ∃ binding, (operation.step state).2.seen = some binding ∧ binding.IsCarriedBy field := by
  cases operation with
  | transformUnit classPath skipSimple unit =>
    exact fun field hfield => ⟨_, rfl, unit.isCarriedBy_added state classPath skipSimple field hfield⟩
  | transformClass classPath skipSimple decl =>
    intro field hfield
    simp only [step, ClassDecl.transformAlone] at hfield ⊢
    cases hrequest : decl.request? with
    | none =>
      rw [hrequest, ClassDecl.addedFields_self] at hfield
      cases hfield
    | some mark =>
      rw [hrequest] at hfield
      exact ⟨_, rfl, decl.isCarriedBy_transformInPlace field hfield⟩
  | _ => exact List.forall_mem_nil _

/-! ### Runs without a reset -/

/-- The binding that operations without a reset come to: the one in force before, or else what the first class path has. -/
def settling (state : BindingState) (operations : List Operation) : Option FacadeBinding :=
  state.or ((operations.findSome? classPath?).map .resolve)

theorem settling_step (h : operation ≠ .reset) (rest : List Operation) :
    settling (operation.step state).1 rest = settling state (operation :: rest) := by
  rw [settling, step_state h, settling, List.findSome?_cons]
  cases state with
  | some binding => rfl
  | none =>
    cases operation.classPath? with
    | none => rfl
    | some classPath => rfl

/-- An operation that consults the binding and sees it, or does not and sees none; what it adds carries that binding. -/
structure Accords (binding? : Option FacadeBinding) (entry : Operation × Effect) : Prop where
  seen : entry.2.seen = entry.1.classPath?.bind fun _ => binding?
  added : ∀ field ∈ entry.2.added, ∃ binding, entry.2.seen = some binding ∧ binding.IsCarriedBy field

theorem accords_step (rest : List Operation) :
    Accords (settling state (operation :: rest)) (operation, (operation.step state).2) where
  seen := by
    rw [step_seen, settling, List.findSome?_cons]
    cases operation.classPath? with
    | none => rfl
    | some classPath => exact some_settle state classPath
  added := step_added

/-- Without a reset, all operations see what they come to together. -/
theorem accords_of_mem_trace {operations : List Operation} (h : ∀ operation ∈ operations, operation ≠ .reset) :
    ∀ entry ∈ trace state operations, Accords (settling state operations) entry := by
  induction operations generalizing state with
  | nil => exact List.forall_mem_nil _
  | cons operation rest ih =>
    obtain ⟨hoperation, hrest⟩ := List.forall_mem_cons.mp h
    rw [trace, List.forall_mem_cons]
    refine ⟨accords_step rest, ?_⟩
    -- What the rest comes to is what all of them come to, since the first step takes no binding away.
    rw [← settling_step hoperation rest]
    exact ih hrest

theorem Accords.of_idle {binding? : Option FacadeBinding} {entry : Operation × Effect} (h : Accords binding? entry)
    (hidle : entry.1.classPath? = none) : entry.2.seen = none ∧ entry.2.added = [] := by
  have hnone : entry.2.seen = none := by rw [h.seen, hidle, Option.bind_none]
  refine ⟨hnone, List.eq_nil_iff_forall_not_mem.mpr fun field hfield => ?_⟩
  obtain ⟨binding, hsome, _⟩ := h.added field hfield
  cases hnone.symm.trans hsome

theorem Accords.of_consulting {binding : FacadeBinding} {entry : Operation × Effect} (h : Accords (some binding) entry)
    (hconsults : entry.1.classPath? ≠ none) :
    entry.2.seen = some binding ∧ ∀ field ∈ entry.2.added, binding.IsCarriedBy field := by
  obtain ⟨classPath, hpath⟩ := Option.ne_none_iff_exists'.mp hconsults
  have hsome : entry.2.seen = some binding := by rw [h.seen, hpath, Option.bind_some]
  refine ⟨hsome, fun field hfield => ?_⟩
  obtain ⟨other, hother, hcarried⟩ := h.added field hfield
  cases hsome.symm.trans hother
  exact hcarried

/-- Where some operation consults the binding, there is a first one. -/
theorem exists_first_of_mem_trace {operations : List Operation} {entry : Operation × Effect}
    (hentry : entry ∈ trace state operations) (hconsults : entry.1.classPath? ≠ none) :
    ∃ first, operations.findSome? classPath? = some first := by
  have hamong : entry.1 ∈ operations := map_fst_trace state operations ▸ List.mem_map_of_mem hentry
  refine Option.ne_none_iff_exists'.mp fun hnone => hconsults ?_
  exact List.findSome?_eq_none_iff.mp hnone entry.1 hamong

end Operation

open Operation

/-- There is one binding between two resets, whatever the operations before were: the operations that consult it see what the first class path among them has, and all fields that they add carry its types. The others see nothing and add nothing. -/
theorem one_binding_between_resets (state : BindingState) (earlier between later : List Operation)
    (h : ∀ operation ∈ between, operation ≠ .reset) :
    let during := trace none between
    trace state (earlier ++ .reset :: (between ++ later)) =
        trace state earlier ++ (.reset, {}) :: (during ++ trace (stateAfter none between) later) ∧
      ∀ entry ∈ during,
        (entry.1.classPath? = none → entry.2.seen = none ∧ entry.2.added = []) ∧
          (entry.1.classPath? ≠ none → ∃ first, between.findSome? classPath? = some first ∧
            entry.2.seen = some (.resolve first) ∧
              ∀ field ∈ entry.2.added, (FacadeBinding.resolve first).IsCarriedBy field) := by
  intro during
  constructor
  · rw [trace_append, trace, trace_append]
    rfl
  · intro entry hentry
    have haccords : Accords (settling none between) entry := accords_of_mem_trace h entry hentry
    refine ⟨haccords.of_idle, fun hconsults => ?_⟩
    obtain ⟨first, hfirst⟩ := exists_first_of_mem_trace hentry hconsults
    rw [settling, hfirst] at haccords
    exact ⟨first, hfirst, haccords.of_consulting hconsults⟩

/-- A class that asks for nothing leaves the binding open, a class that is refused settles it without the facade, and the service after them gets a logger of a type that was not found, though it comes with a class path that has it. -/
theorem sampleServices_share_one_binding :
    let idle : Operation := .transformClass .empty false { name := "Idle" }
    let failing : Operation := .transformClass .empty false .crowdedService
    let adding : Operation := .transformClass (.ofList [loggerTypeName, factoryTypeName]) false .sampleService
    let during := trace none [idle, failing, adding]
    (∀ operation ∈ [idle, failing, adding], operation ≠ .reset) ∧
      (∃ effect, (idle, effect) ∈ during ∧ effect.seen = none) ∧
      (∃ effect, (failing, effect) ∈ during ∧ effect.error ≠ none ∧
        effect.seen = some (.resolve (ClassPath.empty.extended ["Service"]))) ∧
      ∃ effect, (adding, effect) ∈ during ∧ ∃ field ∈ effect.added, field.type = some ⟨loggerTypeName, false⟩ := by
  intro idle failing adding during
  have hregular : ∀ operation ∈ [idle, failing, adding], operation ≠ .reset := by simp [idle, failing, adding]
  obtain ⟨_, hshared⟩ := one_binding_between_resets none [] [idle, failing, adding] [] hregular
  have hfirst : [idle, failing, adding].findSome? classPath? = some (ClassPath.empty.extended ["Service"]) := rfl
  have hrefused (state : BindingState) : (failing.step state).2.error
      = some ⟨"Service", .duplicateField LoggerRequest.defaultFieldName⟩ := by
    have herror (binding : FacadeBinding) : ClassDecl.crowdedService.transform binding false = .error _ :=
      ClassDecl.transform_eq_error_iff.mpr ClassDecl.isRefused_crowdedService
    show (match (ClassDecl.crowdedService.transformInPlace _ false).result with | .error error => some error | .ok _ => none) = _
    rw [ClassDecl.transformInPlace_eq, herror]
  have hadded (state : BindingState) : (adding.step state).2.added ≠ [] := by
    show ClassDecl.sampleService.addedFields (ClassDecl.sampleService.transformInPlace _ false).decl ≠ []
    rw [ClassDecl.transformInPlace_eq, ClassDecl.transform_sampleService]
    simp [ClassDecl.addedFields_withLogger]
  refine ⟨hregular, ⟨_, List.mem_cons_self, ?_⟩, ⟨_, List.mem_cons_of_mem _ List.mem_cons_self, ?_, ?_⟩,
    ⟨_, List.mem_cons_of_mem _ (List.mem_cons_of_mem _ List.mem_cons_self), ?_⟩⟩
  · exact ((hshared _ List.mem_cons_self).1 rfl).1
  · rw [hrefused]
    nofun
  · obtain ⟨first, hsettled, hseen, _⟩ := (hshared _ (List.mem_cons_of_mem _ List.mem_cons_self)).2 nofun
    cases hfirst.symm.trans hsettled
    exact hseen
  · obtain ⟨first, hsettled, _, hcarried⟩ :=
      (hshared _ (List.mem_cons_of_mem _ (List.mem_cons_of_mem _ List.mem_cons_self))).2 nofun
    cases hfirst.symm.trans hsettled
    obtain ⟨field, hfield⟩ := List.exists_mem_of_ne_nil _ (hadded _)
    exact ⟨field, hfield, (hcarried field hfield).type.trans (by decide +kernel)⟩

end Facade

end GuardedLogging
