import GuardedLogging.Evaluation.Recording
import GuardedLogging.Proofs.Evaluation.Preservation
import GuardedLogging.Proofs.Expr.Nodes
import GuardedLogging.Proofs.Transformation.Frame

/-!
# Loading and running guarded classes

The fields of a class are within reach of its own initial values, and of all objects that get to know the class. The logger of a transformed class keeps its meaning while the other fields get their values if the world leaves its entry alone, and from then on in any case, since a method runs with a copy of the fields.
-/

namespace GuardedLogging

variable {Object State Event : Type} {isCheck : Event → Bool} {enabled : Level → Bool}
  {world : World Object State Event} {logger : Value Object}

/-- If the class has a field by this name, it keeps the value, and the map in which it has its fields. -/
def Situation.KeepsField (ref : Nat) (name : String) (before after : Situation Object State) : Prop :=
  ∀ value, (before.fields ref).find? name = some value →
    after.mapOf ref = before.mapOf ref ∧ (after.fields ref).find? name = some value

namespace Guarding

variable {guarding : Guarding}

/-- While the fields behind the logger get their values, the logger keeps its own. -/
theorem follows_initializeFields (hskip : guarding.skipSimple = false)
    (hlogger : world.AnswersChecks isCheck enabled logger) {ref : Nat} {fields : List Field}
    (hfields : ∀ field ∈ fields, field.name ≠ guarding.logger) :
    (initializeFields world ref (fields.map guarding.guardField)).FollowsThroughout isCheck
      (Situation.KeepsField ref guarding.logger)
      (fun situation => (situation.fields ref).find? guarding.logger = some logger)
      (initializeFields world ref (fields.map (Field.mute guarding.logger enabled))) := by
  induction fields with
  | nil => exact .pure _
  | cons field rest ih =>
    obtain ⟨hfield, hrest⟩ := List.forall_mem_cons.mp hfields
    rw [List.map_cons, List.map_cons, initializeFields, initializeFields]
    refine .read_bind _ fun map => ?_
    have hstart : ((guarding.guardField field).start world (.live map)).FollowsThroughout isCheck
        (Situation.KeepsField ref guarding.logger)
        (fun situation => (situation.fields ref).find? guarding.logger = some logger ∧ situation.mapOf ref = map)
        ((field.mute guarding.logger enabled).start world (.live map)) := by
      apply follows_start hskip hlogger
      · intro situation ⟨hvalue, hmap⟩
        rwa [Situation.fields, hmap] at hvalue
      · intro before after hkeeps ⟨hvalue, hmap⟩
        exact ⟨(hkeeps logger hvalue).2, (hkeeps logger hvalue).1.trans hmap⟩
      · intro items situation h
        exact h
    refine hstart.bind fun value => (Run.Follows.change fun situation ⟨hvalue, _⟩ => ?_).bind fun _ => ih hrest
    show ((situation.setField ref field.name value).fields ref).find? guarding.logger = some logger
    rw [Situation.fields_setField, Scope.find?_define_of_ne _ _ hfield.symm, hvalue]

/-- A copy of the fields is out of the world's reach, so in a method nothing has to last. -/
theorem sameUpTo_runStatements (hskip : guarding.skipSimple = false)
    (hlogger : world.AnswersChecks isCheck enabled logger) {scope : Scope Object}
    (hname : scope.find? guarding.logger = some logger) (statements : List Statement) :
    (runStatements world (.fixed scope) (statements.map guarding.guardStatement)).SameUpTo isCheck
      (runStatements world (.fixed scope) (statements.map (Statement.mute guarding.logger enabled))) := by
  intro situation
  have hfollows : (runStatements world (.fixed scope) (statements.map guarding.guardStatement)).FollowsThroughout
      isCheck (fun _ _ => True) (fun _ => True)
      (runStatements world (.fixed scope) (statements.map (Statement.mute guarding.logger enabled))) := by
    apply follows_runStatements hskip hlogger
    · exact fun _ _ => hname
    · exact fun _ _ _ _ => trivial
    · exact fun _ _ _ => trivial
  exact (hfollows situation trivial fun _ _ => trivial).1

end Guarding

/-- The factory that is known where the class is being loaded, asked for its logger then, makes one that answers checks. -/
def World.MakesLogger (world : World Object State Event) (isCheck : Event → Bool) (enabled : Level → Bool)
    (binding : FacadeBinding) (decl : ClassDecl) (situation : Situation Object State) : Prop :=
  ∀ factory logger, (decl.register situation).types.find? binding.factory.name = some factory →
    (world.call factory Facade.factoryMethod [.loadedClass situation.made decl.name]
      (decl.register situation)).result = .ok logger →
        world.AnswersChecks isCheck enabled logger

/-- The class has a logger by this name, and it answers checks. -/
def World.HasLogger (world : World Object State Event) (isCheck : Event → Bool) (enabled : Level → Bool)
    (name : String) (ref : Nat) (situation : Situation Object State) : Prop :=
  ∃ logger, (situation.fields ref).find? name = some logger ∧ world.AnswersChecks isCheck enabled logger

namespace ClassDecl

variable {decl : ClassDecl} {binding : FacadeBinding} {guarding : Guarding} {situation : Situation Object State}

/-- The class in which the disabled calls are muted, with the logger field in front and no guards. -/
def reference (decl : ClassDecl) (binding : FacadeBinding) (logger : String)
    (enabled : Level → Bool) : ClassDecl :=
  (decl.mute logger enabled).addField (binding.loggerField decl logger)

/-- While the class is being loaded, the world leaves this field to it once it has a value. -/
def KeepsField (decl : ClassDecl) (world : World Object State Event) (name : String)
    (situation : Situation Object State) : Prop :=
  (decl.load world situation).Keeps (Situation.KeepsField situation.made name)

theorem makes_of_start_loggerField {name : String} {names : Names Object} {value : Value Object}
    (h : ((binding.loggerField decl name).start world names (decl.register situation)).result = .ok value) :
    ∃ factory, (decl.register situation).types.find? binding.factory.name = some factory ∧
      (world.call factory Facade.factoryMethod [.loadedClass situation.made decl.name]
        (decl.register situation)).result = .ok value := by
  have hstart : (binding.loggerField decl name).start world names
      = (do
        let factory ← (Expr.classRef binding.factory).evaluate world names
        let arguments ← Expr.evaluateAll world names [.classRef decl.type]
        world.call factory Facade.factoryMethod arguments) := rfl
  have hclass : (decl.register situation).types.find? decl.type.name
      = some (.loadedClass situation.made decl.name) := Scope.find?_define_self _ _ _
  have harguments : Expr.evaluateAll world names [.classRef decl.type] (decl.register situation)
      = ⟨.ok [.loadedClass situation.made decl.name], decl.register situation, []⟩ := by
    rw [Expr.evaluateAll, Run.bind_of_eq_ok (Expr.evaluate_classRef_of_find? hclass)]
    rfl
  rw [hstart] at h
  cases hfactory : (decl.register situation).types.find? binding.factory.name with
  | none =>
    simp only [Expr.evaluate, bind_assoc, Run.read_bind_apply, hfactory] at h
    cases h
  | some factory =>
    rw [Run.bind_of_eq_ok (Expr.evaluate_classRef_of_find? hfactory), Run.bind_of_eq_ok harguments] at h
    exact ⟨factory, rfl, h⟩

/-- With the logger in front, the fields get their values alike up to checks, and the logger is there in the end. -/
theorem follows_initializeFields_of_loggerField (hskip : guarding.skipSimple = false) {fields : List Field}
    (hfields : ∀ field ∈ fields, field.name ≠ guarding.logger)
    (hfactory : world.MakesLogger isCheck enabled binding decl situation) :
    let loggerField := binding.loggerField decl guarding.logger
    (initializeFields world situation.made (loggerField :: fields.map guarding.guardField)).Follows isCheck
      (Situation.KeepsField situation.made guarding.logger) (· = decl.register situation)
      (fun _ => world.HasLogger isCheck enabled guarding.logger situation.made)
      (initializeFields world situation.made
        (loggerField :: fields.map (Field.mute guarding.logger enabled))) := by
  intro loggerField
  rw [initializeFields, initializeFields]
  refine .read_bind _ fun map => ?_
  have hstart : (loggerField.start world (.live map)).Follows isCheck
      (Situation.KeepsField situation.made guarding.logger)
      (fun registered => registered = decl.register situation ∧ registered.mapOf situation.made = map)
      (fun value _ => world.AnswersChecks isCheck enabled value) (loggerField.start world (.live map)) := by
    intro registered ⟨hregistered, _⟩ _
    subst hregistered
    refine ⟨.refl _, fun value hvalue => ?_⟩
    obtain ⟨factory, hfound, hmade⟩ := makes_of_start_loggerField hvalue
    exact hfactory factory value hfound hmade
  have hset (value : Value Object) (started : Situation Object State) :
      ((started.setField situation.made guarding.logger value).fields situation.made).find? guarding.logger
        = some value := by
    rw [Situation.fields_setField, Scope.find?_define_self]
  refine hstart.bind fun value => ?_
  intro started hlogger hkeeps
  have hrest := (Run.Follows.change fun other (hother : other = started) => hother ▸ hset value started).bind
    (fun _ => Guarding.follows_initializeFields hskip hlogger hfields) started rfl hkeeps
  exact ⟨hrest.1, fun result hresult => ⟨value, hrest.2 result hresult, hlogger⟩⟩

/-- Guarded and muted, a class is loaded alike up to checks, and then has a logger that answers checks. -/
theorem follows_load (hskip : guarding.skipSimple = false)
    (hfields : ∀ field ∈ decl.fields, field.name ≠ guarding.logger)
    (hfactory : world.MakesLogger isCheck enabled binding decl situation) :
    ((decl.withLogger binding guarding).load world).Follows isCheck
      (Situation.KeepsField situation.made guarding.logger) (· = situation)
      (world.HasLogger isCheck enabled guarding.logger) ((decl.reference binding guarding.logger enabled).load world) := by
  rw [load, load]
  refine .read_bind _ fun ref => ?_
  intro start ⟨hstart, href⟩
  subst hstart href
  have hregister : (Run.change decl.register : Run Object (Situation Object State) Event Unit).Follows isCheck
      (Situation.KeepsField start.made guarding.logger) (· = start) (fun _ => (· = decl.register start))
      (Run.change decl.register) := .change fun other hother => hother ▸ rfl
  have hreturn : (pure start.made : Run Object (Situation Object State) Event Nat).Follows isCheck
      (Situation.KeepsField start.made guarding.logger)
      (world.HasLogger isCheck enabled guarding.logger start.made) (world.HasLogger isCheck enabled guarding.logger)
      (pure start.made) := by
    intro loaded hloaded _
    refine ⟨.refl _, fun ref href => ?_⟩
    cases href
    exact hloaded
  have hinitialize := follows_initializeFields_of_loggerField hskip hfields hfactory
  exact (hregister.bind fun _ => hinitialize.bind fun _ => hreturn) start rfl

theorem method?_of_methods_eq_map {before after : ClassDecl} {change : Method → Method}
    (h : after.methods = before.methods.map change) (hname : ∀ method, (change method).name = method.name)
    (methodName : String) : after.method? methodName = (before.method? methodName).map change := by
  rw [method?, method?, h, List.find?_map]
  refine congrArg (Option.map change <| before.methods.find? ·) (funext fun method => ?_)
  show ((change method).name == methodName) = _
  rw [hname]

/-- Where the class has a logger that answers checks, a method does the same up to checks. -/
theorem sameUpTo_invoke (hskip : guarding.skipSimple = false) {ref : Nat}
    (hname : (situation.fields ref).find? guarding.logger = some logger)
    (hlogger : world.AnswersChecks isCheck enabled logger) (methodName : String)
    (arguments : List (Value Object)) :
    ((decl.withLogger binding guarding).invoke world ref methodName arguments situation).SameUpTo
      isCheck ((decl.reference binding guarding.logger enabled).invoke world ref methodName
        arguments situation) := by
  have hguarded : (decl.withLogger binding guarding).method? methodName
      = (decl.method? methodName).map guarding.guardMethod :=
    method?_of_methods_eq_map rfl (fun method => (guarding.sameUpToGuards_guardMethod method).name) _
  have hmuted : (decl.reference binding guarding.logger enabled).method? methodName
      = (decl.method? methodName).map (Method.mute guarding.logger enabled) :=
    method?_of_methods_eq_map rfl (Method.mute_name _ _) _
  rw [invoke, invoke, hguarded, hmuted]
  cases decl.method? methodName with
  | none => exact .refl _
  | some method =>
    simp only [Option.map_some, Method.parameterNames, Method.mute_parameters,
      (guarding.sameUpToGuards_guardMethod method).parameters]
    split
    · rw [Run.read_bind_apply, Run.read_bind_apply]
      by_cases hshadowed : guarding.logger ∈ method.parameterNames
      · rw [Guarding.guardMethod, if_pos (guarding.isShadowedIn_iff.mpr hshadowed), Method.mute,
          if_pos hshadowed]
        exact .refl _
      · rw [Guarding.guardMethod, if_neg (mt guarding.isShadowedIn_iff.mp hshadowed), Method.mute,
          if_neg hshadowed]
        have hscope : ((situation.fields ref).defineAll (method.parameterNames.zip arguments)).find?
            guarding.logger = some logger := by
          rw [Scope.find?_defineAll_of_not_mem _ ?_, hname]
          intro hmem
          obtain ⟨entry, hentry, hfirst⟩ := List.mem_map.mp hmem
          exact hshadowed (hfirst ▸ (List.of_mem_zip hentry).1)
        exact Guarding.sameUpTo_runStatements hskip hlogger hscope method.body situation
    · exact .refl _

end ClassDecl

/-- Guarding preserves meaning: loading a transformed class and running a method of it comes to what the reference comes to, up to checks, if the world leaves the logger to the class while it is being loaded. Where all levels are enabled, the reference is the class itself with its logger. -/
theorem guarding_preserves_meaning (world : World Object State Event) (binding : FacadeBinding)
    (decl changed : ClassDecl) (report : ClassReport) (isCheck : Event → Bool) (enabled : Level → Bool)
    (situation : Situation Object State)
    (htransform : decl.transform binding false = .ok (some (changed, report)))
    (hfactory : world.MakesLogger isCheck enabled binding decl situation)
    (hkeeps : (decl.reference binding report.fieldName enabled).KeepsField world report.fieldName situation) :
    (∀ methodName arguments,
      (changed.loadAndInvoke world methodName arguments situation).SameUpTo isCheck
        ((decl.reference binding report.fieldName enabled).loadAndInvoke world methodName
          arguments situation)) ∧
    ((∀ level, enabled level = true) → decl.reference binding report.fieldName enabled
      = decl.addField (binding.loggerField decl report.fieldName)) := by
  obtain ⟨mark, request, strategy, _, haccept, rfl, rfl⟩ :=
    ClassDecl.transform_eq_ok_some_iff.mp htransform
  obtain ⟨_, _, hnew⟩ := ClassDecl.accept_eq_ok_iff.mp haccept
  have hfields : ∀ field ∈ decl.fields, field.name ≠ request.fieldName := by
    simpa [ClassDecl.field?] using hnew
  constructor
  · intro methodName arguments
    have hskip : (⟨request.fieldName, false⟩ : Guarding).skipSimple = false := rfl
    obtain ⟨hsame, hafter⟩ := ClassDecl.follows_load hskip hfields hfactory situation rfl hkeeps
    refine hsame.bind fun ref hresult => ?_
    obtain ⟨logger, hname, hlogger⟩ := hafter ref hresult
    exact ClassDecl.sameUpTo_invoke hskip hname hlogger methodName arguments
  · intro henabled
    rw [ClassDecl.reference, ClassDecl.mute_of_enabled henabled]

namespace RecordedObject

theorem answersChecks_logger (owner : String) (names : List String) :
    recordingWorld.AnswersChecks RecordedEvent.isCheck (names.contains ·.method)
      (.object (.logger owner names)) := by
  intro level situation
  have hcheck : recordingWorld.check (.object (.logger owner names)) level situation
      = ⟨.ok (names.contains level.method), situation,
          [⟨situation, situation, [.checked (label owner) level]⟩]⟩ := by
    cases level <;> rfl
  rw [hcheck]
  exact ⟨rfl, rfl, rfl⟩

theorem makesLogger_factory {names : List String} {binding : FacadeBinding} {decl : ClassDecl}
    {situation : Situation RecordedObject Unit}
    (h : (decl.register situation).types.find? binding.factory.name = some (.object (.factory names))) :
    recordingWorld.MakesLogger RecordedEvent.isCheck (names.contains ·.method) binding decl situation := by
  intro factory logger hfound hmade
  have hfactory : factory = .object (.factory names) := Option.some.inj (hfound.symm.trans h)
  subst hfactory
  have hlogger : (.ok (.object (.logger decl.name names)) : Except (EvaluationError RecordedObject) _)
      = .ok logger := hmade
  cases hlogger
  exact answersChecks_logger decl.name names

end RecordedObject

/-- The sample service, loaded and started where only the levels info and error are enabled. -/
theorem sampleService_preserves_meaning :
    let factory : RecordedObject := .factory ["info", "error"]
    let host : RecordedObject := .scripted "host" true [] [("open", .scalar (.bool true))]
    let situation := Situation.initial () (.ofList [(Facade.factoryTypeName, .object factory)])
    let binding := FacadeBinding.resolve .empty
    let enabled := fun level : Level => ["info", "error"].contains level.method
    ∃ changed report,
      ClassDecl.sampleService.transform binding false = .ok (some (changed, report)) ∧
      recordingWorld.MakesLogger RecordedEvent.isCheck enabled binding ClassDecl.sampleService situation ∧
      (ClassDecl.sampleService.reference binding report.fieldName enabled).KeepsField recordingWorld
        report.fieldName situation ∧
      (changed.loadAndInvoke recordingWorld "start" [.object host] situation).SameUpTo
        RecordedEvent.isCheck
        ((ClassDecl.sampleService.reference binding report.fieldName enabled).loadAndInvoke
          recordingWorld "start" [.object host] situation) := by
  intro factory host situation binding enabled
  have hfactory : recordingWorld.MakesLogger RecordedEvent.isCheck enabled binding ClassDecl.sampleService
      situation := RecordedObject.makesLogger_factory rfl
  have hkeeps : (ClassDecl.sampleService.reference binding "log" enabled).KeepsField recordingWorld "log"
      situation := by
    -- The factory is asked for the logger, and nothing else.
    have hturns : ((ClassDecl.sampleService.reference binding "log" enabled).load recordingWorld situation).turns
        = [⟨ClassDecl.sampleService.register situation, ClassDecl.sampleService.register situation,
            [.loggerMade [.loadedClass 0 "Service"]]⟩] := rfl
    rw [ClassDecl.KeepsField, Outcome.Keeps, hturns]
    exact List.forall_mem_singleton.mpr fun value hvalue => ⟨rfl, hvalue⟩
  refine ⟨_, _, ClassDecl.transform_sampleService _ _, hfactory, hkeeps, ?_⟩
  exact (guarding_preserves_meaning recordingWorld binding _ _ _ _ enabled situation
    (ClassDecl.transform_sampleService _ _) hfactory hkeeps).1 _ _

namespace Outcome

/-- The name that a run failed for. -/
def unknownName? {α : Type} (outcome : Outcome Object State Event α) : Option String :=
  match outcome.result with
  | .error (.unknownName name) => some name
  | _ => none

/-- The scalar that a run came to. -/
def scalar? (outcome : Outcome Object State Event (Value Object)) : Option Scalar :=
  match outcome.result with
  | .ok (.scalar value) => some value
  | _ => none

theorem result_of_unknownName? {α : Type} {outcome : Outcome Object State Event α} {name : String}
    (h : outcome.unknownName? = some name) : outcome.result = .error (.unknownName name) := by
  rw [unknownName?] at h
  split at h
  · rename_i hresult
    rw [hresult, Option.some.inj h]
  · cases h

theorem result_of_scalar? {outcome : Outcome Object State Event (Value Object)} {value : Scalar}
    (h : outcome.scalar? = some value) : outcome.result = .ok (.scalar value) := by
  rw [scalar?] at h
  split at h
  · rename_i hresult
    rw [hresult, Option.some.inj h]
  · cases h

end Outcome

/-- No expression of the class reads this property. -/
def ClassDecl.NeverReads (decl : ClassDecl) (property : String) : Prop :=
  (∀ field ∈ decl.fields, field.initial.EveryNode fun node => ∀ receiver, node ≠ .property receiver property) ∧
    ∀ method ∈ decl.methods, ∀ statement ∈ method.body,
      statement.expr.EveryNode fun node => ∀ receiver, node ≠ .property receiver property

/-- A class that takes its logger out of its own fields while it is being loaded. -/
def ClassDecl.forgetful : ClassDecl :=
  { name := "Foo"
    annotations := [{ name := "Commons" }]
    fields := [
      { name := "gone", owner := "Foo"
        initial := .call (.property (.var "Foo") "fields") "pop" [.const (.text "log")] },
      { name := "x", owner := "Foo", initial := .call (.var "log") "debug" [.const (.text "hi")] }]
    methods := [{ name := "m", body := [⟨true, .const (.int 1)⟩] }] }

/-- Where the class itself takes its logger away, the check of a guard fails that muting takes out. -/
theorem forgetful_loses_its_logger :
    let situation := Situation.initial () (.ofList [(Facade.factoryTypeName, .object (.factory []))])
    let binding := FacadeBinding.resolve .empty
    let enabled := fun level : Level => [].contains level.method
    ∃ changed report,
      ClassDecl.forgetful.transform binding false = .ok (some (changed, report)) ∧
      recordingWorld.MakesLogger RecordedEvent.isCheck enabled binding ClassDecl.forgetful situation ∧
      ClassDecl.forgetful.NeverReads "node" ∧
      (changed.loadAndInvoke recordingWorld "m" [] situation).result = .error (.unknownName "log") ∧
      ((ClassDecl.forgetful.reference binding report.fieldName enabled).loadAndInvoke recordingWorld "m" []
        situation).result = .ok (.scalar (.int 1)) := by
  intro situation binding enabled
  let changed := ClassDecl.forgetful.withLogger binding ⟨LoggerRequest.defaultFieldName, false⟩
  let reference := ClassDecl.forgetful.reference binding LoggerRequest.defaultFieldName enabled
  have hchanged : (changed.loadAndInvoke recordingWorld "m" [] situation).result = .error (.unknownName "log") :=
    Outcome.result_of_unknownName? (by decide +kernel)
  have hreference : (reference.loadAndInvoke recordingWorld "m" [] situation).result = .ok (.scalar (.int 1)) :=
    Outcome.result_of_scalar? (by decide +kernel)
  refine ⟨_, _, ClassDecl.transform_of_commons rfl rfl _ _, RecordedObject.makesLogger_factory rfl, ?_, hchanged,
    hreference⟩
  simp [ClassDecl.NeverReads, ClassDecl.forgetful, Expr.EveryNode.call_iff, Expr.EveryNode.property_iff,
    Expr.EveryNode.var_iff, Expr.EveryNode.const_iff]

end GuardedLogging
