import GuardedLogging.Evaluation
import GuardedLogging.Facade
import GuardedLogging.Guard

/-!
# Muting disabled levels

What a program with guarded calls is compared with: the program from which the logging calls at disabled levels have been taken out, arguments and all. Null stands where a call stood. In a method with a parameter of the logger's name nothing is a call on the logger, so nothing is taken out.
-/

namespace GuardedLogging

namespace Expr

/-- Whether a call is one on the logger at a level that is not enabled. -/
def isMuted (logger : String) (enabled : Level → Bool) (receiver : Expr) (method : String) : Bool :=
  match receiver with
  | var name => name == logger && (Level.ofMethod? method).any (!enabled ·)
  | _ => false

mutual

def mute (logger : String) (enabled : Level → Bool) : Expr → Expr
  | call receiver method arguments =>
    if isMuted logger enabled receiver method then const .null
    else call (receiver.mute logger enabled) method (muteAll logger enabled arguments)
  | ternary test whenTrue whenFalse =>
    ternary (test.mute logger enabled) (whenTrue.mute logger enabled) (whenFalse.mute logger enabled)
  | condition inner => condition (inner.mute logger enabled)
  | not operand => not (operand.mute logger enabled)
  | property receiver name => property (receiver.mute logger enabled) name
  | args arguments => args (muteAll logger enabled arguments)
  | absent => absent
  | const value => const value
  | var name => var name
  | classRef type => classRef type

def muteAll (logger : String) (enabled : Level → Bool) : List Expr → List Expr
  | [] => []
  | expr :: rest => expr.mute logger enabled :: muteAll logger enabled rest

end

variable {logger : String} {enabled : Level → Bool}

theorem isAbsent_mute (expr : Expr) : (expr.mute logger enabled).isAbsent = expr.isAbsent := by
  cases expr with
  | call receiver method arguments =>
    rw [mute]
    split
    · rfl
    · rfl
  | _ => rfl

theorem isMuted_eq_false_of_enabled (h : ∀ level, enabled level = true) (receiver : Expr)
    (method : String) : isMuted logger enabled receiver method = false := by
  cases receiver with
  | var name => simp [isMuted, h]
  | _ => rfl

theorem muteAll_of_forall {exprs : List Expr} (h : ∀ expr ∈ exprs, expr.mute logger enabled = expr) :
    muteAll logger enabled exprs = exprs := by
  induction exprs with
  | nil => rfl
  | cons expr rest ih =>
    obtain ⟨hfirst, hrest⟩ := List.forall_mem_cons.mp h
    rw [muteAll, hfirst, ih hrest]

theorem mute_of_enabled (h : ∀ level, enabled level = true) (expr : Expr) :
    expr.mute logger enabled = expr := by
  induction expr with
  | call receiver method arguments ihReceiver ihArguments =>
    rw [mute, isMuted_eq_false_of_enabled h, if_neg Bool.false_ne_true, ihReceiver,
      muteAll_of_forall ihArguments]
  | args arguments ih => rw [mute, muteAll_of_forall ih]
  | property receiver name ih => rw [mute, ih]
  | condition inner ih => rw [mute, ih]
  | not operand ih => rw [mute, ih]
  | ternary test whenTrue whenFalse ihTest ihTrue ihFalse => rw [mute, ihTest, ihTrue, ihFalse]
  | _ => rfl

end Expr

def Field.mute (logger : String) (enabled : Level → Bool) (field : Field) : Field :=
  { field with initial := field.initial.mute logger enabled }

def Statement.mute (logger : String) (enabled : Level → Bool) (statement : Statement) : Statement :=
  { statement with expr := statement.expr.mute logger enabled }

def Method.mute (logger : String) (enabled : Level → Bool) (method : Method) : Method :=
  if logger ∈ method.parameterNames then method
  else { method with body := method.body.map (Statement.mute logger enabled) }

@[simp] theorem Method.mute_name (logger : String) (enabled : Level → Bool) (method : Method) :
    (method.mute logger enabled).name = method.name := by
  rw [mute]
  split <;> rfl

@[simp] theorem Method.mute_parameters (logger : String) (enabled : Level → Bool) (method : Method) :
    (method.mute logger enabled).parameters = method.parameters := by
  rw [mute]
  split <;> rfl

namespace ClassDecl

/-- The class with its disabled calls muted. -/
def mute (logger : String) (enabled : Level → Bool) (decl : ClassDecl) : ClassDecl :=
  { decl with
    fields := decl.fields.map (Field.mute logger enabled)
    methods := decl.methods.map (Method.mute logger enabled) }

theorem mute_of_enabled {logger : String} {enabled : Level → Bool}
    (h : ∀ level, enabled level = true) (decl : ClassDecl) : decl.mute logger enabled = decl := by
  have hfield : Field.mute logger enabled = id :=
    funext fun field => by rw [Field.mute, Expr.mute_of_enabled h, id]
  have hstatement : Statement.mute logger enabled = id :=
    funext fun statement => by rw [Statement.mute, Expr.mute_of_enabled h, id]
  have hmethod : Method.mute logger enabled = id :=
    funext fun method => by rw [Method.mute, hstatement, List.map_id, ite_self, id]
  rw [mute, hfield, hmethod, List.map_id, List.map_id]

end ClassDecl

end GuardedLogging
