import GuardedLogging.CompilationUnit.NameScope
import GuardedLogging.Expr.Parse

/-!
# Units from sources

A source declares a package, imports, and classes with their members. Semicolons may follow anything that is complete and are never needed. A field name may be declared once in its class, a class once in its unit, a parameter once in its method, a member once in its annotation; annotations stand in front of classes only.
-/

namespace GuardedLogging

open Cursor

namespace Annotation

/-- Takes a literal, `null`, a truth value, or a dotted name, which counts as its text. -/
def parseValue (lastLine : Nat) (tokens : List Token) : Parsed Scalar tokens.length :=
  match tokens with
  | ⟨.literal text, _⟩ :: rest =>
    .ok (.next (.text (String.ofList (Literal.unquote text.toList))) rest)
  | ⟨.number text, _⟩ :: rest => .ok (.next (Literal.numberValue text.toList) rest)
  | ⟨.word word, line⟩ :: rest =>
    if word = "true" then .ok (.next (.bool true) rest)
    else if word = "false" then .ok (.next (.bool false) rest)
    else if word = "null" then .ok (.next .null rest)
    else do
      let name ← dottedName lastLine (⟨.word word, line⟩ :: rest)
      return name.map .text
  | tokens => fail lastLine tokens (.annotationValue ((tokens.head?.map (·.lexeme.text)).getD ""))

/-- Takes named members and the closing parenthesis. -/
def parseMembers (lastLine : Nat) (earlier : List (String × Scalar)) (tokens : List Token) :
    Parsed (List (String × Scalar)) tokens.length := do
  let ⟨name, afterName, hname⟩ ← identifier lastLine tokens
  let ⟨_, afterSign, hsign⟩ ← symbol lastLine '=' afterName
  if (earlier.lookup name).isSome then
    fail lastLine afterSign (.duplicateMember name)
  else
    let ⟨value, afterValue, hvalue⟩ ← parseValue lastLine afterSign
    let members := earlier ++ [(name, value)]
    match symbol? ',' afterValue with
    | some ⟨_, afterComma, hcomma⟩ =>
      let others ← parseMembers lastLine members afterComma
      return (((others.after hcomma).after hvalue).after hsign).after hname
    | none =>
      let closing ← symbol lastLine ')' afterValue
      return (((closing.map fun _ => members).after hvalue).after hsign).after hname
termination_by tokens.length

/-- Whether a member comes first that is given with its name. -/
def startsNamed : List Token → Bool
  | ⟨.word _, _⟩ :: rest => startsWith '=' rest
  | _ => false

/-- Takes what follows the opening parenthesis: nothing, one value without a name, or named members. -/
def parseArguments (lastLine : Nat) (tokens : List Token) :
    Parsed (List (String × Scalar)) tokens.length :=
  match symbol? ')' tokens with
  | some closing => return closing.map fun _ => []
  | none =>
    if startsNamed tokens then parseMembers lastLine [] tokens
    else do
      let ⟨value, rest, hvalue⟩ ← parseValue lastLine tokens
      let closing ← symbol lastLine ')' rest
      return (closing.map fun _ => [("value", value)]).after hvalue

/-- Takes an annotation without its leading sign. -/
def parse (lastLine : Nat) (tokens : List Token) : Parsed Annotation tokens.length := do
  let ⟨name, afterName, hname⟩ ← dottedName lastLine tokens
  match symbol? '(' afterName with
  | none => return ⟨⟨name, []⟩, afterName, hname⟩
  | some ⟨_, inside, hinside⟩ =>
    let members ← parseArguments lastLine inside
    return ((members.map fun members => ⟨name, members⟩).after hinside).after hname

/-- Takes the annotations at the front. -/
def parseAll (lastLine : Nat) (tokens : List Token) : Parsed (List Annotation) (tokens.length + 1) :=
  match symbol? '@' tokens with
  | none => return .stay [] tokens
  | some ⟨_, afterSign, hsign⟩ => do
    let ⟨first, afterFirst, hfirst⟩ ← parse lastLine afterSign
    let others ← parseAll lastLine afterFirst
    return (((others.map (first :: ·)).weaken hfirst).after hsign).optional
termination_by tokens.length

end Annotation

/-- Takes the modifiers at the front, none of them twice. -/
def Modifiers.parse (earlier : Modifiers) : (tokens : List Token) → Parsed Modifiers (tokens.length + 1)
  | ⟨.word word, line⟩ :: rest =>
    match Modifier.ofWord? word with
    | some modifier =>
      if earlier.contains modifier then .error (.onLine line (.repeatedModifier word))
      else do
        let modifiers ← parse (earlier.insert modifier) rest
        return modifiers.optional
    | Option.none => return .stay earlier (⟨.word word, line⟩ :: rest)
  | tokens => return .stay earlier tokens

namespace Parameter

/-- Whether a type comes first: a word in front of another, or one with a dot behind it. -/
def startsTyped : List Token → Bool
  | ⟨.word _, _⟩ :: ⟨.word _, _⟩ :: _ => true
  | ⟨.word _, _⟩ :: rest => startsWith '.' rest
  | _ => false

/-- Takes the type of a parameter if it has one. The word `def` stands for none. -/
def parseType (scope : NameScope) (lastLine : Nat) (tokens : List Token) :
    Parsed (Option TypeRef) (tokens.length + 1) :=
  match word? "def" tokens with
  | some step => return (step.map fun _ => none).optional
  | none =>
    if startsTyped tokens then do
      let name ← dottedName lastLine tokens
      return (name.map fun name => some (scope.typeRef name)).optional
    else
      return .stay none tokens

/-- Takes one or more parameters and the closing parenthesis. -/
def parseList (scope : NameScope) (lastLine : Nat) (earlier : List Parameter) (tokens : List Token) :
    Parsed (List Parameter) tokens.length := do
  let ⟨type, afterType, htype⟩ ← parseType scope lastLine tokens
  let ⟨name, afterName, hname⟩ ← identifier lastLine afterType
  if earlier.any (·.name == name) then
    fail lastLine afterName (.duplicateParameter name)
  else
    let parameters := earlier ++ [⟨name, type⟩]
    match symbol? ',' afterName with
    | some ⟨_, afterComma, hcomma⟩ =>
      let others ← parseList scope lastLine parameters afterComma
      return ((others.after hcomma).after hname).afterOptional htype
    | none =>
      let closing ← symbol lastLine ')' afterName
      return ((closing.map fun _ => parameters).after hname).afterOptional htype
termination_by tokens.length

/-- Takes the parameters that follow the opening parenthesis, and the closing one. -/
def parseAll (scope : NameScope) (lastLine : Nat) (tokens : List Token) :
    Parsed (List Parameter) tokens.length :=
  match symbol? ')' tokens with
  | some closing => return closing.map fun _ => []
  | none => parseList scope lastLine [] tokens

end Parameter

namespace Statement

/-- Takes an expression, with the word `return` in front of it or without. -/
def parseExpr (lastLine : Nat) (tokens : List Token) : Parsed Statement tokens.length :=
  match word? "return" tokens with
  | some ⟨_, afterReturn, hreturn⟩ => do
    let expr ← Expr.parseTernary lastLine afterReturn
    return (expr.map fun expr => ⟨true, expr⟩).after hreturn
  | none => do
    let expr ← Expr.parseTernary lastLine tokens
    return expr.map fun expr => ⟨false, expr⟩

/-- Takes a statement and the semicolons behind it. -/
def parse (lastLine : Nat) (tokens : List Token) : Parsed Statement tokens.length := do
  return skipSemicolons (← parseExpr lastLine tokens)

/-- Takes the statements of a method and the closing brace. -/
def parseBody (lastLine : Nat) (methodName : String) (tokens : List Token) :
    Parsed (List Statement) tokens.length :=
  match symbol? '\x7d' tokens with
  | some closing => return closing.map fun _ => []
  | none =>
    if tokens.isEmpty then fail lastLine tokens (.unclosedMethod methodName)
    else do
      let ⟨first, afterFirst, hfirst⟩ ← parse lastLine tokens
      let others ← parseBody lastLine methodName afterFirst
      return (others.map (first :: ·)).after hfirst
termination_by tokens.length

end Statement

/-- A member of a class. -/
inductive Member where
  | field (field : Field)
  | method (method : Method)

namespace Member

/-- Takes the declared type of a member: `def`, which is none, or a type name. -/
def parseType (scope : NameScope) (lastLine : Nat) (tokens : List Token) :
    Parsed (Option TypeRef) tokens.length :=
  match word? "def" tokens with
  | some step => return step.map fun _ => none
  | none => do
    let name ← dottedName lastLine tokens
    return name.map fun name => some (scope.typeRef name)

/-- Takes the rest of a method, from behind the opening parenthesis on. -/
def parseMethod (scope : NameScope) (lastLine : Nat) (name : String) (modifiers : Modifiers)
    (returnType : Option TypeRef) (tokens : List Token) : Parsed Member tokens.length := do
  let ⟨parameters, afterParameters, hparameters⟩ ← Parameter.parseAll scope lastLine tokens
  let ⟨_, inside, hinside⟩ ← skipSemicolons <$> symbol lastLine '\x7b' afterParameters
  let body ← Statement.parseBody lastLine name inside
  let method := body.map fun body => .method { name, modifiers, returnType, parameters, body }
  return (method.after hinside).after hparameters

/-- Takes the initial value of a field, if it has one. -/
def parseInitial (lastLine : Nat) (tokens : List Token) : Parsed Expr (tokens.length + 1) :=
  match symbol? '=' tokens with
  | some ⟨_, afterSign, hsign⟩ => do
    let expr ← Expr.parseTernary lastLine afterSign
    return (expr.after hsign).optional
  | none => return .stay Expr.absent tokens

/-- Takes the rest of a field, from behind its name on, and the semicolons behind it. -/
def parseField (lastLine : Nat) (field : Field) (tokens : List Token) :
    Parsed Member (tokens.length + 1) := do
  let initial ← parseInitial lastLine tokens
  return (skipSemicolons initial).map fun initial => .field { field with initial }

/-- Takes one member of the class, in front of which `fields` are declared. -/
def parse (scope : NameScope) (lastLine : Nat) (className : String) (fields : List Field)
    (tokens : List Token) : Parsed Member tokens.length :=
  if startsWith '@' tokens then fail lastLine tokens .annotationInsideClass
  else do
    let ⟨modifiers, afterModifiers, hmodifiers⟩ ← Modifiers.parse .none tokens
    let ⟨type, afterType, htype⟩ ← parseType scope lastLine afterModifiers
    let ⟨name, afterName, hname⟩ ← identifier lastLine afterType
    match symbol? '(' afterName with
    | some ⟨_, inside, hinside⟩ =>
      let method ← parseMethod scope lastLine name modifiers type inside
      return (((method.after hinside).after hname).after htype).afterOptional hmodifiers
    | none =>
      if fields.any (·.name == name) then
        fail lastLine afterType (.duplicateField name className)
      else
        let member ← parseField lastLine { name, modifiers, type, owner := className } afterName
        return ((member.weaken hname).after htype).afterOptional hmodifiers

end Member

namespace ClassDecl

/-- The class with one more member, which comes last. -/
def appendMember (decl : ClassDecl) : Member → ClassDecl
  | .field field => { decl with fields := decl.fields ++ [field] }
  | .method method => { decl with methods := decl.methods ++ [method] }

/-- Takes the members of a class and the closing brace, and answers also the line of that. -/
def parseMembers (scope : NameScope) (lastLine : Nat) (simpleName : String) (decl : ClassDecl)
    (tokens : List Token) : Parsed (ClassDecl × Nat) tokens.length :=
  match symbol? '\x7d' tokens with
  | some closing => return closing.map fun _ => (decl, line lastLine tokens)
  | none =>
    if tokens.isEmpty then fail lastLine tokens (.unclosedClass simpleName)
    else do
      let ⟨member, afterMember, hmember⟩ ←
        skipSemicolons <$> Member.parse scope lastLine decl.name decl.fields tokens
      let others ← parseMembers scope lastLine simpleName (decl.appendMember member) afterMember
      return others.after hmember
termination_by tokens.length

/-- Takes a class, and answers also the line of its closing brace. -/
def parse (scope : NameScope) (lastLine : Nat) (tokens : List Token) :
    Parsed (ClassDecl × Nat) tokens.length := do
  let ⟨annotations, afterAnnotations, hannotations⟩ ← Annotation.parseAll lastLine tokens
  let ⟨modifiers, afterModifiers, hmodifiers⟩ ← Modifiers.parse .none afterAnnotations
  match word? "class" afterModifiers with
  | none => fail lastLine afterModifiers (.expectedClass (found afterModifiers))
  | some ⟨_, afterClass, hclass⟩ =>
    let ⟨name, afterName, hname⟩ ← identifier lastLine afterClass
    let ⟨_, inside, hinside⟩ ← skipSemicolons <$> symbol lastLine '\x7b' afterName
    let decl := { name := qualify scope.package name, annotations, modifiers }
    let members ← parseMembers scope lastLine name decl inside
    let whole := ((members.after hinside).after hname).after hclass
    return (whole.afterOptional hmodifiers).afterOptional hannotations

end ClassDecl

namespace CompilationUnit

/-- Takes the imports at the front; each is known by its last part. -/
def parseImports (lastLine : Nat) (earlier : List (String × String)) (tokens : List Token) :
    Parsed (List (String × String)) (tokens.length + 1) :=
  match word? "import" tokens with
  | none => return .stay earlier tokens
  | some ⟨_, afterImport, himport⟩ => do
    let ⟨name, afterName, hname⟩ ← skipSemicolons <$> dottedName lastLine afterImport
    let others ← parseImports lastLine ((lastPart name, name) :: earlier) afterName
    return ((others.weaken hname).after himport).optional
termination_by tokens.length

/-- Takes the package declaration, if there is one. -/
def parsePackage (lastLine : Nat) (tokens : List Token) : Parsed String (tokens.length + 1) :=
  match word? "package" tokens with
  | none => return .stay "" tokens
  | some ⟨_, afterPackage, hpackage⟩ => do
    let name ← skipSemicolons <$> dottedName lastLine afterPackage
    return (name.after hpackage).optional

/-- Takes all classes up to the end of the source. -/
def parseClasses (scope : NameScope) (lastLine : Nat) (unit : CompilationUnit) (tokens : List Token) :
    Except ParseError CompilationUnit :=
  if tokens.isEmpty then return unit
  else do
    let ⟨(decl, closingLine), afterDecl, _⟩ ← skipSemicolons <$> ClassDecl.parse scope lastLine tokens
    if (unit.class? decl.name).isSome then
      throw (.onLine closingLine (.duplicateClass decl.name))
    else
      parseClasses scope lastLine { unit with classes := unit.classes ++ [decl] } afterDecl
termination_by tokens.length

/-- The unit that a list of tokens declares. -/
def ofTokens (name : Scalar) (list : TokenList) : Except ParseError CompilationUnit := do
  let package ← parsePackage list.lastLine list.tokens
  let imports ← parseImports list.lastLine [] package.rest
  let scope := ⟨package.value, imports.value, wordsAfterClass list.tokens⟩
  parseClasses scope list.lastLine { name, package := .text package.value } imports.rest

/-- The name of a unit whose source came without one. -/
def defaultName : String := "Script"

/-- The unit that a source declares. -/
def parse (source : String) (name : Scalar := .text defaultName) : Except ParseError CompilationUnit := do
  ofTokens name (← tokenize source)

end CompilationUnit

end GuardedLogging
