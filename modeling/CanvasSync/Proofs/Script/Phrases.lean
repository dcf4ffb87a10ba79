import CanvasSync.Proofs.Script.Progress
import CanvasSync.Script.Grammar.Statements

/-!
The grammar goes on in its text.

Every part of the grammar is steady if the parts that it contains are. What a part does between two
tokens does not matter for that, only that it is made of steady readers; so all of them are found by
the way they are put together, and only a choice between kinds of tokens is split by hand.
-/

namespace CanvasSync.Script.Grammar

open Reader

section

-- a part that branches often is put together of many readers
set_option synthInstance.maxSize 1000000

variable (rules : Rules) [∀ r, Steady (rules r)]

/-! ### Types -/

instance : Steady bindingName := by
  unfold bindingName
  infer_instance

instance : Steady anyWord := by
  unfold anyWord
  infer_instance

instance : Steady (type rules) := by
  unfold type
  infer_instance

/-- The first sign of a shift to the left stands where the shift does. -/
instance : Steady openAngle where
  goes {t ctx s s' a} hs hr := by
    rw [openAngle, bind_onSign] at hr
    by_cases hangle : s.token.isSign "<<"
    · rw [if_pos hangle, bind_apply] at hr
      obtain ⟨w, hw, hfits⟩ := hs.token.text
      rw [isSign_eq, decide_eq_true_eq] at hangle
      rw [hangle] at hfits
      have hrest : s.here.rest = '<' :: '<' :: s.after.rest := by rw [hw.rest_eq, hfits]; rfl
      have hcovers : (Token.mk (.sign "<") ⟨s.here.offset, s.here.step.offset⟩
          s.token.afterLine).Covers s.here s.here.step :=
        ⟨⟨_, Cursor.reaches_step hrest, rfl⟩, rfl⟩
      have hgoes := hs.goes_retold hcovers
      exact hgoes.trans (Steady.goes (r := sign "<") hgoes.stands hr)
    · rw [if_neg hangle] at hr
      exact Steady.goes (r := sign "<") hs hr

instance : Steady onAngle := by
  unfold onAngle
  infer_instance

instance : Steady (typeArguments rules) := by
  unfold typeArguments
  infer_instance

instance : Steady (typeArguments? rules) := by
  unfold typeArguments?
  infer_instance

instance : Steady (typeParameter rules) := by
  unfold typeParameter
  infer_instance

instance : Steady (typeParameters? rules) := by
  unfold typeParameters?
  infer_instance

instance : Steady (annotation? rules) := by
  unfold annotation?
  infer_instance

instance : Steady (typeOrPredicate rules) := by
  unfold typeOrPredicate
  infer_instance

instance : Steady (returnAnnotation? rules) := by
  unfold returnAnnotation?
  infer_instance

instance : Steady onTypeStart := by
  unfold onTypeStart
  infer_instance

instance : Steady (passParameterStart rules) := by
  unfold passParameterStart
  infer_instance

instance : Steady (onFunctionType rules) := by
  unfold onFunctionType
  infer_instance

instance : Steady (onFunctionOrConstructorType rules) := by
  unfold onFunctionOrConstructorType
  infer_instance

instance : Steady (functionType rules) := by
  unfold functionType
  infer_instance

instance : Steady dottedName := by
  unfold dottedName
  infer_instance

instance : Steady (typeArgumentsOnLine? rules) := by
  unfold typeArgumentsOnLine?
  infer_instance

instance : Steady (importType rules) := by
  unfold importType
  dsimp only
  infer_instance

instance : Steady rereadTemplate := steady_reread Lexer.isFaithful_template

instance : Steady (templateType rules) := by
  unfold templateType
  refine steady_whileTrue (steady_bind fun t => ?_)
  split <;> infer_instance

instance : Steady onMappedType := by
  unfold onMappedType
  infer_instance

instance : Steady (mappedType rules) := by
  unfold mappedType
  dsimp only
  infer_instance

instance : Steady (propertyName rules) := by
  unfold propertyName
  infer_instance

instance : Steady onIndexSignature := by
  unfold onIndexSignature
  infer_instance

instance : Steady (indexSignature rules) := by
  unfold indexSignature
  infer_instance

instance : Steady memberEnd := by
  unfold memberEnd
  infer_instance

instance : Steady (signature rules) := by
  unfold signature
  infer_instance

instance (words : List String) : Steady (modifies words) := by
  unfold modifies
  infer_instance

instance : Steady (typeMember rules) := by
  unfold typeMember
  infer_instance

instance : Steady (typeMembers rules) := by
  unfold typeMembers
  infer_instance

instance : Steady onNamedElement := by
  unfold onNamedElement
  infer_instance

instance : Steady (tupleElement rules) := by
  unfold tupleElement
  infer_instance

instance : Steady (primaryType rules) := by
  unfold primaryType
  refine steady_bind fun t => steady_bind fun next => ?_
  split <;> infer_instance

instance : Steady (postfixType rules) := by
  unfold postfixType
  infer_instance

instance : Steady (inferBound rules) := by
  unfold inferBound
  infer_instance

instance (n : Nat) : Steady (operatorType rules n) := by
  induction n with
  | zero => exact inferInstanceAs (Steady fail)
  | succ n ih =>
      unfold operatorType
      infer_instance

instance (x : String) (item : Reader Unit) [Steady item] : Steady (joinedTypes x item) := by
  unfold joinedTypes
  infer_instance

instance : Steady (unionType rules) := by
  unfold unionType
  infer_instance

instance : Steady (conditionalType rules) := by
  unfold conditionalType
  infer_instance

/-! ### Patterns, parameters and functions -/

instance : Steady (assignmentIn rules) := by
  unfold assignmentIn
  infer_instance

instance : Steady (bound rules) := by
  unfold bound
  infer_instance

instance : Steady (default? rules) := by
  unfold default?
  infer_instance

instance (close : String) : Steady (restElement rules close) := by
  unfold restElement
  infer_instance

instance : Steady (arrayElement rules) := by
  unfold arrayElement
  infer_instance

instance : Steady (arrayPattern rules) := by
  unfold arrayPattern
  infer_instance

instance : Steady (patternProperty rules) := by
  unfold patternProperty
  infer_instance

instance : Steady (objectPattern rules) := by
  unfold objectPattern
  infer_instance

instance : Steady (binding rules) := by
  unfold binding
  infer_instance

instance : Steady (decorator rules) := by
  unfold decorator
  infer_instance

instance : Steady (decorators rules) := by
  unfold decorators
  infer_instance

instance : Steady (parameter rules) := by
  unfold parameter
  infer_instance

instance : Steady (parameters rules) := by
  unfold parameters
  infer_instance

instance : Steady (functionBody rules) := by
  unfold functionBody
  infer_instance

instance : Steady (bodyOrEnd rules) := by
  unfold bodyOrEnd
  infer_instance

instance (generator async : Bool) : Steady (functionRest rules generator async) := by
  unfold functionRest
  infer_instance

instance (named async : Bool) : Steady (functionFrom rules named async) := by
  unfold functionFrom
  infer_instance

instance (generator async : Bool) : Steady (method rules generator async) := by
  unfold method
  infer_instance

/-! ### Classes -/

instance : Steady (heritageType rules) := by
  unfold heritageType
  infer_instance

instance : Steady (heritageTypes rules) := by
  unfold heritageTypes
  infer_instance

instance : Steady (heritage rules) := by
  unfold heritage
  infer_instance

instance : Steady onMemberModifier := by
  unfold onMemberModifier
  infer_instance

instance (n : Nat) (async : Bool) : Steady (memberModifiers rules n async) := by
  induction n generalizing async with
  | zero => exact inferInstanceAs (Steady fail)
  | succ n ih =>
      unfold memberModifiers
      infer_instance

instance : Steady (propertyRest rules) := by
  unfold propertyRest
  infer_instance

instance : Steady (classMember rules) := by
  unfold classMember
  dsimp only
  infer_instance

instance : Steady (classBody rules) := by
  unfold classBody
  infer_instance

instance (named : Bool) : Steady (classFrom rules named) := by
  unfold classFrom
  infer_instance

/-! ### Expressions -/

instance : Steady (element rules) := by
  unfold element
  infer_instance

instance (c : Cover) : Steady (arrayItem rules c) := by
  unfold arrayItem
  infer_instance

instance : Steady (arrayLiteral rules) := by
  unfold arrayLiteral
  infer_instance

instance (c : Cover) : Steady (objectItem rules c) := by
  unfold objectItem
  infer_instance

instance : Steady (objectLiteral rules) := by
  unfold objectLiteral
  infer_instance

instance (tagged : Bool) : Steady (template rules tagged) := by
  unfold template
  refine steady_whileTrue (steady_bind fun t => ?_)
  split <;> infer_instance

instance : Steady onOperator := by
  unfold onOperator
  infer_instance

instance : Steady mayFollowTypeArguments := by
  unfold mayFollowTypeArguments
  infer_instance

instance : Steady (expressionTypeArguments rules) := by
  unfold expressionTypeArguments
  infer_instance

instance : Steady (arguments rules) := by
  unfold arguments
  infer_instance

instance : Steady (bracketed rules) := by
  unfold bracketed
  infer_instance

instance : Steady memberName := by
  unfold memberName
  infer_instance

instance (calls : Bool) (n : Nat) (optional : Bool) (s : Shape) :
    Steady (suffixes rules calls n optional s) := by
  induction n generalizing optional s with
  | zero => exact inferInstanceAs (Steady fail)
  | succ n ih =>
      have hangle : Steady (do
          match ← attempt? (expressionTypeArguments rules) with
          | some () => suffixes rules calls n optional .simple
          | none => return (s, optional)) := by
        refine steady_bind fun r => ?_
        split <;> infer_instance
      unfold suffixes
      dsimp only
      infer_instance

instance : Steady (parenthesized rules) := by
  unfold parenthesized
  infer_instance

instance : Steady identifier := by
  unfold identifier
  infer_instance

instance : Steady (importExpression rules) := by
  unfold importExpression
  dsimp only
  infer_instance

instance : Steady (reread fun c => Lexer.pattern? c.step) := steady_reread Lexer.isFaithful_pattern

instance (new : Reader Shape) [Steady new] : Steady (primary rules new) := by
  unfold primary
  refine steady_bind fun t => ?_
  split <;> infer_instance

instance (n : Nat) : Steady (newExpression rules n) := by
  induction n with
  | zero => exact inferInstanceAs (Steady fail)
  | succ n ih =>
      unfold newExpression
      infer_instance

instance : Steady (call rules) := by
  unfold call
  infer_instance

instance : Steady operandFollows := by
  unfold operandFollows
  infer_instance

instance : Steady (awaitExpression rules) := by
  unfold awaitExpression
  infer_instance

instance : Steady (unary rules) := by
  unfold unary
  infer_instance

instance (level n : Nat) (left : Shape) : Steady (binaryRest rules level n left) := by
  induction n generalizing left with
  | zero => exact inferInstanceAs (Steady fail)
  | succ n ih =>
      unfold binaryRest
      dsimp only
      refine steady_bind fun joins => ?_
      split
      · refine steady_bind fun _ => steady_bind fun t => ?_
        split <;> infer_instance
      · refine steady_bind fun t => ?_
        split <;> infer_instance

instance (level : Nat) : Steady (binary rules level) := by
  unfold binary
  infer_instance

instance : Steady arrowAhead :=
  steady_of_looks fun ctx s a s' hr => by
    rw [arrowAhead] at hr
    split at hr <;> cases hr <;> rfl

instance : Steady (arrowHead rules) := by
  unfold arrowHead
  infer_instance

instance (async : Bool) : Steady (arrowBody rules async) := by
  unfold arrowBody
  infer_instance

instance : Steady (parenthesizedArrow? rules) := by
  unfold parenthesizedArrow?
  refine steady_bind fun t => ?_
  split
  · infer_instance
  · refine steady_bind fun ahead => ?_
    split
    · infer_instance
    · infer_instance
    · refine steady_bind fun head => ?_
      split <;> infer_instance

instance (async : Bool) : Steady (simpleArrow rules async) := by
  unfold simpleArrow
  infer_instance

instance : Steady (yieldExpression rules) := by
  unfold yieldExpression
  infer_instance

instance (s : Shape) : Steady (conditionRest rules s) := by
  unfold conditionRest
  infer_instance

instance : Steady (assignment rules) := by
  unfold assignment
  dsimp only
  refine steady_bind fun yields => steady_bind fun ctx => steady_bind fun follows => ?_
  split
  · infer_instance
  · refine steady_bind fun arrow => ?_
    split <;> infer_instance

instance : Steady (expression rules) := by
  unfold expression
  infer_instance

/-! ### Statements -/

instance : Steady (body rules) := by
  unfold body
  infer_instance

instance : Steady (condition rules) := by
  unfold condition
  infer_instance

instance (ends : Token → Bool) : Steady (statementsUntil rules ends) := by
  unfold statementsUntil
  infer_instance

instance : Steady (block rules) := by
  unfold block
  infer_instance

instance (constant inLoop : Bool) : Steady (declarator rules constant inLoop) := by
  unfold declarator
  infer_instance

instance (constant inLoop : Bool) : Steady (declarators rules constant inLoop) := by
  unfold declarators
  infer_instance

instance : Steady (variableDeclaration rules) := by
  unfold variableDeclaration
  infer_instance

instance : Steady (countedRest rules) := by
  unfold countedRest
  infer_instance

instance (waits : Bool) : Steady (collectionRest rules waits) := by
  unfold collectionRest
  infer_instance

instance (waits : Bool) : Steady (loopRest rules waits) := by
  unfold loopRest
  infer_instance

instance : Steady (forLoop rules) := by
  unfold forLoop
  dsimp only
  infer_instance

instance : Steady (typeAlias rules) := by
  unfold typeAlias
  infer_instance

instance : Steady (interface rules) := by
  unfold interface
  infer_instance

instance : Steady (enumMember rules) := by
  unfold enumMember
  dsimp only
  refine steady_bind fun t => ?_
  split
  · infer_instance
  · infer_instance
  · refine steady_bind fun _ => steady_bind fun t => ?_
    split <;> infer_instance
  · infer_instance

instance : Steady (enumeration rules) := by
  unfold enumeration
  infer_instance

instance : Steady (namespaceBody rules) := by
  unfold namespaceBody
  infer_instance

instance : Steady (namespaceFrom rules) := by
  unfold namespaceFrom
  refine steady_bind fun isGlobal => steady_bind fun isModule => steady_bind fun _ => ?_
  split
  · infer_instance
  · refine steady_bind fun t => ?_
    split <;> infer_instance

instance : Steady importEquals := by
  unfold importEquals
  infer_instance

instance (n : Nat) : Steady (onDeclaration n) := by
  induction n with
  | zero => exact inferInstanceAs (Steady (pure false))
  | succ n ih =>
      unfold onDeclaration
      infer_instance

instance (n : Nat) : Steady (declaration rules n) := by
  induction n with
  | zero => exact inferInstanceAs (Steady fail)
  | succ n ih =>
      unfold declaration
      infer_instance

instance : Steady stringLiteral := by
  unfold stringLiteral
  infer_instance

instance : Steady importAttributes? := by
  unfold importAttributes?
  infer_instance

instance : Steady source := by
  unfold source
  infer_instance

instance : Steady moduleName := by
  unfold moduleName
  infer_instance

instance : Steady typeMark := by
  unfold typeMark
  infer_instance

instance (name : Reader Unit) [Steady name] : Steady (typeAsAs name) := by
  unfold typeAsAs
  infer_instance

instance : Steady importName := by
  unfold importName
  infer_instance

instance (allLocal : Bool) : Steady (exportName allLocal) := by
  unfold exportName
  infer_instance

instance : Steady namespaceImport := by
  unfold namespaceImport
  infer_instance

instance : Steady namedImports := by
  unfold namedImports
  infer_instance

instance : Steady importDeclaration := by
  unfold importDeclaration
  dsimp only
  refine steady_bind fun _ => steady_bind fun t => steady_bind fun ahead => ?_
  split
  · infer_instance
  · split <;> infer_instance

instance (span : Span) : Steady (recordDefault span) :=
  steady_of_eq fun _ _ _ _ hr => by cases hr; exact ⟨rfl, rfl, rfl, rfl, rfl⟩

instance (outer : Option Span) : Steady (change fun s => { s with defaultExport := outer }) :=
  steady_of_eq fun _ _ _ _ hr => by cases hr; exact ⟨rfl, rfl, rfl, rfl, rfl⟩

instance (start : Nat) : Steady (exportDefault rules start) := by
  unfold exportDefault
  dsimp only
  infer_instance

instance : Steady (exportDeclaration rules) := by
  unfold exportDeclaration
  infer_instance

instance : Steady (clause rules) := by
  unfold clause
  infer_instance

instance : Steady (choice rules) := by
  unfold choice
  infer_instance

instance : Steady (guarded rules) := by
  unfold guarded
  infer_instance

instance : Steady jump := by
  unfold jump
  infer_instance

instance : Steady (expressionStatement rules) := by
  unfold expressionStatement
  infer_instance

instance (alone : Bool) : Steady (onLetDeclaration alone) := by
  unfold onLetDeclaration
  infer_instance

instance (alone : Bool) : Steady (statement rules alone) := by
  unfold statement
  dsimp only
  refine steady_bind fun t => steady_bind fun next => ?_
  split <;> infer_instance

instance : Steady (module rules) := by
  unfold module
  infer_instance

end

end CanvasSync.Script.Grammar
