/-
What a place in a script is enclosed by:

* `Dialect`: what kind of script is read;
* `Context`: what encloses a place, and what that allows and rules out;
* `Context.reserved`, `Context.lexMode`: what it says about words and other tokens;
* `Context.inFunctionBody`, `Context.inLoopBody` and their companions: what encloses the places in
  a form.
-/
import SvelteStories.Script.Lexer

namespace SvelteStories.Script

/-- The kind of a script. -/
structure Dialect where
  /-- Whether types may be written. -/
  isTyped : Bool
  /-- Whether it is a module, which is strict and may wait at its top level. -/
  isModule : Bool
deriving DecidableEq, Repr

/-- Plain modules. -/
def Dialect.plainModule : Dialect := ⟨false, true⟩

/-- Modules with types. -/
def Dialect.typedModule : Dialect := ⟨true, true⟩

/-- Expressions in markup: types may be written, and nothing is reserved for modules. -/
def Dialect.markupExpression : Dialect := ⟨true, false⟩

/-- What encloses a place. -/
structure Context where
  /-- The kind of the script. -/
  dialect : Dialect
  /-- How many steps one loop may take: no more than the script has characters. -/
  budget : Nat
  /-- Whether the code is strict. -/
  isStrict : Bool
  /-- Whether the place is only tried, so that faults are not noted. -/
  isQuiet : Bool := false
  /-- Where an arrow function may start, if one may. -/
  arrowStart : Option Nat := none
  /-- Whether `in` is an operator. -/
  inOperator : Bool := true
  /-- Whether a branch of a choice encloses the place. -/
  inChoice : Bool := false
  /-- Whether a colon has to follow, because the place is in the first branch of a choice. -/
  beforeColon : Bool := false
  /-- Whether a type may not end with a choice. -/
  noTypeChoice : Bool := false
  /-- Whether what is declared is implemented elsewhere. -/
  isAmbient : Bool := false
  /-- Whether a class encloses the place. -/
  inClass : Bool := false
  /-- Whether that class extends another one. -/
  hasBase : Bool := false
  /-- Whether the place is in the value of a property of a class. -/
  inField : Bool := false
  /-- Whether the place is in a block of a class that runs once. -/
  inStaticBlock : Bool := false
  /-- Whether a function encloses the place. -/
  inFunction : Bool := false
  /-- Whether a function that is no arrow function does. -/
  inPlainFunction : Bool := false
  /-- Whether the place is in the parameters of a function. -/
  inParameters : Bool := false
  /-- Whether the function is asynchronous. -/
  inAsync : Bool := false
  /-- Whether the function is a generator. -/
  inGenerator : Bool := false
  /-- Whether members of `super` may be used. -/
  mayUseSuper : Bool := false
  /-- Whether there is something to break out of. -/
  mayBreak : Bool := false
  /-- Whether there is a loop to continue. -/
  mayContinue : Bool := false
  /-- Whether the place is in the head of a loop, before its variable is known. -/
  inLoopHead : Bool := false
  /-- Whether that loop waits for its elements. -/
  inWaitingHead : Bool := false
  /-- The labels of the enclosing statements. -/
  labels : List String := []

namespace Context

/-- The context of a script as a whole. -/
def top (dialect : Dialect) (budget : Nat) : Context :=
  { dialect, budget, isStrict := dialect.isModule }

/-- Whether a word is reserved. -/
def reserved (c : Context) (word : String) : Bool :=
  if word = "let" then c.isStrict
  else if word = "await" then c.inAsync || c.inStaticBlock || c.isStrict
  else if word = "yield" then c.inGenerator || c.isStrict
  else word = "enum" || keywords.contains word || (c.isStrict && strictWords.contains word)

/-- How tokens are read. -/
def lexMode (c : Context) : LexMode :=
  ⟨⟨c.dialect.isTyped, c.isStrict⟩, c.dialect.isModule, c.reserved⟩

/-! ### Places in forms -/

/-- Where `in` is an operator. -/
def withIn (c : Context) : Context :=
  { c with inOperator := true }

/-- Where `in` is an operator and no colon has to follow. -/
def inBrackets (c : Context) : Context :=
  { c with inOperator := true, beforeColon := false }

/-- In the parameters of a function. -/
def inParameterList (c : Context) (isAsync isGenerator : Bool) : Context :=
  { c with inParameters := true, inFunction := false, inAsync := isAsync,
           inGenerator := isGenerator }

/-- In the body of a function. -/
def inFunctionBody (c : Context) (isAsync isGenerator isArrow : Bool) : Context :=
  { c with inFunction := true, inAsync := isAsync, inGenerator := isGenerator
           inPlainFunction := if isArrow then c.inPlainFunction else true
           inStaticBlock := false, mayBreak := false, mayContinue := false
           beforeColon := false, labels := [] }

/-- In a function that is written with its keyword. -/
def inKeywordFunction (c : Context) : Context :=
  { c with mayUseSuper := false, inField := false, beforeColon := false }

/-- In the body of a loop. -/
def inLoopBody (c : Context) : Context :=
  { c with mayBreak := true, mayContinue := true }

end Context

end SvelteStories.Script
