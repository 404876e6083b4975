/-
Why a script cannot be read:

* `SyntaxCause`: the causes; `SyntaxCause.message` is their wording;
* `SyntaxFault`: a cause at a byte offset.
-/
import SvelteStories.Text.Visible

namespace SvelteStories.Script

/-- The causes of a script that cannot be read. -/
inductive SyntaxCause
  -- characters and tokens
  /-- The text ends where something has to follow. -/
  | unexpectedEnd
  /-- A character that starts no token. -/
  | strangeCharacter (c : Char)
  /-- A character in a name that belongs to none. -/
  | strangeNameCharacter
  /-- A string does not end on its line. -/
  | openString
  /-- A regular expression does not end on its line. -/
  | openRegex
  /-- A template literal does not end. -/
  | openTemplate
  /-- A block comment does not end. -/
  | openComment
  /-- A comment in the form of markup. -/
  | markupComment
  /-- An escape without its digits. -/
  | badEscape (wanted : String)
  /-- A backslash at the end of the text. -/
  | openEscape
  /-- A code in braces without its closing brace. -/
  | openCode
  /-- A backslash in a name that escapes no code. -/
  | codeExpected
  /-- A reserved word with an escape in it. -/
  | escapedWord (word : String)
  /-- A number without a digit of its base. -/
  | digitExpected (kind : String)
  /-- A number ends behind the letter of its exponent. -/
  | exponentExpected
  /-- A separator that stands between no two digits. -/
  | misplacedSeparator
  /-- A name right behind a number. -/
  | nameAfterNumber
  /-- An octal number of the old form where types may be written. -/
  | octalNumber
  /-- An octal number or escape of the old form in strict code. -/
  | legacyOctal
  /-- A decimal number with a leading zero in strict code. -/
  | legacyDecimal
  /-- A flag that no regular expression has. -/
  | unknownFlag
  /-- A flag of a regular expression that is given twice. -/
  | repeatedFlag (flag : Char)
  -- one token for another
  /-- No expression starts here. -/
  | expressionExpected
  /-- Something else stands where one token has to. -/
  | expected (wanted found : String)
  /-- A token stands where one of several others has to. -/
  | unexpectedToken (found wanted : String)
  /-- No name stands where one has to. -/
  | nameExpected
  /-- No name stands behind a dot. -/
  | identifierExpected
  /-- Something does not end. -/
  | semicolonExpected
  /-- An expression statement does not end. -/
  | terminatorExpected
  /-- A comma with nothing behind it. -/
  | trailingComma
  /-- A declaration without variables. -/
  | nothingDeclared
  -- names
  /-- A word that strict code reserves, as a name. -/
  | reservedName (name : String)
  /-- The word that waits, as a name. -/
  | awaitName
  /-- `eval` or `arguments` as a bound name. -/
  | strictName
  /-- `arguments` in the value of a class property. -/
  | argumentsInField
  /-- A blank in a private name. -/
  | gapInPrivateName
  /-- The private name of the constructor. -/
  | privateConstructor
  /-- A modifier of a private member. -/
  | privateModifier (word : String)
  /-- An access modifier of a private member. -/
  | privateAccess
  /-- A private name in an object type. -/
  | privateInType
  -- patterns and targets
  /-- An operand or element that cannot be assigned to. -/
  | notAssignable
  /-- The left of an assignment that cannot be assigned to. -/
  | notVariable
  /-- The left of an assignment that makes no target. -/
  | invalidTarget
  /-- `eval` or `arguments` as the left of an assignment in strict code. -/
  | strictTarget
  /-- An expression that makes no pattern. -/
  | notPattern
  /-- A pattern that makes no expression. -/
  | notExpression
  /-- A comma behind a rest element. -/
  | commaAfterRest
  /-- A rest element with others behind it. -/
  | restNotLast
  /-- A rest parameter with others behind it. -/
  | restParameterNotLast
  /-- A rest parameter that may be left out. -/
  | optionalRest
  /-- A rest element with a default. -/
  | defaultOfRest
  /-- A rest of properties that is no name. -/
  | restWithoutName
  /-- A parameter that may be left out and has a default. -/
  | optionalWithDefault
  /-- A pattern that may be left out. -/
  | optionalPattern
  /-- A pattern as a parameter that is a property. -/
  | propertyPattern
  /-- A modifier of a parameter outside of constructors. -/
  | parameterModifier
  /-- A default in a signature. -/
  | defaultInSignature
  /-- A property with a default in an object literal. -/
  | shorthandDefault
  -- functions
  /-- A body where nothing is implemented. -/
  | ambientBody
  /-- The directive for strict code behind parameters that are no names. -/
  | strictDirective
  /-- `yield` in the parameters of a generator. -/
  | yieldInParameters
  /-- `await` in the parameters of an asynchronous function. -/
  | awaitInParameters
  /-- `await` in a function that is not asynchronous. -/
  | awaitInFunction
  /-- `await` outside of modules and functions. -/
  | awaitOutside
  /-- `await` with a star. -/
  | awaitStar
  /-- A line break between parameters and their arrow. -/
  | lineBreakBeforeArrow
  /-- An arrow function as an operand. -/
  | arrowNotAllowed
  /-- Parentheses with nothing in them. -/
  | emptyParentheses
  /-- A spread element in parentheses. -/
  | spreadInParentheses
  -- operators, members and calls
  /-- An operator before the base of a power. -/
  | unaryInPower
  /-- The operator for missing values beside a logical one. -/
  | mixedCoalescing
  /-- A name that is deleted in strict code. -/
  | deletedName
  /-- A value that is deleted and is no member. -/
  | deletedValue
  /-- A template literal behind an optional chain. -/
  | templateInChain
  /-- An optional chain that is constructed. -/
  | constructedChain
  /-- `super` outside of methods. -/
  | superOutside
  /-- `super` that is called where a member has to follow. -/
  | superCall
  /-- A call of `super` that may be left out. -/
  | optionalSuperCall
  /-- A private name behind `super`. -/
  | privateSuper
  /-- `import` with nothing behind it that makes it an expression. -/
  | importNotAllowed
  /-- What is known of the module, outside of modules. -/
  | metaOutside
  /-- What was constructed, outside of functions. -/
  | newTargetOutside
  /-- A comma behind the source of a loaded module. -/
  | commaInImport
  -- properties
  /-- A property of an object that may be left out. -/
  | optionalProperty
  /-- A comma in the key of a property. -/
  | commaInKey
  /-- A modifier before an accessor or an asynchronous method. -/
  | modifiedMethod
  /-- A getter with parameters. -/
  | getterParameters
  /-- A setter without exactly one parameter. -/
  | setterParameters
  /-- A setter whose parameter takes all that is left. -/
  | restInSetter
  -- classes
  /-- A name that no class may have. -/
  | className
  /-- What a class extends, said twice. -/
  | secondExtends
  /-- What a class extends, said behind what it implements. -/
  | lateExtends
  /-- A class that extends more than one. -/
  | manyBases
  /-- What a class implements, said twice. -/
  | secondImplements
  /-- A second constructor. -/
  | secondConstructor
  /-- A constructor as an accessor. -/
  | accessorConstructor
  /-- A constructor as an asynchronous function. -/
  | asyncConstructor
  /-- A constructor as a generator. -/
  | generatorConstructor
  /-- A property with the name of the constructor. -/
  | propertyConstructor
  /-- A modifier of a constructor. -/
  | modifiedConstructor (word : String)
  /-- Type parameters of a constructor. -/
  | constructorTypes
  /-- A type of what a constructor gives back. -/
  | constructorResult
  /-- Angle brackets with no type parameters. -/
  | noTypeParameters
  /-- A method that is readonly. -/
  | readonlyMethod
  /-- An accessor that is readonly. -/
  | readonlyAccessor
  /-- A modifier that is given twice. -/
  | repeatedModifier (word : String)
  /-- A modifier behind one that it has to stand before. -/
  | modifierOrder (word other : String)
  /-- A modifier beside one that excludes it. -/
  | modifierConflict (word other : String)
  /-- A modifier where none may stand. -/
  | misplacedModifier
  /-- A method that is declared. -/
  | declaredMethod
  /-- A member that overrides nothing. -/
  | overrideWithoutBase
  /-- An abstract member of a class that is not. -/
  | abstractOutside
  /-- An abstract modifier of something else. -/
  | abstractElsewhere
  /-- An abstract method with a body. -/
  | abstractBody (name : String)
  /-- An abstract property with a value. -/
  | abstractValue (name : String)
  -- statements
  /-- `return` outside of a function. -/
  | returnOutside
  /-- `break` with no loop or switch around it. -/
  | breakOutside
  /-- `break` with a label that is not around it. -/
  | breakLabel
  /-- `continue` with no loop around it. -/
  | continueOutside
  /-- `continue` with a label that is not around it. -/
  | continueLabel
  /-- A label within a statement that has it already. -/
  | repeatedLabel (name : String)
  /-- A function with a label in strict code. -/
  | labelledFunction
  /-- A generator or an asynchronous function with a label. -/
  | labelledGenerator
  /-- A constant without a value. -/
  | constantWithoutValue
  /-- A destructuring declaration without a value. -/
  | destructuringWithoutValue
  /-- `throw` at the end of a line. -/
  | lineBreakAfterThrow
  /-- A loop over elements with more than one variable. -/
  | manyLoopVariables
  /-- A loop over elements whose variable has a value. -/
  | loopVariableValue
  /-- A loop over elements whose variable has a type. -/
  | loopVariableType
  /-- A loop over keys that takes them apart. -/
  | loopVariablePattern
  /-- A loop over elements whose variable looks like an arrow function. -/
  | asyncLoopVariable
  /-- A waiting loop that goes over no elements. -/
  | awaitLoop
  /-- A second default of a switch. -/
  | secondDefault
  /-- A declaration as the body of a statement. -/
  | declarationNotAllowed
  /-- A `with` statement where types may be written. -/
  | withTypes
  /-- A `with` statement in strict code. -/
  | withStrict
  /-- A managed resource. -/
  | managedResource
  /-- A managed resource that is taken apart. -/
  | resourcePattern
  /-- A managed resource without a value. -/
  | resourceWithoutValue
  -- types
  /-- The name of a type that is built in. -/
  | builtInName
  /-- An interface that extends something else than a name. -/
  | interfaceBase
  /-- An index with more than one name. -/
  | indexParameters
  /-- A setter in a type without a parameter. -/
  | setterParameterExpected
  /-- The source of an imported type that is no string. -/
  | importedTypeSource
  /-- An element that is required behind one that may be left out. -/
  | requiredElement
  /-- A modifier that no type parameter has. -/
  | typeModifier (word : String)
  /-- A modifier of type parameters of functions. -/
  | varianceModifier (word : String)
  /-- A modifier of type parameters of types. -/
  | constModifier (word : String)
  /-- A member of an enumeration that is named by a number. -/
  | numericMember
  /-- A member of an enumeration with a key in brackets. -/
  | computedMember
  /-- A declaration within a declaration. -/
  | nestedDeclaration
  -- modules
  /-- An import or export inside of a statement. -/
  | moduleItemInStatement
  /-- A string that is imported under no name. -/
  | importedString (value : String)
  /-- A string that is exported from nowhere. -/
  | exportedString
  /-- A reserved word that is exported from nowhere. -/
  | exportedWord (word : String)
  /-- A name marked as a type in an import of types. -/
  | typeInTypeImport
  /-- A name marked as a type in an export of types. -/
  | typeInTypeExport
deriving DecidableEq, Repr

/-- The wording of a cause. -/
def SyntaxCause.message : SyntaxCause → String
  | unexpectedEnd => "Unexpected eof"
  | strangeCharacter c => "Unexpected character '" ++ visibleChar c ++ "'"
  | strangeNameCharacter => "Invalid character in identifier"
  | openString => "Unterminated string constant"
  | openRegex => "Unterminated regexp literal"
  | openTemplate => "Unterminated template"
  | openComment => "Unterminated block comment"
  | markupComment => "Legacy comments cannot be used in module code"
  | badEscape wanted => s!"Bad character escape sequence, expected {wanted}"
  | openEscape => "Invalid string escape"
  | openCode => "Invalid unicode escape"
  | codeExpected => "Expected unicode escape"
  | escapedWord word => s!"Unexpected escape sequence in reserved word: {word}"
  | digitExpected kind => s!"Expected {kind} digit"
  | exponentExpected => "Expected +, - or decimal digit after e"
  | misplacedSeparator => "A numeric separator is only allowed between two digits"
  | nameAfterNumber => "Identifier cannot follow number"
  | octalNumber =>
    "Legacy octal literals are not available when targeting ECMAScript 5 and higher"
  | legacyOctal => "Legacy octal escape is not permitted in strict mode"
  | legacyDecimal => "Legacy decimal escape is not permitted in strict mode"
  | unknownFlag => "Unknown regular expression flags."
  | repeatedFlag flag => "Duplicated regular expression flag '" ++ String.ofList [flag] ++ "'."
  | expressionExpected => "Expression expected"
  | expected wanted found => s!"Expected '{wanted}', got '{found}'"
  | unexpectedToken found wanted => s!"Unexpected token `{found}`. Expected {wanted}"
  | nameExpected => "Expected ident"
  | identifierExpected => "Expected an identifier"
  | semicolonExpected => "Expected a semicolon"
  | terminatorExpected => "Expected ';', '\x7d' or <eof>"
  | trailingComma => "Trailing comma is not allowed"
  | nothingDeclared => "Variable declaration list cannot be empty"
  | reservedName name => s!"`{name}` cannot be used as an identifier in strict mode"
  | awaitName => "`await` cannot be used as an identifier in an async context"
  | strictName => "'eval' and 'arguments' cannot be used as a binding identifier in strict mode"
  | argumentsInField => "'arguments' is only allowed in functions and class methods"
  | gapInPrivateName => "Unexpected space between # and identifier"
  | privateConstructor => "Classes can't have a private field named '#constructor'."
  | privateModifier word => s!"'{word}' modifier cannot be used with a private identifier"
  | privateAccess => "An accessibility modifier cannot be used with a private identifier."
  | privateInType => "private names are not allowed in interface"
  | notAssignable => "Cannot assign to this"
  | notVariable =>
    "The left-hand side of an assignment expression must be a variable or a property access."
  | invalidTarget => "Invalid assignment target"
  | strictTarget => "Invalid use of 'arguments' in strict mode"
  | notPattern => "Not a pattern"
  | notExpression => "Not an expression"
  | commaAfterRest => "Trailing comma isn't permitted after a rest element"
  | restNotLast => "Rest element must be final element"
  | restParameterNotLast => "A rest parameter must be last in a parameter list"
  | optionalRest => "A rest parameter cannot be optional"
  | defaultOfRest => "A rest parameter cannot have an initializer"
  | restWithoutName => "`...` must be followed by an identifier in declaration contexts"
  | optionalWithDefault => "Parameter cannot have question mark and initializer"
  | optionalPattern =>
    "A binding pattern parameter cannot be optional in an implementation signature."
  | propertyPattern =>
    "Typescript parameter property must be an identifier or assignment pattern"
  | parameterModifier => "A parameter property is only allowed in a constructor implementation"
  | defaultInSignature =>
    "A parameter initializer is only allowed in a function or constructor implementation"
  | shorthandDefault => "assignment property is invalid syntax"
  | ambientBody => "An implementation cannot be declared in ambient contexts"
  | strictDirective =>
    "Illegal 'use strict' directive in function with non-simple parameter list."
  | yieldInParameters => "'yield' cannot be used as a parameter within generator"
  | awaitInParameters => "'await' cannot be used as a parameter within async function"
  | awaitInFunction => "await isn't allowed in non-async function"
  | awaitOutside => "top level await is only allowed in module"
  | awaitStar =>
    "await* has been removed from the async functions proposal. Use Promise.all() instead."
  | lineBreakBeforeArrow => "Unexpected line break between arrow head and arrow"
  | arrowNotAllowed => "An arrow function is not allowed here"
  | emptyParentheses => "Parenthesized expression cannot be empty"
  | spreadInParentheses => "Parenthesized expression cannot contain spread operator"
  | unaryInPower => "** cannot be applied to unary expression"
  | mixedCoalescing =>
    "Nullish coalescing operator(??) requires parens when mixing with logical operators"
  | deletedName => "'delete' cannot be called on an identifier in strict mode"
  | deletedValue => "The operand of a delete operator must be a property reference."
  | templateInChain => "Tagged template literal is not allowed in optional chain."
  | constructedChain => "Constructor in/after an optional chaining is not allowed."
  | superOutside => "Invalid access to super"
  | superCall => "Invalid `super()`"
  | optionalSuperCall => "Super call cannot be optional"
  | privateSuper => "Index super with private name is not allowed"
  | importNotAllowed => "Import is not allowed here."
  | metaOutside => "'import.meta' cannot be used outside of module code."
  | newTargetOutside =>
    "'new.target' is only allowed in the body of a function declaration, function expression, " ++
      "or class."
  | commaInImport => "Trailing comma is disallowed inside import(...) arguments"
  | optionalProperty => "An object member cannot be declared optional"
  | commaInKey => "A comma expression is not allowed in a computed property name"
  | modifiedMethod => "`async` modifier cannot be used here"
  | getterParameters => "A `get` accessor cannot have parameters"
  | setterParameters => "A `set` accessor must have exactly one parameter"
  | restInSetter => "Rest pattern is not allowed in setter"
  | className => "Invalid class name"
  | secondExtends => "`extends` clause already seen."
  | lateExtends => "'extends' clause must precede 'implements' clause."
  | manyBases => "Classes can only extend a single class"
  | secondImplements => "`implements` clause already seen"
  | secondConstructor => "A class can only have one constructor"
  | accessorConstructor => "Class constructor can't be an accessor."
  | asyncConstructor => "Constructor can't be an async function"
  | generatorConstructor => "Constructor can't be a generator"
  | propertyConstructor => "Classes may not have a non-static field named 'constructor'"
  | modifiedConstructor word => s!"'{word}' modifier cannot appear on a constructor declaration"
  | constructorTypes => "Type parameters cannot appear on a constructor declaration"
  | constructorResult => "Type annotation cannot appear on a constructor declaration"
  | noTypeParameters => "Type parameter list cannot be empty"
  | readonlyMethod => "A method cannot be readonly"
  | readonlyAccessor => "A getter or a setter cannot be readonly"
  | repeatedModifier word => s!"'{word}' modifier already seen."
  | modifierOrder word other => s!"'{word}' modifier must precede '{other}' modifier."
  | modifierConflict word other => s!"'{word}' modifier cannot be used with '{other}' modifier."
  | misplacedModifier => "Modifiers cannot appear here"
  | declaredMethod => "'declare' modifier cannot appear on class elements of this kind"
  | overrideWithoutBase =>
    "This member cannot have an 'override' modifier because its containing class does not " ++
      "extend another class."
  | abstractOutside => "Abstract methods can only appear within an abstract class."
  | abstractElsewhere =>
    "'abstract' modifier can only appear on a class, method, or property declaration."
  | abstractBody name =>
    s!"Method '{name}' cannot have an implementation because it is marked abstract."
  | abstractValue name =>
    s!"Property '{name}' cannot have an initializer because it is marked abstract."
  | returnOutside => "Return statement is not allowed here"
  | breakOutside =>
    "A 'break' statement can only be used within an enclosing iteration or switch statement"
  | breakLabel => "A 'break' statement can only jump to a label of an enclosing statement"
  | continueOutside =>
    "A 'continue' statement can only jump to a label of an enclosing iteration statement"
  | continueLabel => "Jump target cannot cross function boundary"
  | repeatedLabel name => s!"Label {name} is already declared"
  | labelledFunction => "Function cannot be labelled in strict mode"
  | labelledGenerator => "Generator or async function cannot be labelled"
  | constantWithoutValue => "'const' declarations must be initialized"
  | destructuringWithoutValue => "Destructuring bindings require initializers"
  | lineBreakAfterThrow => "LineBreak cannot follow 'throw'"
  | manyLoopVariables => "Expected one variable binding"
  | loopVariableValue => "Unexpected initializer in for in/of loop"
  | loopVariableType =>
    "The left-hand side of a 'for...of' statement cannot use a type annotation"
  | loopVariablePattern =>
    "The left-hand side of a 'for...in' statement cannot be a destructuring pattern"
  | asyncLoopVariable => "The left-hand side of a 'for...of' statement may not be `async`."
  | awaitLoop => "for await syntax is valid only for for-of statement"
  | secondDefault => "A switch block cannot have multiple defaults"
  | declarationNotAllowed => "Declaration is not allowed"
  | withTypes =>
    "The 'with' statement is not supported. All symbols in a 'with' block will have type 'any'."
  | withStrict => "With statement are not allowed in strict mode"
  | managedResource =>
    "Using declaration is not enabled. Set jsc.parser.explicitResourceManagement to true"
  | resourcePattern => "Using declaration only allows identifiers"
  | resourceWithoutValue => "Using declaration requires initializer"
  | builtInName => "interface name is invalid"
  | interfaceBase =>
    "An interface can only extend an identifier/qualified-name with optional type arguments."
  | indexParameters => "An index signature must have exactly one parameter"
  | setterParameterExpected => "Setter should have exactly one parameter"
  | importedTypeSource => "Literal in an import type should be string literal"
  | requiredElement => "A required element cannot follow an optional element."
  | typeModifier word => s!"'{word}' modifier cannot appear on a type parameter"
  | varianceModifier word =>
    s!"'{word}' modifier can only appear on a type parameter of a class, interface or type alias"
  | constModifier word =>
    s!"'{word}' modifier can only appear on a type parameter of a function, method or class"
  | numericMember => "An enum member cannot have a numeric name"
  | computedMember => "Computed property names are not allowed in enums"
  | nestedDeclaration => "A 'declare' modifier cannot be used in an already ambient context."
  | moduleItemInStatement => "'import', and 'export' cannot be used outside of module code"
  | importedString value =>
    "A string literal cannot be used as an imported binding.\n- Did you mean `import \x7b \"" ++
      value ++ "\" as foo \x7d`?"
  | exportedString => "A string literal cannot be used as an exported binding without `from`."
  | exportedWord word => s!"`{word}` cannot be used without `from` clause"
  | typeInTypeImport =>
    "The 'type' modifier cannot be used on a named import when 'import type' is used on its " ++
      "import statement."
  | typeInTypeExport =>
    "The 'type' modifier cannot be used on a named export when 'export type' is used on its " ++
      "export statement."

/-- A cause at the place that it is reported for. -/
structure SyntaxFault where
  /-- What is wrong. -/
  cause : SyntaxCause
  /-- Where. -/
  offset : Nat
deriving DecidableEq, Repr

end SvelteStories.Script
