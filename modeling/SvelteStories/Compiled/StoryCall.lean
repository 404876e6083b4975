/-
Calls of the story component in compiled code:

* `StoryCall`: a call, and whether it stands as a statement of its own;
* `StoryCall.props?`: the object literal that carries the story's properties;
* `Expr.storyCalls`, `Statement.storyCalls` and their companions: the calls in a tree, in the order
  in which the tree is walked. Inside a story call no other one is looked for.
-/
import SvelteStories.Script.Static

namespace SvelteStories

open Script

/-- The function that checks a component while developing. -/
def validatorName : String := "validate_component"

/-- A call of the story component. -/
structure StoryCall where
  /-- The call. -/
  call : Call
  /-- Whether a checked component is called, as a statement. -/
  isStatement : Bool

/-- The first object literal among the arguments of a call. -/
def Script.Call.firstObject? (c : Call) : Option ObjectLiteral :=
  c.arguments.findSome? fun a =>
    match a with
    | .plain (.object o) => some o
    | _ => none

/-- The properties of the story: the second argument, or the first object literal that a call in its
place is given. -/
def StoryCall.props? (s : StoryCall) : Option ObjectLiteral :=
  match s.call.arguments with
  | _ :: .plain (.object o) :: _ => some o
  | _ :: .plain (.call c) :: _ => c.firstObject?
  | _ => none

/-- Whether an expression names the function that checks components, alone or as a member. -/
def isValidator : Expr → Bool
  | .identifier _ name => name = validatorName
  | .member _ _ (.name name) => name = validatorName
  | _ => false

/-- Whether an expression is a name. -/
def isNamed (name : String) : Expr → Bool
  | .identifier _ n => n = name
  | _ => false

/-- Whether a call is one of the checked story component. -/
def isCheckedCall (story : String) (c : Call) : Bool :=
  match c.callee with
  | .call checked =>
    isValidator checked.callee
      && (match checked.arguments with
          | [a] => isNamed story a.value
          | _ => false)
  | _ => false

/-- Whether a call is one of the story component. -/
def isStoryCall (story : String) (c : Call) : Bool :=
  c.calleeName? = some story || isCheckedCall story c

/-- Whether an expression is a call of the checked story component. -/
def Script.Expr.isCheckedCall (story : String) : Expr → Bool
  | .call c => SvelteStories.isCheckedCall story c
  | _ => false

/-- A call that stands as a statement. -/
def Script.Expr.asStatement : Expr → List StoryCall
  | .call c => [⟨c, true⟩]
  | _ => []

mutual

/-- The story calls in an expression. -/
def Script.Expr.storyCalls (story : String) : Expr → List StoryCall
  | .identifier _ _ | .literal _ _ => []
  | .template _ parts => storyCallsOfPieces story parts
  | .array _ elements => storyCallsOfElements story elements
  | .object o => o.storyCalls story
  | .paren _ inner => inner.storyCalls story
  | .member _ object key => object.storyCalls story ++ key.storyCalls story
  | .call c => if isStoryCall story c then [⟨c, false⟩] else c.storyCalls story
  | .function _ parts | .arrow _ parts => storyCallsOfPieces story parts
  | .classes _ head heritage body =>
    storyCallsOfPieces story head ++ storyCallsOfPieces story body
      ++ storyCallsOfPieces story heritage
  | .assign _ target _ value => target.storyCalls story ++ value.storyCalls story
  | .annotated _ _ lead inner trail =>
    storyCallsOfPieces story lead ++ inner.storyCalls story ++ storyCallsOfPieces story trail
  | .compound _ _ parts => storyCallsOfPieces story parts

/-- The story calls in the properties of an object. -/
def Script.ObjectLiteral.storyCalls (story : String) : ObjectLiteral → List StoryCall
  | ⟨_, properties⟩ => storyCallsOfProperties story properties

/-- The story calls in the callee and the arguments of a call. -/
def Script.Call.storyCalls (story : String) : Call → List StoryCall
  | ⟨_, callee, _, arguments⟩ => callee.storyCalls story ++ storyCallsOfArguments story arguments

/-- The story calls in arguments. -/
def storyCallsOfArguments (story : String) : List Argument → List StoryCall
  | [] => []
  | a :: as => a.storyCalls story ++ storyCallsOfArguments story as

/-- The story calls in an argument. -/
def Script.Argument.storyCalls (story : String) : Argument → List StoryCall
  | .plain value | .spread value => value.storyCalls story

/-- The story calls in elements of an array. -/
def storyCallsOfElements (story : String) : List Element → List StoryCall
  | [] => []
  | e :: es => e.storyCalls story ++ storyCallsOfElements story es

/-- The story calls in an element of an array. -/
def Script.Element.storyCalls (story : String) : Element → List StoryCall
  | .hole => []
  | .plain value | .spread _ value => value.storyCalls story

/-- The story calls in the name of a member. -/
def Script.MemberKey.storyCalls (story : String) : MemberKey → List StoryCall
  | .name _ | .privateName _ => []
  | .computed key => key.storyCalls story

/-- The story calls in the key of a property. -/
def Script.PropertyKey.storyCalls (story : String) : PropertyKey → List StoryCall
  | .identifier _ _ | .string _ _ _ | .number _ _ _ | .bigint _ _ => []
  | .computed _ key => key.storyCalls story

/-- The story calls in properties. -/
def storyCallsOfProperties (story : String) : List Property → List StoryCall
  | [] => []
  | p :: ps => p.storyCalls story ++ storyCallsOfProperties story ps

/-- The story calls in a property. -/
def Script.Property.storyCalls (story : String) : Property → List StoryCall
  | .keyValue key value => key.storyCalls story ++ value.storyCalls story
  | .shorthand _ _ => []
  | .initialized _ _ value | .spread _ value => value.storyCalls story
  | .method _ _ key parts => key.storyCalls story ++ storyCallsOfPieces story parts

/-- The story calls in a pattern. -/
def Script.Pattern.storyCalls (story : String) : Pattern → List StoryCall
  | .identifier _ _ _ => []
  | .object o => o.storyCalls story
  | .array _ elements _ => storyCallsOfPatternElements story elements
  | .withDefault _ target value => target.storyCalls story ++ value.storyCalls story
  | .rest _ target _ => target.storyCalls story
  | .target value => value.storyCalls story

/-- The story calls in an object pattern. -/
def Script.ObjectPattern.storyCalls (story : String) : ObjectPattern → List StoryCall
  | ⟨_, properties, _⟩ => storyCallsOfPatternProperties story properties

/-- The story calls in properties of a pattern. -/
def storyCallsOfPatternProperties (story : String) : List PatternProperty → List StoryCall
  | [] => []
  | p :: ps => p.storyCalls story ++ storyCallsOfPatternProperties story ps

/-- The story calls in a property of a pattern. -/
def Script.PatternProperty.storyCalls (story : String) : PatternProperty → List StoryCall
  | .keyValue key value => key.storyCalls story ++ value.storyCalls story
  | .shorthand _ _ none => []
  | .shorthand _ _ (some value) => value.storyCalls story
  | .rest _ target => target.storyCalls story

/-- The story calls in elements of a pattern. -/
def storyCallsOfPatternElements (story : String) : List PatternElement → List StoryCall
  | [] => []
  | e :: es => e.storyCalls story ++ storyCallsOfPatternElements story es

/-- The story calls in an element of a pattern. -/
def Script.PatternElement.storyCalls (story : String) : PatternElement → List StoryCall
  | .hole => []
  | .bound target => target.storyCalls story

/-- The story calls in a variable declaration. -/
def Script.VariableDeclaration.storyCalls (story : String) :
    VariableDeclaration → List StoryCall
  | ⟨_, _, declarators⟩ => storyCallsOfDeclarators story declarators

/-- The story calls in declared variables. -/
def storyCallsOfDeclarators (story : String) : List Declarator → List StoryCall
  | [] => []
  | d :: ds => d.storyCalls story ++ storyCallsOfDeclarators story ds

/-- The story calls in a declared variable. -/
def Script.Declarator.storyCalls (story : String) : Declarator → List StoryCall
  | ⟨target, none⟩ => target.storyCalls story
  | ⟨target, some value⟩ => target.storyCalls story ++ value.storyCalls story

/-- The story calls in a statement. A loop that tests behind its body is walked test first. -/
def Script.Statement.storyCalls (story : String) : Statement → List StoryCall
  | .expression _ value =>
    if value.isCheckedCall story then value.asStatement else value.storyCalls story
  | .variables d => d.storyCalls story
  | .function _ _ parts => storyCallsOfPieces story parts
  | .classes _ _ head heritage body =>
    storyCallsOfPieces story head ++ storyCallsOfPieces story body
      ++ storyCallsOfPieces story heritage
  | .block _ statements => storyCallsOfStatements story statements
  | .doWhile _ body test => test.storyCalls story ++ body.storyCalls story
  | .compound _ parts => storyCallsOfPieces story parts

/-- The story calls in statements. -/
def storyCallsOfStatements (story : String) : List Statement → List StoryCall
  | [] => []
  | s :: ss => s.storyCalls story ++ storyCallsOfStatements story ss

/-- The story calls in a layout. -/
def storyCallsOfPieces (story : String) : List Piece → List StoryCall
  | [] => []
  | p :: ps => p.storyCalls story ++ storyCallsOfPieces story ps

/-- The story calls in a part of a layout. -/
def Script.Piece.storyCalls (story : String) : Piece → List StoryCall
  | .text _ | .newline => []
  | .deeper parts => storyCallsOfPieces story parts
  | .expr value => value.storyCalls story
  | .pattern value => value.storyCalls story
  | .key value => value.storyCalls story
  | .statement value => value.storyCalls story
  | .declaration value => value.storyCalls story

end

end SvelteStories
