/-
The meta function, which declares what the stories of a file are about:

* `addonPackage`, `metaFunctionName`: where it comes from;
* `storyKey`, `metaKey`: what its result is destructured into;
* `ItemForm.variables?`, `Declarator.callOf?`: the declarations that may call it.

A stories file and the module it is compiled to both call the function.
-/
import SvelteStories.Script.Static

namespace SvelteStories

/-- The package that the meta function is imported from. -/
def addonPackage : String := "@storybook/addon-svelte-csf"

/-- The name that the package exports the meta function under. -/
def metaFunctionName : String := "defineMeta"

/-- The key of the story component. -/
def storyKey : String := "Story"

/-- The key of the meta object. -/
def metaKey : String := "meta"

namespace Script

/-- The variable declaration that an item makes, exported or not. -/
def ItemForm.variables? : ItemForm → Option VariableDeclaration
  | .statement (.variables d) | .exportDeclaration (.variables d) => some d
  | _ => none

/-- The call that a variable is initialised with. -/
def Declarator.call? (v : Declarator) : Option Call :=
  match v.init with
  | some (.call c) => some c
  | _ => none

/-- The call of a function that a variable is initialised with. -/
def Declarator.callOf? (name : String) (v : Declarator) : Option Call :=
  v.call?.filter fun c => c.calleeName? = some name

end Script

end SvelteStories
