/-
The export surface that turns a compiled component into a stories module:

* `ExportSurface`: what the surface is made from;
* `ExportSurface.items`: the import of the runtime helper, the call that makes the stories, the
  default export of the meta object, the order of the exports, and one export per story;
* `ExportSurface.text`: the items as text, to be added behind the module.
-/
import SvelteStories.Script.Build
import SvelteStories.Script.Printer
import SvelteStories.Story.Name

namespace SvelteStories

open Script

/-- The runtime helper that makes stories of a component and its meta object. -/
def runtimeHelper : String := "createRuntimeStories"

/-- The name that the helper's result is bound to. -/
def storiesName : String := "__stories"

/-- The local name of a story. -/
def storyLocalName (exportName : String) : String :=
  "__story_" ++ exportName

/-! ### The surface -/

/-- What the export surface of a stories module is made from. -/
structure ExportSurface where
  /-- Where the runtime helper is imported from. -/
  runtimeModule : String
  /-- The function of the compiled component. -/
  storiesFunction : String
  /-- The local name of the meta object. -/
  metaName : String
  /-- The export names of the stories, in document order. -/
  exportNames : List String
deriving DecidableEq, Repr

namespace ExportSurface

/-- The local binding of a story and its export. -/
def storyItems (exportName : String) : List ItemForm :=
  let value := Expr.member nowhere (nameExpr storiesName) (.computed (stringExpr exportName))
  [.statement (.variables (constant (storyLocalName exportName) value)),
   .exportNames [(.word nowhere (storyLocalName exportName), .word nowhere exportName)] none]

/-- The items of the surface. -/
def items (s : ExportSurface) : List ItemForm :=
  let stories := Expr.call ⟨nowhere, nameExpr runtimeHelper, [],
    [.plain (nameExpr s.storiesFunction), .plain (nameExpr s.metaName)]⟩
  [ItemForm.imports false [.named runtimeHelper runtimeHelper false] s.runtimeModule,
   .statement (.variables (constant storiesName stories)),
   .exportDefault (.expression (nameExpr s.metaName)),
   .exportDeclaration (.variables (constant exportsOrderName (stringsExpr s.exportNames)))]
    ++ s.exportNames.flatMap storyItems

/-- The surface as text that begins on a new line. -/
def text (s : ExportSurface) : List Char :=
  '\n' :: printItems s.items

end ExportSurface

end SvelteStories
