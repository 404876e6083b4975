/-
How written trees are printed, without opening the printer: strings as quoted texts, objects with
their properties one behind the other.
-/
import Mathlib.Tactic.Common
import SvelteStories.Script.Build
import SvelteStories.Script.Printer

namespace SvelteStories.Script

variable (depth : Nat)

lemma print_stringExpr (value : String) : (stringExpr value).print depth = quote value.toList :=
  String.toList_ofList

lemma print_object (o : ObjectLiteral) : (Expr.object o).print depth = o.print depth :=
  rfl

lemma print_keyValue (key : PropertyKey) (value : Expr) :
    (Property.keyValue key value).print depth = key.print depth ++ ':' :: ' ' :: value.print depth :=
  rfl

lemma print_entry (key : String) (value : Expr) :
    (entry key value).print depth = key.toList ++ ':' :: ' ' :: value.print depth :=
  rfl

lemma print_of_cons (span : Span) (p : Property) (ps : List Property) :
    (ObjectLiteral.mk span (p :: ps)).print depth
      = '{' :: newLine (depth + 1) ++ printProperties (depth + 1) (p :: ps)
        ++ newLine depth ++ ['}'] :=
  rfl

lemma printProperties_singleton (p : Property) : printProperties depth [p] = p.print depth :=
  rfl

lemma printProperties_cons_cons (p q : Property) (ps : List Property) :
    printProperties depth (p :: q :: ps)
      = p.print depth ++ ',' :: newLine depth ++ printProperties depth (q :: ps) :=
  rfl

end SvelteStories.Script
