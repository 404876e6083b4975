/-
What expressions evaluate to:

* `Value`: a value and the entries that can be read from it;
* `Environment`: the values of all that a tree alone does not settle;
* `Expr.value`, `ObjectLiteral.value`: the value of an expression. An object literal makes its entries
  from left to right, a spread makes those of its value, and the last entry of a key counts;
* `Value.get?`, `Value.under`: what stands under a key and under a path of keys;
* `ObjectLiteral.get?_value_of_split`: an entry comes from behind a property, from the property or
  from before it.
-/
import Mathlib.Data.List.Basic
import SvelteStories.Script.Build

namespace SvelteStories.Script

/-! ### Values -/

/-- What a value is, apart from its entries. -/
inductive Kind
  /-- A string. -/
  | text (value : String)
  /-- What an object literal gives. -/
  | object
  /-- Any other value, by a number of its own. -/
  | other (identity : Nat)
deriving DecidableEq, Repr

/-- A value and its own entries in the order in which they were made. A later entry of a key takes
the place of an older one. -/
inductive Value
  | mk (kind : Kind) (entries : List (String × Value))

namespace Value

/-- What a value is. -/
def kind : Value → Kind
  | mk kind _ => kind

/-- The entries of a value. -/
def entries : Value → List (String × Value)
  | mk _ entries => entries

/-- The string that a value is. -/
def text? (v : Value) : Option String :=
  match v.kind with
  | .text value => some value
  | .object | .other _ => none

/-- What stands under a key. -/
def get? (v : Value) (k : String) : Option Value :=
  v.entries.reverse.lookup k

/-- What stands under a path of keys. -/
def under (v : Value) : List String → Option Value
  | [] => some v
  | k :: path => (v.get? k).bind fun x => x.under path

end Value

/-- What the values of expressions depend on. -/
structure Environment where
  /-- The values of names. -/
  names : String → Value
  /-- The entries of strings: their characters under their positions. -/
  letters : String → List (String × Value)
  /-- The keys that are computed, or none for a symbol. -/
  keys : PropertyKey → Option String
  /-- The values of methods and what accessors give. -/
  methods : Property → Value
  /-- The values of the expressions that are neither names nor strings nor object literals. -/
  others : Expr → Value

/-- The value of a string. -/
def Environment.text (env : Environment) (value : String) : Value :=
  .mk (.text value) (env.letters value)

/-- The key that an entry gets. -/
def Environment.key? (env : Environment) (key : PropertyKey) : Option String :=
  match key.name? with
  | some name => some name
  | none => env.keys key

/-- The key with which a literal names the prototype of the object. It makes no entry. -/
def prototypeKey : String := "__proto__"

mutual

/-- The value of an expression. -/
def Expr.value (env : Environment) : Expr → Value
  | .identifier _ name => env.names name
  | .literal _ (.string value _) => env.text value
  | .object o => .mk .object (o.entries env)
  | .paren _ inner => inner.value env
  | e => env.others e

/-- The entries that an object literal makes. -/
def ObjectLiteral.entries (env : Environment) : ObjectLiteral → List (String × Value)
  | ⟨_, properties⟩ => entriesOfProperties env properties

/-- The entries that properties make one after the other. -/
def entriesOfProperties (env : Environment) : List Property → List (String × Value)
  | [] => []
  | p :: ps => p.entries env ++ entriesOfProperties env ps

/-- The entries that a property makes. -/
def Property.entries (env : Environment) : Property → List (String × Value)
  | .keyValue key value =>
    if key.name? = some prototypeKey then []
    else (env.key? key).toList.map fun k => (k, value.value env)
  | .shorthand _ name => [(name, env.names name)]
  | .initialized _ _ _ => []
  | .method span lead key parts =>
    (env.key? key).toList.map fun k => (k, env.methods (.method span lead key parts))
  | .spread _ value => (value.value env).entries

end

/-- The value of an object literal. -/
def ObjectLiteral.value (env : Environment) (o : ObjectLiteral) : Value :=
  .mk .object (o.entries env)

/-! ### Paths -/

/-- What stands under a path is what stands under its last key, in what stands before that. -/
lemma Value.under_concat (v : Value) (path : List String) (k : String) :
    v.under (path ++ [k]) = (v.under path).bind (·.get? k) := by
  induction path generalizing v with
  | nil => simp [under]
  | cons j path ih =>
      rw [List.cons_append, under, under, Option.bind_assoc]
      exact Option.bind_congr fun x _ => ih x

/-! ### Entries of object literals -/

section

variable {env : Environment} {o : ObjectLiteral} {p : Property} {before behind : List Property}
  {k j : String}

lemma lookup_reverse_append (entries entries' : List (String × Value)) :
    (entries ++ entries').reverse.lookup k
      = (entries'.reverse.lookup k).or (entries.reverse.lookup k) := by
  rw [List.reverse_append, List.lookup_append]

lemma entriesOfProperties_append (env : Environment) (ps qs : List Property) :
    entriesOfProperties env (ps ++ qs)
      = entriesOfProperties env ps ++ entriesOfProperties env qs := by
  induction ps with
  | nil => rfl
  | cons p ps ih => rw [List.cons_append, entriesOfProperties, entriesOfProperties, ih,
      List.append_assoc]

/-- What some properties put under a key. -/
def valueIn (env : Environment) (k : String) (ps : List Property) : Option Value :=
  (entriesOfProperties env ps).reverse.lookup k

/-- What a property puts under a key. -/
def Property.valueAt (env : Environment) (k : String) (p : Property) : Option Value :=
  (p.entries env).reverse.lookup k

lemma ObjectLiteral.get?_value (env : Environment) (o : ObjectLiteral) (k : String) :
    (o.value env).get? k = valueIn env k o.properties := by
  cases o
  rfl

/-- An entry comes from behind a property, from the property or from before it. -/
lemma valueIn_split (env : Environment) (k : String) (p : Property) (before behind : List Property) :
    valueIn env k (before ++ p :: behind)
      = (valueIn env k behind).or ((p.valueAt env k).or (valueIn env k before)) := by
  simp only [valueIn, Property.valueAt, entriesOfProperties_append, entriesOfProperties,
    lookup_reverse_append, Option.or_assoc]

lemma ObjectLiteral.get?_value_of_split (env : Environment) (k : String)
    (h : o.properties = before ++ p :: behind) :
    (o.value env).get? k
      = (valueIn env k behind).or ((p.valueAt env k).or (valueIn env k before)) := by
  rw [get?_value, h, valueIn_split]

/-- When an entry is replaced, either a later one counts anyway or the values take turns. -/
lemma ObjectLiteral.get?_value_replace_cases {q : Property} {v w : Value}
    (h : o.properties = before ++ p :: behind) (hp : p.valueAt env k = some v)
    (hq : q.valueAt env k = some w) :
    (({ o with properties := before ++ q :: behind } : ObjectLiteral).value env).get? k
        = (o.value env).get? k
      ∨ (o.value env).get? k = some v
        ∧ (({ o with properties := before ++ q :: behind } : ObjectLiteral).value env).get? k
          = some w := by
  rw [get?_value_of_split env k h, get?_value_of_split env k rfl, hp, hq]
  cases valueIn env k behind with
  | some x => exact Or.inl rfl
  | none => exact Or.inr ⟨rfl, rfl⟩

/-- A property with a name puts nothing under another key. -/
lemma Property.valueAt_eq_none (hname : p.name? = some j) (hk : k ≠ j) :
    p.valueAt env k = none := by
  have hne : (k == j) = false := by simpa using hk
  cases p with
  | keyValue key value =>
      have hkey : env.key? key = some j := by rw [Environment.key?, show key.name? = some j from hname]
      rw [valueAt, entries]
      split
      · rfl
      · simp [hkey, List.lookup_cons, hne]
  | shorthand span name =>
      obtain rfl : name = j := Option.some.inj hname
      simp [valueAt, entries, List.lookup_cons, hne]
  | initialized span name value => rfl
  | method span lead key parts =>
      have hkey : env.key? key = some j := by rw [Environment.key?, show key.name? = some j from hname]
      simp [valueAt, entries, hkey, List.lookup_cons, hne]
  | spread span value => simp [name?] at hname

/-- A property can be replaced by another one of its name as far as other keys are concerned. -/
lemma ObjectLiteral.get?_value_replace_of_ne {q : Property}
    (h : o.properties = before ++ p :: behind) (hp : p.name? = some j) (hq : q.name? = some j)
    (hk : k ≠ j) :
    (({ o with properties := before ++ q :: behind } : ObjectLiteral).value env).get? k
      = (o.value env).get? k := by
  rw [get?_value_of_split env k h, get?_value_of_split env k rfl, Property.valueAt_eq_none hp hk,
    Property.valueAt_eq_none hq hk]

/-- A key and a value make an entry. -/
lemma Property.valueAt_keyValue {key : PropertyKey} (hname : key.name? = some k)
    (hk : k ≠ prototypeKey) (env : Environment) (value : Expr) :
    (keyValue key value).valueAt env k = some (value.value env) := by
  have hkey : env.key? key = some k := by rw [Environment.key?, hname]
  have hproto : key.name? ≠ some prototypeKey := by simpa [hname] using hk
  simp [valueAt, entries, hkey, if_neg hproto]

/-- A name alone makes an entry. -/
lemma Property.valueAt_shorthand (env : Environment) (span : Span) (name : String) :
    (shorthand span name).valueAt env name = some (env.names name) := by
  simp [valueAt, entries]

/-- An object with all that a value has. -/
lemma get?_value_spreadOf (env : Environment) (e : Expr) (k : String) :
    ((spreadOf e).value env).get? k = (e.value env).get? k := by
  rw [ObjectLiteral.get?_value]
  simp [valueIn, spreadOf, objectOf, entriesOfProperties, Property.entries, Value.get?]

/-- An object without properties has no entries. -/
lemma get?_value_objectOf_nil (env : Environment) (k : String) :
    ((objectOf []).value env).get? k = none := rfl

end

end SvelteStories.Script
