import BoxFlow.Dom.Spec
import BoxFlow.Json.Reader

/-!
# Tree descriptions in JSON

A string is a text node. An object with exactly one member named comment, whose
value is a string, is a comment; any other object has to have exactly one tag, a
string, and at most one list of attributes and one of children. Members of other
names are ignored.
-/

namespace BoxFlow.Spec

/-- An attribute: an array of two strings. -/
def attributeOf? : Json → Option (String × String)
  | .array [.string name, .string value] => some (name, value)
  | _ => none

/-- The only member of that name read by `read?`, the default when there is none,
and `none` when it repeats. -/
def optionalMember? {α : Type} (members : List (String × Json)) (name : String) (default : α)
    (read? : Json → Option α) : Option α :=
  match Json.membersNamed name members with
  | [] => some default
  | [value] => read? value
  | _ => none

/-- The string that is the only member of that name. -/
def requiredString? (members : List (String × Json)) (name : String) : Option String :=
  match Json.membersNamed name members with
  | [value] => value.string?
  | _ => none

/-- A description in which elements are nested at most `levels` deep. -/
def ofJsonWithin? : Nat → Json → Option Spec
  | _, .string content => some (.text content)
  | 0, _ => none
  | levels + 1, .object members =>
    match requiredString? members "comment" with
    | some content => some (.comment content)
    | none => do
      let tag ← requiredString? members "tag"
      let attributes ← optionalMember? members "attrs" [] fun value =>
        value.array?.bind fun items => items.mapM attributeOf?
      let children ← optionalMember? members "children" [] fun value =>
        value.array?.bind fun items => items.mapM (ofJsonWithin? levels)
      some (.element tag attributes children)
  | _, _ => none

/-- The description a JSON value stands for. Each element takes two levels of
nesting, so the bound on the nesting of values bounds that of elements. -/
def ofJson? (value : Json) : Option Spec :=
  ofJsonWithin? Json.maxNesting value

/-- The description a JSON text stands for. -/
def read? (text : String) : Option Spec :=
  (Json.read? text.toList).bind ofJson?

end BoxFlow.Spec
