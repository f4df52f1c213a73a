/-!
# JSON values

The values of the data format that tree descriptions are written in. Members of
an object keep their order and may repeat; a number keeps no value, because no
part of a description is a number.
-/

namespace BoxFlow

/-- A JSON value. -/
inductive Json where
  | null
  | bool (value : Bool)
  | number
  | string (value : String)
  | array (items : List Json)
  | object (members : List (String × Json))
deriving Inhabited, Repr

namespace Json

/-- The string a value is, if it is one. -/
def string? : Json → Option String
  | .string s => some s
  | _ => none

/-- The items of an array. -/
def array? : Json → Option (List Json)
  | .array items => some items
  | _ => none

/-- The values of all members of that name, in order. -/
def membersNamed (name : String) (members : List (String × Json)) : List Json :=
  (members.filter fun m => m.1 == name).map Prod.snd

end Json

end BoxFlow
