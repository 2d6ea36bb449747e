import PotholeServer.Json.Validation

/-!
# Answers that repeat a document

The answer to a refused document repeats, with every error, what was refused. FastAPI copies it with
`jsonable_encoder` and Starlette writes it with `json.dumps`, as UTF-8 and without the numbers that
JSON does not have: not every document that `json.loads` takes can be repeated.
-/

namespace PotholeServer

variable {R : Type}

namespace PyFloat

/-- `json.dumps` with `allow_nan=False` writes the float. -/
def isFinite : PyFloat R → Bool
  | .finite _ => true
  | .nan | .inf _ => false

end PyFloat

namespace PyStr

/-- The string can be encoded in UTF-8. -/
def isUnicode (s : PyStr) : Bool := s.chars?.isSome

/-- `jsonable_encoder` leaves the member out: `key.startswith("_sa")`. -/
def isLeftOut (name : PyStr) : Bool := (ofChars ['_', 's', 'a']).isPrefixOf name

end PyStr

namespace PyValue

mutual

/-- The value can be repeated; arrays and objects may nest `depth` deep. -/
def repeatable (depth : Nat) : PyValue R → Bool
  | .null | .bool _ | .int _ => true
  | .float x => x.isFinite
  | .str s => s.isUnicode
  | .list items =>
    match depth with
    | 0 => false
    | depth + 1 => repeatableItems depth items
  | .dict members =>
    match depth with
    | 0 => false
    | depth + 1 => repeatableMembers depth members

/-- `repeatable` on the items of a list. -/
def repeatableItems (depth : Nat) : List (PyValue R) → Bool
  | [] => true
  | item :: items => repeatable depth item && repeatableItems depth items

/-- `repeatable` on the members of a dictionary. -/
def repeatableMembers (depth : Nat) : List (PyStr × PyValue R) → Bool
  | [] => true
  | (name, value) :: members =>
    (name.isLeftOut || name.isUnicode && repeatable depth value) && repeatableMembers depth members

end

end PyValue

namespace Validation

/-- The value at a place. -/
def valueAt : List Loc → PyValue R → Option (PyValue R)
  | [], v => some v
  | .field name :: rest, .dict members => (value? name members).bind (valueAt rest)
  | .index i :: rest, .list items => items[i]?.bind (valueAt rest)
  | _ :: _, _ => none

/-- `input` of an error in the body: what is at its place, and for a member that is missing the
object without it. -/
def FieldError.input (e : FieldError) (body : Option (PyValue R)) : PyValue R :=
  let place := if e.type = "missing" then e.loc.dropLast else e.loc
  (body.bind (valueAt place.tail)).getD .null

end Validation

end PotholeServer
