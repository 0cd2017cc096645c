import ShapeExport.Error

/-!
# Representations as JSON

A representation is an object that is told by its keys.

* `Tagging.ofJson`, `Tagging.toJson` : reading and writing a representation. What is written is read
  back as the same.
-/

namespace ShapeExport.Tagging

def ofMembers? : Json.Members → Option Tagging
  | [("external", v)] => if v.isTruthy then some external else none
  | [("untagged", v)] => if v.isTruthy then some untagged else none
  | [("string", casing)] => some (strings casing)
  | [("tag", tag)] => some (internal tag)
  | [("tag", tag), ("content", content)] | [("content", content), ("tag", tag)] =>
    some (adjacent tag content)
  | _ => none

/-- Reads the representation of the enum with the given name. -/
def ofJson (enum : String) (j : Json) : Except Error Tagging :=
  match j with
  | .object members =>
    match ofMembers? members with
    | some t => .ok t
    | none => .error (.invalidTagging [enum] (.unrecognized j))
  | _ => .error (.invalidTagging [enum] (.notAMapping j))

def toJson : Tagging → Json
  | external => .object [("external", .bool true)]
  | untagged => .object [("untagged", .bool true)]
  | strings casing => .object [("string", casing)]
  | internal tag => .object [("tag", tag)]
  | adjacent tag content => .object [("tag", tag), ("content", content)]

theorem ofJson_toJson (enum : String) (t : Tagging) : ofJson enum t.toJson = .ok t := by
  cases t <;> rfl

end ShapeExport.Tagging
