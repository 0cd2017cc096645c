/-!
# Target languages
-/

namespace ShapeExport

inductive Language
  | typescript
  | jsonschema
  | zod
deriving DecidableEq, Repr

namespace Language

def all : List Language := [typescript, jsonschema, zod]

def name : Language → String
  | typescript => "typescript"
  | jsonschema => "jsonschema"
  | zod => "zod"

def ofName? (s : String) : Option Language := all.find? (·.name == s)

end Language

end ShapeExport
