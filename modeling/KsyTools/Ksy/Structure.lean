/-
# The structure of format descriptions

What a node means follows from the keys around it.  Imports are the scalars below an `imports` key,
uses of types are the values of `type` keys.  Types are defined in `types` blocks: a `types` key of
the top-level mapping, or of the body of a type that is itself defined in such a block.
-/
import KsyTools.Document.Node

namespace KsyTools

namespace Ksy

/-- The key of imports. -/
def importsKey : String := "imports"

/-- The key of blocks of type definitions. -/
def typesKey : String := "types"

/-- The key of uses of types. -/
def typeKey : String := "type"

mutual

/-- Whether a node inside `ancestors`, nearest first, is the body of a type: the top-level mapping,
or the value of a definition in a `types` block. -/
def isTypeBodyIn (n : Node) : (ancestors : List Node) → Bool
  | [] => n.is .mapping
  | owner :: above =>
    n.is .mapping && owner.is .keyValue &&
      (match above with
        | _ :: block :: above => isTypesBlockIn block above
        | _ => false)

/-- Whether a node inside `ancestors`, nearest first, is a `types` key with a mapping as its value,
directly in the body of a type. -/
def isTypesBlockIn (n : Node) : (ancestors : List Node) → Bool
  | [] => false
  | parent :: above =>
    n.hasKey typesKey && n.value?.any (·.is .mapping) && isTypeBodyIn parent above

end

end Ksy

namespace Located

/-- A scalar somewhere below an `imports` key. -/
def isImport (l : Located) : Bool :=
  l.node.is .scalar && l.ancestors.any (·.hasKey Ksy.importsKey)

/-- A scalar that is the value of a `type` key. -/
def isTypeUse (l : Located) : Bool :=
  l.node.is .scalar && l.parent?.any (·.hasKey Ksy.typeKey)

/-- The top-level mapping, or the body of a defined type. -/
def isTypeBody (l : Located) : Bool :=
  Ksy.isTypeBodyIn l.node l.ancestors

/-- A block of type definitions. -/
def isTypesBlock (l : Located) : Bool :=
  Ksy.isTypesBlockIn l.node l.ancestors

end Located

end KsyTools
