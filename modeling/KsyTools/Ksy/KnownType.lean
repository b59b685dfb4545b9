/-
# Type names

The name of a type may have arguments in parentheses, and may be a path into nested definitions
with `::` between its segments.
-/
import KsyTools.Ksy.StandardType
import KsyTools.Ksy.Types

namespace KsyTools.Ksy

/-- A count of bits with a byte order: `b`, at least one decimal digit, and `le` or `be`. -/
def isEndianBitType (cs : List Char) : Bool :=
  match cs.reverse with
  | 'e' :: order :: front => (order == 'l' || order == 'b') && isBitType front.reverse
  | _ => false

/-- The name without arguments: where it ends with a closing parenthesis, all from the first opening
one on is dropped. -/
def dropArguments (cs : List Char) : List Char :=
  if cs.getLast? = some ')' && cs.contains '(' then cs.takeWhile (· != '(') else cs

/-- The segments of a path of names. -/
def segments : List Char → List (List Char)
  | [] => [[]]
  | ':' :: ':' :: rest => [] :: segments rest
  | c :: rest =>
    match segments rest with
    | s :: others => (c :: s) :: others
    | [] => [[c]]

/-- The definition with a name in the `types` block of a definition's body. -/
def nestedDefinition? (definition : Node) (name : String) : Option Node := do
  let body ← definition.value?
  let nested ← body.get? typesKey
  nested.keyValues.find? (·.hasKey name)

/-- Whether a path of names leads from a definition to another one. -/
def leadsTo (definition : Node) : List String → Bool
  | [] => true
  | name :: rest =>
    match nestedDefinition? definition name with
    | some inner => leadsTo inner rest
    | none => false

/-- Whether a name is that of a type: of a standard one, or a path into one of the definitions. -/
def isKnownType (text : String) (types : List Definition) : Bool :=
  let bare := Text.trim text.toList
  if isEndianBitType bare then true
  else
    let name := Text.trim (dropArguments bare)
    if isStandardType (String.ofList name) then true
    else
      match (segments name).map String.ofList with
      | first :: rest =>
        types.any fun d => d.located.node.hasKey first && leadsTo d.located.node rest
      | [] => false

end KsyTools.Ksy
