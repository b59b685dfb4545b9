/-
# Checking values

The check goes down the value: for each part there is a function from schemas to reports, and the
rules about a container apply these functions to its parts.  References to other schemas are
followed as often as there are definitions: whoever follows more of them at the same value goes in
circles.
-/
import KsyTools.Schema.Basic
import KsyTools.Schema.Report
import KsyTools.Text.Basic

namespace KsyTools

open Yaml (Atom)

/-- Whether a value is of a type.  A number without fraction is an integer however it is written;
truth values are not numbers. -/
def Value.isOfType (v : Value) (t : SimpleType) : Bool :=
  match t, v with
  | .array, .list _ => true
  | .boolean, .atom (.bool _) => true
  | .integer, .atom (.int _) => true
  | .integer, .atom (.float x) => x.toInt?.isSome
  | .null, .atom .null => true
  | .number, .atom a => a.isNumber
  | .object, .object _ => true
  | .string, .atom (.str _) => true
  | _, _ => false

/-- The check of a part of a value. -/
abbrev Check := Schema → Report

/-- A value and the checks of its parts. -/
structure Subject where
  value : Value
  items : List Check
  members : List (String × Check)
  /-- The checks of the names of the members. -/
  names : List Check

/-- A value without parts that a schema could look at. -/
def Subject.plain (value : Value) : Subject :=
  ⟨value, [], [], []⟩

namespace Report

/-- A finding that shows the value; it cannot be made if the value cannot be written. -/
def about (v : Value) (message : String) : Report :=
  if v.isWritable then finding message else broken (.number .tooLong)

/-- A finding that shows the value and says what is wrong with it. -/
def problem (v : Value) (what : String) : Report :=
  about v s!"{v.expression} {what}"

/-- Nothing is found where something holds as expected. -/
def expect (holds : Bool) (otherwise : Unit → Report) : Report :=
  if holds then .empty else otherwise ()

/-- The report about a part.  That a part is not allowed at all is said of the whole. -/
def part (token : PathToken) (check : Check) (schema : Schema) : Report :=
  match schema with
  | .nothing => check .nothing
  | schema => (check schema).under token

/-- Reports about items of an array, numbered from `index` on. -/
def items (schema : Schema) (index : Nat) : List Check → Report
  | [] => .empty
  | check :: rest =>
    (part (.ofIndex index) check schema).andThen fun _ => items schema (index + 1) rest

/-- Reports about items of an array that have a schema each, numbered from `index` on. -/
def firstItems (index : Nat) : List Schema → List Check → Report
  | schema :: schemas, check :: rest =>
    (part (.ofIndex index) check schema).andThen fun _ => firstItems (index + 1) schemas rest
  | _, _ => .empty

end Report

/-! ## Wordings -/

/-- Texts in quotes with commas between them. -/
def quotedList (texts : List String) : String :=
  ", ".intercalate (texts.map Text.quote)

/-- Texts in the order of their characters. -/
def sortedTexts (texts : List String) : List String :=
  texts.mergeSort fun a b => decide (a ≤ b)

/-- The finding about members that are not covered. -/
def extraMessage (extras : List String) (patterns? : Option MemberPatterns) : String :=
  let names := quotedList (sortedTexts extras)
  match patterns? with
  | some patterns =>
    let verb := if extras.length = 1 then "does" else "do"
    let texts := quotedList (sortedTexts patterns.sources)
    s!"{names} {verb} not match any of the regexes: {texts}"
  | none =>
    let verb := if extras.length = 1 then "was" else "were"
    s!"Additional properties are not allowed ({names} {verb} unexpected)"

/-- The finding about items that are not covered. -/
def extraItemsMessage (extras : List Value) : String :=
  let texts := ", ".intercalate (extras.map Value.expression)
  let verb := if extras.length = 1 then "was" else "were"
  s!"Additional items are not allowed ({texts} {verb} unexpected)"

/-- What is wrong with something that is too small. -/
def tooSmall (least : Nat) (otherwise : String) : String :=
  if least = 1 then "should be non-empty" else otherwise

/-- What is wrong with something that is too large. -/
def tooLarge (most : Nat) (otherwise : String) : String :=
  if most = 0 then "is expected to be empty" else otherwise

namespace Schema

/-! ## Rules that look at the value only -/

/-- The report of a rule about numbers. -/
def numberReport (a : Atom) : Schema → Report
  | .minimum bound =>
    .expect (!a.lessThan bound) fun _ =>
      .problem (.atom a) s!"is less than the minimum of {bound.expression}"
  | .maximum bound =>
    .expect (!bound.lessThan a) fun _ =>
      .problem (.atom a) s!"is greater than the maximum of {bound.expression}"
  | .exclusiveMinimum bound =>
    .expect (!a.atMost bound) fun _ =>
      .problem (.atom a) s!"is less than or equal to the minimum of {bound.expression}"
  | .exclusiveMaximum bound =>
    .expect (!bound.atMost a) fun _ =>
      .problem (.atom a) s!"is greater than or equal to the maximum of {bound.expression}"
  | .multipleOf divisor =>
    .given ((a.isMultiple divisor).mapError .number) fun holds =>
      .expect holds fun _ => .problem (.atom a) s!"is not a multiple of {divisor.expression}"
  | _ => .empty

/-- The report of a rule about texts. -/
def textReport (s : String) : Schema → Report
  | .pattern p =>
    .given (p.isIn s) fun found =>
      .expect found fun _ => .finding s!"{Text.quote s} does not match {Text.quote p.source}"
  | .minLength n =>
    .expect (n ≤ s.length) fun _ => .problem (.atom (.str s)) (tooSmall n "is too short")
  | .maxLength n =>
    .expect (s.length ≤ n) fun _ => .problem (.atom (.str s)) (tooLarge n "is too long")
  | .regularExpression =>
    match Text.Regex.read s with
    | .ok _ => .empty
    | .error .repetitions => .broken (.pattern s .repetitions)
    | .error .alphabets => .broken (.pattern s .alphabets)
    | .error _ => .finding s!"{Text.quote s} is not a 'regex'"
  | _ => .empty

/-- The report of a rule about arrays as a whole. -/
def arrayReport (elements : List Value) : Schema → Report
  | .minItems n =>
    .expect (n ≤ elements.length) fun _ => .problem (.list elements) (tooSmall n "is too short")
  | .maxItems n =>
    .expect (elements.length ≤ n) fun _ => .problem (.list elements) (tooLarge n "is too long")
  | .uniqueItems =>
    .expect (Value.areDistinct elements) fun _ =>
      .problem (.list elements) "has non-unique elements"
  | .brokenForArrays failure => .broken failure
  | _ => .empty

/-- The report of a rule about objects as a whole. -/
def objectReport (members : List (String × Value)) : Schema → Report
  | .required names =>
    .forEach (fun name =>
      .expect (members.any fun m => m.1 == name) fun _ =>
        .finding s!"{Text.quote name} is a required property") names
  | .dependentNames name names =>
    .expect (!members.any fun m => m.1 == name) fun _ =>
      .forEach (fun needed =>
        .expect (members.any fun m => m.1 == needed) fun _ =>
          .finding s!"{Text.quote needed} is a dependency of {Text.quote name}") names
  | .minProperties n =>
    .expect (n ≤ members.length) fun _ =>
      .problem (.object members) (tooSmall n "does not have enough properties")
  | .maxProperties n =>
    .expect (members.length ≤ n) fun _ =>
      .problem (.object members) (tooLarge n "has too many properties")
  | _ => .empty

/-- The report of a rule that looks at the value only. -/
def valueReport (v : Value) : Schema → Report
  | .nothing => .about v s!"False schema does not allow {v.expression}"
  | .broken failure => .broken failure
  | .ofType types =>
    .expect (types.any v.isOfType) fun _ =>
      .problem v s!"is not of type {quotedList (types.map SimpleType.name)}"
  | .enum values =>
    .expect (values.any v.equals) fun _ =>
      .problem v s!"is not one of {(Value.list values).expression}"
  | .const value => .expect (v.equals value) fun _ => .finding s!"{value.expression} was expected"
  | rule =>
    match v with
    | .atom (.str s) => textReport s rule
    | .atom a => if a.isNumber then numberReport a rule else .empty
    | .list elements => arrayReport elements rule
    | .object members => objectReport members rule
    | .other _ => .empty

/-! ## Rules about parts -/

/-- The members that are not covered by names and patterns. -/
def extraMembers (names : List String) (patterns? : Option MemberPatterns) :
    List (String × Check) → Except Failure (List (String × Check))
  | [] => .ok []
  | (name, check) :: rest => do
    let covered ←
      if names.contains name then pure true
      else
        match patterns? with
        | some patterns => patterns.joined.isIn name
        | none => pure false
    let more ← extraMembers names patterns? rest
    return if covered then more else (name, check) :: more

/-- The report of a rule about parts of the value. -/
def partReport (subject : Subject) : Schema → Report
  | .properties members =>
    .forEach (fun (name, schema) =>
      match subject.members.lookup name with
      | some check => .part (.ofKey name) check schema
      | none => .empty) members
  | .patternProperties members =>
    .forEach (fun (p, schema) =>
      .forEach (fun (name, check) =>
        .given (p.isIn name) fun found =>
          .expect (!found) fun _ => .part (.ofKey name) check schema) subject.members) members
  | .additionalProperties names patterns? extra =>
    .given (extraMembers names patterns? subject.members) fun extras =>
      match extra with
      | .anything => .empty
      | .nothing =>
        .expect extras.isEmpty fun _ => .finding (extraMessage (extras.map Prod.fst) patterns?)
      | schema => .forEach (fun (name, check) => .part (.ofKey name) check schema) extras
  | .propertyNames schema => .forEach (fun check => check schema) subject.names
  | .items schema => .items schema 0 subject.items
  | .firstItems schemas => .firstItems 0 schemas subject.items
  | .additionalItems covered extra =>
    match extra, subject.value with
    | .anything, _ => .empty
    | .nothing, .list elements =>
      .expect (elements.length ≤ covered) fun _ =>
        let extras := elements.drop covered
        .about (.list extras) (extraItemsMessage extras)
    | schema, _ => .items schema covered (subject.items.drop covered)
  | .contains schema =>
    match subject.value with
    | .list _ =>
      .given (subject.items.anyM fun check => (check schema).verdict) fun found =>
        .expect found fun _ =>
          .about subject.value
            s!"None of {subject.value.expression} are valid under the given schema"
    | _ => .empty
  | rule => valueReport subject.value rule

/-! ## Rules made of schemas -/

mutual

/-- The report of a schema about a value; `onRef` gives those of the schemas it refers to. -/
def report (onRef : Subject → String → Report) (subject : Subject) : Schema → Report
  | .anything => .empty
  | .rules parts => reportAll onRef subject parts
  | .anyOf schemas =>
    .given (anyHolds onRef subject schemas) fun holds =>
      .expect holds fun _ =>
        .problem subject.value "is not valid under any of the given schemas"
  | .oneOf schemas =>
    .given (firstHolding onRef subject schemas) fun
      | (none, _) => .problem subject.value "is not valid under any of the given schemas"
      | (some first, more) =>
        .expect more.isEmpty fun _ =>
          .problem subject.value ("is valid under each of " ++ ", ".intercalate (more ++ [first]))
  | .not schema written =>
    .given (report onRef subject schema).verdict fun holds =>
      .expect (!holds) fun _ => .problem subject.value s!"should not be valid under {written}"
  | .ifThenElse condition yes no =>
    match (report onRef subject condition).verdict with
    | .ok true => report onRef subject yes
    | .ok false => report onRef subject no
    | .error failure => .broken failure
  | .dependentSchema name schema =>
    if (subject.members.lookup name).isSome then report onRef subject schema else .empty
  | .ref name => onRef subject name
  | rule => partReport subject rule

/-- The reports of several schemas, one after another. -/
def reportAll (onRef : Subject → String → Report) (subject : Subject) : List Schema → Report
  | [] => .empty
  | schema :: rest =>
    (report onRef subject schema).andThen fun _ => reportAll onRef subject rest

/-- Whether one of several schemas has no findings. -/
def anyHolds (onRef : Subject → String → Report) (subject : Subject) :
    List Schema → Except Failure Bool
  | [] => .ok false
  | schema :: rest =>
    match (report onRef subject schema).outcome with
    | .error failure => .error failure
    | .ok [] => .ok true
    | .ok _ => anyHolds onRef subject rest

/-- How the first of several schemas is written that has no findings, and how the others are that
hold as well. -/
def firstHolding (onRef : Subject → String → Report) (subject : Subject) :
    List (Schema × String) → Except Failure (Option String × List String)
  | [] => .ok (none, [])
  | (schema, written) :: rest =>
    match (report onRef subject schema).outcome with
    | .error failure => .error failure
    | .ok [] => (allHolding onRef subject rest).map fun more => (some written, more)
    | .ok _ => firstHolding onRef subject rest

/-- How those of several schemas are written that hold. -/
def allHolding (onRef : Subject → String → Report) (subject : Subject) :
    List (Schema × String) → Except Failure (List String)
  | [] => .ok []
  | (schema, written) :: rest =>
    match (report onRef subject schema).verdict with
    | .error failure => .error failure
    | .ok holds =>
      (allHolding onRef subject rest).map fun more => if holds then written :: more else more

end

/-- The report of a schema about a value, where references are followed at most `budget` times
without going down the value. -/
def reportAt (definitions : List (String × Schema)) (subject : Subject) :
    (budget : Nat) → Check
  | 0 => report (fun _ _ => .broken .endless) subject
  | budget + 1 =>
    report (fun subject name =>
      match definitions.lookup name with
      | some target => reportAt definitions subject budget target
      | none => .empty) subject

end Schema

namespace Grammar

/-- The check of a value whose parts are checked as given. -/
def checkSubject (g : Grammar) (subject : Subject) : Check :=
  Schema.reportAt g.definitions subject (g.definitions.length + 1)

/-- The check of a text. -/
def checkText (g : Grammar) (s : String) : Check :=
  g.checkSubject (.plain (.atom (.str s)))

mutual

/-- The check of a value. -/
def check (g : Grammar) : Value → Check
  | .list items => g.checkSubject ⟨.list items, checkItems g items, [], []⟩
  | .object members =>
    g.checkSubject ⟨.object members, [], checkMembers g members,
      members.map fun m => g.checkText m.1⟩
  | .atom a => g.checkSubject (.plain (.atom a))
  | .other d => g.checkSubject (.plain (.other d))

/-- The checks of the items of a list. -/
def checkItems (g : Grammar) : List Value → List Check
  | [] => []
  | item :: rest => check g item :: checkItems g rest

/-- The checks of the members of an object, by name. -/
def checkMembers (g : Grammar) : List (String × Value) → List (String × Check)
  | [] => []
  | (name, value) :: rest => (name, check g value) :: checkMembers g rest

end

/-- The report about a value, in the order of the schema. -/
def report (g : Grammar) (v : Value) : Report :=
  g.check v g.root

/-- Findings in the order of the way to them, compared step by step as texts. -/
def sortFindings (findings : List Finding) : List Finding :=
  findings.mergeSort fun a b =>
    Text.listAtMost (a.path.map PathToken.text) (b.path.map PathToken.text)

/-- All findings about a value, in the order of the way to them. -/
def findings (g : Grammar) (v : Value) : Except Failure (List Finding) :=
  (g.report v).outcome.map sortFindings

end Grammar

end KsyTools
