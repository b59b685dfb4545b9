/-
# Command line arguments

Words that start with a hyphen are options, all others are operands; a lone `--` makes operands of
all words behind it.  Long options may be shortened as long as only one option starts so.  All
operands have to stand together: those behind a later option are not taken.
-/
import KsyTools.Text.Basic
import KsyTools.Text.CharClass
import KsyTools.Text.Quoted

namespace KsyTools

/-- What an option does. -/
inductive OptionKind where
  /-- Asks for the help text. -/
  | help
  /-- Is given or not. -/
  | flag
  /-- Takes one of several values. -/
  | choice (values : List String)
  deriving Repr, DecidableEq

/-- An option of a command. -/
structure CommandOption where
  /-- The spellings of the option, the long one last. -/
  names : List String
  kind : OptionKind
  deriving Repr, DecidableEq

/-- The name by which an option is kept. -/
def CommandOption.name (o : CommandOption) : String :=
  o.names.getLastD ""

/-- How a command is called. -/
structure CommandSpec where
  name : String
  usage : String
  /-- What follows the usage in the help text. -/
  details : String
  operandName : String
  operandRequired : Bool
  options : List CommandOption

/-- Why the words of a command line are refused. -/
inductive UsageFault where
  | ambiguous (word : String) (candidates : List String)
  | invalidChoice (option : CommandOption) (value : String) (choices : List String)
  | missingValue (option : CommandOption)
  | unusedValue (option : CommandOption) (value : String)
  | missingOperand (name : String)
  | unrecognized (words : List String)
  deriving Repr, DecidableEq

/-- How an option is called in messages. -/
def CommandOption.label (o : CommandOption) : String :=
  "argument " ++ "/".intercalate o.names

/-- The wording of a fault. -/
def UsageFault.message : UsageFault → String
  | .ambiguous word candidates =>
    s!"ambiguous option: {word} could match " ++ ", ".intercalate candidates
  | .invalidChoice option value choices =>
    let shown := ", ".intercalate (choices.map Text.quote)
    s!"{option.label}: invalid choice: {Text.quote value} (choose from {shown})"
  | .missingValue option => s!"{option.label}: expected one argument"
  | .unusedValue option value => s!"{option.label}: ignored explicit argument {Text.quote value}"
  | .missingOperand name => s!"the following arguments are required: {name}"
  | .unrecognized words => "unrecognized arguments: " ++ " ".intercalate words

/-- What a command line asks for. -/
structure Arguments where
  operands : List String
  flags : List String
  /-- The values of options, the last one given first.  A value that is a lone `--` counts as no
  value. -/
  values : List (String × Option String)
  deriving Repr, DecidableEq

/-- The value of an option, or the given one if the option is not there. -/
def Arguments.value? (a : Arguments) (name default : String) : Option String :=
  (a.values.lookup name).getD (some default)

/-- A command line is either a call for help or a call for work. -/
inductive Call where
  | help
  | work (arguments : Arguments)
  deriving Repr, DecidableEq

namespace CommandSpec

/-! ## The words one by one -/

/-- A word of a command line. -/
inductive Word where
  | operand (text : String)
  /-- The first lone `--`. -/
  | separator
  /-- An option with a value in the same word, if it has one. -/
  | option (o : CommandOption) (value? : Option String)
  /-- A short option with more letters behind it.  Short options take no values. -/
  | cluster (o : CommandOption) (letters : List Char)
  /-- An option that the command does not have. -/
  | unknown (text : String)
  deriving Repr, DecidableEq

/-- Whether a word can be an operand. -/
def Word.isOperand : Word → Bool
  | .operand _ => true
  | .separator => true
  | _ => false

/-- The text of a word that can be an operand. -/
def Word.operandText : Word → String
  | .operand text => text
  | .separator => "--"
  | _ => ""

/-- All spellings of options, and what they stand for. -/
def spellings (spec : CommandSpec) : List (String × CommandOption) :=
  spec.options.flatMap fun o => o.names.map fun name => (name, o)

/-- Divides a word at its first equals sign. -/
def splitValue (text : String) : String × Option String :=
  let cs := text.toList
  let front := cs.takeWhile (· != '=')
  (String.ofList front,
    if front.length < cs.length then some (String.ofList (cs.drop (front.length + 1))) else none)

/-- Decimal digits up to the end, or up to a line feed at the end. -/
def areDigits (cs : List Char) : Bool :=
  let cs := if cs.getLast? = some '\n' then cs.dropLast else cs
  !cs.isEmpty && cs.all fun c => (Text.digitValue? c).isSome

/-- Whether a word is a negative number, which is an operand. -/
def isNegativeNumber (cs : List Char) : Bool :=
  match cs with
  | '-' :: rest =>
    let whole := rest.takeWhile fun c => (Text.digitValue? c).isSome
    match rest.drop whole.length with
    | '.' :: places => areDigits places
    | _ => areDigits rest
  | _ => false

/-- The options that a word may stand for, with their spellings: those that it starts. -/
def candidates (spec : CommandSpec) (text : String) : List (String × Word) :=
  match text.toList with
  | '-' :: '-' :: _ =>
    let (front, value?) := splitValue text
    (spec.spellings.filter fun s => front.toList.isPrefixOf s.1.toList).map fun s =>
      (s.1, .option s.2 value?)
  | '-' :: c :: letters =>
    spec.spellings.filterMap fun s =>
      if s.1 = String.ofList ['-', c] then some (s.1, .cluster s.2 letters)
      else if text.toList.isPrefixOf s.1.toList then some (s.1, .option s.2 none)
      else none
  | _ => []

/-- What a word that starts with a hyphen is, if it is no exact spelling of an option. -/
def classifyOption (spec : CommandSpec) (text : String) : Except UsageFault Word :=
  let (front, value?) := splitValue text
  match value?, spec.spellings.lookup front with
  | some value, some o =>
    if "--".toList.isPrefixOf front.toList then .ok (.option o (some value))
    else .ok (.cluster o value.toList)
  | _, _ =>
    match spec.candidates text with
    | [(_, word)] => .ok word
    | [] =>
      if isNegativeNumber text.toList || text.toList.contains ' ' then .ok (.operand text)
      else .ok (.unknown text)
    | several => .error (.ambiguous text (several.map Prod.fst))

/-- What a word is. -/
def classify (spec : CommandSpec) (text : String) : Except UsageFault Word :=
  match text.toList with
  | '-' :: _ :: _ =>
    match spec.spellings.lookup text with
    | some o => .ok (.option o none)
    | none => spec.classifyOption text
  | _ => .ok (.operand text)

/-- What all words are. -/
def classifyAll (spec : CommandSpec) : List String → Except UsageFault (List Word)
  | [] => .ok []
  | text :: rest =>
    if text = "--" then .ok (.separator :: rest.map .operand)
    else do
      let word ← spec.classify text
      return word :: (← spec.classifyAll rest)

/-! ## The words together -/

/-- What was read so far. -/
structure Reading where
  operands? : Option (List String)
  flags : List String
  values : List (String × Option String)
  extras : List String

/-- Takes words that stand together as the operands, unless operands were taken before or there is
no operand among them where one is required. -/
def Reading.takeOperands (r : Reading) (required : Bool) (words : List Word) : Reading :=
  let enough := !required || words.any fun w => w != .separator
  let texts := words.map Word.operandText
  if r.operands?.isNone && enough then { r with operands? := some (texts.erase "--") }
  else { r with extras := r.extras ++ texts }

/-- Sets the value of an option. -/
def Reading.setValue (r : Reading) (o : CommandOption) (choices : List String) (value : String) :
    Except UsageFault Reading :=
  if value = "--" then .ok { r with values := (o.name, none) :: r.values }
  else if choices.contains value then .ok { r with values := (o.name, some value) :: r.values }
  else .error (.invalidChoice o value choices)

/-- What cannot be used of the letters behind a short option, which are further short options. -/
def unusedLetters (spec : CommandSpec) : List Char → Option (List Char)
  | [] => none
  | c :: rest =>
    if (spec.spellings.lookup (String.ofList ['-', c])).isNone then some (c :: rest)
    else unusedLetters spec rest

/-- The words of a command line, read from left to right.  A call for help ends the reading. -/
def read (spec : CommandSpec) (r : Reading) (words : List Word) :
    Except UsageFault (Option Reading) :=
  match words with
  | [] => .ok (some r)
  | .unknown text :: rest => spec.read { r with extras := r.extras ++ [text] } rest
  | .cluster o [] :: _ => .error (.unusedValue o "")
  | .cluster o letters :: _ =>
    match spec.unusedLetters letters with
    | some letters => .error (.unusedValue o (String.ofList letters))
    | none => .ok none
  | .option o value? :: rest =>
    match o.kind, value? with
    | .help, none => .ok none
    | .flag, none => spec.read { r with flags := o.name :: r.flags } rest
    | .help, some value => .error (.unusedValue o value)
    | .flag, some value => .error (.unusedValue o value)
    | .choice choices, some value => do spec.read (← r.setValue o choices value) rest
    | .choice choices, none =>
      match rest with
      | .operand value :: rest => do spec.read (← r.setValue o choices value) rest
      | _ => .error (.missingValue o)
  | first :: rest =>
    let run := rest.takeWhile Word.isOperand
    spec.read (r.takeOperands spec.operandRequired (first :: run)) (rest.drop run.length)
  termination_by words.length
  decreasing_by all_goals (simp only [List.length_cons, List.length_drop]; omega)

/-- What a command line asks for. -/
def parse (spec : CommandSpec) (texts : List String) : Except UsageFault Call := do
  let words ← spec.classifyAll texts
  match ← spec.read ⟨none, [], [], []⟩ words with
  | none => return .help
  | some r =>
    if spec.operandRequired && r.operands?.isNone then throw (.missingOperand spec.operandName)
    if !r.extras.isEmpty then throw (.unrecognized r.extras)
    return .work ⟨r.operands?.getD [], r.flags, r.values⟩

end CommandSpec

end KsyTools
