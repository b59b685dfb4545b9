/-
# Checking descriptions

The grammar of format descriptions has no findings about a value exactly if the value is a
description.  Each schema of the grammar is matched with its class of values; for the nesting of
types this goes by induction on the value.
-/
import KsyTools.Ksy.Grammar
import KsyTools.Proofs.Ksy.Description
import KsyTools.Proofs.Schema.Verdict
import KsyTools.Proofs.Text.Pattern

namespace KsyTools.Ksy

open Yaml (Atom)
open Text (Pattern CharSet)

/-! ## Names -/

/-- Membership in a set of characters that is given by ranges. -/
lemma contains_iff {ranges : List (Char × Char)} {c : Char} :
    CharSet.contains ⟨ranges, false⟩ c = true ↔ ∃ r ∈ ranges, r.1 ≤ c ∧ c ≤ r.2 := by
  simp [CharSet.contains]

lemma eq_iff_between {c d : Char} : c ≤ d ∧ d ≤ c ↔ d = c :=
  ⟨fun h => Char.le_antisymm h.2 h.1, fun h => by simp [h]⟩

lemma isIn_extensionKey (s : String) :
    PlacedPattern.isIn ⟨.char '-', true, false⟩ s = true ↔ IsExtensionName s := by
  rw [Text.isIn_start, Pattern.char_language, IsExtensionName]
  constructor
  · rintro ⟨_, rfl, rest, joined⟩
    rw [← joined]
    rfl
  · intro h
    obtain ⟨rest, joined⟩ := List.head?_eq_some_iff.1 h
    exact ⟨['-'], rfl, rest, joined.symm⟩

lemma mem_identifierWords {w : List Char} :
    w ∈ (Pattern.seq (.between 'a' 'z')
      (.star (.one ⟨[('a', 'z'), ('0', '9'), ('_', '_')], false⟩))).language ↔
        IdentifierWord w := by
  have others (c : Char) :
      CharSet.contains ⟨[('a', 'z'), ('0', '9'), ('_', '_')], false⟩ c = true ↔
        IsSmallLetter c ∨ IsDigit c ∨ c = '_' := by
    simp [contains_iff, eq_iff_between, IsSmallLetter, IsDigit]
  rw [Pattern.language, Language.mem_mul]
  constructor
  · rintro ⟨_, ⟨first, letter, rfl⟩, rest, hrest, rfl⟩
    refine .mk (Pattern.contains_range.1 letter) fun c hc => ?_
    exact (others c).1 (Pattern.mem_star_one.1 hrest c hc)
  · rintro ⟨letter, hrest⟩
    refine ⟨[_], ⟨_, Pattern.contains_range.2 letter, rfl⟩, _, ?_, rfl⟩
    exact Pattern.mem_star_one.2 fun c hc => (others c).2 (hrest c hc)

/-- Something and then characters of a set, at least one of them. -/
lemma mem_seq_plus {a : Pattern} {s : CharSet} {w : List Char} :
    w ∈ (Pattern.seq a (.plus (.one s))).language ↔
      ∃ u ∈ a.language, ∃ digits, digits ≠ [] ∧ (∀ c ∈ digits, s.contains c = true) ∧
        w = u ++ digits := by
  rw [Pattern.language, Language.mem_mul]
  simp only [Pattern.mem_plus_one, and_assoc, eq_comm]

lemma mem_enumWords {w : List Char} :
    w ∈ (Pattern.any [
      .seq (.opt (.char '-')) (.plus (.between '0' '9')),
      .seq (.word "0x") (.plus (.one ⟨[('0', '9'), ('a', 'f'), ('A', 'F'), ('_', '_')], false⟩)),
      .seq (.word "0b") (.plus (.anyOf "01_")),
      .word "true",
      .word "false"]).language ↔ EnumWord w := by
  have decimal (c : Char) : (CharSet.range '0' '9').contains c = true ↔ IsDigit c :=
    Pattern.contains_range
  have hexadecimal (c : Char) :
      CharSet.contains ⟨[('0', '9'), ('a', 'f'), ('A', 'F'), ('_', '_')], false⟩ c = true ↔
        IsHexDigit c ∨ c = '_' := by
    simp [contains_iff, eq_iff_between, IsHexDigit, IsDigit, or_assoc]
  have binary (c : Char) :
      (CharSet.ofString "01_").contains c = true ↔ c = '0' ∨ c = '1' ∨ c = '_' := by
    simp [CharSet.ofString, contains_iff, eq_iff_between]
  have sign (u : List Char) : u ∈ (Pattern.opt (.char '-')).language ↔ u = ['-'] ∨ u = [] := by
    rw [Pattern.opt, Pattern.language, Language.mem_add, Pattern.char_language, Pattern.language,
      Language.mem_one]
    rfl
  have word (s : String) (u : List Char) : u ∈ (Pattern.word s).language ↔ u = s.toList := by
    rw [Pattern.word_language]
    rfl
  rw [Pattern.mem_any]
  simp only [List.mem_cons, List.not_mem_nil, or_false, exists_eq_or_imp, exists_eq_left,
    Pattern.between, Pattern.anyOf, mem_seq_plus, decimal, hexadecimal, binary, sign, word]
  constructor
  · rintro ((⟨digits, nonempty, h, rfl⟩ | ⟨digits, nonempty, h, rfl⟩) |
      ⟨digits, nonempty, h, rfl⟩ | ⟨digits, nonempty, h, rfl⟩ | rfl | rfl)
    · exact .negative nonempty h
    · exact .decimal nonempty h
    · exact .hexadecimal nonempty h
    · exact .binary nonempty h
    · exact .yes
    · exact .no
  · rintro (⟨nonempty, h⟩ | ⟨nonempty, h⟩ | ⟨nonempty, h⟩ | ⟨nonempty, h⟩ | _ | _)
    · exact .inl (.inr ⟨w, nonempty, h, rfl⟩)
    · exact .inl (.inl ⟨_, nonempty, h, rfl⟩)
    · exact .inr (.inl ⟨_, nonempty, h, rfl⟩)
    · exact .inr (.inr (.inl ⟨_, nonempty, h, rfl⟩))
    · exact .inr (.inr (.inr (.inl rfl)))
    · exact .inr (.inr (.inr (.inr rfl)))

variable {v : Value} {steps : ℕ}

/-! ## Types -/

/-- What a value of a type has to be. -/
def HasType (v : Value) : SimpleType → Prop
  | .string => IsText v
  | .boolean => IsFlag v
  | .integer => ∃ n, IsWhole v n
  | .number => IsNumber v
  | .null => v = .atom .null
  | .object => ∃ members, v = .object members
  | .array => ∃ items, v = .list items

lemma isOfType_iff (t : SimpleType) : v.isOfType t = true ↔ HasType v t := by
  rcases v with (_ | _ | _ | x | _ | _ | _ | _) | _ | _ | _ <;> cases t <;>
    simp [Value.isOfType, HasType, IsText, IsFlag, IsWhole, IsNumber, Atom.isNumber,
      Option.isSome_iff_exists]

@[simp] lemma isOfType_string : v.isOfType .string = true ↔ IsText v := isOfType_iff .string

@[simp] lemma isOfType_boolean : v.isOfType .boolean = true ↔ IsFlag v := isOfType_iff .boolean

@[simp] lemma isOfType_integer : v.isOfType .integer = true ↔ ∃ n, IsWhole v n :=
  isOfType_iff .integer

@[simp] lemma isOfType_number : v.isOfType .number = true ↔ IsNumber v := isOfType_iff .number

@[simp] lemma isOfType_null : v.isOfType .null = true ↔ v = .atom .null := isOfType_iff .null

@[simp] lemma isOfType_object : v.isOfType .object = true ↔ ∃ members, v = .object members :=
  isOfType_iff .object

@[simp] lemma isOfType_array : v.isOfType .array = true ↔ ∃ items, v = .list items :=
  isOfType_iff .array

/-- A whole number is a number. -/
lemma IsWhole.isNumber {n : Int} (h : IsWhole v n) : IsNumber v := by
  rcases h with rfl | ⟨x, rfl, -⟩
  · exact .inl ⟨n, rfl⟩
  · exact .inr ⟨x, rfl⟩

/-! ## Values without parts -/

lemma decides_text : grammar.Decides v steps text (IsText v) :=
  (Grammar.decides_ofType [.string]).congr (by simp)

lemma decides_flag : grammar.Decides v steps flag (IsFlag v) :=
  (Grammar.decides_ofType [.boolean]).congr (by simp)

lemma decides_expression : grammar.Decides v steps expression (IsExpression v) := by
  refine (Grammar.decides_ofType [.string, .integer, .boolean, .number]).congr ?_
  have whole : (∃ n, IsWhole v n) → IsNumber v := fun ⟨_, h⟩ => h.isNumber
  simp only [List.mem_cons, List.not_mem_nil, or_false, exists_eq_or_imp, exists_eq_left,
    isOfType_string, isOfType_integer, isOfType_boolean, isOfType_number, IsExpression]
  tauto

lemma decides_identifierPattern : grammar.Decides v steps (.pattern identifierPattern)
    (∀ s, v = .atom (.str s) → IsIdentifierName s) := by
  refine Grammar.decides_pattern.congr ?_
  simp only [Text.isIn_whole, mem_identifierWords]
  rfl

lemma decides_enumKeyPattern : grammar.Decides v steps (.pattern enumKeyPattern)
    (∀ s, v = .atom (.str s) → IsEnumName s) := by
  refine Grammar.decides_pattern.congr ?_
  simp only [Text.isIn_whole, mem_enumWords]
  rfl

lemma decides_identifier : grammar.Decides v steps identifier (IsIdentifier v) := by
  refine (decides_text.rules_cons
    (decides_identifierPattern.rules_cons Grammar.decides_rules_nil)).congr ?_
  constructor
  · rintro ⟨⟨s, rfl⟩, spelled, -⟩
    exact ⟨s, rfl, spelled s rfl⟩
  · rintro ⟨s, rfl, spelled⟩
    refine ⟨⟨s, rfl⟩, ?_, trivial⟩
    rintro t ⟨⟩
    exact spelled

lemma decides_nonemptyText :
    grammar.Decides v steps (.rules [text, .minLength 1]) (IsNonemptyText v) := by
  refine (decides_text.rules_cons
    (Grammar.decides_minLength.rules_cons Grammar.decides_rules_nil)).congr ?_
  have nonempty (s : String) : 1 ≤ s.length ↔ s ≠ "" := by
    rw [Nat.one_le_iff_ne_zero, ne_eq, ne_eq, ← String.length_toList, List.length_eq_zero_iff,
      ← String.toList_inj]
    rfl
  constructor
  · rintro ⟨⟨s, rfl⟩, long, -⟩
    exact ⟨s, rfl, (nonempty s).1 (long s rfl)⟩
  · rintro ⟨s, rfl, long⟩
    refine ⟨⟨s, rfl⟩, ?_, trivial⟩
    rintro t ⟨⟩
    exact (nonempty s).2 long

/-- A number that is equal to a whole number compares with whole numbers as that one does. -/
lemma compare_toInt? {x : Binary64} {n : Int} (h : x.toInt? = some n) (k : Int) :
    (x.ltInt k = true ↔ n < k) ∧ (x.gtInt k = true ↔ k < n) := by
  cases x with
  | nan => simp [Binary64.toInt?] at h
  | inf negative => simp [Binary64.toInt?] at h
  | finite negative m e =>
    obtain ⟨p, q, hpq⟩ : ∃ p q, Binary64.signedFraction negative m e = (p, q) := ⟨_, _, rfl⟩
    have positive : 0 < q := by
      have : q = (Binary64.fraction m e).2 := by
        have := congrArg Prod.snd hpq
        simpa [Binary64.signedFraction] using this.symm
      rw [this, Binary64.fraction]
      split
      · exact Nat.one_pos
      · exact Nat.pow_pos (by omega)
    have positive : (0 : Int) < q := by exact_mod_cast positive
    have whole : p = n * q := by
      rw [Binary64.toInt?, hpq] at h
      simp only [Option.ite_none_right_eq_some, Option.some.injEq] at h
      rw [← h.2]
      exact (Int.ediv_mul_cancel (Int.dvd_of_emod_eq_zero h.1)).symm
    simp only [Binary64.ltInt, Binary64.gtInt, hpq, decide_eq_true_eq, whole]
    exact ⟨Int.mul_lt_mul_right positive, Int.mul_lt_mul_right positive⟩

lemma decides_byte : grammar.Decides v steps byte (IsByte v) := by
  refine ((Grammar.decides_ofType [.integer]).rules_cons (Grammar.decides_minimum.rules_cons
    (Grammar.decides_maximum.rules_cons Grammar.decides_rules_nil))).congr ?_
  simp only [List.mem_singleton, exists_eq_left, isOfType_integer, and_true, IsByte,
    ← exists_and_right]
  refine exists_congr fun n => and_congr_right fun whole => ?_
  rcases whole with rfl | ⟨x, rfl, whole⟩
  · simp [Atom.isNumber, Atom.lessThan]
  · obtain ⟨low, -⟩ := compare_toInt? whole 0
    obtain ⟨-, high⟩ := compare_toInt? whole 255
    simp [Atom.isNumber, Atom.lessThan, ← Bool.not_eq_true, low, high]

/-- Only the text itself is the same as a text. -/
lemma equals_text (seen : v.StandsForData) (s : String) :
    v.equals (.atom (.str s)) = true ↔ v = .atom (.str s) := by
  cases v with
  | atom a =>
    cases a <;>
      simp [Value.equals, Value.toData, Yaml.Data.equals, Yaml.Data.sequence?, Atom.equals,
        Atom.same, Atom.toInt?]
  | list items => simp [Value.equals, Value.toData, Yaml.Data.equals, Yaml.Data.sequence?]
  | object members => simp [Value.equals, Value.toData, Yaml.Data.equals]
  | other d =>
    rcases seen.other with ⟨members, rfl⟩ | ⟨key, value, rfl⟩
    · simp [Value.equals, Value.toData, Yaml.Data.equals]
    · simp [Value.equals, Value.toData, Yaml.Data.equals, Yaml.Data.sequence?]

lemma decides_words (seen : v.StandsForData) (ws : List String) :
    grammar.Decides v steps (words ws) (IsOneOf ws v) := by
  refine (Grammar.decides_enum _).congr ?_
  simp only [List.mem_map, exists_exists_and_eq_and, equals_text seen]
  rfl

/-! ## Containers

The parts of a container are checked with as many references as there are definitions, whatever was
followed before, so for them only `Checks` matters.
-/

lemma checks_ref {name : String} {target : Schema} {P : Prop}
    (found : definitions.lookup name = some target) (h : grammar.Decides v 2 target P) :
    grammar.Checks v (.ref name) P :=
  (h.ref found).checks (by simp [grammar, definitions])

lemma checks_of_decides {schema : Schema} {P : Prop} (h : grammar.Decides v 0 schema P) :
    grammar.Checks v schema P :=
  h.checks (Nat.zero_le _)

/-- All values that stand for data are checked for a class. -/
def ChecksAll (schema : Schema) (P : Value → Prop) : Prop :=
  ∀ v : Value, v.StandsForData → grammar.Checks v schema (P v)

lemma decides_listOf (seen : v.StandsForData) {item : Schema} {P : Value → Prop}
    (h : ChecksAll item P) : grammar.Decides v steps (listOf item) (IsListOf P v) := by
  have items : ∀ x ∈ v.items, grammar.Checks x item (P x) := by
    cases v with
    | list items => exact fun x hx => h x (seen.item hx)
    | atom a => simp [Value.items]
    | object members => simp [Value.items]
    | other d => simp [Value.items]
  refine ((Grammar.decides_ofType [.array]).rules_cons
    ((Grammar.decides_items items).rules_cons Grammar.decides_rules_nil)).congr ?_
  simp only [List.mem_singleton, exists_eq_left, isOfType_array, and_true, IsListOf,
    ← exists_and_right]
  refine exists_congr fun items => and_congr_right ?_
  rintro rfl
  rfl

/-- The members of what stands for data stand for data. -/
lemma standsForData_of_mem (seen : v.StandsForData) {m : String × Value} (hm : m ∈ v.members) :
    m.2.StandsForData := by
  cases v with
  | object members => exact seen.members.2 m hm
  | atom a => simp [Value.members] at hm
  | list items => simp [Value.members] at hm
  | other d => simp [Value.members] at hm

/-- The parts of a rule that asks for an object are those of the object. -/
lemma object_and_iff {P : List (String × Value) → Prop} :
    (∃ t ∈ [SimpleType.object], v.isOfType t = true) ∧ P v.members ↔
      ∃ members, v = .object members ∧ P members := by
  simp only [List.mem_singleton, exists_eq_left, isOfType_object, ← exists_and_right]
  refine exists_congr fun members => and_congr_right ?_
  rintro rfl
  rfl

lemma decides_additional (seen : v.StandsForData) {value : Schema} {P : Value → Prop}
    (real : value ≠ .anything ∧ value ≠ .nothing) (h : ChecksAll value P) :
    grammar.Decides v steps (.additionalProperties [] none value) (∀ m ∈ v.members, P m.2) :=
  Grammar.decides_additional real fun m hm => h m.2 (standsForData_of_mem seen hm)

lemma decides_map (seen : v.StandsForData) {value : Schema} {P : Value → Prop}
    (real : value ≠ .anything ∧ value ≠ .nothing) (h : ChecksAll value P) :
    grammar.Decides v steps (.rules [.ofType [.object], .additionalProperties [] none value])
      (IsMap (fun _ => True) P v) := by
  refine ((Grammar.decides_ofType [.object]).rules_cons
    ((decides_additional seen real h).rules_cons Grammar.decides_rules_nil)).congr ?_
  rw [and_true, object_and_iff (P := fun members => ∀ m ∈ members, P m.2)]
  simp [IsMap]

lemma decides_namedMap {name value : Schema} {Name : String → Prop}
    {P : Value → Prop}
    (names : ∀ s, grammar.Checks (.atom (.str s)) name (Name s))
    (real : value ≠ .anything ∧ value ≠ .nothing)
    (h : ∀ m ∈ v.members, grammar.Checks m.2 value (P m.2)) :
    grammar.Decides v steps
      (.rules [.ofType [.object], .propertyNames name, .additionalProperties [] none value])
      (IsMap Name P v) := by
  refine ((Grammar.decides_ofType [.object]).rules_cons
    ((Grammar.decides_propertyNames fun m _ => names m.1).rules_cons
      ((Grammar.decides_additional real h).rules_cons Grammar.decides_rules_nil))).congr ?_
  rw [and_true, object_and_iff
    (P := fun members => (∀ m ∈ members, Name m.1) ∧ ∀ m ∈ members, P m.2)]
  simp only [IsMap, forall_and]

/-! ## Records -/

/-- The members of a value that a record names are checked for the classes of their names. -/
def PartsMatch (v : Value) : List (String × Schema) → List (String × (Value → Prop)) → Prop :=
  List.Forall₂ fun f c => f.1 = c.1 ∧
    ∀ x, v.members.lookup c.1 = some x → grammar.Checks x f.2 (c.2 x)

lemma decides_record {types : List SimpleType} {fields : List (String × Schema)}
    {classes : List (String × (Value → Prop))} (h : PartsMatch v fields classes) :
    grammar.Decides v steps (.rules (recordRules types fields))
      ((∃ t ∈ types, v.isOfType t = true) ∧ HasFields classes v.members) := by
  have names : fields.map Prod.fst = classes.map Prod.fst := by
    induction h with
    | nil => rfl
    | cons first _ ih => rw [List.map_cons, List.map_cons, first.1, ih]
  have covers : Grammar.Covers (some extensionKeys)
      (PlacedPattern.isIn ⟨.char '-', true, false⟩) := fun _ => rfl
  refine ((Grammar.decides_ofType types).rules_cons
    ((Grammar.decides_additional_nothing covers).rules_cons
      (Grammar.decides_patternProperties_anything.rules_cons
        ((Grammar.decides_properties h).rules_cons Grammar.decides_rules_nil)))).congr ?_
  simp only [isIn_extensionKey, names, true_and, and_true]
  rfl

/-- The fields of a record are checked for the classes of their names, whatever the value is. -/
def FieldsMatch : List (String × Schema) → List (String × (Value → Prop)) → Prop :=
  List.Forall₂ fun f c => f.1 = c.1 ∧ ChecksAll f.2 c.2

namespace FieldsMatch

variable {fields more : List (String × Schema)} {classes others : List (String × (Value → Prop))}

lemma nil : FieldsMatch [] [] :=
  List.Forall₂.nil

lemma cons {name : String} {schema : Schema} {P : Value → Prop} (h : ChecksAll schema P)
    (rest : FieldsMatch fields classes) :
    FieldsMatch ((name, schema) :: fields) ((name, P) :: classes) :=
  List.Forall₂.cons ⟨rfl, h⟩ rest

lemma append (h : FieldsMatch fields classes) (h' : FieldsMatch more others) :
    FieldsMatch (fields ++ more) (classes ++ others) :=
  List.rel_append h h'

lemma parts (h : FieldsMatch fields classes) (seen : v.StandsForData) :
    PartsMatch v fields classes :=
  h.imp fun _ _ both => ⟨both.1, fun x found =>
    both.2 x (standsForData_of_mem seen (Keyed.mem_of_lookup found))⟩

lemma decides_object (h : FieldsMatch fields classes) (seen : v.StandsForData) :
    grammar.Decides v steps (.rules (recordRules [.object] fields)) (IsRecord classes [] v) := by
  refine (decides_record (h.parts seen)).congr (object_and_iff.trans ?_)
  simp [IsRecord]

lemma decides_required (h : FieldsMatch fields classes) (seen : v.StandsForData)
    (names : List String) :
    grammar.Decides v steps (.rules (recordRules [.object] fields ++ [.required names]))
      (IsRecord classes names v) := by
  refine ((h.decides_object seen).rules_append
    (Grammar.decides_required.rules_cons Grammar.decides_rules_nil)).congr ?_
  constructor
  · rintro ⟨⟨members, rfl, fields, -⟩, required, -⟩
    exact ⟨members, rfl, fields, required members rfl⟩
  · rintro ⟨members, rfl, fields, required⟩
    refine ⟨⟨members, rfl, fields, by simp⟩, ?_, trivial⟩
    rintro _ ⟨⟩
    exact required

end FieldsMatch

lemma decides_switch (seen : v.StandsForData) {value : Schema} {P : Value → Prop}
    (real : value ≠ .anything ∧ value ≠ .nothing) (h : ChecksAll value P) :
    grammar.Decides v steps (switch value) (IsSwitch P v) := by
  have covers : Grammar.Covers none fun _ => false := fun _ => rfl
  have fields : FieldsMatch [("switch-on", .ref "Expression"),
      ("cases", .rules [.ofType [.object], .additionalProperties [] none value])]
      [("switch-on", IsExpression), ("cases", IsMap (fun _ => True) P)] :=
    .cons (fun _ _ => checks_ref rfl decides_expression) <|
    .cons (fun _ hx => checks_of_decides (decides_map hx real h)) .nil
  refine ((Grammar.decides_ofType [.object]).rules_cons
    ((Grammar.decides_additional_nothing covers).rules_cons
      ((Grammar.decides_properties (fields.parts seen)).rules_cons
        (Grammar.decides_required.rules_cons Grammar.decides_rules_nil)))).congr ?_
  constructor
  · rintro ⟨object, names, classes, required, -⟩
    obtain ⟨members, rfl⟩ : ∃ members, v = .object members := by simpa using object
    refine ⟨members, rfl, ?_, ⟨?_, ?_⟩, ?_, ?_⟩
    · simpa [Value.members] using names
    · exact required members rfl "switch-on" (by simp)
    · exact classes _ List.mem_cons_self
    · exact required members rfl "cases" (by simp)
    · exact classes _ (List.mem_cons_of_mem _ List.mem_cons_self)
  · rintro ⟨members, rfl, names, ⟨hasOn, on⟩, hasCases, cases⟩
    refine ⟨by simp, ?_, ?_, ?_, trivial⟩
    · simpa [Value.members] using names
    · rw [List.forall_mem_cons, List.forall_mem_singleton]
      exact ⟨on, cases⟩
    · rintro _ ⟨⟩
      rw [List.forall_mem_cons, List.forall_mem_singleton]
      exact ⟨hasOn, hasCases⟩

/-! ## Definitions -/

lemma checksAll_text : ChecksAll text IsText :=
  fun _ _ => checks_of_decides decides_text

lemma checksAll_flag : ChecksAll flag IsFlag :=
  fun _ _ => checks_of_decides decides_flag

lemma checksAll_byte : ChecksAll byte IsByte :=
  fun _ _ => checks_of_decides decides_byte

lemma checksAll_words (ws : List String) : ChecksAll (words ws) (IsOneOf ws) :=
  fun _ seen => checks_of_decides (decides_words seen ws)

lemma checksAll_texts : ChecksAll (listOf text) (IsListOf IsText) :=
  fun _ seen => checks_of_decides (decides_listOf seen checksAll_text)

lemma checksAll_identifier : ChecksAll (.ref "Identifier") IsIdentifier :=
  fun _ _ => checks_ref rfl decides_identifier

lemma checksAll_expression : ChecksAll (.ref "Expression") IsExpression :=
  fun _ _ => checks_ref rfl decides_expression

lemma checksAll_doc : ChecksAll (.ref "Doc") IsText :=
  fun _ _ => checks_ref rfl decides_text

lemma decides_textOrTexts (seen : v.StandsForData) :
    grammar.Decides v steps textOrTexts (IsTextOrTexts v) :=
  decides_text.anyOf (decides_listOf seen checksAll_text)

lemma checksAll_docRef : ChecksAll (.ref "DocRef") IsTextOrTexts :=
  fun _ seen => checks_ref rfl (decides_textOrTexts seen)

lemma checksAll_textOrTexts : ChecksAll (.ref "StringOrStringArray") IsTextOrTexts :=
  fun _ seen => checks_ref rfl (decides_textOrTexts seen)

lemma checksAll_endian : ChecksAll (.ref "Endian") IsEndian :=
  fun _ seen => checks_ref rfl ((decides_words seen _).anyOf
    (decides_switch seen (by simp [words]) (checksAll_words _)))

lemma checksAll_typeRef : ChecksAll (.ref "TypeRef") IsTypeRef :=
  fun _ seen => checks_ref rfl (decides_text.anyOf
    (decides_switch seen (by simp [text]) checksAll_text))

lemma checksAll_contents :
    ChecksAll (.anyOf [text, listOf (.ofType [.string, .integer])]) IsContents := by
  have parts : ChecksAll (.ofType [.string, .integer]) fun x => IsText x ∨ ∃ n, IsWhole x n :=
    fun x _ => checks_of_decides ((Grammar.decides_ofType _).congr (by simp))
  exact fun v seen => checks_of_decides (decides_text.anyOf (decides_listOf seen parts))

lemma checksAll_meta : ChecksAll (.ref "Meta") IsMeta := by
  have object : ChecksAll (.ofType [.object]) fun v => ∃ members, v = .object members :=
    fun v _ => checks_of_decides ((Grammar.decides_ofType _).congr (by simp))
  have version : ChecksAll (.ofType [.string, .number]) fun v => IsText v ∨ IsNumber v :=
    fun v _ => checks_of_decides ((Grammar.decides_ofType _).congr (by simp))
  have imports : ChecksAll (listOf (.rules [text, .minLength 1])) (IsListOf IsNonemptyText) :=
    fun v seen => checks_of_decides
      (decides_listOf seen fun _ _ => checks_of_decides decides_nonemptyText)
  refine fun v seen => checks_ref rfl (FieldsMatch.decides_object ?_ seen)
  exact .cons checksAll_identifier <| .cons checksAll_text <| .cons checksAll_textOrTexts <|
    .cons checksAll_textOrTexts <| .cons object <| .cons checksAll_text <|
    .cons checksAll_texts <| .cons version <| .cons checksAll_flag <| .cons checksAll_flag <|
    .cons imports <| .cons checksAll_text <| .cons checksAll_endian <|
    .cons (checksAll_words _) .nil

lemma checksAll_params : ChecksAll (.ref "Params") IsParams := by
  refine fun v seen => checks_ref rfl (decides_listOf seen fun x hx =>
    checks_of_decides (FieldsMatch.decides_required ?_ hx ["id"]))
  exact .cons checksAll_identifier <| .cons checksAll_text <| .cons checksAll_doc <|
    .cons checksAll_docRef <| .cons checksAll_text .nil

lemma fieldMembers_match : FieldsMatch fieldMembers fieldClasses := by
  have anything : ChecksAll .anything fun _ => True :=
    fun _ _ => checks_of_decides Grammar.decides_anything
  exact .cons checksAll_doc <| .cons checksAll_docRef <| .cons checksAll_typeRef <|
    .cons checksAll_expression <| .cons checksAll_flag <| .cons checksAll_expression <|
    .cons (checksAll_words _) <| .cons checksAll_expression <| .cons checksAll_expression <|
    .cons checksAll_contents <| .cons checksAll_text <| .cons checksAll_byte <|
    .cons checksAll_flag <| .cons checksAll_flag <| .cons checksAll_flag <|
    .cons checksAll_byte <| .cons checksAll_text <| .cons checksAll_text <| .cons anything .nil

lemma checksAll_seq : ChecksAll (.ref "Seq") IsSeq := by
  have field : ChecksAll (.ref "SeqAttribute")
      (IsRecord (("id", IsIdentifier) :: fieldClasses) []) := fun v seen =>
    checks_ref rfl (FieldsMatch.decides_object (.cons checksAll_identifier fieldMembers_match) seen)
  exact fun v seen => checks_ref rfl (decides_listOf seen field)

lemma checks_name (s : String) :
    grammar.Checks (.atom (.str s)) (.ref "Identifier") (IsIdentifierName s) := by
  refine (checksAll_identifier _ (.text s)).congr ?_
  simp [IsIdentifier]

/-- Maps from identifiers to values of a class. -/
lemma decides_identifierMap {value : String} {P : Value → Prop}
    (h : ∀ m ∈ v.members, grammar.Checks m.2 (.ref value) (P m.2)) :
    grammar.Decides v steps (identifierMap (.ref value)) (IsMap IsIdentifierName P v) :=
  decides_namedMap checks_name (by simp) h

lemma checksAll_instances : ChecksAll (.ref "Instances") IsInstances := by
  have extra : FieldsMatch
      [("pos", .ref "Expression"), ("io", text), ("value", .ref "Expression")]
      [("pos", IsExpression), ("io", IsText), ("value", IsExpression)] :=
    .cons checksAll_expression <| .cons checksAll_text <| .cons checksAll_expression .nil
  have field : ChecksAll (.ref "Instance") (IsRecord (fieldClasses ++
      [("pos", IsExpression), ("io", IsText), ("value", IsExpression)]) []) := fun v seen =>
    checks_ref rfl (FieldsMatch.decides_object (fieldMembers_match.append extra) seen)
  exact fun v seen => checks_ref rfl (decides_identifierMap fun m hm =>
    field m.2 (standsForData_of_mem seen hm))

lemma checksAll_enumValue : ChecksAll (.ref "EnumValue") IsEnumValue := by
  have record : FieldsMatch
      [("id", .ref "Identifier"), ("doc", .ref "Doc"), ("doc-ref", .ref "DocRef")]
      [("id", IsIdentifier), ("doc", IsText), ("doc-ref", IsTextOrTexts)] :=
    .cons checksAll_identifier <| .cons checksAll_doc <| .cons checksAll_docRef .nil
  intro v seen
  have name : grammar.Decides v 1 (.ref "Identifier") (IsIdentifier v) :=
    Grammar.Decides.ref rfl decides_identifier
  exact checks_ref rfl ((name.anyOf (record.decides_required seen ["id"])).mono (by omega))

lemma checksAll_enums : ChecksAll (.ref "Enums") IsEnums := by
  have names (s : String) :
      grammar.Checks (.atom (.str s)) (.pattern enumKeyPattern) (IsEnumName s) :=
    checks_of_decides (decides_enumKeyPattern.congr (by simp))
  have table : ChecksAll (.ref "Enum") (IsMap IsEnumName IsEnumValue) := fun v seen =>
    checks_ref rfl (decides_namedMap names (by simp) fun m hm =>
      checksAll_enumValue m.2 (standsForData_of_mem seen hm))
  exact fun v seen => checks_ref rfl (decides_identifierMap fun m hm =>
    table m.2 (standsForData_of_mem seen hm))

/-! ## Descriptions -/

/-- The classes of the sections. -/
def sectionClasses : List (String × (Value → Prop)) :=
  [("meta", IsMeta),
    ("doc", IsText),
    ("doc-ref", IsTextOrTexts),
    ("params", IsParams),
    ("seq", IsSeq),
    ("types", IsTypes),
    ("instances", IsInstances),
    ("enums", IsEnums)]

lemma hasSections_iff {members : List (String × Value)} :
    HasSections members ↔ HasFields sectionClasses members := by
  constructor
  · rintro ⟨names, info, doc, docRef, params, seq, types, instances, enums⟩
    refine ⟨names, ?_⟩
    simp only [sectionClasses, List.forall_mem_cons]
    exact ⟨info, doc, docRef, params, seq, types, instances, enums, by simp⟩
  · rintro ⟨names, classes⟩
    simp only [sectionClasses, List.forall_mem_cons] at classes
    obtain ⟨info, doc, docRef, params, seq, types, instances, enums, -⟩ := classes
    exact ⟨names, info, doc, docRef, params, seq, types, instances, enums⟩

lemma isTypes_iff : IsTypes v ↔ IsMap IsIdentifierName IsTypeSpec v := by
  constructor
  · rintro ⟨names, specs⟩
    exact ⟨_, rfl, fun m hm => ⟨names m hm, specs m hm⟩⟩
  · rintro ⟨members, rfl, h⟩
    exact .mk (fun m hm => (h m hm).1) fun m hm => (h m hm).2

lemma isTypeSpec_iff : IsTypeSpec v ↔
    (∃ t ∈ [SimpleType.object, .null], v.isOfType t = true) ∧
      HasFields sectionClasses v.members := by
  constructor
  · rintro (_ | sections)
    · exact ⟨by simp, fun m hm => absurd hm List.not_mem_nil, fun c _ x found => by cases found⟩
    · exact ⟨by simp, hasSections_iff.1 sections⟩
  · rintro ⟨types, fields⟩
    have types : (∃ members, v = .object members) ∨ v = .atom .null := by simpa using types
    rcases types with ⟨members, rfl⟩ | rfl
    · exact .nested (hasSections_iff.2 fields)
    · exact .empty

lemma sections_match (seen : v.StandsForData)
    (types : ∀ m ∈ v.members, grammar.Checks m.2 (.ref "Types") (IsTypes m.2)) :
    PartsMatch v sections sectionClasses := by
  have part {schema : Schema} {P : Value → Prop} (h : ChecksAll schema P) (name : String)
      (x : Value) (found : v.members.lookup name = some x) : grammar.Checks x schema (P x) :=
    h x (standsForData_of_mem seen (Keyed.mem_of_lookup found))
  exact .cons ⟨rfl, part checksAll_meta _⟩ <| .cons ⟨rfl, part checksAll_doc _⟩ <|
    .cons ⟨rfl, part checksAll_docRef _⟩ <| .cons ⟨rfl, part checksAll_params _⟩ <|
    .cons ⟨rfl, part checksAll_seq _⟩ <|
    .cons ⟨rfl, fun x found => types ("types", x) (Keyed.mem_of_lookup found)⟩ <|
    .cons ⟨rfl, part checksAll_instances _⟩ <| .cons ⟨rfl, part checksAll_enums _⟩ .nil

/-- Types and nested descriptions contain each other, so both are checked along the value. -/
lemma checks_types_and_typeSpec (v : Value) (seen : v.StandsForData) :
    grammar.Checks v (.ref "Types") (IsTypes v) ∧
      grammar.Checks v (.ref "TypeSpec") (IsTypeSpec v) := by
  have step (v : Value) (seen : v.StandsForData)
      (parts : ∀ m ∈ v.members, grammar.Checks m.2 (.ref "Types") (IsTypes m.2) ∧
        grammar.Checks m.2 (.ref "TypeSpec") (IsTypeSpec m.2)) :
      grammar.Checks v (.ref "Types") (IsTypes v) ∧
        grammar.Checks v (.ref "TypeSpec") (IsTypeSpec v) := by
    constructor
    · exact checks_ref rfl ((decides_identifierMap fun m hm => (parts m hm).2).congr
        isTypes_iff.symm)
    · exact checks_ref rfl ((decides_record (sections_match seen fun m hm =>
        (parts m hm).1)).congr isTypeSpec_iff.symm)
  induction v using Value.parts_induction with
  | atom a => exact step _ seen (by simp [Value.members])
  | list items _ => exact step _ seen (by simp [Value.members])
  | object members ih =>
    exact step _ seen fun m hm => ih m hm (standsForData_of_mem seen hm)
  | other d => exact step _ seen (by simp [Value.members])

lemma checks_description (seen : v.StandsForData) :
    grammar.Checks v grammar.root (IsDescription v) := by
  have parts := sections_match seen fun m hm =>
    (checks_types_and_typeSpec m.2 (standsForData_of_mem seen hm)).1
  refine checks_of_decides (((decides_record parts).rules_append
    (Grammar.decides_required.rules_cons Grammar.decides_rules_nil)).congr ?_)
  rw [object_and_iff]
  constructor
  · rintro ⟨⟨members, rfl, fields⟩, required, -⟩
    exact ⟨members, rfl, hasSections_iff.2 fields,
      required members rfl "meta" (by simp [requiredSections])⟩
  · rintro ⟨members, rfl, sections, info⟩
    refine ⟨⟨members, rfl, hasSections_iff.1 sections⟩, ?_, trivial⟩
    rintro _ ⟨⟩ name hname
    rw [requiredSections, List.mem_singleton] at hname
    rw [hname]
    exact info

/-- The findings about data that does not contain itself: there are none exactly if the data is a
description.  There is no answer only if a number of the data has too many digits to be written. -/
theorem findings_iff_description (d : Yaml.Data) (acyclic : d.isAcyclic = true) :
    (∃ v findings, Value.ofData d = .ok v ∧ grammar.findings v = .ok findings ∧
        (findings = [] ↔ IsDescription v)) ∨
      d.isWritable = false ∧
        (Value.ofData d).bind grammar.findings = .error (.number .tooLong) := by
  have looked := Value.seenAs_of_isAcyclic acyclic
  cases hv : Value.ofData d with
  | error e =>
    rw [hv] at looked
    exact .inr ⟨looked.2, by rw [looked.1]; rfl⟩
  | ok v =>
    rw [hv] at looked
    rcases (checks_description ⟨d, hv⟩).outcome with ⟨findings, outcome, settled⟩ | ⟨outcome, long⟩
    · refine .inl ⟨v, Grammar.sortFindings findings, rfl, ?_, ?_⟩
      · rw [Grammar.findings, Grammar.report, outcome]
        rfl
      · rw [← settled, Grammar.sortFindings, ← List.length_eq_zero_iff, List.length_mergeSort,
          List.length_eq_zero_iff]
    · refine .inr ⟨?_, ?_⟩
      · rw [← Bool.not_eq_true]
        intro writable
        rw [looked writable] at long
        cases long
      · change grammar.findings v = _
        rw [Grammar.findings, Grammar.report, outcome]
        rfl

/-- A description with a type inside a type, and a member that is left to other tools. -/
def nestedDescription : Value :=
  .object [("meta", .object [("id", .atom (.str "a"))]),
    ("types", .object [("b", .object [("-kind", .list []),
      ("types", .object [("c", .atom .null)])])])]

lemma isDescription_nestedDescription : IsDescription nestedDescription := by
  have name {c : Char} (letter : IsSmallLetter c) : IsIdentifierName (String.ofList [c]) := by
    refine .inl ?_
    rw [String.toList_ofList]
    exact .mk letter (by simp)
  have info : IsMeta (.object [("id", .atom (.str "a"))]) := by
    refine ⟨_, rfl, ⟨by simp [OpenTo], ?_⟩, by simp⟩
    simp only [List.forall_mem_cons, MemberIn, List.lookup_cons, List.lookup_nil]
    refine ⟨?_, ?_⟩
    · rintro _ ⟨⟩
      exact ⟨"a", rfl, name ⟨by decide, by decide⟩⟩
    · simp
  have inner : IsTypes (.object [("c", .atom .null)]) := by
    refine .mk ?_ ?_
    · rw [List.forall_mem_singleton]
      exact name ⟨by decide, by decide⟩
    · rw [List.forall_mem_singleton]
      exact .empty
  have nested : HasSections [("-kind", .list []), ("types", .object [("c", .atom .null)])] := by
    constructor
    case names => simp [OpenTo, sectionNames, IsExtensionName]
    case types =>
      rintro _ ⟨⟩
      exact inner
    all_goals simp [MemberIn, List.lookup_cons]
  have outer : IsTypes (.object [("b", .object [("-kind", .list []),
      ("types", .object [("c", .atom .null)])])]) := by
    refine .mk ?_ ?_
    · rw [List.forall_mem_singleton]
      exact name ⟨by decide, by decide⟩
    · rw [List.forall_mem_singleton]
      exact .nested nested
  refine ⟨_, rfl, ?_, ("meta", _), List.mem_cons_self, rfl⟩
  constructor
  case names => simp [OpenTo, sectionNames]
  case info =>
    rintro _ ⟨⟩
    exact info
  case types =>
    rintro _ ⟨⟩
    exact outer
  all_goals simp [MemberIn, List.lookup_cons]

/-- There are no findings about a description with a type inside a type. -/
theorem findings_iff_description_nested :
    nestedDescription.toData.isAcyclic = true ∧
      ∃ v, Value.ofData nestedDescription.toData = .ok v ∧ IsDescription v ∧
        grammar.findings v = .ok [] := by
  have seen : Value.ofData nestedDescription.toData = .ok nestedDescription := by rfl
  have writable : nestedDescription.toData.isWritable = true := by rfl
  refine ⟨rfl, nestedDescription, seen, isDescription_nestedDescription, ?_⟩
  rcases findings_iff_description nestedDescription.toData rfl with
    ⟨v, findings, hv, outcome, settled⟩ | ⟨long, -⟩
  · rw [seen, Except.ok.injEq] at hv
    subst hv
    rw [outcome, settled.2 isDescription_nestedDescription]
  · rw [writable] at long
    cases long

end KsyTools.Ksy
