/-
# What a report says about a value

A report settles a question if it has no findings exactly when the answer is yes.  The only excuse
is a number with too many digits to be shown in a finding.  Here it is shown for each rule of a
schema which question its reports settle, so that the reports of a whole grammar can be read off
its rules.  References may be followed a number of times that is counted along.
-/
import KsyTools.Proofs.Schema.Values
import KsyTools.Schema.Findings

namespace KsyTools

open Yaml (Atom)

/-! ## Reports -/

namespace Report

/-- The report has no findings exactly if `P` holds, or it breaks off at a number that is too long;
with `fits` it does not break off. -/
def Settles (fits : Bool) (r : Report) (P : Prop) : Prop :=
  (r.failure? = none ∧ (r.findings = [] ↔ P)) ∨
    (r.failure? = some (.number .tooLong) ∧ fits = false)

variable {fits fits' : Bool} {r : Report} {P Q : Prop}

lemma Settles.congr (h : r.Settles fits P) (same : P ↔ Q) : r.Settles fits Q := by
  rwa [propext same] at h

/-- Whoever promises less may break off more. -/
lemma Settles.mono (h : r.Settles fits P) (weaker : fits' = true → fits = true) :
    r.Settles fits' P := by
  rcases h with h | ⟨broken, long⟩
  · exact .inl h
  · refine .inr ⟨broken, ?_⟩
    rw [← Bool.not_eq_true]
    intro fit
    rw [weaker fit] at long
    cases long

lemma settles_empty : Report.empty.Settles fits True :=
  .inl ⟨rfl, by simp [empty]⟩

lemma settles_finding (message : String) : (finding message).Settles fits False :=
  .inl ⟨rfl, by simp [finding]⟩

lemma settles_problem (v : Value) (what : String) :
    (problem v what).Settles v.isWritable False := by
  unfold problem about
  split
  · exact settles_finding _
  · rename_i long
    exact .inr ⟨rfl, by simpa using long⟩

lemma settles_expect {holds : Bool} {otherwise : Unit → Report}
    (h : (otherwise ()).Settles fits False) :
    (expect holds otherwise).Settles fits (holds = true) := by
  cases holds
  · exact h.congr (by simp)
  · exact settles_empty.congr (by simp)

lemma settles_given {α : Type} {x : Except Failure α} {a : α} {check : α → Report}
    (known : x = .ok a) (h : (check a).Settles fits P) : (given x check).Settles fits P := by
  rw [known]
  exact h

lemma Settles.andThen {second : Unit → Report} (h : r.Settles fits P)
    (h' : (second ()).Settles fits Q) : (r.andThen second).Settles fits (P ∧ Q) := by
  unfold Report.andThen
  rcases h with ⟨hr, first⟩ | ⟨hr, long⟩
  · rw [hr]
    rcases h' with ⟨hs, rest⟩ | ⟨hs, long⟩
    · exact .inl ⟨hs, by rw [List.append_eq_nil_iff, first, rest]⟩
    · exact .inr ⟨hs, long⟩
  · rw [hr]
    exact .inr ⟨hr, long⟩

lemma andThen_assoc (r : Report) (second third : Unit → Report) :
    (r.andThen second).andThen third = r.andThen fun _ => (second ()).andThen third := by
  cases hr : r.failure? with
  | some e => simp [Report.andThen, hr]
  | none =>
    cases hs : (second ()).failure? with
    | some e => simp [Report.andThen, hr, hs]
    | none => simp [Report.andThen, hr, hs]

lemma settles_forEach {α : Type} {check : α → Report} {as : List α} {P : α → Prop}
    (h : ∀ a ∈ as, (check a).Settles fits (P a)) :
    (forEach check as).Settles fits (∀ a ∈ as, P a) := by
  induction as with
  | nil => exact settles_empty.congr (by simp)
  | cons a as ih =>
    rw [List.forall_mem_cons] at h
    rw [forEach]
    exact (h.1.andThen (ih h.2)).congr List.forall_mem_cons.symm

lemma forEach_map {α β : Type} (check : β → Report) (f : α → β) (as : List α) :
    forEach check (as.map f) = forEach (fun a => check (f a)) as := by
  induction as with
  | nil => rfl
  | cons a as ih => rw [List.map_cons, forEach, forEach, ih]

lemma Settles.under (h : r.Settles fits P) (token : PathToken) :
    (r.under token).Settles fits P := by
  unfold Settles at h ⊢
  simpa [Report.under] using h

lemma Settles.part {check : Check} {schema : Schema} (h : (check schema).Settles fits P)
    (token : PathToken) : (part token check schema).Settles fits P := by
  unfold Report.part
  split
  · exact h
  · exact h.under token

lemma settles_items {α : Type} {check : α → Check} {schema : Schema} {as : List α} {P : α → Prop}
    (h : ∀ a ∈ as, (check a schema).Settles fits (P a)) (index : ℕ) :
    (items schema index (as.map check)).Settles fits (∀ a ∈ as, P a) := by
  induction as generalizing index with
  | nil => exact settles_empty.congr (by simp)
  | cons a as ih =>
    rw [List.forall_mem_cons] at h
    rw [List.map_cons, items]
    have first := h.1.part (.ofIndex index)
    exact (first.andThen (ih h.2 (index + 1))).congr List.forall_mem_cons.symm

/-- All findings of a report that settles a question. -/
lemma Settles.outcome (h : r.Settles fits P) :
    (∃ findings, r.outcome = .ok findings ∧ (findings = [] ↔ P)) ∨
      r.outcome = .error (.number .tooLong) ∧ fits = false := by
  unfold Report.outcome
  rcases h with ⟨hr, h⟩ | ⟨hr, long⟩
  · rw [hr]
    exact .inl ⟨r.findings, rfl, h⟩
  · rw [hr]
    exact .inr ⟨rfl, long⟩

end Report

/-! ## Checks of values -/

namespace Value

/-- The items of a list; other values have none. -/
def items : Value → List Value
  | .list items => items
  | _ => []

/-- The members of an object; other values have none. -/
def members : Value → List (String × Value)
  | .object members => members
  | _ => []

lemma isWritable_of_mem_items {v x : Value} (hx : x ∈ v.items) (h : v.isWritable = true) :
    x.isWritable = true := by
  cases v with
  | list items => exact isWritable_list.1 h x hx
  | atom a => simp [items] at hx
  | object members => simp [items] at hx
  | other d => simp [items] at hx

lemma isWritable_of_mem_members {v : Value} {m : String × Value} (hm : m ∈ v.members)
    (h : v.isWritable = true) : m.2.isWritable = true := by
  cases v with
  | object members => exact isWritable_object.1 h m hm
  | atom a => simp [members] at hm
  | list items => simp [members] at hm
  | other d => simp [members] at hm

end Value

namespace Grammar

variable (g : Grammar)

/-- A value with the checks of its parts. -/
def subject (v : Value) : Subject :=
  ⟨v, v.items.map g.check, v.members.map fun m => (m.1, g.check m.2),
    v.members.map fun m => g.check (.atom (.str m.1))⟩

lemma checkItems_eq (items : List Value) : g.checkItems items = items.map g.check := by
  induction items with
  | nil => rw [checkItems, List.map_nil]
  | cons v items ih => rw [checkItems, List.map_cons, ih]

lemma checkMembers_eq (members : List (String × Value)) :
    g.checkMembers members = members.map fun m => (m.1, g.check m.2) := by
  induction members with
  | nil => rw [checkMembers, List.map_nil]
  | cons m members ih =>
    obtain ⟨name, v⟩ := m
    rw [checkMembers, List.map_cons, ih]

lemma check_text (s : String) : g.check (.atom (.str s)) = g.checkText s := by
  rw [check, checkText]

/-- The check of a value is one of the value with the checks of its parts. -/
lemma check_eq (v : Value) : g.check v = g.checkSubject (g.subject v) := by
  cases v with
  | atom a => rw [check]; rfl
  | list items => rw [check, checkItems_eq]; rfl
  | object members =>
    rw [check, checkMembers_eq, subject]
    simp only [Value.items, Value.members, List.map_nil, check_text]
  | other d => rw [check]; rfl

/-- The reports that are used for references when `budget` of them can be followed. -/
def onRef : (budget : ℕ) → Subject → String → Report
  | 0 => fun _ _ => .broken .endless
  | budget + 1 => fun subject name =>
    match g.definitions.lookup name with
    | some target => Schema.report (onRef budget) subject target
    | none => .empty

lemma reportAt_eq (subject : Subject) (budget : ℕ) :
    Schema.reportAt g.definitions subject budget = Schema.report (g.onRef budget) subject := by
  induction budget generalizing subject with
  | zero => rfl
  | succ budget ih =>
    rw [Schema.reportAt, onRef]
    refine congrArg (Schema.report · subject) (funext fun inner => funext fun name => ?_)
    cases g.definitions.lookup name with
    | none => rfl
    | some target => exact congrFun (ih inner) target

/-- The reports of a schema about a value settle `P` if at least `steps` references are followed. -/
def Decides (v : Value) (steps : ℕ) (schema : Schema) (P : Prop) : Prop :=
  ∀ budget, steps ≤ budget →
    (Schema.report (g.onRef budget) (g.subject v) schema).Settles v.isWritable P

/-- The check of a value with a schema settles `P`. -/
def Checks (v : Value) (schema : Schema) (P : Prop) : Prop :=
  (g.check v schema).Settles v.isWritable P

variable {g} {v : Value} {steps : ℕ} {schema : Schema} {P Q : Prop}

lemma Decides.congr (h : g.Decides v steps schema P) (same : P ↔ Q) :
    g.Decides v steps schema Q :=
  fun budget enough => (h budget enough).congr same

lemma Decides.mono (h : g.Decides v steps schema P) {more : ℕ} (le : steps ≤ more) :
    g.Decides v more schema P :=
  fun budget enough => h budget (Nat.le_trans le enough)

lemma Decides.checks (h : g.Decides v steps schema P) (enough : steps ≤ g.definitions.length + 1) :
    g.Checks v schema P := by
  unfold Checks
  rw [check_eq, checkSubject, reportAt_eq]
  exact h _ enough

/-! ## Rules made of schemas -/

section Parts

variable (onRef : Subject → String → Report) (subject : Subject)

lemma report_anything : Schema.report onRef subject .anything = .empty := rfl

lemma report_ref (name : String) :
    Schema.report onRef subject (.ref name) = onRef subject name := rfl

lemma report_rules (rules : List Schema) :
    Schema.report onRef subject (.rules rules) = Schema.reportAll onRef subject rules := rfl

lemma report_anyOf (schemas : List Schema) :
    Schema.report onRef subject (.anyOf schemas) =
      .given (Schema.anyHolds onRef subject schemas) fun holds => .expect holds fun _ =>
        .problem subject.value "is not valid under any of the given schemas" := rfl

lemma reportAll_cons (rule : Schema) (rules : List Schema) :
    Schema.reportAll onRef subject (rule :: rules) =
      (Schema.report onRef subject rule).andThen fun _ =>
        Schema.reportAll onRef subject rules := rfl

end Parts

lemma Decides.ref {name : String} {target : Schema}
    (found : g.definitions.lookup name = some target)
    (h : g.Decides v steps target P) : g.Decides v (steps + 1) (.ref name) P := by
  intro budget enough
  obtain ⟨budget, rfl⟩ : ∃ b, budget = b + 1 := ⟨budget - 1, by omega⟩
  rw [report_ref, onRef]
  simp only [found]
  exact h budget (by omega)

lemma decides_rules_nil : g.Decides v steps (.rules []) True := by
  intro budget _
  exact Report.settles_empty

lemma Decides.rules_cons {rest : List Schema} (h : g.Decides v steps schema P)
    (h' : g.Decides v steps (.rules rest) Q) :
    g.Decides v steps (.rules (schema :: rest)) (P ∧ Q) := by
  intro budget enough
  have first := h budget enough
  have others := h' budget enough
  rw [report_rules] at others
  rw [report_rules, reportAll_cons]
  exact first.andThen others

lemma reportAll_append (onRef : Subject → String → Report) (subject : Subject)
    (rules more : List Schema) :
    Schema.reportAll onRef subject (rules ++ more) =
      (Schema.reportAll onRef subject rules).andThen fun _ =>
        Schema.reportAll onRef subject more := by
  induction rules with
  | nil => rfl
  | cons rule rules ih =>
    rw [List.cons_append, reportAll_cons, reportAll_cons, ih, Report.andThen_assoc]

lemma Decides.rules_append {rules more : List Schema} (h : g.Decides v steps (.rules rules) P)
    (h' : g.Decides v steps (.rules more) Q) :
    g.Decides v steps (.rules (rules ++ more)) (P ∧ Q) := by
  intro budget enough
  have first := h budget enough
  have others := h' budget enough
  rw [report_rules] at first others
  rw [report_rules, reportAll_append]
  exact first.andThen others

/-- One of two schemas holds if the first has no findings, or else the second. -/
lemma Decides.anyOf {first second : Schema} (h : g.Decides v steps first P)
    (h' : g.Decides v steps second Q) : g.Decides v steps (.anyOf [first, second]) (P ∨ Q) := by
  intro budget enough
  rw [report_anyOf, Schema.anyHolds]
  rcases (h budget enough).outcome with ⟨findings, hf, first⟩ | ⟨hf, long⟩
  · rw [hf]
    cases findings with
    | nil => exact Report.settles_empty.congr (by simp [first.1 rfl])
    | cons f findings =>
      have no : ¬ P := by simpa using first
      rw [Schema.anyHolds]
      rcases (h' budget enough).outcome with ⟨findings', hs, second⟩ | ⟨hs, long⟩
      · rw [hs]
        cases findings' with
        | nil => exact Report.settles_empty.congr (by simp [second.1 rfl])
        | cons f' findings' =>
          have no' : ¬ Q := by simpa using second
          exact (Report.settles_problem v _).congr (by simp [no, no'])
      · rw [hs]
        exact .inr ⟨rfl, long⟩
  · rw [hf]
    exact .inr ⟨rfl, long⟩

/-! ## Rules about the value as a whole -/

lemma decides_anything : g.Decides v steps .anything True := by
  intro budget _
  rw [report_anything]
  exact Report.settles_empty

/-- What is found by a rule that looks at the value only. -/
lemma decides_of_value {rule : Schema}
    (plain : ∀ onRef subject, Schema.report onRef subject rule =
      Schema.valueReport subject.value rule)
    (h : (Schema.valueReport v rule).Settles v.isWritable P) : g.Decides v steps rule P := by
  intro budget _
  rw [plain]
  exact h

lemma decides_ofType (types : List SimpleType) :
    g.Decides v steps (.ofType types) (∃ t ∈ types, v.isOfType t = true) := by
  refine decides_of_value (fun _ _ => rfl) ?_
  refine Report.Settles.congr (P := types.any v.isOfType = true) ?_ (by simp)
  exact Report.settles_expect (Report.settles_problem v _)

lemma decides_enum (values : List Value) :
    g.Decides v steps (.enum values) (∃ x ∈ values, v.equals x = true) := by
  refine decides_of_value (fun _ _ => rfl) ?_
  refine Report.Settles.congr (P := values.any v.equals = true) ?_ (by simp)
  exact Report.settles_expect (Report.settles_problem v _)

/-! ## Rules about texts, numbers and objects as such -/

lemma isIn_placed (source : String) (p : PlacedPattern) (s : String) :
    (SearchPattern.placed source p).isIn s = .ok (p.isIn s) :=
  rfl

lemma decides_pattern {source : String} {p : PlacedPattern} :
    g.Decides v steps (.pattern (.placed source p))
      (∀ s, v = .atom (.str s) → p.isIn s = true) := by
  refine decides_of_value (fun _ _ => rfl) ?_
  rcases v with a | items | members | d
  · cases a
    case str s =>
      refine Report.Settles.congr (P := p.isIn s = true) ?_ (by simp)
      exact Report.settles_given (isIn_placed source p s)
        (Report.settles_expect (Report.settles_finding _))
    all_goals exact Report.settles_empty.congr (by simp)
  all_goals exact Report.settles_empty.congr (by simp)

lemma decides_minLength {n : ℕ} :
    g.Decides v steps (.minLength n) (∀ s, v = .atom (.str s) → n ≤ s.length) := by
  refine decides_of_value (fun _ _ => rfl) ?_
  rcases v with a | items | members | d
  · cases a
    case str s =>
      refine Report.Settles.congr (P := decide (n ≤ s.length) = true) ?_ (by simp)
      exact Report.settles_expect (Report.settles_problem _ _)
    all_goals exact Report.settles_empty.congr (by simp)
  all_goals exact Report.settles_empty.congr (by simp)

/-- What is found by a rule about numbers, which says nothing about other values. -/
lemma decides_of_number {rule : Schema} {holds : Atom → Bool}
    (plain : ∀ onRef subject, Schema.report onRef subject rule =
      Schema.valueReport subject.value rule)
    (numeric : ∀ v, Schema.valueReport v rule = match v with
      | .atom a => if a.isNumber then Schema.numberReport a rule else .empty
      | _ => .empty)
    (h : ∀ a, (Schema.numberReport a rule).Settles (Value.atom a).isWritable (holds a = true)) :
    g.Decides v steps rule (∀ a, v = .atom a → a.isNumber = true → holds a = true) := by
  refine decides_of_value plain ?_
  rw [numeric]
  cases v with
  | atom a =>
    by_cases number : a.isNumber = true
    · simp only [number, if_true]
      exact (h a).congr (by simp [number])
    · simp only [number]
      exact Report.settles_empty.congr (by simp [number])
  | list items => exact Report.settles_empty.congr (by simp)
  | object members => exact Report.settles_empty.congr (by simp)
  | other d => exact Report.settles_empty.congr (by simp)

lemma decides_minimum {bound : Atom} :
    g.Decides v steps (.minimum bound)
      (∀ a, v = .atom a → a.isNumber = true → (!a.lessThan bound) = true) := by
  refine decides_of_number (fun _ _ => rfl) ?_ ?_
  · intro v
    rcases v with (_ | _ | _ | _ | _ | _ | _ | _) | _ | _ | _ <;> rfl
  · intro a
    exact Report.settles_expect (Report.settles_problem _ _)

lemma decides_maximum {bound : Atom} :
    g.Decides v steps (.maximum bound)
      (∀ a, v = .atom a → a.isNumber = true → (!bound.lessThan a) = true) := by
  refine decides_of_number (fun _ _ => rfl) ?_ ?_
  · intro v
    rcases v with (_ | _ | _ | _ | _ | _ | _ | _) | _ | _ | _ <;> rfl
  · intro a
    exact Report.settles_expect (Report.settles_problem _ _)

lemma decides_required {names : List String} :
    g.Decides v steps (.required names)
      (∀ members, v = .object members → ∀ name ∈ names, ∃ m ∈ members, m.1 = name) := by
  refine decides_of_value (fun _ _ => rfl) ?_
  rcases v with a | items | members | d
  · cases a
    all_goals exact Report.settles_empty.congr (by simp)
  · exact Report.settles_empty.congr (by simp)
  · refine Report.Settles.congr
      (P := ∀ name ∈ names, (members.any fun m => m.1 == name) = true) ?_ (by simp)
    exact Report.settles_forEach fun name _ => Report.settles_expect (Report.settles_finding _)
  · exact Report.settles_empty.congr (by simp)

/-! ## Rules about parts -/

lemma decides_items {P : Value → Prop} (h : ∀ x ∈ v.items, g.Checks x schema (P x)) :
    g.Decides v steps (.items schema) (∀ x ∈ v.items, P x) := by
  intro budget _
  change Report.Settles _ (Report.items schema 0 (v.items.map g.check)) _
  exact Report.settles_items
    (fun x hx => (h x hx).mono fun fit => Value.isWritable_of_mem_items hx fit) 0

lemma lookup_checks (members : List (String × Value)) (name : String) :
    (members.map fun m => (m.1, g.check m.2)).lookup name =
      (members.lookup name).map g.check := by
  induction members with
  | nil => rfl
  | cons m members ih =>
    rw [List.map_cons, List.lookup_cons, List.lookup_cons, ih]
    split <;> rfl

/-- The members of a value that have a name of a record are in the class that the record gives. -/
lemma decides_properties {fields : List (String × Schema)}
    {classes : List (String × (Value → Prop))}
    (h : List.Forall₂ (fun f c => f.1 = c.1 ∧
      ∀ x, v.members.lookup c.1 = some x → g.Checks x f.2 (c.2 x)) fields classes) :
    g.Decides v steps (.properties fields)
      (∀ c ∈ classes, ∀ x, v.members.lookup c.1 = some x → c.2 x) := by
  intro budget _
  change (Report.forEach _ fields).Settles _ _
  induction h with
  | nil => exact Report.settles_empty.congr (by simp)
  | @cons f c fields classes first rest ih =>
    obtain ⟨fname, schema⟩ := f
    obtain ⟨rfl, first⟩ := first
    rw [Report.forEach]
    refine Report.Settles.congr (Report.Settles.andThen ?_ ih) List.forall_mem_cons.symm
    simp only [subject, lookup_checks]
    cases found : v.members.lookup c.1 with
    | none => exact Report.settles_empty.congr (by simp)
    | some x =>
      have hx := Keyed.mem_of_lookup found
      have settled := (first x found).part (.ofKey c.1)
      exact (settled.mono fun fit => Value.isWritable_of_mem_members hx fit).congr (by simp)

/-- A pattern for names of members under which everything is allowed asks for nothing. -/
lemma decides_patternProperties_anything {source : String} {p : PlacedPattern} :
    g.Decides v steps (.patternProperties [(.placed source p, .anything)]) True := by
  have allowed (x : Value) : g.Checks x .anything True := decides_anything.checks (Nat.zero_le _)
  intro budget _
  change ((Report.forEach _ (v.members.map _)).andThen fun _ => .empty).Settles _ _
  refine Report.Settles.congr (P := (∀ m ∈ v.members, True) ∧ True)
    (Report.Settles.andThen ?_ Report.settles_empty) (by simp)
  rw [Report.forEach_map]
  refine Report.settles_forEach fun m hm => Report.settles_given (isIn_placed source p m.1) ?_
  cases p.isIn m.1 with
  | false => exact Report.settles_empty
  | true =>
    exact ((allowed m.2).part (.ofKey m.1)).mono fun fit =>
      Value.isWritable_of_mem_members hm fit

lemma decides_propertyNames {P : String → Prop}
    (h : ∀ m ∈ v.members, g.Checks (.atom (.str m.1)) schema (P m.1)) :
    g.Decides v steps (.propertyNames schema) (∀ m ∈ v.members, P m.1) := by
  intro budget _
  change (Report.forEach (fun check => check schema)
    (v.members.map fun m => g.check (.atom (.str m.1)))).Settles _ _
  rw [Report.forEach_map]
  exact Report.settles_forEach fun m hm => (h m hm).mono fun _ => rfl

/-- The names that the patterns for members of an object cover. -/
def Covers : Option MemberPatterns → (String → Bool) → Prop
  | some patterns, found => ∀ name, patterns.joined.isIn name = .ok (found name)
  | none, found => ∀ name, found name = false

lemma extraMembers_eq {names : List String} {patterns? : Option MemberPatterns}
    {found : String → Bool} (covers : Covers patterns? found) (members : List (String × Check)) :
    Schema.extraMembers names patterns? members =
      .ok (members.filter fun m => !(decide (m.1 ∈ names) || found m.1)) := by
  induction members with
  | nil => rfl
  | cons m members ih =>
    obtain ⟨name, check⟩ := m
    rw [List.filter_cons, Schema.extraMembers.eq_def]
    by_cases known : name ∈ names
    · simp [known, ih, bind, Except.bind, pure, Except.pure]
    · cases patterns? with
      | none =>
        have absent : found name = false := covers name
        simp [known, ih, absent, bind, Except.bind, pure, Except.pure]
      | some patterns =>
        have present : patterns.joined.isIn name = .ok (found name) := covers name
        cases covered : found name <;>
          simp [known, ih, present, covered, bind, Except.bind, pure, Except.pure]

/-- No members are allowed but those with given names and with names of a pattern. -/
lemma decides_additional_nothing {names : List String} {patterns? : Option MemberPatterns}
    {found : String → Bool} (covers : Covers patterns? found) :
    g.Decides v steps (.additionalProperties names patterns? .nothing)
      (∀ m ∈ v.members, m.1 ∈ names ∨ found m.1 = true) := by
  intro budget _
  have extras : Schema.extraMembers names patterns? (g.subject v).members = _ :=
    extraMembers_eq covers _
  refine Report.Settles.congr
    (Report.settles_given extras (Report.settles_expect (Report.settles_finding _))) ?_
  simp only [subject, List.isEmpty_iff, List.filter_eq_nil_iff, List.forall_mem_map,
    Bool.not_eq_true', Bool.not_eq_false, Bool.or_eq_true, decide_eq_true_eq]

/-- A schema for all members that no name covers. -/
lemma report_additional (onRef : Subject → String → Report) (subject : Subject)
    (real : schema ≠ .anything ∧ schema ≠ .nothing) :
    Schema.report onRef subject (.additionalProperties [] none schema) =
      .given (Schema.extraMembers [] none subject.members)
        (.forEach fun (name, check) => .part (.ofKey name) check schema) := by
  obtain ⟨notAny, notNone⟩ := real
  cases schema
  case anything => exact absurd rfl notAny
  case nothing => exact absurd rfl notNone
  all_goals rfl

lemma decides_additional {P : Value → Prop} (real : schema ≠ .anything ∧ schema ≠ .nothing)
    (h : ∀ m ∈ v.members, g.Checks m.2 schema (P m.2)) :
    g.Decides v steps (.additionalProperties [] none schema) (∀ m ∈ v.members, P m.2) := by
  intro budget _
  have none : Covers none fun _ => false := fun _ => rfl
  rw [report_additional _ _ real]
  refine Report.settles_given (extraMembers_eq none _) ?_
  have all : (g.subject v).members.filter (fun m => !(decide (m.1 ∈ []) || false)) =
      v.members.map fun m => (m.1, g.check m.2) := by
    simp [subject]
  rw [all, Report.forEach_map]
  exact Report.settles_forEach fun m hm =>
    ((h m hm).part (.ofKey m.1)).mono fun fit => Value.isWritable_of_mem_members hm fit

end Grammar

end KsyTools
