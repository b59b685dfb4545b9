/-
# Findings point into the value

Whatever schema a value is checked with, the path of every finding leads from the value to one of
its parts.
-/
import KsyTools.Proofs.Schema.Verdict

namespace KsyTools

/-- A path leads from a value to a part of it, over members and items. -/
inductive Value.LeadsTo : Value → List PathToken → Value → Prop
  | here (v : Value) : LeadsTo v [] v
  | member {members : List (String × Value)} {name : String} {x y : Value} {path : List PathToken}
      (present : (name, x) ∈ members) (rest : LeadsTo x path y) :
      LeadsTo (.object members) (.ofKey name :: path) y
  | item {items : List Value} {i : ℕ} {x y : Value} {path : List PathToken}
      (present : items[i]? = some x) (rest : LeadsTo x path y) :
      LeadsTo (.list items) (.ofIndex i :: path) y

/-- A path exists in a value. -/
def Value.HasPath (v : Value) (path : List PathToken) : Prop :=
  ∃ x, v.LeadsTo path x

namespace Value.HasPath

variable {v x : Value} {path : List PathToken}

lemma nil (v : Value) : v.HasPath [] :=
  ⟨v, .here v⟩

lemma ofKey {name : String} (present : (name, x) ∈ v.members) (h : x.HasPath path) :
    v.HasPath (.ofKey name :: path) := by
  obtain ⟨y, h⟩ := h
  cases v with
  | object members => exact ⟨y, .member present h⟩
  | atom a => cases present
  | list items => cases present
  | other d => cases present

lemma ofIndex {i : ℕ} (present : v.items[i]? = some x) (h : x.HasPath path) :
    v.HasPath (.ofIndex i :: path) := by
  obtain ⟨y, h⟩ := h
  cases v with
  | list items => exact ⟨y, .item present h⟩
  | atom a => simp [items] at present
  | object members => simp [items] at present
  | other d => simp [items] at present

lemma eq_nil_of_atom {a : Yaml.Atom} (h : (Value.atom a).HasPath path) : path = [] := by
  obtain ⟨y, h⟩ := h
  cases h
  rfl

end Value.HasPath

/-! ## Paths of reports -/

namespace Report

/-- All findings have paths of a set. -/
def PathsIn (P : List PathToken → Prop) (r : Report) : Prop :=
  ∀ f ∈ r.findings, P f.path

variable {P Q : List PathToken → Prop} {r : Report}

lemma PathsIn.imp (h : r.PathsIn P) (sub : ∀ path, P path → Q path) : r.PathsIn Q :=
  fun f hf => sub f.path (h f hf)

lemma pathsIn_empty : Report.empty.PathsIn P :=
  fun _ hf => absurd hf List.not_mem_nil

lemma pathsIn_broken (e : Failure) : (broken e).PathsIn P :=
  fun _ hf => absurd hf List.not_mem_nil

lemma pathsIn_finding (message : String) (h : P []) : (finding message).PathsIn P := by
  intro f hf
  rw [List.mem_singleton.1 hf]
  exact h

lemma pathsIn_about (v : Value) (message : String) (h : P []) : (about v message).PathsIn P := by
  unfold about
  split
  · exact pathsIn_finding message h
  · exact pathsIn_broken _

lemma pathsIn_expect {holds : Bool} {otherwise : Unit → Report}
    (h : (otherwise ()).PathsIn P) : (expect holds otherwise).PathsIn P := by
  cases holds
  · exact h
  · exact pathsIn_empty

lemma pathsIn_given {α : Type} {x : Except Failure α} {check : α → Report}
    (h : ∀ a, x = .ok a → (check a).PathsIn P) : (given x check).PathsIn P := by
  cases x with
  | error e => exact pathsIn_broken e
  | ok a => exact h a rfl

lemma PathsIn.andThen {second : Unit → Report} (h : r.PathsIn P) (h' : (second ()).PathsIn P) :
    (r.andThen second).PathsIn P := by
  unfold Report.andThen
  split
  · exact h
  · intro f hf
    rcases List.mem_append.1 hf with hf | hf
    · exact h f hf
    · exact h' f hf

lemma pathsIn_forEach {α : Type} {check : α → Report} {as : List α}
    (h : ∀ a ∈ as, (check a).PathsIn P) : (forEach check as).PathsIn P := by
  induction as with
  | nil => exact pathsIn_empty
  | cons a as ih =>
    rw [List.forall_mem_cons] at h
    rw [forEach]
    exact h.1.andThen (ih h.2)

lemma PathsIn.under (h : r.PathsIn P) {token : PathToken}
    (sub : ∀ path, P path → Q (token :: path)) :
    (r.under token).PathsIn Q := by
  intro f hf
  obtain ⟨part, hpart, rfl⟩ := List.mem_map.1 hf
  exact sub part.path (h part hpart)

end Report

/-! ## Rules that look at the value only -/

namespace Schema

open Report

variable {P : List PathToken → Prop}

lemma pathsIn_numberReport (a : Yaml.Atom) (rule : Schema) (whole : P []) :
    (numberReport a rule).PathsIn P := by
  unfold numberReport
  split
  case h_5 => exact pathsIn_given fun _ _ => pathsIn_expect (pathsIn_about _ _ whole)
  case h_6 => exact pathsIn_empty
  all_goals exact pathsIn_expect (pathsIn_about _ _ whole)

lemma pathsIn_textReport (s : String) (rule : Schema) (whole : P []) :
    (textReport s rule).PathsIn P := by
  unfold textReport
  split
  · exact pathsIn_given fun _ _ => pathsIn_expect (pathsIn_finding _ whole)
  · exact pathsIn_expect (pathsIn_about _ _ whole)
  · exact pathsIn_expect (pathsIn_about _ _ whole)
  · split
    · exact pathsIn_empty
    · exact pathsIn_broken _
    · exact pathsIn_broken _
    · exact pathsIn_finding _ whole
  · exact pathsIn_empty

lemma pathsIn_arrayReport (elements : List Value) (rule : Schema) (whole : P []) :
    (arrayReport elements rule).PathsIn P := by
  unfold arrayReport
  split
  case h_4 => exact pathsIn_broken _
  case h_5 => exact pathsIn_empty
  all_goals exact pathsIn_expect (pathsIn_about _ _ whole)

lemma pathsIn_objectReport (members : List (String × Value)) (rule : Schema) (whole : P []) :
    (objectReport members rule).PathsIn P := by
  have required (name message : String) :
      (expect (members.any fun m => m.1 == name) fun _ => finding message).PathsIn P :=
    pathsIn_expect (pathsIn_finding message whole)
  unfold objectReport
  split
  · exact pathsIn_forEach fun name _ => required name _
  · exact pathsIn_expect (pathsIn_forEach fun name _ => required name _)
  · exact pathsIn_expect (pathsIn_about _ _ whole)
  · exact pathsIn_expect (pathsIn_about _ _ whole)
  · exact pathsIn_empty

lemma pathsIn_valueReport (v : Value) (rule : Schema) (whole : P []) :
    (valueReport v rule).PathsIn P := by
  unfold valueReport
  split
  · exact pathsIn_about _ _ whole
  · exact pathsIn_broken _
  · exact pathsIn_expect (pathsIn_about _ _ whole)
  · exact pathsIn_expect (pathsIn_about _ _ whole)
  · exact pathsIn_expect (pathsIn_finding _ whole)
  · split
    · exact pathsIn_textReport _ _ whole
    · split
      · exact pathsIn_numberReport _ _ whole
      · exact pathsIn_empty
    · exact pathsIn_arrayReport _ _ whole
    · exact pathsIn_objectReport _ _ whole
    · exact pathsIn_empty

end Schema

/-! ## Rules about parts -/

namespace Grammar

open Report

variable {g : Grammar} {v : Value}

/-- That a value is not allowed at all is said of the value as a whole. -/
lemma pathsIn_check_nothing (x : Value) : (g.check x .nothing).PathsIn (· = []) := by
  rw [check_eq, checkSubject, reportAt_eq]
  exact Schema.pathsIn_valueReport x .nothing rfl

/-- All findings about a value point into it, whatever it is checked with. -/
def PointsInto (g : Grammar) (v : Value) : Prop :=
  ∀ schema, (g.check v schema).PathsIn v.HasPath

lemma pathsIn_part {x : Value} (points : g.PointsInto x) (token : PathToken) (schema : Schema)
    (sub : ∀ path, x.HasPath path → v.HasPath (token :: path)) :
    (part token (g.check x) schema).PathsIn v.HasPath := by
  unfold part
  split
  · refine (pathsIn_check_nothing x).imp ?_
    rintro _ rfl
    exact .nil v
  · exact (points schema).under sub

lemma pathsIn_member {m : String × Value} (hm : m ∈ v.members) (points : g.PointsInto m.2)
    (schema : Schema) : (part (.ofKey m.1) (g.check m.2) schema).PathsIn v.HasPath :=
  pathsIn_part points _ _ fun _ h => .ofKey hm h

lemma placed_tail {as : List Value} {x y : Value} {index i : ℕ}
    (placed : ∀ i y, (x :: as)[i]? = some y → v.items[index + i]? = some y)
    (h : as[i]? = some y) : v.items[index + 1 + i]? = some y := by
  have next := placed (i + 1) y h
  rwa [show index + (i + 1) = index + 1 + i by omega] at next

lemma pathsIn_items {schema : Schema} {as : List Value} {index : ℕ}
    (placed : ∀ i x, as[i]? = some x → v.items[index + i]? = some x)
    (points : ∀ x ∈ as, g.PointsInto x) :
    (items schema index (as.map g.check)).PathsIn v.HasPath := by
  induction as generalizing index with
  | nil => exact pathsIn_empty
  | cons x as ih =>
    rw [List.forall_mem_cons] at points
    rw [List.map_cons, items]
    refine PathsIn.andThen ?_ (ih (fun i y hy => ?_) points.2)
    · exact pathsIn_part points.1 _ _ fun _ h => .ofIndex (placed 0 x rfl) h
    · exact placed_tail placed hy

lemma pathsIn_firstItems {schemas : List Schema} {as : List Value} {index : ℕ}
    (placed : ∀ i x, as[i]? = some x → v.items[index + i]? = some x)
    (points : ∀ x ∈ as, g.PointsInto x) :
    (firstItems index schemas (as.map g.check)).PathsIn v.HasPath := by
  induction schemas generalizing as index with
  | nil => exact pathsIn_empty
  | cons schema schemas ih =>
    cases as with
    | nil => exact pathsIn_empty
    | cons x as =>
      rw [List.forall_mem_cons] at points
      rw [List.map_cons, firstItems]
      refine PathsIn.andThen ?_ (ih (fun i y hy => ?_) points.2)
      · exact pathsIn_part points.1 _ _ fun _ h => .ofIndex (placed 0 x rfl) h
      · exact placed_tail placed hy

/-- The findings about the parts of a value point into these. -/
structure PartsPoint (g : Grammar) (v : Value) : Prop where
  items : ∀ x ∈ v.items, g.PointsInto x
  members : ∀ m ∈ v.members, g.PointsInto m.2
  names : ∀ m ∈ v.members, g.PointsInto (.atom (.str m.1))

lemma mem_of_extraMembers {names : List String} {patterns? : Option MemberPatterns}
    {members extras : List (String × Check)}
    (h : Schema.extraMembers names patterns? members = .ok extras) {m : String × Check}
    (hm : m ∈ extras) : m ∈ members := by
  induction members generalizing extras with
  | nil =>
    rw [Schema.extraMembers] at h
    cases h
    cases hm
  | cons first members ih =>
    obtain ⟨name, check⟩ := first
    rw [Schema.extraMembers.eq_def] at h
    have kept {covered : Bool} (h : (do
        let more ← Schema.extraMembers names patterns? members
        return if covered then more else (name, check) :: more : Except Failure _) = .ok extras) :
        m ∈ (name, check) :: members := by
      cases more : Schema.extraMembers names patterns? members with
      | error e =>
        rw [more] at h
        cases h
      | ok rest =>
        rw [more] at h
        cases covered <;> cases h
        · rcases List.mem_cons.1 hm with rfl | hm
          · exact List.mem_cons_self
          · exact List.mem_cons_of_mem _ (ih more hm)
        · exact List.mem_cons_of_mem _ (ih more hm)
    dsimp only at h
    split at h
    · exact kept h
    · split at h
      · rename_i patterns
        cases found : patterns.joined.isIn name with
        | error e =>
          rw [found] at h
          cases h
        | ok covered =>
          rw [found] at h
          exact kept h
      · exact kept h

lemma PartsPoint.partReport (parts : g.PartsPoint v) (rule : Schema) :
    (Schema.partReport (g.subject v) rule).PathsIn v.HasPath := by
  have member (m : String × Check) (hm : m ∈ (g.subject v).members) (schema : Schema) :
      (part (.ofKey m.1) m.2 schema).PathsIn v.HasPath := by
    obtain ⟨x, hx, rfl⟩ := List.mem_map.1 hm
    exact pathsIn_member hx (parts.members x hx) schema
  have whole : v.HasPath [] := .nil v
  unfold Schema.partReport
  split
  · refine pathsIn_forEach fun f _ => ?_
    obtain ⟨name, schema⟩ := f
    dsimp only
    split
    · rename_i check found
      exact member (_, check) (Keyed.mem_of_lookup found) _
    · exact pathsIn_empty
  · refine pathsIn_forEach fun p _ => pathsIn_forEach fun m hm => ?_
    exact pathsIn_given fun found _ => pathsIn_expect (member m hm p.2)
  · refine pathsIn_given fun extras hextras => ?_
    split
    · exact pathsIn_empty
    · exact pathsIn_expect (pathsIn_finding _ whole)
    · exact pathsIn_forEach fun m hm => member m (mem_of_extraMembers hextras hm) _
  · refine pathsIn_forEach fun check hcheck => ?_
    obtain ⟨m, hm, rfl⟩ := List.mem_map.1 hcheck
    refine (parts.names m hm _).imp fun path h => ?_
    rw [h.eq_nil_of_atom]
    exact whole
  · exact pathsIn_items (fun i x hx => by rwa [Nat.zero_add]) parts.items
  · exact pathsIn_firstItems (fun i x hx => by rwa [Nat.zero_add]) parts.items
  · split
    · exact pathsIn_empty
    · exact pathsIn_expect (pathsIn_about _ _ whole)
    · rename_i covered _ _ _ _
      rw [subject, ← List.map_drop]
      refine pathsIn_items (fun i x hx => ?_) fun x hx => parts.items x (List.mem_of_mem_drop hx)
      rwa [List.getElem?_drop] at hx
  · split
    · exact pathsIn_given fun _ _ => pathsIn_expect (pathsIn_about _ _ whole)
    · exact pathsIn_empty
  · exact Schema.pathsIn_valueReport _ _ whole

/-! ## Rules made of schemas -/

lemma reportAll_eq_forEach (onRef : Subject → String → Report) (subject : Subject)
    (rules : List Schema) :
    Schema.reportAll onRef subject rules = forEach (Schema.report onRef subject) rules := by
  induction rules with
  | nil => rw [Schema.reportAll, forEach]
  | cons rule rules ih => rw [Schema.reportAll, forEach, ih]

lemma PartsPoint.report (parts : g.PartsPoint v) {onRef : Subject → String → Report}
    (refs : ∀ name, (onRef (g.subject v) name).PathsIn v.HasPath) (schema : Schema) :
    (Schema.report onRef (g.subject v) schema).PathsIn v.HasPath := by
  have whole : v.HasPath [] := .nil v
  cases schema
  case anything =>
    rw [Schema.report]
    exact pathsIn_empty
  case rules rules =>
    rw [Schema.report, reportAll_eq_forEach]
    refine pathsIn_forEach fun rule hrule => ?_
    have : sizeOf rule < sizeOf rules := List.sizeOf_lt_of_mem hrule
    exact parts.report refs rule
  case anyOf schemas =>
    rw [Schema.report]
    exact pathsIn_given fun _ _ => pathsIn_expect (pathsIn_about _ _ whole)
  case oneOf schemas =>
    rw [Schema.report]
    refine pathsIn_given fun found _ => ?_
    split
    · exact pathsIn_about _ _ whole
    · exact pathsIn_expect (pathsIn_about _ _ whole)
  case not schema written =>
    rw [Schema.report]
    exact pathsIn_given fun _ _ => pathsIn_expect (pathsIn_about _ _ whole)
  case ifThenElse condition yes no =>
    rw [Schema.report]
    split
    · exact parts.report refs yes
    · exact parts.report refs no
    · exact pathsIn_broken _
  case dependentSchema name schema =>
    rw [Schema.report]
    split
    · exact parts.report refs schema
    · exact pathsIn_empty
  case ref name =>
    rw [Schema.report]
    exact refs name
  all_goals exact parts.partReport _
termination_by sizeOf schema

lemma PartsPoint.pointsInto (parts : g.PartsPoint v) : g.PointsInto v := by
  have bounded (budget : ℕ) (schema : Schema) :
      (Schema.report (g.onRef budget) (g.subject v) schema).PathsIn v.HasPath := by
    induction budget generalizing schema with
    | zero => exact parts.report (fun _ => pathsIn_broken _) schema
    | succ budget ih =>
      refine parts.report (fun name => ?_) schema
      rw [onRef]
      dsimp only
      split
      · exact ih _
      · exact pathsIn_empty
  intro schema
  rw [check_eq, checkSubject, reportAt_eq]
  exact bounded _ schema

/-- All findings about a value point into it. -/
theorem pointsInto (g : Grammar) (v : Value) : g.PointsInto v := by
  have atom (a : Yaml.Atom) : g.PointsInto (.atom a) :=
    PartsPoint.pointsInto ⟨nofun, nofun, nofun⟩
  induction v using Value.parts_induction with
  | atom a => exact atom a
  | list items ih => exact PartsPoint.pointsInto ⟨ih, nofun, nofun⟩
  | object members ih => exact PartsPoint.pointsInto ⟨nofun, ih, fun _ _ => atom _⟩
  | other d => exact PartsPoint.pointsInto ⟨nofun, nofun, nofun⟩

lemma hasPath_of_mem_findings {v : Value} {fs : List Finding} (h : g.findings v = .ok fs)
    {f : Finding} (hf : f ∈ fs) : v.HasPath f.path := by
  rw [findings, outcome] at h
  split at h
  · cases h
  · cases h
    have hf : f ∈ (g.report v).findings := (List.mergeSort_perm _ _).mem_iff.1 hf
    exact pointsInto g v g.root f hf

end Grammar

end KsyTools
