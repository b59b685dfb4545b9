/-
# What the checks of a description find

The warnings about the references of a description, node by node: one for an import that leads
nowhere, and one for the use of a type that is not defined.  They can be given exactly if
every import can be followed, to a document or to nowhere, and if the visible types can be
collected where one is used.
-/
import KsyTools.Proofs.Ksy.References

namespace KsyTools

namespace Ksy

/-- The warning about an import that leads nowhere. -/
def importWarning (t : FileTree) (d : Document) (l : Located) : Issue :=
  .about d (some l.node)
    s!"Cannot resolve import '{l.node.text}' ({importPath t l.node.text d.directory?})"
    none .warning

/-- The warning about the use of a type that is not defined. -/
def typeWarning (d : Document) (l : Located) : Issue :=
  .about d (some l.node) s!"Unknown type '{l.node.text}'" none .warning

/-- An import can be followed, to a document or to nowhere. -/
def Followable (t : FileTree) (s : Session) (d : Document) (l : Located) : Prop :=
  ∃ target?, importedDocument t s d l = .ok target?

/-- Whether an import leads to a document. -/
def importFound (t : FileTree) (s : Session) (d : Document) (l : Located) : Bool :=
  (importedDocument t s d l).toOption.join.isSome

lemma importFound_of_ok {t : FileTree} {s : Session} {d : Document} {l : Located}
    {target? : Option Document} (h : importedDocument t s d l = .ok target?) :
    importFound t s d l = target?.isSome := by
  rw [importFound, h]
  cases target? <;> rfl

/-- Whether a name is that of a visible type, as it stands or as a path into a definition. -/
def typeFound (types : List Definition) (name : String) : Bool :=
  (findDefinition? types name).isSome || isKnownType name types

/-- The warnings about a node. -/
def warningsAt (t : FileTree) (s : Session) (d : Document) (types : List Definition) (l : Located) :
    List Issue :=
  (if l.isImport && !importFound t s d l then [importWarning t d l] else []) ++
    if usesCustomType l && !typeFound types l.node.text then [typeWarning d l] else []

end Ksy

/-! ## Telling the warnings apart -/

/-- Whether an issue is about an import that leads nowhere. -/
def Issue.isDanglingImport (i : Issue) : Bool :=
  "Cannot resolve import".toList.isPrefixOf i.message.toList

/-- Whether an issue is about a type that is not defined. -/
def Issue.isUnknownType (i : Issue) : Bool :=
  "Unknown type".toList.isPrefixOf i.message.toList

namespace Ksy

@[simp] lemma isDanglingImport_importWarning (t : FileTree) (d : Document) (l : Located) :
    (importWarning t d l).isDanglingImport = true := by
  simp [Issue.isDanglingImport, importWarning, Issue.about, toString]

@[simp] lemma isDanglingImport_typeWarning (d : Document) (l : Located) :
    (typeWarning d l).isDanglingImport = false := by
  simp [Issue.isDanglingImport, typeWarning, Issue.about, toString, List.isPrefixOf]

@[simp] lemma isUnknownType_importWarning (t : FileTree) (d : Document) (l : Located) :
    (importWarning t d l).isUnknownType = false := by
  simp [Issue.isUnknownType, importWarning, Issue.about, toString, List.isPrefixOf]

@[simp] lemma isUnknownType_typeWarning (d : Document) (l : Located) :
    (typeWarning d l).isUnknownType = true := by
  simp [Issue.isUnknownType, typeWarning, Issue.about, toString]

variable {t : FileTree} {s₀ : Session} {kind : Session → Prop} {d : Document}

/-! ## One reference -/

/-- What checking a reference gives. -/
def warningResult (t : FileTree) (s : Session) (d : Document) :
    Reference → Except Failure (List Issue)
  | .toDocument l => (importedDocument t s d l).map fun target? =>
      if target?.isSome then [] else [importWarning t d l]
  | .toType l types => .ok (if typeFound types l.node.text then [] else [typeWarning d l])

/-- A reference can be followed. -/
def Reference.Leads (t : FileTree) (s : Session) (d : Document) : Reference → Prop
  | .toDocument l => Followable t s d l
  | .toType .. => True

/-- The warnings about a reference that can be followed. -/
def warningsOf (t : FileTree) (s : Session) (d : Document) : Reference → List Issue
  | .toDocument l => if importFound t s d l then [] else [importWarning t d l]
  | .toType l types => if typeFound types l.node.text then [] else [typeWarning d l]

lemma warningResult_of_leads (r : Reference) (h : r.Leads t s₀ d) :
    warningResult t s₀ d r = .ok (warningsOf t s₀ d r) := by
  cases r with
  | toDocument l =>
    obtain ⟨target?, htarget⟩ := h
    rw [warningResult, warningsOf, importFound_of_ok htarget, htarget]
    rfl
  | toType l types => rfl

lemma warningResult_of_not_leads (r : Reference) (h : ¬r.Leads t s₀ d) :
    ∃ e, warningResult t s₀ d r = .error e := by
  cases r with
  | toDocument l =>
    cases himported : importedDocument t s₀ d l with
    | error e => exact ⟨e, by rw [warningResult, himported]; rfl⟩
    | ok target? => exact absurd ⟨target?, himported⟩ h
  | toType l types => exact absurd trivial h

lemma referenceIssue_yields (h : s₀.Uniform t kind) (d : Document) (r : Reference) :
    (referenceIssue d r).Yields t kind (warningResult t s₀ d r) := by
  unfold referenceIssue
  cases r with
  | toDocument l =>
    have hmap : warningResult t s₀ d (.toDocument l) =
        importedDocument t s₀ d l >>= fun target? =>
          .ok (if target?.isSome then [] else [importWarning t d l]) := by
      rw [warningResult]
      cases importedDocument t s₀ d l <;> rfl
    rw [hmap]
    refine h.resolveImport_bind d l fun target? _ => ?_
    cases target? with
    | some target => exact .pure []
    | none =>
      let warning (path : String) : List Issue :=
        [.about d (some l.node) s!"Cannot resolve import '{l.node.text}' ({path})" none .warning]
      exact (h.computeImportPath l.node.text d).bind (g := fun path => .ok (warning path))
        fun path _ => .pure (warning path)
  | toType l types =>
    cases hfound : typeFound types l.node.text with
    | true =>
      rw [typeFound] at hfound
      simp only [warningResult, typeFound, Reference.text, Reference.element, hfound, if_true]
      exact .pure []
    | false =>
      rw [typeFound] at hfound
      simp only [warningResult, typeFound, Reference.text, Reference.element, hfound,
        Bool.false_eq_true, if_false]
      exact .pure _

/-! ## All references -/

/-- The references of the nodes of a description can all be followed if its imports can. -/
lemma forall_leads_iff (hksy : d.isKsy) (types : List Definition) :
    (∀ l ∈ d.walk, ∀ r ∈ referencesAt d types l, r.Leads t s₀ d) ↔
      ∀ l ∈ d.walk, l.isImport → Followable t s₀ d l := by
  refine forall₂_congr fun l _ => ?_
  simp only [referencesAt, hksy, if_true, List.mem_append]
  constructor
  · intro h himport
    exact h (.toDocument l) (.inl (by simp [himport]))
  · rintro h r (hr | hr)
    · split_ifs at hr with himport
      · obtain rfl := List.mem_singleton.mp hr
        exact h himport
      · cases hr
    · split_ifs at hr with huses
      · obtain rfl := List.mem_singleton.mp hr
        trivial
      · cases hr

lemma flatMap_warningsOf (hksy : d.isKsy) (types : List Definition) (l : Located) :
    (referencesAt d types l).flatMap (warningsOf t s₀ d) = warningsAt t s₀ d types l := by
  simp only [referencesAt, hksy, if_true, List.flatMap_append, warningsAt]
  congr 1
  · cases l.isImport <;> cases hfound : importFound t s₀ d l <;> simp [warningsOf, hfound]
  · cases usesCustomType l <;> cases hfound : typeFound types l.node.text <;>
      simp [warningsOf, hfound]

/-- When the references of a description can be checked, and what the check gives. -/
lemma validateReferences_eq_ok_iff (h : s₀.Uniform t kind) (hksy : d.isKsy)
    (hread : d.failure? = none) {issues : List Issue} :
    (s₀.run t (validateReferences d)).1 = .ok issues ↔
      ∃ types, ((∃ l ∈ d.walk, usesCustomType l) → (s₀.run t (collectTypes d)).1 = .ok types) ∧
        (∀ l ∈ d.walk, l.isImport → Followable t s₀ d l) ∧
        issues = d.walk.flatMap (warningsAt t s₀ d types) := by
  have hthrough := forReferences_yields ((h.collectTypes d).yields h.start)
    (referenceIssue_yields h d) none d.walk
  have hyields : (validateReferences d).Yields t kind
      (throughReferences d (s₀.run t (collectTypes d)).1 (warningResult t s₀ d) none d.walk) := by
    unfold validateReferences
    simp only [hksy, hread, Bool.not_true, Option.isSome_none, Bool.or_self, Bool.false_eq_true,
      if_false]
    rw [← bind_pure (throughReferences d _ _ none d.walk)]
    exact hthrough.bind fun issues _ => (h.log _).bind (g := fun _ => .ok issues) fun _ _ => .pure _
  rw [(hyields s₀ h.start).1,
    throughReferences_eq_ok_iff warningResult_of_leads warningResult_of_not_leads]
  simp only [forall_leads_iff hksy, flatMap_warningsOf hksy]

end Ksy

/-! ## The diagnostics -/

namespace Session.Uniform

variable {t : FileTree} {s₀ : Session} {kind : Session → Prop}

open Work (Determined)

lemma validateReferences (h : s₀.Uniform t kind) (d : Document) :
    (Ksy.validateReferences d).Determined t kind := by
  unfold Ksy.validateReferences
  split
  · exact .pure []
  · have hthrough := Ksy.forReferences_yields ((h.collectTypes d).yields h.start)
      (Ksy.referenceIssue_yields h d) none d.walk
    exact Determined.bind ⟨_, hthrough⟩ fun issues =>
      Determined.bind ⟨_, h.log _⟩ fun _ => .pure issues

lemma validateGrammar (h : s₀.Uniform t kind) (d : Document) :
    (Ksy.validateGrammar d).Determined t kind := by
  unfold Ksy.validateGrammar
  split
  · exact .pure []
  · split
    · refine Determined.bind ⟨_, h.yieldsGrammar⟩ fun g => ?_
      split
      · exact .pure _
      · exact .throw _
    · exact Determined.bind ⟨_, h.log _⟩ fun _ => .pure []

/-- The diagnostics of a document are the same in all sessions of the kind. -/
lemma diagnostics (h : s₀.Uniform t kind) (d : Document) :
    (Diagnostic.all d).Determined t kind := by
  unfold Diagnostic.all
  split
  · exact .pure []
  · split
    · exact .pure _
    · refine .bind (.tryCatch (h.validateGrammar d) fun failure => ?_) fun errors => ?_
      · split
        · exact Determined.bind ⟨_, h.log _⟩ fun _ => .pure []
        · exact .throw _
      · exact (h.validateReferences d).bind fun _ => .pure _

end Session.Uniform

end KsyTools
