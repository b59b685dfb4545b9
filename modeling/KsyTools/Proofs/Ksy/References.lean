/-
# Going through the references of a document

The references of a description are met node by node, and the visible types are collected before the
first node that uses one.  So something is found out about all references exactly if the types can
be collected, should there be a use of one, and if nothing fails at any reference; and what is found
out is then that of the single references, one after the other.
-/
import KsyTools.Proofs.Uniform

namespace KsyTools

namespace Located

lemma isImport_eq_false {l : Located} (h : l.node.is .scalar = false) : l.isImport = false := by
  rw [isImport, h, Bool.false_and]

lemma usesCustomType_eq_false {l : Located} (h : l.node.is .scalar = false) :
    Ksy.usesCustomType l = false := by
  rw [Ksy.usesCustomType, isTypeUse, h, Bool.false_and, Bool.false_and]

end Located

namespace Ksy

variable {β : Type} {d : Document}

/-- The references of a node, given the visible types. -/
def referencesAt (d : Document) (types : List Definition) (l : Located) : List Reference :=
  if d.isKsy then
    (if l.isImport then [.toDocument l] else []) ++
      if usesCustomType l then [.toType l types] else []
  else []

/-- The types are asked for only at the use of a type. -/
lemma referencesWith_eq (hksy : d.isKsy) (l : Located) (types : Work (List Definition)) :
    referencesWith d l types =
      if usesCustomType l then (referencesAt d · l) <$> types else pure (referencesAt d [] l) := by
  unfold referencesWith referencesAt
  cases hscalar : l.node.is .scalar with
  | false => simp [l.isImport_eq_false hscalar, l.usesCustomType_eq_false hscalar]
  | true =>
    cases husesType : usesCustomType l with
    | false => simp [hksy]
    | true =>
      simp only [hksy, Bool.not_true, Bool.false_or, Bool.false_eq_true, if_false, if_true]
      rw [← bind_pure_comp]

lemma referencesWith_pure (l : Located) (types : List Definition) :
    referencesWith d l (pure types) = pure (referencesAt d types l) := by
  by_cases hksy : d.isKsy
  · rw [referencesWith_eq hksy]
    split
    · rw [map_pure]
    next huses => simp [referencesAt, huses]
  · simp [referencesWith, referencesAt, hksy]

/-- A node that uses no type has the same references whatever the types are. -/
lemma referencesAt_congr {l : Located} (h : usesCustomType l = false)
    (types types' : List Definition) : referencesAt d types l = referencesAt d types' l := by
  simp [referencesAt, h]

/-- What going through the references of nodes gives, if `collected` is what collecting the types
gives and `each` what is found out about a reference. -/
def throughReferences (d : Document) (collected : Except Failure (List Definition))
    (each : Reference → Except Failure (List β)) :
    Option (List Definition) → List Located → Except Failure (List β)
  | _, [] => return []
  | known, l :: rest => do
    let known ←
      match known with
      | some types => pure (some types)
      | none => if usesCustomType l then some <$> collected else pure none
    let here ← (referencesAt d (known.getD []) l).mapM each
    return here.flatten ++ (← throughReferences d collected each known rest)

lemma forReferences_yields {t : FileTree} {kind : Session → Prop}
    {collected : Except Failure (List Definition)} {each : Reference → Work (List β)}
    {result : Reference → Except Failure (List β)}
    (hcollected : (collectTypes d).Yields t kind collected)
    (heach : ∀ r, (each r).Yields t kind (result r)) (known : Option (List Definition))
    (ls : List Located) :
    (forReferences d each known ls).Yields t kind
      (throughReferences d collected result known ls) := by
  induction ls generalizing known with
  | nil => exact .pure []
  | cons l rest ih =>
    have hrest (known : Option (List Definition)) : Work.Yields t kind (do
        let references ← referencesWith d l (return known.getD [])
        let here ← references.mapM each
        return here.flatten ++ (← forReferences d each known rest)) (do
        let here ← (referencesAt d (known.getD []) l).mapM result
        return here.flatten ++ (← throughReferences d collected result known rest)) := by
      rw [referencesWith_pure, pure_bind]
      exact (Work.Yields.mapM _ fun r _ => heach r).bind fun here _ =>
        (ih known).bind fun further _ => .pure (here.flatten ++ further)
    unfold forReferences throughReferences
    cases known with
    | some types => exact (Work.Yields.pure _).bind fun known _ => hrest known
    | none =>
      simp only
      split
      · exact (hcollected.map some).bind fun known _ => hrest known
      · exact (Work.Yields.pure _).bind fun known _ => hrest known

section Results

/-! ## When something is found out about all references -/

variable {collected : Except Failure (List Definition)} {each : Reference → Except Failure (List β)}
  {Leads : Reference → Prop} {value : Reference → List β}

lemma mapM_eq_ok_iff (hok : ∀ r, Leads r → each r = .ok (value r))
    (herror : ∀ r, ¬Leads r → ∃ e, each r = .error e) {rs : List Reference} {out : List (List β)} :
    rs.mapM each = .ok out ↔ (∀ r ∈ rs, Leads r) ∧ out = rs.map value := by
  have hhere (r : Reference) (a : List β) : each r = .ok a ↔ Leads r ∧ a = value r := by
    by_cases hr : Leads r
    · simp [hok r hr, hr, eq_comm]
    · obtain ⟨e, he⟩ := herror r hr
      simp [he, hr]
  induction rs generalizing out with
  | nil => simp [pure_eq_ok_iff]
  | cons r rest ih =>
    simp only [List.mapM_cons, bind_eq_ok_iff, pure_eq_ok_iff, hhere, ih, List.mem_cons,
      forall_eq_or_imp, List.map_cons]
    constructor
    · rintro ⟨_, ⟨hr, rfl⟩, _, ⟨hrest, rfl⟩, rfl⟩
      exact ⟨⟨hr, hrest⟩, rfl⟩
    · rintro ⟨⟨hr, hrest⟩, rfl⟩
      exact ⟨_, ⟨hr, rfl⟩, _, ⟨hrest, rfl⟩, rfl⟩

/-- With the types at hand only the single references count. -/
lemma throughReferences_some_eq_ok_iff (hok : ∀ r, Leads r → each r = .ok (value r))
    (herror : ∀ r, ¬Leads r → ∃ e, each r = .error e) {types : List Definition}
    {ls : List Located} {out : List β} :
    throughReferences d collected each (some types) ls = .ok out ↔
      (∀ l ∈ ls, ∀ r ∈ referencesAt d types l, Leads r) ∧
        out = ls.flatMap fun l => (referencesAt d types l).flatMap value := by
  induction ls generalizing out with
  | nil => simp [throughReferences, pure_eq_ok_iff]
  | cons l rest ih =>
    simp only [throughReferences, pure_bind, Option.getD_some, bind_eq_ok_iff, pure_eq_ok_iff, ih,
      mapM_eq_ok_iff hok herror, List.mem_cons, forall_eq_or_imp, List.flatMap_cons]
    constructor
    · rintro ⟨_, ⟨hl, rfl⟩, _, ⟨hrest, rfl⟩, rfl⟩
      exact ⟨⟨hl, hrest⟩, rfl⟩
    · rintro ⟨⟨hl, hrest⟩, rfl⟩
      exact ⟨_, ⟨hl, rfl⟩, _, ⟨hrest, rfl⟩, rfl⟩

/-- Something is found out about all references exactly if the types can be collected where one is
used, and if nothing fails at any reference. -/
lemma throughReferences_eq_ok_iff (hok : ∀ r, Leads r → each r = .ok (value r))
    (herror : ∀ r, ¬Leads r → ∃ e, each r = .error e) {ls : List Located} {out : List β} :
    throughReferences d collected each none ls = .ok out ↔
      ∃ types, ((∃ l ∈ ls, usesCustomType l) → collected = .ok types) ∧
        (∀ l ∈ ls, ∀ r ∈ referencesAt d types l, Leads r) ∧
        out = ls.flatMap fun l => (referencesAt d types l).flatMap value := by
  induction ls generalizing out with
  | nil => simp [throughReferences, pure_eq_ok_iff]
  | cons l rest ih =>
    by_cases huses : usesCustomType l
    · -- from here on the types are at hand
      have hunfold : throughReferences d collected each none (l :: rest) =
          collected >>= fun types =>
            throughReferences d collected each (some types) (l :: rest) := by
        cases collected with
        | error e =>
          rw [throughReferences]
          simp only [huses, if_true]
          rfl
        | ok types =>
          rw [throughReferences]
          simp only [huses, if_true]
          rfl
      have hexists : ∃ l' ∈ l :: rest, usesCustomType l' := ⟨l, List.mem_cons_self, huses⟩
      simp only [hunfold, bind_eq_ok_iff, throughReferences_some_eq_ok_iff hok herror, hexists,
        forall_const]
    · -- the references of the node do not depend on the types, which are for the rest to find
      have hrest (types : List Definition) :
          ((∃ l' ∈ l :: rest, usesCustomType l') → collected = .ok types) ↔
            ((∃ l' ∈ rest, usesCustomType l') → collected = .ok types) := by
        simp only [List.exists_mem_cons_iff, huses, Bool.false_eq_true, false_or]
      have hhere (types : List Definition) : referencesAt d types l = referencesAt d [] l :=
        referencesAt_congr (by simpa using huses) types []
      have hunfold : throughReferences d collected each none (l :: rest) = (do
          let here ← (referencesAt d [] l).mapM each
          return here.flatten ++ (← throughReferences d collected each none rest)) := by
        rw [throughReferences]
        simp only [huses]
        rfl
      simp only [hunfold, bind_eq_ok_iff, pure_eq_ok_iff, ih, mapM_eq_ok_iff hok herror, hrest,
        List.forall_mem_cons, List.flatMap_cons, hhere]
      constructor
      · rintro ⟨_, ⟨hl, rfl⟩, _, ⟨types, htypes, hfurther, rfl⟩, rfl⟩
        exact ⟨types, htypes, ⟨hl, hfurther⟩, rfl⟩
      · rintro ⟨types, htypes, ⟨hl, hfurther⟩, rfl⟩
        exact ⟨_, ⟨hl, rfl⟩, _, ⟨types, htypes, hfurther, rfl⟩, rfl⟩

end Results

end Ksy

end KsyTools
