/-
# Collecting types once

Going through all nodes of a document, the visible types are collected when the first use of a type
is met, and are at hand from there on.  A single node asked for its references collects them itself.
Both ways give the same references: collecting gives the same each time, although it reads through a
cache that it changes, and where no type is used the types do not matter.
-/
import KsyTools.Proofs.Asked
import KsyTools.Proofs.Ksy.References

namespace KsyTools

open DocumentStore (Steady)
open FileTree (noFiles)

lemma Session.run_map {α β : Type} (s : Session) (t : FileTree) (f : α → β) (w : Work α) :
    s.run t (f <$> w) = (f <$> (s.run t w).1, (s.run t w).2) := by
  rw [← bind_pure_comp, run_bind]
  rcases s.run t w with ⟨_ | _, _⟩ <;> rfl

namespace Ksy

variable {t : FileTree} {s : Session} {d : Document} {types : List Definition} {ls : List Located}

/-! ## Going through the nodes -/

/-- With the types at hand, nothing has to be found out. -/
lemma forReferences_some (types : List Definition) (ls : List Located) :
    forReferences d (fun r => return [r]) (some types) ls =
      pure (ls.flatMap (referencesAt d types)) := by
  induction ls with
  | nil => rfl
  | cons l rest ih =>
    rw [forReferences]
    simp [referencesWith_pure, ih, ← List.flatMap_def]

/-- The types are collected once, if there is a use of one, and not at all otherwise. -/
lemma forReferences_none (ls : List Located) :
    forReferences d (fun r => return [r]) none ls =
      (fun types => ls.flatMap (referencesAt d types)) <$>
        if ls.any usesCustomType then collectTypes d else pure [] := by
  induction ls with
  | nil => simp [forReferences]
  | cons l rest ih =>
    rw [forReferences]
    cases huses : usesCustomType l with
    | true => simp [referencesWith_pure, forReferences_some, huses, ← List.flatMap_def]
    | false =>
      have hhere (types : List Definition) : referencesAt d types l = referencesAt d [] l :=
        referencesAt_congr huses types []
      simp [referencesWith_pure, ih, huses, hhere, ← List.flatMap_def]

/-! ## Asking the nodes -/

/-- The references of a node, if `collected` is what collecting the types gives. -/
def referencesFrom (d : Document) (collected : Except Failure (List Definition)) (l : Located) :
    Except Failure (List Reference) :=
  if d.isKsy ∧ usesCustomType l then (referencesAt d · l) <$> collected
  else .ok (referencesAt d [] l)

lemma nodeReferences_eq (l : Located) : nodeReferences d l =
    if d.isKsy ∧ usesCustomType l then (referencesAt d · l) <$> collectTypes d
    else pure (referencesAt d [] l) := by
  rw [nodeReferences]
  by_cases hksy : d.isKsy
  · simp [referencesWith_eq hksy, hksy]
  · simp [referencesWith, referencesAt, hksy]

lemma run_nodeReferences (s : Session) (t : FileTree) (d : Document) (l : Located) :
    (s.run t (nodeReferences d l)).1 = referencesFrom d (s.run t (collectTypes d)).1 l := by
  rw [nodeReferences_eq, referencesFrom]
  split
  · rw [Session.run_map]
  · rfl

lemma nodeReferences_yields {kind : Session → Prop} {collected : Except Failure (List Definition)}
    (h : (collectTypes d).Yields t kind collected) (l : Located) :
    (nodeReferences d l).Yields t kind (referencesFrom d collected l) := by
  rw [nodeReferences_eq, referencesFrom]
  split
  · exact h.map _
  · exact .pure _

/-- A node has the references that the types give, whether they are needed or not. -/
lemma referencesFrom_ok (types : List Definition) (l : Located) :
    referencesFrom d (.ok types) l = .ok (referencesAt d types l) := by
  rw [referencesFrom]
  split
  · rfl
  next hneeded =>
    by_cases hksy : d.isKsy
    · have huses : usesCustomType l = false := by simpa [hksy] using hneeded
      rw [referencesAt_congr huses]
    · simp [referencesAt, hksy]

/-- Asked one after the other, the nodes have the references that one gets by collecting the types
once. -/
lemma flatten_mapM_referencesFrom {collected : Except Failure (List Definition)}
    (hother : ¬ d.isKsy → collected = .ok []) (ls : List Located) :
    List.flatten <$> ls.mapM (referencesFrom d collected) =
      (fun types => ls.flatMap (referencesAt d types)) <$>
        if ls.any usesCustomType then collected else pure [] := by
  cases collected with
  | ok types =>
    have hmap : ls.mapM (referencesFrom d (.ok types)) =
        (pure (ls.map (referencesAt d types)) : Except Failure _) := by
      rw [funext (referencesFrom_ok types)]
      exact List.mapM_pure
    rw [hmap, map_pure, ← List.flatMap_def]
    split
    · rfl
    next hnone =>
      simp only [Bool.not_eq_true, List.any_eq_false] at hnone
      have hcongr : ∀ l ∈ ls, referencesAt d types l = referencesAt d [] l :=
        fun l hl => referencesAt_congr (by simpa using hnone l hl) types []
      rw [map_pure, List.flatMap_congr hcongr]
  | error e =>
    have hksy : d.isKsy := by
      by_contra hksy
      cases hother hksy
    induction ls with
    | nil => rfl
    | cons l rest ih =>
      cases huses : usesCustomType l with
      | true =>
        have hhere : referencesFrom d (.error e) l = .error e := if_pos ⟨hksy, huses⟩
        rw [List.mapM_cons, hhere, List.any_cons, huses, Bool.true_or]
        rfl
      | false =>
        have hhere : referencesFrom d (.error e) l = pure (referencesAt d [] l) :=
          if_neg (by simp [huses])
        have hrest : List.flatten <$> (l :: rest).mapM (referencesFrom d (.error e)) =
            (referencesAt d [] l ++ ·) <$>
              (List.flatten <$> rest.mapM (referencesFrom d (.error e))) := by
          rw [List.mapM_cons, hhere]
          simp
        rw [hrest, ih, List.any_cons, huses, Bool.false_or]
        split <;> rfl

/-! ## Both ways together -/

/-- Going through all nodes of a document gives the references of the single nodes, one node after
the other, and fails if and as the first of them fails: the nodes are asked in the same session, or
one after the other in sessions that the questions before have changed. -/
theorem references_eq_nodeReferences (s : Session) (t : FileTree) (d : Document) :
    (s.run t (references d)).1 =
        List.flatten <$> d.walk.mapM (fun l => (s.run t (nodeReferences d l)).1) ∧
      (∀ ls, ls <+: d.walk → (s.run t (forReferences d (fun r => return [r]) none ls)).1 =
        List.flatten <$> ls.mapM (fun l => (s.run t (nodeReferences d l)).1)) ∧
      (Steady t s.store → ∀ s', s.Asked t s' →
        (s'.run t (references d)).1 = (s.run t (references d)).1 ∧
          (s'.run t (List.flatten <$> d.walk.mapM (nodeReferences d))).1 =
            (s.run t (references d)).1) := by
  have hother (hksy : ¬ d.isKsy) : (s.run t (collectTypes d)).1 = .ok [] := by
    rw [collectTypes, if_neg hksy]
    rfl
  have hnodes (ls : List Located) :
      (s.run t (forReferences d (fun r => return [r]) none ls)).1 =
        List.flatten <$> ls.mapM (fun l => (s.run t (nodeReferences d l)).1) := by
    rw [funext (run_nodeReferences s t d), flatten_mapM_referencesFrom hother,
      forReferences_none, Session.run_map]
    split <;> rfl
  rw [references]
  refine ⟨hnodes d.walk, fun ls _ => hnodes ls, fun hs s' hs' => ?_⟩
  have h := Session.Asked.uniform hs
  have hcollected := (h.collectTypes d).yields h.start
  have hshared := forReferences_yields hcollected (fun r => Work.Yields.pure [r]) none d.walk
  have hsingle := (Work.Yields.mapM d.walk fun l _ => nodeReferences_yields hcollected l).map
    List.flatten
  refine ⟨?_, ?_⟩
  · rw [(hshared s' hs').1, (hshared s h.start).1]
  · rw [(hsingle s' hs').1, hnodes, funext (run_nodeReferences s t d)]

/-- A description that defines a type and uses it twice. -/
def twiceText : Document where
  source := "types:\n  foo: \x7b\x7d\nseq:\n  - type: foo\n  - type: foo\n"
  file? := none
  name := "a.ksy"
  roots := [.mapping default default
    [.keyValue default default typesKey default
        (.mapping default default
          [.keyValue default default "foo" default (.mapping default default [])]),
      .keyValue default default "seq" default
        (.sequence default default
          [.mapping default default
            [.keyValue default default typeKey default (.scalar default default "foo")],
          .mapping default default
            [.keyValue default default typeKey default (.scalar default default "foo")]])]]
  data := []
  failure? := none

/-- Both uses have the definition, which is collected once or twice. -/
theorem references_eq_nodeReferences_twice :
    Steady noFiles (Session.start true 8 none).store ∧
      ((Session.start true 8 none).run noFiles
        (List.flatten <$> twiceText.walk.mapM (nodeReferences twiceText))).1.map
          (List.map fun r => (r.text, match r with
            | .toDocument _ => []
            | .toType _ types => types.map Definition.key)) =
        .ok [("foo", ["foo"]), ("foo", ["foo"])] := by
  have hsteady : Steady noFiles (Session.start true 8 none).store :=
    DocumentStore.Truthful.steady ⟨fun _ => by decide, fun _ he => absurd he List.not_mem_nil⟩
  obtain ⟨-, -, hlater⟩ :=
    references_eq_nodeReferences (Session.start true 8 none) noFiles twiceText
  have hcollected : ((Session.start true 8 none).run noFiles (collectTypes twiceText)).1 =
      .ok (ownDefinitions twiceText) := by
    rfl
  have huses : twiceText.walk.any usesCustomType = true := by
    decide +kernel
  refine ⟨hsteady, ?_⟩
  rw [(hlater hsteady _ (.refl noFiles _)).2, references, forReferences_none, Session.run_map,
    if_pos huses, hcollected]
  rfl

end Ksy

end KsyTools
