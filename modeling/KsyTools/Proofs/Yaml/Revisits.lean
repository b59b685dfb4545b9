/-
# Coming back to an open node

A graph is unfolded by going from node to node, and the nodes on the way are open.  One comes back
to an open node exactly if the graph leads back to what was open before, or leads to a node that
is inside itself.
-/
import KsyTools.Yaml.Data.OfGraph
import Mathlib.Logic.Relation
import Mathlib.Tactic.Common

namespace KsyTools.Yaml

open Relation (ReflTransGen TransGen)

variable {R : NodeId → NodeId → Prop} {active : List NodeId} {id child : NodeId}

/-- With the nodes `active` open one comes to an open node: here, or further down. -/
inductive Revisits (R : NodeId → NodeId → Prop) : List NodeId → NodeId → Prop
  | again {active : List NodeId} {id : NodeId} : id ∈ active → Revisits R active id
  | further {active : List NodeId} {id child : NodeId} : id ∉ active → R id child →
      Revisits R (id :: active) child → Revisits R active id

/-- One gets from a node to one from which one gets back to itself. -/
def LeadsToCycle (R : NodeId → NodeId → Prop) (id : NodeId) : Prop :=
  ∃ again, ReflTransGen R id again ∧ TransGen R again again

lemma LeadsToCycle.head (step : R id child) (h : LeadsToCycle R child) : LeadsToCycle R id := by
  obtain ⟨again, reach, cycle⟩ := h
  exact ⟨again, reach.head step, cycle⟩

/-- From a node that is not open, one comes to an open node further down only. -/
lemma revisits_iff_of_notMem (first : id ∉ active) :
    Revisits R active id ↔ ∃ child, R id child ∧ Revisits R (id :: active) child := by
  constructor
  · intro h
    cases h with
    | again opened => exact absurd opened first
    | further _ step rest => exact ⟨_, step, rest⟩
  · rintro ⟨child, step, rest⟩
    exact .further first step rest

/-- What is come back to was open before, or is inside itself. -/
lemma Revisits.reach (h : Revisits R active id) :
    (∃ j ∈ active, ReflTransGen R id j) ∨ LeadsToCycle R id := by
  induction h with
  | @again active id opened => exact .inl ⟨id, opened, .refl⟩
  | @further active id child _ step _ ih =>
    rcases ih with ⟨j, opened, reach⟩ | cycle
    · rcases List.mem_cons.1 opened with rfl | opened
      · exact .inr ⟨j, .refl, .head' step reach⟩
      · exact .inl ⟨j, opened, reach.head step⟩
    · exact .inr (cycle.head step)

/-- In a finite graph what leads back to an open node, or to a cycle, comes to an open node: each
node that is opened on the way leaves fewer that are not. -/
lemma revisits_of_reach {size : ℕ} (inside : ∀ {id child}, R id child → id < size)
    (active : List NodeId) (id : NodeId)
    (h : (∃ j ∈ active, ReflTransGen R id j) ∨ LeadsToCycle R id) : Revisits R active id := by
  by_cases opened : id ∈ active
  · exact .again opened
  · obtain ⟨child, step, further⟩ : ∃ child, R id child ∧
        ((∃ j ∈ id :: active, ReflTransGen R child j) ∨ LeadsToCycle R child) := by
      rcases h with ⟨j, hj, reach⟩ | ⟨again, reach, cycle⟩
      · rcases reach.cases_head with rfl | ⟨child, step, rest⟩
        · exact absurd hj opened
        · exact ⟨child, step, .inl ⟨j, List.mem_cons_of_mem _ hj, rest⟩⟩
      · rcases reach.cases_head with rfl | ⟨child, step, rest⟩
        · obtain ⟨child, step, rest⟩ := TransGen.head'_iff.1 cycle
          exact ⟨child, step, .inl ⟨id, List.mem_cons_self, rest⟩⟩
        · exact ⟨child, step, .inr ⟨again, rest, cycle⟩⟩
    have smaller := freeCount_cons_lt (inside step) opened
    exact .further opened step (revisits_of_reach inside (id :: active) child further)
  termination_by freeCount size active

/-- With nothing open, one comes back to a node exactly if the way leads to a cycle. -/
lemma revisits_nil_iff {size : ℕ} (inside : ∀ {id child}, R id child → id < size) :
    Revisits R [] id ↔ LeadsToCycle R id := by
  refine ⟨fun h => ?_, fun h => revisits_of_reach inside [] id (.inr h)⟩
  rcases h.reach with ⟨j, opened, -⟩ | cycle
  · exact absurd opened List.not_mem_nil
  · exact cycle

end KsyTools.Yaml
