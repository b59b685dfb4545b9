/-
# Data that contains itself

The data of a text is a graph of its own: its lists have items, its maps have values, and through an
alias a list or map can come again as a part of others, or of itself.  Seen as a tree such data has
no end.  It takes a node that is inside itself in the text to make it: merging mappings moves pairs
from one mapping to another, but only from mappings that are inside the other one.
-/
import KsyTools.Proofs.Document.Alignment
import KsyTools.Proofs.Yaml.Revisits

namespace KsyTools.Yaml

/-- What is constructed for the documents of a graph. -/
def Graph.constructed (g : Graph) : Except Failure Construction := do
  let (_, c) ← (Construct.documents g.roots).run ⟨g.nodes, Array.replicate g.nodes.size none, []⟩
  return c

/-- The values of a graph are read off what was constructed. -/
lemma Graph.data_eq (g : Graph) :
    g.data = g.constructed.map fun c => g.roots.map (unfoldData c.cells none []) := by
  rw [Graph.data, Graph.constructed]
  cases (Construct.documents g.roots).run ⟨g.nodes, Array.replicate g.nodes.size none, []⟩ <;> rfl

/-- The items of a list and the values of a map. -/
def Cell.entries : Cell → List NodeId
  | .list items => items
  | .map entries => entries.map Prod.snd
  | _ => []

namespace Construction

variable {c : Construction} {id child : NodeId} {active : List NodeId}

/-- The items of a list and the values of a map. -/
def entries (c : Construction) (id : NodeId) : List NodeId :=
  match c.cell? id with
  | some cell => cell.entries
  | none => []

/-- A list or map has another value as an item or a value. -/
def Encloses (c : Construction) (id child : NodeId) : Prop :=
  child ∈ c.entries id

lemma lt_size_of_encloses (h : c.Encloses id child) : id < c.cells.size := by
  by_contra outside
  have none : c.cell? id = none := by
    rw [cell?, Array.getD_eq_getD_getElem?, Array.getElem?_eq_none (Nat.le_of_not_lt outside)]
    rfl
  rw [Encloses, entries, none] at h
  exact List.not_mem_nil h

/-! ## Data without an end -/

/-- One step: a value has no end if one of its parts has none. -/
lemma isEndless_unfoldData_of_notMem (first : id ∉ active) :
    (unfoldData c.cells none active id).isEndless = true ↔
      ∃ child, c.Encloses id child ∧
        (unfoldData c.cells none (id :: active) child).isEndless = true := by
  rw [unfoldData_of_notMem first]
  unfold Encloses entries
  cases c.cell? id with
  | none => simp [Data.isEndless]
  | some cell =>
    cases cell with
    | atom a shared => simp [Data.isEndless, Cell.entries]
    | set members => simp [Data.isEndless, Cell.entries]
    | list items =>
      rw [Data.isEndless, Data.areEndless_iff]
      simp only [Cell.entries, List.mem_map, exists_exists_and_eq_and]
    | map entries =>
      rw [Data.isEndless, Data.areEntriesEndless_iff]
      simp only [Cell.entries, List.mem_map, exists_exists_and_eq_and]
    | pairs entries =>
      -- the entries of an ordered map are not looked into
      simp [Data.isEndless, Data.areEndless_iff, Cell.entries]

/-- A value has no end exactly if, on the way over items and values, one comes to an open one. -/
lemma isEndless_unfoldData (c : Construction) (active : List NodeId) (id : NodeId) :
    (unfoldData c.cells none active id).isEndless = true ↔ Revisits c.Encloses active id := by
  by_cases opened : id ∈ active
  · rw [unfoldData, dif_pos opened]
    exact iff_of_true rfl (.again opened)
  · rw [isEndless_unfoldData_of_notMem opened, revisits_iff_of_notMem opened]
    refine exists_congr fun child => and_congr_right fun step => ?_
    have smaller := freeCount_cons_lt (lt_size_of_encloses step) opened
    exact isEndless_unfoldData c (id :: active) child
  termination_by freeCount c.cells.size active

/-- A value has no end exactly if it leads to one that contains itself. -/
lemma isEndless_unfoldData_iff (c : Construction) (id : NodeId) :
    (unfoldData c.cells none [] id).isEndless = true ↔ LeadsToCycle c.Encloses id :=
  (isEndless_unfoldData c [] id).trans (revisits_nil_iff lt_size_of_encloses)

end Construction

end KsyTools.Yaml
