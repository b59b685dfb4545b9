/-
# Where key-values stand

The trees of parsed documents are regular: everything directly inside a mapping is a key-value, and
key-values stand nowhere else.  In particular no document has a key-value at its top.
-/
import KsyTools.Proofs.Document.Places

namespace KsyTools

open Yaml (Graph GraphNode NodeId freeCount freeCount_cons_lt)

namespace Node

variable {n c : Node} {k k' : NodeKind} {g : Graph} {placeAt : ℕ → Position}

/-! ## Kinds -/

lemma is_iff : n.is k ↔ n.kind = k :=
  beq_iff_eq

/-- A node has one kind only. -/
lemma not_is_of_is (h : n.is k) (hne : k ≠ k') : ¬ n.is k' := by
  rw [is_iff] at h ⊢
  rw [h]
  exact hne

/-- The only child of a key-value is its value. -/
lemma exists_value_of_is_keyValue (h : n.is .keyValue) :
    ∃ v, n.children = [v] ∧ n.value? = some v := by
  cases n with
  | keyValue range place key keyRange value => exact ⟨value, rfl, rfl⟩
  | scalar => simp [is, kind] at h
  | sequence => simp [is, kind] at h
  | mapping => simp [is, kind] at h

lemma value?_of_mem_children (h : n.is .keyValue) (hc : c ∈ n.children) : n.value? = some c := by
  obtain ⟨v, hchildren, hvalue⟩ := exists_value_of_is_keyValue h
  rw [hchildren, List.mem_singleton] at hc
  rw [hvalue, hc]

/-! ## Regular trees -/

/-- In a node and everywhere inside it, mappings hold key-values only, and other nodes hold none. -/
inductive Regular : Node → Prop
  | intro {n : Node} (kinds : ∀ c ∈ n.children, (c.is .keyValue ↔ n.is .mapping))
      (inside : ∀ c ∈ n.children, Regular c) : Regular n

lemma Regular.kinds (h : n.Regular) : ∀ c ∈ n.children, (c.is .keyValue ↔ n.is .mapping) := by
  cases h with
  | intro kinds _ => exact kinds

lemma Regular.inside (h : n.Regular) : ∀ c ∈ n.children, c.Regular := by
  cases h with
  | intro _ inside => exact inside

lemma regular_scalar (range : TextRange) (place : Position) (text : String) :
    (scalar range place text).Regular := by
  constructor <;> simp [children]

/-- A pair is regular if its value is, and is no key-value. -/
lemma regular_ofPair {key : GraphNode} (kind : ¬ n.is .keyValue) (h : n.Regular) :
    (ofPair placeAt key n).Regular := by
  refine .intro (fun c hc => ?_) fun c hc => ?_
  · obtain rfl := List.mem_singleton.mp hc
    exact iff_of_false kind (by simp [ofPair, is, Node.kind])
  · obtain rfl := List.mem_singleton.mp hc
    exact h

/-- The tree of a graph is regular, and no key-value. -/
lemma regular_ofGraph (active : List NodeId) (id : NodeId) :
    ¬ (ofGraph g placeAt active id).is .keyValue ∧ (ofGraph g placeAt active id).Regular := by
  cases node : g.get? id with
  | none =>
    rw [ofGraph_of_missing node]
    exact ⟨by simp [is, kind], regular_scalar ..⟩
  | some n =>
    by_cases again : id ∈ active
    · rw [ofGraph_of_mem node again]
      exact ⟨by simp [is, kind], regular_scalar ..⟩
    · have smaller : freeCount g.nodes.size (id :: active) < freeCount g.nodes.size active :=
        freeCount_cons_lt (Array.getElem?_eq_some_iff.1 node).1 again
      rw [ofGraph_of_notMem node again]
      cases n.content with
      | scalar text => exact ⟨by simp [is, kind], regular_scalar ..⟩
      | sequence items =>
        refine ⟨by simp [is, kind], .intro (fun c hc => ?_) fun c hc => ?_⟩
        · obtain ⟨item, -, rfl⟩ := List.mem_map.mp hc
          exact iff_of_false (regular_ofGraph (id :: active) item).1 (by simp [is, kind])
        · obtain ⟨item, -, rfl⟩ := List.mem_map.mp hc
          exact (regular_ofGraph (id :: active) item).2
      | mapping pairs =>
        refine ⟨by simp [is, kind], .intro (fun c hc => ?_) fun c hc => ?_⟩
        · obtain ⟨p, -, rfl⟩ := List.mem_map.mp hc
          exact iff_of_true (by simp [ofPair, is, kind]) (by simp [is, kind])
        · obtain ⟨p, -, rfl⟩ := List.mem_map.mp hc
          obtain ⟨kind, regular⟩ := regular_ofGraph (id :: active) p.2
          exact regular_ofPair kind regular
  termination_by freeCount g.nodes.size active

end Node

/-! ## Documents -/

namespace Document

variable {source : String} {file? : Option Path} {name? : Option String} {d : Document}

/-- What is at the top of a document is regular, and no key-value. -/
lemma regular_of_mem_roots (h : Document.parse source file? name? = .ok d) {n : Node}
    (hn : n ∈ d.roots) : ¬ n.is .keyValue ∧ n.Regular := by
  rcases roots_of_parse h with hroots | ⟨g, hroots⟩ <;> rw [hroots] at hn
  · cases hn
  · obtain ⟨id, -, rfl⟩ := List.mem_map.mp hn
    exact Node.regular_ofGraph [] id

end Document

end KsyTools
