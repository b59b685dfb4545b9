/-
# Trees unfold graphs

The tree of a node of a graph has a node for every way from there over items and values: each time a
shared node is come to, it stands in the tree again.  The one exception is a node inside itself,
which is cut off where it comes again: an empty scalar stands for it there, with its range, and
nothing below it.  So every node that is not cut off is another one than those around it, and
nothing is cut off unless the graph has a cycle to come to.
-/
import KsyTools.Proofs.Document.Alignment
import KsyTools.Proofs.Yaml.Revisits

namespace KsyTools

open Yaml (Graph GraphNode NodeId Content Revisits LeadsToCycle freeCount freeCount_cons_lt
  revisits_nil_iff)

namespace Yaml

/-- The items of a sequence and the values of a mapping. -/
def Content.entries : Content → List NodeId
  | .scalar _ => []
  | .sequence items => items
  | .mapping pairs => pairs.map Prod.snd

namespace Graph

variable {g : Graph} {id child : NodeId}

/-- The items or values of a node. -/
def entries (g : Graph) (id : NodeId) : List NodeId :=
  match g.get? id with
  | some n => n.content.entries
  | none => []

/-- A node has another one as an item or a value. -/
def Encloses (g : Graph) (id child : NodeId) : Prop :=
  child ∈ g.entries id

lemma entries_of_get? {n : GraphNode} (node : g.get? id = some n) :
    g.entries id = n.content.entries := by
  rw [entries, node]

lemma entries_of_missing (missing : g.get? id = none) : g.entries id = [] := by
  rw [entries, missing]

lemma lt_size_of_encloses (h : g.Encloses id child) : id < g.nodes.size := by
  by_contra outside
  have missing : g.get? id = none := Array.getElem?_eq_none (Nat.le_of_not_lt outside)
  rw [Encloses, entries_of_missing missing] at h
  exact List.not_mem_nil h

end Graph

end Yaml

/-! ## Ways in graphs and in trees -/

/-- A node of a graph at the end of a way, and the nodes on the way, nearest first. -/
structure Occurrence where
  node : NodeId
  around : List NodeId

namespace Occurrence

/-- The occurrence that a way of indices leads to. -/
def at? (g : Graph) (o : Occurrence) : List ℕ → Option Occurrence
  | [] => some o
  | i :: way =>
    match (g.entries o.node)[i]? with
    | some child => at? g ⟨child, o.node :: o.around⟩ way
    | none => none

/-- The node is one of those around it. -/
def IsAgain (o : Occurrence) : Prop :=
  o.node ∈ o.around

lemma at?_cons {g : Graph} {o : Occurrence} {i : ℕ} {child : NodeId}
    (h : (g.entries o.node)[i]? = some child) (way : List ℕ) :
    o.at? g (i :: way) = at? g ⟨child, o.node :: o.around⟩ way := by
  rw [at?]
  simp only [h]

end Occurrence

namespace Node

/-- The items of a sequence and the values of a mapping. -/
def entries : Node → List Node
  | .sequence _ _ items => items
  | .mapping _ _ pairs => pairs.filterMap value?
  | _ => []

/-- The node that a way of indices leads to. -/
def at? (n : Node) : List ℕ → Option Node
  | [] => some n
  | i :: way =>
    match n.entries[i]? with
    | some entry => entry.at? way
    | none => none

lemma at?_cons {tree entry : Node} {i : ℕ} (h : tree.entries[i]? = some entry) (way : List ℕ) :
    tree.at? (i :: way) = entry.at? way := by
  rw [at?]
  simp only [h]

/-- What stands in a tree for an occurrence of a node: the node with its text, its items, or its
keys and values; for a node inside itself an empty scalar.  What is below is left open. -/
inductive StandsFor (g : Graph) (placeAt : ℕ → Position) (o : Occurrence) : Node → Prop
  | again {n : GraphNode} (node : g.get? o.node = some n) (again : o.IsAgain) :
      StandsFor g placeAt o (.scalar (rangeOf n) (placeAt n.start) "")
  | scalar {n : GraphNode} {text : String} (node : g.get? o.node = some n) (first : ¬ o.IsAgain)
      (content : n.content = .scalar text) :
      StandsFor g placeAt o (.scalar (rangeOf n) (placeAt n.start) text)
  | sequence {n : GraphNode} {ids : List NodeId} (items : List Node) (node : g.get? o.node = some n)
      (first : ¬ o.IsAgain) (content : n.content = .sequence ids) :
      StandsFor g placeAt o (.sequence (rangeOf n) (placeAt n.start) items)
  | mapping {n : GraphNode} {ids : List (NodeId × NodeId)} {pairs : List Node}
      (node : g.get? o.node = some n) (first : ¬ o.IsAgain) (content : n.content = .mapping ids)
      (keys : List.Forall₂ (fun p pair =>
        ∃ value, pair = ofPair placeAt (g.nodes.getD p.1 default) value) ids pairs) :
      StandsFor g placeAt o (.mapping (rangeOf n) (placeAt n.start) pairs)
  | missing (node : g.get? o.node = none) : StandsFor g placeAt o (.scalar ⟨0, 0⟩ ⟨0, 0⟩ "")

/-- A tree unfolds a graph from an occurrence on: its nodes are at the ways that do not go on below
a node inside itself, and each of them stands for the occurrence at its way. -/
structure Unfolds (g : Graph) (placeAt : ℕ → Position) (start : Occurrence) (tree : Node) :
    Prop where
  occurs : ∀ way n, tree.at? way = some n → ∃ o, start.at? g way = some o ∧ o.around.Nodup
  stands : ∀ way o, start.at? g way = some o → o.around.Nodup →
    ∃ n, tree.at? way = some n ∧ n.StandsFor g placeAt o

variable {g : Graph} {placeAt : ℕ → Position} {id : NodeId} {active : List NodeId} {n : GraphNode}
  {tree : Node}

/-! ## One step -/

/-- The nodes around an occurrence are still around all those below it. -/
lemma suffix_around {way : List ℕ} : ∀ {start o : Occurrence}, start.at? g way = some o →
    start.around <:+ o.around := by
  induction way with
  | nil =>
    rintro start o ⟨⟩
    exact List.suffix_refl _
  | cons i way ih =>
    intro start o h
    rw [Occurrence.at?] at h
    split at h
    · exact (List.suffix_cons _ _).trans (ih h)
    · cases h

lemma standsFor_of_missing (missing : g.get? id = none) :
    tree.StandsFor g placeAt ⟨id, active⟩ ↔ tree = .scalar ⟨0, 0⟩ ⟨0, 0⟩ "" := by
  constructor
  · intro stands
    cases stands with
    | again node _ => rw [missing] at node; cases node
    | scalar node _ _ => rw [missing] at node; cases node
    | sequence _ node _ _ => rw [missing] at node; cases node
    | mapping node _ _ _ => rw [missing] at node; cases node
    | missing _ => rfl
  · rintro rfl
    exact .missing missing

lemma standsFor_of_again (node : g.get? id = some n) (again : id ∈ active) :
    tree.StandsFor g placeAt ⟨id, active⟩ ↔ tree = .scalar (rangeOf n) (placeAt n.start) "" := by
  constructor
  · intro stands
    cases stands with
    | again node' _ => rw [node] at node'; cases node'; rfl
    | scalar _ first _ => exact absurd again first
    | sequence _ _ first _ => exact absurd again first
    | mapping _ first _ _ => exact absurd again first
    | missing node' => rw [node] at node'; cases node'
  · rintro rfl
    exact .again node again

lemma standsFor_of_first (node : g.get? id = some n) (first : id ∉ active) :
    tree.StandsFor g placeAt ⟨id, active⟩ ↔
      match n.content with
      | .scalar text => tree = .scalar (rangeOf n) (placeAt n.start) text
      | .sequence _ => ∃ items, tree = .sequence (rangeOf n) (placeAt n.start) items
      | .mapping ids => ∃ pairs, tree = .mapping (rangeOf n) (placeAt n.start) pairs ∧
          List.Forall₂ (fun p pair =>
            ∃ value, pair = ofPair placeAt (g.nodes.getD p.1 default) value) ids pairs := by
  constructor
  · intro stands
    cases stands with
    | again _ again => exact absurd again first
    | scalar node' _ content => rw [node] at node'; cases node'; rw [content]
    | sequence items node' _ content =>
      rw [node] at node'
      cases node'
      rw [content]
      exact ⟨_, rfl⟩
    | mapping node' _ content keys =>
      rw [node] at node'
      cases node'
      rw [content]
      exact ⟨_, rfl, keys⟩
    | missing node' => rw [node] at node'; cases node'
  · intro h
    cases content : n.content with
    | scalar text =>
      rw [content] at h
      rw [h]
      exact .scalar node first content
    | sequence ids =>
      rw [content] at h
      obtain ⟨items, rfl⟩ := h
      exact .sequence items node first content
    | mapping ids =>
      rw [content] at h
      obtain ⟨pairs, rfl, keys⟩ := h
      exact .mapping node first content keys

lemma StandsFor.entries_of_again (h : tree.StandsFor g placeAt ⟨id, active⟩) (again : id ∈ active) :
    tree.entries = [] := by
  cases node : g.get? id with
  | none =>
    rw [(standsFor_of_missing node).1 h]
    rfl
  | some n =>
    rw [(standsFor_of_again node again).1 h]
    rfl

/-- The entries of a tree that unfolds a graph unfold it from the entries of its first node on. -/
lemma Unfolds.entry (h : tree.Unfolds g placeAt ⟨id, active⟩) {i : ℕ} {child : NodeId}
    {entry : Node}
    (hchild : (g.entries id)[i]? = some child) (hentry : tree.entries[i]? = some entry) :
    entry.Unfolds g placeAt ⟨child, id :: active⟩ := by
  have below := Occurrence.at?_cons (o := ⟨id, active⟩) hchild
  refine ⟨fun way n hn => ?_, fun way o ho => ?_⟩
  · rw [← below]
    exact h.occurs (i :: way) n ((at?_cons hentry way).trans hn)
  · rw [← at?_cons hentry]
    exact h.stands (i :: way) o ((below way).trans ho)

/-- A tree unfolds a graph if its root stands for the first node, and, unless this is inside itself,
its entries unfold the graph from the entries of that node on. -/
lemma unfolds_iff (distinct : active.Nodup) : tree.Unfolds g placeAt ⟨id, active⟩ ↔
    tree.StandsFor g placeAt ⟨id, active⟩ ∧ (id ∉ active → ∀ i : ℕ,
      Option.Rel (fun (child : NodeId) (entry : Node) =>
        entry.Unfolds g placeAt ⟨child, id :: active⟩) (g.entries id)[i]? tree.entries[i]?) := by
  constructor
  · intro h
    obtain ⟨n, hn, stands⟩ := h.stands [] ⟨id, active⟩ rfl distinct
    obtain rfl : tree = n := Option.some.inj hn
    refine ⟨stands, fun first i => ?_⟩
    cases hchild : (g.entries id)[i]? with
    | none =>
      cases hentry : tree.entries[i]? with
      | none => exact .none
      | some entry =>
        -- there is no occurrence for the entry
        obtain ⟨o, ho, -⟩ := h.occurs [i] entry (at?_cons hentry [])
        simp [Occurrence.at?, hchild] at ho
    | some child =>
      obtain ⟨n, hn, -⟩ := h.stands [i] ⟨child, id :: active⟩ (Occurrence.at?_cons hchild [])
        (List.nodup_cons.2 ⟨first, distinct⟩)
      cases hentry : tree.entries[i]? with
      | none => simp [at?, hentry] at hn
      | some entry => exact .some (h.entry hchild hentry)
  · rintro ⟨stands, entries⟩
    constructor
    · intro way n hn
      cases way with
      | nil => exact ⟨⟨id, active⟩, rfl, distinct⟩
      | cons i way =>
        cases hentry : tree.entries[i]? with
        | none => simp [at?, hentry] at hn
        | some entry =>
          have first : id ∉ active := fun again => by
            rw [stands.entries_of_again again] at hentry
            cases hentry
          have rel := entries first i
          rw [hentry] at rel
          generalize hchild : (g.entries id)[i]? = child? at rel
          cases rel with
          | some unfolds =>
            rw [at?_cons hentry] at hn
            rw [Occurrence.at?_cons hchild]
            exact unfolds.occurs way n hn
    · intro way o ho distinct'
      cases way with
      | nil =>
        cases ho
        exact ⟨tree, rfl, stands⟩
      | cons i way =>
        cases hchild : (g.entries id)[i]? with
        | none => simp [Occurrence.at?, hchild] at ho
        | some child =>
          rw [Occurrence.at?_cons hchild] at ho
          have first : id ∉ active :=
            (List.nodup_cons.1 (distinct'.sublist (suffix_around ho).sublist)).1
          have rel := entries first i
          rw [hchild] at rel
          generalize hentry : tree.entries[i]? = entry? at rel
          cases rel with
          | some unfolds =>
            rw [at?_cons hentry]
            exact unfolds.stands way o ho distinct'

/-! ## The tree of a node -/

/-- A list that agrees at every place with the values of a function on another list. -/
lemma rel_getElem?_iff {α β : Type} {f : α → β} {as : List α} {bs : List β} :
    (∀ i : ℕ, Option.Rel (fun a b => b = f a) as[i]? bs[i]?) ↔ bs = as.map f := by
  constructor
  · intro h
    refine List.ext_getElem? fun i => ?_
    have rel := h i
    rw [List.getElem?_map]
    generalize as[i]? = a? at rel ⊢
    generalize bs[i]? = b? at rel ⊢
    cases rel with
    | none => rfl
    | some same => exact congrArg some same
  · rintro rfl i
    rw [List.getElem?_map]
    cases as[i]? with
    | none => exact .none
    | some a => exact .some rfl

lemma value?_ofPair (key : GraphNode) (value : Node) :
    (ofPair placeAt key value).value? = some value :=
  rfl

/-- Pairs are known by their keys and their values. -/
lemma pairs_eq {key : NodeId × NodeId → GraphNode} {f : NodeId → Node}
    {ids : List (NodeId × NodeId)} {pairs : List Node}
    (keys : List.Forall₂ (fun p pair => ∃ value, pair = ofPair placeAt (key p) value) ids pairs)
    (values : pairs.filterMap value? = (ids.map Prod.snd).map f) :
    pairs = ids.map fun p => ofPair placeAt (key p) (f p.2) := by
  induction keys with
  | nil => rfl
  | cons pair _ ih =>
    obtain ⟨value, rfl⟩ := pair
    rw [List.filterMap_cons_some (value?_ofPair _ value)] at values
    obtain ⟨rfl, rest⟩ := List.cons.inj values
    rw [List.map_cons, ← ih rest]

lemma filterMap_value?_pairs {key : NodeId × NodeId → GraphNode} {f : NodeId → Node}
    (ids : List (NodeId × NodeId)) :
    (ids.map fun p => ofPair placeAt (key p) (f p.2)).filterMap value? =
      (ids.map Prod.snd).map f := by
  induction ids with
  | nil => rfl
  | cons p rest ih =>
    rw [List.map_cons, List.filterMap_cons_some (value?_ofPair _ (f p.2)), ih]
    rfl

lemma ofGraph_of_missing (missing : g.get? id = none) :
    ofGraph g placeAt active id = .scalar ⟨0, 0⟩ ⟨0, 0⟩ "" := by
  have outside : ¬ id < g.nodes.size := Nat.not_lt.2 (Array.getElem?_eq_none_iff.1 missing)
  rw [ofGraph, dif_neg outside]

/-- A node inside itself. -/
lemma ofGraph_of_mem (node : g.get? id = some n) (again : id ∈ active) :
    ofGraph g placeAt active id = .scalar (rangeOf n) (placeAt n.start) "" := by
  obtain ⟨inside, rfl⟩ := Array.getElem?_eq_some_iff.1 node
  rw [ofGraph, dif_pos inside]
  exact dif_pos again

/-- The tree of a node is the only one that unfolds the graph from there. -/
lemma unfolds_iff_eq_ofGraph (active : List NodeId) (id : NodeId) (distinct : active.Nodup)
    (tree : Node) : tree.Unfolds g placeAt ⟨id, active⟩ ↔ tree = ofGraph g placeAt active id := by
  rw [unfolds_iff distinct]
  cases node : g.get? id with
  | none =>
    rw [standsFor_of_missing node, ofGraph_of_missing node]
    refine and_iff_left_of_imp ?_
    rintro rfl - i
    rw [Yaml.Graph.entries_of_missing node]
    exact .none
  | some n =>
    by_cases again : id ∈ active
    · rw [standsFor_of_again node again, ofGraph_of_mem node again]
      exact and_iff_left_of_imp fun _ first => absurd again first
    · have smaller : freeCount g.nodes.size (id :: active) < freeCount g.nodes.size active :=
        freeCount_cons_lt (Array.getElem?_eq_some_iff.1 node).1 again
      have distinct' : (id :: active).Nodup := List.nodup_cons.2 ⟨again, distinct⟩
      -- below, the entries are the only trees that unfold the graph from there
      have entries : (id ∉ active → ∀ i : ℕ, Option.Rel (fun (child : NodeId) (entry : Node) =>
            entry.Unfolds g placeAt ⟨child, id :: active⟩) (g.entries id)[i]? tree.entries[i]?) ↔
          tree.entries = n.content.entries.map (ofGraph g placeAt (id :: active)) := by
        rw [← rel_getElem?_iff, Yaml.Graph.entries_of_get? node]
        simp only [unfolds_iff_eq_ofGraph (id :: active) _ distinct']
        exact ⟨fun h => h again, fun h _ => h⟩
      rw [entries, standsFor_of_first node again, ofGraph_of_notMem node again]
      cases n.content with
      | scalar text =>
        refine and_iff_left_of_imp ?_
        rintro rfl
        rfl
      | sequence ids =>
        constructor
        · rintro ⟨⟨items, rfl⟩, same⟩
          exact congrArg (Node.sequence _ _) same
        · rintro rfl
          exact ⟨⟨_, rfl⟩, rfl⟩
      | mapping ids =>
        constructor
        · rintro ⟨⟨pairs, rfl, keys⟩, same⟩
          exact congrArg (Node.mapping _ _) (pairs_eq keys same)
        · rintro rfl
          refine ⟨⟨_, rfl, ?_⟩, filterMap_value?_pairs ids⟩
          rw [List.forall₂_map_right_iff]
          exact List.forall₂_same.2 fun p _ => ⟨_, rfl⟩
  termination_by freeCount g.nodes.size active

/-! ## What is cut off -/

lemma revisits_of_at? {way : List ℕ} : ∀ {start o : Occurrence}, start.at? g way = some o →
    o.IsAgain → Revisits g.Encloses start.around start.node := by
  induction way with
  | nil =>
    rintro start o ⟨⟩ again
    exact .again again
  | cons i way ih =>
    intro start o h again
    rw [Occurrence.at?] at h
    split at h
    · next child hchild =>
      by_cases opened : start.node ∈ start.around
      · exact .again opened
      · exact .further opened (List.mem_of_getElem? hchild) (ih h again)
    · cases h

/-- Coming back to an open node is going a way that ends with the first node inside itself. -/
lemma exists_again_of_revisits (h : Revisits g.Encloses active id) (distinct : active.Nodup) :
    ∃ way o, (⟨id, active⟩ : Occurrence).at? g way = some o ∧ o.around.Nodup ∧ o.IsAgain := by
  induction h with
  | @again active id opened => exact ⟨[], ⟨id, active⟩, rfl, distinct, opened⟩
  | @further active id child first step _ ih =>
    obtain ⟨way, o, ho, distinct', again⟩ := ih (List.nodup_cons.2 ⟨first, distinct⟩)
    obtain ⟨i, hchild⟩ := List.mem_iff_getElem?.1 step
    refine ⟨i :: way, o, ?_, distinct', again⟩
    rw [Occurrence.at?_cons hchild, ho]

end Node

/-- The tree of a node of a graph is the only one that unfolds the graph from there.  It is cut off
somewhere exactly if one gets from the node to a node that is inside itself, over items and values.
Every mapping and every sequence in it stands for another node of the graph than those around it. -/
theorem Node.ofGraph_unfolds (g : Graph) (placeAt : ℕ → Position) (root : NodeId) :
    (∀ tree : Node, tree.Unfolds g placeAt ⟨root, []⟩ ↔ tree = ofGraph g placeAt [] root) ∧
      ((∃ way o, (⟨root, []⟩ : Occurrence).at? g way = some o ∧ o.around.Nodup ∧ o.IsAgain) ↔
        LeadsToCycle g.Encloses root) ∧
      ∀ way n, (ofGraph g placeAt [] root).at? way = some n → ¬ n.is .scalar →
        ∃ o, (⟨root, []⟩ : Occurrence).at? g way = some o ∧ (o.node :: o.around).Nodup := by
  refine ⟨unfolds_iff_eq_ofGraph [] root List.nodup_nil, ?_, fun way n hn noScalar => ?_⟩
  · rw [← revisits_nil_iff Yaml.Graph.lt_size_of_encloses]
    constructor
    · rintro ⟨way, o, ho, -, again⟩
      exact revisits_of_at? ho again
    · exact fun h => exists_again_of_revisits h List.nodup_nil
  · have unfolds := (unfolds_iff_eq_ofGraph [] root List.nodup_nil
      (ofGraph g placeAt [] root)).2 rfl
    obtain ⟨⟨id, around⟩, ho, distinct⟩ := unfolds.occurs way n hn
    obtain ⟨n', hn', stands⟩ := unfolds.stands way _ ho distinct
    obtain rfl : n = n' := Option.some.inj (hn.symm.trans hn')
    -- what stands for a node inside itself is a scalar
    have first : id ∉ around := by
      intro again
      cases node : g.get? id with
      | none => exact noScalar (by rw [(standsFor_of_missing node).1 stands]; rfl)
      | some m => exact noScalar (by rw [(standsFor_of_again node again).1 stands]; rfl)
    exact ⟨_, ho, List.nodup_cons.2 ⟨first, distinct⟩⟩

end KsyTools
