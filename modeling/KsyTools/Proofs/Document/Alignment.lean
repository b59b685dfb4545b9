/-
# Nodes and values go together

The tree of a document and its values are made from one graph in two separate ways.  Where the keys
of mappings are different texts and nothing contains itself, the two agree: a path that exists in
the value leads through the graph to one node, the value at the path is the one that was
constructed for this node, and the same path leads through the tree to what was built from it.
-/
import KsyTools.Ksy.Validation
import KsyTools.Proofs.Schema.FindingPaths
import KsyTools.Proofs.Session
import KsyTools.Proofs.Yaml.Construction
import Mathlib.Order.WellFoundedSet
import Mathlib.Tactic.FinCases
import Mathlib.Tactic.IntervalCases

namespace KsyTools

open Yaml (Graph GraphNode NodeId Cell Construction Data unfoldData)

namespace Yaml.Graph

variable {g : Graph} {id child : NodeId}

/-! ## Paths in graphs -/

/-- A node directly holds another one. -/
inductive Holds (g : Graph) : NodeId → NodeId → Prop
  | item {id child : NodeId} {n : GraphNode} {items : List NodeId} (node : g.get? id = some n)
      (content : n.content = .sequence items) (present : child ∈ items) : Holds g id child
  | key {id : NodeId} {n : GraphNode} {pairs : List (NodeId × NodeId)} {p : NodeId × NodeId}
      (node : g.get? id = some n) (content : n.content = .mapping pairs) (present : p ∈ pairs) :
      Holds g id p.1
  | value {id : NodeId} {n : GraphNode} {pairs : List (NodeId × NodeId)} {p : NodeId × NodeId}
      (node : g.get? id = some n) (content : n.content = .mapping pairs) (present : p ∈ pairs) :
      Holds g id p.2

/-- No node is inside itself. -/
def Acyclic (g : Graph) : Prop :=
  ∀ id, ¬ Relation.TransGen g.Holds id id

/-- A path leads from a node to another one, over keys and indices. -/
inductive LeadsTo (g : Graph) : NodeId → List PathToken → NodeId → Prop
  | here (id : NodeId) : LeadsTo g id [] id
  | value {id target : NodeId} {n : GraphNode} {pairs : List (NodeId × NodeId)}
      {p : NodeId × NodeId} {name : String} {path : List PathToken}
      (node : g.get? id = some n) (content : n.content = .mapping pairs) (present : p ∈ pairs)
      (key : g.keyText? p.1 = some name) (rest : LeadsTo g p.2 path target) :
      LeadsTo g id (.ofKey name :: path) target
  | item {id child target : NodeId} {n : GraphNode} {items : List NodeId} {i : ℕ}
      {path : List PathToken} (node : g.get? id = some n) (content : n.content = .sequence items)
      (present : items[i]? = some child) (rest : LeadsTo g child path target) :
      LeadsTo g id (.ofIndex i :: path) target

/-- A value was made from a node: it is what was constructed for the node, or an entry of an ordered
map, which is made from a mapping with one pair. -/
inductive Produces (g : Graph) : NodeId → Value → Prop
  | value {id : NodeId} {d : Data} {x : Value} (made : g.valueOf id = .ok d)
      (seen : Value.ofData d = .ok x) : Produces g id x
  | entry {id key value : NodeId} {n : GraphNode} {k v : Data} (node : g.get? id = some n)
      (content : n.content = .mapping [(key, value)]) (madeKey : g.valueOf key = .ok k)
      (madeValue : g.valueOf value = .ok v) : Produces g id (.other (.tuple k v))

/-! ## Induction over graphs without cycles -/

lemma lt_size_of_holds (h : g.Holds id child) : id < g.nodes.size := by
  have inside {n : GraphNode} (node : g.get? id = some n) : id < g.nodes.size := by
    have node : g.nodes[id]? = some n := node
    exact (Array.getElem?_eq_some_iff.1 node).1
  cases h with
  | item node _ _ => exact inside node
  | key node _ _ => exact inside node
  | value node _ _ => exact inside node

/-- What holds of a node whenever it holds of all nodes inside it holds of all nodes. -/
theorem Acyclic.induction (acyclic : g.Acyclic) {P : NodeId → Prop}
    (step : ∀ id, (∀ child, Relation.TransGen g.Holds id child → P child) → P id)
    (id : NodeId) : P id := by
  have outside (id : NodeId) (h : ¬ id < g.nodes.size) : P id := by
    refine step id fun child inside => absurd ?_ h
    obtain ⟨next, first, -⟩ := Relation.TransGen.head'_iff.1 inside
    exact lt_size_of_holds first
  have order : IsStrictOrder NodeId fun a b => Relation.TransGen g.Holds b a :=
    { irrefl := acyclic, trans := fun _ _ _ first second => second.trans first }
  have founded := (Set.finite_Iio g.nodes.size).wellFoundedOn
    (r := fun a b => Relation.TransGen g.Holds b a)
  by_cases inside : id < g.nodes.size
  · refine founded.induction inside fun id _ ih => step id fun child below => ?_
    by_cases childInside : child < g.nodes.size
    · exact ih child childInside below
    · exact outside child childInside
  · exact outside id inside

/-- A graph without cycles: every node was numbered before those it holds. -/
lemma acyclic_of_lt (h : ∀ {id child}, g.Holds id child → id < child) :
    g.Acyclic := by
  have below {id child : NodeId} (inside : Relation.TransGen g.Holds id child) : id < child := by
    induction inside with
    | single first => exact h first
    | tail _ last ih => exact ih.trans (h last)
  exact fun id inside => absurd (below inside) (Nat.lt_irrefl id)

/-! ## Unfolding without cycles -/

/-- Nothing that is open around a node is inside it: neither the containers around it nor the map
that an entry around it belongs to. -/
def Clear (g : Graph) (outer? : Option (NodeId × ℕ)) (active : List NodeId) (id : NodeId) : Prop :=
  ∀ j, Relation.ReflTransGen g.Holds id j → j ∉ active ∧ ∀ e, outer? = some e → e.1 ≠ j

lemma clear_start (id : NodeId) : g.Clear none [] id :=
  fun _ _ => ⟨List.not_mem_nil, nofun⟩

/-- In a graph without cycles a node stays clear when it is opened. -/
lemma Clear.below {outer? : Option (NodeId × ℕ)} {active : List NodeId}
    (h : g.Clear outer? active id) (acyclic : g.Acyclic)
    (inside : Relation.TransGen g.Holds id child) : g.Clear outer? (id :: active) child := by
  intro j reach
  obtain ⟨notActive, notOuter⟩ := h j (inside.to_reflTransGen.trans reach)
  refine ⟨?_, notOuter⟩
  rw [List.mem_cons]
  rintro (rfl | hj)
  · exact acyclic j (inside.trans_left reach)
  · exact notActive hj

lemma clear_entry (acyclic : g.Acyclic) (inside : Relation.TransGen g.Holds id child) (k : ℕ) :
    g.Clear (some (id, k)) [] child := by
  intro j reach
  refine ⟨List.not_mem_nil, ?_⟩
  rintro _ ⟨⟩ rfl
  exact acyclic _ (inside.trans_left reach)

end Yaml.Graph

namespace Yaml.Construction.Sound

variable {g : Graph} {c : Construction} {id : NodeId}

/-- What the cell of a node holds is inside the node. -/
lemma holds_items (sound : c.Sound g) {items : List NodeId} (cell : c.cell? id = some (.list items))
    {i : NodeId} (hi : i ∈ items) : Relation.TransGen g.Holds id i := by
  obtain ⟨n, node, -, rfl | content⟩ := sound.fits cell
  · cases hi
  · exact .single (.item node content hi)

lemma holds_entries (sound : c.Sound g) {entries : List (NodeId × NodeId)}
    (cell : c.cell? id = some (.map entries)) {e : NodeId × NodeId} (he : e ∈ entries) :
    Relation.TransGen g.Holds id e.2 := by
  obtain ⟨n, node, -, rfl | ⟨content, -⟩⟩ := sound.fits cell
  · cases he
  · exact .single (.value node content he)

lemma holds_pairs (sound : c.Sound g) {entries : List (NodeId × NodeId)}
    (cell : c.cell? id = some (.pairs entries)) {e : NodeId × NodeId} (he : e ∈ entries) :
    Relation.TransGen g.Holds id e.1 ∧ Relation.TransGen g.Holds id e.2 := by
  obtain ⟨n, node, -, rfl | ⟨items, content, pairs⟩⟩ := sound.fits cell
  · cases he
  · obtain ⟨i, hi, rfl⟩ := List.mem_iff_getElem.1 he
    have hi' : i < items.length := by rw [pairs.length_eq]; exact hi
    obtain ⟨m, item, single⟩ := pairs.get hi' hi
    have outer : g.Holds id items[i] := .item node content (List.getElem_mem hi')
    exact ⟨.tail (.single outer) (.key item single (List.mem_singleton.2 rfl)),
      .tail (.single outer) (.value item single (List.mem_singleton.2 rfl))⟩

end Yaml.Construction.Sound

namespace Yaml

open Yaml.Graph (clear_start clear_entry)

variable {g : Graph} {c : Construction} {outer? : Option (NodeId × ℕ)} {active : List NodeId}
  {id : NodeId}

/-- One step of unfolding, at a node that is not open. -/
lemma unfoldData_of_notMem (notActive : id ∉ active) :
    unfoldData c.cells outer? active id =
      match c.cell? id with
      | none => .atom .null
      | some (.atom a _) => .atom a
      | some (.list items) =>
        .list id (items.map fun i => unfoldData c.cells outer? (id :: active) i)
      | some (.map entries) =>
        .map id (entries.map fun e =>
          (Cell.atom? (c.cell? e.1), unfoldData c.cells outer? (id :: active) e.2))
      | some (.set members) => .set (members.map fun key => Cell.atom? (c.cell? key))
      | some (.pairs entries) =>
        .list id (entries.zipIdx.map fun e =>
          match outer? with
          | none =>
            .tuple (unfoldData c.cells (some (id, e.2)) [] e.1.1)
              (unfoldData c.cells (some (id, e.2)) [] e.1.2)
          | some entry =>
            if entry = (id, e.2) then .cycle .tuple
            else
              .tuple (unfoldData c.cells (some entry) (id :: active) e.1.1)
                (unfoldData c.cells (some entry) (id :: active) e.1.2)) := by
  rw [unfoldData, dif_neg notActive]
  by_cases inside : id < c.cells.size
  · have cell : c.cell? id = c.cells[id] := by
      rw [Construction.cell?, Array.getD_eq_getD_getElem?, Array.getElem?_eq_getElem inside]
      rfl
    rw [dif_pos inside, cell]
    cases c.cells[id] with
    | none => rfl
    | some cell => cases cell <;> rfl
  · have cell : c.cell? id = none := by
      rw [Construction.cell?, Array.getD_eq_getD_getElem?,
        Array.getElem?_eq_none (Nat.le_of_not_lt inside)]
      rfl
    rw [dif_neg inside, cell]

/-- In a graph without cycles it does not matter what is open around a node. -/
lemma unfoldData_congr (sound : c.Sound g) (acyclic : g.Acyclic) (id : NodeId) :
    ∀ {outer? outer?' : Option (NodeId × ℕ)} {active active' : List NodeId},
      g.Clear outer? active id → g.Clear outer?' active' id →
      unfoldData c.cells outer? active id = unfoldData c.cells outer?' active' id := by
  induction id using acyclic.induction with
  | step id ih =>
    intro outer? outer?' active active' clear clear'
    rw [unfoldData_of_notMem (clear id .refl).1, unfoldData_of_notMem (clear' id .refl).1]
    cases cell : c.cell? id with
    | none => rfl
    | some content =>
      cases content with
      | atom a shared => rfl
      | set members => rfl
      | list items =>
        dsimp only
        congr 1
        refine List.map_congr_left fun i hi => ?_
        have inside := sound.holds_items cell hi
        exact ih i inside (clear.below acyclic inside) (clear'.below acyclic inside)
      | map entries =>
        dsimp only
        congr 1
        refine List.map_congr_left fun e he => ?_
        have inside := sound.holds_entries cell he
        rw [ih e.2 inside (clear.below acyclic inside) (clear'.below acyclic inside)]
      | pairs entries =>
        dsimp only
        congr 1
        refine List.map_congr_left fun e he => ?_
        have inside := sound.holds_pairs cell (List.fst_mem_of_mem_zipIdx he)
        -- either way the parts of an entry are unfolded as if nothing was open
        have part {outer? : Option (NodeId × ℕ)} {active : List NodeId}
            (clear : g.Clear outer? active id) :
            (match outer? with
            | none =>
              Data.tuple (unfoldData c.cells (some (id, e.2)) [] e.1.1)
                (unfoldData c.cells (some (id, e.2)) [] e.1.2)
            | some entry =>
              if entry = (id, e.2) then .cycle .tuple
              else
                .tuple (unfoldData c.cells (some entry) (id :: active) e.1.1)
                  (unfoldData c.cells (some entry) (id :: active) e.1.2)) =
              .tuple (unfoldData c.cells none [] e.1.1) (unfoldData c.cells none [] e.1.2) := by
          cases outer? with
          | none =>
            dsimp only
            rw [ih e.1.1 inside.1 (clear_entry acyclic inside.1 e.2) (clear_start _),
              ih e.1.2 inside.2 (clear_entry acyclic inside.2 e.2) (clear_start _)]
          | some entry =>
            have other : entry ≠ (id, e.2) :=
              fun same => (clear id .refl).2 entry rfl (by rw [same])
            dsimp only
            rw [if_neg other, ih e.1.1 inside.1 (clear.below acyclic inside.1) (clear_start _),
              ih e.1.2 inside.2 (clear.below acyclic inside.2) (clear_start _)]
        rw [part clear, part clear']

/-- What is unfolded at a node of a graph without cycles. -/
lemma unfoldData_eq (sound : c.Sound g) (acyclic : g.Acyclic) (id : NodeId) :
    unfoldData c.cells none [] id =
      match c.cell? id with
      | none => .atom .null
      | some (.atom a _) => .atom a
      | some (.list items) => .list id (items.map (unfoldData c.cells none []))
      | some (.map entries) =>
        .map id (entries.map fun e =>
          (Cell.atom? (c.cell? e.1), unfoldData c.cells none [] e.2))
      | some (.set members) => .set (members.map fun key => Cell.atom? (c.cell? key))
      | some (.pairs entries) =>
        .list id (entries.map fun e =>
          .tuple (unfoldData c.cells none [] e.1) (unfoldData c.cells none [] e.2)) := by
  have below {child : NodeId} (inside : Relation.TransGen g.Holds id child) :
      unfoldData c.cells none [id] child = unfoldData c.cells none [] child :=
    unfoldData_congr sound acyclic child ((clear_start id).below acyclic inside) (clear_start child)
  have entry {child : NodeId} (inside : Relation.TransGen g.Holds id child) (k : ℕ) :
      unfoldData c.cells (some (id, k)) [] child = unfoldData c.cells none [] child :=
    unfoldData_congr sound acyclic child (clear_entry acyclic inside k) (clear_start child)
  rw [unfoldData_of_notMem List.not_mem_nil]
  cases cell : c.cell? id with
  | none => rfl
  | some content =>
    cases content with
    | atom a shared => rfl
    | set members => rfl
    | list items =>
      dsimp only
      congr 1
      exact List.map_congr_left fun i hi => below (sound.holds_items cell hi)
    | map entries =>
      dsimp only
      congr 1
      exact List.map_congr_left fun e he => by rw [below (sound.holds_entries cell he)]
    | pairs entries =>
      have plain : entries.map (fun e =>
          Data.tuple (unfoldData c.cells none [] e.1) (unfoldData c.cells none [] e.2)) =
          entries.zipIdx.map fun e =>
            .tuple (unfoldData c.cells none [] e.1.1) (unfoldData c.cells none [] e.1.2) := by
        conv_lhs => rw [← List.zipIdx_map_fst 0 entries, List.map_map]
        rfl
      dsimp only
      congr 1
      rw [plain]
      refine List.map_congr_left fun e he => ?_
      have inside := sound.holds_pairs cell (List.fst_mem_of_mem_zipIdx he)
      rw [entry inside.1, entry inside.2]

end Yaml

namespace Node

variable {g : Graph} {placeAt : ℕ → Position} {id : NodeId} {n : GraphNode}

/-- One step of building the tree, at a node that is not open. -/
lemma ofGraph_of_notMem {active : List NodeId} (node : g.get? id = some n)
    (notActive : id ∉ active) :
    ofGraph g placeAt active id =
      match n.content with
      | .scalar text => .scalar (rangeOf n) (placeAt n.start) text
      | .sequence items =>
        .sequence (rangeOf n) (placeAt n.start)
          (items.map fun i => ofGraph g placeAt (id :: active) i)
      | .mapping pairs =>
        .mapping (rangeOf n) (placeAt n.start) (pairs.map fun p =>
          ofPair placeAt (g.nodes.getD p.1 default) (ofGraph g placeAt (id :: active) p.2)) := by
  have node : g.nodes[id]? = some n := node
  obtain ⟨inside, rfl⟩ := Array.getElem?_eq_some_iff.1 node
  rw [ofGraph, dif_pos inside]
  refine (dif_neg notActive).trans ?_
  cases g.nodes[id].content <;> rfl

/-- In a graph without cycles it does not matter what is open around a node. -/
lemma ofGraph_congr (acyclic : g.Acyclic) (id : NodeId) :
    ∀ {active active' : List NodeId}, g.Clear none active id → g.Clear none active' id →
      ofGraph g placeAt active id = ofGraph g placeAt active' id := by
  induction id using acyclic.induction with
  | step id ih =>
    intro active active' clear clear'
    cases node : g.get? id with
    | none =>
      have node : g.nodes[id]? = none := node
      have outside : ¬ id < g.nodes.size := Nat.not_lt.2 (Array.getElem?_eq_none_iff.1 node)
      rw [ofGraph, dif_neg outside, ofGraph, dif_neg outside]
    | some n =>
      rw [ofGraph_of_notMem node (clear id .refl).1, ofGraph_of_notMem node (clear' id .refl).1]
      cases content : n.content with
      | scalar text => rfl
      | sequence items =>
        dsimp only
        congr 1
        refine List.map_congr_left fun i hi => ?_
        have inside : Relation.TransGen g.Holds id i := .single (.item node content hi)
        exact ih i inside (clear.below acyclic inside) (clear'.below acyclic inside)
      | mapping pairs =>
        dsimp only
        congr 1
        refine List.map_congr_left fun p hp => ?_
        have inside : Relation.TransGen g.Holds id p.2 := .single (.value node content hp)
        rw [ih p.2 inside (clear.below acyclic inside) (clear'.below acyclic inside)]

/-- The tree of a node of a graph without cycles. -/
lemma ofGraph_eq (acyclic : g.Acyclic) (node : g.get? id = some n) :
    ofGraph g placeAt [] id =
      match n.content with
      | .scalar text => .scalar (rangeOf n) (placeAt n.start) text
      | .sequence items =>
        .sequence (rangeOf n) (placeAt n.start) (items.map (ofGraph g placeAt []))
      | .mapping pairs =>
        .mapping (rangeOf n) (placeAt n.start) (pairs.map fun p =>
          ofPair placeAt (g.nodes.getD p.1 default) (ofGraph g placeAt [] p.2)) := by
  have below {child : NodeId} (inside : Relation.TransGen g.Holds id child) :
      ofGraph g placeAt [id] child = ofGraph g placeAt [] child :=
    ofGraph_congr acyclic child ((Yaml.Graph.clear_start id).below acyclic inside)
      (Yaml.Graph.clear_start child)
  rw [ofGraph_of_notMem node List.not_mem_nil]
  cases content : n.content with
  | scalar text => rfl
  | sequence items =>
    dsimp only
    congr 1
    exact List.map_congr_left fun i hi => below (.single (.item node content hi))
  | mapping pairs =>
    dsimp only
    congr 1
    exact List.map_congr_left fun p hp => by rw [below (.single (.value node content hp))]

/-! ## One step -/

lemma step?_item (acyclic : g.Acyclic) (node : g.get? id = some n) {items : List NodeId}
    (content : n.content = .sequence items) {i : ℕ} {child : NodeId}
    (present : items[i]? = some child) :
    (ofGraph g placeAt [] id).step? (.ofIndex i) = some (ofGraph g placeAt [] child) := by
  rw [ofGraph_eq acyclic node, content]
  simp [step?, PathToken.ofIndex, present]

/-- The key-value node of a pair has the text of its key. -/
lemma hasKey_ofPair {key : NodeId} {text name : String} (h : g.keyText? key = some text)
    (value : Node) :
    (ofPair placeAt (g.nodes.getD key default) value).hasKey name = (text == name) := by
  obtain ⟨k, node, -, content⟩ := Yaml.Graph.keyText?_eq_some h
  have node : g.nodes[key]? = some k := node
  have found : g.nodes.getD key default = k := by
    rw [Array.getD_eq_getD_getElem?, node]
    rfl
  rw [found, ofPair, content]
  rfl

/-- The first pair with the text of a key is the only one. -/
lemma find?_pair {pairs : List (NodeId × NodeId)} {value : NodeId → Node}
    (texts : ∀ q ∈ pairs, ∃ text, g.keyText? q.1 = some text)
    (distinct : (pairs.map fun q => g.keyText? q.1).Nodup) {p : NodeId × NodeId}
    (present : p ∈ pairs) {name : String} (key : g.keyText? p.1 = some name) :
    (pairs.map fun q => ofPair placeAt (g.nodes.getD q.1 default) (value q.2)).find?
        (·.hasKey name) =
      some (ofPair placeAt (g.nodes.getD p.1 default) (value p.2)) := by
  induction pairs with
  | nil => cases present
  | cons q pairs ih =>
    rw [List.forall_mem_cons] at texts
    rw [List.map_cons, List.nodup_cons] at distinct
    obtain ⟨text, htext⟩ := texts.1
    rw [List.map_cons, List.find?_cons, hasKey_ofPair htext]
    rcases List.mem_cons.1 present with rfl | present
    · rw [key] at htext
      cases htext
      simp
    · have ne : text ≠ name := by
        rintro rfl
        refine distinct.1 ?_
        rw [htext, ← key]
        exact List.mem_map_of_mem present
      rw [beq_false_of_ne ne]
      exact ih texts.2 distinct.2 present

lemma step?_value (acyclic : g.Acyclic) (keys : g.PlainKeys) (node : g.get? id = some n)
    {pairs : List (NodeId × NodeId)} (content : n.content = .mapping pairs)
    {p : NodeId × NodeId} (present : p ∈ pairs) {name : String}
    (key : g.keyText? p.1 = some name) :
    (ofGraph g placeAt [] id).step? (.ofKey name) = some (ofGraph g placeAt [] p.2) := by
  have all : (pairs.map fun q =>
      ofPair placeAt (g.nodes.getD q.1 default) (ofGraph g placeAt [] q.2)).filter
        (·.is .keyValue) =
      pairs.map fun q =>
        ofPair placeAt (g.nodes.getD q.1 default) (ofGraph g placeAt [] q.2) := by
    rw [List.filter_eq_self]
    intro x hx
    obtain ⟨q, -, rfl⟩ := List.mem_map.1 hx
    rfl
  rw [ofGraph_eq acyclic node, content]
  simp only [step?, keyValues, PathToken.ofKey, all]
  rw [find?_pair (keys.texts node content) (keys.distinct node content) present key]
  rfl

end Node

/-! ## Paths in values, graphs and trees -/

section Aligned

variable {g : Graph} {c : Construction} {placeAt : ℕ → Position}

/-- The key of an entry of a map is the text of the key of the pair. -/
lemma keyText_of_entry (sound : c.Sound g) (keys : g.PlainKeys) {id : NodeId}
    {entries : List (NodeId × NodeId)} (cell : c.cell? id = some (.map entries))
    {e : NodeId × NodeId} (he : e ∈ entries) :
    ∃ n text, g.get? id = some n ∧ n.content = .mapping entries ∧ g.keyText? e.1 = some text ∧
      (Cell.atom? (c.cell? e.1)).keyText = .ok text := by
  obtain ⟨n, node, -, rfl | ⟨content, created⟩⟩ := sound.fits cell
  · cases he
  · obtain ⟨text, key⟩ := keys.texts node content e he
    refine ⟨n, text, node, content, key, ?_⟩
    rw [sound.cell_key key (created e he)]
    rfl

lemma exists_itemsOfData {ds : List Data} (h : ∀ d ∈ ds, ∃ v, Value.ofData d = .ok v) :
    ∃ vs, Value.itemsOfData ds = .ok vs := by
  induction ds with
  | nil => exact ⟨[], rfl⟩
  | cons d ds ih =>
    rw [List.forall_mem_cons] at h
    obtain ⟨v, hv⟩ := h.1
    obtain ⟨vs, hvs⟩ := ih h.2
    exact ⟨v :: vs, Value.itemsOfData_eq_ok.2 (.cons hv (Value.itemsOfData_eq_ok.1 hvs))⟩

lemma exists_membersOfData {es : List (Yaml.Atom × Data)}
    (h : ∀ e ∈ es, ∃ m : String × Value, e.1.keyText = .ok m.1 ∧ Value.ofData e.2 = .ok m.2) :
    ∃ ms, Value.membersOfData es = .ok ms := by
  induction es with
  | nil => exact ⟨[], rfl⟩
  | cons e es ih =>
    rw [List.forall_mem_cons] at h
    obtain ⟨m, hm⟩ := h.1
    obtain ⟨ms, hms⟩ := ih h.2
    exact ⟨m :: ms, Value.membersOfData_eq_ok.2 (.cons hm (Value.membersOfData_eq_ok.1 hms))⟩

/-- Every node of a graph without cycles has a value that a schema can look at. -/
lemma exists_ofData_unfoldData (sound : c.Sound g) (keys : g.PlainKeys) (acyclic : g.Acyclic)
    (id : NodeId) : ∃ x, Value.ofData (unfoldData c.cells none [] id) = .ok x := by
  induction id using acyclic.induction with
  | step id ih =>
    rw [Yaml.unfoldData_eq sound acyclic]
    cases cell : c.cell? id with
    | none => exact ⟨_, rfl⟩
    | some content =>
      cases content with
      | atom a shared => exact ⟨_, rfl⟩
      | set members => exact ⟨_, rfl⟩
      | list items =>
        obtain ⟨vs, hvs⟩ := exists_itemsOfData (List.forall_mem_map.2 fun i hi =>
          ih i (sound.holds_items cell hi))
        exact ⟨_, Value.ofData_list.2 ⟨vs, hvs, rfl⟩⟩
      | map entries =>
        obtain ⟨ms, hms⟩ : ∃ ms, Value.membersOfData (entries.map fun e =>
            (Cell.atom? (c.cell? e.1), unfoldData c.cells none [] e.2)) = .ok ms := by
          refine exists_membersOfData (List.forall_mem_map.2 fun e he => ?_)
          obtain ⟨n, text, -, -, -, key⟩ := keyText_of_entry sound keys cell he
          obtain ⟨x, hx⟩ := ih e.2 (sound.holds_entries cell he)
          exact ⟨(text, x), key, hx⟩
        exact ⟨_, Value.ofData_map.2 ⟨ms, hms, rfl⟩⟩
      | pairs entries =>
        obtain ⟨vs, hvs⟩ : ∃ vs, Value.itemsOfData (entries.map fun e =>
            .tuple (unfoldData c.cells none [] e.1) (unfoldData c.cells none [] e.2)) = .ok vs :=
          exists_itemsOfData (List.forall_mem_map.2 fun e _ => ⟨_, rfl⟩)
        exact ⟨_, Value.ofData_list.2 ⟨vs, hvs, rfl⟩⟩

/-- An object is seen of a map only. -/
lemma cell_of_object (sound : c.Sound g) (acyclic : g.Acyclic) {id : NodeId}
    {members : List (String × Value)}
    (seen : Value.ofData (unfoldData c.cells none [] id) = .ok (.object members)) :
    ∃ entries ms, c.cell? id = some (.map entries) ∧ members = Value.gather [] ms ∧
      List.Forall₂ (fun e m => (Cell.atom? (c.cell? e.1)).keyText = .ok m.1 ∧
        Value.ofData (unfoldData c.cells none [] e.2) = .ok m.2) entries ms := by
  rw [Yaml.unfoldData_eq sound acyclic] at seen
  cases cell : c.cell? id with
  | none => rw [cell] at seen; cases seen
  | some content =>
    rw [cell] at seen
    cases content with
    | atom a shared => cases seen
    | set members => cases seen
    | list items =>
      obtain ⟨vs, -, same⟩ := Value.ofData_list.1 seen
      cases same
    | pairs entries =>
      obtain ⟨vs, -, same⟩ := Value.ofData_list.1 seen
      cases same
    | map entries =>
      obtain ⟨ms, hms, same⟩ := Value.ofData_map.1 seen
      cases same
      refine ⟨entries, ms, rfl, rfl, ?_⟩
      exact List.forall₂_map_left_iff.1 (Value.membersOfData_eq_ok.1 hms)

/-- A list is seen of a list, or of an ordered map. -/
lemma cell_of_list (sound : c.Sound g) (acyclic : g.Acyclic) {id : NodeId} {vs : List Value}
    (seen : Value.ofData (unfoldData c.cells none [] id) = .ok (.list vs)) :
    (∃ items, c.cell? id = some (.list items) ∧
      List.Forall₂ (fun i v => Value.ofData (unfoldData c.cells none [] i) = .ok v) items vs) ∨
    ∃ entries, c.cell? id = some (.pairs entries) ∧
      List.Forall₂ (fun e v => v = .other (.tuple (unfoldData c.cells none [] e.1)
        (unfoldData c.cells none [] e.2))) entries vs := by
  rw [Yaml.unfoldData_eq sound acyclic] at seen
  cases cell : c.cell? id with
  | none => rw [cell] at seen; cases seen
  | some content =>
    rw [cell] at seen
    cases content with
    | atom a shared => cases seen
    | set members => cases seen
    | map entries =>
      obtain ⟨ms, -, same⟩ := Value.ofData_map.1 seen
      cases same
    | list items =>
      obtain ⟨vs', hvs, same⟩ := Value.ofData_list.1 seen
      cases same
      exact .inl ⟨items, rfl, List.forall₂_map_left_iff.1 (Value.itemsOfData_eq_ok.1 hvs)⟩
    | pairs entries =>
      obtain ⟨vs', hvs, same⟩ := Value.ofData_list.1 seen
      cases same
      refine .inr ⟨entries, rfl, ?_⟩
      refine (List.forall₂_map_left_iff.1 (Value.itemsOfData_eq_ok.1 hvs)).imp fun e v h => ?_
      cases h
      rfl

lemma getElem?_of_forall₂ {α β : Type} {R : α → β → Prop} {as : List α} {bs : List β}
    (h : List.Forall₂ R as bs) {i : ℕ} {b : β} (hb : bs[i]? = some b) :
    ∃ a, as[i]? = some a ∧ R a b := by
  obtain ⟨hi, rfl⟩ := List.getElem?_eq_some_iff.1 hb
  have hi' : i < as.length := by rw [h.length_eq]; exact hi
  exact ⟨as[i], List.getElem?_eq_getElem hi', h.get hi' hi⟩

/-- A path that exists in the value of a node leads through the graph to the node that the value at
its end was made from, and through the tree to what was built from that node. -/
lemma aligned (sound : c.Sound g) (keys : g.PlainKeys) (acyclic : g.Acyclic)
    (values : ∀ id, g.valueOf id = .ok (unfoldData c.cells none [] id)) {w x : Value}
    {path : List PathToken} (leads : w.LeadsTo path x) :
    ∀ {id : NodeId}, Value.ofData (unfoldData c.cells none [] id) = .ok w →
      ∃ target, g.LeadsTo id path target ∧ g.Produces target x ∧
        (Node.ofGraph g placeAt [] id).follow path = Node.ofGraph g placeAt [] target := by
  induction leads with
  | here w =>
    intro id seen
    exact ⟨id, .here id, .value (values id) seen, rfl⟩
  | @member members name x y path present rest ih =>
    intro id seen
    obtain ⟨entries, ms, cell, rfl, parts⟩ := cell_of_object sound acyclic seen
    have present : (name, x) ∈ ms := by simpa using Value.mem_of_mem_gather present
    obtain ⟨i, hi⟩ := List.mem_iff_getElem?.1 present
    obtain ⟨e, he, name', seen'⟩ := getElem?_of_forall₂ parts hi
    have he : e ∈ entries := List.mem_iff_getElem?.2 ⟨i, he⟩
    obtain ⟨n, text, node, content, key, text'⟩ := keyText_of_entry sound keys cell he
    obtain rfl : text = name := Except.ok.inj (text'.symm.trans name')
    obtain ⟨target, inGraph, produced, inTree⟩ := ih seen'
    refine ⟨target, .value node content he key inGraph, produced, ?_⟩
    rw [Node.follow, Node.step?_value acyclic keys node content he key]
    exact inTree
  | @item items i x y path present rest ih =>
    intro id seen
    rcases cell_of_list sound acyclic seen with ⟨cells, cell, parts⟩ | ⟨entries, cell, parts⟩
    · obtain ⟨child, hchild, seen'⟩ := getElem?_of_forall₂ parts present
      obtain ⟨n, node, -, rfl | content⟩ := sound.fits cell
      · cases hchild
      · obtain ⟨target, inGraph, produced, inTree⟩ := ih seen'
        refine ⟨target, .item node content hchild inGraph, produced, ?_⟩
        rw [Node.follow, Node.step?_item acyclic node content hchild]
        exact inTree
    · obtain ⟨e, he, rfl⟩ := getElem?_of_forall₂ parts present
      obtain ⟨n, node, -, rfl | ⟨nodes, content, pairs⟩⟩ := sound.fits cell
      · cases he
      · obtain ⟨child, hchild, m, childNode, single⟩ := getElem?_of_forall₂ pairs he
        -- an entry has no parts of its own for a schema, so the path ends here
        cases rest
        refine ⟨child, .item node content hchild (.here child),
          .entry childNode single (values e.1) (values e.2), ?_⟩
        rw [Node.follow, Node.step?_item acyclic node content hchild]
        rfl

end Aligned

/-! ## Documents -/

/-- The range of the node with a number; a number without a node stands for the start of the
text. -/
def Yaml.Graph.rangeAt (g : Graph) (id : NodeId) : TextRange :=
  Node.rangeOf (g.nodes.getD id default)

lemma Node.nameRange_ofGraph {g : Graph} (acyclic : g.Acyclic) (placeAt : ℕ → Position)
    (id : NodeId) : (ofGraph g placeAt [] id).nameRange = g.rangeAt id := by
  have found : g.nodes.getD id default = (g.get? id).getD default :=
    Array.getD_eq_getD_getElem?
  rw [Yaml.Graph.rangeAt, found]
  cases node : g.get? id with
  | some n =>
    rw [ofGraph_eq acyclic node]
    cases n.content <;> rfl
  | none =>
    have node : g.nodes[id]? = none := node
    rw [ofGraph, dif_neg (Nat.not_lt.2 (Array.getElem?_eq_none_iff.1 node))]
    rfl

/-- The tree, the value and the issues of a document belong together: every path that exists in the
value `w` leads to one node `id` of the graph from which the value at the path was made, and the
node of the document at the path was built from `id` too.  Every issue of the grammar check has a
path that exists in the value, and the range of the node there. -/
structure Document.Aligned (d : Document) (g : Graph) (root : NodeId) (w : Value) : Prop where
  nodes : ∀ path x, w.LeadsTo path x → ∃ id, g.LeadsTo root path id ∧ g.Produces id x ∧
    d.nodeAtPath? path = some (Node.ofGraph g (Yaml.positionAt d.chars) [] id)
  issues : ∀ (s : Session) (t : FileTree) (issues : List Issue),
    (s.run t (Ksy.validateGrammar d)).1 = .ok issues → ∀ issue ∈ issues,
      ∃ path x id, w.LeadsTo path x ∧ g.LeadsTo root path id ∧ g.Produces id x ∧
        issue.pointer? = some (Pointer.render (path.map PathToken.text)) ∧
        issue.range? = some (g.rangeAt id) ∧
        issue.position = d.position (g.rangeAt id).start

/-- The trees and values of a document that could be read. -/
lemma Document.contents_of_parse {source : String} {file? : Option Path} {name? : Option String}
    {d : Document} {g : Graph} (composed : Graph.ofText source.toList = .ok g)
    (parsed : Document.parse source file? name? = .ok d) (readable : d.failure? = none) :
    d.source = source ∧
      d.roots = g.roots.map (Node.ofGraph g (Yaml.positionAt source.toList) []) ∧
      g.data = .ok d.data := by
  cases hdata : g.data with
  | error e =>
    have contents : Document.contents source.toList = .error e := by
      simp only [Document.contents, composed, hdata, bind, Except.bind]
    rw [Document.parse, contents] at parsed
    cases e <;> cases parsed <;> cases readable
  | ok data =>
    have contents : Document.contents source.toList =
        .ok (g.roots.map (Node.ofGraph g (Yaml.positionAt source.toList) []), data) := by
      simp only [Document.contents, composed, hdata, bind, Except.bind]
      rfl
    rw [Document.parse, contents] at parsed
    cases parsed
    exact ⟨rfl, rfl, rfl⟩

/-- The issues of the grammar check are those of some grammar. -/
lemma grammarIssues_of_validateGrammar {d : Document} {root : Node} {v : Data}
    (roots : d.roots = [root]) (data : d.data = [v]) {s : Session} {t : FileTree}
    {issues : List Issue} (h : (s.run t (Ksy.validateGrammar d)).1 = .ok issues) :
    issues = [] ∨ ∃ g, Ksy.grammarIssues g d v = .ok issues := by
  rw [Ksy.validateGrammar] at h
  split at h
  · cases h
    exact .inl rfl
  · rw [roots, data] at h
    dsimp only at h
    rw [Session.run_bind] at h
    split at h
    · rename_i g s' _
      cases found : Ksy.grammarIssues g d v with
      | ok issues' =>
        rw [found] at h
        cases h
        exact .inr ⟨g, found⟩
      | error e =>
        rw [found] at h
        cases h
    · cases h

/-- Tree and values of a document with one root go together if the keys of every mapping are
different texts and nothing contains itself, and so the issues of the grammar check are shown where
the values are that they are about. -/
theorem issues_at_their_values {source : String} {file? : Option Path} {name? : Option String}
    {d : Document} {g : Graph} {root : NodeId} (composed : Graph.ofText source.toList = .ok g)
    (parsed : Document.parse source file? name? = .ok d) (readable : d.failure? = none)
    (single : g.roots = [root]) (keys : g.PlainKeys) (acyclic : g.Acyclic) :
    ∃ v w, d.data = [v] ∧ Value.ofData v = .ok w ∧ d.Aligned g root w := by
  obtain ⟨rfl, roots, values⟩ := Document.contents_of_parse composed parsed readable
  obtain ⟨c, sound, made, data⟩ := Graph.data_of_plainKeys keys values
  rw [single, List.map_singleton] at roots data
  obtain ⟨w, seen⟩ := exists_ofData_unfoldData sound keys acyclic root
  have nodes (path : List PathToken) (x : Value) (leads : w.LeadsTo path x) :
      ∃ id, g.LeadsTo root path id ∧ g.Produces id x ∧
        d.nodeAtPath? path = some (Node.ofGraph g (Yaml.positionAt d.chars) [] id) := by
    obtain ⟨id, inGraph, produced, inTree⟩ := aligned sound keys acyclic made leads seen
    refine ⟨id, inGraph, produced, ?_⟩
    rw [Document.nodeAtPath?, Document.topLevel?, roots]
    exact congrArg some inTree
  refine ⟨_, w, data, seen, nodes, ?_⟩
  intro s t issues run issue hissue
  rcases grammarIssues_of_validateGrammar roots data run with rfl | ⟨grammar, found⟩
  · cases hissue
  · rw [Ksy.grammarIssues, seen] at found
    change (grammar.findings w).bind _ = _ at found
    cases hfindings : grammar.findings w with
    | error e =>
      rw [hfindings] at found
      cases found
    | ok findings =>
      rw [hfindings] at found
      cases found
      obtain ⟨f, hf, rfl⟩ := List.mem_map.1 hissue
      obtain ⟨x, leads⟩ := Grammar.hasPath_of_mem_findings hfindings hf
      obtain ⟨id, inGraph, produced, inTree⟩ := nodes f.path x leads
      refine ⟨f.path, x, id, leads, inGraph, produced, ?_⟩
      rw [Ksy.findingIssue, inTree, ← Node.nameRange_ofGraph acyclic (Yaml.positionAt d.chars) id]
      exact ⟨rfl, rfl, rfl⟩

/-- A graph with data makes a document that can be read. -/
lemma Document.parse_of_data {source : String} {g : Graph} {data : List Data}
    (composed : Graph.ofText source.toList = .ok g) (made : g.data = .ok data)
    (file? : Option Path) (name? : Option String) :
    ∃ d, Document.parse source file? name? = .ok d ∧ d.failure? = none := by
  have contents : Document.contents source.toList =
      .ok (g.roots.map (Node.ofGraph g (Yaml.positionAt source.toList) []), data) := by
    simp only [Document.contents, composed, made, bind, Except.bind]
    rfl
  rw [Document.parse, contents]
  exact ⟨_, rfl, rfl⟩

/-- Graphs are compared by their nodes and roots. -/
lemma Yaml.Graph.ofText_eq {cs : List Char} {g : Graph}
    (h : ((ofText cs).toOption.map fun g => (g.nodes, g.roots)) = some (g.nodes, g.roots)) :
    ofText cs = .ok g := by
  generalize ofText cs = r at h ⊢
  cases r with
  | error e => cases h
  | ok g' =>
    obtain ⟨nodes, roots⟩ := g'
    obtain ⟨rfl, rfl⟩ := Prod.mk.inj (Option.some.inj h)
    rfl

lemma exists_ok_of_toOption {ε α β : Type} {r : Except ε α} {f : α → β} {b : β}
    (h : r.toOption.map f = some b) : ∃ a, r = .ok a ∧ f a = b := by
  cases r with
  | error e => cases h
  | ok a => exact ⟨a, rfl, Option.some.inj h⟩

/-- A description whose meta section is used twice. -/
def sharedSource : String :=
  "meta: &m {id: 1}\n-x: *m\n"

def sharedGraph : Graph :=
  ⟨#[⟨.map, .mapping [(1, 2), (5, 2)], 0, 24⟩, ⟨.str, .scalar "meta", 0, 4⟩,
     ⟨.map, .mapping [(3, 4)], 6, 16⟩, ⟨.str, .scalar "id", 10, 12⟩, ⟨.int, .scalar "1", 14, 15⟩,
     ⟨.str, .scalar "-x", 17, 19⟩], [0]⟩

lemma ofText_sharedSource : Graph.ofText sharedSource.toList = .ok sharedGraph :=
  Yaml.Graph.ofText_eq (by decide +kernel)

lemma contents_sharedGraph {id : NodeId} {n : GraphNode} (h : sharedGraph.get? id = some n) :
    n.content = .mapping [(1, 2), (5, 2)] ∧ id = 0 ∨ n.content = .mapping [(3, 4)] ∧ id = 2 ∨
      ∃ text, n.content = .scalar text := by
  have inside : id < 6 := (Array.getElem?_eq_some_iff.1 h).1
  interval_cases id <;> cases h <;> simp [sharedGraph]

lemma plainKeys_sharedGraph : sharedGraph.PlainKeys where
  texts h content p hp := by
    rcases contents_sharedGraph h with ⟨same, -⟩ | ⟨same, -⟩ | ⟨_, same⟩ <;>
      rw [content] at same <;>
      cases same
    · fin_cases hp
      · exact ⟨"meta", rfl⟩
      · exact ⟨"-x", rfl⟩
    · fin_cases hp
      exact ⟨"id", rfl⟩
  distinct h content := by
    rcases contents_sharedGraph h with ⟨same, -⟩ | ⟨same, -⟩ | ⟨_, same⟩ <;>
      rw [content] at same <;>
      cases same
    · decide
    · decide

lemma acyclic_sharedGraph : sharedGraph.Acyclic := by
  refine Yaml.Graph.acyclic_of_lt fun h => ?_
  cases h with
  | item node content present =>
    rcases contents_sharedGraph node with ⟨same, -⟩ | ⟨same, -⟩ | ⟨_, same⟩ <;>
      rw [content] at same <;> cases same
  | key node content present =>
    rcases contents_sharedGraph node with ⟨same, rfl⟩ | ⟨same, rfl⟩ | ⟨_, same⟩ <;>
      rw [content] at same <;> cases same <;> fin_cases present <;> decide
  | value node content present =>
    rcases contents_sharedGraph node with ⟨same, rfl⟩ | ⟨same, rfl⟩ | ⟨_, same⟩ <;>
      rw [content] at same <;> cases same <;> fin_cases present <;> decide

theorem issues_at_their_values_shared :
    ∃ d v w, Document.parse sharedSource none none = .ok d ∧ d.failure? = none ∧
      d.data = [v] ∧ Value.ofData v = .ok w ∧ d.Aligned sharedGraph 0 w := by
  obtain ⟨data, made⟩ : ∃ data, sharedGraph.data = .ok data :=
    exists_ok_of_isOk (by decide +kernel)
  obtain ⟨d, parsed, readable⟩ :=
    Document.parse_of_data ofText_sharedSource made none none
  obtain ⟨v, w, values, seen, aligned⟩ :=
    issues_at_their_values ofText_sharedSource parsed readable rfl plainKeys_sharedGraph
      acyclic_sharedGraph
  exact ⟨d, v, w, parsed, readable, values, seen, aligned⟩

end KsyTools
