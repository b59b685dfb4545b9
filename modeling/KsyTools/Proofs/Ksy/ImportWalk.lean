/-
# The walk through a document

The collector visits a tree by recursion, `Document.walk` lists its nodes.  Both meet the same nodes
in the same order, so a visit of a document is a loop over its nodes: at an import it follows the
import, at a block of definitions it takes the definitions, and at any other node it does nothing.
The definitions that are taken are the key-value nodes directly in the value of a block.
-/
import KsyTools.Ksy.Types
import KsyTools.Proofs.Document.Walk

namespace KsyTools

namespace Node

/-! ## Kinds -/

lemma is_keyValue_of_hasKey {n : Node} {key : String} (h : n.hasKey key) : n.is .keyValue := by
  cases n with
  | keyValue => rfl
  | scalar => simp [hasKey, key?] at h
  | sequence => simp [hasKey, key?] at h
  | mapping => simp [hasKey, key?] at h

end Node

namespace Located

lemma is_scalar_of_isImport {l : Located} (h : l.isImport) : l.node.is .scalar := by
  simp only [isImport, Bool.and_eq_true] at h
  exact h.1

lemma is_keyValue_of_isTypesBlock {l : Located} (h : l.isTypesBlock) : l.node.is .keyValue := by
  obtain ⟨n, ancestors, path⟩ := l
  cases ancestors with
  | nil => simp [isTypesBlock, Ksy.isTypesBlockIn] at h
  | cons parent above =>
    simp only [isTypesBlock, Ksy.isTypesBlockIn, Bool.and_eq_true] at h
    exact Node.is_keyValue_of_hasKey h.1.1

/-- A scalar is no block of definitions. -/
lemma isTypesBlock_eq_false_of_scalar {l : Located} (h : l.node.is .scalar) :
    l.isTypesBlock = false := by
  rw [Bool.eq_false_iff]
  intro hb
  have hkey := is_keyValue_of_isTypesBlock hb
  simp only [Node.is, beq_iff_eq] at h hkey
  rw [h] at hkey
  simp at hkey

end Located

namespace Ksy

/-- What a visit does at a node, apart from visiting the nodes inside it. -/
def visitLocated (d : Document) (follow : Located → Collect Unit) (l : Located) : Collect Unit :=
  if l.isImport then follow l
  else if l.isTypesBlock then
    modify fun c => { c with types := c.types ++ blockDefinitions d l }
  else pure ()

section Visit

variable (d : Document) (follow : Located → Collect Unit)

lemma visitLocated_of_scalar (l : Located) (h : l.node.is .scalar) :
    visitLocated d follow l = if l.isImport then follow l else pure () := by
  simp [visitLocated, Located.isTypesBlock_eq_false_of_scalar h]

lemma visitLocated_of_not_scalar (l : Located) (h : l.node.is .scalar = false) :
    visitLocated d follow l =
      if l.isTypesBlock then
        modify fun c => { c with types := c.types ++ blockDefinitions d l }
      else pure () := by
  have himport : l.isImport = false := by
    rw [Bool.eq_false_iff]
    intro hi
    simp [Located.is_scalar_of_isImport hi] at h
  simp [visitLocated, himport]

lemma visitLocated_of_collection (l : Located) (h : l.node.is .scalar = false)
    (h' : l.node.is .keyValue = false) : visitLocated d follow l = pure () := by
  have hblock : l.isTypesBlock = false := by
    rw [Bool.eq_false_iff]
    intro hb
    simp [Located.is_keyValue_of_isTypesBlock hb] at h'
  simp [visitLocated_of_not_scalar d follow l h, hblock]

mutual

/-- A visit of a node is a loop over the nodes of its tree. -/
lemma visitNode_eq_forM (ancestors : List Node) (path : List ℕ) : (n : Node) →
    visitNode d follow ancestors path n = (n.walk ancestors path).forM (visitLocated d follow)
  | .scalar range place text => by
    simp [visitNode, Node.walk,
      visitLocated_of_scalar d follow ⟨.scalar range place text, _, _⟩ rfl]
  | .sequence range place items => by
    simp [visitNode, Node.walk, visitNodes_eq_forM _ path 0 items,
      visitLocated_of_collection d follow ⟨.sequence range place items, _, _⟩ rfl rfl]
  | .mapping range place pairs => by
    simp [visitNode, Node.walk, visitNodes_eq_forM _ path 0 pairs,
      visitLocated_of_collection d follow ⟨.mapping range place pairs, _, _⟩ rfl rfl]
  | .keyValue range place key keyRange value => by
    simp [visitNode, Node.walk, visitNode_eq_forM _ (0 :: path) value,
      visitLocated_of_not_scalar d follow ⟨.keyValue range place key keyRange value, _, _⟩ rfl]
    split <;> simp

/-- A visit of siblings is a loop over the nodes of their trees. -/
lemma visitNodes_eq_forM (ancestors : List Node) (path : List ℕ) (index : ℕ) :
    (ns : List Node) → visitNodes d follow ancestors path index ns =
      (Node.walkAll ancestors path index ns).forM (visitLocated d follow)
  | [] => by simp [visitNodes, Node.walkAll]
  | n :: rest => by
    simp [visitNodes, Node.walkAll, visitNode_eq_forM ancestors (index :: path) n,
      visitNodes_eq_forM ancestors path (index + 1) rest]

end

end Visit

/-! ## The definitions of a document -/

/-- The definitions in all blocks of a document. -/
def ownDefinitions (d : Document) : List Definition :=
  (d.walk.filter Located.isTypesBlock).flatMap (blockDefinitions d)

/-- A node of a document is a definition: a key-value node in the value of a block of
definitions. -/
def Defines (d : Document) (l : Located) : Prop :=
  l ∈ d.walk ∧ l.node.is .keyValue ∧
    ∃ body block above, l.ancestors = body :: block :: above ∧ isTypesBlockIn block above

lemma mem_blockDefinitions {d : Document} {b : Located} (hb : b.isTypesBlock) {x : Definition} :
    x ∈ blockDefinitions d b ↔ ∃ body n i, b.node.children[0]? = some body ∧
      body.children[i]? = some n ∧ n.is .keyValue ∧ x = ⟨d, (b.child 0 body).child i n⟩ := by
  have hkey := Located.is_keyValue_of_isTypesBlock hb
  obtain ⟨n, ancestors, path⟩ := b
  cases n with
  | keyValue range place key keyRange value =>
    simp only [blockDefinitions, Node.value?, List.mem_map, List.mem_filter, Prod.exists,
      List.mem_zipIdx_iff_getElem?, Node.children, List.getElem?_cons_zero, Option.some.injEq]
    constructor
    · rintro ⟨n, i, ⟨hn, hk⟩, rfl⟩
      exact ⟨value, n, i, rfl, hn, hk, rfl⟩
    · rintro ⟨body, n, i, rfl, hn, hk, rfl⟩
      exact ⟨n, i, ⟨hn, hk⟩, rfl⟩
  | scalar => simp [Node.is, Node.kind] at hkey
  | sequence => simp [Node.is, Node.kind] at hkey
  | mapping => simp [Node.is, Node.kind] at hkey

/-- The blocks of a document hold its definitions and nothing else. -/
lemma mem_ownDefinitions {d : Document} {x : Definition} :
    x ∈ ownDefinitions d ↔ x.document = d ∧ Defines d x.located := by
  simp only [ownDefinitions, List.mem_flatMap, List.mem_filter]
  constructor
  · rintro ⟨b, ⟨hb, hblock⟩, hx⟩
    obtain ⟨body, n, i, hbody, hn, hk, rfl⟩ := (mem_blockDefinitions hblock).mp hx
    have hinside : b.child 0 body ∈ d.walk := Document.child_mem_walk hb hbody
    exact ⟨rfl, Document.child_mem_walk hinside hn, hk, body, b.node, b.ancestors, rfl, hblock⟩
  · obtain ⟨document, l⟩ := x
    rintro ⟨rfl, hl, hk, body, block, above, hanc, hblock⟩
    -- a definition has two nodes around it, so it is no root, and neither is the value of its block
    rcases Document.root_or_child_of_mem_walk hl with ⟨n, i, -, rfl⟩ | ⟨p, hp, n, i, hn, rfl⟩
    · simp at hanc
    simp only [Located.child, List.cons.injEq] at hanc
    obtain ⟨rfl, hanc⟩ := hanc
    rcases Document.root_or_child_of_mem_walk hp with ⟨m, j, -, rfl⟩ | ⟨b, hb, m, j, hm, rfl⟩
    · simp at hanc
    simp only [Located.child, List.cons.injEq] at hanc
    obtain ⟨rfl, rfl⟩ := hanc
    have hblock : b.isTypesBlock := hblock
    have hj : j = 0 := by
      have hkey := Located.is_keyValue_of_isTypesBlock hblock
      cases hnode : b.node <;> simp_all [Node.is, Node.kind, Node.children, List.getElem?_cons]
    subst hj
    exact ⟨b, ⟨hb, hblock⟩, (mem_blockDefinitions hblock).mpr ⟨m, n, i, hm, hn, hk, rfl⟩⟩

lemma path_of_mem_blockDefinitions {d : Document} {b : Located} {x : Definition}
    (hx : x ∈ blockDefinitions d b) : x.located.path.tail.tail = b.path := by
  unfold blockDefinitions at hx
  split at hx
  · simp only [List.mem_map] at hx
    obtain ⟨⟨n, i⟩, -, rfl⟩ := hx
    rfl
  · simp at hx

lemma nodup_blockDefinitions_paths (d : Document) (b : Located) :
    ((blockDefinitions d b).map fun x => x.located.path).Nodup := by
  unfold blockDefinitions
  split
  next body _ =>
    rw [List.map_map]
    have hpairs := (Node.pairwise_zipIdx_ne body.children 0).filter fun x => x.1.is .keyValue
    exact List.pairwise_map.mpr (hpairs.imp fun hne heq => hne (List.cons.inj heq).1)
  · simp

/-- No two definitions of a document have the same way. -/
lemma nodup_ownDefinitions_paths (d : Document) :
    ((ownDefinitions d).map fun x => x.located.path).Nodup := by
  rw [ownDefinitions, List.map_flatMap, List.nodup_flatMap]
  refine ⟨fun b _ => nodup_blockDefinitions_paths d b, ?_⟩
  have hblocks := (List.pairwise_map.mp (Document.nodup_walk_paths d)).filter Located.isTypesBlock
  refine hblocks.imp fun {b b'} hne way hway hway' => hne ?_
  obtain ⟨x, hx, rfl⟩ := List.mem_map.mp hway
  obtain ⟨x', hx', hpath⟩ := List.mem_map.mp hway'
  rw [← path_of_mem_blockDefinitions hx, ← path_of_mem_blockDefinitions hx', hpath]

end Ksy

end KsyTools
