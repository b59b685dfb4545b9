/-
# The ways to blocks of definitions

Whether a key-value is a block of definitions is decided by going up, three nodes at a time: from
the block to the body that it is in, to the definition of this body, and to the block that holds the
definition.  Seen from the top, the way down to a block goes through mappings and key-values only,
and every second key-value on it has the key `types`, from the first one to the block itself.  The
keys between them are the names of the definitions around the block, which may be anything.
-/
import KsyTools.Proofs.Document.Kinds
import KsyTools.Proofs.Ksy.TypePaths

namespace KsyTools

/-! ## Ways from the top -/

namespace Node

variable {n : Node}

/-- A node is directly inside another one, as in regular trees: a key-value in a mapping, or
anything else in another node. -/
structure IsIn (c p : Node) : Prop where
  mem : c ∈ p.children
  kinds : c.is .keyValue ↔ p.is .mapping

/-- In a regular tree, one gets from a node to the root of the tree over the nodes around it. -/
lemma isChain_of_mem_walk {l : Located} : ∀ {ancestors : List Node} {path : List ℕ}, n.Regular →
    (n :: ancestors).IsChain IsIn → l ∈ n.walk ancestors path →
    (l.node :: l.ancestors).IsChain IsIn ∧
      (l.node :: l.ancestors).getLast? = (n :: ancestors).getLast? := by
  induction n using children_induction with
  | h n ih =>
    intro ancestors path regular chain hl
    rcases mem_walk.mp hl with rfl | ⟨c, i, hc, hl⟩
    · exact ⟨chain, rfl⟩
    · have inside := List.mem_of_getElem? hc
      obtain ⟨chain', last⟩ := ih c inside (regular.inside c inside)
        (.cons_cons ⟨inside, regular.kinds c inside⟩ chain) hl
      exact ⟨chain', last.trans List.getLast?_cons_cons⟩

end Node

namespace Document

variable {source : String} {file? : Option Path} {name? : Option String} {d : Document}

/-- From every node of a parsed document, one gets over the nodes around it to a root, which is no
key-value. -/
lemma isChain_of_mem_walk (h : Document.parse source file? name? = .ok d) {l : Located}
    (hl : l ∈ d.walk) : (l.node :: l.ancestors).IsChain Node.IsIn ∧
      ∃ root, (l.node :: l.ancestors).getLast? = some root ∧ ¬ root.is .keyValue := by
  obtain ⟨root, i, hroot, hl⟩ := mem_walk.mp hl
  obtain ⟨kind, regular⟩ := regular_of_mem_roots h (List.mem_of_getElem? hroot)
  obtain ⟨chain, last⟩ := Node.isChain_of_mem_walk regular (.singleton root) hl
  exact ⟨chain, root, last, kind⟩

/-- What is around a node of a document is a node of the document as well. -/
lemma parent_of_mem_walk {l : Located} {n : Node} {above : List Node} (hl : l ∈ d.walk)
    (hancestors : l.ancestors = n :: above) :
    ∃ p ∈ d.walk, p.Encloses l ∧ p.node = n ∧ p.ancestors = above := by
  rcases root_or_child_of_mem_walk hl with ⟨m, i, -, rfl⟩ | ⟨p, hp, c, i, hc, rfl⟩
  · cases hancestors
  · obtain ⟨rfl, rfl⟩ := List.cons.inj hancestors
    exact ⟨p, hp, ⟨i, c, hc, rfl⟩, rfl, rfl⟩

end Document

lemma Located.Encloses.ancestors_eq {outer inner : Located} (h : outer.Encloses inner) :
    inner.ancestors = outer.node :: outer.ancestors := by
  obtain ⟨i, n, -, rfl⟩ := h
  rfl

namespace Ksy

/-! ## Every second key -/

/-- Of some nodes, the first one, the third one, and so on to the last one have the key `types`. -/
def TypesAlternate : List Node → Prop
  | [] => False
  | [n] => n.hasKey typesKey
  | n :: _ :: rest => n.hasKey typesKey ∧ TypesAlternate rest

lemma typesAlternate_iff : ∀ {ns : List Node}, TypesAlternate ns ↔
    ∃ k, ns.length = 2 * k + 1 ∧ ∀ j ≤ k, ∃ n, ns[2 * j]? = some n ∧ n.hasKey typesKey
  | [] => by simp [TypesAlternate]
  | [n] => by
    rw [TypesAlternate]
    constructor
    · intro h
      refine ⟨0, rfl, fun j hj => ?_⟩
      obtain rfl := Nat.le_zero.mp hj
      exact ⟨n, rfl, h⟩
    · rintro ⟨k, -, h⟩
      obtain ⟨m, hm, hkey⟩ := h 0 (Nat.zero_le k)
      cases hm
      exact hkey
  | n :: m :: rest => by
    rw [TypesAlternate, @typesAlternate_iff rest]
    constructor
    · rintro ⟨hkey, k, hlength, h⟩
      refine ⟨k + 1, by simp only [List.length_cons]; omega, fun j hj => ?_⟩
      cases j with
      | zero => exact ⟨n, rfl, hkey⟩
      | succ j => exact h j (by omega)
    · rintro ⟨k, hlength, h⟩
      simp only [List.length_cons] at hlength
      obtain ⟨n', hn', hkey⟩ := h 0 (Nat.zero_le k)
      cases hn'
      refine ⟨hkey, k - 1, by omega, fun j hj => ?_⟩
      exact h (j + 1) (by omega)

/-- There is no difference in which direction one reads. -/
lemma typesAlternate_reverse {ns : List Node} :
    TypesAlternate ns.reverse ↔ TypesAlternate ns := by
  have back {ns : List Node} (h : TypesAlternate ns) : TypesAlternate ns.reverse := by
    obtain ⟨k, hlength, h⟩ := typesAlternate_iff.mp h
    refine typesAlternate_iff.mpr ⟨k, by rw [List.length_reverse, hlength], fun j hj => ?_⟩
    rw [List.getElem?_reverse (by omega)]
    have hindex : ns.length - 1 - 2 * j = 2 * (k - j) := by omega
    rw [hindex]
    exact h (k - j) (by omega)
  refine ⟨fun h => ?_, back⟩
  rw [← ns.reverse_reverse]
  exact back h

/-- A way to a block, as one sees it from its end: the nodes around the block are given nearest
first. -/
structure EndsTypesWayIn (n : Node) (ancestors : List Node) : Prop where
  value : ∃ v, n.value? = some v ∧ v.is .mapping
  top : ∃ root, (n :: ancestors).getLast? = some root ∧ root.is .mapping
  kinds : ∀ m ∈ n :: ancestors, m.is .mapping ∨ m.is .keyValue
  keys : TypesAlternate ((n :: ancestors).filter (·.is .keyValue))

end Ksy

namespace Located

variable {l : Located}

/-- The nodes on the way from the root of a tree down to a node, with both. -/
def way (l : Located) : List Node :=
  (l.node :: l.ancestors).reverse

/-- The key-values on the way down to a node. -/
def keys (l : Located) : List Node :=
  l.way.filter (·.is .keyValue)

/-- A node has a mapping as its value, and the way to it goes from a mapping at the root down
through mappings and key-values; the first one of these, the third one, and so on to the last one
have the key `types`. -/
structure EndsTypesWay (l : Located) : Prop where
  value : ∃ v, l.node.value? = some v ∧ v.is .mapping
  top : ∃ root, l.way.head? = some root ∧ root.is .mapping
  kinds : ∀ n ∈ l.way, n.is .mapping ∨ n.is .keyValue
  keys : ∃ k, l.keys.length = 2 * k + 1 ∧
    ∀ j ≤ k, ∃ n, l.keys[2 * j]? = some n ∧ n.hasKey Ksy.typesKey

lemma endsTypesWay_iff : l.EndsTypesWay ↔ Ksy.EndsTypesWayIn l.node l.ancestors := by
  have hkeys : (∃ k, l.keys.length = 2 * k + 1 ∧
      ∀ j ≤ k, ∃ n, l.keys[2 * j]? = some n ∧ n.hasKey Ksy.typesKey) ↔
      Ksy.TypesAlternate ((l.node :: l.ancestors).filter (·.is .keyValue)) := by
    rw [← Ksy.typesAlternate_iff, keys, way, List.filter_reverse,
      Ksy.typesAlternate_reverse]
  constructor
  · rintro ⟨value, top, kinds, keys⟩
    rw [way, List.head?_reverse] at top
    exact ⟨value, top, fun m hm => kinds m (List.mem_reverse.mpr hm), hkeys.mp keys⟩
  · rintro ⟨value, top, kinds, keys⟩
    refine ⟨value, ?_, fun m hm => kinds m (List.mem_reverse.mp hm), hkeys.mpr keys⟩
    rw [way, List.head?_reverse]
    exact top

end Located

namespace Ksy

variable {n parent owner container block : Node} {ancestors above : List Node}

/-- A way with one key-value. -/
lemma endsTypesWayIn_root (hn : n.is .keyValue) (hparent : parent.is .mapping) :
    EndsTypesWayIn n [parent] ↔ n.hasKey typesKey ∧ ∃ v, n.value? = some v ∧ v.is .mapping := by
  have hkeys : [n, parent].filter (·.is .keyValue) = [n] := by
    have hother : ¬ parent.is .keyValue := Node.not_is_of_is hparent (by decide)
    simp [hn, hother]
  constructor
  · rintro ⟨value, -, -, keys⟩
    rw [hkeys] at keys
    exact ⟨keys, value⟩
  · rintro ⟨hkey, value⟩
    refine ⟨value, ⟨parent, rfl, hparent⟩, by simp [hn, hparent], ?_⟩
    rw [hkeys]
    exact hkey

/-- A way that goes on from a block. -/
lemma endsTypesWayIn_step (hn : n.is .keyValue) (hparent : parent.is .mapping)
    (howner : owner.is .keyValue) (hcontainer : container.is .mapping)
    (hblock : block.value? = some container) :
    EndsTypesWayIn n (parent :: owner :: container :: block :: above) ↔
      (n.hasKey typesKey ∧ ∃ v, n.value? = some v ∧ v.is .mapping) ∧
        EndsTypesWayIn block above := by
  have hkeys : (n :: parent :: owner :: container :: block :: above).filter (·.is .keyValue) =
      n :: owner :: (block :: above).filter (·.is .keyValue) := by
    have hparent' : ¬ parent.is .keyValue := Node.not_is_of_is hparent (by decide)
    have hcontainer' : ¬ container.is .keyValue := Node.not_is_of_is hcontainer (by decide)
    simp [List.filter_cons, hn, howner, hparent', hcontainer']
  constructor
  · rintro ⟨value, top, kinds, keys⟩
    rw [hkeys, TypesAlternate] at keys
    simp only [List.getLast?_cons_cons] at top
    have hkinds : ∀ m ∈ block :: above, m.is .mapping ∨ m.is .keyValue :=
      fun m hm => kinds m (List.mem_append_right [n, parent, owner, container] hm)
    exact ⟨⟨keys.1, value⟩, ⟨container, hblock, hcontainer⟩, top, hkinds, keys.2⟩
  · rintro ⟨⟨hkey, value⟩, ⟨-, top, kinds, keys⟩⟩
    refine ⟨value, ?_, ?_, ?_⟩
    · simp only [List.getLast?_cons_cons]
      exact top
    · simpa [hn, hparent, howner, hcontainer] using kinds
    · rw [hkeys, TypesAlternate]
      exact ⟨hkey, keys⟩

/-- On the way up from a key-value, two nodes above it there is no mapping: the node between is one.
-/
lemma kinds_above (chain : (n :: parent :: owner :: above).IsChain Node.IsIn)
    (hn : n.is .keyValue) : parent.is .mapping ∧ ¬ owner.is .mapping := by
  obtain ⟨hin, chain⟩ := List.isChain_cons_cons.mp chain
  have hparent := hin.kinds.mp hn
  refine ⟨hparent, fun howner => ?_⟩
  exact Node.not_is_of_is hparent (by decide) ((List.isChain_cons_cons.mp chain).1.kinds.mpr howner)

/-- Going up from a key-value one finds that it is a block exactly if the way to it says so. -/
lemma isTypesBlockIn_iff : ∀ {n : Node} {ancestors : List Node},
    (n :: ancestors).IsChain Node.IsIn →
    (∃ root, (n :: ancestors).getLast? = some root ∧ ¬ root.is .keyValue) → n.is .keyValue →
    (isTypesBlockIn n ancestors ↔ EndsTypesWayIn n ancestors)
  | n, [], _, hroot, hn => by
    obtain ⟨_, ⟨⟩, hother⟩ := hroot
    exact absurd hn hother
  | n, [parent], chain, _, hn => by
    have hparent := (List.isChain_cons_cons.mp chain).1.kinds.mp hn
    rw [endsTypesWayIn_root hn hparent]
    simp [isTypesBlockIn, isTypeBodyIn, hparent, Option.any_eq_true]
  | n, [parent, owner], chain, _, hn => by
    refine iff_of_false (by simp [isTypesBlockIn, isTypeBodyIn]) fun h => ?_
    obtain ⟨_, ⟨⟩, hmapping⟩ := h.top
    exact (kinds_above chain hn).2 hmapping
  | n, [parent, owner, container], chain, _, hn => by
    obtain ⟨hparent, howner⟩ := kinds_above chain hn
    refine iff_of_false (by simp [isTypesBlockIn, isTypeBodyIn]) fun h => ?_
    -- the last key-value would be the second one
    obtain ⟨_, ⟨⟩, hcontainer⟩ := h.top
    have howner' : owner.is .keyValue := (h.kinds owner (by simp)).resolve_left howner
    have hother : ¬ parent.is .keyValue := Node.not_is_of_is hparent (by decide)
    have hother' : ¬ container.is .keyValue := Node.not_is_of_is hcontainer (by decide)
    simpa [List.filter_cons, hn, howner', hother, hother', TypesAlternate] using h.keys
  | n, parent :: owner :: container :: block :: above, chain, hroot, hn => by
    obtain ⟨hparent, hmapping⟩ := kinds_above chain hn
    have chain' := (List.isChain_cons_cons.mp (List.isChain_cons_cons.mp chain).2).2
    have up : isTypesBlockIn n (parent :: owner :: container :: block :: above) ↔
        (n.hasKey typesKey ∧ ∃ v, n.value? = some v ∧ v.is .mapping) ∧ owner.is .keyValue ∧
          isTypesBlockIn block above := by
      simp [isTypesBlockIn, isTypeBodyIn, hparent, Option.any_eq_true]
    rw [up]
    by_cases howner : owner.is .keyValue
    swap
    · refine iff_of_false (fun h => howner h.2.1) fun h => howner ?_
      exact (h.kinds owner (by simp)).resolve_left hmapping
    obtain ⟨hcontainer, hmapping'⟩ := kinds_above chain' howner
    by_cases hblock : block.is .keyValue
    swap
    · refine iff_of_false (fun h => hblock ?_) fun h => hblock ?_
      · exact Located.is_keyValue_of_isTypesBlock (l := ⟨block, above, []⟩) h.2.2
      · exact (h.kinds block (by simp)).resolve_left hmapping'
    obtain ⟨hin, chain''⟩ := List.isChain_cons_cons.mp (List.isChain_cons_cons.mp chain').2
    have hvalue := Node.value?_of_mem_children hblock hin.mem
    rw [endsTypesWayIn_step hn hparent howner hcontainer hvalue,
      isTypesBlockIn_iff chain'' (by simpa only [List.getLast?_cons_cons] using hroot) hblock]
    simp only [howner, true_and]

/-! ## Blocks and bodies of documents -/

variable {source : String} {file? : Option Path} {name? : Option String} {d : Document}

/-- The body of a type is at the top, or belongs to a definition in a block. -/
lemma isTypeBody_iff {m : Located} (hm : m ∈ d.walk) (hkind : m.node.is .mapping) :
    m.isTypeBody ↔ (m.node ∈ d.roots ∧ m.ancestors = []) ∨
      ∃ block ∈ d.walk, block.isTypesBlock ∧ ∃ definitions definition : Located,
        block.Encloses definitions ∧ definitions.Encloses definition ∧
        definition.node.is .keyValue ∧ definition.Encloses m := by
  constructor
  · intro hbody
    rw [Located.isTypeBody] at hbody
    match hancestors : m.ancestors, hbody with
    | [], _ =>
      rcases Document.root_or_child_of_mem_walk hm with ⟨n, i, hn, rfl⟩ | ⟨p, -, n, i, -, rfl⟩
      · exact .inl ⟨List.mem_of_getElem? hn, rfl⟩
      · cases hancestors
    | [_], hbody => simp [isTypeBodyIn] at hbody
    | [_, _], hbody => simp [isTypeBodyIn] at hbody
    | owner :: container :: outer :: above, hbody =>
      simp only [isTypeBodyIn, Bool.and_eq_true] at hbody
      obtain ⟨definition, hwalk, hinside, rfl, hup⟩ := Document.parent_of_mem_walk hm hancestors
      obtain ⟨definitions, hwalk', hdefinition, rfl, hup'⟩ :=
        Document.parent_of_mem_walk hwalk hup
      obtain ⟨block, hwalk'', hdefinitions, rfl, rfl⟩ := Document.parent_of_mem_walk hwalk' hup'
      exact .inr ⟨block, hwalk'', hbody.2, definitions, definition, hdefinitions, hdefinition,
        hbody.1.2, hinside⟩
  · rintro (⟨-, htop⟩ | ⟨block, -, hblock, definitions, definition, hdefinitions, hdefinition,
      hkey, hinside⟩)
    · rw [Located.isTypeBody, htop, isTypeBodyIn]
      exact hkind
    · rw [Located.isTypeBody, hinside.ancestors_eq, hdefinition.ancestors_eq,
        hdefinitions.ancestors_eq, isTypeBodyIn, hkind, hkey]
      exact hblock

/-- In a parsed document, a key-value is a block of definitions exactly if its value is a mapping
and the way to it, from a mapping at the top, goes through mappings and key-values only; of the
key-values the first one, the third one, and so on to the block itself have the key `types`.  A
mapping is the body of a type exactly if it is at the top, or the value of a key-value directly
inside the mapping of such a block. -/
theorem isTypesBlock_iff_way (h : Document.parse source file? name? = .ok d) :
    (∀ l ∈ d.walk, l.node.is .keyValue → (l.isTypesBlock ↔ l.EndsTypesWay)) ∧
      ∀ m ∈ d.walk, m.node.is .mapping → (m.isTypeBody ↔
        (m.node ∈ d.roots ∧ m.ancestors = []) ∨
          ∃ block ∈ d.walk, block.EndsTypesWay ∧ ∃ definitions definition : Located,
            block.Encloses definitions ∧ definitions.Encloses definition ∧
            definition.node.is .keyValue ∧ definition.Encloses m) := by
  have hblocks (l : Located) (hl : l ∈ d.walk) (hkind : l.node.is .keyValue) :
      l.isTypesBlock ↔ l.EndsTypesWay := by
    obtain ⟨chain, hroot⟩ := Document.isChain_of_mem_walk h hl
    rw [Located.endsTypesWay_iff]
    exact isTypesBlockIn_iff chain hroot hkind
  refine ⟨hblocks, fun m hm hkind => (isTypeBody_iff hm hkind).trans (or_congr_right ?_)⟩
  refine exists_congr fun block => and_congr_right fun hblock => and_congr_left fun _ => ?_
  constructor
  · intro htypes
    exact (hblocks block hblock (Located.is_keyValue_of_isTypesBlock htypes)).mp htypes
  · intro hway
    obtain ⟨v, hv, -⟩ := hway.value
    exact (hblocks block hblock (Node.value?_eq_some_iff.mp hv).1).mpr hway

/-- A definition that is called `types` itself, with a block inside. -/
theorem isTypesBlock_iff_way_types :
    ∃ d, Document.parse "types:\n  types:\n    types: \x7b\x7d\n" none none = .ok d ∧
      ∃ l ∈ d.walk, l.node.is .keyValue ∧ l.EndsTypesWay ∧
        l.keys.map Node.text = ["types", "types", "types"] := by
  have hblock : (Document.parse "types:\n  types:\n    types: \x7b\x7d\n" none none).toOption.map
      (fun d => d.walk.any fun l =>
        l.isTypesBlock && l.keys.map Node.text == ["types", "types", "types"]) = some true := by
    decide +kernel
  obtain ⟨d, hparse, hany⟩ := exists_ok_of_toOption hblock
  obtain ⟨l, hl, hboth⟩ := List.any_eq_true.mp hany
  rw [Bool.and_eq_true, beq_iff_eq] at hboth
  have hkind := Located.is_keyValue_of_isTypesBlock hboth.1
  exact ⟨d, hparse, l, hl, hkind, ((isTypesBlock_iff_way hparse).1 l hl hkind).mp hboth.1, hboth.2⟩

end Ksy

end KsyTools
