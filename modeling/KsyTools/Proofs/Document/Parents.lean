/-
# Nodes and their parents

While a document is read, its nodes are made from the inside to the outside, and the index of
parents is filled on the way.  Nodes that were made get numbers of their own, and the index tells of
each node inside them what it is inside of, whatever was written down before and is written down
later.  So at the end the walk over the tree, the index, and the trees of the document tell the same
story.
-/
import KsyTools.Document.Tree
import KsyTools.Proofs.Document.Kinds
import Mathlib.Data.List.Chain
import Mathlib.Data.List.Perm.Basic

namespace KsyTools

open Yaml (Graph GraphNode NodeId freeCount freeCount_cons_lt)

namespace BuiltNode

variable {n p c : BuiltNode} {ns ms : List BuiltNode}

/-- What holds of a node whenever it holds of its children holds of all nodes. -/
theorem children_induction {P : BuiltNode → Prop}
    (h : ∀ n : BuiltNode, (∀ c ∈ n.children, P c) → P n) (n : BuiltNode) : P n :=
  h n fun c hc =>
    have : sizeOf c < sizeOf n := by
      cases n with
      | mk number node children =>
        have := List.sizeOf_lt_of_mem (show c ∈ children from hc)
        simp only [mk.sizeOf_spec]
        omega
    children_induction h c
  termination_by sizeOf n

@[simp] lemma preorderAll_nil : preorderAll [] = [] := by
  rw [preorderAll]

@[simp] lemma preorderAll_cons (n : BuiltNode) (ns : List BuiltNode) :
    preorderAll (n :: ns) = n :: (preorderAll n.children ++ preorderAll ns) := by
  rw [preorderAll, preorder_eq_cons, List.cons_append]

@[simp] lemma preorderAll_append (ns ms : List BuiltNode) :
    preorderAll (ns ++ ms) = preorderAll ns ++ preorderAll ms := by
  simp only [preorderAll_eq_flatMap, List.flatMap_append]

lemma perm_of_trees
    (h : ∀ n ∈ ns, (preorder n).Perm (n :: (preorder n).flatMap children)) :
    (preorderAll ns).Perm (ns ++ (preorderAll ns).flatMap children) := by
  rw [preorderAll_eq_flatMap, List.flatMap_assoc]
  refine (List.Perm.flatMap_left ns h).trans ?_
  simpa using (List.flatMap_append_perm ns (fun n => [n]) _).symm

/-- The nodes of trees are the roots, and everything that is directly inside one of the nodes. -/
lemma preorderAll_perm (ns : List BuiltNode) :
    (preorderAll ns).Perm (ns ++ (preorderAll ns).flatMap children) := by
  have tree (n : BuiltNode) : (preorder n).Perm (n :: (preorder n).flatMap children) := by
    induction n using children_induction with
    | h n ih =>
      rw [preorder_eq_cons, List.flatMap_cons]
      exact (perm_of_trees ih).cons n
  exact perm_of_trees fun n _ => tree n

lemma mem_preorderAll_of_mem (h : n ∈ ns) : n ∈ preorderAll ns :=
  (preorderAll_perm ns).mem_iff.mpr (List.mem_append_left _ h)

lemma mem_preorderAll_of_mem_children (hp : p ∈ preorderAll ns) (hc : c ∈ p.children) :
    c ∈ preorderAll ns :=
  (preorderAll_perm ns).mem_iff.mpr
    (List.mem_append_right _ (List.mem_flatMap.mpr ⟨p, hp, hc⟩))

lemma mem_or_mem_children (h : n ∈ preorderAll ns) :
    n ∈ ns ∨ ∃ p ∈ preorderAll ns, n ∈ p.children := by
  simpa using (preorderAll_perm ns).mem_iff.mp h

/-- What holds of the roots, and of everything inside a node it holds of, holds of all nodes. -/
theorem preorderAll_induction {P : BuiltNode → Prop} (roots : ∀ n ∈ ns, P n)
    (step : ∀ p ∈ preorderAll ns, P p → ∀ c ∈ p.children, P c) : ∀ n ∈ preorderAll ns, P n := by
  have down (n : BuiltNode) : n ∈ preorderAll ns → P n → ∀ m ∈ preorder n, P m := by
    induction n using children_induction with
    | h n ih =>
      intro hn hP m hm
      rw [preorder_eq_cons, preorderAll_eq_flatMap] at hm
      rcases List.mem_cons.mp hm with rfl | hm
      · exact hP
      · obtain ⟨c, hc, hm⟩ := List.mem_flatMap.mp hm
        exact ih c hc (mem_preorderAll_of_mem_children hn hc) (step n hn hP c hc) m hm
  intro m hm
  rw [preorderAll_eq_flatMap] at hm
  obtain ⟨n, hn, hm⟩ := List.mem_flatMap.mp hm
  exact down n (mem_preorderAll_of_mem hn) (roots n hn) m hm

/-- A walk with a stack takes the nodes in pre-order. -/
lemma walkStack_eq (stack : List BuiltNode) : walkStack stack = preorderAll stack.reverse := by
  induction stack using walkStack.induct with
  | case1 =>
    rw [walkStack]
    rfl
  | case2 stack h n ih =>
    have split : stack.reverse = n :: stack.dropLast.reverse := by
      conv => lhs; rw [← List.dropLast_concat_getLast h]
      rw [List.reverse_append]
      rfl
    rw [walkStack, dif_neg h, split, preorderAll_cons]
    change n :: walkStack (stack.dropLast ++ n.children.reverse) = _
    rw [ih, List.reverse_append, List.reverse_reverse, preorderAll_append]

end BuiltNode

/-! ## The index of parents -/

open BuiltNode (number children preorderAll preorderAll_append preorderAll_cons preorderAll_nil
  preorderAll_perm mem_preorderAll_of_mem mem_preorderAll_of_mem_children)

variable {ns ms : List BuiltNode} {i j k : ParentIndex} {p c r : BuiltNode}

/-- Where the nodes of trees have different numbers, none directly inside another one has the number
of a root. -/
lemma BuiltNode.number_ne_of_mem_children (distinct : ((preorderAll ns).map number).Nodup)
    (hr : r ∈ ns) (hp : p ∈ preorderAll ns) (hc : c ∈ p.children) : c.number ≠ r.number := by
  have apart := ((preorderAll_perm ns).map number).nodup_iff.mp distinct
  rw [List.map_append, List.nodup_append] at apart
  have inside : c.number ∈ ((preorderAll ns).flatMap children).map number :=
    List.mem_map_of_mem (List.mem_flatMap.mpr ⟨p, hp, hc⟩)
  exact (apart.2.2 _ (List.mem_map_of_mem hr) _ inside).symm

namespace ParentIndex

/-- After a node is written down as the parent of those inside it, it is their parent, and all
others have theirs. -/
lemma lookup_adopt (i : ParentIndex) (p : BuiltNode) (m : ℕ) : (i.adopt p).parents.lookup m =
    if m ∈ p.children.map number then some p else i.parents.lookup m := by
  unfold adopt
  generalize p.children = cs
  induction cs generalizing i with
  | nil => rfl
  | cons c rest ih =>
    rw [List.foldl_cons, ih, List.map_cons]
    by_cases hrest : m ∈ rest.map number
    · simp [hrest]
    · by_cases hm : m = c.number
      · simp [hm, register, Keyed.lookup_set_self]
      · simp [hrest, hm, register, Keyed.lookup_set_of_ne hm]

@[simp] lemma next_adopt (i : ParentIndex) (p : BuiltNode) : (i.adopt p).next = i.next := by
  unfold adopt
  generalize p.children = cs
  induction cs generalizing i with
  | nil => rfl
  | cons c rest ih => exact ih (i.register p c)

/-- Between two states of the index, the nodes of some trees were made: they have the numbers that
were free, everything inside them was written down with what it is directly inside of, and nothing
else was. -/
structure Grows (i : ParentIndex) (ns : List BuiltNode) (j : ParentIndex) : Prop where
  next_eq : j.next = i.next + (preorderAll ns).length
  numbers : ((preorderAll ns).map number).Perm (List.range' i.next (preorderAll ns).length)
  inside : ∀ p ∈ preorderAll ns, ∀ c ∈ p.children, j.parents.lookup c.number = some p
  other : ∀ m, (∀ p ∈ preorderAll ns, ∀ c ∈ p.children, c.number ≠ m) →
    j.parents.lookup m = i.parents.lookup m

lemma Grows.distinct (h : i.Grows ns j) : ((preorderAll ns).map number).Nodup :=
  h.numbers.nodup_iff.mpr List.nodup_range'

lemma Grows.number_mem (h : i.Grows ns j) (hp : p ∈ preorderAll ns) :
    i.next ≤ p.number ∧ p.number < j.next := by
  have free := h.numbers.mem_iff.mp (List.mem_map_of_mem hp)
  rw [h.next_eq]
  exact List.mem_range'_1.mp free

lemma grows_nil (i : ParentIndex) : i.Grows [] i where
  next_eq := by simp
  numbers := by simp
  inside := by simp
  other _ _ := rfl

/-- Trees that are made one after the other. -/
lemma Grows.append (h : i.Grows ns j) (h' : j.Grows ms k) : i.Grows (ns ++ ms) k where
  next_eq := by
    rw [h'.next_eq, h.next_eq, preorderAll_append, List.length_append]
    omega
  numbers := by
    have both := h.numbers.append h'.numbers
    rwa [h.next_eq, List.range'_append_1, ← List.map_append, ← preorderAll_append,
      ← List.length_append, ← preorderAll_append] at both
  inside p hp c hc := by
    rw [preorderAll_append] at hp
    rcases List.mem_append.mp hp with hp | hp
    · -- what was written down later is about other nodes, as their numbers are greater
      rw [h'.other c.number fun q hq e he => ?_]
      · exact h.inside p hp c hc
      · have := (h.number_mem (mem_preorderAll_of_mem_children hp hc)).2
        have := (h'.number_mem (mem_preorderAll_of_mem_children hq he)).1
        omega
    · exact h'.inside p hp c hc
  other m hm := by
    rw [preorderAll_append] at hm
    rw [h'.other m fun p hp => hm p (List.mem_append_right _ hp),
      h.other m fun p hp => hm p (List.mem_append_left _ hp)]

/-- A node that is made, with a free number, around others. -/
lemma Grows.adopt {start stop : ParentIndex} (h : i.Grows p.children j)
    (before : start.parents = i.parents) (after : stop.parents = j.parents)
    (next : stop.next = start.next + ((preorderAll p.children).length + 1))
    (numbers : (p.number :: (preorderAll p.children).map number).Perm
      (List.range' start.next ((preorderAll p.children).length + 1))) :
    start.Grows [p] (stop.adopt p) := by
  have nodes : preorderAll [p] = p :: preorderAll p.children := by simp
  refine ⟨?_, ?_, fun q hq c hc => ?_, fun m hm => ?_⟩
  · rw [next_adopt, nodes, next, List.length_cons]
  · rw [nodes, List.map_cons, List.length_cons]
    exact numbers
  · rw [lookup_adopt, after]
    rw [nodes] at hq
    rcases List.mem_cons.mp hq with rfl | hq
    · rw [if_pos (List.mem_map_of_mem hc)]
    · -- what is deeper inside stays where it is
      have outside : c.number ∉ p.children.map number := by
        intro hnumber
        obtain ⟨r, hr, heq⟩ := List.mem_map.mp hnumber
        exact BuiltNode.number_ne_of_mem_children h.distinct hr hq hc heq.symm
      rw [if_neg outside]
      exact h.inside q hq c hc
  · rw [nodes] at hm
    have outside : m ∉ p.children.map number := by
      intro hnumber
      obtain ⟨c, hc, heq⟩ := List.mem_map.mp hnumber
      exact hm p List.mem_cons_self c hc heq
    rw [lookup_adopt, if_neg outside, after, before]
    exact h.other m fun q hq => hm q (List.mem_cons_of_mem _ hq)

/-- A node whose number was taken before those of the nodes inside it. -/
lemma Grows.around (h : ParentIndex.Grows ⟨i.next + 1, i.parents⟩ ns j) (n : Node) :
    i.Grows [.mk i.next n ns] (j.adopt (.mk i.next n ns)) := by
  refine h.adopt (p := .mk i.next n ns) rfl rfl ?_ ?_
  · rw [h.next_eq]
    simp only [BuiltNode.children]
    omega
  · rw [List.range'_succ]
    exact h.numbers.cons _

/-- A node whose number was taken after those of the nodes inside it. -/
lemma Grows.behind (h : i.Grows ns j) (n : Node) :
    i.Grows [.mk j.next n ns]
      (ParentIndex.adopt ⟨j.next + 1, j.parents⟩ (.mk j.next n ns)) := by
  refine h.adopt (p := .mk j.next n ns) rfl rfl ?_ ?_
  · rw [h.next_eq]
    rfl
  · rw [List.range'_concat, Nat.one_mul]
    have last : (BuiltNode.mk j.next n ns).number = i.next + (preorderAll ns).length := h.next_eq
    rw [last]
    exact (h.numbers.cons _).trans (List.perm_append_singleton _ _).symm

end ParentIndex

/-! ## Making nodes -/

namespace BuiltNode

/-- Nodes that were made are some trees: the roots are theirs, and inside each node is what is
inside the node of the tree. -/
structure Shows (bs : List BuiltNode) (trees : List Node) : Prop where
  nodes : bs.map node = trees
  inside : ∀ b ∈ preorderAll bs, b.children.map node = b.node.children

variable {bs bs' : List BuiltNode} {trees trees' : List Node}

lemma shows_nil : Shows [] [] :=
  ⟨rfl, by simp⟩

lemma Shows.append (h : Shows bs trees) (h' : Shows bs' trees') :
    Shows (bs ++ bs') (trees ++ trees') := by
  refine ⟨by rw [List.map_append, h.nodes, h'.nodes], fun b hb => ?_⟩
  rw [preorderAll_append] at hb
  rcases List.mem_append.mp hb with hb | hb
  · exact h.inside b hb
  · exact h'.inside b hb

/-- A node around others that are the trees inside it. -/
lemma Shows.around {n : Node} (h : Shows bs n.children) (number : ℕ) :
    Shows [.mk number n bs] [n] := by
  refine ⟨rfl, fun b hb => ?_⟩
  simp only [preorderAll_cons, preorderAll_nil, List.append_nil, List.mem_cons] at hb
  rcases hb with rfl | hb
  · exact h.nodes
  · exact h.inside b hb

end BuiltNode

namespace Build

open BuiltNode (Shows)

variable {n : Node} {trees : List Node} {w : Build BuiltNode} {g : Graph} {placeAt : ℕ → Position}

/-- A computation makes a tree, whatever was made before. -/
def Makes (w : Build BuiltNode) (n : Node) : Prop :=
  ∀ i : ParentIndex, i.Grows [(w.run i).1] (w.run i).2 ∧ Shows [(w.run i).1] [n]

/-- A computation makes trees. -/
def MakesAll (w : Build (List BuiltNode)) (trees : List Node) : Prop :=
  ∀ i : ParentIndex, i.Grows (w.run i).1 (w.run i).2 ∧ Shows (w.run i).1 trees

lemma makes_leaf (h : n.children = []) : Makes (leaf n) n := by
  intro i
  have shows : Shows [] n.children := h ▸ BuiltNode.shows_nil
  exact ⟨(ParentIndex.grows_nil ⟨i.next + 1, i.parents⟩).around n, shows.around i.next⟩

lemma Makes.pair (h : Makes w n) (key : GraphNode) :
    Makes (w >>= pair placeAt key) (Node.ofPair placeAt key n) := by
  intro i
  obtain ⟨grows, shows⟩ := h i
  obtain ⟨same, -⟩ := List.cons.inj shows.nodes
  have run : (w >>= Build.pair placeAt key).run i =
      (.mk (w.run i).2.next (Node.ofPair placeAt key n) [(w.run i).1],
        ParentIndex.adopt ⟨(w.run i).2.next + 1, (w.run i).2.parents⟩
          (.mk (w.run i).2.next (Node.ofPair placeAt key n) [(w.run i).1])) := by
    rw [← same]
    rfl
  rw [run]
  exact ⟨grows.behind _, shows.around (n := Node.ofPair placeAt key n) _⟩

lemma MakesAll.around {inside : Build (List BuiltNode)} (h : MakesAll inside trees)
    {outer : List Node → Node} (houter : (outer trees).children = trees) :
    Makes (around inside outer) (outer trees) := by
  intro i
  obtain ⟨grows, shows⟩ := h ⟨i.next + 1, i.parents⟩
  have run : (Build.around inside outer).run i =
      (.mk i.next (outer trees) (inside.run ⟨i.next + 1, i.parents⟩).1,
        (inside.run ⟨i.next + 1, i.parents⟩).2.adopt
          (.mk i.next (outer trees) (inside.run ⟨i.next + 1, i.parents⟩).1)) := by
    rw [← shows.nodes]
    rfl
  rw [run]
  exact ⟨grows.around _, (houter.symm ▸ shows : Shows _ (outer trees).children).around _⟩

/-- Trees that are made one after the other. -/
lemma makesAll_mapM {α : Type} {make : α → Build BuiltNode} {tree : α → Node} {as : List α}
    (h : ∀ a ∈ as, Makes (make a) (tree a)) : MakesAll (as.mapM make) (as.map tree) := by
  induction as with
  | nil => exact fun i => ⟨ParentIndex.grows_nil i, BuiltNode.shows_nil⟩
  | cons a rest ih =>
    intro i
    obtain ⟨grows, shows⟩ := h a List.mem_cons_self i
    obtain ⟨grows', shows'⟩ :=
      ih (fun b hb => h b (List.mem_cons_of_mem _ hb)) ((make a).run i).2
    rw [List.mapM_cons]
    exact ⟨grows.append grows', shows.append shows'⟩

/-- What is made for a node of a graph is the tree below it. -/
lemma makes_ofGraph (active : List NodeId) (id : NodeId) :
    Makes (ofGraph g placeAt active id) (Node.ofGraph g placeAt active id) := by
  rw [ofGraph, Node.ofGraph]
  by_cases inside : id < g.nodes.size
  · rw [dif_pos inside, dif_pos inside]
    by_cases again : id ∈ active
    · simp only [dif_pos again]
      exact makes_leaf rfl
    · have smaller : freeCount g.nodes.size (id :: active) < freeCount g.nodes.size active :=
        freeCount_cons_lt inside again
      simp only [dif_neg again]
      cases g.nodes[id].content with
      | scalar text => exact makes_leaf rfl
      | sequence items =>
        exact (makesAll_mapM fun i _ => makes_ofGraph (id :: active) i).around rfl
      | mapping pairs =>
        exact (makesAll_mapM fun p _ => (makes_ofGraph (id :: active) p.2).pair _).around rfl
  · rw [dif_neg inside, dif_neg inside]
    exact makes_leaf rfl
  termination_by freeCount g.nodes.size active

end Build

/-! ## Trees of documents -/

namespace DocumentTree

open BuiltNode (Shows preorderAll_induction)

variable {t : DocumentTree} {n p c : BuiltNode} {way way' : List BuiltNode} {trees : List Node}

/-- Going from parent to parent, one meets the same nodes each time. -/
lemma Climbs.unique (h : t.Climbs n way) (h' : t.Climbs n way') : way = way' := by
  induction h generalizing way' with
  | top root =>
    cases h' with
    | top _ => rfl
    | up parent _ =>
      rw [root] at parent
      cases parent
  | up parent _ ih =>
    cases h' with
    | top root =>
      rw [root] at parent
      cases parent
    | up parent' further' =>
      rw [parent] at parent'
      cases parent'
      rw [ih further']

/-- The walk over a tree, its index of parents and the kinds of its nodes fit together. -/
structure Consistent (t : DocumentTree) : Prop where
  /-- The walk is in pre-order. -/
  walk_eq : t.walk = preorderAll t.roots
  once : (t.walk.map number).Nodup
  parent : ∀ n ∈ t.walk, ∀ p, t.parent? n = some p ↔ p ∈ t.walk ∧ n ∈ p.children
  top : ∀ n ∈ t.walk, t.parent? n = none ↔ n ∈ t.roots
  /-- Going from parent to parent ends, at a root. -/
  ancestors : ∀ n ∈ t.walk, ∃ way, (∀ way', t.Climbs n way' ↔ way' = way) ∧
    (n :: way).IsChain (fun c p => c ∈ p.children) ∧
    ∃ root ∈ t.roots, (n :: way).getLast? = some root
  value : ∀ n ∈ t.walk, n.node.is .keyValue →
    ∃ v, n.children = [v] ∧ n.node.value? = some v.node
  kinds : ∀ n ∈ t.walk, ∀ c ∈ n.children, c.node.is .keyValue → n.node.is .mapping

lemma walk_eq_preorderAll (t : DocumentTree) : t.walk = preorderAll t.roots := by
  rw [walk, BuiltNode.walkStack_eq, List.reverse_reverse]

/-- The nodes of a tree were made one after the other, starting with none. -/
def IsMade (t : DocumentTree) : Prop :=
  ParentIndex.empty.Grows t.roots t.index

namespace IsMade

variable (h : t.IsMade)
include h

lemma parent?_of_mem_children (hp : p ∈ preorderAll t.roots) (hc : c ∈ p.children) :
    t.parent? c = some p :=
  h.inside p hp c hc

lemma parent?_of_mem_roots (hn : n ∈ t.roots) : t.parent? n = none :=
  h.other n.number fun _ hp _ hc => BuiltNode.number_ne_of_mem_children h.distinct hn hp hc

lemma parent?_eq_some_iff (hn : n ∈ preorderAll t.roots) :
    t.parent? n = some p ↔ p ∈ preorderAll t.roots ∧ n ∈ p.children := by
  constructor
  · intro hparent
    rcases BuiltNode.mem_or_mem_children hn with hroot | ⟨q, hq, hinside⟩
    · rw [h.parent?_of_mem_roots hroot] at hparent
      cases hparent
    · rw [h.parent?_of_mem_children hq hinside] at hparent
      cases hparent
      exact ⟨hq, hinside⟩
  · rintro ⟨hp, hinside⟩
    exact h.parent?_of_mem_children hp hinside

lemma parent?_eq_none_iff (hn : n ∈ preorderAll t.roots) : t.parent? n = none ↔ n ∈ t.roots := by
  refine ⟨fun hparent => ?_, h.parent?_of_mem_roots⟩
  rcases BuiltNode.mem_or_mem_children hn with hroot | ⟨q, hq, hinside⟩
  · exact hroot
  · rw [h.parent?_of_mem_children hq hinside] at hparent
    cases hparent

/-- From every node one comes to a root. -/
lemma exists_climbs : ∀ n ∈ preorderAll t.roots, ∃ way, t.Climbs n way ∧
    (n :: way).IsChain (fun c p => c ∈ p.children) ∧
    ∃ root ∈ t.roots, (n :: way).getLast? = some root := by
  refine preorderAll_induction (fun n hn => ?_) fun p hp further c hc => ?_
  · exact ⟨[], .top (h.parent?_of_mem_roots hn), .singleton n, n, hn, rfl⟩
  · obtain ⟨way, climbs, chain, root, hroot, last⟩ := further
    have hparent := h.parent?_of_mem_children hp hc
    refine ⟨p :: way, .up hparent climbs, .cons_cons hc chain, root, hroot, ?_⟩
    rw [List.getLast?_cons_cons]
    exact last

end IsMade

/-- Regular trees have regular nodes only. -/
lemma regular_of_shows {bs : List BuiltNode} (shows : Shows bs trees)
    (regular : ∀ n ∈ trees, n.Regular) : ∀ b ∈ preorderAll bs, b.node.Regular := by
  refine preorderAll_induction (fun b hb => ?_) fun p hp hregular c hc => ?_
  · exact regular b.node (shows.nodes ▸ List.mem_map_of_mem hb)
  · exact hregular.inside c.node (shows.inside p hp ▸ List.mem_map_of_mem hc)

lemma consistent (h : t.IsMade) (shows : Shows t.roots trees)
    (regular : ∀ n ∈ trees, n.Regular) : t.Consistent := by
  have hregular := regular_of_shows shows regular
  constructor
  case walk_eq => exact t.walk_eq_preorderAll
  all_goals rw [walk_eq_preorderAll]
  case once => exact h.distinct
  case parent => exact fun n hn p => h.parent?_eq_some_iff hn
  case top => exact fun n hn => h.parent?_eq_none_iff hn
  case ancestors =>
    intro n hn
    obtain ⟨way, climbs, path⟩ := h.exists_climbs n hn
    refine ⟨way, fun way' => ⟨fun climbs' => climbs'.unique climbs, ?_⟩, path⟩
    rintro rfl
    exact climbs
  case value =>
    intro n hn hkind
    obtain ⟨value, hchildren, hvalue⟩ := Node.exists_value_of_is_keyValue hkind
    rw [← shows.inside n hn, List.map_eq_singleton_iff] at hchildren
    obtain ⟨v, hv, rfl⟩ := hchildren
    exact ⟨v, hv, hvalue⟩
  case kinds =>
    intro n hn c hc hkind
    have hchild : c.node ∈ n.node.children := shows.inside n hn ▸ List.mem_map_of_mem hc
    exact ((hregular n hn).kinds c.node hchild).mp hkind

/-- A node that was made is a located node: it is the same, and what is around it is met on the way
from parent to parent. -/
def Locates (t : DocumentTree) (n : BuiltNode) (l : Located) : Prop :=
  n.node = l.node ∧ ∃ way, t.Climbs n way ∧ way.map BuiltNode.node = l.ancestors

lemma locates_siblings {ancestors : List Node} {path : List ℕ} {bs : List BuiltNode}
    (h : ∀ b ∈ bs, ∀ i, List.Forall₂ t.Locates b.preorder (b.node.walk ancestors (i :: path)))
    (index : ℕ) : List.Forall₂ t.Locates (preorderAll bs)
      (Node.walkAll ancestors path index (bs.map BuiltNode.node)) := by
  induction bs generalizing index with
  | nil =>
    rw [preorderAll_nil]
    exact .nil
  | cons b rest ih =>
    rw [BuiltNode.preorderAll, List.map_cons, Node.walkAll]
    refine List.rel_append (h b List.mem_cons_self index) ?_
    exact ih (fun c hc => h c (List.mem_cons_of_mem _ hc)) (index + 1)

lemma locates_tree (h : t.IsMade) (shows : Shows t.roots trees) (n : BuiltNode) :
    ∀ {way ancestors path}, n ∈ preorderAll t.roots → t.Climbs n way →
      way.map BuiltNode.node = ancestors →
      List.Forall₂ t.Locates n.preorder (n.node.walk ancestors path) := by
  induction n using BuiltNode.children_induction with
  | h n ih =>
    intro way ancestors path hn climbs hway
    rw [BuiltNode.preorder_eq_cons, Node.walk_eq_cons, ← Node.walkAll_eq_flatMap,
      ← shows.inside n hn]
    refine .cons ⟨rfl, way, climbs, hway⟩ (locates_siblings (fun c hc i => ?_) 0)
    refine ih c hc (mem_preorderAll_of_mem_children hn hc)
      (.up (h.parent?_of_mem_children hn hc) climbs) ?_
    rw [List.map_cons, hway]

end DocumentTree

namespace Document

open DocumentTree (IsMade)

variable {source : String} {file? : Option Path} {name? : Option String} {d : Document}

/-- The nodes of a parsed document were made one after the other, and they are its trees. -/
lemma tree_isMade (h : Document.parse source file? name? = .ok d) :
    d.tree.IsMade ∧ BuiltNode.Shows d.tree.roots d.roots := by
  have hcontents := gives_contents source.toList
  unfold Document.parse at h
  generalize contents source.toList = result at h hcontents
  cases result with
  | ok r =>
    obtain ⟨g, hgraph, hroots, -⟩ := hcontents
    cases h
    have htree : Document.tree { empty source file? name? with roots := r.1, data := r.2 } =
        .ofGraph g (Yaml.positionAt source.toList) := by
      simp only [Document.tree, empty, chars, hgraph]
    rw [htree]
    simp only [hroots]
    exact Build.makesAll_mapM (fun id _ => Build.makes_ofGraph [] id) .empty
  | error e =>
    have nothing : DocumentTree.empty.IsMade ∧ BuiltNode.Shows DocumentTree.empty.roots [] :=
      ⟨ParentIndex.grows_nil .empty, BuiltNode.shows_nil⟩
    cases e <;> cases h <;> exact nothing

/-- In every parsed document, the walk with a stack meets each node once, in pre-order, and the
index that was filled while the nodes were made gives each of them the one node that it is directly
inside of, and the roots none; so from each node one comes to its root.  The only child of a
key-value is its value, and only mappings have key-values as children.

The nodes are those of the trees of the document, and what is met on the way up from the nodes of
the walk are the ancestors that the document itself lists for them. -/
theorem tree_consistent (h : Document.parse source file? name? = .ok d) :
    d.tree.Consistent ∧ BuiltNode.Shows d.tree.roots d.roots ∧
      List.Forall₂ d.tree.Locates d.tree.walk d.walk := by
  obtain ⟨made, shows⟩ := tree_isMade h
  refine ⟨DocumentTree.consistent made shows fun n hn => (regular_of_mem_roots h hn).2, shows, ?_⟩
  rw [DocumentTree.walk_eq_preorderAll, Document.walk, ← shows.nodes]
  refine DocumentTree.locates_siblings (fun n hn i => ?_) 0
  exact DocumentTree.locates_tree made shows n (mem_preorderAll_of_mem hn)
    (.top (made.parent?_of_mem_roots hn)) rfl

/-- Two roots; in the first one, a list that contains itself is used twice. -/
theorem tree_consistent_recursive :
    ∃ d, Document.parse "- &a [*a]\n- k: *a\n---\nx: 1\n" none none = .ok d ∧
      d.tree.walk.map (fun n => (n.number, (d.tree.parent? n).map BuiltNode.number)) =
        [(0, none), (1, some 0), (2, some 1), (3, some 0), (6, some 3), (4, some 6), (5, some 4),
          (7, none), (9, some 7), (8, some 9)] ∧
      d.tree.Consistent := by
  have hwalk : (Document.parse "- &a [*a]\n- k: *a\n---\nx: 1\n" none none).toOption.map
      (fun d => d.tree.walk.map
        fun n => (n.number, (d.tree.parent? n).map BuiltNode.number)) =
      some [(0, none), (1, some 0), (2, some 1), (3, some 0), (6, some 3), (4, some 6),
        (5, some 4), (7, none), (9, some 7), (8, some 9)] := by
    decide +kernel
  obtain ⟨d, hparse, hnumbers⟩ := exists_ok_of_toOption hwalk
  exact ⟨d, hparse, hnumbers, (tree_consistent hparse).1⟩

end Document

end KsyTools
