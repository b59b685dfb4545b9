/-
# The nodes of a document

`Document.walk` lists the nodes of a document with their ways.  A located node is in the list
exactly if it can be reached from a root by going to children, and no two entries have the same way.
-/
import KsyTools.Document.Basic
import Mathlib.Data.List.Nodup
import Mathlib.Tactic.Common

namespace KsyTools

namespace Node

/-- What holds of a node whenever it holds of its children holds of all nodes. -/
theorem children_induction {P : Node → Prop} (h : ∀ n : Node, (∀ c ∈ n.children, P c) → P n)
    (n : Node) : P n :=
  h n fun c hc =>
    have : sizeOf c < sizeOf n := by
      cases n with
      | scalar => simp [children] at hc
      | sequence range place items =>
        have := List.sizeOf_lt_of_mem (show c ∈ items from hc)
        simp only [sequence.sizeOf_spec]
        omega
      | mapping range place pairs =>
        have := List.sizeOf_lt_of_mem (show c ∈ pairs from hc)
        simp only [mapping.sizeOf_spec]
        omega
      | keyValue range place key keyRange value =>
        obtain rfl : c = value := by simpa [children] using hc
        simp only [keyValue.sizeOf_spec]
        omega
    children_induction h c
  termination_by sizeOf n

lemma walkAll_eq_flatMap (ancestors : List Node) (path : List ℕ) (index : ℕ) (ns : List Node) :
    walkAll ancestors path index ns =
      (ns.zipIdx index).flatMap fun x => x.1.walk ancestors (x.2 :: path) := by
  induction ns generalizing index with
  | nil => simp [walkAll]
  | cons n rest ih => simp [walkAll, ih]

/-- The nodes of a tree are its root and the nodes of the trees of its children. -/
lemma walk_eq_cons (ancestors : List Node) (path : List ℕ) (n : Node) :
    n.walk ancestors path = ⟨n, ancestors, path⟩ ::
      n.children.zipIdx.flatMap fun x => x.1.walk (n :: ancestors) (x.2 :: path) := by
  cases n <;> simp [walk, children, walkAll_eq_flatMap]

lemma mem_walk {ancestors : List Node} {path : List ℕ} {n : Node} {l : Located} :
    l ∈ n.walk ancestors path ↔ l = ⟨n, ancestors, path⟩ ∨
      ∃ (c : Node) (i : ℕ), n.children[i]? = some c ∧ l ∈ c.walk (n :: ancestors) (i :: path) := by
  rw [walk_eq_cons]
  simp only [List.mem_cons, List.mem_flatMap, List.mem_zipIdx_iff_getElem?, Prod.exists]

/-- The way to a node of a tree leads over the root of the tree. -/
lemma suffix_of_mem_walk {n : Node} : ∀ {ancestors : List Node} {path : List ℕ} {l : Located},
    l ∈ n.walk ancestors path → path <:+ l.path := by
  induction n using children_induction with
  | h n ih =>
    intro ancestors path l hl
    rcases mem_walk.mp hl with rfl | ⟨c, i, hc, hl⟩
    · exact List.suffix_refl _
    · exact (List.suffix_cons i path).trans (ih c (List.mem_of_getElem? hc) hl)

/-- Trees whose roots have different numbers have no ways in common. -/
lemma disjoint_paths {ancestors ancestors' : List Node} {path : List ℕ} {n n' : Node} {i j : ℕ}
    (hij : i ≠ j) : List.Disjoint ((n.walk ancestors (i :: path)).map Located.path)
      ((n'.walk ancestors' (j :: path)).map Located.path) := by
  intro way hi hj
  obtain ⟨l, hl, rfl⟩ := List.mem_map.mp hi
  obtain ⟨l', hl', hway⟩ := List.mem_map.mp hj
  obtain ⟨a, ha⟩ := suffix_of_mem_walk hl
  obtain ⟨b, hb⟩ := suffix_of_mem_walk hl'
  -- both ways end in `path`, with the number of the tree before it
  have heq : a ++ i :: path = b ++ j :: path := by rw [ha, hb, hway]
  have hlast : [i] ++ path = [j] ++ path := (List.append_inj_right' heq (by simp))
  simp at hlast
  exact hij hlast

lemma pairwise_zipIdx_ne (ns : List Node) (index : ℕ) :
    (ns.zipIdx index).Pairwise fun x y => x.2 ≠ y.2 := by
  induction ns generalizing index with
  | nil => simp
  | cons n rest ih =>
    rw [List.zipIdx_cons, List.pairwise_cons]
    refine ⟨fun x hx => ?_, ih _⟩
    have := List.le_snd_of_mem_zipIdx hx
    simp only
    omega

lemma nodup_paths_flatMap {ancestors : List Node} {path : List ℕ} {ns : List Node} {index : ℕ}
    (h : ∀ n ∈ ns, ∀ i, ((n.walk ancestors (i :: path)).map Located.path).Nodup) :
    (((ns.zipIdx index).flatMap fun x => x.1.walk ancestors (x.2 :: path)).map
      Located.path).Nodup := by
  rw [List.map_flatMap, List.nodup_flatMap]
  refine ⟨fun x hx => h x.1 (List.fst_mem_of_mem_zipIdx hx) x.2, ?_⟩
  exact (pairwise_zipIdx_ne ns index).imp fun hne => disjoint_paths hne

/-- No two nodes of a tree have the same way. -/
lemma nodup_walk_paths (n : Node) : ∀ (ancestors : List Node) (path : List ℕ),
    ((n.walk ancestors path).map Located.path).Nodup := by
  induction n using children_induction with
  | h n ih =>
    intro ancestors path
    rw [walk_eq_cons, List.map_cons, List.nodup_cons]
    refine ⟨fun hmem => ?_, nodup_paths_flatMap fun c hc i => ih c hc _ _⟩
    obtain ⟨l, hl, hpath⟩ := List.mem_map.mp hmem
    obtain ⟨⟨c, i⟩, -, hl⟩ := List.mem_flatMap.mp hl
    -- the way to a node inside is longer than that to the root
    have hlen := (suffix_of_mem_walk hl).length_le
    simp only [hpath, List.length_cons] at hlen
    omega

end Node

namespace Document

variable {d : Document}

lemma mem_walk {l : Located} :
    l ∈ d.walk ↔ ∃ (n : Node) (i : ℕ), d.roots[i]? = some n ∧ l ∈ n.walk [] [i] := by
  simp only [walk, Node.walkAll_eq_flatMap, List.mem_flatMap, List.mem_zipIdx_iff_getElem?,
    Prod.exists]

lemma nodup_walk_paths (d : Document) : (d.walk.map Located.path).Nodup := by
  rw [walk, Node.walkAll_eq_flatMap]
  exact Node.nodup_paths_flatMap fun n _ i => n.nodup_walk_paths [] [i]

end Document

namespace Node

/-- The children of a node of a tree are nodes of the tree. -/
lemma child_mem_walk {n : Node} : ∀ {ancestors : List Node} {path : List ℕ} {l : Located} {c : Node}
    {i : ℕ}, l ∈ n.walk ancestors path → l.node.children[i]? = some c →
      l.child i c ∈ n.walk ancestors path := by
  induction n using children_induction with
  | h n ih =>
    intro ancestors path l c i hl hc
    rcases mem_walk.mp hl with rfl | ⟨c', j, hc', hl⟩
    · exact mem_walk.mpr (.inr ⟨c, i, hc, by rw [walk_eq_cons]; exact List.mem_cons_self⟩)
    · exact mem_walk.mpr (.inr ⟨c', j, hc', ih c' (List.mem_of_getElem? hc') hl hc⟩)

/-- A node of a tree is its root, or a child of a node of the tree. -/
lemma eq_root_or_child_of_mem_walk {n : Node} : ∀ {ancestors : List Node} {path : List ℕ}
    {l : Located}, l ∈ n.walk ancestors path → l = ⟨n, ancestors, path⟩ ∨
      ∃ p ∈ n.walk ancestors path, ∃ c i, p.node.children[i]? = some c ∧ l = p.child i c := by
  induction n using children_induction with
  | h n ih =>
    intro ancestors path l hl
    rcases mem_walk.mp hl with rfl | ⟨c, i, hc, hl⟩
    · exact .inl rfl
    · refine .inr ?_
      rcases ih c (List.mem_of_getElem? hc) hl with rfl | ⟨p, hp, c', j, hc', rfl⟩
      · exact ⟨⟨n, ancestors, path⟩, by rw [walk_eq_cons]; exact List.mem_cons_self, c, i, hc, rfl⟩
      · exact ⟨p, mem_walk.mpr (.inr ⟨c, i, hc, hp⟩), c', j, hc', rfl⟩

end Node

namespace Document

variable {d : Document}

lemma child_mem_walk {l : Located} {c : Node} {i : ℕ} (hl : l ∈ d.walk)
    (hc : l.node.children[i]? = some c) : l.child i c ∈ d.walk := by
  obtain ⟨n, j, hn, hl⟩ := mem_walk.mp hl
  exact mem_walk.mpr ⟨n, j, hn, Node.child_mem_walk hl hc⟩

/-- A node of a document is a root, which has nothing around it, or a child of another node. -/
lemma root_or_child_of_mem_walk {l : Located} (hl : l ∈ d.walk) :
    (∃ n i, d.roots[i]? = some n ∧ l = ⟨n, [], [i]⟩) ∨
      ∃ p ∈ d.walk, ∃ c i, p.node.children[i]? = some c ∧ l = p.child i c := by
  obtain ⟨n, i, hn, hl⟩ := mem_walk.mp hl
  rcases Node.eq_root_or_child_of_mem_walk hl with rfl | ⟨p, hp, c, j, hc, rfl⟩
  · exact .inl ⟨n, i, hn, rfl⟩
  · exact .inr ⟨p, mem_walk.mpr ⟨n, i, hn, hp⟩, c, j, hc, rfl⟩

end Document

end KsyTools
