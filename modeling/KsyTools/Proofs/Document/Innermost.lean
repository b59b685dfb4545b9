/-
# The node under the cursor

The node at an offset is found by going from a node that contains the offset to a child that does,
without ever going back.  Where it stops, the offset is in the node and in all those around it, and
in none of those inside it.  In a document whose ranges are in order this is never the wrong branch
for a scalar: it is found at every offset that it covers, and also at its end, where the cursor
stands behind its last character, unless something else starts there.
-/
import KsyTools.Proofs.Document.Offsets

namespace KsyTools

variable {o : ℤ} {ancestors : List Node} {path : List ℕ}

/-- A node is an innermost one at an offset: it contains the offset, and so do all nodes around it,
but none of those directly inside it. -/
structure Located.InnermostAt (o : ℤ) (l : Located) : Prop where
  here : l.node.range.contains o
  around : ∀ a ∈ l.ancestors, a.range.contains o
  inside : ∀ c ∈ l.node.children, c.range.contains o = false

namespace Node

/-! ## What the descent finds -/

/-- What is found among siblings is found below one of them that contains the offset. -/
lemma exists_of_deepestAmong {ns : List Node} {index : ℕ} {l : Located}
    (h : deepestAmong o ancestors path index ns = some l) :
    ∃ c i, ns[i]? = some c ∧ c.range.contains o ∧
      l = deepestAt o ancestors ((index + i) :: path) c := by
  induction ns generalizing index with
  | nil => simp [deepestAmong] at h
  | cons n rest ih =>
    have hfirst (hcontains : n.range.contains o)
        (hl : some (deepestAt o ancestors (index :: path) n) = some l) :
        ∃ c i, (n :: rest)[i]? = some c ∧ c.range.contains o ∧
          l = deepestAt o ancestors ((index + i) :: path) c :=
      ⟨n, 0, rfl, hcontains, (Option.some.inj hl).symm⟩
    have hlater (hl : deepestAmong o ancestors path (index + 1) rest = some l) :
        ∃ c i, (n :: rest)[i]? = some c ∧ c.range.contains o ∧
          l = deepestAt o ancestors ((index + i) :: path) c := by
      obtain ⟨c, i, hc, hcontains, rfl⟩ := ih hl
      exact ⟨c, i + 1, by simpa using hc, hcontains, by rw [Nat.add_assoc, Nat.add_comm 1 i]⟩
    rw [deepestAmong] at h
    split_ifs at h with hcontains hhere
    · exact hfirst hcontains h
    · split at h
      · next later hfound => exact hlater (hfound.trans h)
      · exact hfirst hcontains h
    · exact hlater h

/-- Below a node that contains the offset, in nodes that do, an innermost node is found. -/
lemma innermostAt_deepestAt {n : Node} : ∀ {ancestors : List Node} (path : List ℕ),
    n.range.contains o → (∀ a ∈ ancestors, a.range.contains o) →
      deepestAt o ancestors path n ∈ n.walk ancestors path ∧
        (deepestAt o ancestors path n).InnermostAt o := by
  induction n using children_induction with
  | h n ih =>
    intro ancestors path hhere haround
    rw [deepestAt_eq_getD]
    cases hfound : deepestAmong o (n :: ancestors) path 0 n.children with
    | none => exact ⟨mem_walk.mpr (.inl rfl), hhere, haround, deepestAmong_eq_none.mp hfound⟩
    | some l =>
      obtain ⟨c, i, hc, hcontains, rfl⟩ := exists_of_deepestAmong hfound
      obtain ⟨hmem, hinnermost⟩ := ih c (List.mem_of_getElem? hc) (i :: path) hcontains
        (List.forall_mem_cons.mpr ⟨hhere, haround⟩)
      rw [Nat.zero_add, Option.getD_some]
      exact ⟨mem_walk.mpr (.inr ⟨c, i, hc, hmem⟩), hinnermost⟩

/-! ## Ranges in order -/

/-- Where each node starts before it ends, siblings that stand one before the next stand one before
the other. -/
lemma pairwise_before {ns : List Node} (hends : ∀ n ∈ ns, n.range.start ≤ n.range.stop)
    (hchain : ns.IsChain Before) : ns.Pairwise Before := by
  induction ns with
  | nil => exact .nil
  | cons n rest ih =>
    have hrest :=
      ih (fun n' hn' => hends n' (List.mem_cons_of_mem _ hn')) (List.IsChain.of_cons hchain)
    refine List.pairwise_cons.mpr ⟨fun n' hn' => ?_, hrest⟩
    cases rest with
    | nil => exact absurd hn' List.not_mem_nil
    | cons next rest =>
      have hnext : n.Before next := List.isChain_cons_cons.mp hchain |>.1
      rcases List.mem_cons.mp hn' with rfl | hn'
      · exact hnext
      · obtain ⟨hstop, hstart⟩ := hnext
        obtain ⟨hstop', hstart'⟩ := List.rel_of_pairwise_cons hrest hn'
        have hn := hends n List.mem_cons_self
        have hnext' := hends next (List.mem_cons_of_mem _ List.mem_cons_self)
        exact ⟨by omega, by omega⟩

end Node

namespace Document

/-- The ranges of a document are in order: each starts before it ends, the children of a node are
inside it, and of two siblings next to each other the first ends where the second starts or before,
and starts elsewhere. -/
structure InOrder (d : Document) : Prop where
  ends : ∀ l ∈ d.walk, l.node.range.start ≤ l.node.range.stop
  inside : ∀ l ∈ d.walk, ∀ c ∈ l.node.children, l.node.Covers c
  roots : d.roots.IsChain Node.Before
  siblings : ∀ l ∈ d.walk, l.node.children.IsChain Node.Before

namespace InOrder

variable {d : Document}

lemma wellNested (h : d.InOrder) : Node.WellNested d.walk := by
  refine fun l hl => ⟨h.inside l hl, Node.pairwise_before (fun c hc => ?_) (h.siblings l hl)⟩
  obtain ⟨i, hi⟩ := List.mem_iff_getElem?.mp hc
  exact h.ends _ (child_mem_walk hl hi)

lemma pairwise_roots (h : d.InOrder) : d.roots.Pairwise Node.Before := by
  refine Node.pairwise_before (fun n hn => ?_) h.roots
  obtain ⟨i, hi⟩ := List.mem_iff_getElem?.mp hn
  exact h.ends _ (root_mem_walk hi)

end InOrder

/-- A document has no node at an offset exactly if none of its roots contains it; else it has an
innermost one.  If its ranges are in order, this is the scalar that covers the offset, or the one
that ends there if no other node starts there. -/
theorem nodeAt?_innermost (d : Document) (o : ℤ) :
    (d.nodeAt? o = none ↔ ∀ n ∈ d.roots, n.range.contains o = false) ∧
      (∀ l, d.nodeAt? o = some l → l ∈ d.walk ∧ l.InnermostAt o) ∧
      (d.InOrder → ∀ s ∈ d.walk, s.node.is .scalar → s.node.range.start < s.node.range.stop →
        (s.node.range.start ≤ o ∧ o < s.node.range.stop → d.nodeAt? o = some s) ∧
        (o = s.node.range.stop → (∀ l ∈ d.walk, l ≠ s → l.node.range.start ≠ o) →
          d.nodeAt? o = some s)) := by
  refine ⟨Node.deepestAmong_eq_none, fun l hl => ?_, fun h s hs hscalar hlt => ⟨?_, ?_⟩⟩
  · obtain ⟨n, i, hn, hcontains, rfl⟩ := Node.exists_of_deepestAmong hl
    obtain ⟨hmem, hinnermost⟩ := Node.innermostAt_deepestAt [i] hcontains
      fun a ha => absurd ha List.not_mem_nil
    rw [Nat.zero_add]
    exact ⟨mem_walk.mpr ⟨n, i, hn, hmem⟩, hinnermost⟩
  · rintro ⟨hstart, hstop⟩
    exact (nodeAt?_eq_some h.pairwise_roots h.wellNested hs hscalar hstart (by omega)
      (.inl hstop)).1
  · rintro rfl hnone
    have hstarts : ∀ l ∈ d.walk, l.node.range.start ≠ s.node.range.stop := by
      intro l hl
      by_cases hself : l = s
      · -- the scalar itself starts before its end
        rw [hself]
        omega
      · exact hnone l hl hself
    exact (nodeAt?_eq_some h.pairwise_roots h.wellNested hs hscalar (by omega) (Int.le_refl _)
      (.inr hstarts)).1

/-- A document in which the range of the first pair goes on to where the second pair starts. -/
def touchingPairs : Document where
  source := "a:\n  b: c\nd: e\n"
  file? := none
  name := ""
  roots := [.mapping ⟨0, 15⟩ ⟨0, 0⟩
    [.keyValue ⟨0, 10⟩ ⟨0, 0⟩ "a" ⟨0, 1⟩
      (.mapping ⟨5, 10⟩ ⟨1, 2⟩ [.keyValue ⟨5, 9⟩ ⟨1, 2⟩ "b" ⟨5, 6⟩ (.scalar ⟨8, 9⟩ ⟨1, 5⟩ "c")]),
    .keyValue ⟨10, 14⟩ ⟨2, 0⟩ "d" ⟨10, 11⟩ (.scalar ⟨13, 14⟩ ⟨2, 3⟩ "e")]]
  data := [.map 0 [(.str "a", .map 3 [(.str "b", .atom (.str "c"))]), (.str "d", .atom (.str "e"))]]
  failure? := none

lemma inOrder_touchingPairs : touchingPairs.InOrder where
  ends := by decide
  inside := by decide
  roots := by decide
  siblings := by decide

/-- The cursor right behind the scalar `c` is still at it. -/
theorem nodeAt?_innermost_touchingPairs :
    touchingPairs.InOrder ∧ ∃ s ∈ touchingPairs.walk, s.node.text? = some "c" ∧
      touchingPairs.nodeAt? 9 = some s := by
  obtain ⟨-, -, hscalars⟩ := nodeAt?_innermost touchingPairs 9
  obtain ⟨s, hs, htext, hscalar, hrange⟩ : ∃ s ∈ touchingPairs.walk, s.node.text? = some "c" ∧
      s.node.is .scalar ∧ s.node.range = ⟨8, 9⟩ := by
    decide
  have hothers : ∀ l ∈ touchingPairs.walk, l.node.range.start ≠ 9 := by decide
  refine ⟨inOrder_touchingPairs, s, hs, htext, ?_⟩
  obtain ⟨-, hend⟩ := hscalars inOrder_touchingPairs s hs hscalar (by rw [hrange]; decide)
  exact hend (by rw [hrange]) fun l hl _ => hothers l hl

end Document

end KsyTools
