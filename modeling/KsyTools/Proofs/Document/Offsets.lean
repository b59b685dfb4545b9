/-
# Offsets, positions and nodes

An editor asks by position and the tools answer by offset, so the position of an offset has to lead
back to it.  In a document whose nodes are well nested, the scalar that covers an offset is the node
that is found there, and no two scalars that cover something have the same range.
-/
import KsyTools.Proofs.Document.Positions
import KsyTools.Proofs.Document.Walk

namespace KsyTools

/-! ## Nested nodes -/

namespace Node

/-- A node stands before another one: it ends where the other one starts or before, and does not
start there. -/
def Before (n n' : Node) : Prop :=
  n.range.stop ≤ n'.range.start ∧ n.range.start ≠ n'.range.start

instance (n n' : Node) : Decidable (n.Before n') :=
  inferInstanceAs (Decidable (_ ∧ _))

/-- A node covers another one. -/
def Covers (n n' : Node) : Prop :=
  n.range.start ≤ n'.range.start ∧ n'.range.stop ≤ n.range.stop

instance (n n' : Node) : Decidable (n.Covers n') :=
  inferInstanceAs (Decidable (_ ∧ _))

/-- The nodes of a tree are well nested: each of them covers its children, and these stand one
before the other. -/
def WellNested (ls : List Located) : Prop :=
  ∀ l ∈ ls, (∀ c ∈ l.node.children, l.node.Covers c) ∧ l.node.children.Pairwise Before

instance (ls : List Located) : Decidable (WellNested ls) :=
  inferInstanceAs (Decidable (∀ l ∈ ls, _))

variable {o : ℤ} {ancestors : List Node} {path : List ℕ}

/-- At an offset that no sibling contains there is nothing among them. -/
lemma deepestAmong_eq_none {ns : List Node} {index : ℕ} :
    deepestAmong o ancestors path index ns = none ↔ ∀ n ∈ ns, n.range.contains o = false := by
  induction ns generalizing index with
  | nil => simp [deepestAmong]
  | cons n rest ih =>
    rw [deepestAmong, List.forall_mem_cons]
    split_ifs with hcontains hhere
    · simp [hcontains]
    · split <;> simp [hcontains]
    · simpa [hcontains] using ih

/-- The innermost node below a node: what is found among its children, or the node itself. -/
lemma deepestAt_eq_getD (n : Node) : deepestAt o ancestors path n =
    (deepestAmong o (n :: ancestors) path 0 n.children).getD ⟨n, ancestors, path⟩ := by
  cases n with
  | scalar => rfl
  | sequence => rfl
  | mapping => rfl
  | keyValue range place key keyRange value =>
    -- the value is the only child, so it does not matter whether it starts or ends at the offset
    simp only [deepestAt, children, deepestAmong]
    split_ifs <;> rfl

lemma contains_iff {n : Node} :
    n.range.contains o = true ↔ n.range.start ≤ o ∧ o ≤ n.range.stop := by
  simp only [TextRange.contains, Bool.and_eq_true, decide_eq_true_eq]

/-- Among siblings of which one stands before the other, the one is found that covers the offset,
and also the one that ends there if none starts there. -/
lemma deepestAmong_eq_some {ns : List Node} (hns : ns.Pairwise Before) {c : Node} {i index : ℕ}
    (hc : ns[i]? = some c) (hstart : c.range.start ≤ o) (hstop : o ≤ c.range.stop)
    (hend : o < c.range.stop ∨ ∀ n ∈ ns, n.range.start ≠ o) :
    deepestAmong o ancestors path index ns =
      some (deepestAt o ancestors ((index + i) :: path) c) := by
  induction ns generalizing i index with
  | nil => simp at hc
  | cons n rest ih =>
    obtain ⟨hbefore, hrest⟩ := List.pairwise_cons.mp hns
    cases i with
    | zero =>
      obtain rfl : n = c := by simpa using hc
      rw [Nat.add_zero, deepestAmong, if_pos (contains_iff.mpr ⟨hstart, hstop⟩)]
      split_ifs with hhere
      · rfl
      · simp only [Bool.or_eq_true, beq_iff_eq, bne_iff_ne] at hhere
        -- the siblings behind the one that ends at the offset do not start there
        have hlater : deepestAmong o ancestors path (index + 1) rest = none := by
          refine deepestAmong_eq_none.mpr fun n' hn' => ?_
          rw [← Bool.not_eq_true, contains_iff]
          have hstop' := (hbefore n' hn').1
          have hstart' : n'.range.start ≠ o := by
            rcases hend with hlt | hnone
            · omega
            · exact hnone n' (List.mem_cons_of_mem _ hn')
          omega
        rw [hlater]
    | succ i =>
      have hc' : rest[i]? = some c := by simpa using hc
      obtain ⟨hstop', hstart'⟩ := hbefore c (List.mem_of_getElem? hc')
      have hend' : o < c.range.stop ∨ ∀ n ∈ rest, n.range.start ≠ o :=
        hend.imp_right fun hnone n' hn' => hnone n' (List.mem_cons_of_mem _ hn')
      have hlater : deepestAmong o ancestors path (index + 1) rest =
          some (deepestAt o ancestors ((index + (i + 1)) :: path) c) := by
        rw [ih hrest hc' hend', Nat.add_assoc, Nat.add_comm 1 i]
      rw [deepestAmong]
      split_ifs with hcontains hends
      · -- a sibling before that contains the offset ends there, and does not start there
        obtain ⟨-, hstop''⟩ := contains_iff.mp hcontains
        simp only [Bool.or_eq_true, beq_iff_eq, bne_iff_ne] at hends
        omega
      · rw [hlater]
      · exact hlater

/-- The scalar that covers an offset is the innermost node there, and also the one that ends there
if no node starts there. -/
lemma deepestAt_eq {n : Node} : ∀ {ancestors : List Node} {path : List ℕ} {l : Located},
    l ∈ n.walk ancestors path → WellNested (n.walk ancestors path) → l.node.is .scalar →
    l.node.range.start ≤ o → o ≤ l.node.range.stop →
    (o < l.node.range.stop ∨ ∀ x ∈ n.walk ancestors path, x.node.range.start ≠ o) →
      deepestAt o ancestors path n = l ∧ n.Covers l.node := by
  induction n using children_induction with
  | h n ih =>
    intro ancestors path l hl hnested hscalar hstart hstop hend
    have hself : (⟨n, ancestors, path⟩ : Located) ∈ n.walk ancestors path :=
      mem_walk.mpr (.inl rfl)
    obtain ⟨hcovers, hpairwise⟩ := hnested _ hself
    rcases mem_walk.mp hl with rfl | ⟨c, i, hc, hlc⟩
    · cases n with
      | scalar => exact ⟨rfl, Int.le_refl _, Int.le_refl _⟩
      | sequence => simp [is, kind] at hscalar
      | mapping => simp [is, kind] at hscalar
      | keyValue => simp [is, kind] at hscalar
    · have hbelow {x : Located} (hx : x ∈ c.walk (n :: ancestors) (i :: path)) :
          x ∈ n.walk ancestors path := mem_walk.mpr (.inr ⟨c, i, hc, hx⟩)
      have hmem := List.mem_of_getElem? hc
      obtain ⟨hfound, hstart', hstop'⟩ := ih c hmem hlc (fun x hx => hnested x (hbelow hx)) hscalar
        hstart hstop (hend.imp_right fun hnone x hx => hnone x (hbelow hx))
      obtain ⟨hstart'', hstop''⟩ := hcovers c hmem
      have hcend : o < c.range.stop ∨ ∀ n' ∈ n.children, n'.range.start ≠ o := by
        refine hend.imp (fun hlt => by omega) fun hnone n' hn' => ?_
        obtain ⟨j, hj⟩ := List.mem_iff_getElem?.mp hn'
        exact hnone _ (child_mem_walk hself hj)
      refine ⟨?_, Int.le_trans hstart'' hstart', Int.le_trans hstop' hstop''⟩
      rw [deepestAt_eq_getD, deepestAmong_eq_some hpairwise hc (by omega) (by omega) hcend,
        Nat.zero_add, Option.getD_some, hfound]

end Node

namespace Document

lemma root_mem_walk {d : Document} {n : Node} {i : ℕ} (hn : d.roots[i]? = some n) :
    (⟨n, [], [i]⟩ : Located) ∈ d.walk :=
  mem_walk.mpr ⟨n, i, hn, Node.mem_walk.mpr (.inl rfl)⟩

/-- In a document that is well nested, the scalar that covers an offset is the node that is found
there, and also the one that ends there if no node starts there; one of the roots covers it. -/
lemma nodeAt?_eq_some {d : Document} (hroots : d.roots.Pairwise Node.Before)
    (hnodes : Node.WellNested d.walk) {l : Located} (hl : l ∈ d.walk)
    (hscalar : l.node.is .scalar) {o : ℤ} (hstart : l.node.range.start ≤ o)
    (hstop : o ≤ l.node.range.stop)
    (hend : o < l.node.range.stop ∨ ∀ x ∈ d.walk, x.node.range.start ≠ o) :
    d.nodeAt? o = some l ∧ ∃ n ∈ d.roots, n.Covers l.node := by
  obtain ⟨n, i, hn, hln⟩ := mem_walk.mp hl
  have hbelow {x : Located} (hx : x ∈ n.walk [] [i]) : x ∈ d.walk := mem_walk.mpr ⟨n, i, hn, hx⟩
  obtain ⟨hfound, hstart', hstop'⟩ := Node.deepestAt_eq hln (fun x hx => hnodes x (hbelow hx))
    hscalar hstart hstop (hend.imp_right fun hnone x hx => hnone x (hbelow hx))
  have hrootEnd : o < n.range.stop ∨ ∀ n' ∈ d.roots, n'.range.start ≠ o := by
    refine hend.imp (fun hlt => by omega) fun hnone n' hn' => ?_
    obtain ⟨j, hj⟩ := List.mem_iff_getElem?.mp hn'
    exact hnone _ (root_mem_walk hj)
  refine ⟨?_, n, List.mem_of_getElem? hn, hstart', hstop'⟩
  rw [Document.nodeAt?, Node.deepestAmong_eq_some hroots hn (by omega) (by omega) hrootEnd,
    Nat.zero_add, hfound]

/-- The nodes of a document are well nested: the roots are inside the text and stand one before the
other, and so do the children of each node inside it. -/
structure WellNested (d : Document) : Prop where
  inside : ∀ n ∈ d.roots, 0 ≤ n.range.start ∧ n.range.stop ≤ d.chars.length
  roots : d.roots.Pairwise Node.Before
  nodes : Node.WellNested d.walk

namespace WellNested

variable {d : Document} {l : Located} {o : ℤ}

/-- The scalar that covers an offset is inside the text and the node that is found there. -/
lemma nodeAt? (h : d.WellNested) (hl : l ∈ d.walk) (hscalar : l.node.is .scalar)
    (hstart : l.node.range.start ≤ o) (hstop : o < l.node.range.stop) :
    d.nodeAt? o = some l ∧ 0 ≤ o ∧ o < d.chars.length := by
  obtain ⟨hfound, n, hn, hstart', hstop'⟩ :=
    nodeAt?_eq_some h.roots h.nodes hl hscalar hstart (by omega) (.inl hstop)
  obtain ⟨hinside, hinside'⟩ := h.inside n hn
  exact ⟨hfound, by omega, by omega⟩

/-- Scalars that cover something have different ranges. -/
lemma eq_of_range_eq (h : d.WellNested) {l' : Located} (hl : l ∈ d.walk) (hl' : l' ∈ d.walk)
    (hscalar : l.node.is .scalar) (hscalar' : l'.node.is .scalar)
    (hrange : l'.node.range = l.node.range) (hlt : l.node.range.start < l.node.range.stop) :
    l' = l := by
  have hfound := (h.nodeAt? hl hscalar (Int.le_refl _) hlt).1
  rw [(h.nodeAt? hl' hscalar' (Int.le_of_eq (congrArg _ hrange)) (by rwa [hrange])).1] at hfound
  exact Option.some.inj hfound

/-- Asking by the position of an offset that a scalar covers is asking by the offset. -/
lemma offset_position (h : d.WellNested) (hl : l ∈ d.walk) (hscalar : l.node.is .scalar)
    (hstart : l.node.range.start ≤ o) (hstop : o < l.node.range.stop) :
    d.offset (d.position o).line (d.position o).column = o := by
  obtain ⟨-, hnonneg, hlt⟩ := h.nodeAt? hl hscalar hstart hstop
  obtain ⟨n, rfl⟩ := Int.eq_ofNat_of_zero_le hnonneg
  rw [offset, position, positionToOffset_offsetToPosition, clampOffset]
  omega

end WellNested

end Document

end KsyTools
