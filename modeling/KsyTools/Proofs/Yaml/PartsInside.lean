/-
# The parts of data are inside its nodes

What a list or a map of the data holds was made from nodes inside its own node: from the items of
the sequence, from the values of the mapping, or from those of mappings that are merged into it.
Merging moves pairs from one mapping to another, but the first is always inside the second.  So data
contains itself only where a node of the text is inside itself.
-/
import KsyTools.Proofs.Document.Unfolding
import KsyTools.Proofs.Yaml.Containment
import KsyTools.Proofs.Yaml.Keeps

namespace KsyTools.Yaml

open Relation (TransGen ReflTransGen)

variable {g : Graph} {id child : NodeId}

/-- All values of some pairs are inside a node. -/
def Graph.Within (g : Graph) (id : NodeId) (pairs : List (NodeId × NodeId)) : Prop :=
  ∀ p ∈ pairs, TransGen g.Encloses id p.2

lemma Graph.Within.above {pairs : List (NodeId × NodeId)} (h : g.Within child pairs)
    (inside : TransGen g.Encloses id child) : g.Within id pairs :=
  fun p hp => inside.trans (h p hp)

lemma Graph.Within.append {pairs more : List (NodeId × NodeId)} (h : g.Within id pairs)
    (h' : g.Within id more) : g.Within id (pairs ++ more) := by
  intro p hp
  rcases List.mem_append.1 hp with hp | hp
  · exact h p hp
  · exact h' p hp

namespace Construction

/-- What the nodes and the cells of a construction hold is inside the nodes of the graph. -/
structure Below (g : Graph) (c : Construction) : Prop where
  nodes : ∀ id, ∀ child ∈ (c.nodes.getD id default).content.entries, TransGen g.Encloses id child
  cells : ∀ {id child}, c.Encloses id child → TransGen g.Encloses id child

namespace Below

variable {c : Construction}

/-- At the start the nodes are those of the graph, and there are no cells. -/
lemma start (g : Graph) : Below g ⟨g.nodes, Array.replicate g.nodes.size none, []⟩ where
  nodes := by
    intro id child present
    refine .single ?_
    rw [Array.getD_eq_getD_getElem?] at present
    cases node : g.nodes[id]? with
    | none =>
      rw [node] at present
      exact absurd present List.not_mem_nil
    | some n =>
      rw [node] at present
      rw [Graph.Encloses, Graph.entries_of_get? node]
      exact present
  cells := by
    intro id child held
    have missing : (Array.replicate g.nodes.size (none : Option Cell)).getD id none = none := by
      rw [Array.getD_eq_getD_getElem?, Array.getElem?_replicate]
      split <;> rfl
    rw [Encloses, entries, cell?, missing] at held
    exact absurd held List.not_mem_nil

/-- A node may be changed as long as what it holds stays inside it. -/
lemma modify (h : c.Below g) {f : GraphNode → GraphNode}
    (hf : ∀ n : GraphNode, (∀ child ∈ n.content.entries, TransGen g.Encloses id child) →
      ∀ child ∈ (f n).content.entries, TransGen g.Encloses id child) :
    Below g { c with nodes := c.nodes.modify id f } where
  nodes := by
    intro i
    have held := h.nodes i
    rw [Array.getD_eq_getD_getElem?] at held ⊢
    rw [Array.getElem?_modify]
    split
    · rename_i same
      subst same
      cases node : c.nodes[id]? with
      | none =>
        rw [node] at held
        exact held
      | some n =>
        rw [node] at held
        exact hf n held
    · exact held
  cells := h.cells

lemma setCell (h : c.Below g) {cell : Cell}
    (hcell : ∀ child ∈ cell.entries, TransGen g.Encloses id child) :
    Below g { c with cells := c.cells.set! id (some cell) } where
  nodes := h.nodes
  cells := by
    intro i child held
    rw [Encloses, entries, cell?_set] at held
    split at held
    · rename_i found
      split at found
      · rename_i here
        cases found
        rw [here.1]
        exact hcell child held
      · refine h.cells ?_
        rw [Encloses, entries, found]
        exact held
    · exact absurd held List.not_mem_nil

end Below

end Construction

/-- A part of the construction keeps what is held inside the nodes, and what it finds has a property
unless it fails. -/
def Finds (g : Graph) {α : Type} (m : Construct α) (P : α → Prop) : Prop :=
  Meets (fun _ => True) (Construction.Below g) m fun a c => P a ∧ c.Below g

namespace Finds

variable {α β : Type} {P : α → Prop} {Q : β → Prop} {m : Construct α}

lemma pure {a : α} (h : P a) : Finds g (Pure.pure a) P :=
  Meets.pure fun _ hc => ⟨h, hc⟩

lemma throw (e : Failure) : Finds g (MonadExcept.throw e : Construct α) P :=
  Meets.throw trivial

lemma bind {f : α → Construct β} (hm : Finds g m P) (hf : ∀ a, P a → Finds g (f a) Q) :
    Finds g (m >>= f) Q :=
  Meets.bind hm fun a c h => hf a h.1 c h.2

lemma mono {P' : α → Prop} (hm : Finds g m P) (h : ∀ a, P a → P' a) : Finds g m P' :=
  Meets.mono hm fun a _ ha => ⟨h a ha.1, ha.2⟩

lemma get : Finds g (MonadState.get : Construct Construction) (Construction.Below g) :=
  fun _ hc => ⟨hc, hc⟩

lemma set {c : Construction} (h : c.Below g) :
    Finds g (MonadStateOf.set c : Construct PUnit) fun _ => True :=
  fun _ _ => And.intro trivial h

lemma change {f : Construction → Construction} (h : ∀ c, c.Below g → (f c).Below g) :
    Finds g (modify f : Construct PUnit) fun _ => True :=
  fun c hc => ⟨trivial, h c hc⟩

lemma mapM {f : α → Construct β} {as : List α} (hf : ∀ a ∈ as, Finds g (f a) Q) :
    Finds g (as.mapM f) fun bs => ∀ b ∈ bs, Q b := by
  induction as with
  | nil => exact pure (fun _ hb => absurd hb List.not_mem_nil)
  | cons a as ih =>
    obtain ⟨first, rest⟩ := List.forall_mem_cons.1 hf
    rw [List.mapM_cons]
    exact first.bind fun b hb => (ih rest).bind fun bs hbs =>
      pure (List.forall_mem_cons.2 ⟨hb, hbs⟩)

lemma forM {f : α → Construct PUnit} (hf : ∀ a, Finds g (f a) fun _ => True) (as : List α) :
    Finds g (as.forM f) fun _ => True := by
  induction as with
  | nil => exact pure trivial
  | cons a as ih => exact (hf a).bind fun _ _ => ih

lemma foldlM {f : β → α → Construct β} {as : List α}
    (hf : ∀ b, ∀ a ∈ as, Q b → Finds g (f b a) Q) {b : β} (hb : Q b) :
    Finds g (as.foldlM f b) Q := by
  induction as generalizing b with
  | nil => exact pure hb
  | cons a as ih =>
    obtain ⟨first, rest⟩ : (∀ b, Q b → Finds g (f b a) Q) ∧
        ∀ b, ∀ a ∈ as, Q b → Finds g (f b a) Q :=
      ⟨fun b => hf b a List.mem_cons_self, fun b a ha => hf b a (List.mem_cons_of_mem _ ha)⟩
    rw [List.foldlM_cons]
    exact (first b hb).bind fun b hb => ih rest hb

/-- What a node holds is inside it. -/
lemma node (id : NodeId) : Finds g (Construct.node id) fun n =>
    ∀ child ∈ n.content.entries, TransGen g.Encloses id child :=
  fun _ hc => ⟨hc.nodes id, hc⟩

lemma failAt (n : GraphNode) (problem : String) :
    Finds g (Construct.failAt n problem : Construct α) P :=
  throw _

lemma failIn (context : String) (outer : GraphNode) (problem : String) (n : GraphNode) :
    Finds g (Construct.failIn context outer problem n : Construct α) P :=
  throw _

lemma setCell {cell : Cell} (hcell : ∀ child ∈ cell.entries, TransGen g.Encloses id child) :
    Finds g (Construct.setCell id cell) fun _ => True :=
  change fun _ hc => hc.setCell hcell

/-! ## Scalars and new values -/

lemma liftScalar (r : Except ScalarFault α) : Finds g (Construct.liftScalar r) fun _ => True := by
  cases r with
  | ok a => exact pure trivial
  | error fault => exact throw _

lemma scalarText (id : NodeId) (fuel : ℕ) :
    Finds g (Construct.scalarText id fuel) fun _ => True := by
  induction fuel generalizing id with
  | zero => exact throw _
  | succ fuel ih =>
    refine (node id).bind fun n _ => ?_
    split
    · exact pure trivial
    · exact failAt _ _
    · refine get.bind fun c _ => ?_
      dsimp only
      split
      · exact ih _
      · exact failAt _ _

lemma atomOf (id : NodeId) (n : GraphNode) : Finds g (Construct.atomOf id n) fun _ => True := by
  refine get.bind fun c _ => (scalarText _ _).bind fun text _ => ?_
  split
  · exact pure trivial
  · exact (liftScalar _).bind fun _ _ => pure trivial
  · exact (liftScalar _).bind fun _ _ => pure trivial
  · exact (liftScalar _).bind fun _ _ => pure trivial
  · split
    · exact (liftScalar _).bind fun _ _ => pure trivial
    · exact throw _
  · split
    · exact failAt _ _
    · split
      · exact pure trivial
      · exact failAt _ _
  · exact pure trivial

/-- A new container is empty. -/
lemma create (id : NodeId) : Finds g (Construct.create id) fun _ => True := by
  have container {cell : Cell} (empty : cell.entries = []) : Finds g (do
      Construct.setCell id cell
      modify fun c => { c with pending := c.pending ++ [id] }) fun _ => True := by
    have none : ∀ child ∈ cell.entries, TransGen g.Encloses id child := by simp [empty]
    exact (setCell none).bind fun _ _ => change fun _ hc => ⟨hc.nodes, hc.cells⟩
  refine get.bind fun c _ => ?_
  split
  · exact pure trivial
  · refine (node id).bind fun n _ => ?_
    dsimp only
    split
    · exact container rfl
    · exact container rfl
    · exact container rfl
    · exact container rfl
    · exact container rfl
    · exact failAt _ _
    · exact failAt _ _
    · exact failAt _ _
    · exact failAt _ _
    · exact (atomOf _ _).bind fun _ _ => setCell (by simp [Cell.entries])

/-! ## Merge keys -/

lemma pairsOf (id : NodeId) : Finds g (Construct.pairsOf id) (g.Within id) := by
  refine (node id).bind fun n held => ?_
  split
  · rename_i pairs content
    refine pure fun p hp => held p.2 ?_
    rw [content]
    exact List.mem_map_of_mem hp
  · exact pure fun p hp => absurd hp List.not_mem_nil

lemma setPairs {pairs : List (NodeId × NodeId)} (h : g.Within id pairs) :
    Finds g (Construct.setPairs id pairs) fun _ => True := by
  refine change fun c hc => hc.modify fun n _ child present => ?_
  obtain ⟨p, hp, rfl⟩ := List.mem_map.1 present
  exact h p hp

lemma mergeKeyCount : Finds g Construct.mergeKeyCount fun _ => True :=
  get.bind fun _ _ => pure trivial

/-- Only tags change. -/
lemma plainValueKeys (pairs : List (NodeId × NodeId)) :
    Finds g (Construct.plainValueKeys pairs) fun _ => True := by
  refine change fun c hc => ?_
  induction pairs generalizing c with
  | nil => exact hc
  | cons p pairs ih =>
    have here : Construction.Below g { c with nodes := c.nodes.modify p.1 fun n =>
        if n.tag = .value then { n with tag := .str } else n } := by
      refine hc.modify fun n held => ?_
      split <;> exact held
    exact ih _ here

lemma putMerged {merged pairs : List (NodeId × NodeId)} (hmerged : g.Within id merged)
    (hpairs : g.Within id pairs) :
    Finds g (Construct.putMerged id merged pairs) fun _ => True := by
  unfold Construct.putMerged
  split
  · exact pure trivial
  · exact setPairs (hmerged.append hpairs)

/-- What is merged into a mapping comes from the values of its merge keys, which are inside it. -/
lemma mergeFrom (fuel : ℕ) (id : NodeId) (first : ℕ) {merged : List (NodeId × NodeId)}
    (hmerged : g.Within id merged) :
    Finds g (Construct.mergeFrom fuel id first merged) fun _ => True := by
  induction fuel generalizing id first merged with
  | zero =>
    exact (pairsOf id).bind fun _ hpairs => (plainValueKeys _).bind fun _ _ =>
      putMerged hmerged hpairs
  | succ fuel ih =>
    refine (pairsOf id).bind fun pairs hpairs => (plainValueKeys _).bind fun _ _ =>
      get.bind fun c _ => ?_
    dsimp only
    split
    · exact putMerged hmerged hpairs
    · rename_i i found
      have bound : first + i < pairs.length := by
        have := (List.findIdx?_eq_some_iff_getElem.1 found).1
        rw [List.length_drop] at this
        omega
      have target : TransGen g.Encloses id (pairs.getD (first + i) (0, 0)).2 := by
        rw [List.getD_eq_getElem?_getD, List.getElem?_eq_getElem bound, Option.getD_some]
        exact hpairs _ (List.getElem_mem bound)
      have without : g.Within id (pairs.eraseIdx (first + i)) :=
        fun p hp => hpairs p (List.mem_of_mem_eraseIdx hp)
      have rest {more : List (NodeId × NodeId)} (hmore : g.Within id more) :
          Finds g (Construct.mergeFrom fuel id (first + i) (merged ++ more)) fun _ => True :=
        ih id _ (hmerged.append hmore)
      have nothing {id : NodeId} : g.Within id [] := fun p hp => absurd hp List.not_mem_nil
      refine (setPairs without).bind fun _ _ => (node id).bind fun outer _ =>
        (node _).bind fun n held => ?_
      split
      · exact (ih _ 0 nothing).bind fun _ _ => (pairsOf _).bind fun more hmore =>
          rest (hmore.above target)
      · rename_i items content
        have inside {item : NodeId} (hitem : item ∈ items) : TransGen g.Encloses id item := by
          refine target.trans (held item ?_)
          rw [content]
          exact hitem
        refine (mapM fun item hitem => (node item).bind fun n _ => ?_).bind
          fun parts (hparts : ∀ part ∈ parts, g.Within id part) => rest ?_
        · split
          · exact (ih _ 0 nothing).bind fun _ _ => (pairsOf item).mono fun more hmore =>
              hmore.above (inside hitem)
          · exact failIn _ _ _ _
        · intro p hp
          obtain ⟨part, hpart, hp⟩ := List.mem_flatten.1 hp
          exact hparts part (List.mem_reverse.1 hpart) p hp
      · exact failIn _ _ _ _

lemma merge (id : NodeId) : Finds g (Construct.merge id) fun _ => True :=
  mergeKeyCount.bind fun _ _ => mergeFrom _ id 0 fun _ hp => absurd hp List.not_mem_nil

/-! ## Filling containers -/

lemma sequenceItems {n : GraphNode}
    (held : ∀ child ∈ n.content.entries, TransGen g.Encloses id child) :
    Finds g (Construct.sequenceItems n) fun items =>
      ∀ item ∈ items, TransGen g.Encloses id item := by
  unfold Construct.sequenceItems
  split
  · rename_i items content
    rw [content] at held
    exact pure held
  · exact failAt _ _

lemma mergedPairs (id : NodeId) (n : GraphNode) :
    Finds g (Construct.mergedPairs id n) (g.Within id) := by
  unfold Construct.mergedPairs
  split
  · exact (merge id).bind fun _ _ => pairsOf id
  · exact failAt _ _

lemma keyAtom (outer : GraphNode) (key : NodeId) :
    Finds g (Construct.keyAtom outer key) fun _ => True := by
  refine get.bind fun c _ => ?_
  split
  · exact pure trivial
  · exact (node _).bind fun _ _ => failIn _ _ _ _

/-- An entry keeps its place, and takes a value that is inside the mapping as well. -/
lemma within_putEntry {entries : List (NodeId × NodeId)} (h : g.Within id entries)
    (cells : Array (Option Cell)) (key : NodeId) {value : NodeId}
    (hvalue : TransGen g.Encloses id value) :
    g.Within id (Construct.putEntry cells entries key value) := by
  intro p hp
  unfold Construct.putEntry at hp
  split at hp
  · obtain ⟨e, he, rfl⟩ := List.mem_map.1 hp
    split
    · exact hvalue
    · exact h e he
  · rcases List.mem_append.1 hp with hp | hp
    · exact h p hp
    · rw [List.mem_singleton.1 hp]
      exact hvalue

lemma createEntries (id : NodeId) (n : GraphNode) :
    Finds g (Construct.createEntries id n) (g.Within id) := by
  refine (mergedPairs id n).bind fun pairs hpairs => foldlM (fun entries p hp hentries => ?_) ?_
  · exact (create _).bind fun _ _ => (keyAtom _ _).bind fun _ _ => (create _).bind fun _ _ =>
      get.bind fun c _ => pure (within_putEntry hentries _ _ (hpairs p hp))
  · exact fun _ hp => absurd hp List.not_mem_nil

lemma createPairs (context : String) (n : GraphNode) :
    Finds g (Construct.createPairs context n) fun _ => True := by
  unfold Construct.createPairs
  split
  · refine (mapM (Q := fun _ => True) fun item _ => (node item).bind fun m _ => ?_).mono
      fun _ _ => trivial
    split
    · exact (create _).bind fun _ _ => (create _).bind fun _ _ => pure trivial
    · exact failIn _ _ _ _
    · exact failIn _ _ _ _
  · exact failIn _ _ _ _

lemma fill (id : NodeId) : Finds g (Construct.fill id) fun _ => True := by
  refine (node id).bind fun n held => ?_
  split
  · exact (sequenceItems held).bind fun _ hitems => (forM create _).bind fun _ _ => setCell hitems
  · refine (createEntries id n).bind fun entries hentries => setCell fun child present => ?_
    obtain ⟨e, he, rfl⟩ := List.mem_map.1 present
    exact hentries e he
  · exact (createEntries id n).bind fun _ _ => setCell (by simp [Cell.entries])
  · exact (createPairs _ n).bind fun _ _ => setCell (by simp [Cell.entries])
  · exact (createPairs _ n).bind fun _ _ => setCell (by simp [Cell.entries])
  · exact pure trivial

lemma fillPending (fuel : ℕ) : Finds g (Construct.fillPending fuel) fun _ => True := by
  induction fuel with
  | zero => exact pure trivial
  | succ fuel ih =>
    refine get.bind fun c hc => ?_
    split
    · exact pure trivial
    · rename_i id rest _
      have popped : Construction.Below g { c with pending := rest } := ⟨hc.nodes, hc.cells⟩
      exact (set popped).bind fun _ _ => (fill id).bind fun _ _ => ih

lemma documents (roots : List NodeId) : Finds g (Construct.documents roots) fun _ => True :=
  forM (fun _ => (create _).bind fun _ _ => get.bind fun _ _ => fillPending _) roots

end Finds

/-- What a list or a map of the data holds is inside its node. -/
lemma Graph.inside_of_encloses {c : Construction} (made : g.constructed = .ok c)
    (held : c.Encloses id child) : TransGen g.Encloses id child := by
  have found := Finds.documents g.roots _ (Construction.Below.start g)
  rw [constructed] at made
  generalize (Construct.documents g.roots).run
    ⟨g.nodes, Array.replicate g.nodes.size none, []⟩ = r at made found
  cases r with
  | error e => cases made
  | ok r =>
    cases made
    exact found.2.cells held

/-- Data that leads to data that contains itself comes from a node that leads to a node inside
itself. -/
theorem Graph.leadsToCycle_of_constructed {c : Construction} (made : g.constructed = .ok c)
    (h : LeadsToCycle c.Encloses id) : LeadsToCycle g.Encloses id := by
  obtain ⟨again, reach, cycle⟩ := h
  refine ⟨again, ?_, ?_⟩
  · exact Relation.reflTransGen_closed
      (fun _ _ held => (Graph.inside_of_encloses made held).to_reflTransGen) _ _ reach
  · exact TransGen.closed (fun _ _ held => Graph.inside_of_encloses made held) _ _ cycle

end KsyTools.Yaml
