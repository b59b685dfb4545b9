/-
# What can go wrong while values are made

A node graph has no values because of its form, or because one of its nodes has none: the text of a
scalar is not of the form that its tag asks for.  While values are made, mappings are merged and the
keys `=` become plain texts, but every node keeps its kind, and scalars keep their texts.
-/
import KsyTools.Proofs.Yaml.GraphFaults
import KsyTools.Proofs.Yaml.Construction

namespace KsyTools.Yaml

/-! ## Nodes without a value -/

/-- A text is not of the form that a tag asks for. -/
def Tag.Rejects (tag : Tag) (text : String) (fault : ScalarFault) : Prop :=
  match tag with
  | .bool => boolValue text = .error fault
  | .int => intValue text = .error fault
  | .float => floatValue text = .error fault
  | .timestamp => timestampValue text = .error fault
  | _ => False

/-- The node with a number; a number of no node stands for an empty scalar. -/
def Graph.node (g : Graph) (id : NodeId) : GraphNode :=
  g.nodes.getD id default

/-- A node of a graph has no value: a scalar with a text of another form than its tag asks for, or a
mapping that stands for such a text, or for the text of a time stamp. -/
inductive Graph.Faulty (g : Graph) : ScalarFault → Prop
  | scalar {id : NodeId} {n : GraphNode} {text : String} {fault : ScalarFault} :
      g.get? id = some n → n.content = .scalar text → n.tag.Rejects text fault → Faulty g fault
  | mapping {id other : NodeId} {n : GraphNode} {pairs : List (NodeId × NodeId)} {text : String}
      {fault : ScalarFault} : g.get? id = some n → n.content = .mapping pairs →
      (g.node other).content = .scalar text → n.tag.Rejects text fault → Faulty g fault
  | timestamp {id : NodeId} {n : GraphNode} {pairs : List (NodeId × NodeId)} :
      g.get? id = some n → n.content = .mapping pairs → n.tag = .timestamp → Faulty g .notText

variable {g : Graph}

lemma Tag.Rejects.ne_null {tag : Tag} {text : String} {fault : ScalarFault}
    (h : tag.Rejects text fault) : tag ≠ .null := by
  rintro rfl
  exact h

/-- A number of no node stands for the value null. -/
lemma Graph.get?_of_ne_null {id : NodeId} (h : (g.node id).tag ≠ .null) :
    g.get? id = some (g.node id) := by
  unfold get? node at *
  rw [Array.getD_eq_getD_getElem?] at h ⊢
  cases hid : g.nodes[id]? with
  | some n => rfl
  | none =>
    rw [hid] at h
    exact absurd rfl h

/-! ## What becomes of a node -/

/-- A node has the kind of another one, and its text if it is a scalar. -/
structure GraphNode.Follows (n m : GraphNode) : Prop where
  tag : n.tag = m.tag ∨ m.tag = .value ∧ n.tag = .str
  content : n.content = m.content ∨
    (∃ pairs, n.content = .mapping pairs) ∧ ∃ pairs, m.content = .mapping pairs

namespace GraphNode.Follows

variable {n m : GraphNode}

lemma refl (n : GraphNode) : n.Follows n := ⟨.inl rfl, .inl rfl⟩

lemma rejects (h : n.Follows m) {text : String} {fault : ScalarFault}
    (hrejects : n.tag.Rejects text fault) : m.tag.Rejects text fault := by
  rcases h.tag with same | ⟨-, hstr⟩
  · rwa [← same]
  · rw [hstr] at hrejects
    exact hrejects.elim

lemma scalar_iff (h : n.Follows m) {text : String} :
    n.content = .scalar text ↔ m.content = .scalar text := by
  rcases h.content with same | ⟨⟨_, hn⟩, ⟨_, hm⟩⟩
  · rw [same]
  · simp [hn, hm]

lemma exists_mapping_iff (h : n.Follows m) :
    (∃ pairs, n.content = .mapping pairs) ↔ ∃ pairs, m.content = .mapping pairs := by
  rcases h.content with same | ⟨hn, hm⟩
  · rw [same]
  · exact iff_of_true hn hm

lemma setPairs (h : n.Follows m) {pairs : List (NodeId × NodeId)}
    (hm : ∃ pairs, m.content = .mapping pairs) :
    GraphNode.Follows { n with content := .mapping pairs } m :=
  ⟨h.tag, .inr ⟨⟨_, rfl⟩, hm⟩⟩

lemma plainValueKey (h : n.Follows m) (hn : n.tag = .value) :
    GraphNode.Follows { n with tag := .str } m := by
  refine ⟨?_, h.content⟩
  rcases h.tag with same | ⟨-, hstr⟩
  · exact .inr ⟨same.symm.trans hn, rfl⟩
  · rw [hn] at hstr
    cases hstr

end GraphNode.Follows

/-- All nodes are those of a graph, but for what was merged. -/
def Construction.Over (g : Graph) (c : Construction) : Prop :=
  ∀ id, (c.nodes.getD id default).Follows (g.node id)

/-- A part of the construction keeps the kinds of the nodes, and fails because of the form of the
graph or because of a node without a value. -/
def Builds (g : Graph) {α : Type} (m : Construct α) : Prop :=
  Keeps (Failure.DueTo g.Faulty) (Construction.Over g) m

/-- A node may be changed as long as it follows its node in the graph. -/
lemma Construction.Over.modify {c : Construction} (h : c.Over g) {id : NodeId}
    {f : GraphNode → GraphNode} (hf : ∀ n, n.Follows (g.node id) → (f n).Follows (g.node id)) :
    Construction.Over g { c with nodes := c.nodes.modify id f } := by
  intro i
  have hi := h i
  rw [Array.getD_eq_getD_getElem?] at hi ⊢
  rw [Array.getElem?_modify]
  split
  · rename_i same
    subst same
    cases hid : c.nodes[id]? with
    | none =>
      rw [hid] at hi
      exact hi
    | some n =>
      rw [hid] at hi
      exact hf n hi
  · exact hi

namespace Builds

variable {α β : Type}

lemma pure (a : α) : Builds g (Pure.pure a) := Keeps.pure a

lemma bind {m : Construct α} {f : α → Construct β} (hm : Builds g m) (hf : ∀ a, Builds g (f a)) :
    Builds g (m >>= f) :=
  Keeps.bind hm hf

lemma get : Builds g (MonadState.get : Construct Construction) := Keeps.get

lemma mapM {f : α → Construct β} (hf : ∀ a, Builds g (f a)) (as : List α) : Builds g (as.mapM f) :=
  Keeps.mapM hf as

lemma forM {f : α → Construct PUnit} (hf : ∀ a, Builds g (f a)) (as : List α) :
    Builds g (as.forM f) :=
  Keeps.forM hf as

lemma foldlM {f : β → α → Construct β} (hf : ∀ b a, Builds g (f b a)) (b : β) (as : List α) :
    Builds g (as.foldlM f b) :=
  Keeps.foldlM hf b as

/-- A node of the construction follows its node in the graph. -/
lemma node_meets {id : NodeId} {f : GraphNode → Construct β} {post : β → Construction → Prop}
    (hf : ∀ n, n.Follows (g.node id) →
      Meets (Failure.DueTo g.Faulty) (Construction.Over g) (f n) post) :
    Meets (Failure.DueTo g.Faulty) (Construction.Over g) (Construct.node id >>= f) post :=
  fun c hc => hf _ (hc id) c hc

lemma node_bind {id : NodeId} {f : GraphNode → Construct β}
    (hf : ∀ n, n.Follows (g.node id) → Builds g (f n)) : Builds g (Construct.node id >>= f) :=
  fun c hc => hf _ (hc id) c hc

lemma failAt (n : GraphNode) (problem : String) :
    Builds g (Construct.failAt n problem : Construct α) :=
  Keeps.throw trivial

lemma failIn (context : String) (outer : GraphNode) (problem : String) (n : GraphNode) :
    Builds g (Construct.failIn context outer problem n : Construct α) :=
  Keeps.throw trivial

lemma setCell (id : NodeId) (cell : Cell) : Builds g (Construct.setCell id cell) :=
  Keeps.change fun _ hc => hc

/-! ## Scalars -/

lemma liftScalar {r : Except ScalarFault α} (h : ∀ fault, r = .error fault → g.Faulty fault) :
    Builds g (Construct.liftScalar r) := by
  cases r with
  | ok a => exact pure a
  | error fault => exact Keeps.throw (h fault rfl)

/-- The text of a node is its own if it is a scalar, and that of some scalar otherwise. -/
lemma scalarText (id : NodeId) (fuel : ℕ) :
    Meets (Failure.DueTo g.Faulty) (Construction.Over g) (Construct.scalarText id fuel)
      fun text c =>
      ((∃ pairs, (g.node id).content = .mapping pairs) ∨ (g.node id).content = .scalar text) ∧
        (∃ other, (g.node other).content = .scalar text) ∧ c.Over g := by
  induction fuel generalizing id with
  | zero => exact Meets.throw trivial
  | succ fuel ih =>
    refine node_meets fun n hn => ?_
    split
    · rename_i text htext
      have htext := hn.scalar_iff.1 htext
      exact Meets.pure fun c hc => ⟨.inr htext, ⟨id, htext⟩, hc⟩
    · exact Meets.throw trivial
    · rename_i pairs hpairs
      have hmapping := hn.exists_mapping_iff.1 ⟨pairs, hpairs⟩
      refine Meets.bind Keeps.get fun c => ?_
      dsimp only
      split
      · exact (ih _).mono fun text c h => ⟨.inl hmapping, h.2⟩
      · exact Meets.throw trivial

/-- What is done with the text of a node has to be right for such texts only. -/
lemma scalarText_bind {id : NodeId} {fuel : ℕ} {f : String → Construct β}
    (hf : ∀ text, ((∃ pairs, (g.node id).content = .mapping pairs) ∨
        (g.node id).content = .scalar text) →
      (∃ other, (g.node other).content = .scalar text) → Builds g (f text)) :
    Builds g (Construct.scalarText id fuel >>= f) := by
  unfold Builds Keeps
  exact (scalarText id fuel).bind fun text c h => hf text h.1 h.2.1 c h.2.2

lemma atomOf {id : NodeId} {n : GraphNode} (hn : n.Follows (g.node id)) :
    Builds g (Construct.atomOf id n) := by
  refine get.bind fun c => scalarText_bind fun text own ⟨other, hother⟩ => ?_
  have rejected {fault : ScalarFault} (h : n.tag.Rejects text fault) : g.Faulty fault := by
    have h := hn.rejects h
    have hid := Graph.get?_of_ne_null h.ne_null
    rcases own with ⟨pairs, hpairs⟩ | htext
    · exact .mapping hid hpairs hother h
    · exact .scalar hid htext h
  split
  · exact pure _
  · rename_i htag
    exact (liftScalar fun fault h => rejected (htag ▸ h)).bind fun _ => pure _
  · rename_i htag
    exact (liftScalar fun fault h => rejected (htag ▸ h)).bind fun _ => pure _
  · rename_i htag
    exact (liftScalar fun fault h => rejected (htag ▸ h)).bind fun _ => pure _
  · rename_i htag
    split
    · exact (liftScalar fun fault h => rejected (htag ▸ h)).bind fun _ => pure _
    · rename_i hcontent
      have hstamp : (g.node id).tag = .timestamp := by
        rcases hn.tag with same | ⟨-, hstr⟩
        · exact same ▸ htag
        · rw [htag] at hstr
          cases hstr
      have hid : g.get? id = some (g.node id) := Graph.get?_of_ne_null (by simp [hstamp])
      rcases own with ⟨pairs, hpairs⟩ | htext
      · exact Keeps.throw (.timestamp hid hpairs hstamp)
      · exact absurd (hn.scalar_iff.2 htext) (hcontent text)
  · split
    · exact failAt _ _
    · split
      · exact pure _
      · exact failAt _ _
  · exact pure _

lemma create (id : NodeId) : Builds g (Construct.create id) := by
  have container (cell : Cell) : Builds g (do
      Construct.setCell id cell
      modify fun c => { c with pending := c.pending ++ [id] }) :=
    (setCell _ _).bind fun _ => Keeps.change fun _ hc => hc
  refine get.bind fun c => ?_
  split
  · exact pure _
  · refine node_bind fun n hn => ?_
    dsimp only
    split
    · exact container _
    · exact container _
    · exact container _
    · exact container _
    · exact container _
    · exact failAt _ _
    · exact failAt _ _
    · exact failAt _ _
    · exact failAt _ _
    · exact (atomOf hn).bind fun _ => setCell _ _

/-! ## Merge keys -/

lemma pairsOf (id : NodeId) : Builds g (Construct.pairsOf id) := by
  refine node_bind fun n _ => ?_
  split <;> exact pure _

lemma setPairs {id : NodeId} (hid : ∃ pairs, (g.node id).content = .mapping pairs)
    (pairs : List (NodeId × NodeId)) : Builds g (Construct.setPairs id pairs) :=
  Keeps.change fun _ hc => hc.modify fun _ hn => hn.setPairs hid

lemma mergeKeyCount : Builds g Construct.mergeKeyCount := get.bind fun _ => pure _

lemma plainValueKeys (pairs : List (NodeId × NodeId)) :
    Builds g (Construct.plainValueKeys pairs) := by
  refine Keeps.change fun c hc => ?_
  induction pairs generalizing c with
  | nil => exact hc
  | cons p pairs ih =>
    have hp : Construction.Over g { c with nodes := c.nodes.modify p.1 fun n =>
        if n.tag = .value then { n with tag := .str } else n } := by
      refine hc.modify fun n hn => ?_
      split
      · rename_i hvalue
        exact hn.plainValueKey hvalue
      · exact hn
    exact ih _ hp

lemma putMerged {id : NodeId} (hid : ∃ pairs, (g.node id).content = .mapping pairs)
    (merged pairs : List (NodeId × NodeId)) : Builds g (Construct.putMerged id merged pairs) := by
  unfold Construct.putMerged
  split
  · exact pure _
  · exact setPairs hid _

/-- Only mappings are merged. -/
lemma mergeFrom (fuel : ℕ) {id : NodeId} (hid : ∃ pairs, (g.node id).content = .mapping pairs)
    (first : ℕ) (merged : List (NodeId × NodeId)) :
    Builds g (Construct.mergeFrom fuel id first merged) := by
  induction fuel generalizing id first merged with
  | zero => exact (pairsOf id).bind fun _ => (plainValueKeys _).bind fun _ => putMerged hid _ _
  | succ fuel ih =>
    refine (pairsOf id).bind fun pairs => (plainValueKeys _).bind fun _ => get.bind fun c => ?_
    dsimp only
    split
    · exact putMerged hid _ _
    · rename_i i _
      have hrest (more : List (NodeId × NodeId)) :
          Builds g (Construct.mergeFrom fuel id (first + i) (merged ++ more)) := ih hid _ _
      refine (setPairs hid _).bind fun _ => node_bind fun outer _ => node_bind fun n hn => ?_
      split
      · rename_i hmapping
        exact (ih (hn.exists_mapping_iff.1 ⟨_, hmapping⟩) _ _).bind fun _ => (pairsOf _).bind hrest
      · refine (mapM (fun item => ?_) _).bind fun parts => hrest _
        refine node_bind fun n hn => ?_
        split
        · rename_i hmapping
          exact (ih (hn.exists_mapping_iff.1 ⟨_, hmapping⟩) _ _).bind fun _ => pairsOf _
        · exact failIn _ _ _ _
      · exact failIn _ _ _ _

lemma merge {id : NodeId} (hid : ∃ pairs, (g.node id).content = .mapping pairs) :
    Builds g (Construct.merge id) :=
  mergeKeyCount.bind fun _ => mergeFrom _ hid _ _

/-! ## Filling containers -/

lemma sequenceItems (n : GraphNode) : Builds g (Construct.sequenceItems n) := by
  unfold Construct.sequenceItems
  split
  · exact pure _
  · exact failAt _ _

lemma mergedPairs {id : NodeId} {n : GraphNode} (hn : n.Follows (g.node id)) :
    Builds g (Construct.mergedPairs id n) := by
  unfold Construct.mergedPairs
  split
  · rename_i hmapping
    exact (merge (hn.exists_mapping_iff.1 ⟨_, hmapping⟩)).bind fun _ => pairsOf _
  · exact failAt _ _

lemma keyAtom (outer : GraphNode) (key : NodeId) : Builds g (Construct.keyAtom outer key) := by
  refine get.bind fun c => ?_
  split
  · exact pure _
  · exact node_bind fun _ _ => failIn _ _ _ _

lemma createEntries {id : NodeId} {n : GraphNode} (hn : n.Follows (g.node id)) :
    Builds g (Construct.createEntries id n) :=
  (mergedPairs hn).bind fun _ => foldlM (fun _ _ => (create _).bind fun _ =>
    (keyAtom _ _).bind fun _ => (create _).bind fun _ => get.bind fun _ => pure _) _ _

lemma createPairs (context : String) (n : GraphNode) :
    Builds g (Construct.createPairs context n) := by
  unfold Construct.createPairs
  split
  · refine mapM (fun item => node_bind fun m _ => ?_) _
    split
    · exact (create _).bind fun _ => (create _).bind fun _ => pure _
    · exact failIn _ _ _ _
    · exact failIn _ _ _ _
  · exact failIn _ _ _ _

lemma fill (id : NodeId) : Builds g (Construct.fill id) := by
  refine node_bind fun n hn => ?_
  split
  · exact (sequenceItems n).bind fun _ => (forM create _).bind fun _ => setCell _ _
  · exact (createEntries hn).bind fun _ => setCell _ _
  · exact (createEntries hn).bind fun _ => setCell _ _
  · exact (createPairs _ _).bind fun _ => setCell _ _
  · exact (createPairs _ _).bind fun _ => setCell _ _
  · exact pure _

lemma fillPending (fuel : ℕ) : Builds g (Construct.fillPending fuel) := by
  induction fuel with
  | zero => exact pure _
  | succ fuel ih =>
    refine Keeps.get_bind fun c hc => ?_
    split
    · exact Meets.pure fun c' same => same ▸ hc
    · rename_i id rest _
      have hset : Meets (Failure.DueTo g.Faulty) (· = c)
          (set { c with pending := rest } : Construct PUnit) fun _ => Construction.Over g :=
        fun _ _ => hc
      exact hset.bind fun _ => (fill id).bind fun _ => ih

lemma documents (roots : List NodeId) : Builds g (Construct.documents roots) :=
  forM (fun _ => (create _).bind fun _ => get.bind fun _ => fillPending _) _

end Builds

/-- A node graph has no values because of its form, or because of one of its nodes. -/
lemma Graph.gives_data (g : Graph) :
    Gives (Failure.DueTo g.Faulty) (fun _ => True) g.data :=
  Gives.bind (Gives.mono (Builds.documents g.roots ⟨g.nodes, _, _⟩ fun _ => .refl _)
    fun _ _ => trivial) fun _ _ => trivial

/-! ## Documents without a value -/

namespace Construct

variable {c : Construction} {id : NodeId} {n : GraphNode} {text : String} {fault : ScalarFault}

lemma scalarText_of_scalar (hn : c.nodes.getD id default = n) (content : n.content = .scalar text)
    (fuel : ℕ) : (scalarText id (fuel + 1)).run c = .ok (text, c) := by
  rw [scalarText, run_node_bind, hn, content]
  rfl

lemma atomOf_of_rejects (hn : c.nodes.getD id default = n) (content : n.content = .scalar text)
    (rejects : n.tag.Rejects text fault) : (atomOf id n).run c = .error (.scalar fault) := by
  have hbind (f : String → Construct (Atom × Bool)) :
      (scalarText id (c.nodes.size + 1) >>= f).run c = (f text).run c := by
    rw [StateT.run_bind, scalarText_of_scalar hn content]
    rfl
  rw [atomOf, run_get_bind, hbind]
  generalize htag : n.tag = tag at rejects
  cases tag with
  | bool | int | float | timestamp =>
    simp only [Tag.Rejects] at rejects
    simp only [content, rejects]
    rfl
  | _ => exact rejects.elim

/-- A scalar whose text its tag rejects has no value. -/
lemma create_of_rejects (hnew : c.cells.getD id none = none) (hn : c.nodes.getD id default = n)
    (content : n.content = .scalar text) (rejects : n.tag.Rejects text fault) :
    (create id).run c = .error (.scalar fault) := by
  have hatom := atomOf_of_rejects hn content rejects
  rw [create, run_get_bind, hnew]
  simp only [Option.isSome_none, Bool.false_eq_true, if_false]
  rw [run_node_bind, hn]
  generalize htag : n.tag = tag at rejects
  cases tag with
  | bool | int | float | timestamp =>
    dsimp only
    rw [StateT.run_bind, hatom]
    rfl
  | _ => exact rejects.elim

end Construct

/-- A graph whose first document is a scalar without a value has no values. -/
lemma Graph.data_of_rejects {id : NodeId} {rest : List NodeId} {n : GraphNode} {text : String}
    {fault : ScalarFault} (roots : g.roots = id :: rest) (hn : g.get? id = some n)
    (content : n.content = .scalar text) (rejects : n.tag.Rejects text fault) :
    g.data = .error (.scalar fault) := by
  have hnode : g.nodes.getD id default = n := by
    unfold get? at hn
    rw [Array.getD_eq_getD_getElem?, hn, Option.getD_some]
  have hnew : (Array.replicate g.nodes.size (none : Option Cell)).getD id none = none := by
    rw [Array.getD_eq_getD_getElem?, Array.getElem?_replicate]
    split <;> rfl
  have hcreate : (Construct.create id).run ⟨g.nodes, Array.replicate g.nodes.size none, []⟩ =
      .error (.scalar fault) := Construct.create_of_rejects hnew hnode content rejects
  have hrun : (Construct.documents (id :: rest)).run
      ⟨g.nodes, Array.replicate g.nodes.size none, []⟩ = .error (.scalar fault) := by
    change StateT.run ((Construct.create id >>= fun _ => _) >>= fun _ => _) _ = _
    rw [StateT.run_bind, StateT.run_bind, hcreate]
    rfl
  rw [Graph.data, roots, hrun]
  rfl

end KsyTools.Yaml
