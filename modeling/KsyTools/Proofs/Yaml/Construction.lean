/-
# What is constructed for a node

In a graph whose mappings have different texts as keys, nothing is merged and nothing is replaced:
the graph stays as it is, and the cell of a node holds the numbers of the nodes that the node
itself holds.  So what is constructed can be followed in the graph, step by step.
-/
import KsyTools.Yaml.Data.OfGraph
import Mathlib.Data.List.Forall2
import Mathlib.Data.List.Nodup
import Mathlib.Tactic.Common

namespace KsyTools.Yaml

/-! ## Graphs with plain keys -/

/-- The text of a scalar that is read as a text. -/
def Graph.keyText? (g : Graph) (id : NodeId) : Option String :=
  match g.get? id with
  | some n =>
    match n.tag, n.content with
    | .str, .scalar text => some text
    | _, _ => none
  | none => none

lemma Graph.keyText?_eq_some {g : Graph} {id : NodeId} {text : String}
    (h : g.keyText? id = some text) :
    ∃ n, g.get? id = some n ∧ n.tag = .str ∧ n.content = .scalar text := by
  unfold keyText? at h
  split at h
  · rename_i n hn
    split at h
    · rename_i htag hcontent
      rw [Option.some.injEq] at h
      exact ⟨n, hn, htag, h ▸ hcontent⟩
    · cases h
  · cases h

/-- In every mapping, the keys are texts, and no two of them are the same. -/
structure Graph.PlainKeys (g : Graph) : Prop where
  texts : ∀ {id n pairs}, g.get? id = some n → n.content = .mapping pairs →
    ∀ p ∈ pairs, ∃ text, g.keyText? p.1 = some text
  distinct : ∀ {id n pairs}, g.get? id = some n → n.content = .mapping pairs →
    (pairs.map fun p => g.keyText? p.1).Nodup

/-! ## Cells -/

/-- The cell for a node. -/
def Construction.cell? (c : Construction) (id : NodeId) : Option Cell :=
  c.cells.getD id none

/-- What the cell of a node says about the node: a container is still empty, or it holds what the
node holds.  The keys of a map have cells of their own. -/
def GraphNode.Fits (g : Graph) (created : NodeId → Prop) (n : GraphNode) : Cell → Prop
  | .atom a shared =>
    ∀ text, n.tag = .str → n.content = .scalar text → a = .str text ∧ shared = false
  | .list items => n.tag = .seq ∧ (items = [] ∨ n.content = .sequence items)
  | .map entries =>
    n.tag = .map ∧ (entries = [] ∨ n.content = .mapping entries ∧ ∀ e ∈ entries, created e.1)
  | .set _ => n.tag = .set
  | .pairs entries =>
    (n.tag = .omap ∨ n.tag = .pairs) ∧ (entries = [] ∨ ∃ items, n.content = .sequence items ∧
      List.Forall₂ (fun item e => ∃ m, g.get? item = some m ∧ m.content = .mapping [e])
        items entries)

lemma GraphNode.Fits.mono {g : Graph} {created created' : NodeId → Prop} {n : GraphNode}
    {cell : Cell} (h : n.Fits g created cell) (grows : ∀ id, created id → created' id) :
    n.Fits g created' cell := by
  cases cell with
  | map entries =>
    refine ⟨h.1, h.2.imp_right fun h => ⟨h.1, fun e he => grows e.1 (h.2 e he)⟩⟩
  | atom a shared => exact h
  | list items => exact h
  | set members => exact h
  | pairs entries => exact h

/-- The graph is as it was, and all cells fit to their nodes. -/
structure Construction.Sound (g : Graph) (c : Construction) : Prop where
  nodes : c.nodes = g.nodes
  size : c.cells.size = g.nodes.size
  fits : ∀ {id cell}, c.cell? id = some cell →
    ∃ n, g.get? id = some n ∧ n.Fits g (fun key => (c.cell? key).isSome) cell

/-- A key has the cell of its text. -/
lemma Construction.Sound.cell_key {g : Graph} {c : Construction} (h : c.Sound g) {id : NodeId}
    {text : String} (key : g.keyText? id = some text) (created : (c.cell? id).isSome) :
    c.cell? id = some (.atom (.str text) false) := by
  obtain ⟨cell, hcell⟩ := Option.isSome_iff_exists.1 created
  obtain ⟨n, hn, fits⟩ := h.fits hcell
  obtain ⟨m, hm, tag, content⟩ := Graph.keyText?_eq_some key
  obtain rfl : n = m := Option.some.inj (hn.symm.trans hm)
  cases cell with
  | atom a shared =>
    obtain ⟨rfl, rfl⟩ := fits text tag content
    exact hcell
  | list items => exact absurd (tag.symm.trans fits.1) (by simp)
  | map entries => exact absurd (tag.symm.trans fits.1) (by simp)
  | set members => exact absurd (tag.symm.trans fits) (by simp)
  | pairs entries =>
    rcases fits.1 with other | other
    · exact absurd (tag.symm.trans other) (by simp)
    · exact absurd (tag.symm.trans other) (by simp)

/-- A construction goes on: it is sound afterwards, and no cell gets lost. -/
structure Construction.Continues (g : Graph) (c c' : Construction) : Prop where
  sound : c'.Sound g
  grows : ∀ id, (c.cell? id).isSome → (c'.cell? id).isSome

lemma Construction.Continues.trans {g : Graph} {c c' c'' : Construction}
    (h : c.Continues g c') (h' : c'.Continues g c'') : c.Continues g c'' :=
  ⟨h'.sound, fun id created => h'.grows id (h.grows id created)⟩

lemma Construction.Sound.refl {g : Graph} {c : Construction} (h : c.Sound g) :
    c.Continues g c :=
  ⟨h, fun _ created => created⟩

lemma cell?_set (c : Construction) (id i : NodeId) (cell : Cell) :
    Construction.cell? { c with cells := c.cells.set! id (some cell) } i =
      if i = id ∧ id < c.cells.size then some cell else c.cell? i := by
  unfold Construction.cell?
  simp only [Array.set!_eq_setIfInBounds, Array.getD_eq_getD_getElem?,
    Array.getElem?_setIfInBounds]
  by_cases same : id = i
  · subst same
    by_cases inside : id < c.cells.size
    · simp [inside]
    · simp [inside]
  · have other : ¬ i = id := fun h => same h.symm
    simp [same, other]

/-- A cell that fits may be set. -/
lemma Construction.Sound.setCell {g : Graph} {c : Construction} (h : c.Sound g) {id : NodeId}
    {cell : Cell} (fits : ∀ n, g.get? id = some n →
      n.Fits g (fun key => (c.cell? key).isSome) cell) :
    c.Continues g { c with cells := c.cells.set! id (some cell) } := by
  have grows (i : NodeId) (created : (c.cell? i).isSome) :
      (cell? { c with cells := c.cells.set! id (some cell) } i).isSome := by
    rw [cell?_set]
    split
    · rfl
    · exact created
  refine ⟨⟨h.nodes, by simp [h.size], ?_⟩, grows⟩
  intro i other hi
  rw [cell?_set] at hi
  split at hi
  · rename_i here
    obtain ⟨rfl, inside⟩ := here
    have inside : i < g.nodes.size := h.size ▸ inside
    have hn : g.get? i = some g.nodes[i] := Array.getElem?_eq_getElem inside
    rw [Option.some.injEq] at hi
    exact ⟨_, hn, hi ▸ (fits _ hn).mono grows⟩
  · obtain ⟨n, hn, fits⟩ := h.fits hi
    exact ⟨n, hn, fits.mono grows⟩

/-! ## Runs -/

namespace Construct

variable {α β : Type} {g : Graph} {c c' : Construction}

/-- A sequence of computations ends well if both do. -/
lemma run_bind_eq_ok {m : Construct α} {f : α → Construct β} {r : β × Construction} :
    (m >>= f).run c = .ok r ↔ ∃ a c₁, m.run c = .ok (a, c₁) ∧ (f a).run c₁ = .ok r := by
  rw [StateT.run_bind]
  cases h : m.run c with
  | error e => simp [bind, Except.bind]
  | ok x =>
    obtain ⟨a, c₁⟩ := x
    simp [bind, Except.bind]

@[simp] lemma run_pure (a : α) : (pure a : Construct α).run c = .ok (a, c) := rfl

@[simp] lemma run_get : (get : Construct Construction).run c = .ok (c, c) := rfl

lemma run_get_bind (f : Construction → Construct α) : (get >>= f).run c = (f c).run c := rfl

@[simp] lemma run_set (c₁ : Construction) :
    (set c₁ : Construct PUnit).run c = .ok (⟨⟩, c₁) := rfl

@[simp] lemma run_modify (f : Construction → Construction) :
    (modify f : Construct PUnit).run c = .ok (⟨⟩, f c) := rfl

@[simp] lemma run_node (id : NodeId) :
    (node id).run c = .ok (c.nodes.getD id default, c) := rfl

/-- A computation that keeps a construction sound and loses no cells, whenever it ends well. -/
def Advances (g : Graph) (m : Construct α) : Prop :=
  ∀ c, c.Sound g → ∀ a c', m.run c = .ok (a, c') → c.Continues g c'

namespace Advances

lemma pure (a : α) : Advances g (Pure.pure a : Construct α) := by
  rintro c sound b c' ⟨⟩
  exact sound.refl

lemma bind {m : Construct α} {f : α → Construct β} (hm : Advances g m)
    (hf : ∀ a, Advances g (f a)) : Advances g (m >>= f) := by
  intro c sound b c' h
  obtain ⟨a, c₁, first, second⟩ := run_bind_eq_ok.1 h
  have step := hm c sound a c₁ first
  exact step.trans (hf a c₁ step.sound b c' second)

lemma forM {f : α → Construct PUnit} (hf : ∀ a, Advances g (f a)) (as : List α) :
    Advances g (as.forM f) := by
  induction as with
  | nil => exact pure _
  | cons a as ih =>
    change Advances g (f a >>= fun _ => as.forM f)
    exact (hf a).bind fun _ => ih

end Advances

/-! ## Creating -/

/-- Reading the text of a scalar changes nothing; the text of a scalar node is its own. -/
lemma run_scalarText {fuel : ℕ} {id : NodeId} {text : String}
    (h : (scalarText id fuel).run c = .ok (text, c')) :
    c' = c ∧ ∀ own, (c.nodes.getD id default).content = .scalar own → text = own := by
  induction fuel generalizing id with
  | zero => cases h
  | succ fuel ih =>
    rw [scalarText] at h
    obtain ⟨n, c₁, first, h⟩ := run_bind_eq_ok.1 h
    rw [run_node] at first
    cases first
    split at h
    · rename_i own content
      cases h
      refine ⟨rfl, fun other same => ?_⟩
      rw [content] at same
      cases same
      rfl
    · cases h
    · rename_i pairs content
      obtain ⟨c₁, c₂, first, h⟩ := run_bind_eq_ok.1 h
      cases first
      refine ⟨?_, fun own same => by rw [content] at same; cases same⟩
      dsimp only at h
      split at h
      · exact (ih h).1
      · cases h

lemma run_liftScalar {r : Except ScalarFault α} {a : α} (h : (liftScalar r).run c = .ok (a, c')) :
    c' = c := by
  cases r with
  | error e => cases h
  | ok a => cases h; rfl

lemma run_atomOf {id : NodeId} {n : GraphNode} {r : Atom × Bool}
    (h : (atomOf id n).run c = .ok (r, c')) :
    c' = c ∧ ∀ text, n.tag = .str → (c.nodes.getD id default).content = .scalar text →
      r.1 = .str text ∧ r.2 = false := by
  rw [atomOf, run_get_bind] at h
  obtain ⟨text, c₂, first, rest⟩ := run_bind_eq_ok.1 h
  obtain ⟨rfl, own⟩ := run_scalarText first
  clear h first
  -- every tag but that of texts is none of the tags of a key
  have other {tag : Tag} (htag : n.tag = tag) (hstr : tag ≠ .str) (text : String) :
      n.tag = .str → (c₂.nodes.getD id default).content = .scalar text →
        r.1 = .str text ∧ r.2 = false :=
    fun key _ => absurd (htag.symm.trans key) hstr
  split at rest
  · rename_i tag
    cases rest
    exact ⟨rfl, other tag (by simp)⟩
  · rename_i tag
    obtain ⟨b, c₃, first, last⟩ := run_bind_eq_ok.1 rest
    cases last
    exact ⟨run_liftScalar first, other tag (by simp)⟩
  · rename_i tag
    obtain ⟨b, c₃, first, last⟩ := run_bind_eq_ok.1 rest
    cases last
    exact ⟨run_liftScalar first, other tag (by simp)⟩
  · rename_i tag
    obtain ⟨b, c₃, first, last⟩ := run_bind_eq_ok.1 rest
    cases last
    exact ⟨run_liftScalar first, other tag (by simp)⟩
  · rename_i tag
    split at rest
    · obtain ⟨b, c₃, first, last⟩ := run_bind_eq_ok.1 rest
      cases last
      exact ⟨run_liftScalar first, other tag (by simp)⟩
    · cases rest
  · rename_i tag
    split at rest
    · cases rest
    · split at rest
      · cases rest
        exact ⟨rfl, other tag (by simp)⟩
      · cases rest
  · cases rest
    exact ⟨rfl, fun text _ content => ⟨by rw [own text content], rfl⟩⟩

lemma run_node_bind (id : NodeId) (f : GraphNode → Construct α) :
    (node id >>= f).run c = (f (c.nodes.getD id default)).run c := rfl

/-- Nodes inside the graph are found. -/
lemma node_of_get? (sound : c.Sound g) {id : NodeId} {n : GraphNode} (h : g.get? id = some n) :
    c.nodes.getD id default = n := by
  rw [sound.nodes, Array.getD_eq_getD_getElem?]
  have h : g.nodes[id]? = some n := h
  rw [h]
  rfl

/-- Only nodes of the graph are mappings. -/
lemma get?_of_mapping {id : NodeId} {pairs : List (NodeId × NodeId)}
    (h : (g.nodes.getD id default).content = .mapping pairs) :
    g.get? id = some (g.nodes.getD id default) := by
  rw [Array.getD_eq_getD_getElem?] at h ⊢
  change g.nodes[id]? = _
  cases found : g.nodes[id]? with
  | some n => rfl
  | none =>
    rw [found] at h
    cases h

/-- Which containers wait to be filled does not matter for the cells. -/
lemma continues_setPending (sound : c.Sound g) (pending : List NodeId) :
    c.Continues g { c with pending } :=
  ⟨⟨sound.nodes, sound.size, sound.fits⟩, fun _ created => created⟩

/-- Creating the value of a node sets a cell that fits to it. -/
lemma advances_create (id : NodeId) : Advances g (create id) := by
  intro c sound a c' h
  rw [create, run_get_bind] at h
  split at h
  · cases h
    exact sound.refl
  · rw [run_node_bind] at h
    have container {cell : Cell} {tag : Tag} (htag : (c.nodes.getD id default).tag = tag)
        (fits : ∀ n : GraphNode, n.tag = tag → n.Fits g (fun key => (c.cell? key).isSome) cell) :
        c.Continues g
          { c with cells := c.cells.set! id (some cell), pending := c.pending ++ [id] } := by
      have set : c.Continues g { c with cells := c.cells.set! id (some cell) } :=
        sound.setCell fun n hn => fits n (by rw [← node_of_get? sound hn, htag])
      exact set.trans (continues_setPending set.sound _)
    split at h
    · rename_i tag
      cases h
      exact container tag fun n hn => ⟨hn, .inl rfl⟩
    · rename_i tag
      cases h
      exact container tag fun n hn => ⟨hn, .inl rfl⟩
    · rename_i tag
      cases h
      exact container tag fun n hn => hn
    · rename_i tag
      cases h
      exact container tag fun n hn => ⟨.inl hn, .inl rfl⟩
    · rename_i tag
      cases h
      exact container tag fun n hn => ⟨.inr hn, .inl rfl⟩
    · cases h
    · cases h
    · cases h
    · cases h
    · obtain ⟨r, c₁, first, last⟩ := run_bind_eq_ok.1 h
      obtain ⟨rfl, own⟩ := run_atomOf first
      cases last
      refine sound.setCell fun n hn text tag content => ?_
      rw [node_of_get? sound hn] at own
      exact own text tag content

/-! ## Merging

Without merge keys there is nothing to merge, and plain texts are left as they are.
-/

lemma run_pairsOf (sound : c.Sound g) {id : NodeId} {n : GraphNode}
    {pairs : List (NodeId × NodeId)} (hn : g.get? id = some n)
    (content : n.content = .mapping pairs) : (pairsOf id).run c = .ok (pairs, c) := by
  rw [pairsOf, run_node_bind, node_of_get? sound hn, content]
  rfl

/-- The keys of a mapping have the tag of texts. -/
lemma tag_key (keys : g.PlainKeys) {id : NodeId} {n : GraphNode} {pairs : List (NodeId × NodeId)}
    (hn : g.get? id = some n) (content : n.content = .mapping pairs) {p : NodeId × NodeId}
    (hp : p ∈ pairs) : (g.nodes.getD p.1 default).tag = .str := by
  obtain ⟨text, htext⟩ := keys.texts hn content p hp
  obtain ⟨k, hk, tag, -⟩ := Graph.keyText?_eq_some htext
  have hk : g.nodes[p.1]? = some k := hk
  rw [Array.getD_eq_getD_getElem?, hk]
  exact tag

lemma run_plainValueKeys (sound : c.Sound g) {pairs : List (NodeId × NodeId)}
    (texts : ∀ p ∈ pairs, (g.nodes.getD p.1 default).tag = .str) :
    (plainValueKeys pairs).run c = .ok ((), c) := by
  have kept : pairs.foldl (fun nodes p => nodes.modify p.1 fun n =>
      if n.tag = .value then { n with tag := .str } else n) c.nodes = c.nodes := by
    rw [sound.nodes]
    induction pairs with
    | nil => rfl
    | cons p pairs ih =>
      rw [List.forall_mem_cons] at texts
      have same : g.nodes.modify p.1 (fun n =>
          if n.tag = .value then { n with tag := .str } else n) = g.nodes := by
        ext i hi hi'
        · simp
        · rw [Array.getElem_modify]
          split
          · rename_i here
            subst here
            have tag : g.nodes[p.1].tag = .str := by
              rw [← texts.1, Array.getD_eq_getD_getElem?, Array.getElem?_eq_getElem hi']
              rfl
            rw [if_neg (by rw [tag]; simp)]
          · rfl
      rw [List.foldl_cons, same]
      exact ih texts.2
  rw [plainValueKeys, run_modify]
  exact congrArg (fun nodes => Except.ok ((), { c with nodes })) kept

lemma run_merge (keys : g.PlainKeys) (sound : c.Sound g) {id : NodeId} {n : GraphNode}
    {pairs : List (NodeId × NodeId)} (hn : g.get? id = some n)
    (content : n.content = .mapping pairs) : (merge id).run c = .ok ((), c) := by
  have texts : ∀ p ∈ pairs, (g.nodes.getD p.1 default).tag = .str :=
    fun p hp => tag_key keys hn content hp
  have none :
      pairs.findIdx? (fun p => decide ((c.nodes.getD p.1 default).tag = .merge)) = none := by
    rw [List.findIdx?_eq_none_iff]
    intro p hp
    rw [sound.nodes, texts p hp]
    rfl
  have count : ∃ k, mergeKeyCount.run c = .ok (k, c) := ⟨_, rfl⟩
  obtain ⟨k, hk⟩ := count
  have first : (mergeFrom (k + 1) id 0 []).run c = .ok ((), c) := by
    rw [mergeFrom]
    refine run_bind_eq_ok.2 ⟨pairs, c, run_pairsOf sound hn content, ?_⟩
    refine run_bind_eq_ok.2 ⟨(), c, run_plainValueKeys sound texts, ?_⟩
    rw [run_get_bind]
    simp only [List.drop_zero, none]
    rfl
  rw [merge]
  exact run_bind_eq_ok.2 ⟨k, c, hk, first⟩

/-! ## Filling -/

lemma run_keyAtom {outer : GraphNode} {key : NodeId} {r : Atom × Bool}
    (h : (keyAtom outer key).run c = .ok (r, c')) : c' = c ∧ (c.cell? key).isSome := by
  rw [keyAtom, run_get_bind] at h
  split at h
  · rename_i found
    cases h
    exact ⟨rfl, by rw [Construction.cell?, found]; rfl⟩
  · cases h

/-- Keys of different texts are different. -/
lemma sameKey_eq_false (sound : c.Sound g) {a b : NodeId} {s t : String}
    (ha : g.keyText? a = some s) (hb : g.keyText? b = some t) (createdA : (c.cell? a).isSome)
    (createdB : (c.cell? b).isSome) (ne : s ≠ t) : sameKey c.cells a b = false := by
  have hA : c.cells.getD a none = some (.atom (.str s) false) := sound.cell_key ha createdA
  have hB : c.cells.getD b none = some (.atom (.str t) false) := sound.cell_key hb createdB
  have distinct : a ≠ b := by
    rintro rfl
    exact ne (Option.some.inj (ha.symm.trans hb))
  rw [sameKey, hA, hB]
  simp [distinct, Atom.same, ne]

/-- One entry after another is created, and put behind those that are there. -/
lemma run_entries {n : GraphNode} {todo : List (NodeId × NodeId)} :
    ∀ (made : List (NodeId × NodeId)) {c c' : Construction} {entries : List (NodeId × NodeId)},
      c.Sound g → (∀ e ∈ made, (c.cell? e.1).isSome) →
      (∀ p ∈ made ++ todo, ∃ text, g.keyText? p.1 = some text) →
      ((made ++ todo).map fun p => g.keyText? p.1).Nodup →
      (todo.foldlM (fun entries (key, value) => do
        create key
        let _ ← keyAtom n key
        create value
        return putEntry (← get).cells entries key value) made : Construct _).run c =
          .ok (entries, c') →
      entries = made ++ todo ∧ c.Continues g c' ∧ ∀ e ∈ made ++ todo, (c'.cell? e.1).isSome := by
  induction todo with
  | nil =>
    rintro made c c' entries sound created - - ⟨⟩
    rw [List.append_nil]
    exact ⟨rfl, sound.refl, created⟩
  | cons p todo ih =>
    intro made c c' entries sound created texts distinct h
    obtain ⟨key, value⟩ := p
    rw [List.foldlM_cons] at h
    obtain ⟨next, c₃, entry, rest⟩ := run_bind_eq_ok.1 h
    obtain ⟨u, c₁, createKey, behindKey⟩ := run_bind_eq_ok.1 entry
    obtain ⟨r, c₂, atom, behindAtom⟩ := run_bind_eq_ok.1 behindKey
    obtain ⟨u', c₂', createValue, last⟩ := run_bind_eq_ok.1 behindAtom
    obtain ⟨rfl, hasKey⟩ := run_keyAtom atom
    have step₁ := advances_create key c sound u c₂ createKey
    have step₂ := advances_create value c₂ step₁.sound u' c₂' createValue
    have step := step₁.trans step₂
    rw [run_get_bind] at last
    cases last
    have put : putEntry c₃.cells made key value = made ++ [(key, value)] := by
      rw [putEntry, if_neg]
      rw [Bool.not_eq_true, List.any_eq_false]
      intro e he
      obtain ⟨s, hs⟩ := texts e (by simp [he])
      obtain ⟨t, ht⟩ := texts (key, value) (by simp)
      have ne : s ≠ t := by
        rintro rfl
        rw [List.map_append, List.nodup_append] at distinct
        refine distinct.2.2 (g.keyText? e.1) (List.mem_map_of_mem he) (g.keyText? key) (by simp) ?_
        rw [hs, ht]
      rw [sameKey_eq_false step₂.sound hs ht (step.grows _ (created e he))
        (step₂.grows _ hasKey) ne]
      simp
    rw [put] at rest
    have created' : ∀ e ∈ made ++ [(key, value)], (c₃.cell? e.1).isSome := by
      intro e he
      rcases List.mem_append.1 he with he | he
      · exact step.grows _ (created e he)
      · rw [List.mem_singleton.1 he]
        exact step₂.grows _ hasKey
    have assoc : made ++ (key, value) :: todo = (made ++ [(key, value)]) ++ todo := by simp
    rw [assoc] at texts distinct ⊢
    obtain ⟨rfl, further, all⟩ := ih _ step₂.sound created' texts distinct rest
    exact ⟨rfl, step.trans further, all⟩

lemma run_createEntries (keys : g.PlainKeys) (sound : c.Sound g) {id : NodeId} {n : GraphNode}
    {entries : List (NodeId × NodeId)} (hn : g.nodes.getD id default = n)
    (h : (createEntries id n).run c = .ok (entries, c')) :
    n.content = .mapping entries ∧ c.Continues g c' ∧ ∀ e ∈ entries, (c'.cell? e.1).isSome := by
  rw [createEntries] at h
  obtain ⟨pairs, c₁, merged, rest⟩ := run_bind_eq_ok.1 h
  rw [mergedPairs] at merged
  split at merged
  · rename_i pairs' content
    have hn : g.get? id = some n := by
      subst hn
      exact get?_of_mapping content
    obtain ⟨u, c₂, nothing, got⟩ := run_bind_eq_ok.1 merged
    rw [run_merge keys sound hn content] at nothing
    cases nothing
    rw [run_pairsOf sound hn content] at got
    cases got
    obtain ⟨rfl, further, created⟩ := run_entries [] sound (by simp) (keys.texts hn content)
      (keys.distinct hn content) rest
    exact ⟨content, further, created⟩
  · cases merged

/-- The pairs of a sequence of mappings with one pair each. -/
lemma run_createPairs {context : String} {n : GraphNode} {entries : List (NodeId × NodeId)}
    (sound : c.Sound g) (h : (createPairs context n).run c = .ok (entries, c')) :
    c.Continues g c' ∧ ∃ items, n.content = .sequence items ∧
      List.Forall₂ (fun item e => (g.nodes.getD item default).content = .mapping [e])
        items entries := by
  rw [createPairs] at h
  split at h
  · rename_i items content
    suffices c.Continues g c' ∧ List.Forall₂
        (fun item e => (g.nodes.getD item default).content = .mapping [e]) items entries from
      ⟨this.1, items, content, this.2⟩
    clear content
    induction items generalizing c entries with
    | nil =>
      rw [List.mapM_nil] at h
      cases h
      exact ⟨sound.refl, .nil⟩
    | cons item items ih =>
      rw [List.mapM_cons] at h
      obtain ⟨e, c₁, first, rest⟩ := run_bind_eq_ok.1 h
      obtain ⟨es, c₂, others, last⟩ := run_bind_eq_ok.1 rest
      cases last
      rw [run_node_bind] at first
      split at first
      · rename_i key value single
        obtain ⟨u, c₃, createKey, behindKey⟩ := run_bind_eq_ok.1 first
        obtain ⟨u', c₄, createValue, last⟩ := run_bind_eq_ok.1 behindKey
        cases last
        have step₁ := advances_create key c sound u c₃ createKey
        have step₂ := advances_create value c₃ step₁.sound u' c₁ createValue
        obtain ⟨further, pairs⟩ := ih step₂.sound others
        rw [sound.nodes] at single
        exact ⟨(step₁.trans step₂).trans further, .cons single pairs⟩
      · cases first
      · cases first
  · cases h

lemma fits_pairs {n : GraphNode} {created : NodeId → Prop} {items : List NodeId}
    {entries : List (NodeId × NodeId)} (tag : n.tag = .omap ∨ n.tag = .pairs)
    (content : n.content = .sequence items)
    (pairs : List.Forall₂ (fun item e => (g.nodes.getD item default).content = .mapping [e])
      items entries) : n.Fits g created (.pairs entries) :=
  ⟨tag, .inr ⟨items, content, pairs.imp fun _ _ single => ⟨_, get?_of_mapping single, single⟩⟩⟩

/-- Filling a container sets a cell that fits to it. -/
lemma advances_fill (keys : g.PlainKeys) (id : NodeId) : Advances g (fill id) := by
  intro c sound a c' h
  rw [fill, run_node_bind] at h
  have here {n : GraphNode} (hn : g.get? id = some n) {tag : Tag}
      (htag : (c.nodes.getD id default).tag = tag) : n.tag = tag := by
    rw [← htag, node_of_get? sound hn]
  split at h
  · rename_i tag
    obtain ⟨items, c₁, got, rest⟩ := run_bind_eq_ok.1 h
    obtain ⟨u, c₂, created, last⟩ := run_bind_eq_ok.1 rest
    rw [sequenceItems] at got
    split at got
    · rename_i items' content
      cases got
      cases last
      have step := Advances.forM advances_create items c sound u c₂ created
      refine step.trans (step.sound.setCell fun n hn => ⟨here hn tag, .inr ?_⟩)
      rw [← node_of_get? sound hn, content]
    · cases got
  · rename_i tag
    obtain ⟨entries, c₁, created, last⟩ := run_bind_eq_ok.1 h
    cases last
    obtain ⟨content, step, hasKeys⟩ := run_createEntries keys sound (by rw [sound.nodes]) created
    refine step.trans (step.sound.setCell fun n hn => ⟨here hn tag, .inr ⟨?_, hasKeys⟩⟩)
    rw [← node_of_get? sound hn, content]
  · rename_i tag
    obtain ⟨entries, c₁, created, last⟩ := run_bind_eq_ok.1 h
    cases last
    obtain ⟨-, step, -⟩ := run_createEntries keys sound (by rw [sound.nodes]) created
    exact step.trans (step.sound.setCell fun n hn => here hn tag)
  · rename_i tag
    obtain ⟨entries, c₁, created, last⟩ := run_bind_eq_ok.1 h
    cases last
    obtain ⟨step, items, content, pairs⟩ := run_createPairs sound created
    exact step.trans (step.sound.setCell fun n hn =>
      fits_pairs (.inl (here hn tag)) (by rw [← node_of_get? sound hn, content]) pairs)
  · rename_i tag
    obtain ⟨entries, c₁, created, last⟩ := run_bind_eq_ok.1 h
    cases last
    obtain ⟨step, items, content, pairs⟩ := run_createPairs sound created
    exact step.trans (step.sound.setCell fun n hn =>
      fits_pairs (.inr (here hn tag)) (by rw [← node_of_get? sound hn, content]) pairs)
  · cases h
    exact sound.refl

lemma advances_fillPending (keys : g.PlainKeys) (fuel : ℕ) : Advances g (fillPending fuel) := by
  induction fuel with
  | zero => exact .pure ()
  | succ fuel ih =>
    intro c sound a c' h
    rw [fillPending, run_get_bind] at h
    split at h
    · cases h
      exact sound.refl
    · rename_i id rest _
      obtain ⟨u, c₁, first, behind⟩ := run_bind_eq_ok.1 h
      cases first
      have step := continues_setPending sound rest
      exact step.trans ((advances_fill keys id).bind (fun _ => ih) _ step.sound a c' behind)

lemma advances_documents (keys : g.PlainKeys) (roots : List NodeId) :
    Advances g (documents roots) := by
  refine Advances.forM (fun root => (advances_create root).bind fun _ => ?_) roots
  intro c sound a c' h
  exact advances_fillPending keys _ c sound a c' h

end Construct

/-! ## Values of nodes -/

/-- What the construction of a graph gives for a node. -/
def Graph.valueOf (g : Graph) (id : NodeId) : Except Failure Data := do
  let (_, c) ← (Construct.documents g.roots).run ⟨g.nodes, Array.replicate g.nodes.size none, []⟩
  return unfoldData c.cells none [] id

/-- The values of a graph are read off cells that fit to its nodes. -/
lemma Graph.data_of_plainKeys {g : Graph} (keys : g.PlainKeys) {ds : List Data}
    (h : g.data = .ok ds) :
    ∃ c : Construction, c.Sound g ∧ (∀ id, g.valueOf id = .ok (unfoldData c.cells none [] id)) ∧
      ds = g.roots.map (unfoldData c.cells none []) := by
  have start : Construction.Sound g ⟨g.nodes, Array.replicate g.nodes.size none, []⟩ := by
    refine ⟨rfl, by simp, ?_⟩
    intro id cell found
    rw [Construction.cell?, Array.getD_eq_getD_getElem?, Array.getElem?_replicate] at found
    split at found <;> cases found
  cases run : (Construct.documents g.roots).run
      ⟨g.nodes, Array.replicate g.nodes.size none, []⟩ with
  | error e =>
    simp only [Graph.data, run, bind, Except.bind] at h
    cases h
  | ok r =>
    obtain ⟨u, c⟩ := r
    refine ⟨c, (Construct.advances_documents keys g.roots _ start u c run).sound, ?_, ?_⟩
    · intro id
      simp only [Graph.valueOf, run, bind, Except.bind]
      rfl
    · simp only [Graph.data, run, bind, Except.bind] at h
      cases h
      rfl

end KsyTools.Yaml
