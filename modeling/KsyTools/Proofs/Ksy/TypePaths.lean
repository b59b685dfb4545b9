/-
# Paths into nested definitions

A use of a type may be a path: the first name is that of a visible definition, and each further one
is that of a definition nested in the one before.  The check of a path goes down from node to node
and takes the first key that fits, and it knows nothing of blocks of definitions.  In documents
whose mappings have pairwise different keys it finds a path exactly if there is one.

Whatever such a path leads to is visible as well.  A walk takes all definitions of a document that
it enters, and the `types` key in the body of a definition is a block of definitions again.
-/
import KsyTools.Proofs.Ksy.DiscoveryOrder
import KsyTools.Proofs.Ksy.TypeNames
import Mathlib.Data.List.Chain

namespace KsyTools

open FileTree (noFiles)

/-! ## Keys -/

namespace Node

lemma hasKey_iff {n : Node} {key : String} : n.hasKey key ↔ n.is .keyValue ∧ n.text = key := by
  cases n <;> simp [hasKey, key?, is, kind, text, text?]

lemma mem_keyValues {n m : Node} :
    m ∈ n.keyValues ↔ n.is .mapping ∧ (∃ i : ℕ, n.children[i]? = some m) ∧ m.is .keyValue := by
  rw [← List.mem_iff_getElem?]
  cases n <;> simp [keyValues, is, kind, children]

lemma value?_eq_some_iff {n m : Node} :
    n.value? = some m ↔ n.is .keyValue ∧ n.children[0]? = some m := by
  cases n <;> simp [value?, is, kind, children]

/-- Where keys are pairwise different, the first node with a key is the only one. -/
lemma find?_keyValues {n m : Node} {key : String} (h : (n.keyValues.map text).Nodup) :
    n.keyValues.find? (·.hasKey key) = some m ↔ m ∈ n.keyValues ∧ m.hasKey key := by
  constructor
  · intro hfind
    exact ⟨List.mem_of_find?_eq_some hfind, by simpa using List.find?_some hfind⟩
  · rintro ⟨hm, hkey⟩
    obtain ⟨first, hfind⟩ : ∃ first, n.keyValues.find? (·.hasKey key) = some first :=
      Option.isSome_iff_exists.mp (List.find?_isSome.mpr ⟨m, hm, hkey⟩)
    have hfirst : first.hasKey key := by simpa using List.find?_some hfind
    have htext : first.text = m.text := (hasKey_iff.mp hfirst).2.trans (hasKey_iff.mp hkey).2.symm
    rw [hfind, List.inj_on_of_nodup_map h (List.mem_of_find?_eq_some hfind) hm htext]

end Node

/-- The mappings of a document have pairwise different keys. -/
def Document.HasDistinctKeys (d : Document) : Prop :=
  ∀ l ∈ d.walk, (l.node.keyValues.map Node.text).Nodup

/-- A node stands directly inside another one. -/
def Located.Encloses (outer inner : Located) : Prop :=
  ∃ i n, outer.node.children[i]? = some n ∧ inner = outer.child i n

lemma Located.Encloses.mem_walk {d : Document} {outer inner : Located} (h : outer.Encloses inner)
    (houter : outer ∈ d.walk) : inner ∈ d.walk := by
  obtain ⟨i, n, hn, rfl⟩ := h
  exact Document.child_mem_walk houter hn

/-- The node directly inside a key-value node is its value. -/
lemma Located.Encloses.value? {outer inner : Located} (h : outer.Encloses inner)
    (hkey : outer.node.is .keyValue) :
    outer.node.value? = some inner.node ∧ inner.ancestors = outer.node :: outer.ancestors := by
  obtain ⟨i, n, hn, rfl⟩ := h
  cases hnode : outer.node with
  | keyValue range place key keyRange value =>
    obtain ⟨rfl, rfl⟩ : i = 0 ∧ value = n := by
      simpa [hnode, Node.children, List.getElem?_singleton] using hn
    simp [Node.value?, Located.child, hnode]
  | scalar => simp [hnode, Node.is, Node.kind] at hkey
  | sequence => simp [hnode, Node.is, Node.kind] at hkey
  | mapping => simp [hnode, Node.is, Node.kind] at hkey

namespace Ksy

/-! ## Nested definitions -/

/-- A definition nests another one of the same document: that one is a key-value node in the mapping
under the `types` key of the body of the first. -/
def Nests (x y : Definition) : Prop :=
  y.document = x.document ∧ ∃ body block nested : Located,
    x.located.Encloses body ∧ body.node.is .mapping ∧
    body.Encloses block ∧ block.node.hasKey typesKey ∧
    block.Encloses nested ∧ nested.node.is .mapping ∧
    nested.Encloses y.located ∧ y.located.node.is .keyValue

/-- What is nested in a definition is a definition. -/
lemma Nests.defines {x y : Definition} (h : Nests x y) (hx : Defines x.document x.located) :
    Defines y.document y.located := by
  obtain ⟨hdocument, body, block, nested, hbody, hmapping, hblock, hkey, hnested, hmapping', hy,
    hy'⟩ := h
  obtain ⟨hwalk, hx', owner, outer, above, hancestors, houter⟩ := hx
  rw [hdocument]
  refine ⟨hy.mem_walk (hnested.mem_walk (hblock.mem_walk (hbody.mem_walk hwalk))), hy',
    nested.node, block.node, block.ancestors, ?_, ?_⟩
  · have hkind := (Node.hasKey_iff.mp hkey).1
    obtain ⟨j, n, -, heq⟩ := hy
    rw [heq, ← (hnested.value? hkind).2]
    rfl
  · -- the body is that of a type, so its `types` key starts a block
    have hvalue := (hnested.value? (Node.hasKey_iff.mp hkey).1).1
    have hbodyAncestors := (hbody.value? hx').2
    have hblockAncestors : block.ancestors = body.node :: body.ancestors := by
      obtain ⟨i, n, -, heq⟩ := hblock
      rw [heq]
      rfl
    simp only [hblockAncestors, isTypesBlockIn, hbodyAncestors, hancestors, isTypeBodyIn, hvalue,
      Option.any_some, Bool.and_eq_true]
    exact ⟨⟨hkey, hmapping'⟩, ⟨hmapping, hx'⟩, houter⟩

/-- The definition that a name finds inside another one is the nested one with this name. -/
lemma nestedDefinition?_eq_some_iff {x : Definition} (hx : Defines x.document x.located)
    (hkeys : x.document.HasDistinctKeys) {name : String} {inner : Node} :
    nestedDefinition? x.located.node name = some inner ↔
      ∃ y, Nests x y ∧ y.key = name ∧ y.located.node = inner := by
  obtain ⟨hwalk, hkind, -⟩ := hx
  constructor
  · intro h
    simp only [nestedDefinition?, Option.bind_eq_bind, Option.bind_eq_some_iff, Node.get?] at h
    obtain ⟨body, hbody, nested, ⟨block, hblock, hnested⟩, hinner⟩ := h
    obtain ⟨-, hbody⟩ := Node.value?_eq_some_iff.mp hbody
    obtain ⟨-, hnested⟩ := Node.value?_eq_some_iff.mp hnested
    obtain ⟨hmapping, ⟨i, hi⟩, -⟩ := Node.mem_keyValues.mp (List.mem_of_find?_eq_some hblock)
    obtain ⟨hmapping', ⟨j, hj⟩, hinnerKind⟩ :=
      Node.mem_keyValues.mp (List.mem_of_find?_eq_some hinner)
    have hkey : block.hasKey typesKey := by simpa using List.find?_some hblock
    have hname : inner.hasKey name := by simpa using List.find?_some hinner
    let at₁ : Located := x.located.child 0 body
    let at₂ : Located := at₁.child i block
    let at₃ : Located := at₂.child 0 nested
    refine ⟨⟨x.document, at₃.child j inner⟩, ⟨rfl, at₁, at₂, at₃, ⟨0, body, hbody, rfl⟩, hmapping,
      ⟨i, block, hi, rfl⟩, hkey, ⟨0, nested, hnested, rfl⟩, hmapping', ⟨j, inner, hj, rfl⟩,
      hinnerKind⟩, ?_, rfl⟩
    exact (Node.hasKey_iff.mp hname).2
  · rintro ⟨y, ⟨-, body, block, nested, hbody, hmapping, hblock, hkey, hnested, hmapping', hy, hy'⟩,
      rfl, rfl⟩
    have hbodyWalk := hbody.mem_walk hwalk
    have hnestedWalk := hnested.mem_walk (hblock.mem_walk hbodyWalk)
    have hblockKind := (Node.hasKey_iff.mp hkey).1
    have hfirst : body.node.keyValues.find? (·.hasKey typesKey) = some block.node := by
      obtain ⟨i, n, hn, rfl⟩ := hblock
      exact (Node.find?_keyValues (hkeys body hbodyWalk)).mpr
        ⟨Node.mem_keyValues.mpr ⟨hmapping, ⟨i, hn⟩, hblockKind⟩, hkey⟩
    have hsecond : nested.node.keyValues.find? (·.hasKey y.key) = some y.located.node := by
      obtain ⟨j, n, hn, heq⟩ := hy
      refine (Node.find?_keyValues (hkeys nested hnestedWalk)).mpr
        ⟨Node.mem_keyValues.mpr ⟨hmapping', ⟨j, ?_⟩, hy'⟩, Node.hasKey_iff.mpr ⟨hy', rfl⟩⟩
      rw [heq]
      exact hn
    simp only [nestedDefinition?, Option.bind_eq_bind, (hbody.value? hkind).1, Option.bind_some,
      Node.get?, hfirst, (hnested.value? hblockKind).1, hsecond]

/-- The way down a definition succeeds exactly if there are nested definitions with the names. -/
lemma leadsTo_iff {names : List String} : ∀ {x : Definition}, Defines x.document x.located →
    x.document.HasDistinctKeys → (leadsTo x.located.node names ↔
      ∃ chain, (x :: chain).IsChain Nests ∧ chain.map Definition.key = names) := by
  induction names with
  | nil =>
    intro x _ _
    simp [leadsTo]
  | cons name rest ih =>
    intro x hx hkeys
    constructor
    · intro h
      rw [leadsTo] at h
      split at h
      · rename_i inner hinner
        obtain ⟨y, hy, rfl, rfl⟩ := (nestedDefinition?_eq_some_iff hx hkeys).mp hinner
        obtain ⟨chain, hchain, rfl⟩ := (ih (hy.defines hx) (hy.1 ▸ hkeys)).mp h
        exact ⟨y :: chain, .cons_cons hy hchain, rfl⟩
      · simp at h
    · rintro ⟨_ | ⟨y, chain⟩, hchain, hnames⟩
      · simp at hnames
      obtain ⟨rfl, hrest⟩ := List.cons.inj hnames
      obtain ⟨hy, hchain⟩ := List.isChain_cons_cons.mp hchain
      have hinner := (nestedDefinition?_eq_some_iff hx hkeys).mpr ⟨y, hy, rfl, rfl⟩
      rw [leadsTo, hinner]
      exact (ih (hy.defines hx) (hy.1 ▸ hkeys)).mpr ⟨chain, hchain, hrest⟩

/-! ## What a walk takes -/

/-- A part of the walk takes some definitions, and besides them all definitions of some
documents. -/
def Takes (own : List Definition) (w : Collect Unit) : Prop :=
  ∀ (t : FileTree) (s s' : Session) (c c' : Collected), s.run t (w.run c) = (.ok ((), c'), s') →
    ∃ entered : List Document, c'.types.Perm (c.types ++ (own ++ entered.flatMap ownDefinitions))

lemma takes_nothing : Takes [] (pure ()) := by
  intro t s s' c c' h
  obtain ⟨rfl, -⟩ : c = c' ∧ s = s' := by simpa using h
  exact ⟨[], by simp⟩

/-- Two parts of the walk, one after the other. -/
lemma Takes.bind {own own' : List Definition} {w w' : Collect Unit} (h : Takes own w)
    (h' : Takes own' w') : Takes (own ++ own') (w >>= fun _ => w') := by
  intro t s s' c c' hrun
  rw [StateT.run_bind, Session.run_bind] at hrun
  rcases hfirst : s.run t (w.run c) with ⟨_ | ⟨⟨⟩, c₁⟩, s₁⟩
  · simp [hfirst] at hrun
  · rw [hfirst] at hrun
    obtain ⟨entered, hperm⟩ := h t s s₁ c c₁ hfirst
    obtain ⟨entered', hperm'⟩ := h' t s₁ s' c₁ c' hrun
    refine ⟨entered ++ entered', hperm'.trans ((hperm.append_right _).trans ?_)⟩
    simp only [List.append_assoc, List.flatMap_append]
    refine List.Perm.append_left _ (List.Perm.append_left _ ?_)
    rw [← List.append_assoc, ← List.append_assoc]
    exact List.perm_append_comm.append_right _

variable {visit : Document → Collect Unit}

lemma followImport_takes (hvisit : ∀ d, Takes [] (visit d)) (d : Document) (l : Located) :
    Takes [] (followImport visit d l) := by
  intro t s s' c c' hrun
  unfold followImport at hrun
  simp only [StateT.run_bind, StateT.run_monadLift, monadLift_self, Session.run_bind] at hrun
  rcases hresolve : s.run t (resolveImport l.node.text d) with ⟨_ | ⟨path, target?⟩, s₁⟩
  · simp [hresolve] at hrun
  · simp only [hresolve, Session.run_pure] at hrun
    cases target? with
    | none => exact takes_nothing t s₁ s' c c' hrun
    | some stored =>
      simp only [StateT.run_bind, Session.run_bind] at hrun
      by_cases hv : documentKey t stored.document ∈ c.visited
      -- the document was entered before, and only the log grows
      · simp only [StateT.run_get, run_collect_read, Session.run_pure, List.contains_eq_mem, hv,
          decide_true, if_true] at hrun
        obtain ⟨hc, -⟩ := Prod.mk.inj hrun
        obtain rfl := (Prod.mk.inj (Except.ok.inj hc)).2
        exact ⟨[], by simp⟩
      · exact hvisit stored.document t s₁ s' c c' (by simpa [hv] using hrun)

lemma visitLocated_takes {follow : Located → Collect Unit} (hfollow : ∀ l, Takes [] (follow l))
    (d : Document) (l : Located) :
    Takes (if l.isTypesBlock then blockDefinitions d l else []) (visitLocated d follow l) := by
  unfold visitLocated
  split_ifs with hblock himport
  · simp [Located.isTypesBlock_eq_false_of_isImport himport] at hblock
  · intro t s s' c c' hrun
    obtain ⟨hc, -⟩ := Prod.mk.inj hrun
    obtain rfl := (Prod.mk.inj (Except.ok.inj hc)).2
    exact ⟨[], by simp⟩
  · exact hfollow l
  · exact takes_nothing

lemma forM_visitLocated_takes {follow : Located → Collect Unit} (hfollow : ∀ l, Takes [] (follow l))
    (d : Document) (ls : List Located) :
    Takes (Imports.definitionsAmong d ls) (ls.forM (visitLocated d follow)) := by
  induction ls with
  | nil => exact takes_nothing
  | cons l rest ih =>
    rw [Imports.definitionsAmong_cons]
    exact (visitLocated_takes hfollow d l).bind ih

/-- Entering a document takes its definitions. -/
lemma visitDocument_takes (depth : ℕ) (d : Document) : Takes [] (visitDocument depth d) := by
  induction depth generalizing d with
  | zero => exact takes_nothing
  | succ depth ih =>
    intro t s s' c c' hrun
    rw [run_visitDocument_succ] at hrun
    obtain ⟨entered, hperm⟩ :=
      forM_visitLocated_takes (followImport_takes ih d) d d.walk t s s' _ c' hrun
    exact ⟨d :: entered, hperm⟩

variable {t : FileTree} {s : Session} {d : Document} {types : List Definition}

/-- The visible types are all definitions of some documents. -/
lemma collectTypes_takes (h : (s.run t (collectTypes d)).1 = .ok types) :
    ∃ entered : List Document, types.Perm (entered.flatMap ownDefinitions) := by
  by_cases hksy : d.isKsy
  · rw [run_collectTypes hksy, run_walkImports_eq] at h
    rcases hrun : s.run t ((visitDocument (documentBound t s.store) d).run ⟨[], []⟩) with
      ⟨_ | ⟨⟨⟩, c⟩, s'⟩
    · simp [hrun, Except.map] at h
    · obtain rfl : c.types = types := by simpa [hrun, Except.map] using h
      exact visitDocument_takes _ _ t s s' _ c hrun
  · rw [collectTypes, if_neg hksy] at h
    obtain rfl : [] = types := by simpa using h
    exact ⟨[], .refl _⟩

lemma defines_of_mem_types (h : (s.run t (collectTypes d)).1 = .ok types) {x : Definition}
    (hx : x ∈ types) : Defines x.document x.located := by
  obtain ⟨entered, hperm⟩ := collectTypes_takes h
  obtain ⟨e, -, hx⟩ := List.mem_flatMap.mp (hperm.mem_iff.mp hx)
  obtain ⟨rfl, hdefines⟩ := mem_ownDefinitions.mp hx
  exact hdefines

/-- What is nested in a visible type is visible. -/
lemma mem_types_of_nests (h : (s.run t (collectTypes d)).1 = .ok types) {x y : Definition}
    (hx : x ∈ types) (hy : Nests x y) : y ∈ types := by
  have hdefines := hy.defines (defines_of_mem_types h hx)
  obtain ⟨entered, hperm⟩ := collectTypes_takes h
  obtain ⟨e, he, hxe⟩ := List.mem_flatMap.mp (hperm.mem_iff.mp hx)
  obtain ⟨rfl, -⟩ := mem_ownDefinitions.mp hxe
  exact hperm.mem_iff.mpr
    (List.mem_flatMap.mpr ⟨_, he, mem_ownDefinitions.mpr ⟨hy.1, hy.1 ▸ hdefines⟩⟩)

/-! ## Known types -/

/-- Definitions that each are nested in the one before; the first one is visible. -/
structure IsPath (types chain : List Definition) : Prop where
  head : ∀ x ∈ chain.head?, x ∈ types
  nests : chain.IsChain Nests

lemma IsPath.subset (h : (s.run t (collectTypes d)).1 = .ok types) {chain : List Definition}
    (hpath : IsPath types chain) : ∀ x ∈ chain, x ∈ types := by
  induction chain with
  | nil => simp
  | cons x rest ih =>
    have hx := hpath.head x rfl
    obtain ⟨hnests, hrest⟩ := List.isChain_cons.mp hpath.nests
    intro y hy
    rcases List.mem_cons.mp hy with rfl | hy
    · exact hx
    · exact ih ⟨fun z hz => mem_types_of_nests h hx (hnests z hz), hrest⟩ y hy

/-- A path of names leads from a visible type to a nested one exactly if there are definitions with
these names. -/
lemma any_leadsTo_iff (h : (s.run t (collectTypes d)).1 = .ok types)
    (hkeys : ∀ x ∈ types, x.document.HasDistinctKeys) {first : String} {rest : List String} :
    (types.any fun x => x.located.node.hasKey first && leadsTo x.located.node rest) ↔
      ∃ chain, IsPath types chain ∧ chain.map Definition.key = first :: rest := by
  simp only [List.any_eq_true, Bool.and_eq_true]
  constructor
  · rintro ⟨x, hx, hfirst, hrest⟩
    obtain ⟨chain, hchain, rfl⟩ := (leadsTo_iff (defines_of_mem_types h hx) (hkeys x hx)).mp hrest
    refine ⟨x :: chain, ⟨?_, hchain⟩, ?_⟩
    · rintro y ⟨rfl⟩
      exact hx
    · rw [List.map_cons, Definition.key, (Node.hasKey_iff.mp hfirst).2]
  · rintro ⟨_ | ⟨x, chain⟩, hpath, hnames⟩
    · simp at hnames
    obtain ⟨rfl, rfl⟩ := List.cons.inj hnames
    have hx := hpath.head x rfl
    have hdefines := defines_of_mem_types h hx
    exact ⟨x, hx, Node.hasKey_iff.mpr ⟨hdefines.2.1, rfl⟩,
      (leadsTo_iff hdefines (hkeys x hx)).mpr ⟨chain, hpath.nests, rfl⟩⟩

lemma splits_keys_iff {cs : List Char} {chain : List Definition} :
    (Splits cs (chain.map fun x => x.key.toList)) ↔
      chain.map Definition.key = (segments cs).map String.ofList := by
  rw [splits_iff]
  constructor
  · intro h
    rw [← h, List.map_map]
    exact List.map_congr_left fun x _ => String.ofList_toList.symm
  · intro h
    have htexts := congrArg (List.map String.toList) h
    rw [List.map_map, List.map_map] at htexts
    refine htexts.trans ?_
    simp [Function.comp_def]

/-- A use of a type is known exactly if it counts bits with a byte order, or its name is standard,
or its name is a path into nested definitions that starts at a visible type.

This is for uses with arguments and blanks as well, in documents whose mappings have pairwise
different keys.  All definitions on a path from a visible type are visible, whatever the keys. -/
theorem isKnownType_iff_path (h : (s.run t (collectTypes d)).1 = .ok types)
    (hkeys : ∀ x ∈ types, x.document.HasDistinctKeys) (text : String) :
    (isKnownType text types ↔
      (∃ bits, IsBitCount bits ∧ (Text.trim text.toList = bits ++ ['l', 'e'] ∨
        Text.trim text.toList = bits ++ ['b', 'e'])) ∨
      (String.ofList (nameIn (Text.trim text.toList)) ∈ standardTypes ∨
        IsBitCount (nameIn (Text.trim text.toList))) ∨
      ∃ chain, IsPath types chain ∧
        Splits (nameIn (Text.trim text.toList)) (chain.map fun x => x.key.toList)) ∧
      ∀ chain, IsPath types chain → ∀ x ∈ chain, x ∈ types := by
  refine ⟨?_, fun chain hpath => hpath.subset h⟩
  have hstandard := isStandardType_trim (nameIn (Text.trim text.toList))
  rw [trim_nameIn] at hstandard
  rw [← isEndianBitType_iff, ← hstandard, isKnownType]
  simp only [trim_dropArguments]
  by_cases hbits : isEndianBitType (Text.trim text.toList)
  · simp [hbits]
  by_cases hname : isStandardType (String.ofList (nameIn (Text.trim text.toList)))
  · simp [hbits, hname]
  simp only [hbits, hname, Bool.false_eq_true, false_or, if_false, splits_keys_iff]
  cases hnames : (segments (nameIn (Text.trim text.toList))).map String.ofList with
  | nil => exact absurd (List.map_eq_nil_iff.mp hnames) (segments_ne_nil _)
  | cons first rest => exact any_leadsTo_iff h hkeys

/-! ## A definition inside another one -/

/-- A description with a definition nested in another one. -/
def nestingText : Document where
  source := "types:\n  outer:\n    types:\n      inner: \x7b\x7d\n"
  file? := none
  name := "a.ksy"
  roots := [.mapping default default
    [.keyValue default default typesKey default
      (.mapping default default
        [.keyValue default default "outer" default
          (.mapping default default
            [.keyValue default default typesKey default
              (.mapping default default
                [.keyValue default default "inner" default (.mapping default default [])])])])]]
  data := []
  failure? := none

lemma run_nestingText : ((Session.start true 8 none).run noFiles (collectTypes nestingText)).1 =
    .ok (ownDefinitions nestingText) := by
  rfl

lemma hasDistinctKeys_nestingText : nestingText.HasDistinctKeys := by
  unfold Document.HasDistinctKeys
  decide

/-- The two definitions of the text, from the outer one to the inner one. -/
lemma isPath_nestingText : IsPath (ownDefinitions nestingText) (ownDefinitions nestingText) where
  head _ hx := List.mem_of_mem_head? hx
  nests := by
    refine .cons_cons ⟨rfl, ?_⟩ (.singleton _)
    exact ⟨_, _, _, ⟨0, _, rfl, rfl⟩, rfl, ⟨0, _, rfl, rfl⟩, rfl, ⟨0, _, rfl, rfl⟩, rfl,
      ⟨0, _, rfl, rfl⟩, rfl⟩

/-- A path into the nested definition is known, with arguments and blanks as well. -/
theorem isKnownType_iff_path_nesting :
    ∃ types, ((Session.start true 8 none).run noFiles (collectTypes nestingText)).1 = .ok types ∧
      (∀ x ∈ types, x.document.HasDistinctKeys) ∧ isKnownType " outer::inner(5) " types := by
  have hkeys : ∀ x ∈ ownDefinitions nestingText, x.document.HasDistinctKeys := by
    intro x hx
    rw [(mem_ownDefinitions.mp hx).1]
    exact hasDistinctKeys_nestingText
  obtain ⟨hknown, -⟩ := isKnownType_iff_path run_nestingText hkeys " outer::inner(5) "
  refine ⟨_, run_nestingText, hkeys, hknown.mpr (.inr (.inr ⟨_, isPath_nestingText, ?_⟩))⟩
  exact splits_keys_iff.mpr (by decide)

end Ksy

end KsyTools
