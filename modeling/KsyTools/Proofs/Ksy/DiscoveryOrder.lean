/-
# The order in which types are found

A use of a type means the first definition of its name, so the order counts in which definitions are
found.  The collector goes into a document by recursion and enters the documents behind its imports
where they stand.  What it gives is an expansion of `Document.walk`: the nodes of the document are
taken in order, a block of definitions gives its definitions, and an import of a document that was
not entered before gives the expansion of that document.  So the definitions of one document always
come in the order of their blocks, whatever was found between them.
-/
import KsyTools.Proofs.Ksy.ImportClosure
import KsyTools.Proofs.Yields

namespace KsyTools

open DocumentStore (Lookups Steady)
open FileTree (noFiles)

lemma Located.value?_of_isTypesBlock {l : Located} (h : l.isTypesBlock) :
    ∃ range place pairs, l.node.value? = some (.mapping range place pairs) := by
  obtain ⟨n, ancestors, path⟩ := l
  cases ancestors with
  | nil => simp [isTypesBlock, Ksy.isTypesBlockIn] at h
  | cons parent above =>
    simp only [isTypesBlock, Ksy.isTypesBlockIn, Bool.and_eq_true, Option.any_eq_true_iff_get] at h
    obtain ⟨⟨-, hvalue⟩, -⟩ := h
    cases hn : n.value? with
    | none => simp [hn] at hvalue
    | some v =>
      cases v with
      | mapping range place pairs => exact ⟨range, place, pairs, rfl⟩
      | scalar => simp [hn, Node.is, Node.kind] at hvalue
      | sequence => simp [hn, Node.is, Node.kind] at hvalue
      | keyValue => simp [hn, Node.is, Node.kind] at hvalue

/-- An import is no block of definitions. -/
lemma Located.isTypesBlock_eq_false_of_isImport {l : Located} (h : l.isImport) :
    l.isTypesBlock = false :=
  isTypesBlock_eq_false_of_scalar (is_scalar_of_isImport h)

namespace Ksy

/-! ## The expansion -/

/-- Where imports lead: to documents that have one of finitely many keys. -/
structure Imports (t : FileTree) where
  target : Document → Located → Except Failure (Option Document)
  keys : List (Option Path)
  mem_keys : ∀ {d : Document} {l : Located} {x : Document}, target d l = .ok (some x) →
    documentKey t x ∈ keys

namespace Imports

variable {t : FileTree} (i : Imports t)

/-- How many keys are not those of entered documents. -/
def left (entered : List Document) : ℕ :=
  remaining i.keys (entered.map (documentKey t))

variable {i} {entered : List Document} {d x : Document} {l : Located}

/-- A document that is entered anew leaves fewer documents to be entered, whatever is entered inside
it. -/
lemma left_enter_lt (h : i.target d l = .ok (some x))
    (hnew : documentKey t x ∉ entered.map (documentKey t)) (inner : List Document) :
    i.left (entered ++ x :: inner) < i.left entered := by
  have hlt := remaining_cons_lt (i.mem_keys h) hnew
  refine lt_of_le_of_lt (remaining_mono ?_) hlt
  intro k hk
  rw [List.map_append, List.map_cons]
  rcases List.mem_cons.mp hk with rfl | hk
  · exact List.mem_append_right _ List.mem_cons_self
  · exact List.mem_append_left _ hk

variable (i)

/-- Goes through nodes of a document, in order: an import gives the expansion of the document that
it leads to, unless a document with the same key was entered before, and a block of definitions
gives its definitions.  An import that cannot be followed is the end.  Besides the definitions, the
result has the documents that were entered on the way; `entered` are those from before. -/
def expand (entered : List Document) (d : Document) :
    List Located → Except Failure (List Document × List Definition)
  | [] => .ok ([], [])
  | l :: ls =>
    if l.isImport then
      match h : i.target d l with
      | .error f => .error f
      | .ok none => expand entered d ls
      | .ok (some x) =>
        if hnew : documentKey t x ∈ entered.map (documentKey t) then expand entered d ls
        else
          have := left_enter_lt h hnew
          match expand (entered ++ [x]) x x.walk with
          | .error f => .error f
          | .ok (inner, found) =>
            (expand (entered ++ x :: inner) d ls).map fun (new, types) =>
              (x :: inner ++ new, found ++ types)
    else if l.isTypesBlock then
      (expand entered d ls).map fun (new, types) => (new, blockDefinitions d l ++ types)
    else expand entered d ls
  termination_by ls => (i.left entered, ls.length)
  decreasing_by
    · exact .right _ (by simp)
    · exact .right _ (by simp)
    · exact .left _ _ (this [])
    · exact .left _ _ (this inner)
    · exact .right _ (by simp)
    · exact .right _ (by simp)

/-! ## The definitions of one document in an expansion -/

/-- The definitions in the blocks among some nodes of a document. -/
def definitionsAmong (d : Document) (ls : List Located) : List Definition :=
  (ls.filter Located.isTypesBlock).flatMap (blockDefinitions d)

/-- The definitions that stand in a document, told by its key. -/
def definitionsOf (t : FileTree) (d : Document) (types : List Definition) : List Definition :=
  types.filter fun x => documentKey t x.document = documentKey t d

/-- Where the definitions of an expansion come from: its own nodes and the documents that were
entered on the way, which have new keys.  Those of one document have kept their order. -/
structure InOrder (t : FileTree) (entered : List Document) (d : Document) (ls : List Located)
    (new : List Document) (types : List Definition) : Prop where
  fresh : ∀ e ∈ new, documentKey t e ∉ entered.map (documentKey t)
  source : ∀ x ∈ types, documentKey t x.document ∈ (d :: new).map (documentKey t)
  own : definitionsOf t d types = definitionsAmong d ls
  inner : ∀ e ∈ new, definitionsOf t e types = ownDefinitions e

variable {i} {ls : List Located} {new inner : List Document} {found types : List Definition}

lemma definitionsAmong_cons (d : Document) (l : Located) (ls : List Located) :
    definitionsAmong d (l :: ls) =
      (if l.isTypesBlock then blockDefinitions d l else []) ++ definitionsAmong d ls := by
  unfold definitionsAmong
  by_cases hl : l.isTypesBlock
  · simp [hl]
  · simp [hl]

lemma definitionsOf_append (t : FileTree) (d : Document) (xs ys : List Definition) :
    definitionsOf t d (xs ++ ys) = definitionsOf t d xs ++ definitionsOf t d ys :=
  List.filter_append ..

lemma document_of_mem_blockDefinitions {d : Document} {b : Located} {x : Definition}
    (hx : x ∈ blockDefinitions d b) : x.document = d := by
  unfold blockDefinitions at hx
  split at hx
  · obtain ⟨⟨n, j⟩, -, rfl⟩ := List.mem_map.mp hx
    rfl
  · simp at hx

lemma definitionsOf_blockDefinitions (t : FileTree) (d : Document) (l : Located) :
    definitionsOf t d (blockDefinitions d l) = blockDefinitions d l := by
  unfold definitionsOf
  rw [List.filter_eq_self]
  intro x hx
  simp [document_of_mem_blockDefinitions hx]

namespace InOrder

lemma nil : InOrder t entered d [] [] [] where
  fresh := by simp
  source := by simp
  own := rfl
  inner := by simp

/-- A document that has given nothing has no definitions in an expansion. -/
lemma definitionsOf_eq_nil (h : InOrder t entered d ls new types) {e : Document}
    (he : documentKey t e ∉ (d :: new).map (documentKey t)) : definitionsOf t e types = [] := by
  unfold definitionsOf
  rw [List.filter_eq_nil_iff]
  intro x hx heq
  have hsource := h.source x hx
  rw [decide_eq_true_eq] at heq
  rw [heq] at hsource
  exact he hsource

/-- A node that is neither an import nor a block gives nothing. -/
lemma skip (h : InOrder t entered d ls new types) (hl : l.isTypesBlock = false) :
    InOrder t entered d (l :: ls) new types :=
  { h with own := by rw [h.own, definitionsAmong_cons, hl]; rfl }

/-- A block gives its definitions. -/
lemma block (h : InOrder t entered d ls new types)
    (hd : documentKey t d ∈ entered.map (documentKey t)) (hl : l.isTypesBlock) :
    InOrder t entered d (l :: ls) new (blockDefinitions d l ++ types) where
  fresh := h.fresh
  source y hy := by
    rcases List.mem_append.mp hy with hy | hy
    · rw [document_of_mem_blockDefinitions hy]
      exact List.mem_cons_self
    · exact h.source y hy
  own := by
    rw [definitionsOf_append, definitionsOf_blockDefinitions, h.own, definitionsAmong_cons,
      if_pos hl]
  inner e he := by
    have hnone : definitionsOf t e (blockDefinitions d l) = [] := by
      unfold definitionsOf
      rw [List.filter_eq_nil_iff]
      intro y hy heq
      rw [document_of_mem_blockDefinitions hy, decide_eq_true_eq] at heq
      exact h.fresh e he (heq ▸ hd)
    rw [definitionsOf_append, hnone, List.nil_append, h.inner e he]

/-- An import of a document that was not entered before gives the expansion of this document. -/
lemma enter (hd : documentKey t d ∈ entered.map (documentKey t)) (hl : l.isTypesBlock = false)
    (hnew : documentKey t x ∉ entered.map (documentKey t))
    (h₁ : InOrder t (entered ++ [x]) x x.walk inner found)
    (h₂ : InOrder t (entered ++ x :: inner) d ls new types) :
    InOrder t entered d (l :: ls) (x :: inner ++ new) (found ++ types) := by
  -- what is entered inside has none of the keys from before, and what comes later none of either
  have hinside : ∀ e ∈ x :: inner, documentKey t e ∉ entered.map (documentKey t) := by
    intro e he hmem
    rcases List.mem_cons.mp he with rfl | he
    · exact hnew hmem
    · refine h₁.fresh e he ?_
      rw [List.map_append]
      exact List.mem_append_left _ hmem
  have hlater : ∀ e ∈ new, documentKey t e ∉ entered.map (documentKey t) ∧
      documentKey t e ∉ (x :: inner).map (documentKey t) := by
    intro e he
    have hfresh := h₂.fresh e he
    rw [List.map_append, List.mem_append, not_or] at hfresh
    exact hfresh
  have hown : definitionsOf t d found = [] := by
    refine h₁.definitionsOf_eq_nil fun hmem => ?_
    obtain ⟨e, he, heq⟩ := List.mem_map.mp hmem
    exact hinside e he (heq ▸ hd)
  have htypes : ∀ e ∈ x :: inner, definitionsOf t e types = [] := by
    intro e he
    refine h₂.definitionsOf_eq_nil fun hmem => ?_
    rcases List.mem_map.mp hmem with ⟨e', he', heq⟩
    rcases List.mem_cons.mp he' with rfl | he'
    · exact hinside e he (heq ▸ hd)
    · exact (hlater e' he').2 (heq ▸ List.mem_map_of_mem he)
  exact {
    fresh := by
      intro e he
      rcases List.mem_append.mp he with he | he
      · exact hinside e he
      · exact (hlater e he).1
    source := by
      intro y hy
      simp only [List.map_cons, List.map_append, List.cons_append, List.mem_cons,
        List.mem_append]
      rcases List.mem_append.mp hy with hy | hy
      · have hsource := h₁.source y hy
        rw [List.map_cons, List.mem_cons] at hsource
        tauto
      · have hsource := h₂.source y hy
        rw [List.map_cons, List.mem_cons] at hsource
        tauto
    own := by
      rw [definitionsOf_append, hown, List.nil_append, h₂.own, definitionsAmong_cons, hl]
      rfl
    inner := by
      intro e he
      rw [definitionsOf_append]
      rcases List.mem_append.mp he with he | he
      · rw [htypes e he, List.append_nil]
        rcases List.mem_cons.mp he with rfl | he
        · exact h₁.own
        · exact h₁.inner e he
      · rw [h₁.definitionsOf_eq_nil (hlater e he).2, List.nil_append, h₂.inner e he] }

end InOrder

/-- An expansion keeps the order of the definitions of every document. -/
lemma inOrder_of_expand (hd : documentKey t d ∈ entered.map (documentKey t))
    (h : expand i entered d ls = .ok (new, types)) : InOrder t entered d ls new types := by
  fun_induction expand i entered d ls generalizing new types with
  | case1 =>
    obtain ⟨rfl, rfl⟩ : [] = new ∧ [] = types := by simpa using h
    exact .nil
  | case2 entered d l ls himport f htarget => simp at h
  | case3 entered d l ls himport htarget ih =>
    exact (ih hd h).skip (Located.isTypesBlock_eq_false_of_isImport himport)
  | case4 entered d l ls himport x htarget hold ih =>
    exact (ih hd h).skip (Located.isTypesBlock_eq_false_of_isImport himport)
  | case5 entered d l ls himport x htarget hnew this f hinner ih => simp at h
  | case6 entered d l ls himport x htarget hnew this inner found hinner ih₁ ih₂ =>
    obtain ⟨⟨later, rest⟩, hrest, heq⟩ := map_eq_ok_iff.mp h
    obtain ⟨rfl, rfl⟩ := Prod.mk.inj heq
    have hx : documentKey t x ∈ (entered ++ [x]).map (documentKey t) := by simp
    have hd' : documentKey t d ∈ (entered ++ x :: inner).map (documentKey t) := by
      rw [List.map_append]
      exact List.mem_append_left _ hd
    exact .enter hd (Located.isTypesBlock_eq_false_of_isImport himport) hnew (ih₁ hx hinner)
      (ih₂ hd' hrest)
  | case7 entered d l ls himport hblock ih =>
    obtain ⟨⟨later, rest⟩, hrest, heq⟩ := map_eq_ok_iff.mp h
    obtain ⟨rfl, rfl⟩ := Prod.mk.inj heq
    exact (ih hd hrest).block hd hblock
  | case8 entered d l ls himport hblock ih => exact (ih hd h).skip (by simpa using hblock)

end Imports

/-! ## The walk is the expansion -/

section Walk

variable {t : FileTree} {s : Session}

/-- Where the imports of documents lead in a session. -/
def importsOf (t : FileTree) (s : Session) : Imports t where
  target := importedDocument t s
  keys := knownKeys t s.store
  mem_keys := documentKey_mem_knownKeys

/-- What a walk has found that has entered some documents and taken some definitions. -/
def collected (t : FileTree) (entered : List Document) (found : List Definition) : Collected :=
  ⟨(entered.map (documentKey t)).reverse, found⟩

lemma mem_visited_collected {entered : List Document} {found : List Definition}
    {key : Option Path} :
    key ∈ (collected t entered found).visited ↔ key ∈ entered.map (documentKey t) :=
  List.mem_reverse

/-- A part of the walk ends as an expansion does: it has entered the same documents and taken the
same definitions, besides those from before, or it has failed in the same way. -/
inductive EndsAs (t : FileTree) (s : Session) (entered : List Document) (found : List Definition) :
    Except Failure (List Document × List Definition) →
      Except Failure (Unit × Collected) × Session → Prop
  | ok {new : List Document} {types : List Definition} {s' : Session} :
      Lookups t s.store s'.store → EndsAs t s entered found (.ok (new, types))
        (.ok ((), collected t (entered ++ new) (found ++ types)), s')
  | error {f : Failure} {s' : Session} : EndsAs t s entered found (.error f) (.error f, s')

namespace EndsAs

variable {entered inner : List Document} {found types : List Definition} {w w' : Collect Unit}
  {c : Collected} {s' : Session} {result : Except Failure (List Document × List Definition)}

/-- Nothing is entered and nothing is taken. -/
lemma nothing (hs' : Lookups t s.store s'.store) :
    EndsAs t s entered found (.ok ([], [])) (.ok ((), collected t entered found), s') := by
  have h : EndsAs t s entered found (.ok ([], []))
      (.ok ((), collected t (entered ++ []) (found ++ [])), s') := .ok hs'
  rwa [List.append_nil, List.append_nil] at h

/-- Two parts of the walk, one after the other. -/
lemma bind (h : EndsAs t s entered found (.ok (inner, types)) (s'.run t (w.run c)))
    (h' : ∀ s₁ : Session, Lookups t s.store s₁.store →
      EndsAs t s (entered ++ inner) (found ++ types) result
        (s₁.run t (w'.run (collected t (entered ++ inner) (found ++ types))))) :
    EndsAs t s entered found (result.map fun (new, rest) => (inner ++ new, types ++ rest))
      (s'.run t ((w >>= fun _ => w').run c)) := by
  rw [StateT.run_bind, Session.run_bind]
  generalize s'.run t (w.run c) = first at h
  cases h with
  | @ok _ _ s₁ hs₁ =>
    have hsecond := h' s₁ hs₁
    simp only
    generalize s₁.run t (w'.run _) = second at hsecond
    cases hsecond with
    | @ok new rest s₂ hs₂ =>
      rw [List.append_assoc, List.append_assoc]
      exact .ok hs₂
    | error => exact .error

/-- After a failure nothing is done. -/
lemma bind_error {f : Failure} (h : EndsAs t s entered found (.error f) (s'.run t (w.run c))) :
    EndsAs t s entered found (.error f) (s'.run t ((w >>= fun _ => w').run c)) := by
  rw [StateT.run_bind, Session.run_bind]
  generalize s'.run t (w.run c) = first at h
  cases h with
  | error => exact .error

/-- A part of the walk that gives nothing makes no difference. -/
lemma nothing_bind (h : EndsAs t s entered found (.ok ([], [])) (s'.run t (w.run c)))
    (h' : ∀ s₁ : Session, Lookups t s.store s₁.store →
      EndsAs t s entered found result (s₁.run t (w'.run (collected t entered found)))) :
    EndsAs t s entered found result (s'.run t ((w >>= fun _ => w').run c)) := by
  have hsame : (result.map fun (new, rest) => ([] ++ new, [] ++ rest)) = result := by
    cases result <;> rfl
  rw [← hsame]
  refine h.bind fun s₁ hs₁ => ?_
  rw [List.append_nil, List.append_nil]
  exact h' s₁ hs₁

end EndsAs

/-! ### One node -/

section Node

variable (visit : Document → Collect Unit) (found : List Definition) {entered : List Document}
  {d x : Document} {l : Located} {s' : Session}

/-- An import that cannot be followed ends the walk. -/
lemma visitLocated_endsAs_error (hs : Steady t s.store) (hs' : Lookups t s.store s'.store)
    (himport : l.isImport) {f : Failure} (htarget : importedDocument t s d l = .error f) :
    EndsAs t s entered found (.error f)
      (s'.run t ((visitLocated d (followImport visit d) l).run (collected t entered found))) := by
  rw [visitLocated, if_pos himport]
  rcases run_followImport hs hs' visit d l (collected t entered found) with ⟨f', s'', hf, hrun⟩ |
    ⟨target?, s'', hf, -, -, -⟩ | ⟨target, s'', hf, -, -, -⟩
  · obtain rfl : f = f' := by simpa [htarget] using hf
    rw [hrun]
    exact .error
  · simp [htarget] at hf
  · simp [htarget] at hf

/-- An import that leads nowhere, or to a document with a key that was entered, gives nothing. -/
lemma visitLocated_endsAs_old (hs : Steady t s.store) (hs' : Lookups t s.store s'.store)
    (himport : l.isImport) {target? : Option Document}
    (htarget : importedDocument t s d l = .ok target?)
    (hold : ∀ x ∈ target?, documentKey t x ∈ entered.map (documentKey t)) :
    EndsAs t s entered found (.ok ([], []))
      (s'.run t ((visitLocated d (followImport visit d) l).run (collected t entered found))) := by
  rw [visitLocated, if_pos himport]
  rcases run_followImport hs hs' visit d l (collected t entered found) with ⟨f', s'', hf, -⟩ |
    ⟨target?', s'', -, hs'', -, hrun⟩ | ⟨x, s'', hf, -, hnew, -⟩
  · simp [htarget] at hf
  · rw [hrun]
    exact .nothing hs''
  · obtain rfl : target? = some x := by simpa [htarget] using hf
    exact absurd (mem_visited_collected.mpr (hold x rfl)) hnew

/-- An import of a document that was not entered is a visit of this document. -/
lemma run_visitLocated_new (hs : Steady t s.store) (hs' : Lookups t s.store s'.store)
    (himport : l.isImport) (htarget : importedDocument t s d l = .ok (some x))
    (hnew : documentKey t x ∉ entered.map (documentKey t)) :
    ∃ s'' : Session, Lookups t s.store s''.store ∧
      s'.run t ((visitLocated d (followImport visit d) l).run (collected t entered found)) =
        s''.run t ((visit x).run (collected t entered found)) := by
  rw [visitLocated, if_pos himport]
  rcases run_followImport hs hs' visit d l (collected t entered found) with ⟨f', s'', hf, -⟩ |
    ⟨target?, s'', hf, -, hold, -⟩ | ⟨x', s'', hf, hs'', -, hrun⟩
  · simp [htarget] at hf
  · obtain rfl : some x = target? := by simpa [htarget] using hf
    exact absurd (mem_visited_collected.mp (hold x rfl)) hnew
  · obtain rfl : x = x' := by simpa [htarget] using hf
    exact ⟨s'', hs'', hrun⟩

end Node

/-! ### All nodes -/

/-- Entering a document with a new key ends as the expansion of its nodes, with the document itself
entered first. -/
lemma visitDocument_endsAs {entered : List Document} {found : List Definition} {x : Document}
    {depth : ℕ} {s' : Session} {result : Except Failure (List Document × List Definition)}
    (h : EndsAs t s (entered ++ [x]) found result
      (s'.run t ((x.walk.forM (visitLocated x (followImport (visitDocument depth) x))).run
        (collected t (entered ++ [x]) found)))) :
    EndsAs t s entered found (result.map fun (inner, types) => (x :: inner, types))
      (s'.run t ((visitDocument (depth + 1) x).run (collected t entered found))) := by
  have hstart : { collected t entered found with
      visited := documentKey t x :: (collected t entered found).visited } =
        collected t (entered ++ [x]) found := by
    simp [collected]
  rw [run_visitDocument_succ, hstart]
  generalize s'.run t _ = outcome at h
  cases h with
  | @ok inner types s₁ hs₁ =>
    rw [List.append_assoc]
    exact .ok hs₁
  | error => exact .error

/-- A walk over nodes of a document, which follows imports to some depth, ends as the expansion of
these nodes, as long as no more keys are left than that. -/
lemma forM_visitLocated_endsAs (hs : Steady t s.store) {i : Imports t}
    (hi : i.target = importedDocument t s) {entered : List Document} {d : Document}
    {ls : List Located} {depth : ℕ} (hdepth : i.left entered ≤ depth) {s' : Session}
    (hs' : Lookups t s.store s'.store) (found : List Definition) :
    EndsAs t s entered found (i.expand entered d ls)
      (s'.run t ((ls.forM (visitLocated d (followImport (visitDocument depth) d))).run
        (collected t entered found))) := by
  fun_induction i.expand entered d ls generalizing depth s' found with
  | case1 => exact .nothing hs'
  | case2 entered d l ls himport f htarget =>
    rw [hi] at htarget
    exact (visitLocated_endsAs_error _ found hs hs' himport htarget).bind_error
  | case3 entered d l ls himport htarget ih =>
    rw [hi] at htarget
    have hfirst := visitLocated_endsAs_old (visitDocument depth) found hs hs' himport htarget
      (show ∀ x ∈ none, documentKey t x ∈ entered.map (documentKey t) by simp)
    exact hfirst.nothing_bind fun s₁ hs₁ => ih hdepth hs₁ found
  | case4 entered d l ls himport x htarget hold ih =>
    rw [hi] at htarget
    have hfirst := visitLocated_endsAs_old (visitDocument depth) found hs hs' himport htarget
      (by simpa using hold)
    exact hfirst.nothing_bind fun s₁ hs₁ => ih hdepth hs₁ found
  | case5 entered d l ls himport x htarget hnew hlt f hinner ih =>
    rw [hi] at htarget
    -- there is a key left for the document, so the walk goes one document deeper
    obtain ⟨depth, rfl⟩ : ∃ inner, depth = inner + 1 :=
      ⟨depth - 1, by have := hlt []; omega⟩
    have hdepth' : i.left (entered ++ [x]) ≤ depth := by have := hlt []; omega
    obtain ⟨s₁, hs₁, hrun⟩ :=
      run_visitLocated_new (visitDocument (depth + 1)) found hs hs' himport htarget hnew
    have hvisit := visitDocument_endsAs (ih hdepth' hs₁ found)
    rw [hinner, ← hrun] at hvisit
    exact EndsAs.bind_error hvisit
  | case6 entered d l ls himport x htarget hnew hlt inner types hinner ih₁ ih₂ =>
    rw [hi] at htarget
    obtain ⟨depth, rfl⟩ : ∃ inner, depth = inner + 1 :=
      ⟨depth - 1, by have := hlt []; omega⟩
    have hdepth' : i.left (entered ++ [x]) ≤ depth := by have := hlt []; omega
    obtain ⟨s₁, hs₁, hrun⟩ :=
      run_visitLocated_new (visitDocument (depth + 1)) found hs hs' himport htarget hnew
    have hvisit := visitDocument_endsAs (ih₁ hdepth' hs₁ found)
    rw [hinner, ← hrun] at hvisit
    exact EndsAs.bind hvisit fun s₂ hs₂ => ih₂ ((hlt inner).le.trans hdepth) hs₂ _
  | case7 entered d l ls himport hblock ih =>
    have hfirst : EndsAs t s entered found (.ok ([], blockDefinitions d l))
        (s'.run t ((visitLocated d (followImport (visitDocument depth) d) l).run
          (collected t entered found))) := by
      rw [visitLocated, if_neg himport, if_pos hblock]
      have h : EndsAs t s entered found (.ok ([], blockDefinitions d l))
        (.ok ((), collected t (entered ++ []) (found ++ blockDefinitions d l)), s') := .ok hs'
      rwa [List.append_nil] at h
    exact hfirst.bind fun s₁ hs₁ => by
      rw [List.append_nil]
      exact ih hdepth hs₁ _
  | case8 entered d l ls himport hblock ih =>
    have hfirst : EndsAs t s entered found (.ok ([], []))
        (s'.run t ((visitLocated d (followImport (visitDocument depth) d) l).run
          (collected t entered found))) := by
      rw [visitLocated, if_neg himport, if_neg hblock]
      exact .nothing hs'
    exact hfirst.nothing_bind fun s₁ hs₁ => ih hdepth hs₁ found

/-- The walk from a document ends as the expansion of the document. -/
lemma run_walkImports_types (hs : Steady t s.store) {i : Imports t}
    (hi : i.target = importedDocument t s) (hkeys : i.keys = knownKeys t s.store) (d : Document) :
    (s.run t (walkImports d)).1.map Collected.types = (i.expand [d] d d.walk).map Prod.snd := by
  have hdepth : i.left [d] ≤ (knownKeys t s.store).length := by
    rw [← hkeys]
    exact List.length_filter_le _ _
  have hnodes : EndsAs t s [d] [] (i.expand [d] d d.walk) _ :=
    forM_visitLocated_endsAs hs hi hdepth .refl []
  have hvisit : EndsAs t s [] [] _ _ := visitDocument_endsAs hnodes
  rw [length_knownKeys] at hvisit
  rw [run_walkImports_eq]
  change EndsAs t s [] [] _ (s.run t ((visitDocument (documentBound t s.store) d).run ⟨[], []⟩))
    at hvisit
  generalize s.run t ((visitDocument (documentBound t s.store) d).run ⟨[], []⟩) = outcome at hvisit
  cases hexpand : i.expand [d] d d.walk with
  | error f =>
    rw [hexpand] at hvisit
    cases hvisit with
    | error => rfl
  | ok r =>
    obtain ⟨new, types⟩ := r
    rw [hexpand] at hvisit
    cases hvisit with
    | ok _ => rfl

lemma importsOf_target (t : FileTree) (s : Session) :
    (importsOf t s).target = importedDocument t s := by
  simp only [importsOf]

lemma importsOf_keys (t : FileTree) (s : Session) :
    (importsOf t s).keys = knownKeys t s.store := by
  simp only [importsOf]

/-- A block gives the key-value nodes in its value, in order. -/
lemma nodes_blockDefinitions {d : Document} {l : Located} (h : l.isTypesBlock) :
    l.node.value?.map Node.keyValues =
      some ((blockDefinitions d l).map fun x => x.located.node) := by
  obtain ⟨range, place, pairs, hvalue⟩ := Located.value?_of_isTypesBlock h
  -- the numbers of the key-value nodes are dropped again
  have hnodes : (pairs.zipIdx.filter fun x => x.1.is .keyValue).map Prod.fst =
      pairs.filter fun n => n.is .keyValue := by
    conv_rhs => rw [← List.zipIdx_map_fst 0 pairs, List.filter_map]
    rfl
  unfold blockDefinitions
  rw [hvalue]
  simp only [Option.map_some, Node.keyValues, Node.children, List.map_map, ← hnodes]
  rfl

/-- The types that are visible in a format description are found in the order of its expansion.

Where the answers of the store stay the same, the collector gives the definitions of the expansion
of the description, one after the other, and it fails where an import of the expansion cannot be
followed.  In the result the definitions of each document that was entered, taken by themselves,
stand in the order in which the nodes of this document lead over their blocks; a block has the
key-value nodes in its value as definitions, in their order. -/
theorem collectTypes_discovery_order {d : Document} (hksy : d.isKsy) (hs : Steady t s.store) :
    (s.run t (collectTypes d)).1 = ((importsOf t s).expand [d] d d.walk).map Prod.snd ∧
      (∀ new types, (importsOf t s).expand [d] d d.walk = .ok (new, types) → ∀ e ∈ d :: new,
        (types.filter fun x => documentKey t x.document = documentKey t e) =
          (e.walk.filter Located.isTypesBlock).flatMap (blockDefinitions e)) ∧
      ∀ (e : Document) (l : Located), l.isTypesBlock →
        l.node.value?.map Node.keyValues =
          some ((blockDefinitions e l).map fun x => x.located.node) := by
  refine ⟨?_, ?_, fun e l hl => nodes_blockDefinitions hl⟩
  · rw [run_collectTypes hksy]
    exact run_walkImports_types hs (importsOf_target t s) (importsOf_keys t s) d
  · intro new types hexpand e he
    have hd : documentKey t d ∈ [d].map (documentKey t) := by simp
    have horder := Imports.inOrder_of_expand hd hexpand
    rcases List.mem_cons.mp he with rfl | he
    · exact horder.own
    · exact horder.inner e he

/-- The definitions of two texts that import each other are found although one stands in the middle
of the other. -/
theorem collectTypes_discovery_order_cross :
    (crossText "a.ksy" "b" "foo").isKsy ∧ Steady noFiles crossSession.store ∧
      ∃ types, (crossSession.run noFiles (collectTypes (crossText "a.ksy" "b" "foo"))).1 =
        .ok types ∧
        ((types.filter fun x => documentKey noFiles x.document =
          documentKey noFiles (crossText "a.ksy" "b" "foo")).map Definition.key) = ["foo"] := by
  have hksy : (crossText "a.ksy" "b" "foo").isKsy := by decide
  have hsteady := truthful_crossSession.steady
  obtain ⟨hrun, horder, -⟩ := collectTypes_discovery_order hksy hsteady
  obtain ⟨c, hc⟩ := (walkImports_ok_iff hsteady keysTellApart_crossSession).mpr fun x _ l _ _ => by
    obtain ⟨target?, htarget, -⟩ := importedDocument_crossSession x l
    exact ⟨target?, htarget⟩
  rw [run_collectTypes hksy, hc] at hrun
  obtain ⟨⟨new, types⟩, hexpand, htypes⟩ := map_eq_ok_iff.mp hrun.symm
  refine ⟨hksy, hsteady, types, ?_, ?_⟩
  · rw [run_collectTypes hksy, hc]
    exact congrArg Except.ok htypes.symm
  · rw [horder new types hexpand _ List.mem_cons_self]
    rfl

end Walk

end Ksy

end KsyTools
