/-
# The documents behind the imports of a document

A document reaches the documents that its imports lead to, those that their imports lead to, and so
on.  The walk of the collector enters exactly these documents, each of them once, and takes the
definitions of each of them, as long as the answers of the store stay the same and documents with
the same key are the same.

The walk is a depth-first search in which a document that was entered before is skipped.  What a
part of the walk adds is described by `Progress`: the documents that it has entered, and that
all imports of these lead to entered documents when it is over.
-/
import KsyTools.Proofs.Files.LinkFree
import KsyTools.Proofs.Ksy.ImportWalk
import KsyTools.Proofs.Ksy.ImportedDocument

namespace KsyTools

open DocumentStore (Lookups Steady)
open FileTree (noFiles)

namespace Ksy

/-- A document reaches another one over imports.  Imports that lead back to where the way starts are
left out: the document there stands for itself. -/
inductive Reaches (t : FileTree) (s : Session) (start : Document) : Document → Prop
  | start : Reaches t s start start
  | step {d target : Document} {l : Located} : Reaches t s start d → l ∈ d.walk → l.isImport →
      importedDocument t s d l = .ok (some target) → documentKey t target ≠ documentKey t start →
      Reaches t s start target

/-! ## Following one import -/

@[simp] lemma run_collect_read (s : Session) (t : FileTree) (c : Collected) :
    s.run t (StateT.run (read : Collect FileTree) c) = (.ok (t, c), s) := rfl

/-- What following an import can do. -/
lemma run_followImport {t : FileTree} {s s' : Session} (hs : Steady t s.store)
    (h : Lookups t s.store s'.store) (visit : Document → Collect Unit) (d : Document)
    (l : Located) (c : Collected) :
    (∃ (f : Failure) (s'' : Session), importedDocument t s d l = .error f ∧
        s'.run t ((followImport visit d l).run c) = (.error f, s'')) ∨
      (∃ (target? : Option Document) (s'' : Session),
        importedDocument t s d l = .ok target? ∧ Lookups t s.store s''.store ∧
        (∀ target ∈ target?, documentKey t target ∈ c.visited) ∧
        s'.run t ((followImport visit d l).run c) = (.ok ((), c), s'')) ∨
      ∃ (target : Document) (s'' : Session),
        importedDocument t s d l = .ok (some target) ∧ Lookups t s.store s''.store ∧
        documentKey t target ∉ c.visited ∧
        s'.run t ((followImport visit d l).run c) = s''.run t ((visit target).run c) := by
  obtain ⟨r, s'', hrun, hl, htarget⟩ := run_resolveImport_of_steady hs h d l
  unfold followImport
  simp only [StateT.run_bind, StateT.run_monadLift, monadLift_self, Session.run_bind, hrun]
  cases r with
  | error f => exact .inl ⟨f, s'', htarget.symm, rfl⟩
  | ok resolved =>
    obtain ⟨path, target?⟩ := resolved
    cases target? with
    | none => exact .inr (.inl ⟨none, s'', htarget.symm, hl, by simp, rfl⟩)
    | some stored =>
      by_cases hv : documentKey t stored.document ∈ c.visited
      -- the document was entered before, and only the log grows
      · let record : LogRecord :=
          .debug collectLogSource s!"Skipping already visited import {path}"
        refine .inr (.inl ⟨some stored.document, { s'' with log := s''.log ++ [record] },
          htarget.symm, hl, by simpa using hv, ?_⟩)
        simp [Session.run_bind, hv]
        rfl
      · refine .inr (.inr ⟨stored.document, s'', htarget.symm, hl, hv, ?_⟩)
        simp [Session.run_bind, hv]

/-- Entering a document is a loop over its nodes. -/
lemma run_visitDocument_succ (s : Session) (t : FileTree) (depth : ℕ) (d : Document)
    (c : Collected) :
    s.run t ((visitDocument (depth + 1) d).run c) =
      s.run t ((d.walk.forM (visitLocated d (followImport (visitDocument depth) d))).run
        { c with visited := documentKey t d :: c.visited }) := by
  rw [visitDocument, visitNodes_eq_forM]
  rfl

/-- The walk from a document enters it with nothing found. -/
lemma run_walkImports_eq (s : Session) (t : FileTree) (d : Document) :
    s.run t (walkImports d) =
      match s.run t ((visitDocument (documentBound t s.store) d).run ⟨[], []⟩) with
      | (.ok (_, c), s') => (.ok c, s')
      | (.error f, s') => (.error f, s') := by
  unfold walkImports
  simp only [Session.run_bind, Session.run_read, Session.run_get]
  rcases s.run t ((visitDocument (documentBound t s.store) d).run ⟨[], []⟩) with ⟨_ | _, _⟩ <;> rfl

/-! ## What a part of the walk adds -/

section Progress

variable (t : FileTree) (s : Session) (start : Document)

/-- All imports among some nodes of a document lead nowhere or to documents that were entered. -/
def Followed (c : Collected) (d : Document) (ls : List Located) : Prop :=
  ∀ l ∈ ls, l.isImport → ∃ target?, importedDocument t s d l = .ok target? ∧
    ∀ target ∈ target?, documentKey t target ∈ c.visited

/-- A part of the walk has entered the documents `entered`, first to last, and has taken their
definitions besides some others. -/
structure Progress (c c' : Collected) (others : List Definition) (entered : List Document) :
    Prop where
  visited : c'.visited = (entered.map (documentKey t)).reverse ++ c.visited
  nodup : c.visited.Nodup → c'.visited.Nodup
  types : c'.types.Perm (c.types ++ (others ++ entered.flatMap ownDefinitions))
  reached : ∀ d ∈ entered, Reaches t s start d
  followed : ∀ d ∈ entered, Followed t s c' d d.walk

variable {t s start} {c c₁ c₂ : Collected}

lemma Followed.mono {d : Document} {ls : List Located} (h : Followed t s c₁ d ls)
    (hsub : c₁.visited ⊆ c₂.visited) : Followed t s c₂ d ls := by
  intro l hl himport
  obtain ⟨target?, htarget, hv⟩ := h l hl himport
  exact ⟨target?, htarget, fun target ht => hsub (hv target ht)⟩

namespace Progress

lemma refl (c : Collected) : Progress t s start c c [] [] where
  visited := by simp
  nodup := id
  types := by simp
  reached := by simp
  followed := by simp

lemma visited_subset {others : List Definition} {entered : List Document}
    (h : Progress t s start c c₁ others entered) : c.visited ⊆ c₁.visited := by
  rw [h.visited]
  exact List.subset_append_right _ _

lemma trans {others₁ others₂ : List Definition} {entered₁ entered₂ : List Document}
    (h₁ : Progress t s start c c₁ others₁ entered₁)
    (h₂ : Progress t s start c₁ c₂ others₂ entered₂) :
    Progress t s start c c₂ (others₁ ++ others₂) (entered₁ ++ entered₂) where
  visited := by rw [h₂.visited, h₁.visited]; simp
  nodup hc := h₂.nodup (h₁.nodup hc)
  types := by
    -- the definitions of the second part come last; those of its blocks change places with the rest
    refine h₂.types.trans ((h₁.types.append_right _).trans ?_)
    simp only [List.append_assoc, List.flatMap_append]
    refine List.Perm.append_left _ (List.Perm.append_left _ ?_)
    rw [← List.append_assoc, ← List.append_assoc]
    exact List.perm_append_comm.append_right _
  reached d hd := by
    rcases List.mem_append.mp hd with hd | hd
    · exact h₁.reached d hd
    · exact h₂.reached d hd
  followed d hd := by
    rcases List.mem_append.mp hd with hd | hd
    · exact (h₁.followed d hd).mono h₂.visited_subset
    · exact h₂.followed d hd

end Progress

end Progress

/-! ## The walk -/

/-- How many of some keys were not entered. -/
def remaining (keys visited : List (Option Path)) : ℕ :=
  (keys.filter fun k => k ∉ visited).length

lemma remaining_cons_lt {keys visited : List (Option Path)} {k : Option Path} (hk : k ∈ keys)
    (hv : k ∉ visited) : remaining keys (k :: visited) < remaining keys visited := by
  unfold remaining
  have hfilter : keys.filter (fun x => x ∉ k :: visited) =
      (keys.filter fun x => x ∉ visited).filter fun x => x ≠ k := by
    rw [List.filter_filter]
    congr 1
    funext x
    simp [not_or]
  rw [hfilter]
  exact List.length_filter_lt_length_iff_exists.mpr ⟨k, by simp [hk, hv], by simp⟩

lemma remaining_mono {keys visited visited' : List (Option Path)} (h : visited ⊆ visited') :
    remaining keys visited' ≤ remaining keys visited := by
  unfold remaining
  refine List.Sublist.length_le (List.monotone_filter_right keys fun k hk => ?_)
  simp only [decide_eq_true_eq] at hk ⊢
  exact fun hv => hk (h hv)

section Walk

variable (t : FileTree) (s : Session) (start : Document)

/-- How a part of the walk ends: it has done what it should, or some import of a document that can
be reached cannot be resolved. -/
inductive Ends (post : Collected → Prop) :
    Except Failure (Unit × Collected) × Session → Prop
  | ok {c : Collected} {s' : Session} : Lookups t s.store s'.store → post c →
      Ends post (.ok ((), c), s')
  | error {d : Document} {l : Located} {f : Failure} {s' : Session} : Reaches t s start d →
      l ∈ d.walk → l.isImport → importedDocument t s d l = .error f → Ends post (.error f, s')

/-- What entering a document should do. -/
def Enters (keys : List (Option Path)) (depth : ℕ) (visit : Document → Collect Unit) : Prop :=
  ∀ (d : Document) (c : Collected) (s' : Session), Lookups t s.store s'.store →
    Reaches t s start d → (documentKey t start ∈ c.visited ∨ d = start) →
    documentKey t d ∉ c.visited → documentKey t d ∈ keys → remaining keys c.visited ≤ depth →
    Ends t s start (fun c' => ∃ entered, d ∈ entered ∧ Progress t s start c c' [] entered)
      (s'.run t ((visit d).run c))

variable {t s start} {keys : List (Option Path)} {depth : ℕ}

lemma Ends.imp {post post' : Collected → Prop}
    {result : Except Failure (Unit × Collected) × Session} (h : Ends t s start post result)
    (hp : ∀ c, post c → post' c) : Ends t s start post' result := by
  cases h with
  | ok hs h => exact .ok hs (hp _ h)
  | error hd hl himport hf => exact .error hd hl himport hf

/-- Two parts of the walk, one after the other. -/
lemma Ends.bind {post post' : Collected → Prop} {w w' : Collect Unit} {c : Collected}
    {s' : Session} (h : Ends t s start post (s'.run t (w.run c)))
    (h' : ∀ (c₁ : Collected) (s₁ : Session), Lookups t s.store s₁.store → post c₁ →
      Ends t s start post' (s₁.run t (w'.run c₁))) :
    Ends t s start post' (s'.run t ((w >>= fun _ => w').run c)) := by
  rw [StateT.run_bind, Session.run_bind]
  generalize s'.run t (w.run c) = result at h
  cases h with
  | ok hs h => exact h' _ _ hs h
  | error hd hl himport hf => exact .error hd hl himport hf

/-- What the visit of some nodes of a document should do. -/
def Visited (t : FileTree) (s : Session) (start d : Document) (c : Collected)
    (ls : List Located) (c' : Collected) : Prop :=
  ∃ entered, Followed t s c' d ls ∧
    Progress t s start c c' ((ls.filter Located.isTypesBlock).flatMap (blockDefinitions d)) entered

variable {visit : Document → Collect Unit} {d : Document} {c : Collected} {s' : Session}

/-- The visit of an import. -/
lemma followImport_ends (hs : Steady t s.store) (hvisit : Enters t s start keys depth visit)
    (hkeys : ∀ d l target, importedDocument t s d l = .ok (some target) →
      documentKey t target ∈ keys)
    (hd : Reaches t s start d) {l : Located} (hl : l ∈ d.walk) (himport : l.isImport)
    (hs' : Lookups t s.store s'.store) (hstart : documentKey t start ∈ c.visited)
    (hdepth : remaining keys c.visited ≤ depth) :
    Ends t s start (Visited t s start d c [l]) (s'.run t ((followImport visit d l).run c)) := by
  have hblock : l.isTypesBlock = false :=
    Located.isTypesBlock_eq_false_of_scalar (Located.is_scalar_of_isImport himport)
  have hothers : ([l].filter Located.isTypesBlock).flatMap (blockDefinitions d) = [] := by
    simp [hblock]
  rcases run_followImport hs hs' visit d l c with ⟨f, s'', hf, hrun⟩ |
    ⟨target?, s'', htarget, hs'', hv, hrun⟩ | ⟨target, s'', htarget, hs'', hv, hrun⟩
  · rw [hrun]
    exact .error hd hl himport hf
  · rw [hrun]
    refine .ok hs'' ⟨[], ?_, hothers ▸ Progress.refl c⟩
    intro l' hl' _
    obtain rfl := List.mem_singleton.mp hl'
    exact ⟨target?, htarget, hv⟩
  · rw [hrun]
    have hne : documentKey t target ≠ documentKey t start := fun heq => hv (by rwa [heq])
    have hends := hvisit target c s'' hs'' (hd.step hl himport htarget hne) (.inl hstart) hv
      (hkeys d l target htarget) hdepth
    refine hends.imp fun c' ⟨entered, hmem, hp⟩ => ⟨entered, ?_, hothers ▸ hp⟩
    intro l' hl' _
    obtain rfl := List.mem_singleton.mp hl'
    refine ⟨some target, htarget, fun target' htarget' => ?_⟩
    obtain rfl := Option.mem_some_iff.mp htarget'
    rw [hp.visited]
    exact List.mem_append_left _ (by simpa using ⟨target, hmem, rfl⟩)

/-- The visit of one node. -/
lemma visitLocated_ends (hs : Steady t s.store) (hvisit : Enters t s start keys depth visit)
    (hkeys : ∀ d l target, importedDocument t s d l = .ok (some target) →
      documentKey t target ∈ keys)
    (hd : Reaches t s start d) {l : Located} (hl : l ∈ d.walk)
    (hs' : Lookups t s.store s'.store) (hstart : documentKey t start ∈ c.visited)
    (hdepth : remaining keys c.visited ≤ depth) :
    Ends t s start (Visited t s start d c [l])
      (s'.run t ((visitLocated d (followImport visit d) l).run c)) := by
  unfold visitLocated
  split_ifs with himport hblock
  · exact followImport_ends hs hvisit hkeys hd hl himport hs' hstart hdepth
  · refine .ok hs' ⟨[], ?_, ?_⟩
    · intro l' hl' himport'
      obtain rfl := List.mem_singleton.mp hl'
      exact absurd himport' himport
    · exact ⟨rfl, id, by simp [hblock], by simp, by simp⟩
  · refine .ok hs' ⟨[], ?_, by simpa [hblock] using Progress.refl c⟩
    intro l' hl' himport'
    obtain rfl := List.mem_singleton.mp hl'
    exact absurd himport' himport

/-- The visit of several nodes, one after the other. -/
lemma forM_visitLocated_ends (hs : Steady t s.store) (hvisit : Enters t s start keys depth visit)
    (hkeys : ∀ d l target, importedDocument t s d l = .ok (some target) →
      documentKey t target ∈ keys)
    (hd : Reaches t s start d) {ls : List Located} (hls : ∀ l ∈ ls, l ∈ d.walk)
    (hs' : Lookups t s.store s'.store) (hstart : documentKey t start ∈ c.visited)
    (hdepth : remaining keys c.visited ≤ depth) :
    Ends t s start (Visited t s start d c ls)
      (s'.run t ((ls.forM (visitLocated d (followImport visit d))).run c)) := by
  induction ls generalizing c s' with
  | nil => exact .ok hs' ⟨[], by simp [Followed], by simpa using Progress.refl c⟩
  | cons l rest ih =>
    have hfirst := visitLocated_ends hs hvisit hkeys hd (hls l (by simp)) hs' hstart hdepth
    refine hfirst.bind fun c₁ s₁ hs₁ ⟨entered₁, hf₁, hp₁⟩ => ?_
    have hsub := hp₁.visited_subset
    have hrest := ih (fun l' hl' => hls l' (List.mem_cons_of_mem _ hl')) hs₁ (hsub hstart)
      ((remaining_mono hsub).trans hdepth)
    refine hrest.imp fun c₂ ⟨entered₂, hf₂, hp₂⟩ => ⟨entered₁ ++ entered₂, ?_, ?_⟩
    · intro l' hl' himport
      rcases List.mem_cons.mp hl' with rfl | hl'
      · exact (hf₁.mono hp₂.visited_subset) l' (by simp) himport
      · exact hf₂ l' hl' himport
    · have htaken : ((l :: rest).filter Located.isTypesBlock).flatMap (blockDefinitions d) =
          ([l].filter Located.isTypesBlock).flatMap (blockDefinitions d) ++
            (rest.filter Located.isTypesBlock).flatMap (blockDefinitions d) := by
        rw [← List.flatMap_append, ← List.filter_append, List.singleton_append]
      rw [htaken]
      exact hp₁.trans hp₂

/-- Entering a document enters it and what its imports lead to, whatever the depth, as long as no
more keys are left than that. -/
lemma visitDocument_enters (hs : Steady t s.store)
    (hkeys : ∀ d l target, importedDocument t s d l = .ok (some target) →
      documentKey t target ∈ keys)
    (depth : ℕ) : Enters t s start keys depth (visitDocument depth) := by
  induction depth with
  | zero =>
    intro d c s' _ _ _ hnew hmem hdepth
    -- the key of the document itself is left
    have := remaining_cons_lt hmem hnew
    omega
  | succ depth ih =>
    intro d c s' hs' hd hstart hnew hmem hdepth
    let c₁ : Collected := { c with visited := documentKey t d :: c.visited }
    have hstart₁ : documentKey t start ∈ c₁.visited := by
      rcases hstart with hstart | rfl
      · exact List.mem_cons_of_mem _ hstart
      · exact List.mem_cons_self
    have hdepth₁ : remaining keys c₁.visited ≤ depth := by
      have := remaining_cons_lt hmem hnew
      change remaining keys (documentKey t d :: c.visited) ≤ depth
      omega
    rw [run_visitDocument_succ]
    refine (forM_visitLocated_ends hs ih hkeys hd (fun _ h => h) hs' hstart₁ hdepth₁).imp ?_
    rintro c' ⟨entered, hf, hp⟩
    refine ⟨d :: entered, by simp, ?_⟩
    exact {
      visited := by
        rw [hp.visited]
        simp [c₁]
      nodup := fun hc => hp.nodup (List.nodup_cons.mpr ⟨hnew, hc⟩)
      types := by
        rw [List.flatMap_cons, List.nil_append]
        exact hp.types
      reached := by
        intro x hx
        rcases List.mem_cons.mp hx with rfl | hx
        · exact hd
        · exact hp.reached x hx
      followed := by
        intro x hx
        rcases List.mem_cons.mp hx with rfl | hx
        · exact hf
        · exact hp.followed x hx }

end Walk

/-! ## The whole walk -/

section Closure

variable {t : FileTree} {s : Session} {d : Document}

/-- The walk from a document enters it and finds what it should, or stops at an import that
cannot be resolved. -/
lemma run_walkImports (hs : Steady t s.store) (d : Document) :
    (∃ (c : Collected) (s' : Session) (entered : List Document),
        s.run t (walkImports d) = (.ok c, s') ∧ d ∈ entered ∧
        Progress t s d ⟨[], []⟩ c [] entered) ∨
      ∃ (x : Document) (l : Located) (f : Failure) (s' : Session), Reaches t s d x ∧
        l ∈ x.walk ∧ l.isImport ∧ importedDocument t s x l = .error f ∧
        s.run t (walkImports d) = (.error f, s') := by
  -- one key for the document itself, and those that imports can lead to
  let keys := documentKey t d :: knownKeys t s.store
  have hkeys : ∀ x l target, importedDocument t s x l = .ok (some target) →
      documentKey t target ∈ keys :=
    fun _ _ _ h => List.mem_cons_of_mem _ (documentKey_mem_knownKeys h)
  have hdepth : remaining keys [] ≤ documentBound t s.store := by
    rw [← length_knownKeys]
    exact List.length_filter_le _ _
  have hends := visitDocument_enters hs hkeys (documentBound t s.store) d ⟨[], []⟩ s .refl .start
    (.inr rfl) List.not_mem_nil List.mem_cons_self hdepth
  rw [run_walkImports_eq]
  generalize s.run t ((visitDocument (documentBound t s.store) d).run ⟨[], []⟩) = result at hends
  cases hends with
  | ok _ h =>
    obtain ⟨entered, hd, hp⟩ := h
    exact .inl ⟨_, _, entered, rfl, hd, hp⟩
  | error hx hl himport hf => exact .inr ⟨_, _, _, _, hx, hl, himport, hf, rfl⟩

/-- The documents with the same key that a document reaches are the same. -/
def KeysTellApart (t : FileTree) (s : Session) (d : Document) : Prop :=
  ∀ x y, Reaches t s d x → Reaches t s d y → documentKey t x = documentKey t y → x = y

variable {c : Collected} {entered : List Document}

/-- Nothing that can be reached is missed: where a document was skipped, one with the same key was
entered before. -/
lemma Progress.mem_entered_iff (hkeys : KeysTellApart t s d) (hd : d ∈ entered)
    (hp : Progress t s d ⟨[], []⟩ c [] entered) {x : Document} :
    x ∈ entered ↔ Reaches t s d x := by
  refine ⟨hp.reached x, fun hx => ?_⟩
  induction hx with
  | start => exact hd
  | @step x target l hx hl himport htarget hne ih =>
    obtain ⟨target?, htarget', hv⟩ := hp.followed x ih l hl himport
    obtain rfl : target? = some target := by simpa [htarget'] using htarget
    -- the key of the target was entered, so the document that was entered with it is the target
    have hkey := hv target rfl
    rw [hp.visited, List.append_nil, List.mem_reverse, List.mem_map] at hkey
    obtain ⟨y, hy, heq⟩ := hkey
    rwa [← hkeys y target (hp.reached y hy) (hx.step hl himport htarget hne) heq]

/-- The keys of the entered documents are different. -/
lemma Progress.nodup_keys (hp : Progress t s d ⟨[], []⟩ c [] entered) :
    (entered.map (documentKey t)).Nodup := by
  have hnodup := hp.nodup List.nodup_nil
  rwa [hp.visited, List.append_nil, List.nodup_reverse] at hnodup

/-- No definition is taken twice, neither from one document nor from two. -/
lemma Progress.nodup_definitions (hp : Progress t s d ⟨[], []⟩ c [] entered) :
    (c.types.map fun x => (documentKey t x.document, x.located.path)).Nodup := by
  have hperm : c.types.Perm (entered.flatMap ownDefinitions) := by simpa using hp.types
  rw [(hperm.map _).nodup_iff, List.map_flatMap, List.nodup_flatMap]
  -- in one document the ways are different, in two documents the keys
  constructor
  · intro x _
    refine List.Nodup.of_map Prod.snd ?_
    rw [List.map_map]
    exact nodup_ownDefinitions_paths x
  · refine (List.pairwise_map.mp hp.nodup_keys).imp fun {x y} hne k hk hk' => hne ?_
    obtain ⟨a, ha, rfl⟩ := List.mem_map.mp hk
    obtain ⟨b, hb, heq⟩ := List.mem_map.mp hk'
    rw [← (mem_ownDefinitions.mp ha).1, ← (mem_ownDefinitions.mp hb).1]
    exact (congrArg Prod.fst heq).symm

lemma Progress.mem_types (hp : Progress t s d ⟨[], []⟩ c [] entered) {x : Definition} :
    x ∈ c.types ↔ x.document ∈ entered ∧ Defines x.document x.located := by
  have hperm : c.types.Perm (entered.flatMap ownDefinitions) := by simpa using hp.types
  rw [hperm.mem_iff, List.mem_flatMap]
  constructor
  · rintro ⟨y, hy, hx⟩
    obtain ⟨rfl, hdefines⟩ := mem_ownDefinitions.mp hx
    exact ⟨hy, hdefines⟩
  · rintro ⟨hx, hdefines⟩
    exact ⟨x.document, hx, mem_ownDefinitions.mpr ⟨rfl, hdefines⟩⟩

/-! ## The result of the walk -/

/-- A walk that gives a result has entered some documents and taken their definitions. -/
lemma progress_of_run (hs : Steady t s.store) (h : (s.run t (walkImports d)).1 = .ok c) :
    ∃ entered, d ∈ entered ∧ Progress t s d ⟨[], []⟩ c [] entered := by
  rcases run_walkImports hs d with ⟨c', s', entered, hrun, hd, hp⟩ | ⟨x, l, f, s', -, -, -, -, hrun⟩
  · obtain rfl : c' = c := by simpa [hrun] using h
    exact ⟨entered, hd, hp⟩
  · simp [hrun] at h

/-- A walk fails only as an import does that it meets. -/
lemma failure_of_run (hs : Steady t s.store) {f : Failure}
    (h : (s.run t (walkImports d)).1 = .error f) :
    ∃ x l, Reaches t s d x ∧ l ∈ x.walk ∧ l.isImport ∧ importedDocument t s x l = .error f := by
  rcases run_walkImports hs d with
    ⟨c', s', entered, hrun, -, -⟩ | ⟨x, l, f', s', hx, hl, hi, hf, hrun⟩
  · simp [hrun] at h
  · obtain rfl : f' = f := by simpa [hrun] using h
    exact ⟨x, l, hx, hl, hi, hf⟩

/-- A walk gives a result exactly if every import that can be reached is resolved. -/
lemma walkImports_ok_iff (hs : Steady t s.store) (hkeys : KeysTellApart t s d) :
    (∃ c, (s.run t (walkImports d)).1 = .ok c) ↔
      ∀ x, Reaches t s d x → ∀ l ∈ x.walk, l.isImport →
        ∃ target?, importedDocument t s x l = .ok target? := by
  constructor
  · rintro ⟨c, hc⟩ x hx l hl himport
    obtain ⟨entered, hd, hp⟩ := progress_of_run hs hc
    obtain ⟨target?, htarget, -⟩ :=
      hp.followed x ((hp.mem_entered_iff hkeys hd).mpr hx) l hl himport
    exact ⟨target?, htarget⟩
  · intro h
    cases hrun : (s.run t (walkImports d)).1 with
    | ok c => exact ⟨c, rfl⟩
    | error f =>
      obtain ⟨x, l, hx, hl, himport, hf⟩ := failure_of_run hs hrun
      obtain ⟨target?, htarget⟩ := h x hx l hl himport
      simp [htarget] at hf

/-- A walk enters the keys of the documents that can be reached. -/
lemma mem_visited_iff (hs : Steady t s.store) (hkeys : KeysTellApart t s d)
    (h : (s.run t (walkImports d)).1 = .ok c) {key : Option Path} :
    key ∈ c.visited ↔ ∃ x, Reaches t s d x ∧ documentKey t x = key := by
  obtain ⟨entered, hd, hp⟩ := progress_of_run hs h
  rw [hp.visited, List.append_nil, List.mem_reverse, List.mem_map]
  simp only [hp.mem_entered_iff hkeys hd]

/-- The collector runs the walk and keeps the definitions. -/
lemma run_collectTypes (hksy : d.isKsy) :
    (s.run t (collectTypes d)).1 = (s.run t (walkImports d)).1.map Collected.types := by
  unfold collectTypes walkTypes
  rw [if_pos hksy, Session.run_bind]
  rcases s.run t (walkImports d) with ⟨_ | _, _⟩ <;> rfl

/-- The types that are visible in a format description are those of its import closure.

The collector gives a result exactly if every import of every document that can be reached is
resolved without a failure, and otherwise ends with the failure of such an import.  In the result
no node stands twice, and it has the definitions of the documents that can be reached and no
others.  Every key is entered once, and the keys that are entered are those of the documents that
can be reached. -/
theorem collectTypes_import_closure (hksy : d.isKsy) (hs : Steady t s.store)
    (hkeys : KeysTellApart t s d) :
    ((∃ types, (s.run t (collectTypes d)).1 = .ok types) ↔
        ∀ x, Reaches t s d x → ∀ l ∈ x.walk, l.isImport →
          ∃ target?, importedDocument t s x l = .ok target?) ∧
      (∀ f, (s.run t (collectTypes d)).1 = .error f →
        ∃ x l, Reaches t s d x ∧ l ∈ x.walk ∧ l.isImport ∧ importedDocument t s x l = .error f) ∧
      ∀ types, (s.run t (collectTypes d)).1 = .ok types →
        (types.map fun x => (documentKey t x.document, x.located.path)).Nodup ∧
        (∀ x, x ∈ types ↔ Reaches t s d x.document ∧ Defines x.document x.located) ∧
        ∃ c, (s.run t (walkImports d)).1 = .ok c ∧ c.types = types ∧ c.visited.Nodup ∧
          ∀ key, key ∈ c.visited ↔ ∃ x, Reaches t s d x ∧ documentKey t x = key := by
  rw [run_collectTypes hksy, ← walkImports_ok_iff hs hkeys]
  cases hrun : (s.run t (walkImports d)).1 with
  | error f =>
    refine ⟨by simp [Except.map], fun f' hf => ?_, by simp [Except.map]⟩
    obtain rfl : f = f' := by simpa [Except.map] using hf
    exact failure_of_run hs hrun
  | ok c =>
    refine ⟨by simp [Except.map], by simp [Except.map], fun types htypes => ?_⟩
    obtain rfl : c.types = types := by simpa [Except.map] using htypes
    obtain ⟨entered, hd, hp⟩ := progress_of_run hs hrun
    refine ⟨hp.nodup_definitions, fun x => ?_, c, rfl, rfl, hp.nodup List.nodup_nil, fun key => ?_⟩
    · rw [hp.mem_types, hp.mem_entered_iff hkeys hd]
    · exact mem_visited_iff hs hkeys hrun

end Closure

/-! ## Two texts that import each other -/

/-- A description in the root directory that imports another one and defines a type. -/
def crossText (name imported type : String) : Document where
  source := s!"imports:\n- {imported}\ntypes:\n  {type}: \x7b\x7d\n"
  file? := some ⟨.slash, [name]⟩
  name := name
  roots := [.mapping default default
    [.keyValue default default importsKey default
        (.sequence default default [.scalar default default imported]),
      .keyValue default default typesKey default
        (.mapping default default
          [.keyValue default default type default (.mapping default default [])])]]
  data := []
  failure? := none

/-- A session in which two descriptions are open that import each other. -/
def crossSession : Session :=
  { Session.start true 8 none with
    store := { DocumentStore.empty true 8 with
      overlays := [(⟨.slash, ["a.ksy"]⟩, ⟨0, crossText "a.ksy" "b" "foo"⟩),
        (⟨.slash, ["b.ksy"]⟩, ⟨1, crossText "b.ksy" "a" "bar"⟩)] } }

lemma documentAt_noFiles (p : Path) : noFiles.documentAt p = .ok none := by
  have hread : ∃ e, noFiles.readText p = .error e := by
    unfold FileTree.readText
    split_ifs with hnull
    · exact ⟨_, rfl⟩
    · cases hfind : noFiles.find p with
      | error fault => exact ⟨_, rfl⟩
      | ok r =>
        obtain ⟨way, e⟩ := r
        obtain ⟨-, hat⟩ := FileTree.canonical_of_find (by simpa using hnull) hfind
        have he : e = .directory [] := by
          cases way with
          | nil => simpa [noFiles, Entry.at?] using hat.symm
          | cons name rest => simp [noFiles, Entry.at?, Entry.child?, Entry.entries] at hat
        exact ⟨_, by rw [he]; rfl⟩
  obtain ⟨e, he⟩ := hread
  rw [FileTree.documentAt, he]

lemma truthful_crossSession : crossSession.store.Truthful noFiles := by
  refine ⟨fun _ => by decide, fun e he => ?_⟩
  simp [crossSession, DocumentStore.empty] at he

/-- The store gives the two texts, each under its key, and nothing else. -/
lemma answer_crossSession (p : Path) :
    ∃ target?, crossSession.store.answer noFiles p = .ok target? ∧ ∀ target ∈ target?,
      (noFiles.key p = ⟨.slash, ["a.ksy"]⟩ ∧ target = crossText "a.ksy" "b" "foo") ∨
        (noFiles.key p = ⟨.slash, ["b.ksy"]⟩ ∧ target = crossText "b.ksy" "a" "bar") := by
  cases ho : crossSession.store.overlay? (noFiles.key p) with
  | none =>
    have hanswer := (DocumentStore.get_of_current truthful_crossSession.1 ho
      fun e he _ => truthful_crossSession.2 e he).1
    exact ⟨none, hanswer.trans (documentAt_noFiles _), by simp⟩
  | some o =>
    refine ⟨some o.document, by rw [DocumentStore.answer, DocumentStore.get_of_overlay ho]; rfl, ?_⟩
    have hmem := Keyed.mem_of_lookup ho
    simp only [crossSession, List.mem_cons, Prod.mk.injEq, List.not_mem_nil, or_false] at hmem
    rcases hmem with ⟨hkey, rfl⟩ | ⟨hkey, rfl⟩
    · simp [hkey]
    · simp [hkey]

/-- Imports in the two texts lead to these texts or nowhere. -/
lemma importedDocument_crossSession (d : Document) (l : Located) :
    ∃ target?, importedDocument noFiles crossSession d l = .ok target? ∧ ∀ target ∈ target?,
      target = crossText "a.ksy" "b" "foo" ∨ target = crossText "b.ksy" "a" "bar" := by
  rw [importedDocument_eq]
  rcases importAnswer_cases noFiles crossSession.store l.node.text d with ha | ha
  · rw [ha]
    obtain ⟨target?, htarget, hmem⟩ := answer_crossSession
      (Path.ofString (importPath noFiles l.node.text d.directory?))
    exact ⟨target?, htarget, fun target h => (hmem target h).imp And.right And.right⟩
  · rw [ha]
    exact ⟨none, rfl, by simp⟩

lemma documentKey_crossText (name imported type : String) (h : Path.IsComponent name)
    (hnull : '\x00' ∉ name.toList) (hdots : name ≠ "..") :
    documentKey noFiles (crossText name imported type) = some ⟨.slash, [name]⟩ := by
  have hplain := FileTree.plain_singleton h hnull
  rw [documentKey, crossText, Option.map_some,
    FileTree.linkFree_noFiles.documentKey_of_plain FileTree.plainCwd_noFiles hplain,
    FileTree.key_singleton hdots]

lemma keysTellApart_crossSession :
    KeysTellApart noFiles crossSession (crossText "a.ksy" "b" "foo") := by
  have hreach : ∀ x, Reaches noFiles crossSession (crossText "a.ksy" "b" "foo") x →
      x = crossText "a.ksy" "b" "foo" ∨ x = crossText "b.ksy" "a" "bar" := by
    intro x hx
    cases hx with
    | start => exact .inl rfl
    | @step d _ l _ _ _ htarget _ =>
      obtain ⟨target?, htarget', hmem⟩ := importedDocument_crossSession d l
      rw [htarget', Except.ok.injEq] at htarget
      exact hmem x (by rw [htarget]; rfl)
  have ha := documentKey_crossText "a.ksy" "b" "foo" ⟨by decide, by decide, by decide⟩
    (by decide) (by decide)
  have hb := documentKey_crossText "b.ksy" "a" "bar" ⟨by decide, by decide, by decide⟩
    (by decide) (by decide)
  intro x y hx hy hkey
  rcases hreach x hx with rfl | rfl
  · rcases hreach y hy with rfl | rfl
    · rfl
    · simp [ha, hb] at hkey
  · rcases hreach y hy with rfl | rfl
    · simp [ha, hb] at hkey
    · rfl

/-- The types of the two texts are collected although these import each other. -/
theorem collectTypes_import_closure_cross :
    (crossText "a.ksy" "b" "foo").isKsy ∧ Steady noFiles crossSession.store ∧
      KeysTellApart noFiles crossSession (crossText "a.ksy" "b" "foo") ∧
      ∃ types, (crossSession.run noFiles (collectTypes (crossText "a.ksy" "b" "foo"))).1 =
        .ok types ∧
        ∀ x, x ∈ types ↔ Reaches noFiles crossSession (crossText "a.ksy" "b" "foo") x.document ∧
          Defines x.document x.located := by
  have hksy : (crossText "a.ksy" "b" "foo").isKsy := by decide
  have hsteady := truthful_crossSession.steady
  obtain ⟨hok, -, htypes⟩ := collectTypes_import_closure hksy hsteady keysTellApart_crossSession
  obtain ⟨types, hrun⟩ := hok.mpr fun x _ l _ _ => by
    obtain ⟨target?, htarget, -⟩ := importedDocument_crossSession x l
    exact ⟨target?, htarget⟩
  exact ⟨hksy, hsteady, keysTellApart_crossSession, types, hrun, (htypes types hrun).2.1⟩

end Ksy

end KsyTools
