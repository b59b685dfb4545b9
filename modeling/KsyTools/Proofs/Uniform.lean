/-
# Sessions that cannot be told apart

What a tool finds out in a session does not depend on which documents the session happens to keep,
nor on its log.  A kind of sessions is uniform if imports lead to the same documents in all of them,
if the grammar is the same, and if asking does not lead out of the kind.  Then the checks of a
document give the same result in all sessions of the kind.

The walk over imports is the only part that looks at the size of the store, to bound its depth.  Any
depth that suffices gives the same result.
-/
import KsyTools.Proofs.Ksy.ImportClosure
import KsyTools.Proofs.OnlyAsks
import KsyTools.Proofs.Schema.Loaded
import KsyTools.Proofs.Yields

namespace KsyTools

open DocumentStore (Lookups)

/-- The grammar that a session gives when it is asked for it. -/
def Session.grammarResult (t : FileTree) (s : Session) : Except Failure Grammar :=
  (s.schemas.grammar t s.grammarFile?).1

/-- The session after it was asked for the grammar. -/
def Session.afterGrammar (t : FileTree) (s : Session) : Session :=
  { s with schemas := (s.schemas.grammar t s.grammarFile?).2 }

lemma Session.grammarResult_afterGrammar (t : FileTree) (s : Session) :
    (s.afterGrammar t).grammarResult t = s.grammarResult t :=
  SchemaCache.grammar_again t s.schemas s.grammarFile?

lemma Session.run_grammar (t : FileTree) (s : Session) :
    s.run t Work.grammar = (s.grammarResult t, s.afterGrammar t) := by
  simp only [Work.grammar, run_bind, run_get, run_read, run_set, grammarResult, afterGrammar]
  split <;> rename_i h <;> rw [h] <;> rfl

/-- A session of a kind that asking cannot tell apart from the others, and that asking does not lead
out of. -/
structure Session.Uniform (t : FileTree) (s₀ : Session) (kind : Session → Prop) : Prop where
  start : kind s₀
  asked : ∀ {s s' : Session}, kind s → Lookups t s.store s'.store → s'.schemas = s.schemas →
    s'.grammarFile? = s.grammarFile? → kind s'
  afterGrammar : ∀ {s : Session}, kind s → kind (s.afterGrammar t)
  imported : ∀ {s : Session}, kind s → ∀ (d : Document) (l : Located),
    Ksy.importedDocument t s d l = Ksy.importedDocument t s₀ d l
  grammar : ∀ {s : Session}, kind s → s.grammarResult t = s₀.grammarResult t

namespace Work

variable {α β : Type} {t : FileTree} {kind : Session → Prop}

/-! ## Computations whose result is settled -/

/-- The result of a computation is the same in all sessions of a kind. -/
def Determined (t : FileTree) (kind : Session → Prop) (w : Work α) : Prop :=
  ∃ r, w.Yields t kind r

namespace Determined

/-- The result is that of any session of the kind. -/
lemma yields {w : Work α} {s : Session} (h : w.Determined t kind) (hs : kind s) :
    w.Yields t kind (s.run t w).1 := by
  obtain ⟨r, hr⟩ := h
  rwa [(hr s hs).1]

lemma pure (a : α) : (Pure.pure a : Work α).Determined t kind := ⟨_, .pure a⟩

lemma throw (e : Failure) : (MonadExcept.throw e : Work α).Determined t kind := ⟨_, .throw e⟩

lemma bind {w : Work α} {f : α → Work β} (hw : w.Determined t kind)
    (hf : ∀ a, (f a).Determined t kind) : (w >>= f).Determined t kind := by
  choose g hg using hf
  obtain ⟨r, hr⟩ := hw
  exact ⟨_, hr.bind fun a _ => hg a⟩

lemma tryCatch {w : Work α} {handler : Failure → Work α} (hw : w.Determined t kind)
    (hhandler : ∀ e, (handler e).Determined t kind) :
    (MonadExcept.tryCatch w handler).Determined t kind := by
  choose g hg using hhandler
  obtain ⟨r, hr⟩ := hw
  exact ⟨_, hr.tryCatch fun e _ => hg e⟩

end Determined

/-- Two computations give the same result in all sessions of a kind.  If it is a value, the value
has a certain property. -/
def Same (t : FileTree) (kind : Session → Prop) (P : α → Prop) (w w' : Work α) : Prop :=
  ∃ r, (∀ a, r = .ok a → P a) ∧ w.Yields t kind r ∧ w'.Yields t kind r

lemma Same.bind {P : α → Prop} {Q : β → Prop} {w w' : Work α} {f f' : α → Work β}
    (hw : Same t kind P w w') (hf : ∀ a, P a → Same t kind Q (f a) (f' a)) :
    Same t kind Q (w >>= f) (w' >>= f') := by
  obtain ⟨r, post, left, right⟩ := hw
  cases r with
  | error e =>
    exact ⟨.error e, nofun, left.bind (g := fun _ => .error e) nofun,
      right.bind (g := fun _ => .error e) nofun⟩
  | ok a =>
    obtain ⟨r', post', left', right'⟩ := hf a (post a rfl)
    refine ⟨r', post', left.bind (g := fun _ => r') ?_, right.bind (g := fun _ => r') ?_⟩
    · rintro _ ⟨⟩
      exact left'
    · rintro _ ⟨⟩
      exact right'

lemma same_pure {P : α → Prop} {a : α} (h : P a) : Same t kind P (pure a) (pure a) :=
  ⟨.ok a, fun _ hb => Except.ok.inj hb ▸ h, .pure a, .pure a⟩

end Work

namespace Session.Uniform

variable {α β : Type} {t : FileTree} {s₀ s : Session} {kind : Session → Prop}

/-! ## Imports and the grammar -/

lemma log (h : s₀.Uniform t kind) (record : LogRecord) :
    (Work.log record).Yields t kind (.ok ()) :=
  fun _ hs => ⟨rfl, h.asked hs .refl rfl rfl⟩

lemma yieldsGrammar (h : s₀.Uniform t kind) : Work.grammar.Yields t kind (s₀.grammarResult t) := by
  intro s hs
  rw [Session.run_grammar]
  exact ⟨h.grammar hs, h.afterGrammar hs⟩

lemma computeImportPath (h : s₀.Uniform t kind) (text : String) (d : Document) :
    (Ksy.computeImportPath text d).Yields t kind (.ok (Ksy.importPath t text d.directory?)) := by
  intro s hs
  obtain ⟨log, hrun⟩ := Ksy.run_computeImportPath s t text d
  rw [hrun]
  exact ⟨rfl, h.asked hs .refl rfl rfl⟩

/-- Resolving an import gives the path of the import, and the same document as in any other session
of the kind. -/
lemma run_resolveImport (h : s₀.Uniform t kind) (hs : kind s) (d : Document) (l : Located) :
    ∃ s', kind s' ∧
      ((∃ e, Ksy.importedDocument t s₀ d l = .error e ∧
          s.run t (Ksy.resolveImport l.node.text d) = (.error e, s')) ∨
        ∃ target? : Option StoredDocument,
          Ksy.importedDocument t s₀ d l = .ok (target?.map StoredDocument.document) ∧
          s.run t (Ksy.resolveImport l.node.text d) =
            (.ok ⟨Ksy.importPath t l.node.text d.directory?, target?⟩, s')) := by
  obtain ⟨log, hrun⟩ := Ksy.run_resolveImport s t l.node.text d
  have himported := Ksy.importedDocument_eq t s d l
  rw [h.imported hs] at himported
  have hkind : kind (s.run t (Ksy.resolveImport l.node.text d)).2 :=
    h.asked hs ((Work.OnlyAsks.resolveImport l.node.text d).lookups s t) (by rw [hrun])
      (by rw [hrun])
  refine ⟨_, hkind, ?_⟩
  rw [himported, hrun]
  cases (Ksy.importAnswer t s.store l.node.text d).result with
  | error e => exact .inl ⟨e, rfl, rfl⟩
  | ok target? => exact .inr ⟨target?, rfl, rfl⟩

/-- What is done with a resolved import depends on the document that the import leads to. -/
lemma resolveImport_bind (h : s₀.Uniform t kind) (d : Document) (l : Located)
    {f : Ksy.ResolvedImport → Work β} {g : Option Document → Except Failure β}
    (hf : ∀ target? : Option StoredDocument,
      Ksy.importedDocument t s₀ d l = .ok (target?.map StoredDocument.document) →
      (f ⟨Ksy.importPath t l.node.text d.directory?, target?⟩).Yields t kind
        (g (target?.map StoredDocument.document))) :
    (Ksy.resolveImport l.node.text d >>= f).Yields t kind
      (Ksy.importedDocument t s₀ d l >>= g) := by
  intro s hs
  obtain ⟨s', hs', ⟨e, himported, hrun⟩ | ⟨target?, himported, hrun⟩⟩ := h.run_resolveImport hs d l
  · rw [Session.run_bind, hrun, himported]
    exact ⟨rfl, hs'⟩
  · rw [Session.run_bind, hrun, himported]
    exact hf target? himported s' hs'

end Session.Uniform

/-! ## The walk over imports -/

namespace Ksy

open Work (Same)

variable {t : FileTree} {s₀ : Session} {kind : Session → Prop}

/-- What following an import does depends only on the document that the import leads to. -/
lemma run_followImport_of_uniform (h : s₀.Uniform t kind) {s : Session} (hs : kind s)
    (visit : Document → Collect Unit) (d : Document) (l : Located) (c : Collected) :
    ∃ s', kind s' ∧ s.run t ((followImport visit d l).run c) =
      match importedDocument t s₀ d l with
      | .error e => (.error e, s')
      | .ok none => (.ok ((), c), s')
      | .ok (some target) =>
        if documentKey t target ∈ c.visited then (.ok ((), c), s')
        else s'.run t ((visit target).run c) := by
  unfold followImport
  obtain ⟨s', hs', ⟨e, himported, hrun⟩ | ⟨target?, himported, hrun⟩⟩ := h.run_resolveImport hs d l
  all_goals
    simp only [StateT.run_bind, StateT.run_monadLift, monadLift_self, Session.run_bind, hrun,
      himported]
  · exact ⟨s', hs', rfl⟩
  · cases target? with
    | none => exact ⟨s', hs', rfl⟩
    | some stored =>
      by_cases hv : documentKey t stored.document ∈ c.visited
      -- the document was entered before, and only the log grows
      · let record : LogRecord := .debug collectLogSource
          s!"Skipping already visited import {importPath t l.node.text d.directory?}"
        refine ⟨{ s' with log := s'.log ++ [record] }, h.asked hs' .refl rfl rfl, ?_⟩
        simp [Session.run_bind, hv]
        rfl
      · refine ⟨s', hs', ?_⟩
        simp [Session.run_bind, hv]

/-- A part of the walk forgets nothing that was entered. -/
def Grows (c : Collected) (r : Unit × Collected) : Prop :=
  c.visited ⊆ r.2.visited

lemma same_bind {w w' v v' : Collect Unit} {c : Collected}
    (hw : Same t kind (Grows c) (w.run c) (w'.run c))
    (hv : ∀ c', c.visited ⊆ c'.visited → Same t kind (Grows c') (v.run c') (v'.run c')) :
    Same t kind (Grows c) ((w >>= fun _ => v).run c) ((w' >>= fun _ => v').run c) := by
  rw [StateT.run_bind, StateT.run_bind]
  refine hw.bind fun r hr => ?_
  obtain ⟨result, post, left, right⟩ := hv r.2 hr
  exact ⟨result, fun a ha => List.Subset.trans hr (post a ha), left, right⟩

variable {visit visit' : Document → Collect Unit} {d : Document}

lemma same_followImport (h : s₀.Uniform t kind) {l : Located} {c : Collected}
    (hvisit : ∀ target, importedDocument t s₀ d l = .ok (some target) →
      documentKey t target ∉ c.visited →
      Same t kind (Grows c) ((visit target).run c) ((visit' target).run c)) :
    Same t kind (Grows c) ((followImport visit d l).run c) ((followImport visit' d l).run c) := by
  have unchanged : ∀ r : Except Failure (Unit × Collected),
      (∀ s, kind s → ∀ visit, ∃ s', kind s' ∧
        s.run t ((followImport visit d l).run c) = (r, s')) →
      (∀ a, r = .ok a → Grows c a) →
      Same t kind (Grows c) ((followImport visit d l).run c) ((followImport visit' d l).run c) := by
    intro r runs post
    have yields (visit : Document → Collect Unit) :
        Work.Yields t kind ((followImport visit d l).run c) r := by
      intro s hs
      obtain ⟨s', hs', hrun⟩ := runs s hs visit
      rw [hrun]
      exact ⟨rfl, hs'⟩
    exact ⟨r, post, yields visit, yields visit'⟩
  have here : ∀ a : Unit × Collected, (.ok ((), c) : Except Failure _) = .ok a → Grows c a :=
    fun a ha => Except.ok.inj ha ▸ List.Subset.refl c.visited
  cases himported : importedDocument t s₀ d l with
  | error e =>
    refine unchanged (.error e) (fun s hs visit => ?_) nofun
    obtain ⟨s', hs', hrun⟩ := run_followImport_of_uniform h hs visit d l c
    rw [himported] at hrun
    exact ⟨s', hs', hrun⟩
  | ok target? =>
    cases target? with
    | none =>
      refine unchanged (.ok ((), c)) (fun s hs visit => ?_) here
      obtain ⟨s', hs', hrun⟩ := run_followImport_of_uniform h hs visit d l c
      rw [himported] at hrun
      exact ⟨s', hs', hrun⟩
    | some target =>
      by_cases hv : documentKey t target ∈ c.visited
      · refine unchanged (.ok ((), c)) (fun s hs visit => ?_) here
        obtain ⟨s', hs', hrun⟩ := run_followImport_of_uniform h hs visit d l c
        simp only [himported, if_pos hv] at hrun
        exact ⟨s', hs', hrun⟩
      · -- the document is entered, from a session of the kind
        obtain ⟨r, post, left, right⟩ := hvisit target himported hv
        have yields {visit : Document → Collect Unit}
            (hr : Work.Yields t kind ((visit target).run c) r) :
            Work.Yields t kind ((followImport visit d l).run c) r := by
          intro s hs
          obtain ⟨s', hs', hrun⟩ := run_followImport_of_uniform h hs visit d l c
          simp only [himported, if_neg hv] at hrun
          rw [hrun]
          exact hr s' hs'
        exact ⟨r, post, yields left, yields right⟩

/-- Two walks enter the documents that imports of `d` lead to in the same way. -/
def EnterAlike (t : FileTree) (s₀ : Session) (kind : Session → Prop)
    (visit visit' : Document → Collect Unit) (known : Collected → Prop) (d : Document) : Prop :=
  ∀ (c : Collected) (l : Located) (target : Document), known c →
    importedDocument t s₀ d l = .ok (some target) → documentKey t target ∉ c.visited →
    Same t kind (Grows c) ((visit target).run c) ((visit' target).run c)

lemma same_visitLocated (h : s₀.Uniform t kind) {known : Collected → Prop}
    (hvisit : EnterAlike t s₀ kind visit visit' known d) (l : Located) {c : Collected}
    (hc : known c) :
    Same t kind (Grows c) ((visitLocated d (followImport visit d) l).run c)
      ((visitLocated d (followImport visit' d) l).run c) := by
  unfold visitLocated
  split_ifs with himport hblock
  · exact same_followImport h fun target => hvisit c l target hc
  · exact Work.same_pure (List.Subset.refl c.visited)
  · exact Work.same_pure (List.Subset.refl c.visited)

lemma same_forM_visitLocated (h : s₀.Uniform t kind) {known : Collected → Prop}
    (hvisit : EnterAlike t s₀ kind visit visit' known d)
    (hknown : ∀ c r, known c → Grows c r → known r.2) (ls : List Located) {c : Collected}
    (hc : known c) :
    Same t kind (Grows c) ((ls.forM (visitLocated d (followImport visit d))).run c)
      ((ls.forM (visitLocated d (followImport visit' d))).run c) := by
  induction ls generalizing c with
  | nil => exact Work.same_pure (List.Subset.refl c.visited)
  | cons l rest ih =>
    exact same_bind (same_visitLocated h hvisit l hc) fun c' hc' => ih (hknown c ((), c') hc hc')

/-- As long as the depth suffices for the keys that are left, it does not matter. -/
lemma same_visitDocument (h : s₀.Uniform t kind) {keys keys' : List (Option Path)}
    (hkeys : ∀ d l target, importedDocument t s₀ d l = .ok (some target) →
      documentKey t target ∈ keys ∧ documentKey t target ∈ keys')
    (depth depth' : ℕ) (d : Document) (c : Collected) (hnew : documentKey t d ∉ c.visited)
    (hd : documentKey t d ∈ keys ∧ documentKey t d ∈ keys')
    (hdepth : remaining keys c.visited ≤ depth) (hdepth' : remaining keys' c.visited ≤ depth') :
    Same t kind (Grows c) ((visitDocument depth d).run c) ((visitDocument depth' d).run c) := by
  induction depth generalizing depth' d c with
  | zero =>
    have := remaining_cons_lt hd.1 hnew
    omega
  | succ depth ih =>
    have hless := remaining_cons_lt hd.1 hnew
    have hless' := remaining_cons_lt hd.2 hnew
    obtain ⟨depth', rfl⟩ : ∃ n, depth' = n + 1 := ⟨depth' - 1, by omega⟩
    let c₁ : Collected := { c with visited := documentKey t d :: c.visited }
    have hrun (n : ℕ) : (visitDocument (n + 1) d).run c = (do
        let t ← read
        (d.walk.forM (visitLocated d (followImport (visitDocument n) d))).run
          { c with visited := documentKey t d :: c.visited }) := by
      rw [visitDocument, visitNodes_eq_forM]
      rfl
    -- the keys that are left become fewer and fewer
    let known (c : Collected) : Prop :=
      remaining keys c.visited ≤ depth ∧ remaining keys' c.visited ≤ depth'
    have hknown (c : Collected) (r : Unit × Collected) (hc : known c) (hr : Grows c r) :
        known r.2 :=
      ⟨(remaining_mono hr).trans hc.1, (remaining_mono hr).trans hc.2⟩
    have henter : EnterAlike t s₀ kind (visitDocument depth) (visitDocument depth') known d :=
      fun c l target hc himported hnew =>
        ih depth' target c hnew (hkeys d l target himported) hc.1 hc.2
    have hc₁ : known c₁ := ⟨by change remaining keys (_ :: _) ≤ _; omega,
      by change remaining keys' (_ :: _) ≤ _; omega⟩
    obtain ⟨r, post, left, right⟩ := same_forM_visitLocated h henter hknown d.walk hc₁
    refine ⟨r, fun a ha => List.Subset.trans (List.subset_cons_self _ _) (post a ha), ?_, ?_⟩
    · intro s hs
      rw [hrun, Session.run_bind]
      exact left s hs
    · intro s hs
      rw [hrun, Session.run_bind]
      exact right s hs

end Ksy

namespace Session.Uniform

variable {t : FileTree} {s₀ : Session} {kind : Session → Prop}

open Work (Same Determined)

/-- The walk over imports gives the same result in all sessions of the kind, whatever these keep. -/
lemma walkImports (h : s₀.Uniform t kind) (d : Document) :
    (Ksy.walkImports d).Determined t kind := by
  let visit (n : ℕ) : Work (Unit × Ksy.Collected) := (Ksy.visitDocument n d).run ⟨[], []⟩
  have enough {s : Session} (hs : kind s) :
      Same t kind (Ksy.Grows ⟨[], []⟩) (visit (Ksy.documentBound t s₀.store))
        (visit (Ksy.documentBound t s.store)) := by
    have bound (s : Session) : Ksy.remaining (Ksy.documentKey t d :: Ksy.knownKeys t s.store) [] ≤
        Ksy.documentBound t s.store := by
      rw [← Ksy.length_knownKeys]
      exact List.length_filter_le _ _
    refine Ksy.same_visitDocument h (fun x l target himported => ⟨?_, ?_⟩) _ _ d ⟨[], []⟩
      List.not_mem_nil ⟨List.mem_cons_self, List.mem_cons_self⟩ (bound s₀) (bound s)
    · exact List.mem_cons_of_mem _ (Ksy.documentKey_mem_knownKeys himported)
    · rw [← h.imported hs] at himported
      exact List.mem_cons_of_mem _ (Ksy.documentKey_mem_knownKeys himported)
  obtain ⟨r, -, first, -⟩ := enough h.start
  refine ⟨r.map Prod.snd, fun s hs => ?_⟩
  obtain ⟨r', -, left, right⟩ := enough hs
  obtain rfl : r' = r := (left s₀ h.start).1.symm.trans (first s₀ h.start).1
  obtain ⟨result, hs'⟩ := right s hs
  have run : s.run t (Ksy.walkImports d) =
      ((s.run t (visit (Ksy.documentBound t s.store))).1.map Prod.snd,
        (s.run t (visit (Ksy.documentBound t s.store))).2) := by
    unfold Ksy.walkImports
    simp only [Session.run_bind, Session.run_read, Session.run_get]
    rcases s.run t (visit (Ksy.documentBound t s.store)) with ⟨_ | _, _⟩ <;> rfl
  rw [run, result]
  exact ⟨rfl, hs'⟩

lemma collectTypes (h : s₀.Uniform t kind) (d : Document) :
    (Ksy.collectTypes d).Determined t kind := by
  unfold Ksy.collectTypes Ksy.walkTypes
  split
  · exact (h.walkImports d).bind fun c => .pure c.types
  · exact .pure []

end Session.Uniform

end KsyTools
