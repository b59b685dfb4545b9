/-
# The document that an import leads to

Resolving an import looks a path up in the store and does nothing else but write to the log.  As
long as the answers of the store stay the same, so do the documents that imports lead to.
-/
import KsyTools.Ksy.Types
import KsyTools.Proofs.Files.Links
import KsyTools.Proofs.Session
import KsyTools.Proofs.Store.Lookup

namespace KsyTools

open DocumentStore (Lookups Steady)

namespace Ksy

/-- What the store is asked for at an import, and what it answers. -/
def importAnswer (t : FileTree) (s : DocumentStore) (text : String) (d : Document) :
    DocumentStore.Answer (Option StoredDocument) :=
  let path := importPath t text d.directory?
  match (s.findFile t (Path.ofString path) (Text.quote path)).1 with
  | some _ => s.get t (Path.ofString path)
  | none => ⟨.ok none, s, []⟩

lemma run_computeImportPath (s : Session) (t : FileTree) (text : String) (d : Document) :
    ∃ log, s.run t (computeImportPath text d) =
      (.ok (importPath t text d.directory?), { s with log }) := by
  unfold computeImportPath importPath
  simp only [Session.run_bind, Session.run_read]
  cases (importPathNote t text d.directory?).2 with
  | none => exact ⟨s.log, rfl⟩
  | some reason => exact ⟨_, rfl⟩

/-- Resolving an import gives the answer of the store, and leaves the store as that answer does. -/
lemma run_resolveImport (s : Session) (t : FileTree) (text : String) (d : Document) :
    ∃ log, s.run t (resolveImport text d) =
      ((importAnswer t s.store text d).result.map fun target? =>
          ⟨importPath t text d.directory?, target?⟩,
        { s with store := (importAnswer t s.store text d).store, log }) := by
  obtain ⟨log, hpath⟩ := run_computeImportPath s t text d
  unfold resolveImport importAnswer
  rw [Session.run_bind_of_ok hpath]
  simp only [Session.run_bind, Session.run_findFile]
  cases hfound : (s.store.findFile t (Path.ofString (importPath t text d.directory?))
      (Text.quote (importPath t text d.directory?))).1 with
  | none => exact ⟨_, rfl⟩
  | some q =>
    simp only [Session.run_bind, Session.run_getDocument]
    cases hget : (s.store.get t (Path.ofString (importPath t text d.directory?))).result with
    | error f => exact ⟨_, rfl⟩
    | ok target? =>
      cases target? with
      | none => exact ⟨_, rfl⟩
      | some target => exact ⟨_, rfl⟩

/-- The document that an import of a document leads to. -/
def importedDocument (t : FileTree) (s : Session) (d : Document) (l : Located) :
    Except Failure (Option Document) :=
  (s.run t (resolveImport l.node.text d)).1.map fun r => r.target?.map StoredDocument.document

/-- The answer of the store to an import comes from a lookup, or there was none. -/
lemma importAnswer_cases (t : FileTree) (s : DocumentStore) (text : String) (d : Document) :
    importAnswer t s text d = s.get t (Path.ofString (importPath t text d.directory?)) ∨
      importAnswer t s text d = ⟨.ok none, s, []⟩ := by
  unfold importAnswer
  simp only
  split
  · exact .inl rfl
  · exact .inr rfl

lemma importedDocument_eq (t : FileTree) (s : Session) (d : Document) (l : Located) :
    importedDocument t s d l =
      (importAnswer t s.store l.node.text d).result.map (Option.map StoredDocument.document) := by
  obtain ⟨log, h⟩ := run_resolveImport s t l.node.text d
  rw [importedDocument, h]
  cases (importAnswer t s.store l.node.text d).result <;> rfl

/-- Where an import leads depends on the answers of the store, and on which texts editors hold. -/
lemma importedDocument_of_answers {t : FileTree} {s s' : Session}
    (hoverlays : ∀ p, s'.store.hasOverlay t p = s.store.hasOverlay t p)
    (hanswers : ∀ p, s'.store.answer t p = s.store.answer t p) (d : Document) (l : Located) :
    importedDocument t s' d l = importedDocument t s d l := by
  have hfound (p : Path) (shown : String) :
      s'.store.findFile t p shown = s.store.findFile t p shown := by
    unfold DocumentStore.findFile
    rw [hoverlays]
  rw [importedDocument_eq, importedDocument_eq]
  unfold importAnswer
  simp only [hfound]
  split
  · exact hanswers _
  · rfl

/-- As long as the store is only asked, imports lead to the same documents. -/
lemma importedDocument_congr {t : FileTree} {s s' : Session} (hs : Steady t s.store)
    (h : Lookups t s.store s'.store) (d : Document) (l : Located) :
    importedDocument t s' d l = importedDocument t s d l := by
  refine importedDocument_of_answers (fun p => ?_) (hs _ h) d l
  rw [DocumentStore.hasOverlay, DocumentStore.overlay?, h.overlays]
  rfl

/-- Resolving an import in a store that was only asked gives the document that the import led to
from the start, and again a store that was only asked. -/
lemma run_resolveImport_of_steady {t : FileTree} {s s' : Session} (hs : Steady t s.store)
    (h : Lookups t s.store s'.store) (d : Document) (l : Located) :
    ∃ r s'', s'.run t (resolveImport l.node.text d) = (r, s'') ∧ Lookups t s.store s''.store ∧
      r.map (fun r => r.target?.map StoredDocument.document) = importedDocument t s d l := by
  obtain ⟨log, hrun⟩ := run_resolveImport s' t l.node.text d
  refine ⟨_, _, hrun, ?_, ?_⟩
  · rcases importAnswer_cases t s'.store l.node.text d with ha | ha
    · simpa only [ha] using h.get _
    · simpa only [ha] using h
  · rw [← importedDocument_congr hs h, importedDocument, hrun]

/-! ## There are finitely many documents -/

/-- The keys of all documents that an import can lead to: those of the documents that the store
holds, and the ways of the file tree. -/
def knownKeys (t : FileTree) (s : DocumentStore) : List (Option Path) :=
  s.overlays.map (fun o => documentKey t o.2.document) ++
    s.cache.map (fun e => documentKey t e.stored.document) ++
    ([] :: t.root.waysBelow).map fun way => some ⟨.slash, way⟩

lemma length_knownKeys (t : FileTree) (s : DocumentStore) :
    (knownKeys t s).length + 1 = documentBound t s := by
  simp only [knownKeys, documentBound, List.length_append, List.length_map, List.length_cons]
  omega

lemma documentKey_of_readText {t : FileTree} {key : Path} {text : String}
    (h : t.readText key = .ok text) :
    ∃ way ∈ [] :: t.root.waysBelow, t.documentKey key = ⟨.slash, way⟩ := by
  unfold FileTree.readText at h
  split_ifs at h with hnull
  cases hfind : t.find key with
  | error fault => simp [hfind, Except.map, FileTree.textOf] at h
  | ok r =>
    obtain ⟨way, e⟩ := r
    obtain ⟨hcanonical, hat⟩ := FileTree.canonical_of_find (by simpa using hnull) hfind
    refine ⟨way, ?_, by simp [FileTree.documentKey, hcanonical]⟩
    by_cases hway : way = []
    · simp [hway]
    · exact List.mem_cons_of_mem _ (Entry.mem_waysBelow hat hway)

/-- Wherever an import leads, the document there has one of the known keys. -/
lemma documentKey_mem_knownKeys {t : FileTree} {s : Session} {d target : Document} {l : Located}
    (h : importedDocument t s d l = .ok (some target)) :
    documentKey t target ∈ knownKeys t s.store := by
  rw [importedDocument_eq] at h
  rcases importAnswer_cases t s.store l.node.text d with ha | ha
  · rw [ha] at h
    cases hget : (s.store.get t (Path.ofString (importPath t l.node.text d.directory?))).result with
    | error f => simp [hget, Except.map] at h
    | ok found =>
      obtain ⟨stored, rfl, rfl⟩ : ∃ stored, found = some stored ∧ stored.document = target := by
        simpa [hget, Except.map] using h
      simp only [knownKeys, List.mem_append, List.mem_map]
      -- the document is a text of an editor, is kept, or was read from a file
      rcases DocumentStore.get_result_some hget with ⟨o, ho, rfl⟩ | ⟨e, he, rfl⟩ | ⟨hfile, _, htext⟩
      · exact .inl (.inl ⟨o, ho, rfl⟩)
      · exact .inl (.inr ⟨e, he, rfl⟩)
      · obtain ⟨way, hway, hkey⟩ := documentKey_of_readText htext
        exact .inr ⟨way, hway, by simp [documentKey, hfile, hkey]⟩
  · simp [ha, Except.map] at h

end Ksy

end KsyTools
