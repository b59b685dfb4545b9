/-
# The walk and the index agree

The collector follows imports forwards, from a document to those that it imports; the index follows
them backwards, from a file to those that import it.  In a workspace of plain paths and without
links both see the same graph: the documents that exist, with an edge for every import that leads
from one to another.  So the collector enters a document exactly if the index counts the document
that it has started with among the dependents of that one.
-/
import KsyTools.Proofs.Ksy.ExistingDocument
import KsyTools.Proofs.Ksy.ImportClosure
import KsyTools.Proofs.Server.Dependents

namespace KsyTools

open DocumentStore (Steady)
open Ksy (IsAt Reaches importedDocument documentKey includesOf importPath walkImports)

/-- A workspace without links and without paths that the store and the index know by different keys,
in which all documents are format descriptions.  An import with a NUL character is only brought into
normal form, where two slashes at its start are kept; so it may not start with two. -/
structure PlainWorkspace (t : FileTree) (s : Session) : Prop where
  linkFree : t.LinkFree
  cwd : t.PlainCwd
  /-- By `World.plainFiles_run`, so it is when texts are opened under plain paths only. -/
  files : s.store.PlainFiles t
  isKsy : ∀ k d, IsAt t s.store k d → d.isKsy
  imports : ∀ k d, IsAt t s.store k d → ∀ l ∈ d.walk, l.isImport → '\x00' ∈ l.node.text.toList →
    (Path.ofString (Ksy.withExtension l.node.text)).root ≠ .doubleSlash

/-- An index that holds the imports of the documents that exist, and nothing else. -/
def ImportIndex.Indexes (i : ImportIndex) (t : FileTree) (s : Session) : Prop :=
  ∀ k includes, (k, includes) ∈ i.entries ↔
    ∃ d, IsAt t s.store k d ∧ (s.run t (Ksy.includes d)).1 = .ok includes

variable {t : FileTree} {s : Session} {i : ImportIndex} {d : Document} {k : Path}

/-! ## The graph of the index -/

/-- The index leads from the documents that exist to where their imports lead. -/
lemma ImportIndex.Indexes.mem_targets (hi : i.Indexes t s) {ts : List (Option Path)} :
    (k, ts) ∈ i.targets t ↔ ∃ d, IsAt t s.store k d ∧
      ts = (includesOf t d).map fun x => t.indexKey? (Path.ofString x.path) := by
  simp only [ImportIndex.targets, List.mem_map, Prod.exists, Prod.mk.injEq]
  constructor
  · rintro ⟨k', includes, hmem, rfl, rfl⟩
    obtain ⟨d, hd, hrun⟩ := (hi k' includes).mp hmem
    obtain ⟨log, hrun'⟩ := Ksy.run_includes s t d
    obtain rfl : includesOf t d = includes := by simpa [hrun'] using hrun
    exact ⟨d, hd, rfl⟩
  · rintro ⟨d, hd, rfl⟩
    obtain ⟨log, hrun⟩ := Ksy.run_includes s t d
    exact ⟨k, includesOf t d, (hi k _).mpr ⟨d, hd, by rw [hrun]⟩, rfl, rfl⟩

lemma mem_includesOf_keys (hksy : d.isKsy) {target : Option Path} :
    (target ∈ (includesOf t d).map fun x => t.indexKey? (Path.ofString x.path)) ↔
      ∃ l ∈ d.walk, l.isImport ∧
        t.indexKey? (Path.ofString (importPath t l.node.text d.directory?)) = target := by
  simp [includesOf, hksy, and_assoc]

namespace PlainWorkspace

variable (hw : PlainWorkspace t s)

include hw

/-- An import of a document that exists leads to a document exactly if that exists under the path
that the index has for the import. -/
lemma importedDocument_iff (hd : IsAt t s.store k d) {l : Located} (hl : l ∈ d.walk)
    (himport : l.isImport) {target : Document} :
    importedDocument t s d l = .ok (some target) ↔
      ∃ k', t.indexKey? (Path.ofString (importPath t l.node.text d.directory?)) = some k' ∧
        IsAt t s.store k' target := by
  obtain ⟨file, hfile, hplain, -, -⟩ := hd.file? hw.linkFree hw.cwd hw.files
  have hnull := hw.imports k d hd l hl himport
  constructor
  · exact Ksy.isAt_of_importedDocument hw.linkFree hw.cwd hw.files hfile hplain hnull
  · rintro ⟨k', hpath, htarget⟩
    exact Ksy.importedDocument_of_isAt hw.linkFree hw.cwd hfile hplain hnull hpath htarget

lemma documentKey_eq (hd : IsAt t s.store k d) : documentKey t d = some k := by
  obtain ⟨-, -, -, -, hkey⟩ := hd.file? hw.linkFree hw.cwd hw.files
  exact hkey

/-- Whatever an existing document reaches exists. -/
lemma isAt_of_reaches (hd : IsAt t s.store k d) {x : Document} (hx : Reaches t s d x) :
    ∃ k', IsAt t s.store k' x := by
  induction hx with
  | start => exact ⟨k, hd⟩
  | step _ hl himport htarget _ ih =>
    obtain ⟨k', hk'⟩ := ih
    obtain ⟨k'', -, hk''⟩ := (hw.importedDocument_iff hk' hl himport).mp htarget
    exact ⟨k'', hk''⟩

lemma keysTellApart (hd : IsAt t s.store k d) : Ksy.KeysTellApart t s d := by
  intro x y hx hy hkey
  obtain ⟨kx, hkx⟩ := hw.isAt_of_reaches hd hx
  obtain ⟨ky, hky⟩ := hw.isAt_of_reaches hd hy
  rw [hw.documentKey_eq hkx, hw.documentKey_eq hky, Option.some.injEq] at hkey
  subst hkey
  exact hkx.unique hky

/-! ## The two searches -/

variable {f : Document} {kf : Path}

/-- A chain of imports in the index leads on from what was reached. -/
lemma reaches_of_leadsTo (hi : i.Indexes t s) (hd : IsAt t s.store k d) (hf : IsAt t s.store kf f)
    (hne : k ≠ kf) {files : List ImportIndex.Targets} (hfiles : files ⊆ i.targets t) {kx : Path}
    (h : ImportIndex.LeadsTo files (some kf) kx) {x : Document} (hx : IsAt t s.store kx x)
    (hreach : Reaches t s d x) : Reaches t s d f := by
  -- an import of `x` with the key `k'` in the index leads to the document there
  have hedge : ∀ {kx : Path} {x : Document} {ts : List (Option Path)} {k' : Path} {y : Document},
      IsAt t s.store kx x → (kx, ts) ∈ files → some k' ∈ ts → IsAt t s.store k' y →
      ∃ l ∈ x.walk, l.isImport ∧ importedDocument t s x l = .ok (some y) := by
    intro kx x ts k' y hx hmem hts hy
    obtain ⟨x', hx', rfl⟩ := hi.mem_targets.mp (hfiles hmem)
    obtain rfl := hx.unique hx'
    obtain ⟨l, hl, himport, hpath⟩ := (mem_includesOf_keys (hw.isKsy _ _ hx)).mp hts
    exact ⟨l, hl, himport, (hw.importedDocument_iff hx hl himport).mpr ⟨k', hpath, hy⟩⟩
  induction h generalizing x with
  | direct hmem hts =>
    obtain ⟨l, hl, himport, htarget⟩ := hedge hx hmem hts hf
    refine hreach.step hl himport htarget ?_
    rw [hw.documentKey_eq hf, hw.documentKey_eq hd]
    simpa using hne.symm
  | @through _ k' _ hmem hts hrest ih =>
    obtain ⟨ts', hmem'⟩ := hrest.mem
    obtain ⟨y, hy, -⟩ := hi.mem_targets.mp (hfiles hmem')
    obtain ⟨l, hl, himport, htarget⟩ := hedge hx hmem hts hy
    -- a chain that comes back to the start begins again there
    by_cases hback : k' = k
    · subst hback
      exact ih hy (hy.unique hd ▸ .start)
    · refine ih hy (hreach.step hl himport htarget ?_)
      rw [hw.documentKey_eq hy, hw.documentKey_eq hd]
      simpa using hback

/-- What is reached is the start, or a chain of imports in the index leads to it; a chain that comes
to `kf` ends there. -/
lemma leadsTo_of_reaches (hi : i.Indexes t s) (hd : IsAt t s.store k d) (hne : k ≠ kf)
    {x : Document} (hreach : Reaches t s d x) :
    ∃ kx, IsAt t s.store kx x ∧ (kx = k ∨
      ImportIndex.LeadsTo ((i.targets t).filter fun e => some e.1 != some kf) (some kx) k ∨
      ImportIndex.LeadsTo ((i.targets t).filter fun e => some e.1 != some kf) (some kf) k) := by
  induction hreach with
  | start => exact ⟨k, hd, .inl rfl⟩
  | @step x y l _ hl himport htarget _ ih =>
    obtain ⟨kx, hx, hchain⟩ := ih
    obtain ⟨ky, hpath, hy⟩ := (hw.importedDocument_iff hx hl himport).mp htarget
    refine ⟨ky, hy, .inr ?_⟩
    have hts := (mem_includesOf_keys (t := t) (hw.isKsy _ _ hx)).mpr ⟨l, hl, himport, hpath⟩
    have hedge : kx ≠ kf → (kx, (includesOf t x).map fun e => t.indexKey? (Path.ofString e.path)) ∈
        (i.targets t).filter fun e => some e.1 != some kf := by
      intro hkx
      simpa [hkx] using hi.mem_targets.mpr ⟨x, hx, rfl⟩
    rcases hchain with rfl | hchain | hchain
    · exact .inl (.direct (hedge hne) hts)
    · by_cases hkx : kx = kf
      · exact .inr (hkx ▸ hchain)
      · exact .inl (hchain.trans (.direct (hedge hkx) hts))
    · exact .inr hchain

/-- A document depends on another one if it reaches it. -/
lemma mem_dependents_iff (hi : i.Indexes t s) (hd : IsAt t s.store k d) (hf : IsAt t s.store kf f)
    (hne : k ≠ kf) {file : Path} (hfile : f.file? = some file) :
    k ∈ i.dependents t file ↔ Reaches t s d f := by
  obtain ⟨file', hfile', -, hindex, hkey⟩ := hf.file? hw.linkFree hw.cwd hw.files
  obtain rfl : file' = file := by simpa [hfile'] using hfile
  rw [ImportIndex.mem_dependents, hindex]
  constructor
  · intro h
    exact hw.reaches_of_leadsTo hi hd hf hne (List.filter_subset_self _) h hd .start
  · intro h
    obtain ⟨kx, hx, hchain⟩ := hw.leadsTo_of_reaches hi hd hne h
    obtain rfl : kx = kf := by simpa [hkey] using (hw.documentKey_eq hx).symm
    rcases hchain with heq | hchain | hchain
    · exact absurd heq.symm hne
    · exact hchain
    · exact hchain

omit hw in
/-- The forward walk and the reverse index agree.

Of two different documents of a plain workspace, the first depends on the second exactly if it
reaches it over imports.  If the walk from the first gives a result, it has entered the second
exactly if the index counts the first among the dependents of the second; and it gives one exactly
if every import of every document that can be reached is resolved without a failure. -/
theorem mem_visited_iff_mem_dependents (hw : PlainWorkspace t s) (hs : Steady t s.store)
    (hi : i.Indexes t s) (hd : IsAt t s.store k d) (hf : IsAt t s.store kf f) (hne : k ≠ kf)
    {file : Path} (hfile : f.file? = some file) :
    documentKey t d = some k ∧ documentKey t f = some kf ∧
      (k ∈ i.dependents t file ↔ Reaches t s d f) ∧
      (∀ c, (s.run t (walkImports d)).1 = .ok c →
        (documentKey t f ∈ c.visited ↔ k ∈ i.dependents t file)) ∧
      ((∃ c, (s.run t (walkImports d)).1 = .ok c) ↔
        ∀ x, Reaches t s d x → ∀ l ∈ x.walk, l.isImport →
          ∃ target?, importedDocument t s x l = .ok target?) := by
  have hkeys := hw.keysTellApart hd
  have hdependents := hw.mem_dependents_iff hi hd hf hne hfile
  refine ⟨hw.documentKey_eq hd, hw.documentKey_eq hf, hdependents, fun c hc => ?_,
    Ksy.walkImports_ok_iff hs hkeys⟩
  rw [hdependents, Ksy.mem_visited_iff hs hkeys hc]
  constructor
  · rintro ⟨x, hx, hkey⟩
    obtain ⟨kx, hkx⟩ := hw.isAt_of_reaches hd hx
    rw [hw.documentKey_eq hkx, hw.documentKey_eq hf, Option.some.injEq] at hkey
    subst hkey
    exact hkx.unique hf ▸ hx
  · intro hreach
    exact ⟨f, hreach, rfl⟩

end PlainWorkspace

/-! ## Two texts that import each other -/

section Cross

open FileTree (noFiles linkFree_noFiles plainCwd_noFiles plain_singleton)
open Ksy (crossText crossSession answer_crossSession importedDocument_crossSession
  truthful_crossSession)

/-- The index of the two texts. -/
def crossIndex : ImportIndex :=
  ⟨[(⟨.slash, ["a.ksy"]⟩, includesOf noFiles (crossText "a.ksy" "b" "foo")),
    (⟨.slash, ["b.ksy"]⟩, includesOf noFiles (crossText "b.ksy" "a" "bar"))]⟩

lemma plain_a : FileTree.Plain ⟨.slash, ["a.ksy"]⟩ :=
  plain_singleton ⟨by decide, by decide, by decide⟩ (by decide)

lemma plain_b : FileTree.Plain ⟨.slash, ["b.ksy"]⟩ :=
  plain_singleton ⟨by decide, by decide, by decide⟩ (by decide)

lemma isAt_crossSession :
    IsAt noFiles crossSession.store k d ↔
      (k = ⟨.slash, ["a.ksy"]⟩ ∧ d = crossText "a.ksy" "b" "foo") ∨
        (k = ⟨.slash, ["b.ksy"]⟩ ∧ d = crossText "b.ksy" "a" "bar") := by
  constructor
  · intro h
    obtain ⟨-, hkey⟩ :=
      Ksy.plain_of_canonical linkFree_noFiles plainCwd_noFiles h.written h.canonical
    obtain ⟨target?, hanswer, hmem⟩ := answer_crossSession k
    rw [h.given, Except.ok.injEq] at hanswer
    have hd := hmem d (by rw [← hanswer]; rfl)
    rwa [hkey] at hd
  · rintro (⟨rfl, rfl⟩ | ⟨rfl, rfl⟩)
    · refine ⟨plain_a.written, ?_, ?_, rfl⟩
      · rw [linkFree_noFiles.indexKey?_of_plain plainCwd_noFiles plain_a]
        decide
      · exact (DocumentStore.findFile_isSome_iff "").mpr (.inl rfl)
    · refine ⟨plain_b.written, ?_, ?_, rfl⟩
      · rw [linkFree_noFiles.indexKey?_of_plain plainCwd_noFiles plain_b]
        decide
      · exact (DocumentStore.findFile_isSome_iff "").mpr (.inl rfl)

lemma plainWorkspace_crossSession : PlainWorkspace noFiles crossSession where
  linkFree := linkFree_noFiles
  cwd := plainCwd_noFiles
  files := by
    refine ⟨fun o ho => ?_, fun e he => by simp [crossSession, DocumentStore.empty] at he⟩
    simp only [crossSession, List.mem_cons, List.not_mem_nil, or_false] at ho
    rcases ho with rfl | rfl
    · exact ⟨⟨.slash, ["a.ksy"]⟩, rfl, plain_a, by decide⟩
    · exact ⟨⟨.slash, ["b.ksy"]⟩, rfl, plain_b, by decide⟩
  isKsy := by
    intro k d hd
    rcases isAt_crossSession.mp hd with ⟨-, rfl⟩ | ⟨-, rfl⟩
    · decide
    · decide
  imports := by
    intro k d hd
    rcases isAt_crossSession.mp hd with ⟨-, rfl⟩ | ⟨-, rfl⟩
    · decide
    · decide

lemma crossIndex_indexes : crossIndex.Indexes noFiles crossSession := by
  intro k includes
  simp only [crossIndex, List.mem_cons, Prod.mk.injEq, List.not_mem_nil, or_false,
    isAt_crossSession]
  constructor
  · rintro (⟨rfl, rfl⟩ | ⟨rfl, rfl⟩)
    · obtain ⟨log, hrun⟩ := Ksy.run_includes crossSession noFiles (crossText "a.ksy" "b" "foo")
      exact ⟨_, .inl ⟨rfl, rfl⟩, by rw [hrun]⟩
    · obtain ⟨log, hrun⟩ := Ksy.run_includes crossSession noFiles (crossText "b.ksy" "a" "bar")
      exact ⟨_, .inr ⟨rfl, rfl⟩, by rw [hrun]⟩
  · rintro ⟨d, hd, hrun⟩
    obtain ⟨log, hrun'⟩ := Ksy.run_includes crossSession noFiles d
    rw [hrun', Except.ok.injEq] at hrun
    rcases hd with ⟨rfl, rfl⟩ | ⟨rfl, rfl⟩
    · exact .inl ⟨rfl, hrun.symm⟩
    · exact .inr ⟨rfl, hrun.symm⟩

/-- The walk from the first text gives a result, and enters the second exactly if the index counts
the first among the dependents of the second. -/
theorem mem_visited_iff_mem_dependents_cross :
    PlainWorkspace noFiles crossSession ∧ crossIndex.Indexes noFiles crossSession ∧
      ∃ c, (crossSession.run noFiles (walkImports (crossText "a.ksy" "b" "foo"))).1 = .ok c ∧
        (documentKey noFiles (crossText "b.ksy" "a" "bar") ∈ c.visited ↔
          ⟨.slash, ["a.ksy"]⟩ ∈ crossIndex.dependents noFiles ⟨.slash, ["b.ksy"]⟩) := by
  have ha := isAt_crossSession.mpr (.inl ⟨rfl, rfl⟩)
  have hb := isAt_crossSession.mpr (.inr ⟨rfl, rfl⟩)
  obtain ⟨-, -, -, hvisited, hok⟩ := PlainWorkspace.mem_visited_iff_mem_dependents
    plainWorkspace_crossSession truthful_crossSession.steady crossIndex_indexes ha hb
    (by decide) rfl
  obtain ⟨c, hc⟩ := hok.mpr fun x _ l _ _ => by
    obtain ⟨target?, htarget, -⟩ := importedDocument_crossSession x l
    exact ⟨target?, htarget⟩
  exact ⟨plainWorkspace_crossSession, crossIndex_indexes, c, hc, hvisited c hc⟩

end Cross

end KsyTools
