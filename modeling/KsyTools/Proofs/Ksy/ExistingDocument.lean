/-
# Documents under their canonical paths

The walk over imports looks a path up in the store, the index compares canonical paths.  Without
links the two agree: an import leads to a document exactly if the document exists under the
canonical form of the path of the import.  This needs that no text is open under a path with two
slashes at its start or with a NUL character, and that no import is written with both; such paths
the store and the index know by different keys.
-/
import KsyTools.Proofs.Files.LinkFree
import KsyTools.Proofs.Ksy.ImportPaths
import KsyTools.Proofs.Ksy.ImportedDocument
import KsyTools.Proofs.Store.Runs

namespace KsyTools

/-! ## Finding files -/

lemma FileTree.isFile_eq_ok_true_iff {t : FileTree} {p : Path} :
    t.isFile p = .ok true ↔
      hasNull p = false ∧ ∃ way e, t.find p = .ok (way, e) ∧ e.isFile :=
  ask_eq_ok_true_iff

namespace DocumentStore

variable {t : FileTree} {s : DocumentStore} {p : Path}

lemma findFile_isSome_iff (shown : String) :
    (s.findFile t p shown).1.isSome ↔ s.hasOverlay t p ∨ t.isFile p = .ok true := by
  unfold findFile
  split_ifs with ho
  · simp [ho]
  · cases hfile : t.isFile p with
    | error e => simp [ho]
    | ok b => cases b <;> simp [ho]

lemma get_key (hcwd : t.PlainCwd) (p : Path) : s.get t (t.key p) = s.get t p := by
  unfold get
  rw [FileTree.key_key hcwd]

lemma answer_key (hcwd : t.PlainCwd) (p : Path) : s.answer t (t.key p) = s.answer t p := by
  rw [answer, get_key hcwd, answer]

lemma hasOverlay_key (hcwd : t.PlainCwd) (p : Path) :
    s.hasOverlay t (t.key p) = s.hasOverlay t p := by
  unfold hasOverlay
  rw [FileTree.key_key hcwd]

/-- Where a lookup gives a document and no editor has a text, something is at the path. -/
lemma find_of_answer {d : Document} (ho : s.hasOverlay t p = false)
    (h : s.answer t p = .ok (some d)) : ∃ r, t.find (t.key p) = .ok r := by
  cases hfind : t.find (t.key p) with
  | ok r => exact ⟨r, rfl⟩
  | error fault =>
    exfalso
    -- what is not there has no signature, and a lookup gives nothing for it
    have hsig : t.signature? (t.key p) = none := by
      unfold FileTree.signature? FileTree.stat
      split_ifs <;> simp [hfind]
    have hnone : s.overlay? (t.key p) = none := by simpa [hasOverlay] using ho
    have hget : (s.get t p).result = .ok none := by simp [get, hnone, hsig]
    simp [answer, hget, Except.map] at h

/-- Every document of the store knows the path that it is kept under, and no text is open under a
path with two slashes or a NUL character. -/
structure PlainFiles (t : FileTree) (s : DocumentStore) : Prop where
  overlays : ∀ o ∈ s.overlays, ∃ p, o.2.document.file? = some p ∧ FileTree.Plain p ∧ t.key p = o.1
  cache : ∀ e ∈ s.cache, e.stored.document.file? = some e.key

/-- A document that is given for a plain path has a plain path with the same key. -/
lemma PlainFiles.file?_of_answer (hs : s.PlainFiles t) (hcwd : t.PlainCwd) (hp : FileTree.Plain p)
    {d : Document} (h : s.answer t p = .ok (some d)) :
    ∃ q, d.file? = some q ∧ FileTree.Plain q ∧ t.key q = t.key p := by
  unfold answer at h
  have hself : ∃ q, some (t.key p) = some q ∧ FileTree.Plain q ∧ t.key q = t.key p :=
    ⟨t.key p, rfl, hp.key hcwd, FileTree.key_key hcwd p⟩
  rcases get_cases t s p with ⟨d', ho, hr, -⟩ | ⟨-, -, hr, -⟩ | ⟨sig, e, -, -, -, he, -, hr, -⟩ |
    ⟨sig, -, -, -, hload⟩
  · obtain rfl : d'.document = d := by simpa [hr, Except.map] using h
    exact hs.overlays _ (Keyed.mem_of_lookup ho)
  · simp [hr, Except.map] at h
  · obtain rfl : e.stored.document = d := by simpa [hr, Except.map] using h
    have hkey : e.key = t.key p := by simpa using List.find?_some he
    rw [hs.cache e (List.mem_of_find?_eq_some he), hkey]
    exact hself
  · rw [hload] at h
    rcases load_cases t s (t.key p) sig with
      ⟨-, hr, -⟩ | ⟨_, -, hr, -⟩ | ⟨d', s', -, hfile, -, -, hr, -⟩
    · simp [hr, Except.map] at h
    · simp [hr, Except.map] at h
    · rw [hr] at h
      split_ifs at h
      · simp [Except.map] at h
      · obtain rfl : d'.document = d := by simpa [Except.map] using h
        rw [hfile]
        exact hself

end DocumentStore

/-! ## Stores that are used -/

namespace World

variable {w : World}

/-- An event keeps every document under its path, if it opens a text only under a plain path. -/
lemma plainFiles_after (h : w.store.PlainFiles w.files) {e : StoreEvent}
    (he : ∀ p content, e = .setOverlay (some p) content → FileTree.Plain p) :
    (w.after e).store.PlainFiles (w.after e).files := by
  cases e with
  | setOverlay path? content =>
    simp only [after, DocumentStore.setOverlay]
    cases hparse : w.store.parse content path? none with
    | error f => exact h
    | ok r =>
      obtain ⟨d, s'⟩ := r
      obtain ⟨hd, -, rfl⟩ := DocumentStore.parse_ok hparse
      cases path? with
      | none => exact ⟨h.overlays, h.cache⟩
      | some p =>
        refine ⟨fun o ho => ?_, h.cache⟩
        rcases Keyed.mem_set.mp ho with ⟨hkey, hdocument⟩ | ⟨-, ho⟩
        · rw [hkey, hdocument]
          exact ⟨p, (Document.parse_ok hd).2, he p content rfl, rfl⟩
        · exact h.overlays o ho
  | removeOverlay p =>
    exact ⟨fun o ho => h.overlays o (Keyed.mem_erase.mp ho).2, h.cache⟩
  | get p =>
    refine ⟨fun o ho => h.overlays o ?_, fun e he => ?_⟩
    · rwa [← DocumentStore.get_overlays w.files w.store p]
    · rcases DocumentStore.mem_cache_get he with he | ⟨-, -, hat⟩
      · exact h.cache e he
      · exact FileTree.file?_of_documentAt hat
  | findFile p shown => exact h
  | invalidate p => exact ⟨h.overlays, fun e he => h.cache e (List.mem_filter.mp he).1⟩
  | clearCache => exact ⟨h.overlays, fun e he => by simp [after, DocumentStore.clearCache] at he⟩
  | change root now => exact ⟨h.overlays, h.cache⟩

/-- A store keeps every document under its path, as long as texts are opened under plain paths. -/
theorem plainFiles_run (h : w.store.PlainFiles w.files) {events : List StoreEvent}
    (hplain : ∀ p content, .setOverlay (some p) content ∈ events → FileTree.Plain p) :
    (w.run events).store.PlainFiles (w.run events).files := by
  induction events generalizing w with
  | nil => exact h
  | cons e rest ih =>
    refine ih (plainFiles_after h fun p content he => ?_) fun p content hmem => ?_
    · exact hplain p content (he ▸ List.mem_cons_self)
    · exact hplain p content (List.mem_cons_of_mem _ hmem)

end World

namespace Ksy

/-! ## The imports of a document -/

/-- The imports of a document, with the paths that they lead to. -/
def includesOf (t : FileTree) (d : Document) : List Include :=
  if d.isKsy then
    (d.walk.filter Located.isImport).map fun l =>
      ⟨importPath t l.node.text d.directory?, l.node.text, l.node.range⟩
  else []

lemma run_includes (s : Session) (t : FileTree) (d : Document) :
    ∃ log, s.run t (includes d) = (.ok (includesOf t d), { s with log }) := by
  unfold includes includesOf
  by_cases hksy : d.isKsy
  · simp only [hksy, Bool.not_true, Bool.false_eq_true, if_false, if_true]
    generalize d.walk.filter Located.isImport = ls
    induction ls generalizing s with
    | nil => exact ⟨s.log, rfl⟩
    | cons l rest ih =>
      obtain ⟨log, hpath⟩ := run_computeImportPath s t l.node.text d
      obtain ⟨log', hrest⟩ := ih { s with log }
      refine ⟨log', ?_⟩
      rw [List.mapM_cons, Session.run_bind, Session.run_bind, hpath]
      simp only [Session.run_pure]
      rw [Session.run_bind, hrest]
      rfl
  · simp only [hksy, Bool.not_false, if_true]
    exact ⟨s.log, rfl⟩

/-- The document that an import leads to is the answer of the store, if there is a file or a
text. -/
lemma importedDocument_eq_answer (t : FileTree) (s : Session) (d : Document) (l : Located) :
    importedDocument t s d l =
      if (s.store.findFile t (Path.ofString (importPath t l.node.text d.directory?))
          "").1.isSome then
        s.store.answer t (Path.ofString (importPath t l.node.text d.directory?))
      else .ok none := by
  rw [importedDocument_eq, importAnswer]
  simp only [DocumentStore.findFile_isSome_iff]
  cases hfound : (s.store.findFile t (Path.ofString (importPath t l.node.text d.directory?))
      (Text.quote (importPath t l.node.text d.directory?))).1 with
  | some q =>
    have hsome := (DocumentStore.findFile_isSome_iff _).mp (Option.isSome_of_eq_some hfound)
    rw [if_pos hsome]
    rfl
  | none =>
    rw [if_neg fun hsome => ?_]
    · rfl
    · have hfound' := (DocumentStore.findFile_isSome_iff
        (Text.quote (importPath t l.node.text d.directory?))).mpr hsome
      simp [hfound] at hfound'

/-! ## Where imports lead -/

section Plain

variable {t : FileTree} {s : Session} {d : Document} {l : Located}

lemma null_notMem_withExtension {text : String} (h : '\x00' ∉ text.toList) :
    '\x00' ∉ (withExtension text).toList := by
  unfold withExtension
  split_ifs
  · exact h
  · rw [String.toList_append, List.mem_append]
    rintro (hmem | hmem)
    · exact h hmem
    · exact absurd hmem (by decide)

lemma hasNull_ofString {text : String} (h : '\x00' ∉ text.toList) :
    FileTree.hasNull (Path.ofString text) = false := by
  rw [FileTree.hasNull_eq_false_iff]
  intro part hpart hmem
  simp only [Path.ofString, Path.components, List.mem_filter, List.mem_map] at hpart
  obtain ⟨⟨chars, hchars, rfl⟩, -⟩ := hpart
  rw [String.toList_ofList] at hmem
  exact h (Text.mem_of_mem_splitOnChar hchars hmem).1

lemma hasNull_parent {p : Path} (h : FileTree.hasNull p = false) :
    FileTree.hasNull p.parent = false := by
  rw [FileTree.hasNull_eq_false_iff] at h ⊢
  exact fun part hpart => h part ((List.dropLast_sublist p.parts).subset hpart)

/-- The path of an import in a plain file has no dots and does not start with two slashes.  One with
a NUL character is only brought into normal form, so that may not start with them itself. -/
lemma form_importPath (hfree : t.LinkFree) (hcwd : t.PlainCwd) {file : Path}
    (hfile : d.file? = some file) (hplain : FileTree.Plain file) {text : String}
    (hnull : '\x00' ∈ text.toList → (Path.ofString (withExtension text)).root ≠ .doubleSlash) :
    (Path.ofString (importPath t text d.directory?)).Written ∧
      (Path.ofString (importPath t text d.directory?)).root ≠ .doubleSlash ∧
      ".." ∉ (Path.ofString (importPath t text d.directory?)).parts := by
  simp only [Document.directory?, hfile, Option.map_some, importPath, importPathNote]
  split_ifs with hdrive
  · -- a path with a drive is a single component
    simp only [isAbsoluteText, Bool.and_eq_true, Bool.not_eq_true', Bool.or_eq_true] at hdrive
    have habs : (DrivePath.ofString (withExtension text)).isAbsolute := by
      rcases hdrive with ⟨habs | habs, hrel⟩
      · simp [habs] at hrel
      · exact habs
    obtain ⟨hcomp, hdots⟩ := DrivePath.isComponent_toString habs
    refine ⟨Path.written_ofString _, ?_, ?_⟩
    · simp [Path.ofString_of_isComponent hcomp]
    · simpa [Path.ofString_of_isComponent hcomp] using hdots.symm
  · have hwritten : (file.parent.join (Path.ofString (withExtension text))).Written :=
      hplain.written.parent.join (Path.written_ofString _)
    have hroot : FileTree.hasNull (file.parent.join (Path.ofString (withExtension text))) →
        (file.parent.join (Path.ofString (withExtension text))).root ≠ .doubleSlash := by
      intro hfull
      have hparent : file.parent.root ≠ .doubleSlash := hplain.root
      refine Path.join_root_ne_doubleSlash hparent (hnull ?_)
      by_contra hmem
      rw [FileTree.hasNull_join (hasNull_parent hplain.null)
        (hasNull_ofString (null_notMem_withExtension hmem))] at hfull
      cases hfull
    have hform := canonicalOrNormal_eq_slash hfree hcwd hwritten hroot
    simp only [Option.getD_some, hform]
    generalize file.parent.join (Path.ofString (withExtension text)) = p at hwritten
    have hkey : (Path.mk .slash (t.key p).parts).Written := hcwd.written.absolute hwritten
    rw [Path.ofString_toString hkey]
    exact ⟨hkey, by simp, Path.dots_notMem_dropDots (by simp)⟩

/-- A document exists under a canonical path: the store finds something there and gives it. -/
structure IsAt (t : FileTree) (s : DocumentStore) (k : Path) (d : Document) : Prop where
  written : k.Written
  canonical : t.indexKey? k = some k
  found : (s.findFile t k "").1.isSome
  given : s.answer t k = .ok (some d)

variable {k : Path}

lemma IsAt.unique {d' : Document} (h : IsAt t s.store k d) (h' : IsAt t s.store k d') : d = d' := by
  simpa using h.given.symm.trans h'.given

/-- The index knows no path with a NUL character. -/
lemma hasNull_of_indexKey? {p : Path} (h : t.indexKey? p = some k) :
    FileTree.hasNull p = false := by
  by_contra hnull
  rw [Bool.not_eq_false] at hnull
  simp [FileTree.indexKey?, FileTree.canonical, hnull, Except.toOption] at h

/-- A canonical path is plain, and is its own key. -/
lemma plain_of_canonical (hfree : t.LinkFree) (hcwd : t.PlainCwd) (hk : k.Written)
    (h : t.indexKey? k = some k) : FileTree.Plain k ∧ t.key k = k := by
  have hnull := hasNull_of_indexKey? h
  rw [hfree.indexKey?_eq hcwd hk hnull, Option.some.injEq] at h
  have hroot : k.root ≠ .doubleSlash := by
    rw [← h]
    simp
  refine ⟨⟨hk, hroot, hnull⟩, ?_⟩
  rw [← FileTree.key_root hcwd hroot] at h
  exact h

/-- A document that exists under a path has that path as its key. -/
lemma IsAt.file? (hfree : t.LinkFree) (hcwd : t.PlainCwd) (hs : s.store.PlainFiles t)
    (h : IsAt t s.store k d) :
    ∃ file, d.file? = some file ∧ FileTree.Plain file ∧ t.indexKey? file = some k ∧
      documentKey t d = some k := by
  obtain ⟨hplain, hkey⟩ := plain_of_canonical hfree hcwd h.written h.canonical
  obtain ⟨file, hfile, hp, hfkey⟩ := hs.file?_of_answer hcwd hplain h.given
  refine ⟨file, hfile, hp, ?_, ?_⟩
  · rw [hfree.indexKey?_of_plain hcwd hp, hfkey, hkey]
  · simp [documentKey, hfile, hfree.documentKey_of_plain hcwd hp, hfkey, hkey]

/-- Nothing is found under a path with a NUL character: no text is open under it. -/
lemma hasNull_of_found (hcwd : t.PlainCwd) (hs : s.store.PlainFiles t) {p : Path}
    (hdots : ".." ∉ p.parts) (h : (s.store.findFile t p "").1.isSome) :
    FileTree.hasNull p = false := by
  rw [DocumentStore.findFile_isSome_iff] at h
  rcases h with ho | hfile
  · obtain ⟨stored, ho⟩ := Option.isSome_iff_exists.mp ho
    obtain ⟨file, -, hplain, hkey⟩ := hs.overlays _ (Keyed.mem_of_lookup ho)
    have hnull := FileTree.hasNull_eq_false_iff.mp (hplain.key hcwd).null
    rw [hkey, FileTree.key_of_dots_notMem hcwd hdots] at hnull
    -- the components of the path are the last ones of its absolute form
    rw [FileTree.hasNull_eq_false_iff]
    refine fun part hpart => hnull part ?_
    simp only [FileTree.fromRoot, Path.join]
    split_ifs
    · exact hpart
    · exact List.mem_append_right _ hpart
  · exact (FileTree.isFile_eq_ok_true_iff.mp hfile).1

section Leads

variable (hfree : t.LinkFree) (hcwd : t.PlainCwd) (hs : s.store.PlainFiles t) {file : Path}
  (hfile : d.file? = some file) (hplain : FileTree.Plain file)
  (hnull : '\x00' ∈ l.node.text.toList →
    (Path.ofString (withExtension l.node.text)).root ≠ .doubleSlash)

include hfree hcwd hfile hplain hnull

include hs in
/-- An import that leads to a document leads to one that exists under the canonical form of the path
of the import. -/
lemma isAt_of_importedDocument {target : Document}
    (h : importedDocument t s d l = .ok (some target)) :
    ∃ k, t.indexKey? (Path.ofString (importPath t l.node.text d.directory?)) = some k ∧
      IsAt t s.store k target := by
  obtain ⟨hwritten, hroot, hdots⟩ := form_importPath hfree hcwd hfile hplain hnull
  rw [importedDocument_eq_answer] at h
  generalize Path.ofString (importPath t l.node.text d.directory?) = p at hwritten hroot hdots h ⊢
  split_ifs at h with hfound
  · have hp : FileTree.Plain p := ⟨hwritten, hroot, hasNull_of_found hcwd hs hdots hfound⟩
    refine ⟨t.key p, hfree.indexKey?_of_plain hcwd hp, ?_⟩
    have hkey := hp.key hcwd
    refine ⟨hkey.written, ?_, ?_, ?_⟩
    · rw [hfree.indexKey?_of_plain hcwd hkey, FileTree.key_key hcwd]
    · rw [DocumentStore.findFile_isSome_iff] at hfound ⊢
      rw [DocumentStore.hasOverlay_key hcwd]
      by_cases ho : s.store.hasOverlay t p
      · exact .inl ho
      · refine .inr ?_
        -- what the store has read is the file that was found
        obtain ⟨r, hr⟩ := DocumentStore.find_of_answer (by simpa using ho) h
        have hr' := FileTree.find_of_find_key hcwd hdots hr
        rw [FileTree.isFile_eq_ok_true_iff]
        obtain ⟨-, way, e, hfind, he⟩ := FileTree.isFile_eq_ok_true_iff.mp (hfound.resolve_left ho)
        obtain rfl : r = (way, e) := by simpa [hr'] using hfind
        exact ⟨hkey.null, way, e, hr, he⟩
    · rw [DocumentStore.answer_key hcwd, h]
  · simp at h

/-- An import leads to the document that exists under the canonical form of its path. -/
lemma importedDocument_of_isAt {target : Document}
    (hpath : t.indexKey? (Path.ofString (importPath t l.node.text d.directory?)) = some k)
    (h : IsAt t s.store k target) : importedDocument t s d l = .ok (some target) := by
  obtain ⟨hwritten, hroot, hdots⟩ := form_importPath hfree hcwd hfile hplain hnull
  rw [importedDocument_eq_answer]
  generalize Path.ofString (importPath t l.node.text d.directory?) = p
    at hwritten hroot hdots hpath ⊢
  have hp : FileTree.Plain p := ⟨hwritten, hroot, hasNull_of_indexKey? hpath⟩
  obtain rfl : t.key p = k := by simpa [hfree.indexKey?_of_plain hcwd hp] using hpath
  have hfound : (s.store.findFile t p "").1.isSome := by
    have hkey := h.found
    rw [DocumentStore.findFile_isSome_iff] at hkey ⊢
    rw [DocumentStore.hasOverlay_key hcwd] at hkey
    rcases hkey with ho | hfile
    · exact .inl ho
    · obtain ⟨-, way, e, hfind, he⟩ := FileTree.isFile_eq_ok_true_iff.mp hfile
      exact .inr (FileTree.isFile_eq_ok_true_iff.mpr
        ⟨hp.null, way, e, FileTree.find_of_find_key hcwd hdots hfind, he⟩)
  rw [if_pos hfound, ← DocumentStore.answer_key hcwd, h.given]

end Leads

end Plain

end Ksy

end KsyTools
