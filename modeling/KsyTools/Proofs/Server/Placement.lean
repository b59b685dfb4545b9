/-
# Servers with plain paths

A client that names files by plain paths only never brings another path into the server: the texts
that it has taken over, the documents that it keeps and the files of its index all have plain paths.
So the URI that is made for a dependent leads back to it, and a check takes over the text of a
buffer for that dependent and for no other file.
-/
import KsyTools.Proofs.Files.Orderly
import KsyTools.Proofs.Server.Events
import KsyTools.Proofs.Server.FileUris

namespace KsyTools

open FileTree (Plain Orderly)

/-- A URI that leads to a plain path, if it leads anywhere. -/
def FileUri.Plain (uri : String) : Prop :=
  ∀ path, toPath uri = .ok path → FileTree.Plain (Path.ofString path)

/-- A plain path that is the key of its file. -/
structure FileTree.IsKey (t : FileTree) (p : Path) : Prop where
  plain : Plain p
  key_eq : t.key p = p

namespace FileTree.IsKey

variable {t : FileTree} {p : Path} {uri : String}

lemma key (hcwd : t.PlainCwd) (plain : Plain p) : t.IsKey (t.key p) :=
  ⟨plain.key hcwd, key_key hcwd p⟩

lemma exists_uri (h : t.IsKey p) (hcwd : t.PlainCwd) : ∃ uri, FileUri.ofPath p = .ok uri := by
  have root := key_root hcwd h.plain.root
  rw [h.key_eq] at root
  have absolute : p.isAbsolute := by simp [Path.isAbsolute, root]
  exact ⟨_, by rw [FileUri.ofPath, if_pos absolute]⟩

end FileTree.IsKey

/-- The URI that is made for a plain path leads back to it. -/
lemma FileTree.Plain.toPath_of_ofPath {p : Path} {uri : String} (h : Plain p)
    (huri : FileUri.ofPath p = .ok uri) :
    FileUri.toPath uri = .ok p.toString ∧ Path.ofString p.toString = p :=
  ⟨FileUri.toPath_of_written h.written huri, Path.ofString_toString h.written⟩

namespace Server

variable {cwd p : Path} {t t' : FileTree} {s s' s'' : Server} {d : Document} {uri : String}

/-- All files that a server knows have plain paths. -/
structure Placed (t : FileTree) (s : Server) : Prop where
  files : s.session.store.PlainFiles t
  keys : ∀ e ∈ s.index.entries, t.IsKey e.1

namespace Placed

/-- The same server in another tree of a run. -/
lemma inTree (h : s.Placed t) (orderly : t.Orderly cwd) (orderly' : t'.Orderly cwd) :
    s.Placed t' := by
  have same := orderly.key_eq orderly'
  refine ⟨⟨fun o ho => ?_, h.files.cache⟩, fun e he => ?_⟩
  · obtain ⟨file, hfile, plain, hkey⟩ := h.files.overlays o ho
    exact ⟨file, hfile, plain, (same file).trans hkey⟩
  · exact ⟨(h.keys e he).plain, (same e.1).trans (h.keys e he).key_eq⟩

/-- Every step keeps a server placed, as long as the paths that it is told are plain. -/
lemma stable (orderly : t.Orderly cwd) : Stable t Plain (Placed t) where
  stored {s e session} hs texts store := by
    have files := World.plainFiles_after (w := ⟨t, s.session.store⟩) hs.files texts
    rw [← store] at files
    refine ⟨?_, hs.keys⟩
    cases e with
    | change root now => exact ⟨files.overlays, files.cache⟩
    | _ => exact files
  told hs := ⟨hs.files, hs.keys⟩
  indexed {s p key includes} hs hp hkey := by
    refine ⟨hs.files, fun e he => ?_⟩
    rcases Keyed.mem_set.1 he with ⟨same, -⟩ | ⟨-, he⟩
    · obtain rfl : t.key p = key := by simpa [orderly.indexKey?_eq hp] using hkey
      rw [same]
      exact .key orderly.plainCwd hp
    · exact hs.keys e he
  forgotten hs := ⟨hs.files, fun e he => hs.keys e (Keyed.mem_erase.1 he).2⟩
  given {s p file d} hs hp answer hfile := by
    obtain ⟨file', hfile', plain, -⟩ := hs.files.file?_of_answer orderly.plainCwd hp answer
    obtain rfl : file' = file := Option.some.inj (hfile'.symm.trans hfile)
    exact plain
  known {s e uri} hs he huri path hpath := by
    have plain := (hs.keys e he).plain
    obtain ⟨back, read⟩ := plain.toPath_of_ofPath huri
    obtain rfl : path = e.1.toString := Except.ok.inj (hpath.symm.trans back)
    rwa [read]
  below hp hfiles hfile := orderly.plain_of_mem_descriptionsBelow hp hfiles hfile

/-- Over every run of events with plain paths a server stays placed. -/
lemma afterAll (h : s.Placed t) (orderly : t.Orderly cwd) {events : List (FileTree × Event)}
    (others : ∀ x ∈ events, x.1.Orderly cwd)
    (plain : ∀ x ∈ events, ∀ uri ∈ x.2.uris, FileUri.Plain uri) : (s.afterAll events).Placed t := by
  refine Stable.afterAll h (fun x hx => ?_) plain
  have same : Placed x.1 = Placed t := funext fun s =>
    propext ⟨(inTree · (others x hx) orderly), (inTree · orderly (others x hx))⟩
  exact same ▸ stable (others x hx)

lemma sending (h : s.Placed t) (ps : List Publication) : (s.sending ps).Placed t :=
  ⟨h.files, h.keys⟩

lemma removeBuffer (h : s.Placed t) (uri : String) : (s.removeBuffer uri).Placed t :=
  ⟨h.files, h.keys⟩

section Orderly

variable (h : s.Placed t) (orderly : t.Orderly cwd)

include h orderly

lemma holding (plain : Plain p) (text : String) : (s.holding t p text).Placed t := by
  refine (stable orderly).stored (e := .setOverlay (some p) text) h (fun q content same => ?_) rfl
  cases same
  exact plain

lemma dropping (p : Path) : (s.dropping t p).Placed t :=
  (stable orderly).stored (e := .removeOverlay p) h nofun rfl

lemma forgetting (p : Path) : (s.forgetting t p).Placed t := by
  unfold Server.forgetting
  split
  · exact (stable orderly).forgotten h
  · exact h

lemma indexing (plain : ∀ file, d.file? = some file → Plain file) : (s.indexing t d).Placed t := by
  unfold Server.indexing
  split
  next key hkey =>
    obtain ⟨file, hfile, hkey⟩ := Option.bind_eq_some_iff.1 hkey
    exact (stable orderly).indexed h (plain file hfile) hkey
  · exact h

/-- A document that is shown for a plain path knows its file, with the key of that path. -/
lemma file_of_shown (ready : s.Ready t) (plain : Plain p)
    (shown : s.session.shown t p = .ok (some d)) :
    ∃ file, d.file? = some file ∧ Plain file ∧ t.key file = t.key p :=
  h.files.file?_of_answer orderly.plainCwd plain
    ((Session.answer_eq_shown ready.truthful p).trans shown)

lemma indexing_of_shown (ready : s.Ready t) (plain : Plain p)
    (shown : s.session.shown t p = .ok (some d)) : (s.indexing t d).Placed t := by
  obtain ⟨file, hfile, plainFile, -⟩ := h.file_of_shown orderly ready plain shown
  refine h.indexing orderly fun file' hfile' => ?_
  rwa [← Option.some.inj (hfile.symm.trans hfile')]

lemma followed (ready : s.Ready t) (plain : Plain p) {d? : Option Document}
    (shown : s.session.shown t p = .ok d?) : (Serve.followed t s p d?).Placed t := by
  cases d? with
  | some d => exact h.indexing_of_shown orderly ready plain shown
  | none => exact h.forgetting orderly p

lemma processed {text : String} (plain : Plain p)
    (parse : Document.parse text (some p) none = .ok d) :
    (s.processed t uri p text d).Placed t := by
  refine ((h.holding orderly plain text).indexing orderly fun file hfile => ?_).sending _
  rwa [← Option.some.inj ((Document.parse_ok parse).2.symm.trans hfile)]

lemma released (ready : s.Ready t) (plain : Plain p) {d? : Option Document}
    (shown : (s.dropping t p).session.shown t p = .ok d?) : (s.released t uri p d?).Placed t :=
  ((h.dropping orderly p).followed orderly (ready.dropping p) plain shown).sending _

lemma noticed (ready : s.Ready t) (plain : Plain p) {change : FileChange} {d? : Option Document}
    (shown : change = .deleted ∨ s.session.shown t p = .ok d?) :
    (Serve.noticed t s p change d?).Placed t := by
  cases change with
  | deleted => exact h.forgetting orderly p
  | created | changed =>
    cases d? with
    | some d => exact h.indexing_of_shown orderly ready plain (shown.resolve_left nofun)
    | none => exact h

end Orderly

end Placed

lemma placed_start (t : FileTree) (cacheEnabled : Bool) (maxCacheSize : Int)
    (grammarFile? : Option Path) :
    (start (.start cacheEnabled maxCacheSize grammarFile?)).Placed t where
  files := ⟨fun _ ho => absurd ho List.not_mem_nil, fun _ he => absurd he List.not_mem_nil⟩
  keys _ he := absurd he List.not_mem_nil

/-! ## Checks of dependents -/

/-- If a file has a buffer under its own URI, the store holds the document of that. -/
def MirroredAt (t : FileTree) (s : Server) (p : Path) : Prop :=
  ∀ uri, FileUri.ofPath p = .ok uri → s.Mirrored t uri

/-- Checks of some files have led from `s` to `s'`.  They have taken over the texts of buffers for
these files only, so nothing else is shown for a file whose buffer was mirrored before. -/
structure Checked (t : FileTree) (files : List Path) (s s' : Server) : Prop where
  ready : s'.Ready t
  index : s'.index = s.index
  buffers : s'.buffers = s.buffers
  shown : ∀ p, (t.key p ∈ files → s.MirroredAt t (t.key p)) →
    s'.session.shown t p = s.session.shown t p
  mirrored : ∀ key, t.IsKey key → s.MirroredAt t key → s'.MirroredAt t key
  readable : ∀ p, (∃ d?, s.session.shown t p = .ok d?) → ∃ d?, s'.session.shown t p = .ok d?

namespace Checked

variable {files others : List Path}

lemma refl (ready : s.Ready t) : Checked t files s s :=
  ⟨ready, rfl, rfl, fun _ _ => rfl, fun _ _ => id, fun _ => id⟩

lemma trans (h : Checked t files s s') (h' : Checked t others s' s'')
    (keys : ∀ k ∈ others, t.IsKey k) : Checked t (files ++ others) s s'' where
  ready := h'.ready
  index := h'.index.trans h.index
  buffers := h'.buffers.trans h.buffers
  shown p mirrored := by
    rw [h'.shown p fun mem => ?_, h.shown p fun mem => mirrored (List.mem_append_left _ mem)]
    exact h.mirrored _ (keys _ mem) (mirrored (List.mem_append_right _ mem))
  mirrored key own mirrored := h'.mirrored key own (h.mirrored key own mirrored)
  readable p readable := h'.readable p (h.readable p readable)

lemma congr (h : Checked t files s s') (alike : s'.Alike t s'') : Checked t files s s'' where
  ready := h.ready.congr alike
  index := alike.index.trans h.index
  buffers := alike.buffers.trans h.buffers
  shown p mirrored := (alike.session.shown p).trans (h.shown p mirrored)
  mirrored key own mirrored uri huri := (h.mirrored key own mirrored uri huri).of_alike alike
  readable p readable := by
    rw [alike.session.shown]
    exact h.readable p readable

/-- The text of its buffer is taken over for a file. -/
lemma holding {text : String} (ready : s.Ready t) (key : t.IsKey p)
    (huri : FileUri.ofPath p = .ok uri) (hbuffer : s.buffer? uri = some text)
    (ksy : Ksy.isFile p) (parse : Document.parse text (some p) none = .ok d)
    (ps : List Publication) : Checked t [p] s ((s.holding t p text).sending ps) := by
  obtain ⟨back, read⟩ := key.plain.toPath_of_ofPath huri
  have overlay (q : Path) := overlay?_holding (s := s) (t := t) parse q
  rw [key.key_eq] at overlay
  refine ⟨(ready.holding p text).sending ps, rfl, rfl, fun q mirrored => ?_,
    fun q own mirrored uri' huri' text' path hbuffer' hpath' ksy' => ?_, fun q readable => ?_⟩
  · rw [session_sending, Session.shown, overlay, Session.shown]
    split_ifs with same
    · obtain ⟨d', parse', held⟩ := mirrored (by rw [same]; exact List.mem_cons_self) uri
        (by rw [same]; exact huri) text _ hbuffer back (by rwa [read])
      rw [read] at parse' held
      rw [key.key_eq] at held
      rw [same, held, Except.ok.inj (parse.symm.trans parse')]
    · rfl
  · obtain ⟨back', read'⟩ := own.plain.toPath_of_ofPath huri'
    obtain rfl : path = q.toString := Except.ok.inj (hpath'.symm.trans back')
    obtain ⟨d', parse', held⟩ := mirrored uri' huri' text' _ hbuffer' hpath' ksy'
    rw [read'] at parse' held ⊢
    rw [own.key_eq] at held ⊢
    refine ⟨d', parse', ?_⟩
    rw [session_sending, overlay]
    split_ifs with same
    · subst same
      obtain rfl : uri' = uri := Except.ok.inj (huri'.symm.trans huri)
      obtain rfl : text' = text := Option.some.inj (hbuffer'.symm.trans hbuffer)
      rw [Except.ok.inj (parse.symm.trans parse')]
    · exact held
  · rw [session_sending, Session.shown, overlay]
    split_ifs with same
    · exact ⟨_, rfl⟩
    · exact readable

end Checked

end Server

namespace Serve

open Server (Checked)

variable {cwd p : Path} {t : FileTree} {s : Server}

/-- A check of a file does not fail, and it takes over a text for this file only. -/
lemma exists_does_recheck (ready : s.Ready t) (hcwd : t.PlainCwd) (key : t.IsKey p) :
    ∃ s', Does t (recheck p) s (.ok ()) s' ∧ Checked t [p] s s' := by
  obtain ⟨uri, huri⟩ := key.exists_uri hcwd
  obtain ⟨back, read⟩ := key.plain.toPath_of_ofPath huri
  cases hbuffer : s.buffer? uri with
  | none => exact ⟨s, does_recheck_of_closed huri hbuffer, .refl ready⟩
  | some text =>
    by_cases ksy : Ksy.isFile p
    · cases parse : Document.parse text (some p) none with
      | ok d =>
        refine ⟨_, does_recheck_of_open huri hbuffer (does_process ready.truthful ready.connected
          back (by rwa [read]) (by rwa [read]) false), ?_⟩
        rw [read]
        exact .holding ready key huri hbuffer ksy parse _
      | error fault =>
        have refused : Does t (process uri text false) s (.error (.scalar fault)) s :=
          does_process_error back (by rwa [read]) (by rwa [read]) false
        exact ⟨s, does_recheck_of_open huri hbuffer refused, .refl ready⟩
    · exact ⟨s, does_recheck_of_open huri hbuffer
        (does_process_of_not_ksy back (by rwa [read]) false), .refl ready⟩

lemma exists_does_forM_recheck {files : List Path} (ready : s.Ready t) (hcwd : t.PlainCwd)
    (keys : ∀ k ∈ files, t.IsKey k) :
    ∃ s', Does t (files.forM recheck) s (.ok ()) s' ∧ Checked t files s s' := by
  induction files generalizing s with
  | nil => exact ⟨s, does_pure (), .refl ready⟩
  | cons p rest ih =>
    obtain ⟨s₁, first, checked⟩ := exists_does_recheck ready hcwd (keys p List.mem_cons_self)
    have restKeys (k : Path) (hk : k ∈ rest) := keys k (List.mem_cons_of_mem p hk)
    obtain ⟨s₂, others, checked'⟩ := ih checked.ready restKeys
    exact ⟨s₂, first.bind others, checked.trans checked' restKeys⟩

/-- The dependents of a file are checked without a failure, and the file itself is not. -/
lemma exists_does_recheckDependents {uri path : String} (ready : s.Ready t)
    (orderly : t.Orderly cwd) (placed : s.Placed t) (hpath : FileUri.toPath uri = .ok path) :
    ∃ s', Does t (recheckDependents uri) s (.ok ()) s' ∧
      Checked t (s.index.dependents t (Path.ofString path)) s s' := by
  have keys (k : Path) (hk : k ∈ s.index.dependents t (Path.ofString path)) : t.IsKey k := by
    obtain ⟨e, he, rfl⟩ := ImportIndex.exists_entry_of_mem_dependents hk
    exact placed.keys e he
  obtain ⟨s', does, checked⟩ := exists_does_forM_recheck ready orderly.plainCwd keys
  refine ⟨s', (does_pathOf hpath).bind (Does.of_get fun x hx => Does.of_read ?_), checked⟩
  rwa [hx.index]

end Serve

end KsyTools
