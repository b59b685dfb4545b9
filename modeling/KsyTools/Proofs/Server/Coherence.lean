/-
# The index and the open descriptions

Over every run of events in orderly file trees the store holds the documents of the open
descriptions and nothing else, and whatever the index says about one of them are its imports.
-/
import KsyTools.Proofs.Server.Placement

namespace KsyTools

open FileTree (Plain Orderly TellApart)
open Ksy (includesOf)

namespace Server

/-! ## The invariant -/

/-- A server whose index and store go together.  The store holds the documents of the open
descriptions, and what the index says about them is right in all trees of a run. -/
structure Coherent (trees : List FileTree) (t : FileTree) (s : Server) : Prop where
  mirrored : ∀ uri, s.Mirrored t uri
  distinct : ∀ uri other key, (s.buffer? uri).isSome → (s.buffer? other).isSome →
    overlayKey? t.cwd uri = some key → overlayKey? t.cwd other = some key → uri = other
  indexed : ∀ key d includes,
    (s.session.store.overlay? key).map StoredDocument.document = some d →
    s.index.get? key = some includes → ∀ t' ∈ trees, includes = includesOf t' d

variable {trees : List FileTree} {cwd p : Path} {t t' : FileTree} {s s' b : Server} {uri : String}
  {d : Document}

namespace Coherent

lemma congr (h : s.Coherent trees t) (alike : s.Alike t s') : s'.Coherent trees t where
  mirrored uri := (h.mirrored uri).of_alike alike
  distinct uri other key isOpen otherOpen := by
    rw [alike.buffer?] at isOpen otherOpen
    exact h.distinct uri other key isOpen otherOpen
  indexed key d includes held known := by
    rw [alike.index] at known
    exact h.indexed key d includes ((alike.session.overlays key).symm.trans held) known

/-- The same server in another tree of the run. -/
lemma inTree (h : s.Coherent trees t) (orderly : t.Orderly cwd) (orderly' : t'.Orderly cwd) :
    s.Coherent trees t' where
  mirrored uri text path hbuffer hpath ksy := by
    obtain ⟨d, parse, held⟩ := h.mirrored uri text path hbuffer hpath ksy
    rw [← orderly.key_eq orderly'] at held
    exact ⟨d, parse, held⟩
  distinct := by
    rw [orderly'.cwd_eq, ← orderly.cwd_eq]
    exact h.distinct
  indexed := h.indexed

/-- No other open description has the key of an open one. -/
lemma alone (h : s.Coherent trees t) (isOpen : (s.buffer? uri).isSome) : s.Alone t uri :=
  fun other key ne otherOpen hother hkey =>
    ne (h.distinct other uri key otherOpen isOpen hother hkey)

end Coherent

/-! ## Changes of the index -/

lemma get?_indexing (orderly : t.Orderly cwd) {file : Path} (hfile : d.file? = some file)
    (plain : Plain file) (key : Path) :
    (s.indexing t d).index.get? key =
      if key = t.key file then some (includesOf t d) else s.index.get? key := by
  rw [indexing, hfile, Option.bind_some, orderly.indexKey?_eq plain]
  split_ifs with same
  · rw [same]
    exact Keyed.lookup_set_self
  · exact Keyed.lookup_set_of_ne same

lemma get?_forgetting (orderly : t.Orderly cwd) (plain : Plain p) (key : Path) :
    (s.forgetting t p).index.get? key = if key = t.key p then none else s.index.get? key := by
  rw [forgetting, orderly.indexKey?_eq plain]
  split_ifs with same
  · rw [same]
    exact Keyed.lookup_erase_self
  · exact Keyed.lookup_erase_of_ne same

namespace Coherent

/-- Nothing but the index changes, and what it says about open descriptions stays right. -/
lemma reindexed (h : s.Coherent trees t) (session : s'.session = s.session)
    (buffers : s'.buffers = s.buffers)
    (indexed : ∀ key d includes,
      (s.session.store.overlay? key).map StoredDocument.document = some d →
      s'.index.get? key = some includes → ∀ t' ∈ trees, includes = includesOf t' d) :
    s'.Coherent trees t where
  mirrored uri := (h.mirrored uri).congr session buffers
  distinct uri other key := by
    simpa only [buffer?_congr buffers] using h.distinct uri other key
  indexed := by
    rw [session]
    exact indexed

lemma sending (h : s.Coherent trees t) (ps : List Publication) :
    (s.sending ps).Coherent trees t :=
  h.reindexed rfl rfl h.indexed

lemma forgetting (h : s.Coherent trees t) (orderly : t.Orderly cwd) (plain : Plain p) :
    (s.forgetting t p).Coherent trees t := by
  refine h.reindexed (session_forgetting ..) (buffers_forgetting ..) ?_
  intro key d includes held known
  rw [get?_forgetting orderly plain] at known
  split at known
  · cases known
  · exact h.indexed key d includes held known

section Shown

variable (h : s.Coherent trees t) (orderly : ∀ t' ∈ trees, t'.Orderly cwd) (ht : t ∈ trees)
  (ready : s.Ready t) (placed : s.Placed t) (plain : Plain p)

include h orderly ht ready placed plain

lemma indexing (shown : s.session.shown t p = .ok (some d)) :
    (s.indexing t d).Coherent trees t := by
  obtain ⟨file, hfile, plainFile, hkey⟩ := placed.file_of_shown (orderly t ht) ready plain shown
  refine h.reindexed (session_indexing ..) (buffers_indexing ..) ?_
  intro key d' includes held known
  rw [get?_indexing (orderly t ht) hfile plainFile, hkey] at known
  split_ifs at known with same
  · -- the document that is shown is the one that is held
    subst same
    have shown' : s.session.shown t p = .ok (some d') := by rw [Session.shown, held]
    obtain rfl : d = d' := Option.some.inj (Except.ok.inj (shown.symm.trans shown'))
    obtain rfl : includesOf t d = includes := Option.some.inj known
    intro t' ht'
    exact (orderly t' ht').includesOf_eq (orderly t ht) hfile plainFile.written
  · exact h.indexed key d' includes held known

lemma followed {d? : Option Document} (shown : s.session.shown t p = .ok d?) :
    (Serve.followed t s p d?).Coherent trees t := by
  cases d? with
  | some d => exact h.indexing orderly ht ready placed plain shown
  | none => exact h.forgetting (orderly t ht) plain

lemma noticed {change : FileChange} {d? : Option Document}
    (shown : change = .deleted ∨ s.session.shown t p = .ok d?) :
    (Serve.noticed t s p change d?).Coherent trees t := by
  cases change with
  | deleted => exact h.forgetting (orderly t ht) plain
  | created | changed =>
    cases d? with
    | some d => exact h.indexing orderly ht ready placed plain (shown.resolve_left nofun)
    | none => exact h

end Shown

/-! ## Changes of the buffers -/

/-- A buffer changes that is not that of a description. -/
lemma buffered (h : s.Coherent trees t) (session : b.session = s.session)
    (index : b.index = s.index) (others : ∀ u, u ≠ uri → b.buffer? u = s.buffer? u)
    (noKey : overlayKey? t.cwd uri = none) : b.Coherent trees t := by
  have old {u text : String} {key : Path} (hkey : overlayKey? t.cwd u = some key)
      (hbuffer : b.buffer? u = some text) : s.buffer? u = some text := by
    have ne : u ≠ uri := by
      rintro rfl
      rw [noKey] at hkey
      cases hkey
    rw [← others u ne, hbuffer]
  constructor
  · intro u text path hbuffer hpath ksy
    rw [session]
    exact h.mirrored u text path (old (overlayKey?_of_ksy hpath ksy) hbuffer) hpath ksy
  · intro u other key isOpen otherOpen hkey hother
    obtain ⟨text, hbuffer⟩ := Option.isSome_iff_exists.1 isOpen
    obtain ⟨text', hbuffer'⟩ := Option.isSome_iff_exists.1 otherOpen
    refine h.distinct u other key ?_ ?_ hkey hother
    · rw [old hkey hbuffer]
      rfl
    · rw [old hother hbuffer']
      rfl
  · rw [session, index]
    exact h.indexed

/-- The new text of a description is put into the buffers, the store and the index. -/
lemma taking {path text : String} (h : s.Coherent trees t)
    (orderly : ∀ t' ∈ trees, t'.Orderly cwd) (ht : t ∈ trees) (session : b.session = s.session)
    (index : b.index = s.index) (self : b.buffer? uri = some text)
    (others : ∀ u, u ≠ uri → b.buffer? u = s.buffer? u) (alone : s.Alone t uri)
    (hpath : FileUri.toPath uri = .ok path) (ksy : Ksy.isFile (Path.ofString path))
    (plain : Plain (Path.ofString path))
    (parse : Document.parse text (some (Path.ofString path)) none = .ok d) :
    ((b.holding t (Path.ofString path) text).indexing t d).Coherent trees t := by
  have hfile : d.file? = some (Path.ofString path) := (Document.parse_ok parse).2
  have bufferAlone : b.Alone t uri := by
    intro other key ne isOpen
    rw [others other ne] at isOpen
    exact alone other key ne isOpen
  have overlay (key : Path) := overlay?_holding (s := b) (t := t) parse key
  rw [session] at overlay
  have buffers : ((b.holding t (Path.ofString path) text).indexing t d).buffers = b.buffers :=
    buffers_indexing ..
  constructor
  · intro u
    refine Mirrored.congr ?_ (session_indexing ..) (buffers_indexing ..)
    refine mirrored_holding (fun ne text' other hbuffer => ?_) bufferAlone hpath ksy parse
      fun _ held hheld => Option.some.inj (hheld.symm.trans self)
    rw [others u ne] at hbuffer
    rw [session]
    exact h.mirrored u text' other hbuffer
  · intro u other key isOpen otherOpen hu hother
    rw [buffer?_congr buffers] at isOpen otherOpen
    by_cases first : u = uri
    · by_cases second : other = uri
      · rw [first, second]
      · exact absurd (first ▸ hu) (bufferAlone other key second otherOpen hother)
    · by_cases second : other = uri
      · exact absurd (second ▸ hother) (bufferAlone u key first isOpen hu)
      · rw [others u first] at isOpen
        rw [others other second] at otherOpen
        exact h.distinct u other key isOpen otherOpen hu hother
  · intro key d' includes held known
    rw [session_indexing, overlay] at held
    rw [get?_indexing (orderly t ht) hfile plain] at known
    split_ifs at held known with same
    · obtain rfl : d = d' := Option.some.inj held
      obtain rfl : includesOf t d = includes := Option.some.inj known
      intro t' ht'
      exact (orderly t' ht').includesOf_eq (orderly t ht) hfile plain.written
    · rw [index_holding, index] at known
      exact h.indexed key d' includes held known

/-- The text of a description is taken out of the buffers and the store. -/
lemma dropping {path : String} (h : s.Coherent trees t) (isOpen : (s.buffer? uri).isSome)
    (hpath : FileUri.toPath uri = .ok path) (ksy : Ksy.isFile (Path.ofString path)) :
    ((s.removeBuffer uri).dropping t (Path.ofString path)).Coherent trees t := by
  have still {u : String} (hu : ((s.removeBuffer uri).buffer? u).isSome) :
      (s.buffer? u).isSome := by
    obtain ⟨text, hbuffer⟩ := Option.isSome_iff_exists.1 hu
    rw [(buffer?_removeBuffer hbuffer).2]
    rfl
  have old {key : Path} {d : Document}
      (held :
        (((s.removeBuffer uri).dropping t (Path.ofString path)).session.store.overlay? key).map
        StoredDocument.document = some d) :
      (s.session.store.overlay? key).map StoredDocument.document = some d := by
    rw [overlay?_dropping] at held
    split at held
    · cases held
    · exact held
  constructor
  · exact fun u => mirrored_dropping (h.mirrored u) (h.alone isOpen) hpath ksy
  · exact fun u other key hu hother => h.distinct u other key (still hu) (still hother)
  · exact fun key d includes held => h.indexed key d includes (old held)

end Coherent

end Server

/-! ## What the parts of handlers preserve -/

/-- What a computation does is known, and it leaves a coherent server. -/
def Serve.Settles {α : Type} (trees : List FileTree) (t : FileTree) (w : Serve α) (s : Server) :
    Prop :=
  ∃ r s', Does t w s r s' ∧ s'.Coherent trees t

/-- A server that is healthy, that knows plain paths only, and that is coherent. -/
structure Server.Sound (trees : List FileTree) (t : FileTree) (s : Server) : Prop where
  healthy : s.Healthy trees
  placed : s.Placed t
  coherent : s.Coherent trees t

namespace Serve

open Server (Healthy Placed Coherent Sound)

variable {α β : Type} {trees : List FileTree} {cwd p : Path} {t : FileTree} {s : Server}
  {uri path : String}

/-- The check of dependents at the end of a handler sends diagnostics, and that is all. -/
lemma exists_does_checks (ready : s.Ready t) (coherent : s.Coherent trees t)
    (hpath : FileUri.toPath uri = .ok path) :
    ∃ ps, Does t (recheckDependents uri) s (.ok ()) (s.sending ps) ∧
      (s.sending ps).Coherent trees t :=
  ⟨_, does_checks ready coherent.mirrored hpath, coherent.sending _⟩

section Orderly

variable (orderly : ∀ t' ∈ trees, t'.Orderly cwd) (ht : t ∈ trees) (ready : s.Ready t)
  (coherent : s.Coherent trees t)

include orderly ht ready coherent

lemma settles_opened {text : String} (parses : Parses text) (alone : s.Alone t uri)
    (plain : FileUri.Plain uri) : Settles trees t (handle (.opened uri text)) s := by
  cases hpath : FileUri.toPath uri with
  | error fault => exact ⟨_, s, (does_pathOf_error hpath).bind_error, coherent⟩
  | ok path =>
    have others (u : String) (ne : u ≠ uri) := Server.buffer?_setBuffer_of_ne s text ne
    by_cases ksy : Ksy.isFile (Path.ofString path)
    · obtain ⟨d, parse⟩ := parse_ok_of_parses parses (some (Path.ofString path)) none
      have taken := coherent.taking (b := s.setBuffer uri text) orderly ht rfl rfl
        (Server.buffer?_setBuffer_self s uri text) others alone hpath ksy (plain path hpath) parse
      have process := does_processed (ready.setBuffer uri text) hpath ksy parse
      exact ⟨_, _, does_opened hpath process, taken.sending _⟩
    · have noKey : overlayKey? t.cwd uri = none := by simp [overlayKey?, hpath, ksy]
      exact ⟨_, _, does_opened hpath (does_process_of_not_ksy hpath ksy true),
        coherent.buffered rfl rfl others noKey⟩

lemma settles_edited {text : String} (parses : Parses text) (isOpen : (s.buffer? uri).isSome)
    (plain : FileUri.Plain uri) : Settles trees t (handle (.edited uri text)) s := by
  have others (u : String) (ne : u ≠ uri) := Server.buffer?_setBuffer_of_ne s text ne
  have unkeyed {r : Except Failure Unit} (noKey : overlayKey? t.cwd uri = none)
      (process : Does t (process uri text true) (s.setBuffer uri text) r (s.setBuffer uri text)) :
      Settles trees t (handle (.edited uri text)) s :=
    ⟨r, _, does_edited isOpen process, coherent.buffered rfl rfl others noKey⟩
  cases hpath : FileUri.toPath uri with
  | error fault =>
    exact unkeyed (by simp [overlayKey?, hpath]) (does_pathOf_error hpath).bind_error
  | ok path =>
    by_cases ksy : Ksy.isFile (Path.ofString path)
    · obtain ⟨d, parse⟩ := parse_ok_of_parses parses (some (Path.ofString path)) none
      have taken := coherent.taking (b := s.setBuffer uri text) orderly ht rfl rfl
        (Server.buffer?_setBuffer_self s uri text) others (coherent.alone isOpen) hpath ksy
        (plain path hpath) parse
      have process := does_processed (ready.setBuffer uri text) hpath ksy parse
      exact ⟨_, _, does_edited isOpen process, taken.sending _⟩
    · exact unkeyed (by simp [overlayKey?, hpath, ksy]) (does_process_of_not_ksy hpath ksy true)

lemma settles_saved {text? : Option String}
    (own : ∃ text, s.buffer? uri = some text ∧ (text? = none ∨ text? = some text))
    (plain : FileUri.Plain uri) : Settles trees t (handle (.saved uri text?)) s := by
  obtain ⟨text, hbuffer, own⟩ := own
  cases hpath : FileUri.toPath uri with
  | error fault => exact ⟨_, s, (does_pathOf_error hpath).bind_error.bind_error, coherent⟩
  | ok path =>
    obtain ⟨ps, rest, checked⟩ := exists_does_checks ready coherent hpath
    rcases own with rfl | rfl
    · exact ⟨_, _, does_saved hpath rest, checked⟩
    · by_cases ksy : Ksy.isFile (Path.ofString path)
      · obtain ⟨d, parse, -⟩ := coherent.mirrored uri text path hbuffer hpath ksy
        have taken := coherent.taking orderly ht rfl rfl hbuffer (fun _ _ => rfl)
          (coherent.alone (by rw [hbuffer]; rfl)) hpath ksy (plain path hpath) parse
        obtain ⟨ps, rest, checked⟩ :=
          exists_does_checks (ready.processed uri _ text d) (taken.sending _) hpath
        exact ⟨_, _, does_savedText ready hpath ksy parse rest, checked⟩
      · exact ⟨_, _, (does_invalidate hpath).bind
          ((does_process_of_not_ksy hpath ksy true).bind rest), checked⟩

variable (placed : s.Placed t)

include placed

lemma settles_indexFile (plain : Plain p) : Settles trees t (indexFile p) s := by
  cases shown : s.session.shown t p with
  | error e => exact ⟨_, s, Does.getDocument_error shown, coherent⟩
  | ok d? =>
    cases d? with
    | none =>
      refine ⟨.ok (), s, Does.getDocument_bind shown fun stored? same => ?_, coherent⟩
      rw [Option.map_eq_none_iff.1 same]
      exact does_log _
    | some d =>
      refine ⟨.ok (), s.indexing t d, Does.getDocument_bind shown fun stored? same => ?_,
        coherent.indexing orderly ht ready placed plain shown⟩
      obtain ⟨stored, rfl, rfl⟩ := Option.map_eq_some_iff.1 same
      exact does_updateIndex stored.document

lemma settles_fileChanged (plain : FileUri.Plain uri) (change : FileChange) :
    Settles trees t (fileChanged uri change) s := by
  cases hpath : FileUri.toPath uri with
  | error fault => exact ⟨_, s, (does_pathOf_error hpath).bind_error.bind_error, coherent⟩
  | ok path =>
    have noticed {d? : Option Document}
        (shown : change = .deleted ∨ s.session.shown t (Path.ofString path) = .ok d?) :
        Settles trees t (fileChanged uri change) s := by
      have followed := coherent.noticed orderly ht ready placed (plain path hpath) shown
      obtain ⟨ps, rest, checked⟩ := exists_does_checks (ready.noticed _ change d?) followed hpath
      exact ⟨_, _, does_fileChanged hpath shown rest, checked⟩
    cases shown : s.session.shown t (Path.ofString path) with
    | ok d? => exact noticed (.inr shown)
    | error e =>
      cases change with
      | deleted =>
        -- a file that is gone is not read
        have gone : FileChange.deleted = .deleted ∨
            s.session.shown t (Path.ofString path) = .ok none := .inl rfl
        exact noticed gone
      | created | changed =>
        exact ⟨_, s, (does_invalidate hpath).bind ((does_pathOf hpath).bind
          (Does.getDocument_error shown)), coherent⟩

lemma settles_closed (isOpen : (s.buffer? uri).isSome) (plain : FileUri.Plain uri) :
    Settles trees t (handle (.closed uri)) s := by
  have others (u : String) (ne : u ≠ uri) : (s.removeBuffer uri).buffer? u = s.buffer? u :=
    Keyed.lookup_erase_of_ne ne
  have removed := ready.removeBuffer uri
  cases hpath : FileUri.toPath uri with
  | error fault =>
    have noKey : overlayKey? t.cwd uri = none := by simp [overlayKey?, hpath]
    exact ⟨_, _, (does_removeBuffer uri).bind (does_pathOf_error hpath).bind_error.bind_error,
      coherent.buffered rfl rfl others noKey⟩
  | ok path =>
    by_cases ksy : Ksy.isFile (Path.ofString path)
    · have dropped := coherent.dropping isOpen hpath ksy
      cases shown : ((s.removeBuffer uri).dropping t (Path.ofString path)).session.shown t
          (Path.ofString path) with
      | error e =>
        exact ⟨_, _, (does_removeBuffer uri).bind (does_release_error hpath ksy shown).bind_error,
          dropped⟩
      | ok d? =>
        have followed := dropped.followed orderly ht (removed.dropping _)
          ((placed.removeBuffer uri).dropping (orderly t ht) _) (plain path hpath) shown
        obtain ⟨ps, rest, checked⟩ :=
          exists_does_checks (removed.released uri _ d?) (followed.sending _) hpath
        exact ⟨_, _, does_closed ready hpath ksy shown rest, checked⟩
    · have noKey : overlayKey? t.cwd uri = none := by simp [overlayKey?, hpath, ksy]
      obtain ⟨ps, rest, checked⟩ :=
        exists_does_checks removed (coherent.buffered rfl rfl others noKey) hpath
      exact ⟨_, _, (does_removeBuffer uri).bind ((does_release_of_not_ksy hpath ksy).bind rest),
        checked⟩

end Orderly

/-! ## What one event preserves -/

namespace Keeps

variable (tellApart : TellApart trees) (ht : t ∈ trees) (orderly : ∀ t' ∈ trees, t'.Orderly cwd)

include tellApart ht

lemma of_settles {w : Serve α} (healthy : Keeps t (Healthy trees) w) (placed : Keeps t (Placed t) w)
    (settles : ∀ s, s.Ready t → s.Placed t → s.Coherent trees t → Settles trees t w s) :
    Keeps t (Sound trees t) w := by
  intro s hs
  have ready := hs.healthy.ready tellApart ht
  obtain ⟨r, s', does, coherent⟩ := settles s ready hs.placed hs.coherent
  exact ⟨healthy s hs.healthy, placed s hs.placed,
    coherent.congr (does s (.refl ready.truthful)).2⟩

include orderly

lemma sound_log (record : LogRecord) : Keeps t (Sound trees t) (Serve.log record) :=
  of_settles tellApart ht ((Healthy.stable ht).log record)
    ((Placed.stable (orderly t ht)).log record)
    fun s _ _ coherent => ⟨_, s, does_log record, coherent⟩

lemma sound_indexFolder (plain : FileUri.Plain uri) :
    Keeps t (Sound trees t) (Serve.indexFolder uri) := by
  refine pathOf_bind fun path hpath => of_read ?_
  split
  · exact throw _
  next files hfiles =>
    have index : Keeps t (Sound trees t) (files.forM Serve.indexFile) := by
      refine forM fun p hp => ?_
      have plainFile := (orderly t ht).plain_of_mem_descriptionsBelow (plain path hpath) hfiles hp
      exact of_settles tellApart ht ((Healthy.stable ht).indexFile trivial)
        ((Placed.stable (orderly t ht)).indexFile plainFile) fun s ready placed coherent =>
          settles_indexFile orderly ht ready coherent placed plainFile
    exact index.bind fun _ => get.bind fun _ => sound_log tellApart ht orderly _

lemma sound_fileChanged (plain : FileUri.Plain uri) (change : FileChange) :
    Keeps t (Sound trees t) (Serve.fileChanged uri change) :=
  of_settles tellApart ht ((Healthy.stable ht).fileChanged (fun _ _ => trivial) change)
    ((Placed.stable (orderly t ht)).fileChanged plain change) fun _ ready placed coherent =>
      settles_fileChanged orderly ht ready coherent placed plain change

end Keeps

end Serve

namespace Server

variable {trees : List FileTree} {cwd : Path} {t : FileTree} {s : Server}
  (orderly : ∀ t' ∈ trees, t'.Orderly cwd) (tellApart : TellApart trees)

include orderly tellApart

/-- Whatever a client can send keeps a server sound. -/
lemma Sound.after (h : s.Sound trees t) (ht : t ∈ trees) {e : Event} (admits : s.Admits cwd e)
    (plain : ∀ uri ∈ e.uris, FileUri.Plain uri) : (s.after t e).Sound trees t := by
  have healthy := (Healthy.stable ht).handle e (fun _ _ _ _ => trivial) s h.healthy
  have placed := (Placed.stable (orderly t ht)).handle e plain s h.placed
  have ready := h.healthy.ready tellApart ht
  have settled (settles : Serve.Settles trees t (Serve.handle e) s) :
      (s.after t e).Sound trees t := by
    obtain ⟨r, s', does, coherent⟩ := settles
    exact ⟨healthy, placed, coherent.congr (does s (.refl ready.truthful)).2⟩
  rw [← (orderly t ht).cwd_eq] at admits
  cases e with
  | connected root? folders =>
    have folder (uri : String) (huri : uri ∈ root?.toList ++ folders) :=
      Serve.Keeps.sound_indexFolder tellApart ht orderly (plain uri huri)
    refine ((Serve.Keeps.sound_log tellApart ht orderly _).bind fun _ => ?_) s h
    split
    · exact .pure ()
    · split
      · exact folder _ (by simp)
      · exact .pure ()
    · exact .forM fun uri huri => folder uri (List.mem_append_right _ huri)
  | opened uri text =>
    exact settled (Serve.settles_opened orderly ht ready h.coherent admits.1 admits.2
      (plain uri List.mem_cons_self))
  | edited uri text =>
    exact settled (Serve.settles_edited orderly ht ready h.coherent admits.2 admits.1
      (plain uri List.mem_cons_self))
  | saved uri text? =>
    exact settled (Serve.settles_saved orderly ht ready h.coherent admits
      (plain uri List.mem_cons_self))
  | closed uri =>
    exact settled (Serve.settles_closed orderly ht ready h.coherent h.placed admits
      (plain uri List.mem_cons_self))
  | filesChanged changes =>
    exact Serve.Keeps.forM (fun c hc => Serve.Keeps.sound_fileChanged tellApart ht orderly
      (plain c.1 (List.mem_map_of_mem hc)) c.2) s h

/-- Over every run of events a server stays sound. -/
lemma Sound.afterAll (h : ∀ t ∈ trees, s.Sound trees t) {events : List (FileTree × Event)}
    (ht : ∀ x ∈ events, x.1 ∈ trees) (admits : s.AdmitsAll cwd events)
    (plain : ∀ x ∈ events, ∀ uri ∈ x.2.uris, FileUri.Plain uri) :
    ∀ t ∈ trees, (s.afterAll events).Sound trees t := by
  induction events generalizing s with
  | nil => exact h
  | cons x rest ih =>
    obtain ⟨t, e⟩ := x
    have first : t ∈ trees := ht _ List.mem_cons_self
    have next := (h t first).after orderly tellApart first admits.2.1 (plain _ List.mem_cons_self)
    refine ih (fun t' ht' => ⟨next.healthy, next.placed.inTree (orderly t first) (orderly t' ht'),
      next.coherent.inTree (orderly t first) (orderly t' ht')⟩)
      (fun y hy => ht y (List.mem_cons_of_mem _ hy)) admits.2.2
      fun y hy => plain y (List.mem_cons_of_mem _ hy)

omit orderly tellApart in
/-- A fresh server is sound. -/
lemma sound_start (trees : List FileTree) (t : FileTree) (cacheEnabled : Bool) {maxCacheSize : Int}
    (size : 0 ≤ maxCacheSize) (grammarFile? : Option Path) :
    (start (.start cacheEnabled maxCacheSize grammarFile?)).Sound trees t where
  healthy := healthy_start trees cacheEnabled size grammarFile?
  placed := placed_start t cacheEnabled maxCacheSize grammarFile?
  coherent := by
    refine ⟨fun _ _ _ isOpen => ?_, fun _ _ _ isOpen => ?_, fun _ _ _ held => ?_⟩
    · cases isOpen
    · cases isOpen
    · cases held

end Server

/-! ## A description that is opened while there are no files -/

namespace Server

open FileTree (noFiles)

/-- A server to which a description was opened while there are no files. -/
def opening (text : String) : Server :=
  (start (.start true 8 none)).after noFiles (.opened "file:///a.ksy" text)

lemma toPath_opening : FileUri.toPath "file:///a.ksy" = .ok "/a.ksy" := by decide +kernel

lemma isFile_opening : Ksy.isFile (Path.ofString "/a.ksy") := by decide

lemma plain_opening : FileUri.Plain "file:///a.ksy" := by
  intro path hpath
  obtain rfl : path = "/a.ksy" := Except.ok.inj (hpath.symm.trans toPath_opening)
  have parts : Path.ofString "/a.ksy" = ⟨.slash, ["a.ksy"]⟩ := by decide
  rw [parts]
  exact FileTree.plain_singleton ⟨by decide, by decide, by decide⟩ (by decide)

lemma tellApart_replicate (t : FileTree) (n : ℕ) : TellApart (List.replicate n t) := by
  intro t₁ h₁ t₂ h₂ key signature _ _
  rw [List.eq_of_mem_replicate h₁, List.eq_of_mem_replicate h₂]

variable {text : String}

lemma admits_opening (parses : Parses text) :
    (start (.start true 8 none)).Admits ⟨.slash, []⟩ (.opened "file:///a.ksy" text) := by
  refine ⟨parses, fun other key _ hother => ?_⟩
  simp [buffer?, start] at hother

lemma sound_opening (parses : Parses text) : (opening text).Sound [noFiles] noFiles := by
  refine Sound.after (fun t ht => ?_) (tellApart_replicate noFiles 1)
    (sound_start _ _ _ (by decide) _) List.mem_cons_self (admits_opening parses) fun uri huri => ?_
  · rw [List.mem_singleton.1 ht]
    exact FileTree.orderly_noFiles
  · rw [List.mem_singleton.1 huri]
    exact plain_opening

/-- The text is taken over, and so are its imports. -/
lemma alike_opening {d : Document}
    (parse : Document.parse text (some (Path.ofString "/a.ksy")) none = .ok d) :
    (((start (.start true 8 none)).setBuffer "file:///a.ksy" text).processed noFiles "file:///a.ksy"
      (Path.ofString "/a.ksy") text d).Alike noFiles (opening text) := by
  have healthy : (start (.start true 8 none)).Healthy [noFiles] :=
    healthy_start _ true (by decide) none
  have ready := healthy.ready (tellApart_replicate noFiles 1) List.mem_cons_self
  have process := Serve.does_processed (ready.setBuffer "file:///a.ksy" text) toPath_opening
    isFile_opening parse
  exact (Serve.does_opened toPath_opening process _ (.refl ready.truthful)).2

lemma buffer?_opening (parses : Parses text) :
    (opening text).buffer? "file:///a.ksy" = some text := by
  obtain ⟨d, parse⟩ := Serve.parse_ok_of_parses parses (some (Path.ofString "/a.ksy")) none
  rw [(alike_opening parse).buffer?, buffer?_congr (buffers_processed ..), buffer?_setBuffer_self]

end Server

end KsyTools
