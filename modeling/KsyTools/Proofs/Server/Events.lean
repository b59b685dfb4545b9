/-
# What events do

The exact effect of every event about a file.  While the store holds the documents of all open
descriptions, no two of which have the same key, a text that is taken over or given back changes
what is held for its own URI only, and a check of dependents changes nothing but what is sent.
-/
import KsyTools.Proofs.Server.Effects
import KsyTools.Proofs.Server.Reachable

namespace KsyTools

namespace Server

variable {t : FileTree} {s s' : Server} {uri u : String} {p : Path}

/-- No other open description has the key of a URI. -/
def Alone (t : FileTree) (s : Server) (uri : String) : Prop :=
  ∀ other key, other ≠ uri → (s.buffer? other).isSome → overlayKey? t.cwd other = some key →
    overlayKey? t.cwd uri ≠ some key

lemma overlayKey?_of_ksy {path : String} (hpath : FileUri.toPath u = .ok path)
    (ksy : Ksy.isFile (Path.ofString path)) :
    overlayKey? t.cwd u = some (t.key (Path.ofString path)) := by
  simp only [overlayKey?, hpath, if_pos ksy]
  rfl

/-- Other open descriptions have other keys. -/
lemma Alone.key_ne (h : s.Alone t uri) {path other : String} (ne : u ≠ uri)
    (isOpen : (s.buffer? u).isSome) (hother : FileUri.toPath u = .ok other)
    (otherKsy : Ksy.isFile (Path.ofString other)) (hpath : FileUri.toPath uri = .ok path)
    (ksy : Ksy.isFile (Path.ofString path)) :
    t.key (Path.ofString other) ≠ t.key (Path.ofString path) := by
  intro same
  refine h u _ ne isOpen (overlayKey?_of_ksy hother otherKsy) ?_
  rw [overlayKey?_of_ksy hpath ksy, same]

lemma Mirrored.congr (h : s.Mirrored t u) (session : s'.session = s.session)
    (buffers : s'.buffers = s.buffers) : s'.Mirrored t u := by
  unfold Mirrored
  rw [session, buffer?_congr buffers]
  exact h

lemma Mirrored.of_alike (h : s.Mirrored t u) (alike : s.Alike t s') : s'.Mirrored t u := by
  intro text path hbuffer hpath ksy
  rw [alike.buffer?] at hbuffer
  obtain ⟨d, parse, held⟩ := h text path hbuffer hpath ksy
  exact ⟨d, parse, (alike.session.overlays _).trans held⟩

/-- When a text is taken over, the store still holds the documents of all other buffers, and that of
its own if it is the text of the buffer. -/
lemma mirrored_holding {path text : String} {d : Document}
    (mirrored : u ≠ uri → s.Mirrored t u) (alone : s.Alone t uri)
    (hpath : FileUri.toPath uri = .ok path) (ksy : Ksy.isFile (Path.ofString path))
    (parse : Document.parse text (some (Path.ofString path)) none = .ok d)
    (own : u = uri → ∀ held, s.buffer? uri = some held → held = text) :
    (s.holding t (Path.ofString path) text).Mirrored t u := by
  intro text' other hbuffer hother otherKsy
  have hbuffer : s.buffer? u = some text' := hbuffer
  by_cases same : u = uri
  · subst same
    obtain rfl : other = path := Except.ok.inj (hother.symm.trans hpath)
    obtain rfl : text' = text := own rfl text' hbuffer
    refine ⟨d, parse, ?_⟩
    rw [overlay?_holding parse, if_pos rfl]
  · obtain ⟨d', parse', held⟩ := mirrored same text' other hbuffer hother otherKsy
    have ne := alone.key_ne same (by rw [hbuffer]; rfl) hother otherKsy hpath ksy
    refine ⟨d', parse', ?_⟩
    rw [overlay?_holding parse, if_neg ne, held]

lemma buffer?_removeBuffer {text : String} (h : (s.removeBuffer uri).buffer? u = some text) :
    u ≠ uri ∧ s.buffer? u = some text := by
  have h : (Keyed.erase s.buffers uri).lookup u = some text := h
  by_cases same : u = uri
  · rw [same, Keyed.lookup_erase_self] at h
    cases h
  · exact ⟨same, (Keyed.lookup_erase_of_ne same).symm.trans h⟩

/-- When a text is given back, the store still holds the documents of all other buffers. -/
lemma mirrored_dropping {path : String} (mirrored : s.Mirrored t u) (alone : s.Alone t uri)
    (hpath : FileUri.toPath uri = .ok path) (ksy : Ksy.isFile (Path.ofString path)) :
    ((s.removeBuffer uri).dropping t (Path.ofString path)).Mirrored t u := by
  intro text other hbuffer hother otherKsy
  obtain ⟨different, hbuffer⟩ := buffer?_removeBuffer hbuffer
  obtain ⟨d, parse, held⟩ := mirrored text other hbuffer hother otherKsy
  have ne := alone.key_ne different (by rw [hbuffer]; rfl) hother otherKsy hpath ksy
  refine ⟨d, parse, ?_⟩
  rw [overlay?_dropping, if_neg ne]
  exact held

/-- What is shown for a path can be read if the file can be. -/
lemma exists_shown (session : Session)
    (readable : ∃ d?, t.documentAt (t.key p) = .ok d?) : ∃ d?, session.shown t p = .ok d? := by
  obtain ⟨d?, hd⟩ := readable
  unfold Session.shown
  split
  · exact ⟨_, rfl⟩
  · exact ⟨d?, hd⟩

/-! ## Servers that can work -/

/-- All that a server keeps is current, its client can be reached, and its index knows files by
absolute paths. -/
structure Ready (t : FileTree) (s : Server) : Prop where
  truthful : s.session.store.Truthful t
  connected : s.connected = true
  absolute : s.index.Absolute

lemma Healthy.ready {trees : List FileTree} (h : s.Healthy trees)
    (tellApart : FileTree.TellApart trees) (ht : t ∈ trees) : s.Ready t :=
  ⟨h.truthful tellApart ht, h.connected, h.keys⟩

namespace Ready

lemma congr (h : s.Ready t) (alike : s.Alike t s') : s'.Ready t :=
  ⟨alike.session.right, alike.connected.trans h.connected, by rw [alike.index]; exact h.absolute⟩

lemma sending (h : s.Ready t) (ps : List Publication) : (s.sending ps).Ready t :=
  ⟨h.truthful, h.connected, h.absolute⟩

lemma setBuffer (h : s.Ready t) (uri text : String) : (s.setBuffer uri text).Ready t :=
  ⟨h.truthful, h.connected, h.absolute⟩

lemma removeBuffer (h : s.Ready t) (uri : String) : (s.removeBuffer uri).Ready t :=
  ⟨h.truthful, h.connected, h.absolute⟩

lemma holding (h : s.Ready t) (p : Path) (text : String) : (s.holding t p text).Ready t :=
  ⟨truthful_holding h.truthful, h.connected, h.absolute⟩

lemma dropping (h : s.Ready t) (p : Path) : (s.dropping t p).Ready t :=
  ⟨h.truthful, h.connected, h.absolute⟩

lemma indexing (h : s.Ready t) (d : Document) : (s.indexing t d).Ready t := by
  refine ⟨?_, (connected_indexing ..).trans h.connected, ?_⟩
  · rw [session_indexing]
    exact h.truthful
  · unfold Server.indexing
    cases d.file? with
    | none => exact h.absolute
    | some p =>
      cases key : t.indexKey? p with
      | none => simpa only [Option.bind_some, key] using h.absolute
      | some k => simpa only [Option.bind_some, key] using h.absolute.set key _

lemma forgetting (h : s.Ready t) (p : Path) : (s.forgetting t p).Ready t := by
  refine ⟨?_, (connected_forgetting ..).trans h.connected, ?_⟩
  · rw [session_forgetting]
    exact h.truthful
  · unfold Server.forgetting
    split
    · exact h.absolute.erase _
    · exact h.absolute

lemma followed (h : s.Ready t) (p : Path) (d? : Option Document) :
    (Serve.followed t s p d?).Ready t := by
  cases d? with
  | some d => exact h.indexing d
  | none => exact h.forgetting p

lemma noticed (h : s.Ready t) (p : Path) (change : FileChange) (d? : Option Document) :
    (Serve.noticed t s p change d?).Ready t := by
  cases change with
  | deleted => exact h.forgetting p
  | created | changed =>
    cases d? with
    | some d => exact h.indexing d
    | none => exact h

end Ready

/-! ## Servers after events -/

/-- The server after it has taken over the text of a description, which has the document `d`. -/
def processed (t : FileTree) (s : Server) (uri : String) (p : Path) (text : String) (d : Document) :
    Server :=
  ((s.holding t p text).indexing t d).sending
    [⟨uri, (s.holding t p text).session.diagnosticsOf t d⟩]

/-- The server after it has given back the text of a description, and `d?` is shown then. -/
def released (t : FileTree) (s : Server) (uri : String) (p : Path) (d? : Option Document) :
    Server :=
  (Serve.followed t (s.dropping t p) p d?).sending [⟨uri, []⟩]

@[simp] lemma session_processed (text : String) (d : Document) :
    (s.processed t uri p text d).session = (s.holding t p text).session :=
  session_indexing ..

@[simp] lemma buffers_processed (text : String) (d : Document) :
    (s.processed t uri p text d).buffers = s.buffers :=
  buffers_indexing ..

@[simp] lemma session_released (d? : Option Document) :
    (s.released t uri p d?).session = (s.dropping t p).session :=
  Serve.session_followed ..

@[simp] lemma buffers_released (d? : Option Document) :
    (s.released t uri p d?).buffers = s.buffers :=
  Serve.buffers_followed ..

lemma Ready.processed (h : s.Ready t) (uri : String) (p : Path) (text : String) (d : Document) :
    (s.processed t uri p text d).Ready t :=
  ((h.holding p text).indexing d).sending _

lemma Ready.released (h : s.Ready t) (uri : String) (p : Path) (d? : Option Document) :
    (s.released t uri p d?).Ready t :=
  ((h.dropping p).followed p d?).sending _

end Server

namespace Serve

variable {t : FileTree} {s s' : Server} {uri text path : String} {d : Document}
    {d? : Option Document}
  {r : Except Failure Unit}

lemma does_setBuffer (uri text : String) :
    Does t (modify fun s => s.setBuffer uri text) s (.ok ⟨⟩) (s.setBuffer uri text) :=
  does_modify fun _ hx => ⟨hx.session, hx.index, congrArg (Keyed.set · uri text) hx.buffers,
    hx.published, hx.connected⟩

lemma does_removeBuffer (uri : String) :
    Does t (modify fun s => s.removeBuffer uri) s (.ok ⟨⟩) (s.removeBuffer uri) :=
  does_modify fun _ hx => ⟨hx.session, hx.index, congrArg (Keyed.erase · uri) hx.buffers,
    hx.published, hx.connected⟩

/-- When dependents of a file are checked, nothing changes but what is sent. -/
lemma does_checks (ready : s.Ready t) (mirrored : ∀ u, s.Mirrored t u)
    (hpath : FileUri.toPath uri = .ok path) :
    Does t (recheckDependents uri) s (.ok ())
      (s.sending ((s.index.dependents t (Path.ofString path)).flatMap (s.checksOf t))) :=
  does_recheckDependents ready.truthful ready.connected hpath
    (fun _ hk => ready.absolute.of_mem_dependents hk) fun _ _ u _ => mirrored u

lemma does_opened (hpath : FileUri.toPath uri = .ok path)
    (process : Does t (process uri text true) (s.setBuffer uri text) r s') :
    Does t (handle (.opened uri text)) s r s' :=
  (does_pathOf hpath).bind ((does_setBuffer uri text).bind process)

lemma does_edited (isOpen : (s.buffer? uri).isSome)
    (process : Does t (process uri text true) (s.setBuffer uri text) r s') :
    Does t (handle (.edited uri text)) s r s' := by
  refine Does.of_get fun x hx => ?_
  have known : ¬ (x.buffer? uri).isNone := by
    rw [hx.buffer?, Option.isNone_iff_eq_none]
    exact Option.isSome_iff_ne_none.1 isOpen
  rw [if_neg known]
  exact (does_setBuffer uri text).bind process

lemma does_saved (hpath : FileUri.toPath uri = .ok path)
    (rest : Does t (recheckDependents uri) s r s') : Does t (handle (.saved uri none)) s r s' :=
  (does_invalidate hpath).bind rest

section Descriptions

variable (ready : s.Ready t) (hpath : FileUri.toPath uri = .ok path)
  (ksy : Ksy.isFile (Path.ofString path))

include ready hpath ksy

lemma does_processed (parse : Document.parse text (some (Path.ofString path)) none = .ok d) :
    Does t (process uri text true) s (.ok ()) (s.processed t uri (Path.ofString path) text d) :=
  does_process ready.truthful ready.connected hpath ksy parse true

lemma does_savedText (parse : Document.parse text (some (Path.ofString path)) none = .ok d)
    (rest : Does t (recheckDependents uri) (s.processed t uri (Path.ofString path) text d) r s') :
    Does t (handle (.saved uri (some text))) s r s' :=
  (does_invalidate hpath).bind ((does_processed ready hpath ksy parse).bind rest)

lemma does_closed
    (shown : ((s.removeBuffer uri).dropping t (Path.ofString path)).session.shown t
      (Path.ofString path) = .ok d?)
    (rest : Does t (recheckDependents uri)
      ((s.removeBuffer uri).released t uri (Path.ofString path) d?) r s') :
    Does t (handle (.closed uri)) s r s' := by
  have release : Does t (release uri) (s.removeBuffer uri) (.ok ())
      ((s.removeBuffer uri).released t uri (Path.ofString path) d?) :=
    does_release ready.connected hpath ksy shown
  exact (does_removeBuffer uri).bind (release.bind rest)

end Descriptions

end Serve

end KsyTools
