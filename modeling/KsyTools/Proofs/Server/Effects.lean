/-
# What a server does

The exact effect of every part of a handler, up to what a session happens to keep: which texts it
takes over or gives back, what it changes in the index, and which diagnostics it sends.  A check of
dependents takes over texts that the store holds already, so it changes nothing but what is sent,
and all its diagnostics are those that the documents have before and after it.
-/
import KsyTools.Proofs.Alike
import KsyTools.Proofs.Ksy.ExistingDocument
import KsyTools.Proofs.Server.Run

namespace KsyTools

open Ksy (includesOf)

/-- The diagnostics of a document in a session; if they cannot be found out there are none. -/
def Session.diagnosticsOf (t : FileTree) (s : Session) (d : Document) : List Diagnostic :=
  match (s.run t (Diagnostic.all d)).1 with
  | .ok diagnostics => diagnostics
  | .error _ => []

lemma Session.Alike.diagnosticsOf {t : FileTree} {s s' : Session} (h : s.Alike t s')
    (d : Document) : s'.diagnosticsOf t d = s.diagnosticsOf t d := by
  obtain ⟨r, gives⟩ : (Diagnostic.all d).Settled t s := .diagnostics d
  unfold Session.diagnosticsOf
  rw [(gives s (.refl h.left)).1, (gives s' h).1]

namespace Server

/-! ## Alike servers -/

/-- Two servers have the same index, buffers and publications, and their sessions answer alike. -/
structure Alike (t : FileTree) (s s' : Server) : Prop where
  session : s.session.Alike t s'.session
  index : s'.index = s.index
  buffers : s'.buffers = s.buffers
  published : s'.published = s.published
  connected : s'.connected = s.connected

namespace Alike

variable {t : FileTree} {s s' s'' : Server}

lemma refl (h : s.session.store.Truthful t) : s.Alike t s :=
  ⟨.refl h, rfl, rfl, rfl, rfl⟩

lemma trans (h : s.Alike t s') (h' : s'.Alike t s'') : s.Alike t s'' :=
  ⟨h.session.trans h'.session, h'.index.trans h.index, h'.buffers.trans h.buffers,
    h'.published.trans h.published, h'.connected.trans h.connected⟩

lemma withSession (h : s.Alike t s') {session : Session} (alike : s.session.Alike t session) :
    s.Alike t { s' with session } :=
  ⟨alike, h.index, h.buffers, h.published, h.connected⟩

lemma buffer? (h : s.Alike t s') (uri : String) : s'.buffer? uri = s.buffer? uri := by
  rw [Server.buffer?, h.buffers, Server.buffer?]

end Alike

/-! ## What can be done to a server -/

/-- The server after it has sent diagnostics. -/
def sending (s : Server) (publications : List Publication) : Server :=
  { s with published := s.published ++ publications }

/-- The server after it has taken the imports of a document into the index. -/
def indexing (t : FileTree) (s : Server) (d : Document) : Server :=
  match d.file?.bind t.indexKey? with
  | some key => { s with index := s.index.set key (includesOf t d) }
  | none => s

/-- The server after it has forgotten the imports of a file. -/
def forgetting (t : FileTree) (s : Server) (p : Path) : Server :=
  match t.indexKey? p with
  | some key => { s with index := s.index.erase key }
  | none => s

/-- The server after it has taken over a text. -/
def holding (t : FileTree) (s : Server) (p : Path) (text : String) : Server :=
  { s with session.store := (s.session.store.setOverlay t (some p) text).store }

/-- The server after it has given a text back. -/
def dropping (t : FileTree) (s : Server) (p : Path) : Server :=
  { s with session.store := s.session.store.removeOverlay t p }

@[simp] lemma sending_nil (s : Server) : s.sending [] = s := by
  rw [sending, List.append_nil]

@[simp] lemma sending_sending (s : Server) (ps qs : List Publication) :
    (s.sending ps).sending qs = s.sending (ps ++ qs) := by
  simp only [sending, List.append_assoc]

@[simp] lemma session_sending (s : Server) (ps : List Publication) :
    (s.sending ps).session = s.session := rfl

@[simp] lemma index_sending (s : Server) (ps : List Publication) :
    (s.sending ps).index = s.index := rfl

@[simp] lemma buffers_sending (s : Server) (ps : List Publication) :
    (s.sending ps).buffers = s.buffers := rfl

section Fields

variable (t : FileTree) (s : Server) (d : Document) (p : Path) (text : String)

@[simp] lemma session_indexing : (s.indexing t d).session = s.session := by
  unfold indexing; split <;> rfl

@[simp] lemma buffers_indexing : (s.indexing t d).buffers = s.buffers := by
  unfold indexing; split <;> rfl

@[simp] lemma published_indexing : (s.indexing t d).published = s.published := by
  unfold indexing; split <;> rfl

@[simp] lemma connected_indexing : (s.indexing t d).connected = s.connected := by
  unfold indexing; split <;> rfl

@[simp] lemma session_forgetting : (s.forgetting t p).session = s.session := by
  unfold forgetting; split <;> rfl

@[simp] lemma buffers_forgetting : (s.forgetting t p).buffers = s.buffers := by
  unfold forgetting; split <;> rfl

@[simp] lemma published_forgetting : (s.forgetting t p).published = s.published := by
  unfold forgetting; split <;> rfl

@[simp] lemma connected_forgetting : (s.forgetting t p).connected = s.connected := by
  unfold forgetting; split <;> rfl

@[simp] lemma index_holding : (s.holding t p text).index = s.index := rfl

end Fields

section Overlays

variable {t : FileTree} {s : Server} {p : Path} {text : String} {d : Document}

/-- A text that was taken over is held under the key of its path, and all others as before. -/
lemma overlay?_holding (parse : Document.parse text (some p) none = .ok d) (key : Path) :
    ((s.holding t p text).session.store.overlay? key).map StoredDocument.document =
      if key = t.key p then some d
      else (s.session.store.overlay? key).map StoredDocument.document := by
  have stored : s.session.store.parse text (some p) none =
      .ok (⟨s.session.store.nextSerial, d⟩,
        { s.session.store with nextSerial := s.session.store.nextSerial + 1 }) := by
    rw [DocumentStore.parse, parse]
  simp only [holding, DocumentStore.setOverlay, stored, DocumentStore.overlay?]
  split_ifs with same
  · rw [same, Keyed.lookup_set_self]
    rfl
  · rw [Keyed.lookup_set_of_ne same]

lemma overlay?_dropping (key : Path) :
    (s.dropping t p).session.store.overlay? key =
      if key = t.key p then none else s.session.store.overlay? key := by
  simp only [dropping, DocumentStore.removeOverlay, DocumentStore.overlay?]
  split_ifs with same
  · rw [same, Keyed.lookup_erase_self]
  · rw [Keyed.lookup_erase_of_ne same]

lemma truthful_holding (h : s.session.store.Truthful t) :
    (s.holding t p text).session.store.Truthful t := by
  obtain ⟨enabled, size⟩ :=
    World.settings_after ⟨t, s.session.store⟩ (.setOverlay (some p) text)
  have cache := World.setOverlay_cache t s.session.store (some p) text
  refine ⟨?_, ?_⟩
  · unfold DocumentStore.CanKeep
    intro keeps
    change (s.session.store.setOverlay t (some p) text).store.maxCacheSize ≥ 0
    rw [show (s.session.store.setOverlay t (some p) text).store.maxCacheSize = _ from size]
    exact h.1 (enabled ▸ keeps)
  · change ∀ e ∈ (s.session.store.setOverlay t (some p) text).store.cache, _
    rw [cache]
    exact h.2

lemma Alike.holding {s' : Server} (h : s.Alike t s')
    (parse : Document.parse text (some p) none = .ok d) :
    (s.holding t p text).Alike t (s'.holding t p text) where
  session := {
    left := truthful_holding h.session.left
    right := truthful_holding h.session.right
    overlays := fun key => by
      rw [overlay?_holding parse, overlay?_holding parse, h.session.overlays]
    grammar := h.session.grammar }
  index := h.index
  buffers := h.buffers
  published := h.published
  connected := h.connected

lemma Alike.dropping {s' : Server} (h : s.Alike t s') :
    (s.dropping t p).Alike t (s'.dropping t p) where
  session := {
    left := h.session.left
    right := h.session.right
    overlays := fun key => by
      rw [overlay?_dropping, overlay?_dropping]
      split
      · rfl
      · exact h.session.overlays key
    grammar := h.session.grammar }
  index := h.index
  buffers := h.buffers
  published := h.published
  connected := h.connected

/-- Taking over a text that is held already changes nothing. -/
lemma alike_holding (h : s.session.store.Truthful t)
    (held : (s.session.store.overlay? (t.key p)).map StoredDocument.document = some d)
    (parse : Document.parse text (some p) none = .ok d) :
    s.Alike t (s.holding t p text) where
  session := {
    left := h
    right := truthful_holding h
    overlays := fun key => by
      rw [overlay?_holding parse]
      split_ifs with same
      · rw [same, held]
      · rfl
    grammar := rfl }
  index := rfl
  buffers := rfl
  published := rfl
  connected := rfl

end Overlays

end Server

/-! ## Computations with a known effect -/

/-- From every server that is like `s` a computation gives the result `r`, and leaves a server that
is like `s'`. -/
def Serve.Does {α : Type} (t : FileTree) (w : Serve α) (s : Server) (r : Except Failure α)
    (s' : Server) : Prop :=
  ∀ x, s.Alike t x → (x.run t w).1 = r ∧ s'.Alike t (x.run t w).2

namespace Serve

variable {α β : Type} {t : FileTree} {s s' s'' : Server}

lemma Does.bind {w : Serve α} {f : α → Serve β} {a : α} {r : Except Failure β}
    (hw : Does t w s (.ok a) s') (hf : Does t (f a) s' r s'') : Does t (w >>= f) s r s'' := by
  intro x hx
  obtain ⟨result, alike⟩ := hw x hx
  rw [Server.run_bind]
  rcases hrun : x.run t w with ⟨e | b, y⟩
  · rw [hrun] at result
    cases result
  · rw [hrun] at result alike
    cases result
    exact hf y alike

lemma Does.bind_error {w : Serve α} {f : α → Serve β} {e : Failure}
    (hw : Does t w s (.error e) s') : Does t (w >>= f) s (.error e) s' := by
  intro x hx
  obtain ⟨result, alike⟩ := hw x hx
  rw [Server.run_bind]
  rcases hrun : x.run t w with ⟨e' | b, y⟩
  · rw [hrun] at result alike
    cases result
    exact ⟨rfl, alike⟩
  · rw [hrun] at result
    cases result

lemma Does.tryCatch {w : Serve α} {handler : Failure → Serve α} {a : α}
    (hw : Does t w s (.ok a) s') : Does t (tryCatch w handler) s (.ok a) s' := by
  intro x hx
  obtain ⟨result, alike⟩ := hw x hx
  rw [Server.run_tryCatch]
  rcases hrun : x.run t w with ⟨e | b, y⟩
  · rw [hrun] at result
    cases result
  · rw [hrun] at result alike
    exact ⟨result, alike⟩

lemma Does.tryCatch_error {w : Serve α} {handler : Failure → Serve α} {e : Failure}
    {r : Except Failure α} (hw : Does t w s (.error e) s') (hh : Does t (handler e) s' r s'') :
    Does t (MonadExcept.tryCatch w handler) s r s'' := by
  intro x hx
  obtain ⟨result, alike⟩ := hw x hx
  rw [Server.run_tryCatch]
  rcases hrun : x.run t w with ⟨e' | b, y⟩
  · rw [hrun] at result alike
    cases result
    exact hh y alike
  · rw [hrun] at result
    cases result

lemma Does.of_get {f : Server → Serve β} {r : Except Failure β}
    (h : ∀ x, s.Alike t x → Does t (f x) s r s') : Does t (get >>= f) s r s' := by
  intro x hx
  rw [Server.run_bind]
  exact h x hx x hx

lemma Does.of_read {f : FileTree → Serve β} {r : Except Failure β} (h : Does t (f t) s r s') :
    Does t (read >>= f) s r s' := by
  intro x hx
  rw [Server.run_bind]
  exact h x hx

/-- The effect may be described by any server that is like the one that is left. -/
lemma Does.congr {w : Serve α} {r : Except Failure α} (h : Does t w s r s')
    (alike : s''.Alike t s') : Does t w s r s'' :=
  fun x hx => ⟨(h x hx).1, alike.trans (h x hx).2⟩

lemma does_pure (a : α) : Does t (pure a) s (.ok a) s := fun _ hx => ⟨rfl, hx⟩

lemma does_throw (e : Failure) : Does t (throw e : Serve α) s (.error e) s :=
  fun _ hx => ⟨rfl, hx⟩

lemma does_modify {f : Server → Server} (h : ∀ x, s.Alike t x → s'.Alike t (f x)) :
    Does t (modify f) s (.ok ⟨⟩) s' :=
  fun x hx => ⟨rfl, h x hx⟩

/-- What is settled by the session does nothing to the server. -/
lemma does_work {w : Work α} {r : Except Failure α} (h : w.Gives t s.session r) :
    Does t (work w) s r s := by
  intro x hx
  obtain ⟨result, alike⟩ := h x.session hx.session
  rw [Server.run_work]
  exact ⟨result, hx.withSession alike⟩

lemma does_log (record : LogRecord) : Does t (log record) s (.ok ()) s :=
  does_work (Work.gives_log record)

lemma does_pathOf {uri path : String} (h : FileUri.toPath uri = .ok path) :
    Does t (pathOf uri) s (.ok path) s := by
  rw [pathOf, h]
  exact does_pure path

lemma does_pathOf_error {uri : String} {fault : AddressFault}
    (h : FileUri.toPath uri = .error fault) :
    Does t (pathOf uri) s (.error (.address fault)) s := by
  rw [pathOf, h]
  exact does_throw _

/-! ## Sending diagnostics -/

lemma does_publish (connected : s.connected = true) (uri : String) (ds : List Diagnostic) :
    Does t (publish uri ds) s (.ok ()) (s.sending [⟨uri, ds⟩]) := by
  refine Does.of_get fun x hx => ?_
  rw [if_pos (hx.connected.trans connected)]
  refine does_modify fun y hy => ⟨hy.session, hy.index, hy.buffers, ?_, hy.connected⟩
  exact congrArg (· ++ [⟨uri, ds⟩]) hy.published

lemma does_tryPublish (connected : s.connected = true) (uri : String) (ds : List Diagnostic) :
    Does t (tryPublish uri ds) s (.ok ()) (s.sending [⟨uri, ds⟩]) :=
  ((does_log _).bind (does_publish connected uri ds)).tryCatch

lemma does_diagnose (truthful : s.session.store.Truthful t) (uri : String) (d : Document) :
    Does t (diagnose uri d) s (.ok (s.session.diagnosticsOf t d)) s := by
  obtain ⟨r, gives⟩ : (Diagnostic.all d).Settled t s.session := .diagnostics d
  have same := (gives s.session (.refl truthful)).1
  rw [Session.diagnosticsOf, same]
  cases r with
  | ok ds => exact (does_work gives).tryCatch
  | error e => exact (does_work gives).tryCatch_error ((does_log _).bind (does_pure []))

/-! ## The index -/

lemma gives_includes {s₀ : Session} (d : Document) :
    (Ksy.includes d).Gives t s₀ (.ok (includesOf t d)) := by
  intro s hs
  obtain ⟨log, run⟩ := Ksy.run_includes s t d
  rw [run]
  exact ⟨rfl, hs.lookups .refl rfl rfl⟩

lemma does_updateIndex (d : Document) :
    Does t (updateIndex d) s (.ok ()) (s.indexing t d) := by
  unfold updateIndex Server.indexing
  cases d.file? with
  | none => exact does_pure ()
  | some file =>
    refine Does.of_read ?_
    cases hkey : t.indexKey? file with
    | none =>
      simp only [Option.bind_some, hkey]
      exact does_pure ()
    | some key =>
      simp only [Option.bind_some, hkey]
      refine (does_work (gives_includes d)).bind
        (Does.bind (does_modify fun x hx => ?_) (does_log _))
      have index : x.index.set key (includesOf t d) = s.index.set key (includesOf t d) := by
        rw [hx.index]
      exact ⟨hx.session, index, hx.buffers, hx.published, hx.connected⟩

/-- What is not in the index need not be taken out. -/
lemma erase_of_get?_eq_none {i : ImportIndex} {key : Path} (h : i.get? key = none) :
    i.erase key = i := by
  have unknown := List.lookup_eq_none_iff.1 h
  have same : Keyed.erase i.entries key = i.entries := by
    rw [Keyed.erase, List.filter_eq_self]
    intro x hx
    have ne := unknown x hx
    simp only [bne_iff_ne, ne_eq] at ne ⊢
    exact fun same => ne same.symm
  rw [ImportIndex.erase, same]

lemma does_unregister (path : String) :
    Does t (unregister path) s (.ok ()) (s.forgetting t (Path.ofString path)) := by
  refine Does.of_read ?_
  unfold Server.forgetting
  cases t.indexKey? (Path.ofString path) with
  | none => exact does_pure ()
  | some key =>
    refine Does.of_get fun x hx => ?_
    rw [hx.index]
    by_cases known : (s.index.get? key).isSome
    · rw [if_pos known]
      refine Does.bind (does_modify fun y hy => ?_) (does_log _)
      have index : y.index.erase key = s.index.erase key := by rw [hy.index]
      exact ⟨hy.session, index, hy.buffers, hy.published, hy.connected⟩
    · rw [if_neg known]
      rw [Option.not_isSome_iff_eq_none] at known
      dsimp only
      rw [erase_of_get?_eq_none known]
      exact does_pure ()

/-! ## Documents -/

/-- A lookup in a server like `s` gives what the session of `s` shows, and leaves such a server. -/
lemma run_getDocument_of_alike {x : Server} (hx : s.Alike t x) (p : Path) :
    ∃ r y, x.run t (work (Work.getDocument p)) = (r, y) ∧ s.Alike t y ∧
      r.map (Option.map StoredDocument.document) = s.session.shown t p := by
  rw [Server.run_work, Session.run_getDocument]
  refine ⟨_, _, rfl, hx.withSession (hx.session.lookups (.get p .refl) rfl rfl), ?_⟩
  rw [← hx.session.shown, ← Session.answer_eq_shown hx.session.right]
  rfl

/-- What a lookup gives depends only on what the session shows, apart from its number. -/
lemma Does.getDocument_bind {f : Option StoredDocument → Serve β} {p : Path} {d? : Option Document}
    {r : Except Failure β} (shown : s.session.shown t p = .ok d?)
    (hf : ∀ stored?, stored?.map StoredDocument.document = d? → Does t (f stored?) s r s') :
    Does t (work (Work.getDocument p) >>= f) s r s' := by
  intro x hx
  obtain ⟨result, y, run, alike, same⟩ := run_getDocument_of_alike hx p
  rw [Server.run_bind, run]
  rw [shown] at same
  cases result with
  | error e => cases same
  | ok stored? => exact hf stored? (Except.ok.inj same) y alike

lemma Does.getDocument_error {f : Option StoredDocument → Serve β} {p : Path} {e : Failure}
    (shown : s.session.shown t p = .error e) :
    Does t (work (Work.getDocument p) >>= f) s (.error e) s := by
  intro x hx
  obtain ⟨result, y, run, alike, same⟩ := run_getDocument_of_alike hx p
  rw [Server.run_bind, run]
  rw [shown] at same
  cases result with
  | error e' =>
    cases same
    exact ⟨rfl, alike⟩
  | ok stored? => cases same

lemma Does.setOverlay_bind {f : StoredDocument → Serve β} {p : Path} {text : String} {d : Document}
    {r : Except Failure β} (parse : Document.parse text (some p) none = .ok d)
    (hf : ∀ stored, stored.document = d → Does t (f stored) (s.holding t p text) r s') :
    Does t (work (Work.answer fun t s => s.setOverlay t (some p) text) >>= f) s r s' := by
  intro x hx
  have stored : x.session.store.parse text (some p) none =
      .ok (⟨x.session.store.nextSerial, d⟩,
        { x.session.store with nextSerial := x.session.store.nextSerial + 1 }) := by
    rw [DocumentStore.parse, parse]
  have result : (x.session.store.setOverlay t (some p) text).result =
      .ok ⟨x.session.store.nextSerial, d⟩ := by
    rw [DocumentStore.setOverlay, stored]
  have alike := hx.holding (p := p) parse
  rw [Server.run_bind, Server.run_work, Session.run_answer, result]
  exact hf _ rfl _ ⟨alike.session.lookups .refl rfl rfl, alike.index, alike.buffers,
    alike.published, alike.connected⟩

lemma does_invalidate {uri path : String} (hpath : FileUri.toPath uri = .ok path) :
    Does t (invalidate uri) s (.ok ()) s := by
  refine (does_pathOf hpath).bind fun x hx => ?_
  rw [Server.run_work]
  refine ⟨rfl, hx.withSession ?_⟩
  refine ⟨hx.session.left, ⟨hx.session.right.1, fun e he => ?_⟩, hx.session.overlays,
    hx.session.grammar⟩
  exact hx.session.right.2 e (List.mem_filter.1 he).1

/-! ## Taking texts over and giving them back -/

/-- The text of a description is taken over and its imports, if they are asked for, and its
diagnostics are sent. -/
lemma does_process {uri path text : String} {d : Document} (truthful : s.session.store.Truthful t)
    (connected : s.connected = true) (hpath : FileUri.toPath uri = .ok path)
    (ksy : Ksy.isFile (Path.ofString path))
    (parse : Document.parse text (some (Path.ofString path)) none = .ok d) (reindex : Bool) :
    let held := s.holding t (Path.ofString path) text
    Does t (process uri text reindex) s (.ok ())
      ((if reindex then held.indexing t d else held).sending
        [⟨uri, held.session.diagnosticsOf t d⟩]) := by
  intro held
  have heldTruthful : held.session.store.Truthful t := Server.truthful_holding truthful
  refine (does_pathOf hpath).bind ?_
  rw [if_pos ksy]
  refine Does.setOverlay_bind parse fun stored hstored => ?_
  rw [hstored]
  cases reindex with
  | false =>
    exact (does_diagnose heldTruthful uri d).bind (does_tryPublish (by exact connected) uri _)
  | true =>
    refine (does_updateIndex d).bind ?_
    have check := does_diagnose (s := held.indexing t d)
      (by rw [Server.session_indexing]; exact heldTruthful) uri d
    rw [Server.session_indexing] at check
    refine check.bind (does_tryPublish ?_ uri _)
    rw [Server.connected_indexing]
    exact connected

/-- A text that the parser does not take is left alone. -/
lemma does_process_error {uri path text : String} {fault : Yaml.ScalarFault}
    (hpath : FileUri.toPath uri = .ok path) (ksy : Ksy.isFile (Path.ofString path))
    (parse : Document.parse text (some (Path.ofString path)) none = .error fault) (reindex : Bool) :
    Does t (process uri text reindex) s (.error (.scalar fault)) s := by
  refine (does_pathOf hpath).bind ?_
  rw [if_pos ksy]
  refine Does.bind_error fun x hx => ?_
  have refused : x.session.store.setOverlay t (some (Path.ofString path)) text =
      ⟨.error (.scalar fault), x.session.store, []⟩ := by
    rw [DocumentStore.setOverlay, DocumentStore.parse, parse]
  rw [Server.run_work, Session.run_answer, refused]
  exact ⟨rfl, hx.withSession (hx.session.lookups .refl rfl rfl)⟩

/-- The text of a file that is no description is left alone. -/
lemma does_process_of_not_ksy {uri path text : String} (hpath : FileUri.toPath uri = .ok path)
    (other : ¬ Ksy.isFile (Path.ofString path)) (reindex : Bool) :
    Does t (process uri text reindex) s (.ok ()) s := by
  refine (does_pathOf hpath).bind ?_
  rw [if_neg other]
  exact does_pure ()

/-- The server after it has followed what is shown for a path. -/
def followed (t : FileTree) (s : Server) (p : Path) (d? : Option Document) : Server :=
  match d? with
  | some d => s.indexing t d
  | none => s.forgetting t p

section Followed

variable (t : FileTree) (s : Server) (p : Path) (d? : Option Document)

@[simp] lemma session_followed : (followed t s p d?).session = s.session := by
  cases d? <;> simp [followed]

@[simp] lemma buffers_followed : (followed t s p d?).buffers = s.buffers := by
  cases d? <;> simp [followed]

@[simp] lemma published_followed : (followed t s p d?).published = s.published := by
  cases d? <;> simp [followed]

end Followed

lemma does_removeOverlay (p : Path) :
    Does t (work (Work.modifyStore fun t s => s.removeOverlay t p)) s (.ok ())
      (s.dropping t p) := by
  intro x hx
  rw [Server.run_work]
  exact ⟨rfl, hx.dropping⟩

lemma does_release {uri path : String} {d? : Option Document} (connected : s.connected = true)
    (hpath : FileUri.toPath uri = .ok path) (ksy : Ksy.isFile (Path.ofString path))
    (shown : (s.dropping t (Path.ofString path)).session.shown t (Path.ofString path) = .ok d?) :
    Does t (release uri) s (.ok ())
      ((followed t (s.dropping t (Path.ofString path)) (Path.ofString path) d?).sending
        [⟨uri, []⟩]) := by
  refine (does_pathOf hpath).bind ?_
  dsimp only
  rw [if_pos ksy]
  refine (does_removeOverlay _).bind (Does.getDocument_bind shown fun stored? same => ?_)
  cases stored? with
  | some stored =>
    cases same
    refine (does_updateIndex _).bind (does_publish ?_ uri [])
    rw [Server.connected_indexing]
    exact connected
  | none =>
    cases same
    refine (does_unregister path).bind (does_publish ?_ uri [])
    rw [Server.connected_forgetting]
    exact connected

/-- The text is given back also if the file cannot be read. -/
lemma does_release_error {uri path : String} {e : Failure} (hpath : FileUri.toPath uri = .ok path)
    (ksy : Ksy.isFile (Path.ofString path))
    (shown : (s.dropping t (Path.ofString path)).session.shown t (Path.ofString path) = .error e) :
    Does t (release uri) s (.error e) (s.dropping t (Path.ofString path)) := by
  refine (does_pathOf hpath).bind ?_
  dsimp only
  rw [if_pos ksy]
  exact (does_removeOverlay _).bind (Does.getDocument_error shown)

lemma does_release_of_not_ksy {uri path : String} (hpath : FileUri.toPath uri = .ok path)
    (other : ¬ Ksy.isFile (Path.ofString path)) : Does t (release uri) s (.ok ()) s := by
  refine (does_pathOf hpath).bind ?_
  dsimp only
  rw [if_neg other]
  exact does_pure ()

end Serve

/-! ## Checking documents again -/

namespace Server

/-- If a URI is that of an open description, the store holds the document of its buffer. -/
def Mirrored (t : FileTree) (s : Server) (uri : String) : Prop :=
  ∀ text path, s.buffer? uri = some text → FileUri.toPath uri = .ok path →
    Ksy.isFile (Path.ofString path) →
    ∃ d, Document.parse text (some (Path.ofString path)) none = .ok d ∧
      (s.session.store.overlay? (t.key (Path.ofString path))).map StoredDocument.document = some d

/-- What is sent for a URI when it is checked: the diagnostics of its document, if it is that of an
open description. -/
def checkOf (t : FileTree) (s : Server) (uri : String) : List Publication :=
  match s.buffer? uri, FileUri.toPath uri with
  | some _, .ok path =>
    if Ksy.isFile (Path.ofString path) then
      match s.session.shown t (Path.ofString path) with
      | .ok (some d) => [⟨uri, s.session.diagnosticsOf t d⟩]
      | _ => []
    else []
  | _, _ => []

/-- What is sent when a file is checked. -/
def checksOf (t : FileTree) (s : Server) (p : Path) : List Publication :=
  match FileUri.ofPath p with
  | .ok uri => s.checkOf t uri
  | .error _ => []

variable {t : FileTree} {s s' : Server}

/-- An open description that the store holds is checked. -/
lemma checkOf_of_held {uri text path : String} {d : Document} (hbuffer : s.buffer? uri = some text)
    (hpath : FileUri.toPath uri = .ok path) (ksy : Ksy.isFile (Path.ofString path))
    (held : (s.session.store.overlay? (t.key (Path.ofString path))).map StoredDocument.document =
      some d) : s.checkOf t uri = [⟨uri, s.session.diagnosticsOf t d⟩] := by
  have shown : s.session.shown t (Path.ofString path) = .ok (some d) := by
    rw [Session.shown, held]
  simp only [checkOf, hbuffer, hpath, ksy, if_true, shown]

end Server

namespace Serve

variable {t : FileTree} {s : Server}

lemma does_recheck_of_closed {p : Path} {uri : String} (huri : FileUri.ofPath p = .ok uri)
    (hbuffer : s.buffer? uri = none) : Does t (recheck p) s (.ok ()) s := by
  unfold recheck uriOf
  rw [huri]
  refine (does_pure uri).bind (Does.of_get fun x hx => ?_)
  rw [hx.buffer?, hbuffer]
  exact does_pure ()

/-- The text of an open file is taken over again; if that fails the failure is only logged. -/
lemma does_recheck_of_open {p : Path} {uri text : String} {r : Except Failure Unit} {s' : Server}
    (huri : FileUri.ofPath p = .ok uri) (hbuffer : s.buffer? uri = some text)
    (process : Does t (process uri text false) s r s') : Does t (recheck p) s (.ok ()) s' := by
  unfold recheck uriOf
  rw [huri]
  refine (does_pure uri).bind (Does.of_get fun x hx => ?_)
  rw [hx.buffer?, hbuffer]
  cases r with
  | ok _ => exact process.tryCatch
  | error e => exact process.tryCatch_error (does_log _)

lemma does_recheck {p : Path} (truthful : s.session.store.Truthful t)
    (connected : s.connected = true)
    (absolute : p.isAbsolute) (mirrored : ∀ uri, FileUri.ofPath p = .ok uri → s.Mirrored t uri) :
    Does t (recheck p) s (.ok ()) (s.sending (s.checksOf t p)) := by
  obtain ⟨uri, huri⟩ : ∃ uri, FileUri.ofPath p = .ok uri := by
    rw [FileUri.ofPath, if_pos absolute]
    exact ⟨_, rfl⟩
  have sent : s.checksOf t p = s.checkOf t uri := by rw [Server.checksOf, huri]
  rw [sent]
  cases hbuffer : s.buffer? uri with
  | none =>
    have nothing : s.checkOf t uri = [] := by simp only [Server.checkOf, hbuffer]
    rw [nothing, Server.sending_nil]
    exact does_recheck_of_closed huri hbuffer
  | some text =>
    cases hpath : FileUri.toPath uri with
    | error fault =>
      have nothing : s.checkOf t uri = [] := by simp only [Server.checkOf, hbuffer, hpath]
      rw [nothing, Server.sending_nil]
      exact does_recheck_of_open huri hbuffer (does_pathOf_error hpath).bind_error
    | ok path =>
      by_cases ksy : Ksy.isFile (Path.ofString path)
      · -- the text is held already
        obtain ⟨d, parse, held⟩ := mirrored uri huri text path hbuffer hpath ksy
        have check := Server.checkOf_of_held hbuffer hpath ksy held
        have alike := Server.alike_holding truthful held parse
        have process := does_process truthful connected hpath ksy parse false
        simp only [Bool.false_eq_true, if_false, alike.session.diagnosticsOf] at process
        rw [check]
        refine does_recheck_of_open huri hbuffer (process.congr ?_)
        exact ⟨alike.session, alike.index, alike.buffers, rfl, alike.connected⟩
      · have nothing : s.checkOf t uri = [] := by
          simp only [Server.checkOf, hbuffer, hpath, ksy, Bool.false_eq_true, if_false]
        rw [nothing, Server.sending_nil]
        exact does_recheck_of_open huri hbuffer (does_process_of_not_ksy hpath ksy false)

/-- Checking files again only sends the diagnostics of the open descriptions among them. -/
lemma does_forM_recheck {ps : List Path} (truthful : s.session.store.Truthful t)
    (connected : s.connected = true) (absolute : ∀ p ∈ ps, p.isAbsolute)
    (mirrored : ∀ p ∈ ps, ∀ uri, FileUri.ofPath p = .ok uri → s.Mirrored t uri) :
    Does t (ps.forM recheck) s (.ok ()) (s.sending (ps.flatMap (s.checksOf t))) := by
  induction ps generalizing s with
  | nil =>
    rw [List.flatMap_nil, Server.sending_nil]
    exact does_pure ()
  | cons p rest ih =>
    have first := does_recheck truthful connected (absolute p List.mem_cons_self)
      (mirrored p List.mem_cons_self)
    have others := ih (s := s.sending (s.checksOf t p)) truthful connected
      (fun q hq => absolute q (List.mem_cons_of_mem p hq))
      (fun q hq => mirrored q (List.mem_cons_of_mem p hq))
    have same : (s.sending (s.checksOf t p)).checksOf t = s.checksOf t := rfl
    rw [same, Server.sending_sending] at others
    exact first.bind others

/-- When dependents of a file are checked, nothing changes but what is sent. -/
lemma does_recheckDependents {uri path : String} (truthful : s.session.store.Truthful t)
    (connected : s.connected = true) (hpath : FileUri.toPath uri = .ok path)
    (absolute : ∀ k ∈ s.index.dependents t (Path.ofString path), k.isAbsolute)
    (mirrored : ∀ k ∈ s.index.dependents t (Path.ofString path), ∀ other,
      FileUri.ofPath k = .ok other → s.Mirrored t other) :
    Does t (recheckDependents uri) s (.ok ())
      (s.sending ((s.index.dependents t (Path.ofString path)).flatMap (s.checksOf t))) := by
  refine (does_pathOf hpath).bind (Does.of_get fun x hx => Does.of_read ?_)
  rw [hx.index]
  exact does_forM_recheck truthful connected absolute mirrored

/-- The server after it has noticed a change of a file for which `d?` is shown, and before it checks
the dependents: a file that was deleted is forgotten, and one without a document stays as it was. -/
def noticed (t : FileTree) (s : Server) (p : Path) (change : FileChange) (d? : Option Document) :
    Server :=
  match change, d? with
  | .deleted, _ => s.forgetting t p
  | _, some d => s.indexing t d
  | _, none => s

section Noticed

variable (t : FileTree) (s : Server) (p : Path) (change : FileChange) (d? : Option Document)

@[simp] lemma session_noticed : (noticed t s p change d?).session = s.session := by
  cases change <;> cases d? <;> simp [noticed]

@[simp] lemma buffers_noticed : (noticed t s p change d?).buffers = s.buffers := by
  cases change <;> cases d? <;> simp [noticed]

@[simp] lemma published_noticed : (noticed t s p change d?).published = s.published := by
  cases change <;> cases d? <;> simp [noticed]

end Noticed

lemma does_fileChanged {uri path : String} {change : FileChange} {d? : Option Document}
    {s' : Server} (hpath : FileUri.toPath uri = .ok path)
    (shown : change = .deleted ∨ s.session.shown t (Path.ofString path) = .ok d?)
    (rest : Does t (recheckDependents uri) (noticed t s (Path.ofString path) change d?) (.ok ())
      s') :
    Does t (fileChanged uri change) s (.ok ()) s' := by
  refine (does_invalidate hpath).bind ((does_pathOf hpath).bind ?_)
  cases change with
  | deleted => exact (does_unregister path).bind rest
  | created | changed =>
    have shown := shown.resolve_left (by simp)
    refine Does.getDocument_bind shown fun stored? same => ?_
    cases stored? with
    | none =>
      cases same
      exact rest
    | some stored =>
      cases same
      exact (does_updateIndex stored.document).bind rest

end Serve

end KsyTools
