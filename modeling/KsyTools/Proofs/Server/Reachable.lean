/-
# Servers that can be reached

Whatever a client sends to a fresh server, and however the files change in between, the server goes
on in small steps: its store is used, buffers come and go, and files are put into the index and
taken out of it.  A property that all of these steps keep is true of every server that can be
reached.  One is that the client stays connected, that the index knows files by absolute paths only,
and that every document that is kept was read from the files as they were at some time.  So all that
is kept is current, as long as a file that has changed has a new signature.
-/
import KsyTools.Proofs.Server.Buffers
import KsyTools.Proofs.Server.Dependents
import KsyTools.Proofs.Store.Runs

namespace KsyTools

open DocumentStore (Lookups)

/-- Files with the same signature are read in the same way at all of some times; see
`World.SignaturesTellApart` for what this leaves aside. -/
def FileTree.TellApart (trees : List FileTree) : Prop :=
  ∀ t ∈ trees, ∀ t' ∈ trees, ∀ key signature, t.signature? key = some signature →
    t'.signature? key = some signature → t.readText key = t'.readText key

/-- A computation that keeps a property of servers, whether or not it fails. -/
def Serve.Keeps {α : Type} (t : FileTree) (P : Server → Prop) (w : Serve α) : Prop :=
  ∀ s, P s → P (s.run t w).2

namespace Serve.Keeps

variable {α β : Type} {t : FileTree} {P : Server → Prop}

lemma pure (a : α) : Keeps t P (Pure.pure a : Serve α) := fun _ hs => hs

lemma throw (e : Failure) : Keeps t P (MonadExcept.throw e : Serve α) := fun _ hs => hs

lemma get : Keeps t P (MonadState.get : Serve Server) := fun _ hs => hs

lemma bind {w : Serve α} {f : α → Serve β} (hw : Keeps t P w) (hf : ∀ a, Keeps t P (f a)) :
    Keeps t P (w >>= f) := by
  intro s hs
  have kept := hw s hs
  rw [Server.run_bind]
  rcases run : s.run t w with ⟨e | a, s'⟩
  · rwa [run] at kept
  · rw [run] at kept
    exact hf a s' kept

/-- A computation that reads the files reads those that are there. -/
lemma of_read {f : FileTree → Serve β} (h : Keeps t P (f t)) :
    Keeps t P (MonadReader.read >>= f) := by
  intro s hs
  rw [Server.run_bind]
  exact h s hs

/-- A computation that reads the server reads one with the property. -/
lemma of_get {f : Server → Serve β} (h : ∀ s, P s → Keeps t P (f s)) :
    Keeps t P (MonadState.get >>= f) := by
  intro s hs
  rw [Server.run_bind]
  exact h s hs s hs

lemma tryCatch {w : Serve α} {handler : Failure → Serve α} (hw : Keeps t P w)
    (hhandler : ∀ e, Keeps t P (handler e)) : Keeps t P (MonadExcept.tryCatch w handler) := by
  intro s hs
  have kept := hw s hs
  rw [Server.run_tryCatch]
  rcases run : s.run t w with ⟨e | a, s'⟩
  · rw [run] at kept
    exact hhandler e s' kept
  · rwa [run] at kept

lemma forM {f : α → Serve Unit} {xs : List α} (hf : ∀ x ∈ xs, Keeps t P (f x)) :
    Keeps t P (xs.forM f) := by
  induction xs with
  | nil => exact pure ()
  | cons x rest ih =>
    exact (hf x List.mem_cons_self).bind fun _ => ih fun y hy => hf y (List.mem_cons_of_mem x hy)

lemma pathOf_bind {uri : String} {f : String → Serve β}
    (hf : ∀ path, FileUri.toPath uri = .ok path → Keeps t P (f path)) :
    Keeps t P (Serve.pathOf uri >>= f) := by
  unfold Serve.pathOf
  cases hpath : FileUri.toPath uri with
  | error fault => exact throw (.address fault)
  | ok path => exact hf path hpath

end Serve.Keeps

/-! ## Properties that every step keeps -/

/-- A URI that leads to an allowed path, if it leads anywhere. -/
def FileUri.Into (allowed : Path → Prop) (uri : String) : Prop :=
  ∀ path, toPath uri = .ok path → allowed (Path.ofString path)

/-- The URIs that an event names. -/
def Event.uris : Event → List String
  | .connected root? folders => root?.toList ++ folders
  | .opened uri _ | .edited uri _ | .saved uri _ | .closed uri => [uri]
  | .filesChanged changes => changes.map Prod.fst

/-- A property of servers that every step of a handler keeps.  Texts are taken over and files are
indexed for allowed paths only, and the paths that come up in a handler are allowed. -/
structure Server.Stable (t : FileTree) (allowed : Path → Prop) (P : Server → Prop) : Prop where
  stored {s : Server} {e : StoreEvent} {session : Session} (hs : P s)
    (texts : ∀ p text, e = .setOverlay (some p) text → allowed p)
    (store : session.store = (World.after ⟨t, s.session.store⟩ e).store) : P { s with session }
  told {s : Server} {buffers : List (String × String)} {published : List Publication} (hs : P s) :
    P { s with buffers, published }
  indexed {s : Server} {p key : Path} {includes : List Ksy.Include} (hs : P s) (hp : allowed p)
    (hkey : t.indexKey? p = some key) : P { s with index := s.index.set key includes }
  forgotten {s : Server} {key : Path} (hs : P s) : P { s with index := s.index.erase key }
  /-- The files of the documents that the store gives. -/
  given {s : Server} {p file : Path} {d : Document} (hs : P s) (hp : allowed p)
    (answer : s.session.store.answer t p = .ok (some d)) (hfile : d.file? = some file) :
    allowed file
  /-- The files that the index knows. -/
  known {s : Server} {e : Path × List Ksy.Include} {uri : String} (hs : P s)
    (he : e ∈ s.index.entries) (huri : FileUri.ofPath e.1 = .ok uri) : FileUri.Into allowed uri
  /-- The descriptions below a folder. -/
  below {p file : Path} {files : List Path} (hp : allowed p)
    (hfiles : Serve.descriptionsBelow t p = .ok files) (hfile : file ∈ files) : allowed file

namespace Server.Stable

open Serve (Keeps)

variable {α β : Type} {t : FileTree} {allowed : Path → Prop} {P : Server → Prop} {uri : String}
  {d : Document} {p : Path} (h : Stable t allowed P)

include h

lemma lookups {s : Server} (hs : P s) {session : Session}
    (asked : Lookups t s.session.store session.store) : P { s with session } := by
  generalize hstore : session.store = store at asked
  induction asked generalizing session with
  | refl => exact h.stored (e := .findFile ⟨.slash, []⟩ "") hs nofun hstore
  | @get store p _ ih =>
    have before : P { s with session := { session with store } } := ih rfl
    have after : P { { s with session := { session with store } } with session } :=
      h.stored (e := .get p) before nofun hstore
    exact after

lemma work {w : Work α} (hw : w.OnlyAsks) : Keeps t P (Serve.work w) := by
  intro s hs
  rw [Server.run_work]
  exact h.lookups hs (hw.lookups s.session t)

lemma log (record : LogRecord) : Keeps t P (Serve.log record) := h.work (.log record)

lemma setBuffers (f : Server → List (String × String)) :
    Keeps t P (modify fun s => { s with buffers := f s } : Serve PUnit) :=
  fun _ hs => h.told hs

/-- A document that is given for an allowed path is that of an allowed file. -/
lemma getDocument_bind {f : Option StoredDocument → Serve β} (hp : allowed p)
    (hnone : Keeps t P (f none))
    (hsome : ∀ d, (∀ file, d.document.file? = some file → allowed file) → Keeps t P (f (some d))) :
    Keeps t P (Serve.work (Work.getDocument p) >>= f) := by
  intro s hs
  have kept := h.work (.getDocument p) s hs
  rw [Server.run_work, Session.run_getDocument] at kept
  rw [Server.run_bind, Server.run_work, Session.run_getDocument]
  cases result : (s.session.store.get t p).result with
  | error e => exact kept
  | ok d? =>
    cases d? with
    | none => exact hnone _ kept
    | some d =>
      have answer : s.session.store.answer t p = .ok (some d.document) := by
        rw [DocumentStore.answer, result]
        rfl
      exact hsome d (fun _ => h.given hs hp answer) _ kept

/-- A text that is taken over for an allowed path gives a document of it. -/
lemma setOverlay_bind {f : StoredDocument → Serve β} {text : String} (hp : allowed p)
    (hf : ∀ d, (∀ file, d.document.file? = some file → allowed file) → Keeps t P (f d)) :
    Keeps t P (Serve.work (Work.answer fun t s => s.setOverlay t (some p) text) >>= f) := by
  intro s hs
  have texts : ∀ q content, StoreEvent.setOverlay (some p) text = .setOverlay (some q) content →
      allowed q := by
    intro q content same
    cases same
    exact hp
  rw [Server.run_bind, Server.run_work, Session.run_answer]
  have kept : P { s with session := { s.session with
      store := (s.session.store.setOverlay t (some p) text).store
      log := s.session.log ++ (s.session.store.setOverlay t (some p) text).log } } :=
    h.stored hs texts rfl
  cases result : (s.session.store.setOverlay t (some p) text).result with
  | error e => exact kept
  | ok d =>
    refine hf d (fun file hfile => ?_) _ kept
    obtain rfl : p = file :=
      Option.some.inj ((DocumentStore.file?_setOverlay result).symm.trans hfile)
    exact hp

lemma publish (uri : String) (ds : List Diagnostic) : Keeps t P (Serve.publish uri ds) := by
  refine Keeps.get.bind fun s => ?_
  split
  · exact fun s hs => h.told hs
  · exact .throw _

lemma tryPublish (uri : String) (ds : List Diagnostic) : Keeps t P (Serve.tryPublish uri ds) :=
  ((h.log _).bind fun _ => h.publish uri ds).tryCatch fun _ => h.log _

lemma diagnose (uri : String) (d : Document) : Keeps t P (Serve.diagnose uri d) :=
  (h.work (.diagnostics d)).tryCatch fun _ => (h.log _).bind fun _ => .pure []

lemma updateIndex (hd : ∀ file, d.file? = some file → allowed file) :
    Keeps t P (Serve.updateIndex d) := by
  unfold Serve.updateIndex
  split
  · exact .pure ()
  next file hfile =>
    refine .of_read ?_
    split
    · exact .pure ()
    next key hkey =>
      refine (h.work (.includes d)).bind fun includes =>
        Keeps.bind (fun s hs => ?_) fun _ => h.log _
      exact h.indexed hs (hd file hfile) hkey

lemma unregister (path : String) : Keeps t P (Serve.unregister path) := by
  refine .of_read ?_
  split
  · exact .pure ()
  · refine Keeps.get.bind fun s => ?_
    split
    · exact Keeps.bind (fun s hs => h.forgotten hs) fun _ => h.log _
    · exact .pure ()

lemma process (huri : FileUri.Into allowed uri) (text : String) (reindex : Bool) :
    Keeps t P (Serve.process uri text reindex) := by
  refine .pathOf_bind fun path hpath => ?_
  dsimp only
  split
  · refine h.setOverlay_bind (huri path hpath) fun d hd => ?_
    have check := (h.diagnose uri d.document).bind fun ds => h.tryPublish uri ds
    split
    · exact (h.updateIndex hd).bind fun _ => check
    · exact check
  · exact .pure ()

lemma release (huri : FileUri.Into allowed uri) : Keeps t P (Serve.release uri) := by
  refine .pathOf_bind fun path hpath => ?_
  dsimp only
  split
  · have drop : Keeps t P
        (Serve.work (Work.modifyStore fun t s => s.removeOverlay t (Path.ofString path))) := by
      intro s hs
      rw [Server.run_work]
      exact h.stored (e := .removeOverlay (Path.ofString path)) hs nofun rfl
    refine drop.bind fun _ => h.getDocument_bind (huri path hpath) ?_ fun d hd => ?_
    · exact (h.unregister path).bind fun _ => h.publish uri []
    · exact (h.updateIndex hd).bind fun _ => h.publish uri []
  · exact .pure ()

lemma recheck (hp : ∀ uri, FileUri.ofPath p = .ok uri → FileUri.Into allowed uri) :
    Keeps t P (Serve.recheck p) := by
  unfold Serve.recheck Serve.uriOf
  cases huri : FileUri.ofPath p with
  | error fault => exact .throw _
  | ok uri =>
    rw [pure_bind]
    refine Keeps.get.bind fun s => ?_
    split
    · exact .pure ()
    · exact (h.process (hp uri huri) _ false).tryCatch fun _ => h.log _

lemma recheckDependents (uri : String) : Keeps t P (Serve.recheckDependents uri) := by
  refine .pathOf_bind fun path _ => .of_get fun s hs => .of_read (.forM fun k hk => h.recheck ?_)
  obtain ⟨e, he, rfl⟩ := ImportIndex.exists_entry_of_mem_dependents hk
  exact fun uri => h.known hs he

lemma invalidate (uri : String) : Keeps t P (Serve.invalidate uri) := by
  refine .pathOf_bind fun path _ s hs => ?_
  rw [Server.run_work]
  exact h.stored (e := .invalidate (Path.ofString path)) hs nofun rfl

lemma fileChanged (huri : FileUri.Into allowed uri) (change : FileChange) :
    Keeps t P (Serve.fileChanged uri change) := by
  refine (h.invalidate uri).bind fun _ => .pathOf_bind fun path hpath => ?_
  cases change with
  | deleted => exact (h.unregister path).bind fun _ => h.recheckDependents uri
  | created | changed =>
    refine h.getDocument_bind (huri path hpath) (h.recheckDependents uri) fun d hd => ?_
    exact (h.updateIndex hd).bind fun _ => h.recheckDependents uri

lemma indexFile (hp : allowed p) : Keeps t P (Serve.indexFile p) :=
  h.getDocument_bind hp (h.log _) fun _ hd => h.updateIndex hd

lemma indexFolder (huri : FileUri.Into allowed uri) : Keeps t P (Serve.indexFolder uri) := by
  refine .pathOf_bind fun path hpath => .of_read ?_
  split
  · exact .throw _
  next files hfiles =>
    have index : Keeps t P (files.forM Serve.indexFile) :=
      .forM fun p hp => h.indexFile (h.below (huri path hpath) hfiles hp)
    exact index.bind fun _ => Keeps.get.bind fun _ => h.log _

lemma handle (e : Event) (uris : ∀ uri ∈ e.uris, FileUri.Into allowed uri) :
    Keeps t P (Serve.handle e) := by
  cases e with
  | connected root? folders =>
    have folder (uri : String) (huri : uri ∈ root?.toList ++ folders) :=
      h.indexFolder (uris uri huri)
    refine (h.log _).bind fun _ => ?_
    split
    · exact .pure ()
    · split
      · exact folder _ (by simp)
      · exact .pure ()
    · exact .forM fun uri huri => folder uri (List.mem_append_right _ huri)
  | opened uri text =>
    have process := h.process (uris uri List.mem_cons_self) text true
    exact .pathOf_bind fun _ _ => (h.setBuffers _).bind fun _ => process
  | edited uri text =>
    refine Keeps.get.bind fun s => ?_
    have rest := (h.setBuffers fun s => Keyed.set s.buffers uri text).bind fun _ =>
      h.process (uris uri List.mem_cons_self) text true
    split
    · exact (Keeps.throw _).bind fun _ => rest
    · exact rest
  | saved uri text? =>
    refine (h.invalidate uri).bind fun _ => ?_
    cases text? with
    | some text =>
      exact (h.process (uris uri List.mem_cons_self) text true).bind fun _ =>
        h.recheckDependents uri
    | none => exact h.recheckDependents uri
  | closed uri =>
    have release := h.release (uris uri List.mem_cons_self)
    exact (h.setBuffers _).bind fun _ => release.bind fun _ => h.recheckDependents uri
  | filesChanged changes =>
    exact .forM fun c hc => h.fileChanged (uris c.1 (List.mem_map_of_mem hc)) c.2

omit h in
/-- What every step keeps is kept over every run of events. -/
lemma afterAll {s : Server} {events : List (FileTree × Event)} (hs : P s)
    (stable : ∀ x ∈ events, Stable x.1 allowed P)
    (uris : ∀ x ∈ events, ∀ uri ∈ x.2.uris, FileUri.Into allowed uri) : P (s.afterAll events) := by
  induction events generalizing s with
  | nil => exact hs
  | cons x rest ih =>
    have first := (stable x List.mem_cons_self).handle x.2 (uris x List.mem_cons_self) s hs
    exact ih first (fun y hy => stable y (List.mem_cons_of_mem x hy))
      fun y hy => uris y (List.mem_cons_of_mem x hy)

end Server.Stable

/-! ## Healthy servers -/

/-- The index knows files by absolute paths. -/
def ImportIndex.Absolute (i : ImportIndex) : Prop :=
  ∀ e ∈ i.entries, e.1.isAbsolute

namespace ImportIndex.Absolute

variable {i : ImportIndex} {t : FileTree} {p key : Path}

lemma set (h : i.Absolute) (hkey : t.indexKey? p = some key) (includes : List Ksy.Include) :
    (i.set key includes).Absolute := by
  have absolute : key.isAbsolute := by
    unfold FileTree.indexKey? FileTree.canonical at hkey
    split at hkey
    · cases hkey
    · cases hkey
      rfl
  intro e he
  rcases Keyed.mem_set.1 he with ⟨same, -⟩ | ⟨-, he⟩
  · rwa [same]
  · exact h e he

lemma erase (h : i.Absolute) (key : Path) : (i.erase key).Absolute :=
  fun e he => h e (Keyed.mem_erase.1 he).2

lemma of_mem_dependents (h : i.Absolute) {k : Path} (hk : k ∈ i.dependents t p) :
    k.isAbsolute := by
  obtain ⟨e, he, rfl⟩ := exists_entry_of_mem_dependents hk
  exact h e he

end ImportIndex.Absolute

namespace Server

/-- What is true of every server that can be reached. -/
structure Healthy (trees : List FileTree) (s : Server) : Prop where
  connected : s.connected = true
  canKeep : s.session.store.CanKeep
  /-- Every kept document was read from a file with its signature. -/
  kept : ∀ e ∈ s.session.store.cache, ∃ t ∈ trees, t.signature? e.key = some e.signature ∧
    t.documentAt e.key = .ok (some e.stored.document)
  keys : s.index.Absolute

variable {trees : List FileTree} {t : FileTree} {s : Server}

/-- All that a healthy server keeps is current. -/
lemma Healthy.truthful (h : s.Healthy trees) (tellApart : FileTree.TellApart trees)
    (ht : t ∈ trees) : s.session.store.Truthful t := by
  refine ⟨h.canKeep, fun e he now => ?_⟩
  obtain ⟨t', ht', signature, document⟩ := h.kept e he
  have text := tellApart t ht t' ht' e.key e.signature now signature
  rwa [FileTree.documentAt, text]

/-- Every step keeps a server healthy. -/
lemma Healthy.stable (ht : t ∈ trees) : Stable t (fun _ => True) (Healthy trees) where
  stored {s e session} hs _ store := by
    obtain ⟨enabled, size⟩ := World.settings_after ⟨t, s.session.store⟩ e
    rw [← store] at enabled size
    refine ⟨hs.connected, fun keeps => ?_, fun entry he => ?_, hs.keys⟩
    · rw [size]
      exact hs.canKeep (enabled ▸ keeps)
    · rcases World.mem_cache_after (store ▸ he) with he | ⟨-, read⟩
      · exact hs.kept entry he
      · exact ⟨t, ht, read⟩
  told hs := ⟨hs.connected, hs.canKeep, hs.kept, hs.keys⟩
  indexed hs _ hkey := ⟨hs.connected, hs.canKeep, hs.kept, hs.keys.set hkey _⟩
  forgotten hs := ⟨hs.connected, hs.canKeep, hs.kept, hs.keys.erase _⟩
  given _ _ _ _ := trivial
  known _ _ _ _ _ := trivial
  below _ _ _ := trivial

/-- A fresh server is healthy. -/
lemma healthy_start (trees : List FileTree) (cacheEnabled : Bool) {maxCacheSize : Int}
    (size : 0 ≤ maxCacheSize) (grammarFile? : Option Path) :
    (start (.start cacheEnabled maxCacheSize grammarFile?)).Healthy trees where
  connected := rfl
  canKeep _ := size
  kept _ he := absurd he List.not_mem_nil
  keys _ he := absurd he List.not_mem_nil

/-- Over every run of events a server stays healthy. -/
lemma Healthy.afterAll (h : s.Healthy trees) {events : List (FileTree × Event)}
    (ht : ∀ x ∈ events, x.1 ∈ trees) : (s.afterAll events).Healthy trees :=
  Stable.afterAll h (fun x hx => stable (ht x hx)) fun _ _ _ _ _ _ => trivial

end Server

end KsyTools
