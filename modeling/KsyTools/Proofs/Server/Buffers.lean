/-
# Buffers and overlays

A server keeps a text for every open description in its store.  Over every run of events, with the
files changing in between, the texts in the store are those of the open buffers: none is missing,
none is left behind, and none is out of date.
-/
import KsyTools.Proofs.Files.LinkFree
import KsyTools.Proofs.Server.Run

namespace KsyTools

/-! ## Runs of a server -/

/-- The key under which the store holds the text of a URI; only format descriptions have one. -/
def overlayKey? (cwd : Path) (uri : String) : Option Path :=
  match FileUri.toPath uri with
  | .ok path =>
    if Ksy.isFile (Path.ofString path) then some (Path.absolute cwd (Path.ofString path)) else none
  | .error _ => none

/-- A text that can be parsed; what is not well formed counts as parsed. -/
def Parses (text : String) : Prop :=
  ∃ d, Document.parse text none none = .ok d

namespace Server

/-- An event that a client can send in a state of the server: it opens documents that the
parser takes and that are not open under another URI, and it changes, saves and closes only
what is open. -/
def Admits (cwd : Path) (s : Server) : Event → Prop
  | .connected _ _ => True
  | .opened uri text => Parses text ∧
      ∀ other key, other ≠ uri → (s.buffer? other).isSome → overlayKey? cwd other = some key →
        overlayKey? cwd uri ≠ some key
  | .edited uri text => (s.buffer? uri).isSome ∧ Parses text
  | .saved uri text? => ∃ text, s.buffer? uri = some text ∧ (text? = none ∨ text? = some text)
  | .closed uri => (s.buffer? uri).isSome
  | .filesChanged _ => True

/-- The server after an event has been handled, whether or not that has failed. -/
def after (s : Server) (t : FileTree) (e : Event) : Server :=
  (s.run t (Serve.handle e)).2

/-- The server after some events, each with the files as they are then. -/
def afterAll (s : Server) : List (FileTree × Event) → Server
  | [] => s
  | (t, e) :: rest => (s.after t e).afterAll rest

/-- A run of events that a client can send.  The files can change between any two events; the
current directory stays. -/
def AdmitsAll (cwd : Path) (s : Server) : List (FileTree × Event) → Prop
  | [] => True
  | (t, e) :: rest => t.cwd = cwd ∧ s.Admits cwd e ∧ (s.after t e).AdmitsAll cwd rest

/-! ## The invariant -/

/-- The texts in the store are those of the open descriptions, no two of which have the same key. -/
structure InStep (cwd : Path) (s : Server) : Prop where
  /-- A text is in the store exactly if it is that of an open description. -/
  texts : ∀ key text, (∃ d, (key, d) ∈ s.session.store.overlays ∧ d.document.source = text) ↔
    ∃ uri, s.buffer? uri = some text ∧ overlayKey? cwd uri = some key
  distinct : ∀ uri other key, (s.buffer? uri).isSome → (s.buffer? other).isSome →
    overlayKey? cwd uri = some key → overlayKey? cwd other = some key → uri = other
  parse : ∀ uri text, s.buffer? uri = some text → Parses text

variable {cwd : Path} {s s' : Server} {t : FileTree}

lemma buffer?_congr (h : s'.buffers = s.buffers) (uri : String) :
    s'.buffer? uri = s.buffer? uri := by
  rw [buffer?, h, buffer?]

lemma InStep.congr (h : s.InStep cwd) (hb : s'.buffers = s.buffers)
    (ho : s'.session.store.overlays = s.session.store.overlays) : s'.InStep cwd := by
  have hbuffer := buffer?_congr hb
  constructor
  · intro key text
    simpa only [ho, hbuffer] using h.texts key text
  · intro uri other key
    simpa only [hbuffer] using h.distinct uri other key
  · intro uri text
    simpa only [hbuffer] using h.parse uri text

end Server

/-- A computation that leaves the buffers alone and keeps the texts in the store in step with
them. -/
structure Serve.KeepsStep (cwd : Path) {α : Type} (w : Serve α) : Prop where
  keeps : ∀ (s : Server) (t : FileTree), t.cwd = cwd → s.InStep cwd →
    (s.run t w).2.InStep cwd ∧ (s.run t w).2.buffers = s.buffers

namespace Serve

variable {α β : Type} {cwd : Path} {s : Server} {t : FileTree} {uri text : String}

lemma Quiet.keepsStep {w : Serve α} (hw : Quiet w) : KeepsStep cwd w :=
  ⟨fun s t _ h => ⟨h.congr (hw.buffers s t) (hw.overlays s t), hw.buffers s t⟩⟩

/-- What follows a first step of a computation keeps what that step has kept. -/
lemma KeepsStep.after_bind {w : Serve α} {f : α → Serve β} {s' : Server} (ht : t.cwd = cwd)
    (hw : (s.run t w).2.InStep cwd ∧ (s.run t w).2.buffers = s'.buffers)
    (hf : ∀ a, KeepsStep cwd (f a)) :
    (s.run t (w >>= f)).2.InStep cwd ∧ (s.run t (w >>= f)).2.buffers = s'.buffers := by
  rw [Server.run_bind]
  rcases hrun : s.run t w with ⟨e | a, s₁⟩
  · rwa [hrun] at hw
  · rw [hrun] at hw
    obtain ⟨hinStep, hbuffers⟩ := (hf a).keeps s₁ t ht hw.1
    exact ⟨hinStep, hbuffers.trans hw.2⟩

lemma KeepsStep.bind {w : Serve α} {f : α → Serve β} (hw : KeepsStep cwd w)
    (hf : ∀ a, KeepsStep cwd (f a)) : KeepsStep cwd (w >>= f) :=
  ⟨fun s t ht hs => after_bind ht (hw.keeps s t ht hs) hf⟩

lemma KeepsStep.forM {f : α → Serve Unit} (hf : ∀ a, KeepsStep cwd (f a)) (xs : List α) :
    KeepsStep cwd (xs.forM f) := by
  induction xs with
  | nil => exact (Quiet.pure ()).keepsStep
  | cons x rest ih => exact (hf x).bind fun _ => ih

/-! ## Taking over a text -/

/-- Whether a text can be parsed does not depend on its file. -/
lemma parse_ok_of_parses (h : Parses text) (file? : Option Path) (name? : Option String) :
    ∃ d, Document.parse text file? name? = .ok d := by
  obtain ⟨d, hd⟩ := h
  unfold Document.parse at hd ⊢
  simp only at hd ⊢
  split at hd
  · exact ⟨_, rfl⟩
  · simp at hd
  · exact ⟨_, rfl⟩

/-- A text that can be parsed is taken over. -/
lemma setOverlay_of_parses (h : Parses text) (t : FileTree) (store : DocumentStore) (path : Path) :
    ∃ d, (store.setOverlay t (some path) text).result = .ok d ∧ d.document.source = text ∧
      (store.setOverlay t (some path) text).store.overlays =
        Keyed.set store.overlays (t.key path) d := by
  obtain ⟨document, hdocument⟩ := parse_ok_of_parses h (some path) none
  unfold DocumentStore.setOverlay
  cases hparse : store.parse text (some path) none with
  | error f =>
    obtain ⟨fault, hfault, -⟩ := DocumentStore.parse_error hparse
    simp [hdocument] at hfault
  | ok r =>
    obtain ⟨d, store'⟩ := r
    obtain ⟨hd, -, rfl⟩ := DocumentStore.parse_ok hparse
    exact ⟨d, rfl, (Document.parse_ok hd).1, rfl⟩

/-- Processing a text puts it into the store, if it is that of a format description. -/
lemma run_process (s : Server) (t : FileTree) (uri : String) (h : Parses text) (reindex : Bool) :
    (s.run t (process uri text reindex)).2.buffers = s.buffers ∧
      (overlayKey? t.cwd uri = none →
        (s.run t (process uri text reindex)).2.session.store.overlays =
          s.session.store.overlays) ∧
      ∀ key, overlayKey? t.cwd uri = some key → ∃ d, d.document.source = text ∧
        (s.run t (process uri text reindex)).2.session.store.overlays =
          Keyed.set s.session.store.overlays key d := by
  unfold process pathOf overlayKey?
  cases hpath : FileUri.toPath uri with
  | error fault => exact ⟨rfl, fun _ => rfl, fun key hkey => by simp at hkey⟩
  | ok path =>
    rw [Server.run_bind]
    simp only [Server.run_pure]
    by_cases hfile : Ksy.isFile (Path.ofString path)
    · simp only [hfile, if_true]
      obtain ⟨d, hresult, hsource, hoverlays⟩ :=
        setOverlay_of_parses h t s.session.store (Path.ofString path)
      -- what follows leaves the buffers and the texts alone
      have hrest : ∀ d : StoredDocument, Quiet (do
          if reindex then updateIndex d.document
          tryPublish uri (← diagnose uri d.document)) := by
        intro d
        have hcheck : Quiet (diagnose uri d.document >>= fun ds => tryPublish uri ds) :=
          (Quiet.diagnose uri d.document).bind fun _ => .tryPublish uri _
        extract_lets check
        split
        · exact (Quiet.updateIndex d.document).bind fun _ => hcheck
        · exact hcheck
      refine ⟨(Quiet.buffers_bind hrest s t).trans ?_, by simp, fun key hkey => ⟨d, hsource, ?_⟩⟩
      · rw [Server.run_work]
      · obtain rfl : Path.absolute t.cwd (Path.ofString path) = key := by simpa using hkey
        refine (Quiet.overlays_bind hrest s t).trans ?_
        rw [Server.run_work, Session.run_answer]
        exact hoverlays
    · simp [hfile]

/-- Releasing a document takes its text out of the store. -/
lemma run_release (s : Server) (t : FileTree) (uri : String) :
    (s.run t (release uri)).2.buffers = s.buffers ∧
      (overlayKey? t.cwd uri = none →
        (s.run t (release uri)).2.session.store.overlays = s.session.store.overlays) ∧
      ∀ key, overlayKey? t.cwd uri = some key →
        (s.run t (release uri)).2.session.store.overlays =
          Keyed.erase s.session.store.overlays key := by
  unfold release pathOf overlayKey?
  cases hpath : FileUri.toPath uri with
  | error fault => exact ⟨rfl, fun _ => rfl, fun key hkey => by simp at hkey⟩
  | ok path =>
    rw [Server.run_bind]
    simp only [Server.run_pure]
    by_cases hfile : Ksy.isFile (Path.ofString path)
    · simp only [hfile, if_true]
      refine ⟨(Quiet.buffers_bind ?rest s t).trans ?_, by simp,
        fun key hkey => (Quiet.overlays_bind ?rest s t).trans ?_⟩
      case rest =>
        intro _
        refine (Quiet.work (.getDocument _)).bind fun d? => ?_
        cases d? with
        | some d => exact (Quiet.updateIndex d.document).bind fun _ => .publish uri []
        | none => exact (Quiet.unregister path).bind fun _ => .publish uri []
      · rw [Server.run_work]
      · obtain rfl : Path.absolute t.cwd (Path.ofString path) = key := by simpa using hkey
        rw [Server.run_work, Session.run_modifyStore]
        rfl
    · simp [hfile]

end Serve

namespace Server

variable {cwd : Path} {s s' : Server} {t : FileTree} {uri text : String}

/-! ## What one event preserves -/

section Set

variable (h : s.InStep cwd)
  (hfresh : ∀ other key, other ≠ uri → (s.buffer? other).isSome → overlayKey? cwd other = some key →
    overlayKey? cwd uri ≠ some key)
  (hself : s'.buffer? uri = some text)
  (hothers : ∀ other, other ≠ uri → s'.buffer? other = s.buffer? other)

include h hfresh hself hothers

/-- The texts in the store after the text of a URI was set both in the buffers and in the store. -/
lemma InStep.texts_set
    (hnone : overlayKey? cwd uri = none →
      s'.session.store.overlays = s.session.store.overlays)
    (hsome : ∀ key, overlayKey? cwd uri = some key → ∃ d, d.document.source = text ∧
      s'.session.store.overlays = Keyed.set s.session.store.overlays key d)
    (key' : Path) (text' : String) :
    (∃ d, (key', d) ∈ s'.session.store.overlays ∧ d.document.source = text') ↔
      ∃ uri, s'.buffer? uri = some text' ∧ overlayKey? cwd uri = some key' := by
  cases hkey : overlayKey? cwd uri with
  | none =>
    rw [hnone hkey, h.texts]
    refine exists_congr fun other => and_congr_left fun hother => ?_
    have hne : other ≠ uri := by
      rintro rfl
      simp [hkey] at hother
    rw [hothers other hne]
  | some key =>
    -- the key has the new text, and no other open document has that key
    obtain ⟨d, hsource, hset⟩ := hsome key hkey
    simp only [hset, Keyed.mem_set]
    constructor
    · rintro ⟨d', ⟨rfl, rfl⟩ | ⟨hne, hmem⟩, htext⟩
      · exact ⟨uri, by rw [hself, ← hsource, htext], hkey⟩
      · obtain ⟨other, hbuffer, hother⟩ := (h.texts key' text').mp ⟨d', hmem, htext⟩
        have hne' : other ≠ uri := by
          rintro rfl
          exact hne (by simpa [hkey] using hother.symm)
        exact ⟨other, by rw [hothers other hne', hbuffer], hother⟩
    · rintro ⟨other, hbuffer, hother⟩
      by_cases heq : other = uri
      · subst heq
        obtain rfl : key = key' := by simpa [hkey] using hother
        obtain rfl : text = text' := by simpa [hself] using hbuffer
        exact ⟨d, .inl ⟨rfl, rfl⟩, hsource⟩
      · rw [hothers other heq] at hbuffer
        obtain ⟨d', hmem, htext⟩ := (h.texts key' text').mpr ⟨other, hbuffer, hother⟩
        have hne : key' ≠ key := by
          rintro rfl
          exact hfresh other key' heq (by simp [hbuffer]) hother hkey
        exact ⟨d', .inr ⟨hne, hmem⟩, htext⟩

/-- After the text of a URI was set both in the buffers and in the store, these are in step
again. -/
lemma InStep.set (hparse : Parses text)
    (hnone : overlayKey? cwd uri = none →
      s'.session.store.overlays = s.session.store.overlays)
    (hsome : ∀ key, overlayKey? cwd uri = some key → ∃ d, d.document.source = text ∧
      s'.session.store.overlays = Keyed.set s.session.store.overlays key d) :
    s'.InStep cwd := by
  refine ⟨h.texts_set hfresh hself hothers hnone hsome, fun u v key hu hv hku hkv => ?_,
    fun other text' hbuffer => ?_⟩
  · by_cases hue : u = uri
    · by_cases hve : v = uri
      · rw [hue, hve]
      · rw [hothers v hve] at hv
        exact absurd (hue ▸ hku) (hfresh v key hve hv hkv)
    · rw [hothers u hue] at hu
      by_cases hve : v = uri
      · exact absurd (hve ▸ hkv) (hfresh u key hue hu hku)
      · rw [hothers v hve] at hv
        exact h.distinct u v key hu hv hku hkv
  · by_cases heq : other = uri
    · subst heq
      obtain rfl : text = text' := by simpa [hself] using hbuffer
      exact hparse
    · rw [hothers other heq] at hbuffer
      exact h.parse other text' hbuffer

end Set

/-- After an open URI was closed both in the buffers and in the store, these are in step again. -/
lemma InStep.erase (h : s.InStep cwd) (hopen : (s.buffer? uri).isSome)
    (hself : s'.buffer? uri = none)
    (hothers : ∀ other, other ≠ uri → s'.buffer? other = s.buffer? other)
    (hnone : overlayKey? cwd uri = none →
      s'.session.store.overlays = s.session.store.overlays)
    (hsome : ∀ key, overlayKey? cwd uri = some key →
      s'.session.store.overlays = Keyed.erase s.session.store.overlays key) :
    s'.InStep cwd := by
  have hstill : ∀ other text', s'.buffer? other = some text' ↔
      other ≠ uri ∧ s.buffer? other = some text' := by
    intro other text'
    by_cases heq : other = uri
    · simp [heq, hself]
    · simp [heq, hothers other heq]
  have hstill' : ∀ other, (s'.buffer? other).isSome → (s.buffer? other).isSome := by
    intro other hother
    obtain ⟨text', htext'⟩ := Option.isSome_iff_exists.mp hother
    simp [((hstill other text').mp htext').2]
  constructor
  · intro key' text'
    simp only [hstill]
    cases hkey : overlayKey? cwd uri with
    | none =>
      rw [hnone hkey, h.texts]
      refine exists_congr fun other => and_congr_left fun hother => ?_
      have hne : other ≠ uri := by
        rintro rfl
        simp [hkey] at hother
      simp [hne]
    | some key =>
      simp only [hsome key hkey, Keyed.mem_erase]
      constructor
      · rintro ⟨d, ⟨hne, hmem⟩, htext⟩
        obtain ⟨other, hbuffer, hother⟩ := (h.texts key' text').mp ⟨d, hmem, htext⟩
        have hne' : other ≠ uri := by
          rintro rfl
          exact hne (by simpa [hkey] using hother.symm)
        exact ⟨other, ⟨hne', hbuffer⟩, hother⟩
      · rintro ⟨other, ⟨hne, hbuffer⟩, hother⟩
        obtain ⟨d, hmem, htext⟩ := (h.texts key' text').mpr ⟨other, hbuffer, hother⟩
        -- a text under the same key would be that of the closed document
        have hne' : key' ≠ key := by
          rintro rfl
          exact hne (h.distinct other uri key' (by simp [hbuffer]) hopen hother hkey)
        exact ⟨d, ⟨hne', hmem⟩, htext⟩
  · intro u v key hu hv
    exact h.distinct u v key (hstill' u hu) (hstill' v hv)
  · intro other text' hbuffer
    exact h.parse other text' ((hstill other text').mp hbuffer).2

/-- Processing the text of an open document again changes nothing in the buffers and the texts. -/
lemma InStep.process (h : s.InStep cwd) (ht : t.cwd = cwd) (hopen : s.buffer? uri = some text)
    (reindex : Bool) : (s.run t (Serve.process uri text reindex)).2.InStep cwd ∧
      (s.run t (Serve.process uri text reindex)).2.buffers = s.buffers := by
  subst ht
  have hparse := h.parse uri text hopen
  obtain ⟨hbuffers, hnone, hsome⟩ := Serve.run_process s t uri hparse reindex
  have hbuffer := buffer?_congr hbuffers
  refine ⟨h.set (fun other key hne hother hkey hkey' => hne ?_) ((hbuffer uri).trans hopen)
    (fun other _ => hbuffer other) hparse hnone hsome, hbuffers⟩
  exact h.distinct other uri key hother (by simp [hopen]) hkey hkey'

end Server

namespace Serve

variable {cwd : Path}

lemma KeepsStep.recheck (p : Path) : KeepsStep cwd (Serve.recheck p) := by
  refine ⟨fun s t ht hs => ?_⟩
  unfold Serve.recheck Serve.uriOf
  cases FileUri.ofPath p with
  | error fault => exact ⟨hs, rfl⟩
  | ok uri =>
    rw [Server.run_bind]
    simp only [Server.run_pure]
    rw [Server.run_bind]
    simp only [Server.run_get]
    cases hbuffer : s.buffer? uri with
    | none => exact ⟨hs, rfl⟩
    | some text =>
      -- the text of the buffer is taken over once more, which changes nothing
      have hprocess := hs.process ht hbuffer false
      rw [Server.run_tryCatch]
      rcases hrun : s.run t (Serve.process uri text false) with ⟨e | a, s'⟩
      · rw [hrun] at hprocess
        obtain ⟨hinStep, hbuffers⟩ := (Quiet.log _).keepsStep.keeps s' t ht hprocess.1
        exact ⟨hinStep, hbuffers.trans hprocess.2⟩
      · rwa [hrun] at hprocess

lemma KeepsStep.recheckDependents (uri : String) : KeepsStep cwd (Serve.recheckDependents uri) := by
  unfold Serve.recheckDependents
  refine (Quiet.pathOf uri).keepsStep.bind fun path => ?_
  refine Quiet.get.keepsStep.bind fun s => Quiet.read.keepsStep.bind fun t => ?_
  exact .forM .recheck _

lemma KeepsStep.fileChanged (uri : String) (change : FileChange) :
    KeepsStep cwd (Serve.fileChanged uri change) := by
  unfold Serve.fileChanged
  refine (Quiet.invalidate uri).keepsStep.bind fun _ => ?_
  refine (Quiet.pathOf uri).keepsStep.bind fun path => ?_
  cases change with
  | deleted => exact (Quiet.unregister path).keepsStep.bind fun _ => .recheckDependents uri
  | created | changed =>
    refine (Quiet.work (.getDocument _)).keepsStep.bind fun d? => ?_
    cases d? with
    | some d => exact (Quiet.updateIndex d.document).keepsStep.bind fun _ => .recheckDependents uri
    | none => exact .recheckDependents uri

end Serve

namespace Server

variable {cwd : Path} {s s' : Server} {t : FileTree} {uri text : String}

lemma buffer?_setBuffer_self (s : Server) (uri text : String) :
    (s.setBuffer uri text).buffer? uri = some text :=
  Keyed.lookup_set_self

lemma buffer?_setBuffer_of_ne (s : Server) {uri other : String} (text : String) (h : other ≠ uri) :
    (s.setBuffer uri text).buffer? other = s.buffer? other :=
  Keyed.lookup_set_of_ne h

/-- Taking a new text of a document over into the buffers and then into the store keeps them in
step. -/
lemma InStep.setBuffer_process (h : s.InStep cwd) (ht : t.cwd = cwd) (hparse : Parses text)
    (hfresh : ∀ other key, other ≠ uri → (s.buffer? other).isSome →
      overlayKey? cwd other = some key →
      overlayKey? cwd uri ≠ some key) :
    ((s.setBuffer uri text).run t (Serve.process uri text true)).2.InStep cwd := by
  subst ht
  obtain ⟨hbuffers, hnone, hsome⟩ := Serve.run_process (s.setBuffer uri text) t uri hparse true
  have hbuffer := buffer?_congr hbuffers
  exact h.set hfresh ((hbuffer uri).trans (buffer?_setBuffer_self s uri text))
    (fun other hne => (hbuffer other).trans (buffer?_setBuffer_of_ne s text hne)) hparse hnone hsome

/-- Opening a document takes its text over into the buffers and then into the store. -/
lemma after_opened {path : String} (hpath : FileUri.toPath uri = .ok path) :
    s.after t (.opened uri text) =
      ((s.setBuffer uri text).run t (Serve.process uri text true)).2 := by
  unfold after Serve.handle Serve.pathOf
  rw [Server.run_bind, hpath]
  simp only [Server.run_pure]
  rw [Server.run_bind]
  simp only [Server.run_modify]

lemma InStep.opened (h : s.InStep cwd) (ht : t.cwd = cwd) (ha : s.Admits cwd (.opened uri text)) :
    (s.after t (.opened uri text)).InStep cwd := by
  cases hpath : FileUri.toPath uri with
  | error fault =>
    -- a document without a path is not even opened
    have hsame : s.after t (.opened uri text) = s := by
      unfold after Serve.handle Serve.pathOf
      rw [Server.run_bind, hpath]
      rfl
    rwa [hsame]
  | ok path =>
    rw [after_opened hpath]
    exact h.setBuffer_process ht ha.1 ha.2

lemma InStep.edited (h : s.InStep cwd) (ht : t.cwd = cwd) (ha : s.Admits cwd (.edited uri text)) :
    (s.after t (.edited uri text)).InStep cwd := by
  obtain ⟨hopen, hparse⟩ := ha
  have hrun : s.run t (Serve.handle (.edited uri text)) =
      (s.setBuffer uri text).run t (Serve.process uri text true) := by
    unfold Serve.handle
    rw [Server.run_bind]
    simp only [Server.run_get]
    rw [if_neg (by simp [Option.isSome_iff_ne_none.mp hopen]), Server.run_bind]
    simp only [Server.run_modify]
  unfold after
  rw [hrun]
  exact h.setBuffer_process ht hparse fun other key hne hother hkey hkey' =>
    hne (h.distinct other uri key hother hopen hkey hkey')

lemma InStep.saved (h : s.InStep cwd) (ht : t.cwd = cwd) {text? : Option String}
    (ha : s.Admits cwd (.saved uri text?)) : (s.after t (.saved uri text?)).InStep cwd := by
  obtain ⟨text, hopen, htext⟩ := ha
  have hinvalidate := Serve.Quiet.invalidate uri
  -- a text that is sent along is that of the buffer
  rcases htext with rfl | rfl
  · exact ((hinvalidate.keepsStep.bind fun _ => .recheckDependents uri).keeps s t ht h).1
  · have hrun : s.run t (Serve.handle (.saved uri (some text))) =
        s.run t (Serve.invalidate uri >>= fun _ =>
          Serve.process uri text true >>= fun _ => Serve.recheckDependents uri) := rfl
    obtain ⟨hkept, hbuffers⟩ := hinvalidate.keepsStep.keeps s t ht h
    unfold after
    rw [hrun, Server.run_bind]
    rcases hinv : s.run t (Serve.invalidate uri) with ⟨e | a, s₁⟩
    · rwa [hinv] at hkept
    · rw [hinv] at hkept hbuffers
      have hopen₁ : s₁.buffer? uri = some text := (buffer?_congr hbuffers uri).trans hopen
      exact (Serve.KeepsStep.after_bind ht (hkept.process ht hopen₁ true)
        fun _ => .recheckDependents uri).1

/-- Closing a document takes its text out of the buffers and then out of the store. -/
lemma InStep.closed (h : s.InStep cwd) (ht : t.cwd = cwd) (ha : s.Admits cwd (.closed uri)) :
    (s.after t (.closed uri)).InStep cwd ∧
      (s.after t (.closed uri)).buffers = (s.removeBuffer uri).buffers := by
  have hrun : s.run t (Serve.handle (.closed uri)) = (s.removeBuffer uri).run t
      (Serve.release uri >>= fun _ => Serve.recheckDependents uri) := by
    unfold Serve.handle
    rw [Server.run_bind]
    simp only [Server.run_modify]
  have hrelease : ((s.removeBuffer uri).run t (Serve.release uri)).2.InStep cwd ∧
      ((s.removeBuffer uri).run t (Serve.release uri)).2.buffers =
        (s.removeBuffer uri).buffers := by
    subst ht
    obtain ⟨hbuffers, hnone, hsome⟩ := Serve.run_release (s.removeBuffer uri) t uri
    have hbuffer := buffer?_congr hbuffers
    exact ⟨h.erase ha ((hbuffer uri).trans Keyed.lookup_erase_self)
      (fun other hne => (hbuffer other).trans (Keyed.lookup_erase_of_ne hne)) hnone hsome,
      hbuffers⟩
  unfold after
  rw [hrun]
  exact Serve.KeepsStep.after_bind ht hrelease fun _ => .recheckDependents uri

/-- Whatever a client can send keeps the buffers and the texts in step. -/
lemma InStep.after (h : s.InStep cwd) (ht : t.cwd = cwd) {e : Event} (ha : s.Admits cwd e) :
    (s.after t e).InStep cwd := by
  cases e with
  | connected root? folders =>
    have hquiet : Serve.Quiet (Serve.handle (.connected root? folders)) := by
      refine (Serve.Quiet.log _).bind fun _ => ?_
      split
      · exact .pure ()
      · split
        · exact .indexFolder _
        · exact .pure ()
      · exact .forM .indexFolder _
    exact (hquiet.keepsStep.keeps s t ht h).1
  | opened uri text => exact h.opened ht ha
  | edited uri text => exact h.edited ht ha
  | saved uri text? => exact h.saved ht ha
  | closed uri => exact (h.closed ht ha).1
  | filesChanged changes =>
    have hchanges : Serve.KeepsStep cwd (Serve.handle (.filesChanged changes)) :=
      .forM (fun (uri, change) => .fileChanged uri change) changes
    exact (hchanges.keeps s t ht h).1

/-- Over every run of events the buffers and the texts stay in step. -/
lemma InStep.afterAll (h : s.InStep cwd) {events : List (FileTree × Event)}
    (ha : s.AdmitsAll cwd events) : (s.afterAll events).InStep cwd := by
  induction events generalizing s with
  | nil => exact h
  | cons x rest ih =>
    obtain ⟨t, e⟩ := x
    obtain ⟨ht, he, hrest⟩ := ha
    exact ih (h.after ht he) hrest

lemma inStep_of_empty (hbuffers : s.buffers = []) (hoverlays : s.session.store.overlays = []) :
    s.InStep cwd := by
  constructor <;> simp [buffer?, hbuffers, hoverlays]

/-- The texts in the store follow the open buffers.

A server starts without buffers and without texts, and a client sends it any events in any order
that it can send, while the files change in between.  After every one of them the keys of the
texts in the store are those of the open format descriptions, and each text is that of the buffer
with its key. -/
theorem overlays_in_step_with_buffers (cwd : Path) (s : Server) (hbuffers : s.buffers = [])
    (hoverlays : s.session.store.overlays = []) (events : List (FileTree × Event))
    (hevents : s.AdmitsAll cwd events) :
    (∀ key, key ∈ (s.afterAll events).session.store.overlays.map Prod.fst ↔
        ∃ uri, ((s.afterAll events).buffer? uri).isSome ∧ overlayKey? cwd uri = some key) ∧
      ∀ key d uri text, (key, d) ∈ (s.afterAll events).session.store.overlays →
        (s.afterAll events).buffer? uri = some text → overlayKey? cwd uri = some key →
        d.document.source = text := by
  have h := (inStep_of_empty hbuffers hoverlays).afterAll hevents
  constructor
  · intro key
    constructor
    · intro hkey
      obtain ⟨⟨key', d⟩, hmem, rfl⟩ := List.mem_map.mp hkey
      obtain ⟨uri, hbuffer, huri⟩ := (h.texts key' d.document.source).mp ⟨d, hmem, rfl⟩
      exact ⟨uri, by simp [hbuffer], huri⟩
    · rintro ⟨uri, hopen, huri⟩
      obtain ⟨text, hbuffer⟩ := Option.isSome_iff_exists.mp hopen
      obtain ⟨d, hmem, -⟩ := (h.texts key text).mpr ⟨uri, hbuffer, huri⟩
      exact List.mem_map.mpr ⟨(key, d), hmem, rfl⟩
  · intro key d uri text hmem hbuffer huri
    obtain ⟨other, hother, hkey⟩ := (h.texts key d.document.source).mp ⟨d, hmem, rfl⟩
    obtain rfl := h.distinct uri other key (by simp [hbuffer]) (by simp [hother]) huri hkey
    simpa [hbuffer] using hother.symm

/-! ## A description that stays open when another one is closed -/

lemma buffers_after_opened {key : Path} (hkey : overlayKey? cwd uri = some key)
    (hparse : Parses text) :
    (s.after t (.opened uri text)).buffers = (s.setBuffer uri text).buffers := by
  cases hpath : FileUri.toPath uri with
  | error fault => simp [overlayKey?, hpath] at hkey
  | ok path =>
    rw [after_opened hpath]
    exact (Serve.run_process (s.setBuffer uri text) t uri hparse true).1

/-- A description can be opened if its key is that of no open document. -/
lemma admits_opened (hparse : Parses text)
    (hothers : ∀ b ∈ s.buffers, overlayKey? cwd b.1 ≠ overlayKey? cwd uri) :
    s.Admits cwd (.opened uri text) := by
  refine ⟨hparse, fun other key _ hopen hkey hkey' => ?_⟩
  obtain ⟨text', hbuffer⟩ := Option.isSome_iff_exists.mp hopen
  exact hothers (other, text') (Keyed.mem_of_lookup hbuffer) (hkey.trans hkey'.symm)

lemma parses_empty : Parses "" :=
  exists_ok_of_isOk (by decide +kernel)

/-- Two descriptions are opened while there are no files, and the first is closed again. -/
def openTwoCloseOne : List (FileTree × Event) :=
  [(.noFiles, .opened "file:///a.ksy" ""), (.noFiles, .opened "file:///b.ksy" "doc: b"),
    (.noFiles, .closed "file:///a.ksy")]

lemma overlayKey?_a : overlayKey? ⟨.slash, []⟩ "file:///a.ksy" = some ⟨.slash, ["a.ksy"]⟩ := by
  decide +kernel

lemma overlayKey?_b : overlayKey? ⟨.slash, []⟩ "file:///b.ksy" = some ⟨.slash, ["b.ksy"]⟩ := by
  decide +kernel

/-- All three events can be sent, and the buffer of the second description is left. -/
lemma admitsAll_openTwoCloseOne :
    (start (.start true 8 none)).AdmitsAll ⟨.slash, []⟩ openTwoCloseOne ∧
      ((start (.start true 8 none)).afterAll openTwoCloseOne).buffers =
        [("file:///b.ksy", "doc: b")] := by
  have hparse : Parses "doc: b" := exists_ok_of_isOk (by decide +kernel)
  have hstart : (start (.start true 8 none)).InStep ⟨.slash, []⟩ := inStep_of_empty rfl rfl
  have hfirst : (start (.start true 8 none)).Admits ⟨.slash, []⟩ (.opened "file:///a.ksy" "") :=
    admits_opened parses_empty fun b hb => absurd hb List.not_mem_nil
  have hstep₁ := hstart.after (t := .noFiles) rfl hfirst
  have hbuffers₁ : ((start (.start true 8 none)).after .noFiles
      (.opened "file:///a.ksy" "")).buffers = [("file:///a.ksy", "")] :=
    buffers_after_opened overlayKey?_a parses_empty
  generalize hs₁ : (start (.start true 8 none)).after .noFiles (.opened "file:///a.ksy" "") = s₁
    at hstep₁ hbuffers₁
  have hsecond : s₁.Admits ⟨.slash, []⟩ (.opened "file:///b.ksy" "doc: b") := by
    refine admits_opened hparse ?_
    rw [hbuffers₁]
    decide +kernel
  have hstep₂ := hstep₁.after (t := .noFiles) rfl hsecond
  have hbuffers₂ : (s₁.after .noFiles (.opened "file:///b.ksy" "doc: b")).buffers =
      [("file:///a.ksy", ""), ("file:///b.ksy", "doc: b")] := by
    rw [buffers_after_opened overlayKey?_b hparse]
    change Keyed.set s₁.buffers _ _ = _
    rw [hbuffers₁]
    rfl
  generalize hs₂ : s₁.after .noFiles (.opened "file:///b.ksy" "doc: b") = s₂ at hstep₂ hbuffers₂
  have hthird : s₂.Admits ⟨.slash, []⟩ (.closed "file:///a.ksy") := by
    rw [Admits, buffer?, hbuffers₂]
    decide
  obtain ⟨-, hbuffers₃⟩ := hstep₂.closed (t := .noFiles) rfl hthird
  simp only [openTwoCloseOne, AdmitsAll, afterAll, hs₁, hs₂, and_true]
  refine ⟨⟨rfl, hfirst, rfl, hsecond, rfl, hthird⟩, ?_⟩
  rw [hbuffers₃]
  change Keyed.erase s₂.buffers _ = _
  rw [hbuffers₂]
  rfl

/-- Of two open descriptions one is closed.  The text of the other one is in the store, and no other
text is. -/
theorem overlays_in_step_with_buffers_closed :
    (start (.start true 8 none)).AdmitsAll ⟨.slash, []⟩ openTwoCloseOne ∧
      (∀ key, key ∈ ((start (.start true 8 none)).afterAll
          openTwoCloseOne).session.store.overlays.map Prod.fst ↔ key = ⟨.slash, ["b.ksy"]⟩) ∧
      ∀ d, (⟨.slash, ["b.ksy"]⟩, d) ∈
          ((start (.start true 8 none)).afterAll openTwoCloseOne).session.store.overlays →
        d.document.source = "doc: b" := by
  obtain ⟨hadmits, hbuffers⟩ := admitsAll_openTwoCloseOne
  obtain ⟨hkeys, htexts⟩ := overlays_in_step_with_buffers ⟨.slash, []⟩ (start (.start true 8 none))
    rfl rfl openTwoCloseOne hadmits
  generalize (start (.start true 8 none)).afterAll openTwoCloseOne = s at hbuffers hkeys htexts ⊢
  have hopen : s.buffer? "file:///b.ksy" = some "doc: b" := by
    rw [buffer?, hbuffers]
    decide
  refine ⟨hadmits, fun key => (hkeys key).trans ⟨?_, ?_⟩, fun d hd => ?_⟩
  · rintro ⟨uri, hbuffer, hkey⟩
    have huri : uri = "file:///b.ksy" := by
      by_contra hne
      rw [buffer?, hbuffers, List.lookup_cons, beq_false_of_ne hne] at hbuffer
      cases hbuffer
    rw [huri, overlayKey?_b] at hkey
    exact (Option.some.inj hkey).symm
  · rintro rfl
    exact ⟨_, by rw [hopen]; rfl, overlayKey?_b⟩
  · exact htexts _ d _ _ hd hopen overlayKey?_b

end Server

end KsyTools
