/-
# Runs of a document store

Texts are opened and closed, documents are asked for, kept documents are dropped, and in between the
files change.  Whatever happens, a lookup gives the text that was opened last and not closed since,
and otherwise the document of the file as it is now: that documents are kept cannot be noticed, as
long as a file that has changed has a new signature.
-/
import KsyTools.Proofs.Store.Lookup

namespace KsyTools

/-- What can happen to a store and to the files around it. -/
inductive StoreEvent where
  | setOverlay (path? : Option Path) (content : String)
  | removeOverlay (p : Path)
  | get (p : Path)
  | findFile (p : Path) (shown : String)
  | invalidate (p : Path)
  | clearCache
  /-- The files are changed, in any way; the current directory stays. -/
  | change (root : Entry) (now : ℕ)

/-- A store and the files around it. -/
structure World where
  files : FileTree
  store : DocumentStore

/-- What a lookup has seen: the files, and the key that it has looked up. -/
abbrev Sight := FileTree × Path

namespace World

/-- The world after an event. -/
def after (w : World) : StoreEvent → World
  | .setOverlay path? content =>
    { w with store := (w.store.setOverlay w.files path? content).store }
  | .removeOverlay p => { w with store := w.store.removeOverlay w.files p }
  | .get p => { w with store := (w.store.get w.files p).store }
  | .findFile _ _ => w
  | .invalidate p => { w with store := w.store.invalidate w.files p }
  | .clearCache => { w with store := w.store.clearCache }
  | .change root now => { w with files := { w.files with root, now } }

/-- The world after some events. -/
def run (w : World) (events : List StoreEvent) : World :=
  events.foldl after w

/-- The document of the text that is open under a key after an event, if `held` was before. -/
def heldAfter (w : World) (key : Path) (held : Option StoredDocument) :
    StoreEvent → Option StoredDocument
  | .setOverlay (some p) content =>
    match (w.store.setOverlay w.files (some p) content).result with
    | .ok d => if w.files.key p = key then some d else held
    -- a text that cannot be parsed is not taken over
    | .error _ => held
  | .removeOverlay p => if w.files.key p = key then none else held
  | _ => held

/-- The document of the text that was opened last under a key and not closed since. -/
def held (w : World) (key : Path) (current : Option StoredDocument) :
    List StoreEvent → Option StoredDocument
  | [] => current
  | e :: rest => (w.after e).held key (w.heldAfter key current e) rest

/-- What the lookups among some events see. -/
def seen (w : World) : List StoreEvent → List Sight
  | [] => []
  | .get p :: rest => (w.files, w.files.key p) :: (w.after (.get p)).seen rest
  | e :: rest => (w.after e).seen rest

variable {w : World}

@[simp] lemma run_nil : w.run [] = w := rfl

@[simp] lemma run_cons (e : StoreEvent) (rest : List StoreEvent) :
    w.run (e :: rest) = (w.after e).run rest := rfl

lemma seen_append (before rest : List StoreEvent) :
    w.seen (before ++ rest) = w.seen before ++ (w.run before).seen rest := by
  induction before generalizing w with
  | nil => rfl
  | cons e before ih => cases e <;> simp [seen, ih]

/-! ## The open texts -/

/-- What an event does to the text under a key. -/
lemma overlay?_after (w : World) (key : Path) (e : StoreEvent) :
    (w.after e).store.overlay? key = w.heldAfter key (w.store.overlay? key) e := by
  cases e with
  | setOverlay path? content =>
    simp only [after]
    cases hparse : w.store.parse content path? none with
    | error f =>
      cases path? <;> simp [heldAfter, DocumentStore.setOverlay, hparse]
    | ok r =>
      obtain ⟨d, s'⟩ := r
      obtain ⟨-, -, rfl⟩ := DocumentStore.parse_ok hparse
      cases path? with
      | none => simp [heldAfter, DocumentStore.setOverlay, hparse, DocumentStore.overlay?]
      | some p =>
        by_cases hkey : w.files.key p = key
        · simp [heldAfter, DocumentStore.setOverlay, hparse, DocumentStore.overlay?, hkey,
            Keyed.lookup_set_self]
        · simp [heldAfter, DocumentStore.setOverlay, hparse, DocumentStore.overlay?, hkey,
            Keyed.lookup_set_of_ne (Ne.symm hkey)]
  | removeOverlay p =>
    by_cases hkey : w.files.key p = key
    · simp [after, heldAfter, DocumentStore.removeOverlay, DocumentStore.overlay?, hkey,
        Keyed.lookup_erase_self]
    · simp [after, heldAfter, DocumentStore.removeOverlay, DocumentStore.overlay?, hkey,
        Keyed.lookup_erase_of_ne (Ne.symm hkey)]
  | get p =>
    simp only [after, heldAfter, DocumentStore.overlay?]
    rw [DocumentStore.get_overlays]
  | findFile p shown => rfl
  | invalidate p => rfl
  | clearCache => rfl
  | change root now => rfl

/-- The store holds the text that was opened last and not closed since. -/
lemma overlay?_run (w : World) (key : Path) (events : List StoreEvent) :
    (w.run events).store.overlay? key = w.held key (w.store.overlay? key) events := by
  induction events generalizing w with
  | nil => rfl
  | cons e rest ih => rw [run_cons, ih, held, overlay?_after]

/-! ## The kept documents -/

/-- Every kept document was read by some lookup. -/
def Kept (sights : List Sight) (s : DocumentStore) : Prop :=
  ∀ e ∈ s.cache, ∃ t, (t, e.key) ∈ sights ∧ t.signature? e.key = some e.signature ∧
    t.documentAt e.key = .ok (some e.stored.document)

lemma Kept.mono {sights sights' : List Sight} {s : DocumentStore} (h : Kept sights s)
    (hsub : sights ⊆ sights') : Kept sights' s := by
  intro e he
  obtain ⟨t, ht, hsig, hat⟩ := h e he
  exact ⟨t, hsub ht, hsig, hat⟩

lemma setOverlay_cache (t : FileTree) (s : DocumentStore) (path? : Option Path)
    (content : String) : (s.setOverlay t path? content).store.cache = s.cache := by
  unfold DocumentStore.setOverlay
  cases hparse : s.parse content path? none with
  | error f => rfl
  | ok r =>
    obtain ⟨d, s'⟩ := r
    obtain ⟨-, -, rfl⟩ := DocumentStore.parse_ok hparse
    cases path? <;> rfl

/-- What is kept after an event was kept before it, or a lookup has just read it. -/
lemma mem_cache_after {e : StoreEvent} {entry : CacheEntry} (h : entry ∈ (w.after e).store.cache) :
    entry ∈ w.store.cache ∨ (w.files, entry.key) ∈ w.seen [e] ∧
      w.files.signature? entry.key = some entry.signature ∧
      w.files.documentAt entry.key = .ok (some entry.stored.document) := by
  cases e with
  | setOverlay path? content =>
    exact .inl (by rwa [← setOverlay_cache w.files w.store path? content])
  | removeOverlay p => exact .inl h
  | get p =>
    rcases DocumentStore.mem_cache_get h with h | ⟨hkey, hread⟩
    · exact .inl h
    · exact .inr ⟨by simp [seen, hkey], hread⟩
  | findFile p shown => exact .inl h
  | invalidate p => exact .inl (List.mem_filter.mp h).1
  | clearCache => cases h
  | change root now => exact .inl h

/-- An event keeps nothing that no lookup has read. -/
lemma Kept.after {sights : List Sight} (h : Kept sights w.store) (e : StoreEvent) :
    Kept (sights ++ w.seen [e]) (w.after e).store := by
  intro entry hentry
  rcases mem_cache_after hentry with hentry | ⟨hseen, hread⟩
  · obtain ⟨t, ht, hread⟩ := h entry hentry
    exact ⟨t, List.mem_append_left _ ht, hread⟩
  · exact ⟨w.files, List.mem_append_right _ hseen, hread⟩

lemma Kept.run {sights : List Sight} (h : Kept sights w.store) (events : List StoreEvent) :
    Kept (sights ++ w.seen events) (w.run events).store := by
  induction events generalizing w sights with
  | nil => simpa [seen] using h
  | cons e rest ih =>
    have hseen : w.seen (e :: rest) = w.seen [e] ++ (w.after e).seen rest := seen_append [e] rest
    rw [hseen, ← List.append_assoc]
    exact ih (h.after e)

lemma settings_after (w : World) (e : StoreEvent) :
    (w.after e).store.cacheEnabled = w.store.cacheEnabled ∧
      (w.after e).store.maxCacheSize = w.store.maxCacheSize := by
  cases e with
  | setOverlay path? content =>
    simp only [after, DocumentStore.setOverlay]
    cases hparse : w.store.parse content path? none with
    | error f => exact ⟨rfl, rfl⟩
    | ok r =>
      obtain ⟨d, s'⟩ := r
      obtain ⟨-, -, rfl⟩ := DocumentStore.parse_ok hparse
      cases path? <;> exact ⟨rfl, rfl⟩
  | get p => exact DocumentStore.get_settings w.files w.store p
  | _ => exact ⟨rfl, rfl⟩

lemma settings_run (w : World) (events : List StoreEvent) :
    (w.run events).store.cacheEnabled = w.store.cacheEnabled ∧
      (w.run events).store.maxCacheSize = w.store.maxCacheSize := by
  induction events generalizing w with
  | nil => exact ⟨rfl, rfl⟩
  | cons e rest ih =>
    obtain ⟨hen, hmax⟩ := settings_after w e
    obtain ⟨hen', hmax'⟩ := ih (w.after e)
    exact ⟨hen'.trans hen, hmax'.trans hmax⟩

lemma canKeep_run (h : w.store.CanKeep) (events : List StoreEvent) :
    (w.run events).store.CanKeep := by
  obtain ⟨hen, hmax⟩ := settings_run w events
  rwa [DocumentStore.CanKeep, hen, hmax]

/-! ## The files of documents -/

/-- A document is read from a file, or is that of a text that was opened for a file. -/
lemma filed_after (h : w.store.Filed) (e : StoreEvent) : (w.after e).store.Filed := by
  cases e with
  | setOverlay path? content =>
    refine ⟨fun o ho => ?_, fun e he => h.2 e (by rwa [after, setOverlay_cache] at he)⟩
    simp only [after, DocumentStore.setOverlay] at ho
    cases hparse : w.store.parse content path? none with
    | error f =>
      simp only [hparse] at ho
      exact h.1 o ho
    | ok r =>
      obtain ⟨d, s'⟩ := r
      obtain ⟨hd, -, rfl⟩ := DocumentStore.parse_ok hparse
      simp only [hparse] at ho
      cases path? with
      | none => exact h.1 o ho
      | some p =>
        rcases Keyed.mem_set.mp ho with ⟨-, hd'⟩ | ⟨-, ho⟩
        · rw [hd', (Document.parse_ok hd).2]
          rfl
        · exact h.1 o ho
  | removeOverlay p => exact ⟨fun o ho => h.1 o (Keyed.mem_erase.mp ho).2, h.2⟩
  | get p =>
    refine ⟨fun o ho => h.1 o (by rwa [after, DocumentStore.get_overlays] at ho), fun e he => ?_⟩
    rcases DocumentStore.mem_cache_get he with he | ⟨-, -, hat⟩
    · exact h.2 e he
    · rw [FileTree.file?_of_documentAt hat]
      rfl
  | findFile p shown => exact h
  | invalidate p => exact ⟨h.1, fun e he => h.2 e (List.mem_filter.mp he).1⟩
  | clearCache => exact ⟨h.1, fun _ he => absurd he List.not_mem_nil⟩
  | change root now => exact h

lemma filed_run (h : w.store.Filed) (events : List StoreEvent) : (w.run events).store.Filed := by
  induction events generalizing w with
  | nil => exact h
  | cons e rest ih => exact ih (filed_after h e)

/-! ## Lookups -/

/-- A file that was seen twice with the same signature was read in the same way, and with the same
text if it has one.  Files change their content or go away; that a file can be read at one time and
not at another, with the same content, is left aside. -/
def SignaturesTellApart (sights : List Sight) : Prop :=
  ∀ t t' key signature, (t, key) ∈ sights → (t', key) ∈ sights →
    t.signature? key = some signature → t'.signature? key = some signature →
    t.readText key = t'.readText key

/-- Signatures tell sights apart where nothing but regular files was seen, and never two contents
with the same time of change and the same size. -/
lemma signaturesTellApart_of_contents {sights : List Sight}
    (regular : ∀ t key e, (t, key) ∈ sights → t.stat key = .ok e → e.isFile)
    (contents : ∀ t t' key content content' changed, (t, key) ∈ sights → (t', key) ∈ sights →
      t.stat key = .ok (.file content changed) → t'.stat key = .ok (.file content' changed) →
      content.length = content'.length → content = content') :
    SignaturesTellApart sights := by
  intro t t' key signature ht ht' hthen hnow
  obtain ⟨content, changed, hstat, rfl⟩ :=
    FileTree.exists_file_of_signature? (regular t key · ht) hthen
  obtain ⟨content', changed', hstat', hsame⟩ :=
    FileTree.exists_file_of_signature? (regular t' key · ht') hnow
  obtain ⟨rfl, hlength⟩ := Prod.mk.inj hsame
  obtain rfl := contents t t' key content content' changed' ht ht' hstat hstat' hlength.symm
  rw [FileTree.readText_of_stat hstat, FileTree.readText_of_stat hstat']

/-- What was kept for a key is current when a lookup sees the file again. -/
lemma Kept.current {sights : List Sight} {s : DocumentStore} {t : FileTree} {e : CacheEntry}
    (h : Kept sights s) (hsig : SignaturesTellApart sights) (ht : (t, e.key) ∈ sights)
    (he : e ∈ s.cache) : e.Current t := by
  intro hnow
  obtain ⟨t', ht', hthen, hat⟩ := h e he
  have htext := hsig t t' e.key e.signature ht ht' hnow hthen
  rwa [FileTree.documentAt, htext]

/-- A store cannot be told from one that keeps nothing.

In a run that starts with a store without documents, every lookup gives the document of the text
that was opened last under the same key and not closed since.  Where there is none, it gives what a
store that keeps nothing gives, which is the document of the file as it is then; and if the text of
the file has no value, it fails in the same way and changes nothing. -/
theorem get_refines_uncached (t : FileTree) (cacheEnabled : Bool) (maxCacheSize : Int)
    (hsize : 0 ≤ maxCacheSize) (events : List StoreEvent)
    (hsig : SignaturesTellApart (seen ⟨t, .empty cacheEnabled maxCacheSize⟩ events))
    (before rest : List StoreEvent) (p : Path) (hevents : events = before ++ .get p :: rest) :
    let start : World := ⟨t, .empty cacheEnabled maxCacheSize⟩
    let w := start.run before
    (∀ d, start.held (w.files.key p) none before = some d →
        (w.store.get w.files p).result = .ok (some d)) ∧
      (start.held (w.files.key p) none before = none →
        w.store.answer w.files p = (DocumentStore.empty false 0).answer w.files p ∧
        w.store.answer w.files p = w.files.documentAt (w.files.key p) ∧
        ∀ f, (w.store.get w.files p).result = .error f →
          (w.store.get w.files p).store = w.store) := by
  intro start w
  have hheld : w.store.overlay? (w.files.key p) = start.held (w.files.key p) none before :=
    overlay?_run start (w.files.key p) before
  have hseen : (w.files, w.files.key p) ∈ start.seen events := by
    rw [hevents, seen_append]
    exact List.mem_append_right _ List.mem_cons_self
  -- all that is kept was seen in this run, so the signatures tell whether it is current
  have hkept : Kept (start.seen events) w.store := by
    have hnone : Kept [] start.store := by simp [Kept, start, DocumentStore.empty]
    refine (hnone.run before).mono ?_
    rw [hevents, seen_append]
    exact List.subset_append_left _ _
  refine ⟨fun d hd => ?_, fun hnone => ?_⟩
  · rw [DocumentStore.get_of_overlay (hheld.trans hd)]
  · have hkeep : w.store.CanKeep := canKeep_run (fun _ => hsize) before
    obtain ⟨hanswer, herror⟩ := DocumentStore.get_of_current hkeep (hheld.trans hnone)
      fun e he hkey => hkept.current hsig (hkey ▸ hseen) he
    have huncached : (DocumentStore.empty false 0).answer w.files p =
        w.files.documentAt (w.files.key p) :=
      (DocumentStore.get_of_current (fun h => absurd h (by simp [DocumentStore.empty])) rfl
        fun e he => by simp [DocumentStore.empty] at he).1
    exact ⟨hanswer.trans huncached.symm, hanswer, herror⟩

/-- A directory with one file. -/
def loneFile : FileTree := ⟨.directory [("a.ksy", .file [] 0)], ⟨.slash, []⟩, 1⟩

/-- The file is opened, asked for, closed, asked for again, and deleted. -/
def loneFileEvents : List StoreEvent :=
  [.setOverlay (some ⟨.slash, ["a.ksy"]⟩) "", .get ⟨.slash, ["a.ksy"]⟩,
    .removeOverlay ⟨.slash, ["a.ksy"]⟩, .get ⟨.slash, ["a.ksy"]⟩, .change (.directory []) 2]

/-- The directory without the file. -/
def goneFile : FileTree := { loneFile with root := .directory [], now := 2 }

lemma stat_loneFile : loneFile.stat ⟨.slash, ["a.ksy"]⟩ = .ok (.file [] 0) := by
  have hfound : FileTree.followFrom loneFile.root FileTree.maxLinks []
      (loneFile.fromRoot ⟨.slash, ["a.ksy"]⟩).parts = .ok (["a.ksy"], .file [] 0) := by
    change FileTree.followFrom _ _ _ ["a.ksy"] = _
    rw [FileTree.followFrom]
    simp [FileTree.followFrom, loneFile, Entry.at?, Entry.child?, Entry.entries]
    rfl
  rw [FileTree.stat_eq (by decide) (by decide), hfound]
  rfl

lemma stat_goneFile :
    goneFile.stat ⟨.slash, ["a.ksy"]⟩ = .error (.failed .notFound "/a.ksy") := by
  have hnothing : FileTree.followFrom goneFile.root FileTree.maxLinks []
      (goneFile.fromRoot ⟨.slash, ["a.ksy"]⟩).parts = .error .notFound := by
    change FileTree.followFrom _ _ _ ["a.ksy"] = _
    rw [FileTree.followFrom]
    rfl
  rw [FileTree.stat_eq (by decide) (by decide), hnothing]
  rfl

/-- What was kept of a file is not given any more when the file is gone. -/
theorem get_refines_uncached_loneFile :
    SignaturesTellApart (seen ⟨loneFile, .empty true 1⟩
        (loneFileEvents ++ [.get ⟨.slash, ["a.ksy"]⟩])) ∧
      (run ⟨loneFile, .empty true 1⟩ loneFileEvents).store.answer
        (run ⟨loneFile, .empty true 1⟩ loneFileEvents).files ⟨.slash, ["a.ksy"]⟩ = .ok none := by
  have hseen : seen ⟨loneFile, .empty true 1⟩ (loneFileEvents ++ [.get ⟨.slash, ["a.ksy"]⟩]) =
      [(loneFile, ⟨.slash, ["a.ksy"]⟩), (loneFile, ⟨.slash, ["a.ksy"]⟩),
        (goneFile, ⟨.slash, ["a.ksy"]⟩)] := rfl
  -- the only thing that is ever seen is the empty file
  have hempty (t : FileTree) (key : Path) (e : Entry)
      (ht : (t, key) ∈ seen ⟨loneFile, .empty true 1⟩
        (loneFileEvents ++ [.get ⟨.slash, ["a.ksy"]⟩]))
      (hstat : t.stat key = .ok e) : e = .file [] 0 := by
    rw [hseen] at ht
    simp only [List.mem_cons, Prod.mk.injEq, List.not_mem_nil, or_false, or_self_left] at ht
    rcases ht with ⟨rfl, rfl⟩ | ⟨rfl, rfl⟩
    · exact Except.ok.inj (hstat.symm.trans stat_loneFile)
    · cases hstat.symm.trans stat_goneFile
  have hsig : SignaturesTellApart (seen ⟨loneFile, .empty true 1⟩
      (loneFileEvents ++ [.get ⟨.slash, ["a.ksy"]⟩])) := by
    refine signaturesTellApart_of_contents (fun t key e ht hstat => ?_)
      fun t t' key content content' changed ht ht' hthen hnow _ => ?_
    · rw [hempty t key e ht hstat]
      rfl
    · cases hempty t key _ ht hthen
      cases hempty t' key _ ht' hnow
      rfl
  have hheld : held ⟨loneFile, .empty true 1⟩ ⟨.slash, ["a.ksy"]⟩ none loneFileEvents = none := by
    simp only [loneFileEvents, held, heldAfter, after]
    exact if_pos (by decide)
  have hkey : (run ⟨loneFile, .empty true 1⟩ loneFileEvents).files.key ⟨.slash, ["a.ksy"]⟩ =
      ⟨.slash, ["a.ksy"]⟩ := by decide
  obtain ⟨-, hnone⟩ := get_refines_uncached loneFile true 1 (by decide) _ hsig loneFileEvents []
    ⟨.slash, ["a.ksy"]⟩ rfl
  rw [hkey] at hnone
  obtain ⟨-, hanswer, -⟩ := hnone hheld
  have hunsigned : goneFile.signature? ⟨.slash, ["a.ksy"]⟩ = none := by
    rw [FileTree.signature?, stat_goneFile]
  exact ⟨hsig, hanswer.trans (FileTree.documentAt_of_signature?_eq_none hunsigned)⟩

end World

end KsyTools
