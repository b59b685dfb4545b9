/-
# Looking up documents

What `DocumentStore.get` gives and what it does to the store.  The text of an editor comes first,
then a document that is kept and whose file has the same signature, then the file itself.  A lookup
changes nothing but the order and the content of the cache.
-/
import KsyTools.Store.Basic
import Mathlib.Tactic.Common

namespace KsyTools

/-- A parsed text knows its source and its file. -/
lemma Document.parse_ok {source : String} {file? : Option Path} {name? : Option String}
    {d : Document} (h : Document.parse source file? name? = .ok d) :
    d.source = source ∧ d.file? = file? := by
  unfold Document.parse at h
  simp only at h
  split at h
  · simp only [Except.ok.injEq] at h
    subst h
    exact ⟨rfl, rfl⟩
  · simp at h
  · simp only [Except.ok.injEq] at h
    subst h
    exact ⟨rfl, rfl⟩

/-- The document that the text of a file stands for; there is none where no text can be read. -/
def FileTree.documentAt (t : FileTree) (key : Path) : Except Failure (Option Document) :=
  match t.readText key with
  | .error _ => .ok none
  | .ok text =>
    match Document.parse text (some key) none with
    | .ok d => .ok (some d)
    | .error fault => .error (.scalar fault)

lemma FileTree.documentAt_of_signature?_eq_none {t : FileTree} {key : Path}
    (h : t.signature? key = none) : t.documentAt key = .ok none := by
  have hread : ∃ e, t.readText key = .error e := by
    unfold signature? stat at h
    unfold readText
    by_cases hnull : hasNull key
    · exact ⟨_, if_pos hnull⟩
    · simp only [hnull] at h ⊢
      cases hf : t.find key with
      | error fault => exact ⟨_, rfl⟩
      | ok r =>
        obtain ⟨way, e⟩ := r
        cases e <;> simp [hf] at h
  obtain ⟨e, he⟩ := hread
  simp [documentAt, he]

lemma FileTree.file?_of_documentAt {t : FileTree} {key : Path} {d : Document}
    (h : t.documentAt key = .ok (some d)) : d.file? = some key := by
  unfold documentAt at h
  split at h
  · simp at h
  · split at h
    next hparse =>
      obtain rfl := Option.some.inj (Except.ok.inj h)
      exact (Document.parse_ok hparse).2
    · simp at h

/-- What is at a path is found by following it from the root. -/
lemma FileTree.stat_eq {t : FileTree} {p : Path} (short : ¬ maxPath ≤ p.toString.utf8ByteSize)
    (noNull : hasNull p = false) :
    t.stat p = ((followFrom t.root maxLinks [] (t.fromRoot p).parts).map Prod.snd).mapError
      (FileError.failed · p.toString) := by
  rw [stat, noNull, if_neg Bool.false_ne_true, find, if_neg short]
  cases followFrom t.root maxLinks [] (t.fromRoot p).parts <;> rfl

/-- A regular file is read by its content. -/
lemma FileTree.readText_of_stat {t : FileTree} {key : Path} {content : List UInt8} {changed : ℕ}
    (h : t.stat key = .ok (.file content changed)) :
    t.readText key = textOf key.toString (.ok (.file content changed)) := by
  unfold stat at h
  split at h
  · cases h
  · next hnull =>
    rw [readText, if_neg hnull]
    cases hfind : t.find key with
    | error fault => simp [hfind] at h
    | ok found =>
      obtain ⟨way, e⟩ := found
      obtain rfl : e = .file content changed := by simpa [hfind] using h
      rfl

/-- The signature of a regular file is its time of change and its size. -/
lemma FileTree.exists_file_of_signature? {t : FileTree} {key : Path} {signature : Signature}
    (regular : ∀ e, t.stat key = .ok e → e.isFile) (h : t.signature? key = some signature) :
    ∃ content changed, t.stat key = .ok (.file content changed) ∧
      (changed, content.length) = signature := by
  unfold signature? at h
  cases hstat : t.stat key with
  | error fault => simp [hstat] at h
  | ok e =>
    cases e with
    | file content changed => exact ⟨content, changed, rfl, by simpa [hstat] using h⟩
    | directory | pipe | link => exact absurd (regular _ hstat) (by simp [Entry.isFile])

/-- A kept document is that of its file, unless the file has changed since. -/
def CacheEntry.Current (t : FileTree) (e : CacheEntry) : Prop :=
  t.signature? e.key = some e.signature → t.documentAt e.key = .ok (some e.stored.document)

namespace DocumentStore

variable {t : FileTree} {s s' : DocumentStore} {key p : Path} {signature : Signature}

/-- The document that a lookup gives, without the number that it has in the store. -/
def answer (t : FileTree) (s : DocumentStore) (p : Path) : Except Failure (Option Document) :=
  (s.get t p).result.map (Option.map StoredDocument.document)

/-! ## What a lookup does to the store -/

@[simp] lemma touch_overlays : (s.touch key).overlays = s.overlays := rfl

lemma parse_ok {source : String} {file? : Option Path} {name? : Option String}
    {d : StoredDocument} (h : s.parse source file? name? = .ok (d, s')) :
    Document.parse source file? name? = .ok d.document ∧ d.serial = s.nextSerial ∧
      s' = { s with nextSerial := s.nextSerial + 1 } := by
  unfold parse at h
  split at h
  next document hd =>
    simp only [Except.ok.injEq, Prod.mk.injEq] at h
    obtain ⟨rfl, rfl⟩ := h
    exact ⟨hd, rfl, rfl⟩
  · simp at h

lemma parse_error {source : String} {file? : Option Path} {name? : Option String}
    {f : Failure} (h : s.parse source file? name? = .error f) :
    ∃ fault, Document.parse source file? name? = .error fault ∧ f = .scalar fault := by
  unfold parse at h
  split at h
  · simp at h
  next fault hfault =>
    simp only [Except.error.injEq] at h
    exact ⟨fault, hfault, h.symm⟩

/-- A text that is taken over gives a document of its file. -/
lemma file?_setOverlay {path? : Option Path} {content : String} {d : StoredDocument}
    (h : (s.setOverlay t path? content).result = .ok d) : d.document.file? = path? := by
  unfold setOverlay at h
  split at h
  · cases h
  next d' s' hparse =>
    obtain rfl : d' = d := Except.ok.inj h
    exact (Document.parse_ok (parse_ok hparse).1).2

/-- What reading a file that is not kept can do: nothing can be read, the text has no value, or the
document is read and, if documents are kept at all, kept. -/
lemma load_cases (t : FileTree) (s : DocumentStore) (key : Path) (signature : Signature) :
    (t.documentAt key = .ok none ∧ (s.load t key signature).result = .ok none ∧
        (s.load t key signature).store = s) ∨
      (∃ fault, t.documentAt key = .error (.scalar fault) ∧
        (s.load t key signature).result = .error (.scalar fault) ∧
        (s.load t key signature).store = s) ∨
      ∃ d s', t.documentAt key = .ok (some d.document) ∧ d.document.file? = some key ∧
        d.serial = s.nextSerial ∧ s' = { s with nextSerial := s.nextSerial + 1 } ∧
        (s.load t key signature).result =
          (if s.cacheEnabled ∧ s.maxCacheSize < 0 then .error .emptyCache else .ok (some d)) ∧
        (s.load t key signature).store =
          if s.cacheEnabled then s'.remember ⟨key, signature, d⟩ else s' := by
  unfold load FileTree.documentAt
  cases hread : t.readText key with
  | error e => exact .inl ⟨rfl, rfl, rfl⟩
  | ok text =>
    simp only
    cases hparse : s.parse text (some key) none with
    | error f =>
      obtain ⟨fault, hfault, rfl⟩ := parse_error hparse
      exact .inr (.inl ⟨fault, by simp [hfault], rfl, rfl⟩)
    | ok r =>
      obtain ⟨d, s'⟩ := r
      obtain ⟨hd, hserial, hs'⟩ := parse_ok hparse
      refine .inr (.inr ⟨d, s', by simp [hd], (Document.parse_ok hd).2, hserial, hs', ?_⟩)
      subst hs'
      -- a bound below zero asks for more to be dropped than is kept, and the lookup fails
      by_cases hc : s.cacheEnabled
      · by_cases hm : s.maxCacheSize < 0
        · simp [hc, hm, remember]
        · simp [hc, hm, remember]
      · simp [hc]

/-- What a lookup can do.  The file is read only where no editor has a text, something is there, and
no document is kept under the same signature. -/
lemma get_cases (t : FileTree) (s : DocumentStore) (p : Path) :
    (∃ d, s.overlay? (t.key p) = some d ∧ (s.get t p).result = .ok (some d) ∧
        (s.get t p).store = s) ∨
      (s.overlay? (t.key p) = none ∧ t.signature? (t.key p) = none ∧
        (s.get t p).result = .ok none ∧ (s.get t p).store = s) ∨
      (∃ signature e, s.overlay? (t.key p) = none ∧ t.signature? (t.key p) = some signature ∧
        s.cacheEnabled ∧ s.cache.find? (fun e => e.key == t.key p) = some e ∧
        e.signature = signature ∧ (s.get t p).result = .ok (some e.stored) ∧
        (s.get t p).store = s.touch (t.key p)) ∨
      ∃ signature, s.overlay? (t.key p) = none ∧ t.signature? (t.key p) = some signature ∧
        s.cached? (t.key p) signature = none ∧
        s.get t p = s.load t (t.key p) signature := by
  unfold get
  simp only
  cases ho : s.overlay? (t.key p) with
  | some d => exact .inl ⟨d, rfl, rfl, rfl⟩
  | none =>
    cases hsig : t.signature? (t.key p) with
    | none => exact .inr (.inl ⟨rfl, rfl, rfl, rfl⟩)
    | some signature =>
      cases hc : s.cached? (t.key p) signature with
      | none => exact .inr (.inr (.inr ⟨signature, rfl, rfl, hc, by simp [hc]⟩))
      | some d =>
        have hc' := hc
        unfold cached? at hc
        split_ifs at hc with hen
        split at hc
        next e he =>
          split_ifs at hc with hs
          obtain rfl := Option.some.inj hc
          exact .inr (.inr (.inl
            ⟨signature, e, rfl, rfl, hen, he, hs, by simp [hc'], by simp [hc']⟩))
        · simp at hc

lemma get_overlays (t : FileTree) (s : DocumentStore) (p : Path) :
    (s.get t p).store.overlays = s.overlays := by
  rcases get_cases t s p with ⟨d, -, -, h⟩ | ⟨-, -, -, h⟩ | ⟨sig, e, -, -, -, -, -, -, h⟩ |
    ⟨sig, -, -, -, h⟩
  · rw [h]
  · rw [h]
  · rw [h, touch_overlays]
  · rw [h]
    rcases load_cases t s (t.key p) sig with ⟨-, -, h⟩ | ⟨_, -, -, h⟩ | ⟨d, s', -, -, -, rfl, -, h⟩
    · rw [h]
    · rw [h]
    · rw [h]
      split <;> rfl

/-- A document that a lookup gives is held by the store, or is that of a file that can be read. -/
lemma get_result_some {d : StoredDocument} (h : (s.get t p).result = .ok (some d)) :
    (∃ o ∈ s.overlays, o.2 = d) ∨ (∃ e ∈ s.cache, e.stored = d) ∨
      (d.document.file? = some (t.key p) ∧ ∃ text, t.readText (t.key p) = .ok text) := by
  rcases get_cases t s p with ⟨d', ho, hr, -⟩ | ⟨-, -, hr, -⟩ | ⟨sig, e, -, -, -, he, -, hr, -⟩ |
    ⟨sig, -, -, -, hr⟩
  · obtain rfl : d' = d := by simpa [hr] using h
    exact .inl ⟨_, Keyed.mem_of_lookup ho, rfl⟩
  · simp [hr] at h
  · obtain rfl : e.stored = d := by simpa [hr] using h
    exact .inr (.inl ⟨e, List.mem_of_find?_eq_some he, rfl⟩)
  · rw [hr] at h
    rcases load_cases t s (t.key p) sig with ⟨-, hl, -⟩ | ⟨_, -, hl, -⟩ |
      ⟨d', s', hat, hfile, -, -, hl, -⟩
    · simp [hl] at h
    · simp [hl] at h
    · rw [hl] at h
      split_ifs at h with hneg
      obtain rfl : d' = d := by simpa using h
      refine .inr (.inr ⟨hfile, ?_⟩)
      unfold FileTree.documentAt at hat
      split at hat
      · simp at hat
      next text htext => exact ⟨text, htext⟩

/-! ## What is kept -/

/-- Documents can be kept, or are not to be kept. -/
def CanKeep (s : DocumentStore) : Prop :=
  s.cacheEnabled → 0 ≤ s.maxCacheSize

/-- A lookup keeps what was kept, or something that it has just read. -/
lemma mem_cache_get {e : CacheEntry} (h : e ∈ (s.get t p).store.cache) :
    e ∈ s.cache ∨ (e.key = t.key p ∧ t.signature? e.key = some e.signature ∧
      t.documentAt e.key = .ok (some e.stored.document)) := by
  rcases get_cases t s p with ⟨d, -, -, hs⟩ | ⟨-, -, -, hs⟩ | ⟨sig, e', -, -, -, -, -, -, hs⟩ |
    ⟨sig, -, hsig, -, hload⟩
  · exact .inl (hs ▸ h)
  · exact .inl (hs ▸ h)
  · rw [hs, touch] at h
    rcases List.mem_append.mp h with h | h
    · exact .inl ((List.mem_filter.mp h).1)
    · exact .inl ((List.mem_filter.mp h).1)
  · rw [hload] at h
    rcases load_cases t s (t.key p) sig with ⟨-, -, hs⟩ | ⟨_, -, -, hs⟩ |
      ⟨d, s', hat, -, -, rfl, -, hs⟩
    · exact .inl (hs ▸ h)
    · exact .inl (hs ▸ h)
    · rw [hs] at h
      split at h
      · rcases List.mem_append.mp (List.mem_of_mem_drop h) with h | h
        · exact .inl ((List.mem_filter.mp h).1)
        · obtain rfl := List.mem_singleton.mp h
          exact .inr ⟨rfl, hsig, hat⟩
      · exact .inl h

lemma get_settings (t : FileTree) (s : DocumentStore) (p : Path) :
    (s.get t p).store.cacheEnabled = s.cacheEnabled ∧
      (s.get t p).store.maxCacheSize = s.maxCacheSize := by
  rcases get_cases t s p with ⟨d, -, -, hs⟩ | ⟨-, -, -, hs⟩ | ⟨sig, e', -, -, -, -, -, -, hs⟩ |
    ⟨sig, -, -, -, hload⟩
  · rw [hs]; exact ⟨rfl, rfl⟩
  · rw [hs]; exact ⟨rfl, rfl⟩
  · rw [hs]; exact ⟨rfl, rfl⟩
  · rw [hload]
    rcases load_cases t s (t.key p) sig with
      ⟨-, -, hs⟩ | ⟨_, -, -, hs⟩ | ⟨d, s', -, -, -, rfl, -, hs⟩
    · rw [hs]; exact ⟨rfl, rfl⟩
    · rw [hs]; exact ⟨rfl, rfl⟩
    · rw [hs]
      split <;> exact ⟨rfl, rfl⟩

/-- Where an editor has a text, its document is given as it is, and nothing changes. -/
lemma get_of_overlay {d : StoredDocument} (h : s.overlay? (t.key p) = some d) :
    s.get t p = ⟨.ok (some d), s, []⟩ := by
  simp [get, h]

/-- Where no editor has a text, and what is kept for the path is current, a lookup gives the
document of the file; if that cannot be had, nothing changes. -/
lemma get_of_current (hs : s.CanKeep) (ho : s.overlay? (t.key p) = none)
    (hc : ∀ e ∈ s.cache, e.key = t.key p → e.Current t) :
    s.answer t p = t.documentAt (t.key p) ∧
      ∀ f, (s.get t p).result = .error f → (s.get t p).store = s := by
  unfold answer
  rcases get_cases t s p with ⟨d, ho', -⟩ | ⟨-, hsig, hr, hstore⟩ |
    ⟨sig, e, -, hsig, -, he, hes, hr, hstore⟩ | ⟨sig, -, hsig, -, hload⟩
  · simp [ho'] at ho
  · rw [hr, FileTree.documentAt_of_signature?_eq_none hsig]
    exact ⟨rfl, fun _ _ => hstore⟩
  -- the file still has the signature of the kept document
  · have hkey : e.key = t.key p := by simpa using List.find?_some he
    have hat := hc e (List.mem_of_find?_eq_some he) hkey (by rw [hkey, hsig, hes])
    rw [hr, ← hkey, hat]
    exact ⟨rfl, fun f hf => by simp at hf⟩
  · rw [hload]
    rcases load_cases t s (t.key p) sig with ⟨hat, hr, hstore⟩ | ⟨fault, hat, hr, hstore⟩ |
      ⟨d, s', hat, -, -, -, hr, -⟩
    · rw [hat, hr]
      exact ⟨rfl, fun _ _ => hstore⟩
    · rw [hat, hr]
      exact ⟨rfl, fun _ _ => hstore⟩
    · have hpos : ¬(s.cacheEnabled ∧ s.maxCacheSize < 0) := by
        rintro ⟨hen, hneg⟩
        have := hs hen
        omega
      rw [hat, hr, if_neg hpos]
      exact ⟨rfl, fun f hf => by simp at hf⟩

/-! ## Stores that only answer -/

/-- One store comes from another by lookups alone. -/
inductive Lookups (t : FileTree) (s : DocumentStore) : DocumentStore → Prop
  | refl : Lookups t s s
  | get {s' : DocumentStore} (p : Path) : Lookups t s s' → Lookups t s (s'.get t p).store

/-- A store whose answers stay the same as long as it is only asked. -/
def Steady (t : FileTree) (s : DocumentStore) : Prop :=
  ∀ s', Lookups t s s' → ∀ p, s'.answer t p = s.answer t p

lemma Lookups.overlays (h : Lookups t s s') : s'.overlays = s.overlays := by
  induction h with
  | refl => rfl
  | get p _ ih => rw [get_overlays, ih]

/-- All that is kept is current. -/
def Truthful (t : FileTree) (s : DocumentStore) : Prop :=
  s.CanKeep ∧ ∀ e ∈ s.cache, e.Current t

lemma Truthful.get (h : s.Truthful t) (p : Path) : (s.get t p).store.Truthful t := by
  obtain ⟨hen, hmax⟩ := get_settings t s p
  refine ⟨?_, fun e he => ?_⟩
  · rw [CanKeep, hen, hmax]
    exact h.1
  · rcases mem_cache_get he with he | ⟨-, -, hat⟩
    · exact h.2 e he
    · exact fun _ => hat

lemma Truthful.lookups (h : s.Truthful t) (hl : Lookups t s s') : s'.Truthful t := by
  induction hl with
  | refl => exact h
  | get p _ ih => exact ih.get p

/-- A store in which all that is kept is current gives the same answers however often it is
asked. -/
lemma Truthful.steady (h : s.Truthful t) : s.Steady t := by
  intro s' hl p
  have h' := h.lookups hl
  have hover : s'.overlay? (t.key p) = s.overlay? (t.key p) := by
    rw [overlay?, hl.overlays, overlay?]
  cases ho : s.overlay? (t.key p) with
  | some d => rw [answer, answer, get_of_overlay ho, get_of_overlay (hover.trans ho)]
  | none =>
    rw [(get_of_current h.1 ho fun e he _ => h.2 e he).1,
      (get_of_current h'.1 (hover.trans ho) fun e he _ => h'.2 e he).1]

/-! ## The files of documents -/

/-- Every document that the store holds belongs to a file. -/
def Filed (s : DocumentStore) : Prop :=
  (∀ o ∈ s.overlays, o.2.document.file?.isSome) ∧ ∀ e ∈ s.cache, e.stored.document.file?.isSome

lemma filed_empty (cacheEnabled : Bool) (maxCacheSize : Int) :
    (empty cacheEnabled maxCacheSize).Filed :=
  ⟨fun _ ho => absurd ho List.not_mem_nil, fun _ he => absurd he List.not_mem_nil⟩

/-- The documents that such a store gives belong to files. -/
lemma Filed.answer (h : s.Filed) {d : Document} (hd : s.answer t p = .ok (some d)) :
    ∃ file, d.file? = some file := by
  unfold DocumentStore.answer at hd
  cases hget : (s.get t p).result with
  | error f => simp [hget, Except.map] at hd
  | ok found =>
    obtain ⟨stored, rfl, rfl⟩ : ∃ stored, found = some stored ∧ stored.document = d := by
      simpa [hget, Except.map] using hd
    rcases get_result_some hget with ⟨o, ho, rfl⟩ | ⟨e, he, rfl⟩ | ⟨hfile, -⟩
    · exact Option.isSome_iff_exists.mp (h.1 o ho)
    · exact Option.isSome_iff_exists.mp (h.2 e he)
    · exact ⟨_, hfile⟩

end DocumentStore

end KsyTools
