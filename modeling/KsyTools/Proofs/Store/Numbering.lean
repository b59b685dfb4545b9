/-
# The numbers of documents

A store gives every document that it parses a number, so parsing a text that the store does not hold
changes the store, if only by a number.  The numbers of documents decide nothing: two stores that
are the same without their numbers give the same documents, and stay the same without their numbers.
-/
import KsyTools.Proofs.Store.Lookup

namespace KsyTools

/-- A document without its number. -/
def StoredDocument.unnumbered (d : StoredDocument) : StoredDocument :=
  { d with serial := 0 }

/-- What is kept for a file, without the number of the document. -/
def CacheEntry.unnumbered (e : CacheEntry) : CacheEntry :=
  { e with stored := e.stored.unnumbered }

namespace DocumentStore

/-- A store without the numbers of its documents. -/
def unnumbered (s : DocumentStore) : DocumentStore :=
  { s with
    overlays := s.overlays.map fun o => (o.1, o.2.unnumbered)
    cache := s.cache.map CacheEntry.unnumbered
    nextSerial := 0 }

variable {t : FileTree} {s s₁ s₂ : DocumentStore}

@[simp] lemma overlay?_unnumbered (key : Path) :
    s.unnumbered.overlay? key = (s.overlay? key).map StoredDocument.unnumbered := by
  unfold unnumbered overlay?
  induction s.overlays with
  | nil => rfl
  | cons o rest ih =>
    rw [List.map_cons, List.lookup_cons, List.lookup_cons, ih]
    split <;> rfl

@[simp] lemma cached?_unnumbered (key : Path) (signature : Signature) :
    s.unnumbered.cached? key signature =
      (s.cached? key signature).map StoredDocument.unnumbered := by
  have hfind : s.unnumbered.cache.find? (fun e => e.key == key) =
      (s.cache.find? fun e => e.key == key).map CacheEntry.unnumbered := by
    simp only [unnumbered, List.find?_map]
    rfl
  unfold cached?
  rw [hfind]
  change (if s.cacheEnabled = true then _ else _) = _
  split
  · cases s.cache.find? fun e => e.key == key with
    | none => rfl
    | some e =>
      change (if e.signature = signature then _ else _) =
        Option.map _ (if e.signature = signature then _ else _)
      split <;> rfl
  · rfl

lemma touch_unnumbered (key : Path) : s.unnumbered.touch key = (s.touch key).unnumbered := by
  unfold touch unnumbered
  simp only [List.map_append, List.filter_map]
  rfl

lemma remember_unnumbered (e : CacheEntry) :
    (s.remember e).unnumbered = s.unnumbered.remember e.unnumbered := by
  unfold remember unnumbered
  simp only [List.map_drop, List.map_append, List.filter_map, List.length_append, List.length_map]
  rfl

@[simp] lemma unnumbered_unnumbered : s.unnumbered.unnumbered = s.unnumbered := by
  unfold unnumbered
  simp only [List.map_map]
  rfl

/-- Reading a file gives the same document, whatever number it gets. -/
lemma load_unnumbered (key : Path) (signature : Signature) :
    (s.unnumbered.load t key signature).result.map (Option.map StoredDocument.unnumbered) =
        (s.load t key signature).result.map (Option.map StoredDocument.unnumbered) ∧
      (s.unnumbered.load t key signature).store.unnumbered =
        (s.load t key signature).store.unnumbered := by
  rcases load_cases t s key signature with ⟨hat, hr, hs⟩ | ⟨fault, hat, hr, hs⟩ |
    ⟨d, next, hat, -, -, hnext, hr, hs⟩
  -- what is read does not depend on the store, so both stores are in the same case
  · rcases load_cases t s.unnumbered key signature with ⟨-, hr', hs'⟩ | ⟨fault', hat', -, -⟩ |
      ⟨d', next', hat', -, -, -, -, -⟩
    · rw [hr, hr', hs, hs']
      exact ⟨rfl, unnumbered_unnumbered⟩
    · simp [hat] at hat'
    · simp [hat] at hat'
  · rcases load_cases t s.unnumbered key signature with ⟨hat', -, -⟩ | ⟨fault', hat', hr', hs'⟩ |
      ⟨d', next', hat', -, -, -, -, -⟩
    · simp [hat] at hat'
    · obtain rfl : fault = fault' := by simpa [hat] using hat'
      rw [hr, hr', hs, hs']
      exact ⟨rfl, unnumbered_unnumbered⟩
    · simp [hat] at hat'
  · obtain ⟨d', next', hat', hnext', hr', hs'⟩ :
        ∃ d' next', t.documentAt key = .ok (some d'.document) ∧
          next' = { s.unnumbered with nextSerial := s.unnumbered.nextSerial + 1 } ∧
          (s.unnumbered.load t key signature).result =
            (if s.cacheEnabled ∧ s.maxCacheSize < 0 then .error .emptyCache else .ok (some d')) ∧
          (s.unnumbered.load t key signature).store =
            if s.cacheEnabled then next'.remember ⟨key, signature, d'⟩ else next' := by
      rcases load_cases t s.unnumbered key signature with ⟨hat', -, -⟩ | ⟨fault', hat', -, -⟩ |
        ⟨d', next', hat', -, -, hnext', hr', hs'⟩
      · simp [hat] at hat'
      · simp [hat] at hat'
      · exact ⟨d', next', hat', hnext', hr', hs'⟩
    rw [hat] at hat'
    -- the document is the same, and from now on the numbers differ
    have hd : d'.unnumbered = d.unnumbered := by
      have hdocument : d.document = d'.document := by simpa using hat'
      rw [StoredDocument.unnumbered, StoredDocument.unnumbered, hdocument]
    have hsame : next'.unnumbered = next.unnumbered := by
      subst hnext hnext'
      exact show s.unnumbered.unnumbered = s.unnumbered from unnumbered_unnumbered
    have hkept : (next'.remember ⟨key, signature, d'⟩).unnumbered =
        (next.remember ⟨key, signature, d⟩).unnumbered := by
      rw [remember_unnumbered, remember_unnumbered, hsame, CacheEntry.unnumbered,
        CacheEntry.unnumbered, hd]
    rw [hr, hr', hs, hs']
    change Except.map _ (if s.cacheEnabled = true ∧ s.maxCacheSize < 0 then _ else _) = _ ∧
      DocumentStore.unnumbered (if s.cacheEnabled = true then _ else _) = _
    constructor
    · split
      · rfl
      · exact congrArg (fun x => Except.ok (some x)) hd
    · split
      · exact hkept
      · exact hsame

/-- A lookup gives the same document, and leaves the same store behind, whatever numbers the
documents of the store have. -/
lemma get_unnumbered (p : Path) :
    (s.unnumbered.get t p).result.map (Option.map StoredDocument.unnumbered) =
        (s.get t p).result.map (Option.map StoredDocument.unnumbered) ∧
      (s.unnumbered.get t p).store.unnumbered = (s.get t p).store.unnumbered := by
  unfold get
  simp only [overlay?_unnumbered]
  cases s.overlay? (t.key p) with
  | some d => exact ⟨rfl, unnumbered_unnumbered⟩
  | none =>
    cases t.signature? (t.key p) with
    | none => exact ⟨rfl, unnumbered_unnumbered⟩
    | some signature =>
      simp only [Option.map_none, cached?_unnumbered]
      cases s.cached? (t.key p) signature with
      | some d =>
        refine ⟨rfl, ?_⟩
        simp only [Option.map_some, touch_unnumbered, unnumbered_unnumbered]
      | none => exact load_unnumbered (t.key p) signature

lemma answer_unnumbered (p : Path) : s.unnumbered.answer t p = s.answer t p := by
  have hdocument : ∀ r : Except Failure (Option StoredDocument),
      (r.map (Option.map StoredDocument.unnumbered)).map (Option.map StoredDocument.document) =
        r.map (Option.map StoredDocument.document) := by
    intro r
    cases r with
    | error e => rfl
    | ok d => cases d <;> rfl
  unfold answer
  rw [← hdocument, (get_unnumbered p).1, hdocument]

/-- What can be asked of one store can be asked of any other that is the same without numbers. -/
lemma Lookups.renumber {s₁' : DocumentStore} (h : Lookups t s₁ s₁')
    (hsame : s₂.unnumbered = s₁.unnumbered) :
    ∃ s₂', Lookups t s₂ s₂' ∧ s₂'.unnumbered = s₁'.unnumbered := by
  induction h with
  | refl => exact ⟨s₂, .refl, hsame⟩
  | @get s' p _ ih =>
    obtain ⟨s₂', hasked, hsame'⟩ := ih
    refine ⟨(s₂'.get t p).store, hasked.get p, ?_⟩
    rw [← (get_unnumbered p).2, hsame', (get_unnumbered p).2]

end DocumentStore

end KsyTools
