/-
# Sessions that were only asked

The tools look documents up, ask for the grammar, write to the log, and parse texts that the store
does not hold.  If the answers of the store stay the same as long as it is only asked, nothing of
this can be told apart by what is asked afterwards.
-/
import KsyTools.Proofs.Store.Numbering
import KsyTools.Proofs.Uniform

namespace KsyTools

open DocumentStore (Lookups Steady)

/-- A session has only been asked since another one: the store comes from lookups, apart from the
numbers of its documents, and the grammar is the same. -/
structure Session.Asked (t : FileTree) (s₀ s : Session) : Prop where
  store : ∃ store, Lookups t s₀.store store ∧ s.store.unnumbered = store.unnumbered
  grammar : s.grammarResult t = s₀.grammarResult t

namespace Session.Asked

variable {t : FileTree} {s₀ s s' : Session}

lemma refl (t : FileTree) (s : Session) : s.Asked t s :=
  ⟨⟨s.store, .refl, rfl⟩, rfl⟩

/-- New numbers change nothing. -/
lemma renumber (h : s₀.Asked t s) (store : s'.store.unnumbered = s.store.unnumbered)
    (schemas : s'.schemas = s.schemas) (file : s'.grammarFile? = s.grammarFile?) :
    s₀.Asked t s' := by
  obtain ⟨⟨store', hasked, hsame⟩, hgrammar⟩ := h
  refine ⟨⟨store', hasked, store.trans hsame⟩, ?_⟩
  rw [← hgrammar, grammarResult, grammarResult, schemas, file]

lemma lookups (h : s₀.Asked t s) (asked : Lookups t s.store s'.store)
    (schemas : s'.schemas = s.schemas) (file : s'.grammarFile? = s.grammarFile?) :
    s₀.Asked t s' := by
  obtain ⟨⟨store, hasked, hsame⟩, hgrammar⟩ := h
  obtain ⟨store', hasked', hsame'⟩ := asked.renumber hsame.symm
  refine ⟨⟨store', hasked.trans hasked', hsame'.symm⟩, ?_⟩
  rw [← hgrammar, grammarResult, grammarResult, schemas, file]

lemma hasOverlay (h : s₀.Asked t s) (p : Path) :
    s.store.hasOverlay t p = s₀.store.hasOverlay t p := by
  obtain ⟨⟨store, hasked, hsame⟩, -⟩ := h
  have hsome := congrArg (fun x => (x.overlay? (t.key p)).isSome) hsame
  simp only [DocumentStore.overlay?_unnumbered, Option.isSome_map] at hsome
  rw [DocumentStore.hasOverlay, hsome, DocumentStore.overlay?, hasked.overlays]
  rfl

lemma answer (hs : Steady t s₀.store) (h : s₀.Asked t s) (p : Path) :
    s.store.answer t p = s₀.store.answer t p := by
  obtain ⟨⟨store, hasked, hsame⟩, -⟩ := h
  calc s.store.answer t p = s.store.unnumbered.answer t p :=
    (DocumentStore.answer_unnumbered p).symm
    _ = store.answer t p := by rw [hsame, DocumentStore.answer_unnumbered]
    _ = s₀.store.answer t p := hs store hasked p

/-- If the answers of a store stay the same, sessions that were only asked cannot be told apart. -/
lemma uniform (hs : Steady t s₀.store) : s₀.Uniform t (s₀.Asked t) where
  start := refl t s₀
  asked := lookups
  afterGrammar h := ⟨h.store, (Session.grammarResult_afterGrammar t _).trans h.grammar⟩
  imported h := Ksy.importedDocument_of_answers h.hasOverlay (answer hs h)
  grammar h := h.grammar

end Session.Asked

end KsyTools
