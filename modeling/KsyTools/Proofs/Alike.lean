/-
# Sessions that answer alike

Two sessions are alike if editors hold the same documents in both, if all that is kept is current,
and if the grammar is the same.  From alike sessions the checks of a document give the same result,
and leave alike sessions behind.
-/
import KsyTools.Proofs.Ksy.Warnings

namespace KsyTools

open DocumentStore (Lookups)

/-- The document that is shown for a path: that of the text that an editor holds, or else that of
the file as it is. -/
def Session.shown (t : FileTree) (s : Session) (p : Path) : Except Failure (Option Document) :=
  match (s.store.overlay? (t.key p)).map StoredDocument.document with
  | some d => .ok (some d)
  | none => t.documentAt (t.key p)

/-- A store in which all that is kept is current answers with what is shown. -/
lemma Session.answer_eq_shown {t : FileTree} {s : Session} (h : s.store.Truthful t) (p : Path) :
    s.store.answer t p = s.shown t p := by
  unfold shown
  cases ho : s.store.overlay? (t.key p) with
  | some d =>
    rw [DocumentStore.answer, DocumentStore.get_of_overlay ho]
    rfl
  | none => exact (DocumentStore.get_of_current h.1 ho fun e he _ => h.2 e he).1

/-- Two sessions answer alike. -/
structure Session.Alike (t : FileTree) (s s' : Session) : Prop where
  left : s.store.Truthful t
  right : s'.store.Truthful t
  overlays : ∀ key, (s'.store.overlay? key).map StoredDocument.document =
    (s.store.overlay? key).map StoredDocument.document
  grammar : (s'.schemas.grammar t s'.grammarFile?).1 = (s.schemas.grammar t s.grammarFile?).1

namespace Session.Alike

variable {t : FileTree} {s s' s'' : Session}

lemma refl (h : s.store.Truthful t) : s.Alike t s :=
  ⟨h, h, fun _ => rfl, rfl⟩

lemma trans (h : s.Alike t s') (h' : s'.Alike t s'') : s.Alike t s'' :=
  ⟨h.left, h'.right, fun key => (h'.overlays key).trans (h.overlays key),
    h'.grammar.trans h.grammar⟩

lemma shown (h : s.Alike t s') (p : Path) : s'.shown t p = s.shown t p := by
  rw [Session.shown, h.overlays, Session.shown]

lemma answer (h : s.Alike t s') (p : Path) : s'.store.answer t p = s.store.answer t p := by
  rw [answer_eq_shown h.left, answer_eq_shown h.right, h.shown]

lemma hasOverlay (h : s.Alike t s') (p : Path) :
    s'.store.hasOverlay t p = s.store.hasOverlay t p := by
  have same := congrArg Option.isSome (h.overlays (t.key p))
  rw [Option.isSome_map, Option.isSome_map] at same
  exact same

/-- Looking documents up and writing to the log leaves a session alike. -/
lemma lookups (h : s.Alike t s') (asked : Lookups t s'.store s''.store)
    (schemas : s''.schemas = s'.schemas) (file : s''.grammarFile? = s'.grammarFile?) :
    s.Alike t s'' := by
  refine ⟨h.left, h.right.lookups asked, fun key => ?_, ?_⟩
  · rw [DocumentStore.overlay?, asked.overlays]
    exact h.overlays key
  · rw [schemas, file, h.grammar]

/-- The sessions that are like one in which all that is kept is current cannot be told apart. -/
lemma uniform (h : s.store.Truthful t) : s.Uniform t (s.Alike t) where
  start := refl h
  asked := lookups
  afterGrammar h := ⟨h.left, h.right, h.overlays,
    (Session.grammarResult_afterGrammar t _).trans h.grammar⟩
  imported h := Ksy.importedDocument_of_answers h.hasOverlay h.answer
  grammar h := h.grammar

end Session.Alike

/-! ## Computations whose result is settled -/

/-- From every session that is like a given one a computation gives the same result, and leaves a
session of this kind behind. -/
def Work.Gives {α : Type} (t : FileTree) (s₀ : Session) (w : Work α) (r : Except Failure α) :
    Prop :=
  ∀ s, s₀.Alike t s → (s.run t w).1 = r ∧ s₀.Alike t (s.run t w).2

/-- The result of a computation is settled by what a session shows. -/
def Work.Settled {α : Type} (t : FileTree) (s₀ : Session) (w : Work α) : Prop :=
  ∃ r, w.Gives t s₀ r

namespace Work

variable {t : FileTree} {s₀ : Session}

lemma gives_log (record : LogRecord) : (Work.log record).Gives t s₀ (.ok ()) :=
  fun _ hs => ⟨rfl, hs.lookups .refl rfl rfl⟩

/-- The diagnostics of a document are settled by what a session shows. -/
lemma Settled.diagnostics (d : Document) : (Diagnostic.all d).Settled t s₀ := by
  by_cases truthful : s₀.store.Truthful t
  · exact (Session.Alike.uniform truthful).diagnostics d
  · -- nothing is like a session in which something is not current
    exact ⟨.error .endless, fun s hs => absurd hs.left truthful⟩

end Work

end KsyTools
