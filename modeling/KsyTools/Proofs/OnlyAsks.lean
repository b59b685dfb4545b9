/-
# Computations that only ask

Most of the tools change nothing in the store but what is kept for files: they look documents up.
Whatever they do, texts that editors hold stay as they are, and the store answers as before.
-/
import KsyTools.Proofs.Ksy.ImportWalk
import KsyTools.Proofs.Ksy.ImportedDocument
import KsyTools.Server.Diagnostic

namespace KsyTools

open DocumentStore (Lookups)

lemma DocumentStore.Lookups.trans {t : FileTree} {s s' s'' : DocumentStore} (h : Lookups t s s')
    (h' : Lookups t s' s'') : Lookups t s s'' := by
  induction h' with
  | refl => exact h
  | get p _ ih => exact ih.get p

/-- A computation that does nothing to the store but look documents up. -/
structure Work.OnlyAsks {α : Type} (w : Work α) : Prop where
  lookups : ∀ (s : Session) (t : FileTree), Lookups t s.store (s.run t w).2.store

namespace Work.OnlyAsks

variable {α β : Type}

/-! ## How computations are put together -/

lemma pure (a : α) : OnlyAsks (Pure.pure a : Work α) := ⟨fun _ _ => .refl⟩

lemma throw (f : Failure) : OnlyAsks (MonadExcept.throw f : Work α) := ⟨fun _ _ => .refl⟩

lemma log (record : LogRecord) : OnlyAsks (Work.log record) := ⟨fun _ _ => .refl⟩

lemma read : OnlyAsks (MonadReader.read : Work FileTree) := ⟨fun _ _ => .refl⟩

lemma get : OnlyAsks (MonadState.get : Work Session) := ⟨fun _ _ => .refl⟩

lemma bind {w : Work α} {f : α → Work β} (hw : OnlyAsks w) (hf : ∀ a, OnlyAsks (f a)) :
    OnlyAsks (w >>= f) := by
  refine ⟨fun s t => ?_⟩
  have h := hw.lookups s t
  rw [Session.run_bind]
  rcases hrun : s.run t w with ⟨e | a, s'⟩
  · rwa [hrun] at h
  · rw [hrun] at h
    exact h.trans ((hf a).lookups s' t)

lemma map {w : Work α} (f : α → β) (hw : OnlyAsks w) : OnlyAsks (f <$> w) := by
  rw [← bind_pure_comp]
  exact hw.bind fun a => pure (f a)

lemma tryCatch {w : Work α} {handler : Failure → Work α} (hw : OnlyAsks w)
    (hhandler : ∀ e, OnlyAsks (handler e)) : OnlyAsks (MonadExcept.tryCatch w handler) := by
  refine ⟨fun s t => ?_⟩
  have h := hw.lookups s t
  rw [Session.run_tryCatch]
  rcases hrun : s.run t w with ⟨e | a, s'⟩
  · rw [hrun] at h
    exact h.trans ((hhandler e).lookups s' t)
  · rwa [hrun] at h

lemma mapM {f : α → Work β} (hf : ∀ a, OnlyAsks (f a)) (xs : List α) : OnlyAsks (xs.mapM f) := by
  induction xs with
  | nil => exact pure []
  | cons x rest ih =>
    rw [List.mapM_cons]
    exact (hf x).bind fun b => ih.bind fun bs => pure (b :: bs)

/-! ## What the tools do -/

lemma getDocument (p : Path) : OnlyAsks (Work.getDocument p) := by
  refine ⟨fun s t => ?_⟩
  rw [Session.run_getDocument]
  exact .get p .refl

lemma grammar : OnlyAsks Work.grammar := by
  refine ⟨fun s t => ?_⟩
  simp only [Work.grammar, Session.run_bind, Session.run_get, Session.run_read, Session.run_set]
  split <;> exact .refl

lemma computeImportPath (text : String) (d : Document) :
    OnlyAsks (Ksy.computeImportPath text d) := by
  refine ⟨fun s t => ?_⟩
  obtain ⟨log, hrun⟩ := Ksy.run_computeImportPath s t text d
  rw [hrun]
  exact .refl

lemma resolveImport (text : String) (d : Document) : OnlyAsks (Ksy.resolveImport text d) := by
  refine ⟨fun s t => ?_⟩
  obtain ⟨log, hrun⟩ := Ksy.run_resolveImport s t text d
  rw [hrun]
  rcases Ksy.importAnswer_cases t s.store text d with ha | ha
  · rw [ha]
    exact .get _ .refl
  · rw [ha]
    exact .refl

lemma includes (d : Document) : OnlyAsks (Ksy.includes d) := by
  unfold Ksy.includes
  split
  · exact pure []
  · refine mapM (fun l => ?_) _
    exact (computeImportPath l.node.text d).bind fun _ => pure _

end Work.OnlyAsks

namespace Ksy

/-! ## The walk over imports -/

/-- A part of the walk that does nothing to the store but look documents up. -/
structure Collect.OnlyAsks {α : Type} (w : Collect α) : Prop where
  run : ∀ c, Work.OnlyAsks (w.run c)

namespace Collect.OnlyAsks

variable {α β : Type}

lemma pure (a : α) : OnlyAsks (Pure.pure a : Collect α) := ⟨fun c => .pure (a, c)⟩

lemma get : OnlyAsks (MonadState.get : Collect Collected) := ⟨fun c => .pure (c, c)⟩

lemma read : OnlyAsks (MonadReader.read : Collect FileTree) :=
  ⟨fun _ => ⟨fun _ _ => .refl⟩⟩

lemma change (f : Collected → Collected) : OnlyAsks (modify f : Collect PUnit) :=
  ⟨fun _ => ⟨fun _ _ => .refl⟩⟩

lemma lift {w : Work α} (hw : w.OnlyAsks) : OnlyAsks (liftM w : Collect α) :=
  ⟨fun c => hw.bind fun a => .pure (a, c)⟩

lemma bind {w : Collect α} {f : α → Collect β} (hw : OnlyAsks w) (hf : ∀ a, OnlyAsks (f a)) :
    OnlyAsks (w >>= f) := by
  refine ⟨fun c => ?_⟩
  rw [StateT.run_bind]
  exact (hw.run c).bind fun r => (hf r.1).run r.2

lemma forM {f : α → Collect Unit} (hf : ∀ a, OnlyAsks (f a)) (xs : List α) :
    OnlyAsks (xs.forM f) := by
  induction xs with
  | nil => exact pure ()
  | cons x rest ih => exact (hf x).bind fun _ => ih

lemma followImport {visit : Document → Collect Unit} (hvisit : ∀ d, OnlyAsks (visit d))
    (d : Document) (l : Located) : OnlyAsks (Ksy.followImport visit d l) := by
  unfold Ksy.followImport
  refine (lift (.resolveImport l.node.text d)).bind fun resolved => ?_
  cases resolved.target? with
  | none => exact pure ()
  | some target =>
    refine get.bind fun c => read.bind fun t => ?_
    split
    · exact lift (.log _)
    · exact hvisit target.document

lemma visitLocated {follow : Located → Collect Unit} (hfollow : ∀ l, OnlyAsks (follow l))
    (d : Document) (l : Located) : OnlyAsks (Ksy.visitLocated d follow l) := by
  unfold Ksy.visitLocated
  split
  · exact hfollow l
  · split
    · exact change _
    · exact pure ()

lemma visitDocument (depth : ℕ) (d : Document) : OnlyAsks (Ksy.visitDocument depth d) := by
  induction depth generalizing d with
  | zero => exact pure ()
  | succ depth ih =>
    rw [Ksy.visitDocument]
    refine read.bind fun t => (change _).bind fun _ => ?_
    rw [visitNodes_eq_forM]
    exact forM (visitLocated (followImport ih d) d) _

end Collect.OnlyAsks

end Ksy

namespace Work.OnlyAsks

lemma collectTypes (d : Document) : OnlyAsks (Ksy.collectTypes d) := by
  unfold Ksy.collectTypes Ksy.walkTypes Ksy.walkImports
  split
  · refine bind ?_ fun c => pure c.types
    refine read.bind fun t => get.bind fun s => ?_
    exact ((Ksy.Collect.OnlyAsks.visitDocument _ d).run _).bind fun r => pure r.2
  · exact pure []

/-! ## References and diagnostics -/

lemma referencesWith (d : Document) (l : Located) {types : Work (List Ksy.Definition)}
    (htypes : OnlyAsks types) : OnlyAsks (Ksy.referencesWith d l types) := by
  unfold Ksy.referencesWith
  split
  · exact pure []
  · extract_lets imports
    split
    · exact htypes.bind fun _ => pure _
    · exact pure imports

lemma forReferences {β : Type} (d : Document) {each : Ksy.Reference → Work (List β)}
    (heach : ∀ r, OnlyAsks (each r)) (known : Option (List Ksy.Definition)) (ls : List Located) :
    OnlyAsks (Ksy.forReferences d each known ls) := by
  induction ls generalizing known with
  | nil => exact pure []
  | cons l rest ih =>
    -- the types are collected before the first node that needs them, and handed on
    have hrest : ∀ known : Option (List Ksy.Definition), OnlyAsks (do
        let references ← Ksy.referencesWith d l (return known.getD [])
        let here ← references.mapM each
        return here.flatten ++ (← Ksy.forReferences d each known rest)) := fun known =>
      (referencesWith d l (pure _)).bind fun references =>
        (mapM heach references).bind fun _ => (ih known).bind fun _ => pure _
    unfold Ksy.forReferences
    cases known with
    | some types => exact (pure _).bind hrest
    | none =>
      simp only
      split
      · exact ((collectTypes d).map some).bind hrest
      · exact (pure _).bind hrest

lemma referenceIssue (d : Document) (r : Ksy.Reference) : OnlyAsks (Ksy.referenceIssue d r) := by
  unfold Ksy.referenceIssue
  cases r with
  | toDocument l =>
    refine (resolveImport _ d).bind fun resolved => ?_
    split
    · exact pure []
    · exact (computeImportPath _ d).bind fun _ => pure _
  | toType l types =>
    simp only
    split
    · exact pure []
    · exact pure _

lemma validateReferences (d : Document) : OnlyAsks (Ksy.validateReferences d) := by
  unfold Ksy.validateReferences
  split
  · exact pure []
  · refine (forReferences d (referenceIssue d) none d.walk).bind fun issues => ?_
    exact (log _).bind fun _ => pure issues

lemma validateGrammar (d : Document) : OnlyAsks (Ksy.validateGrammar d) := by
  unfold Ksy.validateGrammar
  split
  · exact pure []
  · split
    · refine grammar.bind fun g => ?_
      split
      · exact pure _
      · exact throw _
    · exact (log _).bind fun _ => pure []

lemma diagnostics (d : Document) : OnlyAsks (Diagnostic.all d) := by
  unfold Diagnostic.all
  split
  · exact pure []
  · split
    · exact pure _
    · refine bind (tryCatch (validateGrammar d) fun failure => ?_) fun errors => ?_
      · split
        · exact (log _).bind fun _ => pure []
        · exact throw _
      · exact (validateReferences d).bind fun _ => pure _

end Work.OnlyAsks

end KsyTools
