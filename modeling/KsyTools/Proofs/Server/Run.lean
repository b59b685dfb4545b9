/-
# Running computations of a server

What the basic computations of a server do to it.  Most of them leave alone both the buffers of the
client and the texts that the store holds for it.
-/
import KsyTools.Proofs.OnlyAsks
import KsyTools.Server.Event

namespace KsyTools

namespace Server

variable {α β : Type} (s : Server) (t : FileTree)

@[simp] lemma run_pure (a : α) : s.run t (pure a : Serve α) = (.ok a, s) := rfl

@[simp] lemma run_read : s.run t (read : Serve FileTree) = (.ok t, s) := rfl

@[simp] lemma run_get : s.run t (get : Serve Server) = (.ok s, s) := rfl

@[simp] lemma run_modify (f : Server → Server) :
    s.run t (modify f : Serve PUnit) = (.ok ⟨⟩, f s) := rfl

lemma run_bind (w : Serve α) (f : α → Serve β) :
    s.run t (w >>= f) =
      match s.run t w with
      | (.ok a, s') => s'.run t (f a)
      | (.error e, s') => (.error e, s') := by
  rw [run, Stateful.run_bind]
  rcases h : ((w.run t).run).run s with ⟨_ | _, _⟩
  all_goals simp only [run, h]

lemma run_tryCatch (w : Serve α) (handler : Failure → Serve α) :
    s.run t (tryCatch w handler) =
      match s.run t w with
      | (.ok a, s') => (.ok a, s')
      | (.error e, s') => s'.run t (handler e) := by
  rw [run, Stateful.run_tryCatch]
  rcases h : ((w.run t).run).run s with ⟨_ | _, _⟩
  all_goals simp only [run, h]

lemma run_work (w : Work α) :
    s.run t (Serve.work w) =
      ((s.session.run t w).1, { s with session := (s.session.run t w).2 }) := by
  simp only [Serve.work, run_bind, run_get, run_read]
  rcases s.session.run t w with ⟨_ | _, _⟩ <;> rfl

end Server

/-- A computation that leaves the buffers and the texts in the store alone. -/
structure Serve.Quiet {α : Type} (w : Serve α) : Prop where
  buffers : ∀ (s : Server) (t : FileTree), (s.run t w).2.buffers = s.buffers
  overlays : ∀ (s : Server) (t : FileTree),
    (s.run t w).2.session.store.overlays = s.session.store.overlays

namespace Serve.Quiet

variable {α β : Type}

/-! ## How computations are put together -/

lemma pure (a : α) : Quiet (Pure.pure a : Serve α) := ⟨fun _ _ => rfl, fun _ _ => rfl⟩

lemma throw (f : Failure) : Quiet (MonadExcept.throw f : Serve α) :=
  ⟨fun _ _ => rfl, fun _ _ => rfl⟩

lemma read : Quiet (MonadReader.read : Serve FileTree) := ⟨fun _ _ => rfl, fun _ _ => rfl⟩

lemma get : Quiet (MonadState.get : Serve Server) := ⟨fun _ _ => rfl, fun _ _ => rfl⟩

/-- Only the first of two computations counts for the buffers if the second leaves them alone. -/
lemma buffers_bind {w : Serve α} {f : α → Serve β} (hf : ∀ a, Quiet (f a)) (s : Server)
    (t : FileTree) : (s.run t (w >>= f)).2.buffers = (s.run t w).2.buffers := by
  rw [Server.run_bind]
  rcases s.run t w with ⟨e | a, s'⟩
  · rfl
  · exact (hf a).buffers s' t

lemma overlays_bind {w : Serve α} {f : α → Serve β} (hf : ∀ a, Quiet (f a)) (s : Server)
    (t : FileTree) : (s.run t (w >>= f)).2.session.store.overlays =
      (s.run t w).2.session.store.overlays := by
  rw [Server.run_bind]
  rcases s.run t w with ⟨e | a, s'⟩
  · rfl
  · exact (hf a).overlays s' t

lemma bind {w : Serve α} {f : α → Serve β} (hw : Quiet w) (hf : ∀ a, Quiet (f a)) :
    Quiet (w >>= f) := by
  constructor
  · intro s t
    rw [buffers_bind hf, hw.buffers]
  · intro s t
    rw [overlays_bind hf, hw.overlays]

lemma tryCatch {w : Serve α} {handler : Failure → Serve α} (hw : Quiet w)
    (hhandler : ∀ e, Quiet (handler e)) : Quiet (MonadExcept.tryCatch w handler) := by
  constructor
  · intro s t
    have h := hw.buffers s t
    rw [Server.run_tryCatch]
    rcases hrun : s.run t w with ⟨e | a, s'⟩
    · rw [hrun] at h
      exact ((hhandler e).buffers s' t).trans h
    · rwa [hrun] at h
  · intro s t
    have h := hw.overlays s t
    rw [Server.run_tryCatch]
    rcases hrun : s.run t w with ⟨e | a, s'⟩
    · rw [hrun] at h
      exact ((hhandler e).overlays s' t).trans h
    · rwa [hrun] at h

lemma forM {f : α → Serve Unit} (hf : ∀ a, Quiet (f a)) (xs : List α) : Quiet (xs.forM f) := by
  induction xs with
  | nil => exact pure ()
  | cons x rest ih => exact (hf x).bind fun _ => ih

/-! ## What a server does -/

lemma work {w : Work α} (hw : w.OnlyAsks) : Quiet (Serve.work w) := by
  constructor
  · intro s t
    rw [Server.run_work]
  · intro s t
    rw [Server.run_work]
    exact (hw.lookups s.session t).overlays

lemma log (record : LogRecord) : Quiet (Serve.log record) := work (.log record)

lemma pathOf (uri : String) : Quiet (Serve.pathOf uri) := by
  unfold Serve.pathOf
  split
  · exact pure _
  · exact throw _

lemma publish (uri : String) (diagnostics : List Diagnostic) :
    Quiet (Serve.publish uri diagnostics) := by
  unfold Serve.publish
  refine get.bind fun s => ?_
  split
  · exact ⟨fun _ _ => rfl, fun _ _ => rfl⟩
  · exact throw _

lemma tryPublish (uri : String) (diagnostics : List Diagnostic) :
    Quiet (Serve.tryPublish uri diagnostics) :=
  ((log _).bind fun _ => publish uri diagnostics).tryCatch fun _ => log _

lemma diagnose (uri : String) (d : Document) : Quiet (Serve.diagnose uri d) := by
  unfold Serve.diagnose
  exact (work (.diagnostics d)).tryCatch fun _ => (log _).bind fun _ => pure []

lemma setIndex (f : Server → ImportIndex) :
    Quiet (modify fun s => { s with index := f s } : Serve PUnit) :=
  ⟨fun _ _ => rfl, fun _ _ => rfl⟩

lemma updateIndex (d : Document) : Quiet (Serve.updateIndex d) := by
  unfold Serve.updateIndex
  split
  · exact pure ()
  · refine read.bind fun t => ?_
    split
    · exact pure ()
    · refine (work (.includes d)).bind fun includes => ?_
      exact (setIndex _).bind fun _ => log _

lemma unregister (path : String) : Quiet (Serve.unregister path) := by
  unfold Serve.unregister
  refine read.bind fun t => ?_
  split
  · exact pure ()
  · refine get.bind fun s => ?_
    split
    · exact (setIndex _).bind fun _ => log _
    · exact pure ()

lemma indexFile (p : Path) : Quiet (Serve.indexFile p) := by
  unfold Serve.indexFile
  refine (work (.getDocument p)).bind fun d? => ?_
  split
  · exact log _
  · exact updateIndex _

lemma indexFolder (uri : String) : Quiet (Serve.indexFolder uri) := by
  unfold Serve.indexFolder
  refine (pathOf uri).bind fun path => read.bind fun t => ?_
  split
  · exact throw _
  · refine (forM indexFile _).bind fun _ => get.bind fun s => log _

lemma invalidate (uri : String) : Quiet (Serve.invalidate uri) := by
  unfold Serve.invalidate
  refine (pathOf uri).bind fun path => ⟨fun s t => ?_, fun s t => ?_⟩
  · rw [Server.run_work]
  · rw [Server.run_work]
    rfl

end Serve.Quiet

end KsyTools
