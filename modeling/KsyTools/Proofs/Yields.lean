/-
# Computations with one result

Many computations of a session give the same result in all sessions of some kind, and leave a
session of that kind behind.  What such a computation gives can then be said without a session: a
sequence of them gives what their results give, one after the other, up to the first failure.
-/
import KsyTools.Proofs.Session

namespace KsyTools

/-! ## Results, one after the other -/

lemma bind_eq_ok_iff {ε α β : Type} {r : Except ε α} {f : α → Except ε β} {b : β} :
    r >>= f = .ok b ↔ ∃ a, r = .ok a ∧ f a = .ok b := by
  cases r <;> simp [bind, Except.bind]

lemma map_eq_ok_iff {ε α β : Type} {r : Except ε α} {f : α → β} {b : β} :
    f <$> r = .ok b ↔ ∃ a, r = .ok a ∧ f a = b := by
  cases r <;> simp [Functor.map, Except.map]

lemma pure_eq_ok_iff {ε α : Type} {a b : α} : (pure a : Except ε α) = .ok b ↔ b = a := by
  simp [pure, Except.pure, eq_comm]

/-! ## Computations of a session -/

/-- From every session of a kind a computation gives the same result, and leaves a session of this
kind behind. -/
def Work.Yields {α : Type} (t : FileTree) (kind : Session → Prop) (w : Work α)
    (r : Except Failure α) : Prop :=
  ∀ s, kind s → (s.run t w).1 = r ∧ kind (s.run t w).2

namespace Work.Yields

variable {α β : Type} {t : FileTree} {kind : Session → Prop}

lemma pure (a : α) : (Pure.pure a : Work α).Yields t kind (.ok a) := fun _ hs => ⟨rfl, hs⟩

lemma throw (e : Failure) : (MonadExcept.throw e : Work α).Yields t kind (.error e) :=
  fun _ hs => ⟨rfl, hs⟩

/-- The second of two computations has to be looked at only for what the first one gives. -/
lemma bind {w : Work α} {f : α → Work β} {r : Except Failure α} {g : α → Except Failure β}
    (hw : w.Yields t kind r) (hf : ∀ a, r = .ok a → (f a).Yields t kind (g a)) :
    (w >>= f).Yields t kind (r >>= g) := by
  intro s hs
  obtain ⟨hresult, hkind⟩ := hw s hs
  rw [Session.run_bind]
  rcases hrun : s.run t w with ⟨e | a, s'⟩
  · rw [hrun] at hresult hkind
    subst hresult
    exact ⟨rfl, hkind⟩
  · rw [hrun] at hresult hkind
    subst hresult
    exact hf a rfl s' hkind

lemma map {w : Work α} {r : Except Failure α} (f : α → β) (hw : w.Yields t kind r) :
    (f <$> w).Yields t kind (f <$> r) := by
  rw [← bind_pure_comp, ← bind_pure_comp]
  exact hw.bind fun a _ => pure (f a)

lemma tryCatch {w : Work α} {handler : Failure → Work α} {r : Except Failure α}
    {h : Failure → Except Failure α} (hw : w.Yields t kind r)
    (hhandler : ∀ e, r = .error e → (handler e).Yields t kind (h e)) :
    (MonadExcept.tryCatch w handler).Yields t kind (MonadExcept.tryCatch r h) := by
  intro s hs
  obtain ⟨hresult, hkind⟩ := hw s hs
  rw [Session.run_tryCatch]
  rcases hrun : s.run t w with ⟨e | a, s'⟩
  · rw [hrun] at hresult hkind
    subst hresult
    exact hhandler e rfl s' hkind
  · rw [hrun] at hresult hkind
    subst hresult
    exact ⟨rfl, hkind⟩

lemma mapM {f : α → Work β} {g : α → Except Failure β} (xs : List α)
    (hf : ∀ x ∈ xs, (f x).Yields t kind (g x)) : (xs.mapM f).Yields t kind (xs.mapM g) := by
  induction xs with
  | nil => exact pure []
  | cons x rest ih =>
    rw [List.mapM_cons, List.mapM_cons]
    have hrest := ih fun y hy => hf y (List.mem_cons_of_mem _ hy)
    exact (hf x List.mem_cons_self).bind fun b _ => hrest.bind fun bs _ => pure (b :: bs)

end Work.Yields

end KsyTools
