/-
# Running computations of a session

What the basic computations of a session do to it, and how a sequence of computations runs: the
first failure ends it, and what was changed before stays changed.
-/
import KsyTools.Session
import Mathlib.Tactic.Common

namespace KsyTools

lemma exists_ok_of_isOk {ε α : Type} {r : Except ε α} (h : r.isOk = true) : ∃ a, r = .ok a := by
  cases r with
  | error e => cases h
  | ok a => exact ⟨a, rfl⟩

/-! ## Computations that read, can fail, and change a state -/

section Stateful

variable {ρ ε σ α β : Type}

lemma Stateful.run_bind (s : σ) (r : ρ) (w : ReaderT ρ (ExceptT ε (StateM σ)) α)
    (f : α → ReaderT ρ (ExceptT ε (StateM σ)) β) :
    (((w >>= f).run r).run).run s =
      match ((w.run r).run).run s with
      | (.ok a, s') => (((f a).run r).run).run s'
      | (.error e, s') => (.error e, s') := by
  rcases h : ((w.run r).run).run s with ⟨a | a, s'⟩
  all_goals
    rw [ReaderT.run_bind, ExceptT.run_bind, StateT.run_bind, h]
    rfl

lemma Stateful.run_tryCatch (s : σ) (r : ρ) (w : ReaderT ρ (ExceptT ε (StateM σ)) α)
    (handler : ε → ReaderT ρ (ExceptT ε (StateM σ)) α) :
    (((tryCatch w handler).run r).run).run s =
      match ((w.run r).run).run s with
      | (.ok a, s') => (.ok a, s')
      | (.error e, s') => (((handler e).run r).run).run s' := by
  rcases h : ((w.run r).run).run s with ⟨a | a, s'⟩
  all_goals
    rw [ReaderT.run_tryCatch, ExceptT.run_tryCatch, StateT.run_bind, h]
    rfl

end Stateful

namespace Session

variable {α β : Type} (s : Session) (t : FileTree)

@[simp] lemma run_pure (a : α) : s.run t (pure a : Work α) = (.ok a, s) := rfl

@[simp] lemma run_read : s.run t (read : Work FileTree) = (.ok t, s) := rfl

@[simp] lemma run_get : s.run t (get : Work Session) = (.ok s, s) := rfl

@[simp] lemma run_set (s' : Session) : s.run t (set s' : Work PUnit) = (.ok ⟨⟩, s') := rfl

@[simp] lemma run_modify (f : Session → Session) :
    s.run t (modify f : Work PUnit) = (.ok ⟨⟩, f s) := rfl

lemma run_bind (w : Work α) (f : α → Work β) :
    s.run t (w >>= f) =
      match s.run t w with
      | (.ok a, s') => s'.run t (f a)
      | (.error e, s') => (.error e, s') := by
  rw [run, Stateful.run_bind]
  rcases h : ((w.run t).run).run s with ⟨_ | _, _⟩
  all_goals simp only [run, h]

/-- A failure is handled in the session that it has left behind. -/
lemma run_tryCatch (w : Work α) (handler : Failure → Work α) :
    s.run t (tryCatch w handler) =
      match s.run t w with
      | (.ok a, s') => (.ok a, s')
      | (.error e, s') => s'.run t (handler e) := by
  rw [run, Stateful.run_tryCatch]
  rcases h : ((w.run t).run).run s with ⟨_ | _, _⟩
  all_goals simp only [run, h]

variable {s t}

lemma run_bind_of_ok {s' : Session} {w : Work α} {f : α → Work β} {a : α}
    (h : s.run t w = (.ok a, s')) : s.run t (w >>= f) = s'.run t (f a) := by
  rw [run_bind, h]

/-! ## The computations on documents -/

variable (s t)

@[simp] lemma run_logAll (records : List LogRecord) :
    s.run t (Work.logAll records) = (.ok (), { s with log := s.log ++ records }) := rfl

@[simp] lemma run_modifyStore (change : FileTree → DocumentStore → DocumentStore) :
    s.run t (Work.modifyStore change) = (.ok (), { s with store := change t s.store }) := rfl

lemma run_answer (operation : FileTree → DocumentStore → DocumentStore.Answer α) :
    s.run t (Work.answer operation) =
      ((operation t s.store).result,
        { s with store := (operation t s.store).store
                 log := s.log ++ (operation t s.store).log }) := by
  simp only [Work.answer, run_bind, run_read, run_get, run_modify, run_logAll]
  cases h : (operation t s.store).result <;> rfl

lemma run_getDocument (p : Path) :
    s.run t (Work.getDocument p) =
      ((s.store.get t p).result,
        { s with store := (s.store.get t p).store
                 log := s.log ++ (s.store.get t p).log }) :=
  run_answer s t fun t store => store.get t p

lemma run_findFile (p : Path) (shown : String) :
    s.run t (Work.findFile p shown) =
      (.ok (s.store.findFile t p shown).1,
        { s with log := s.log ++ (s.store.findFile t p shown).2 }) := by
  simp only [Work.findFile, run_bind, run_read, run_get, run_logAll, run_pure]

end Session

end KsyTools
