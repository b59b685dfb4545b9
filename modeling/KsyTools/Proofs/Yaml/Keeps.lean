/-
# Computations that fail only for known reasons

The readers of YAML move a state and may fail.  A computation meets a specification if it fails only
for reasons of a certain kind and otherwise leads from states with one property to results and
states with another.  Most computations simply keep a property of the state.
-/
import Mathlib.Tactic.Common

namespace KsyTools.Yaml

variable {ε σ α β : Type} {fails : ε → Prop} {pre : σ → Prop} {keeps : σ → Prop}

/-- A result has the property `P`, unless it is a failure as `fails` says. -/
def Gives (fails : ε → Prop) (P : α → Prop) : Except ε α → Prop
  | .ok a => P a
  | .error e => fails e

namespace Gives

variable {P : α → Prop} {Q : β → Prop} {r : Except ε α}

lemma bind {f : α → Except ε β} (hr : Gives fails P r) (hf : ∀ a, P a → Gives fails Q (f a)) :
    Gives fails Q (r >>= f) := by
  cases r with
  | error e => exact hr
  | ok a => exact hf a hr

lemma mono {P' : α → Prop} (hr : Gives fails P r) (h : ∀ a, P a → P' a) : Gives fails P' r := by
  cases r with
  | error e => exact hr
  | ok a => exact h a hr

lemma mapM {P : β → Prop} {f : α → Except ε β} (hf : ∀ a, Gives fails P (f a)) (as : List α) :
    Gives fails (fun bs => ∀ b ∈ bs, P b) (as.mapM f) := by
  induction as with
  | nil => exact nofun
  | cons a as ih =>
    rw [List.mapM_cons]
    exact (hf a).bind fun b hb => ih.bind fun bs hbs => List.forall_mem_cons.2 ⟨hb, hbs⟩

end Gives

/-- From a state with the property `pre` a computation fails only as `fails` says.  If it does not
fail, its result and the state behind it have the property `post`. -/
def Meets (fails : ε → Prop) (pre : σ → Prop) (m : StateT σ (Except ε) α) (post : α → σ → Prop) :
    Prop :=
  ∀ s, pre s → Gives fails (fun r => post r.1 r.2) (m.run s)

namespace Meets

variable {m : StateT σ (Except ε) α} {f : α → StateT σ (Except ε) β} {mid : α → σ → Prop}
  {post : β → σ → Prop}

lemma pure {b : β} (h : ∀ s, pre s → post b s) : Meets fails pre (Pure.pure b) post :=
  fun s hs => h s hs

lemma throw {e : ε} (h : fails e) : Meets fails pre (MonadExcept.throw e) post :=
  fun _ _ => h

lemma bind (hm : Meets fails pre m mid) (hf : ∀ a, Meets fails (mid a) (f a) post) :
    Meets fails pre (m >>= f) post := by
  intro s hs
  rw [StateT.run_bind]
  exact (hm s hs).bind fun r hr => hf r.1 r.2 hr

lemma mono {post' : α → σ → Prop} (hm : Meets fails pre m mid) (h : ∀ a s, mid a s → post' a s) :
    Meets fails pre m post' :=
  fun s hs => (hm s hs).mono fun r hr => h r.1 r.2 hr

/-- It is enough to look at one state at a time. -/
lemma fix {m : StateT σ (Except ε) β} (h : ∀ s, pre s → Meets fails (· = s) m post) :
    Meets fails pre m post :=
  fun s hs => h s hs s rfl

end Meets

/-- A computation keeps a property of the state, and fails only as `fails` says. -/
def Keeps (fails : ε → Prop) (keeps : σ → Prop) (m : StateT σ (Except ε) α) : Prop :=
  Meets fails keeps m fun _ => keeps

namespace Keeps

variable {m : StateT σ (Except ε) α} {f : α → StateT σ (Except ε) β}

lemma pure (a : α) : Keeps fails keeps (Pure.pure a) :=
  Meets.pure fun _ hs => hs

lemma throw {e : ε} (h : fails e) : Keeps fails keeps (MonadExcept.throw e : StateT σ _ α) :=
  Meets.throw h

lemma bind (hm : Keeps fails keeps m) (hf : ∀ a, Keeps fails keeps (f a)) :
    Keeps fails keeps (m >>= f) :=
  Meets.bind hm hf

lemma get : Keeps fails keeps (MonadState.get : StateT σ (Except ε) σ) :=
  fun _ hs => hs

/-- The state that is looked at is the one that the rest starts from. -/
lemma get_bind {f : σ → StateT σ (Except ε) β}
    (hf : ∀ s, keeps s → Meets fails (· = s) (f s) fun _ => keeps) :
    Keeps fails keeps (MonadState.get >>= f) :=
  fun s hs => hf s hs s rfl

lemma change {g : σ → σ} (h : ∀ s, keeps s → keeps (g s)) :
    Keeps fails keeps (modify g : StateT σ (Except ε) PUnit) :=
  fun s hs => h s hs

lemma mapM {f : α → StateT σ (Except ε) β} (hf : ∀ a, Keeps fails keeps (f a)) (as : List α) :
    Keeps fails keeps (as.mapM f) := by
  induction as with
  | nil => exact pure []
  | cons a as ih =>
    rw [List.mapM_cons]
    exact (hf a).bind fun b => ih.bind fun bs => pure (b :: bs)

lemma forM {f : α → StateT σ (Except ε) PUnit} (hf : ∀ a, Keeps fails keeps (f a)) (as : List α) :
    Keeps fails keeps (as.forM f) := by
  induction as with
  | nil => exact pure _
  | cons a as ih =>
    exact (hf a).bind fun _ => ih

lemma foldlM {f : β → α → StateT σ (Except ε) β} (hf : ∀ b a, Keeps fails keeps (f b a)) (b : β)
    (as : List α) : Keeps fails keeps (as.foldlM f b) := by
  induction as generalizing b with
  | nil => exact pure b
  | cons a as ih =>
    rw [List.foldlM_cons]
    exact (hf b a).bind fun b => ih b

end Keeps

end KsyTools.Yaml
