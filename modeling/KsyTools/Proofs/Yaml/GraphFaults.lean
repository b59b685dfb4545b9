/-
# What can go wrong while tokens are put together

The descent over the tokens looks at no characters.  It fails because of the form of the text, or
with the failure that ends the tokens.
-/
import KsyTools.Proofs.Yaml.TokenFaults
import KsyTools.Yaml.Graph.OfTokens

namespace KsyTools.Yaml

/-- The failure that stands behind the tokens is one of form, or a fault of a certain kind. -/
def Composer.Ends (faulty : ScalarFault → Prop) (c : Composer) : Prop :=
  ∀ e ∈ c.stream.failure, e.DueTo faulty

variable {faulty : ScalarFault → Prop}

/-- A part of the descent fails only because of the form of the text, or as the tokens end. -/
def Composes (faulty : ScalarFault → Prop) {α : Type} (m : Compose α) : Prop :=
  Keeps (Failure.DueTo faulty) (Composer.Ends faulty) m

namespace Composes

variable {α β : Type}

lemma pure (a : α) : Composes faulty (Pure.pure a) := Keeps.pure a

lemma bind {m : Compose α} {f : α → Compose β} (hm : Composes faulty m)
    (hf : ∀ a, Composes faulty (f a)) : Composes faulty (m >>= f) :=
  Keeps.bind hm hf

lemma get : Composes faulty (MonadState.get : Compose Composer) := Keeps.get

lemma change {f : Composer → Composer} (h : ∀ c, (f c).stream.failure = c.stream.failure) :
    Composes faulty (modify f : Compose PUnit) := by
  refine Keeps.change fun c hc => ?_
  rw [Composer.Ends, h]
  exact hc

/-- A check in front of the rest. -/
lemma check {p : Prop} [Decidable p] {m : Compose Unit} {f : Unit → Compose α}
    (hm : Composes faulty m)
    (hf : ∀ u, Composes faulty (f u)) : Composes faulty (if p then m >>= f else f ()) := by
  split
  · exact hm.bind hf
  · exact hf ()

/-! ## Tokens -/

lemma peek : Composes faulty Compose.peek := by
  refine Keeps.get_bind fun c hc => ?_
  have ends : ∀ c', c' = c → c'.Ends faulty := fun c' same => same ▸ hc
  dsimp only
  split
  · exact Meets.pure ends
  · rename_i e _ hfailure
    exact Meets.throw (hc e hfailure)
  · exact Meets.pure ends

lemma skip : Composes faulty Compose.skip := change fun _ => rfl

lemma next : Composes faulty Compose.next := peek.bind fun _ => skip.bind fun _ => pure _

lemma nextIs (kinds : List TokenKind) : Composes faulty (Compose.nextIs kinds) :=
  peek.bind fun _ => pure _

lemma entryBound : Composes faulty Compose.entryBound := get.bind fun _ => pure _

lemma failAt (problem : String) (offset : ℕ) (context : Option (String × ℕ)) :
    Composes faulty (Compose.failAt problem offset context : Compose α) :=
  Keeps.throw trivial

/-! ## Nodes of the graph -/

lemma enter (node : GraphNode) : Composes faulty (Compose.enter node) :=
  fun _ hc => hc

lemma complete (id : NodeId) (content : Content) (stop : ℕ) :
    Composes faulty (Compose.complete id content stop) :=
  (change fun _ => by rfl).bind fun _ => pure _

lemma emptyScalar (offset : ℕ) : Composes faulty (Compose.emptyScalar offset) := enter _

lemma anchor? : Composes faulty Compose.anchor? := by
  refine peek.bind fun t => ?_
  split
  · exact skip.bind fun _ => pure _
  · exact pure _

lemma tag? : Composes faulty Compose.tag? := by
  refine peek.bind fun t => ?_
  split
  · exact skip.bind fun _ => pure _
  · exact pure _

lemma properties : Composes faulty Compose.properties := by
  refine anchor?.bind fun anchor => ?_
  split
  · refine tag?.bind fun tag => ?_
    split <;> exact pure _
  · refine tag?.bind fun tag => ?_
    split
    · refine anchor?.bind fun anchor => ?_
      split <;> exact pure _
    · exact pure _

lemma expandTag (p : Compose.Properties) : Composes faulty (Compose.expandTag p) := by
  unfold Compose.expandTag
  split
  · exact pure _
  · exact pure _
  · refine get.bind fun c => ?_
    split
    · exact pure _
    · exact failAt _ _ _

lemma declare (anchor : Option String) (id : NodeId) :
    Composes faulty (Compose.declare anchor id) := by
  unfold Compose.declare
  split
  · exact change fun _ => rfl
  · exact pure _

lemma checkAnchor (anchor : Option String) (start : ℕ) :
    Composes faulty (Compose.checkAnchor anchor start) := by
  unfold Compose.checkAnchor
  split
  · exact pure _
  · refine get.bind fun c => ?_
    split
    · exact pure _
    · exact failAt _ _ _

lemma enterAnchored (anchor : Option String) (node : GraphNode) :
    Composes faulty (Compose.enterAnchored anchor node) :=
  (checkAnchor _ _).bind fun _ => (enter _).bind fun _ => (declare _ _).bind fun _ => pure _

/-! ## Collections -/

section Collections

variable {inner : Compose.Inner}
    (hinner : ∀ block indentless, Composes faulty (inner block indentless))

lemma innerOrEmpty (ends : List TokenKind) (offset : ℕ) {m : Compose NodeId}
    (hm : Composes faulty m) :
    Composes faulty (Compose.innerOrEmpty ends offset m) := by
  refine (nextIs ends).bind fun b => ?_
  split
  · exact emptyScalar _
  · exact hm

lemma valueNode (ends : List TokenKind) {m : Compose NodeId} (hm : Composes faulty m) :
    Composes faulty (Compose.valueNode ends m) := by
  refine peek.bind fun t => ?_
  split
  · exact skip.bind fun _ => innerOrEmpty _ _ hm
  · exact emptyScalar _

include hinner

lemma blockEntries (start fuel : ℕ) : Composes faulty (Compose.blockEntries inner start fuel) := by
  induction fuel with
  | zero => exact pure _
  | succ fuel ih =>
    refine peek.bind fun t => ?_
    split
    · exact skip.bind fun _ => (innerOrEmpty _ _ (hinner _ _)).bind fun _ => ih.bind fun _ => pure _
    · exact skip.bind fun _ => pure _
    · exact failAt _ _ _

lemma indentlessEntries (fuel : ℕ) : Composes faulty (Compose.indentlessEntries inner fuel) := by
  induction fuel with
  | zero => exact pure _
  | succ fuel ih =>
    refine peek.bind fun t => ?_
    split
    · exact skip.bind fun _ => (innerOrEmpty _ _ (hinner _ _)).bind fun _ => ih.bind fun _ => pure _
    · exact pure _

lemma blockPairs (start fuel : ℕ) : Composes faulty (Compose.blockPairs inner start fuel) := by
  induction fuel with
  | zero => exact pure _
  | succ fuel ih =>
    refine peek.bind fun t => ?_
    split
    · exact skip.bind fun _ => (innerOrEmpty _ _ (hinner _ _)).bind fun _ =>
        (valueNode _ (hinner _ _)).bind fun _ => ih.bind fun _ => pure _
    · exact skip.bind fun _ => pure _
    · exact failAt _ _ _

omit hinner in
lemma separator (first : Bool) (closing what : String) (start : ℕ) :
    Composes faulty (Compose.separator first closing what start) := by
  unfold Compose.separator
  split
  · refine peek.bind fun t => ?_
    split
    · exact skip
    · exact failAt _ _ _
  · exact pure _

lemma flowPair : Composes faulty (Compose.flowPair inner) :=
  next.bind fun _ => (enter _).bind fun _ => (innerOrEmpty _ _ (hinner _ _)).bind fun _ =>
    (valueNode _ (hinner _ _)).bind fun _ => peek.bind fun _ => complete _ _ _

lemma flowEntries (start : ℕ) (first : Bool) (fuel : ℕ) :
    Composes faulty (Compose.flowEntries inner start first fuel) := by
  induction fuel generalizing first with
  | zero => exact pure _
  | succ fuel ih =>
    refine (nextIs _).bind fun b => check (separator _ _ _ _) fun _ => peek.bind fun t => ?_
    split
    · exact skip.bind fun _ => pure _
    · exact (flowPair hinner).bind fun _ => (ih _).bind fun _ => pure _
    · exact (hinner _ _).bind fun _ => (ih _).bind fun _ => pure _

lemma flowPairs (start : ℕ) (first : Bool) (fuel : ℕ) :
    Composes faulty (Compose.flowPairs inner start first fuel) := by
  induction fuel generalizing first with
  | zero => exact pure _
  | succ fuel ih =>
    refine (nextIs _).bind fun b => check (separator _ _ _ _) fun _ => peek.bind fun t => ?_
    split
    · exact skip.bind fun _ => pure _
    · exact skip.bind fun _ => (innerOrEmpty _ _ (hinner _ _)).bind fun _ =>
        (valueNode _ (hinner _ _)).bind fun _ => (ih _).bind fun _ => pure _
    · exact (hinner _ _).bind fun _ => peek.bind fun _ => (emptyScalar _).bind fun _ =>
        (ih _).bind fun _ => pure _

/-! ## Nodes and documents -/

lemma contentNode (block indentless : Bool) (p : Compose.Properties) (tag : Option String) :
    Composes faulty (Compose.contentNode inner block indentless p tag) := by
  have collection {ι : Type} {entries : Compose (ι × ℕ)} (hentries : Composes faulty entries)
      (node : GraphNode) (content : ι → Content) : Composes faulty (do
        let id ← Compose.enterAnchored p.anchor node
        let r ← entries
        Compose.complete id (content r.1) r.2) :=
    (enterAnchored _ _).bind fun _ => hentries.bind fun _ => complete _ _ _
  refine peek.bind fun t => ?_
  dsimp only
  split
  · exact collection (entryBound.bind fun _ => indentlessEntries hinner _) _ _
  · exact skip.bind fun _ => enterAnchored _ _
  · exact collection (skip.bind fun _ => entryBound.bind fun _ => flowEntries hinner _ _ _) _ _
  · exact collection (skip.bind fun _ => entryBound.bind fun _ => flowPairs hinner _ _ _) _ _
  · exact collection (skip.bind fun _ => entryBound.bind fun _ => blockEntries hinner _ _) _ _
  · exact collection (skip.bind fun _ => entryBound.bind fun _ => blockPairs hinner _ _) _ _
  · split
    · exact enterAnchored _ _
    · exact failAt _ _ _

end Collections

lemma node (depth : ℕ) (block indentless : Bool) :
    Composes faulty (Compose.node depth block indentless) := by
  induction depth generalizing block indentless with
  | zero => exact Keeps.throw trivial
  | succ depth ih =>
    refine peek.bind fun t => ?_
    split
    · refine skip.bind fun _ => get.bind fun c => ?_
      split
      · exact pure _
      · exact failAt _ _ _
    · exact properties.bind fun _ => (expandTag _).bind fun _ => contentNode ih _ _ _ _

lemma directives (fuel : ℕ) (declared : Compose.Declarations) :
    Composes faulty (Compose.directives fuel declared) := by
  induction fuel generalizing declared with
  | zero => exact pure _
  | succ fuel ih =>
    refine peek.bind fun t => ?_
    split
    · refine skip.bind fun _ => ?_
      split
      · exact check (failAt _ _ _) fun _ => check (failAt _ _ _) fun _ => ih _
      · exact check (failAt _ _ _) fun _ => ih _
      · exact ih _
    · exact pure _

lemma endDocument : Composes faulty Compose.endDocument :=
  peek.bind fun _ => check skip fun _ => change fun _ => rfl

lemma explicitDocuments (fuel : ℕ) : Composes faulty (Compose.explicitDocuments fuel) := by
  induction fuel with
  | zero => exact pure _
  | succ fuel ih =>
    have hend (root : NodeId) : Composes faulty (do
        Compose.endDocument
        return root :: (← Compose.explicitDocuments fuel)) :=
      endDocument.bind fun _ => ih.bind fun _ => pure _
    refine peek.bind fun t => ?_
    split
    · exact skip.bind fun _ => ih
    · exact pure _
    · refine entryBound.bind fun _ => (directives _ _).bind fun declared => peek.bind fun _ =>
        check (failAt _ _ _) fun _ => skip.bind fun _ => (change fun _ => by rfl).bind fun _ =>
          peek.bind fun t => ?_
      split
      · exact (emptyScalar _).bind hend
      · exact (node _ _ _).bind hend

lemma documents : Composes faulty Compose.documents := by
  have hrest (first : List NodeId) : Composes faulty (do
      return first ++ (← Compose.explicitDocuments (← Compose.entryBound))) :=
    entryBound.bind fun _ => (explicitDocuments _).bind fun _ => pure _
  refine skip.bind fun _ => peek.bind fun t => ?_
  dsimp only
  split
  · exact (pure _).bind hrest
  · exact (pure _).bind hrest
  · exact (pure _).bind hrest
  · exact (node _ _ _).bind fun _ => endDocument.bind fun _ => (pure _).bind hrest

end Composes

/-- A text has no node graph because of its form, or because of a fault that the text asks for. -/
lemma Graph.gives_ofText (source : List Char) :
    Gives (Failure.DueTo (LexicalFault source)) (fun _ => True) (Graph.ofText source) := by
  have hends := TokenStream.failure_ofText source
  unfold Graph.ofText
  generalize TokenStream.ofText source = stream at hends ⊢
  split
  · exact trivial
  · exact Gives.bind (P := fun _ => True) (Gives.mono (Composes.documents ⟨stream, _, _, _⟩ hends)
      fun _ _ => trivial) fun _ _ => trivial

end KsyTools.Yaml
