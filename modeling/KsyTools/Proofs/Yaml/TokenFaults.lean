/-
# What can go wrong while tokens are found

The search for tokens stays in the text, and the failure that ends it is one of form, or comes from
the reader of a single token.
-/
import KsyTools.Proofs.Yaml.LexicalFaults

namespace KsyTools.Yaml

variable {source : List Char}

namespace Scanner

variable {s s' : Scanner}

/-! ## Bookkeeping -/

@[simp] lemma cursor_unwind (s : Scanner) (column : ℤ) : (s.unwind column).cursor = s.cursor := by
  unfold unwind
  split <;> rfl

@[simp] lemma cursor_openBlockHere (s : Scanner) (kind : TokenKind) :
    (s.openBlockHere kind).cursor = s.cursor := by
  unfold openBlockHere openBlock
  split
  · rename_i h
    split at h
    · cases h
      rfl
    · cases h
  · rfl

@[simp] lemma cursor_insertKey (s : Scanner) (key : PossibleKey) :
    (s.insertKey key).cursor = s.cursor := by
  unfold insertKey openBlock
  dsimp only
  split
  · rename_i h
    split at h
    · cases h
    · split at h
      · cases h
        rfl
      · cases h
  · rfl

/-- Looking after possible keys moves nothing, and fails only where a key misses its colon. -/
def Rests (source : List Char) (s : Scanner) : Except Failure Scanner → Prop :=
  Gives (Failure.DueTo (LexicalFault source)) fun s' => s'.cursor = s.cursor

lemma rests_dropKey (s : Scanner) : Rests source s s.dropKey := by
  unfold dropKey
  split
  · split
    · exact trivial
    · exact rfl
  · exact rfl

lemma rests_saveKey (s : Scanner) : Rests source s s.saveKey := by
  unfold saveKey
  split
  · exact rfl
  · exact (rests_dropKey s).bind fun s' same => same

lemma rests_closeBlocks (s : Scanner) : Rests source s s.closeBlocks :=
  (rests_dropKey _).bind fun _ same => same.trans (cursor_unwind s _)

lemma rests_dropStaleKeys (s : Scanner) : Rests source s s.dropStaleKeys := by
  refine Gives.bind (P := fun _ => True) (Gives.mono (Gives.mapM (P := fun _ => True) ?_ s.keys)
    fun _ _ => trivial) fun keys _ => rfl
  intro key
  split
  · exact trivial
  · split
    · split <;> exact trivial
    · exact trivial

/-! ## Tokens -/

/-- A step of the search stays in the text, and fails only because of the form of the text or with
one of the faults that the text asks for. -/
def Stays (source : List Char) : Except Failure Scanner → Prop :=
  Gives (Failure.DueTo (LexicalFault source)) fun s => s.cursor.Within source

lemma Rests.stays {r : Except Failure Scanner} (h : Rests source s r)
    (hs : s.cursor.Within source) :
    Stays source r :=
  Gives.mono h fun _ same => same ▸ hs

lemma Rests.bind {r : Except Failure Scanner} {f : Scanner → Except Failure Scanner}
    (hr : Rests source s r) (hf : ∀ s', s'.cursor = s.cursor → Stays source (f s')) :
    Stays source (r >>= f) :=
  Gives.bind hr hf

lemma within_skipGapFrom (hs : s.cursor.Within source) (fuel : ℕ) :
    (s.skipGapFrom fuel).cursor.Within source := by
  induction fuel generalizing s with
  | zero => exact hs
  | succ fuel ih =>
    unfold skipGapFrom
    extract_lets c c'
    have hc : c.Within source := hs.advance _
    have hc' : c'.Within source := by
      unfold c'
      split
      · exact hc.advance _
      · exact hc
    split
    · exact ih (hc'.advance _)
    · exact hc'

lemma within_skipGap (hs : s.cursor.Within source) : s.skipGap.cursor.Within source := by
  unfold skipGap
  extract_lets c c'
  refine within_skipGapFrom (s := { s with cursor := c' }) ?_ _
  change c'.Within source
  unfold c'
  split
  · rw [Cursor.Within, Cursor.rest_step]
    exact (List.tail_suffix _).trans hs
  · exact hs

lemma stays_pushScan {scan : Scan Token} {pre : Cursor → Prop}
    (hscan : Meets (Failure.DueTo (LexicalFault source)) pre scan fun _ => Cursor.Within source)
    (hs : pre s.cursor) : Stays source (s.pushScan scan) :=
  Gives.bind (hscan s.cursor hs) fun _ hr => hr

lemma stays_fetchEnd (hs : s.cursor.Within source) : Stays source s.fetchEnd :=
  (rests_closeBlocks s).bind fun s' same => (same ▸ hs : s'.cursor.Within source)

lemma stays_fetchDirective (hs : s.cursor.Within source) (hmark : '%' = s.cursor.peek) :
    Stays source s.fetchDirective :=
  (rests_closeBlocks s).bind fun _ same =>
    stays_pushScan Reads.directiveToken (same ▸ ⟨hmark, hs⟩)

lemma stays_fetchMarker (hs : s.cursor.Within source) (kind : TokenKind) :
    Stays source (s.fetchMarker kind) :=
  (rests_closeBlocks s).bind fun _ same => (same ▸ hs).advance 3

lemma stays_fetchFlowStart (hs : s.cursor.Within source) (kind : TokenKind) :
    Stays source (s.fetchFlowStart kind) :=
  (rests_saveKey s).bind fun _ same => (same ▸ hs).advance 1

lemma stays_fetchFlowEnd (hs : s.cursor.Within source) (kind : TokenKind) :
    Stays source (s.fetchFlowEnd kind) :=
  (rests_dropKey s).bind fun _ same => (same ▸ hs).advance 1

lemma stays_fetchFlowEntry (hs : s.cursor.Within source) : Stays source s.fetchFlowEntry :=
  (rests_dropKey s).bind fun _ same => (same ▸ hs).advance 1

/-- A token that may not stand where it does is a problem of form. -/
lemma stays_check {p : Prop} [Decidable p] {what : String} {f : Unit → Except Failure Scanner}
    (hf : ∀ u, Stays source (f u)) :
    Stays source (if p then throw (s.notAllowed what) >>= f else f ()) := by
  split
  · exact trivial
  · exact hf ()

lemma stays_fetchBlockEntry (hs : s.cursor.Within source) : Stays source s.fetchBlockEntry := by
  unfold fetchBlockEntry
  refine stays_check fun _ => ?_
  split
  · exact (rests_dropKey _).bind fun _ same => (same ▸ hs).advance 1
  · refine (rests_dropKey _).bind fun _ same => ?_
    rw [cursor_openBlockHere] at same
    exact (same ▸ hs).advance 1

lemma stays_fetchKey (hs : s.cursor.Within source) : Stays source s.fetchKey := by
  unfold fetchKey
  refine stays_check fun _ => ?_
  split
  · exact (rests_dropKey _).bind fun _ same => (same ▸ hs).advance 1
  · refine (rests_dropKey _).bind fun _ same => ?_
    rw [cursor_openBlockHere] at same
    exact (same ▸ hs).advance 1

lemma stays_fetchValue (hs : s.cursor.Within source) : Stays source s.fetchValue := by
  unfold fetchValue
  split
  · rename_i key _
    have same : ((s.setKey none).insertKey key).cursor = s.cursor := cursor_insertKey _ _
    exact (same ▸ hs).advance 1
  · refine stays_check fun _ => ?_
    split
    · exact hs.advance 1
    · have same : (s.openBlockHere .blockMappingStart).cursor = s.cursor := cursor_openBlockHere _ _
      exact (same ▸ hs).advance 1

lemma stays_fetchKeyLike (hs : s.cursor.Within source) {scan : Scan Token}
    (hscan : Reads source scan) : Stays source (s.fetchKeyLike scan) :=
  (rests_saveKey s).bind fun _ same => stays_pushScan hscan.meets (same ▸ hs)

lemma stays_fetchPlain (hs : s.cursor.Within source) : Stays source s.fetchPlain :=
  (rests_saveKey s).bind fun s' same =>
    Gives.bind ((Reads.plainScalar _ _).meets s'.cursor (same ▸ hs)) fun _ hr => hr

lemma stays_fetchBlockScalar (hs : s.cursor.Within source) (folded : Bool) :
    Stays source (s.fetchBlockScalar folded) :=
  (rests_dropKey s).bind fun _ same =>
    stays_pushScan (Reads.blockScalar _ _).meets (same ▸ hs)

lemma stays_ite {p : Prop} [Decidable p] {r r' : Except Failure Scanner} (hr : p → Stays source r)
    (hr' : Stays source r') : Stays source (if p then r else r') := by
  split
  · exact hr ‹_›
  · exact hr'

lemma stays_fetchToken (hs : s.cursor.Within source) : Stays source s.fetchToken := by
  unfold fetchToken
  extract_lets c ch gapNext
  refine stays_ite (fun _ => stays_fetchEnd hs) ?_
  refine stays_ite (fun h => stays_fetchDirective hs h.1.symm) ?_
  refine stays_ite (fun _ => stays_fetchMarker hs _) ?_
  refine stays_ite (fun _ => stays_fetchMarker hs _) ?_
  refine stays_ite (fun _ => stays_fetchFlowStart hs _) ?_
  refine stays_ite (fun _ => stays_fetchFlowStart hs _) ?_
  refine stays_ite (fun _ => stays_fetchFlowEnd hs _) ?_
  refine stays_ite (fun _ => stays_fetchFlowEnd hs _) ?_
  refine stays_ite (fun _ => stays_fetchFlowEntry hs) ?_
  refine stays_ite (fun _ => stays_fetchBlockEntry hs) ?_
  refine stays_ite (fun _ => stays_fetchKey hs) ?_
  refine stays_ite (fun _ => stays_fetchValue hs) ?_
  refine stays_ite (fun _ => stays_fetchKeyLike hs .aliasToken) ?_
  refine stays_ite (fun _ => stays_fetchKeyLike hs .anchorToken) ?_
  refine stays_ite (fun _ => stays_fetchKeyLike hs .tagToken) ?_
  refine stays_ite (fun _ => stays_fetchBlockScalar hs _) ?_
  refine stays_ite (fun _ => stays_fetchBlockScalar hs _) ?_
  refine stays_ite (fun _ => stays_fetchKeyLike hs (.quotedScalar _)) ?_
  refine stays_ite (fun _ => stays_fetchKeyLike hs (.quotedScalar _)) ?_
  exact stays_ite (fun _ => stays_fetchPlain hs) trivial

lemma stays_fetch (hs : s.cursor.Within source) : Stays source s.fetch := by
  refine Gives.bind (Rests.stays (rests_dropStaleKeys _) (within_skipGap hs)) fun s₁ hs₁ => ?_
  have hs₁' : (s₁.unwind s₁.cursor.column).cursor.Within source := by rwa [cursor_unwind]
  exact Gives.bind (stays_fetchToken hs₁') fun s₂ hs₂ =>
    stays_ite (fun _ => hs₂) (Rests.stays (rests_dropStaleKeys s₂) hs₂)

end Scanner

namespace TokenStream

lemma failure_collect {next : Scanner → Except Failure Scanner}
    (hnext : ∀ {s : Scanner}, s.cursor.Within source → Scanner.Stays source (next s))
    {s : Scanner} (hs : s.cursor.Within source) (fuel : ℕ) :
    ∀ e ∈ (collect next s fuel).failure, e.DueTo (LexicalFault source) := by
  induction fuel generalizing s with
  | zero => simp [collect]
  | succ fuel ih =>
    have step := hnext hs
    rw [collect]
    cases s.done with
    | true => simp
    | false =>
      cases hstep : next s with
      | ok s' =>
        rw [hstep] at step
        exact ih step
      | error e =>
        rw [hstep] at step
        intro e' he'
        rw [← Option.some.inj he']
        exact step

/-- The failure that ends the tokens of a text is one of form, or one of the faults that the
text asks for. -/
lemma failure_ofText (source : List Char) :
    ∀ e ∈ (ofText source).failure, e.DueTo (LexicalFault source) :=
  failure_collect Scanner.stays_fetch (s := Scanner.start source) (List.suffix_refl source) _

end TokenStream

end KsyTools.Yaml
