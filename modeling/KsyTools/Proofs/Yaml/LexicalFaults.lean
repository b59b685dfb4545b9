/-
# What can go wrong with the characters of a text

While a text is split into tokens, a value is asked for in two places only: an escape sequence names
the number of a character, and a directive has the numbers of a version.  All other problems of
tokens are problems of form.
-/
import KsyTools.Proofs.Yaml.Keeps
import KsyTools.Yaml.Token.Stream
import Mathlib.Algebra.Group.Nat.Defs
import Mathlib.Data.Int.Notation
import Mathlib.Data.List.Induction
import Mathlib.Data.List.TakeWhile

namespace KsyTools.Yaml

/-- A fault that the characters of a text ask for: an escape sequence of eight digits names no
character, or a directive has a number of too many digits. -/
inductive LexicalFault (source : List Char) : ScalarFault → Prop
  | codePoint : ['\\', 'U'] <:+: source → LexicalFault source .codePoint
  | codePointSize : ['\\', 'U'] <:+: source → LexicalFault source .codePointSize
  | version {digits : List Char} : '%' :: "YAML".toList <:+: source → digits <:+: source →
      (∀ c ∈ digits, c.isDigit) → maxDigits < digits.length →
      LexicalFault source (.number (.tooManyDigits digits.length))

/-- A failure is one of form, or a fault of a certain kind. -/
def Failure.DueTo (faulty : ScalarFault → Prop) : Failure → Prop
  | .scalar fault => faulty fault
  | _ => True

lemma Failure.DueTo.mono {faulty faulty' : ScalarFault → Prop} {e : Failure} (he : e.DueTo faulty)
    (h : ∀ fault, faulty fault → faulty' fault) : e.DueTo faulty' := by
  cases e with
  | scalar fault => exact h fault he
  | _ => exact he

/-- What is ahead of a cursor is the end of the text. -/
def Cursor.Within (source : List Char) (c : Cursor) : Prop :=
  c.rest <:+ source

/-! ## Numbers of a bounded length -/

lemma ofDigits_lt {base : ℕ} {digits : List ℕ} (h : ∀ d ∈ digits, d < base) :
    Text.ofDigits base digits < base ^ digits.length := by
  unfold Text.ofDigits
  induction digits using List.reverseRecOn with
  | nil => simp
  | append_singleton digits d ih =>
    have hd : d < base := h d (by simp)
    have hrest := ih fun x hx => h x (List.mem_append_left _ hx)
    rw [List.foldl_append, List.length_append, List.length_singleton, Nat.pow_succ]
    simp only [List.foldl_cons, List.foldl_nil]
    calc digits.foldl (fun n d => n * base + d) 0 * base + d
        < digits.foldl (fun n d => n * base + d) 0 * base + base := by omega
      _ = (digits.foldl (fun n d => n * base + d) 0 + 1) * base := (Nat.succ_mul _ _).symm
      _ ≤ base ^ digits.length * base := Nat.mul_le_mul_right base hrest

lemma hexValue?_lt {c : Char} {n : ℕ} (h : Text.hexValue? c = some n) : n < 16 := by
  have upto {a b : Char} {k : ℕ} (hc : a ≤ c ∧ c ≤ b) (hn : c.toNat - k = n)
      (hb : b.toNat - k < 16) : n < 16 := by
    have hle : c.toNat ≤ b.toNat := hc.2
    omega
  unfold Text.hexValue? at h
  split_ifs at h with h₁ h₂ h₃
  · exact upto h₁ (Option.some.inj h) (by decide)
  · exact upto h₂ (Option.some.inj h) (by decide)
  · exact upto h₃ (Option.some.inj h) (by decide)

/-! ## Cursors -/

variable {source : List Char}

namespace Cursor

@[simp] lemma rest_step (c : Cursor) : c.step.rest = c.rest.tail := by
  unfold step
  split
  · rename_i h
    rw [h, List.tail_nil]
  · rename_i h
    rw [h, List.tail_cons]
    split <;> rfl

@[simp] lemma rest_advance (c : Cursor) (n : ℕ) : (c.advance n).rest = c.rest.drop n := by
  induction n generalizing c with
  | zero => rfl
  | succ n ih => rw [advance, ih, rest_step, List.drop_tail]

lemma Within.advance {c : Cursor} (h : c.Within source) (n : ℕ) : (c.advance n).Within source := by
  unfold Within
  rw [rest_advance]
  exact (List.drop_suffix n c.rest).trans h

end Cursor

/-- A reader of tokens stays in the text, and fails only because of the form of the text or with one
of the faults that the text asks for. -/
def Reads (source : List Char) {α : Type} (m : Scan α) : Prop :=
  Keeps (Failure.DueTo (LexicalFault source)) (Cursor.Within source) m

namespace Reads

variable {α β : Type}

lemma pure (a : α) : Reads source (Pure.pure a) := Keeps.pure a

lemma bind {m : Scan α} {f : α → Scan β} (hm : Reads source m) (hf : ∀ a, Reads source (f a)) :
    Reads source (m >>= f) :=
  Keeps.bind hm hf

lemma meets {m : Scan α} (h : Reads source m) :
    Meets (Failure.DueTo (LexicalFault source)) (Cursor.Within source) m fun _ =>
      Cursor.Within source := h

lemma of_meets {m : Scan α} (h : Meets (Failure.DueTo (LexicalFault source))
    (Cursor.Within source) m fun _ => Cursor.Within source) : Reads source m := h

lemma get : Reads source (MonadState.get : Scan Cursor) := Keeps.get

/-- A check in front of the rest. -/
lemma check {p : Prop} [Decidable p] {m : Scan Unit} {f : Unit → Scan α} (hm : Reads source m)
    (hf : ∀ u, Reads source (f u)) : Reads source (if p then m >>= f else f ()) := by
  split
  · exact hm.bind hf
  · exact hf ()

/-! ## Characters -/

lemma peek : Reads source Scan.peek := get.bind fun _ => pure _

lemma peekAt (n : ℕ) : Reads source (Scan.peekAt n) := get.bind fun _ => pure _

lemma index : Reads source Scan.index := get.bind fun _ => pure _

lemma remaining : Reads source Scan.remaining := get.bind fun _ => pure _

lemma skip (n : ℕ) : Reads source (Scan.skip n) := Keeps.change fun _ h => h.advance n

lemma take (n : ℕ) : Reads source (Scan.take n) := fun _ h => h.advance n

lemma takeWhile (p : Char → Bool) : Reads source (Scan.takeWhile p) := get.bind fun _ => take _

lemma skipWhile (p : Char → Bool) : Reads source (Scan.skipWhile p) :=
  (takeWhile p).bind fun _ => pure _

lemma fail (context : String) (start : ℕ) (problem : String) :
    Reads source (Scan.fail context start problem : Scan α) :=
  index.bind fun _ => Keeps.throw trivial

lemma failFound (context : String) (start : ℕ) (expected : String) (c : Char) :
    Reads source (Scan.failFound context start expected c : Scan α) :=
  fail _ _ _

lemma lineBreak : Reads source Scan.lineBreak := by
  refine get.bind fun c => ?_
  split
  · exact (skip 2).bind fun _ => pure _
  · split
    · exact (skip 1).bind fun _ => pure _
    · split
      · exact (skip 1).bind fun _ => pure _
      · exact pure _
  · exact pure _

lemma skipComment : Reads source Scan.skipComment := by
  refine (skipWhile _).bind fun _ => peek.bind fun c => ?_
  split
  · exact skipWhile _
  · exact pure _

/-! ## Plain scalars -/

lemma plainBreaks (fuel : ℕ) : Reads source (Yaml.plainBreaks fuel) := by
  induction fuel with
  | zero => exact pure _
  | succ fuel ih =>
    refine get.bind fun c => ?_
    split
    · exact pure _
    · refine (skipWhile _).bind fun _ => peek.bind fun c => ?_
      split
      · exact lineBreak.bind fun _ => ih.bind fun _ => pure _
      · exact pure _

lemma plainGap : Reads source Yaml.plainGap := by
  refine (takeWhile _).bind fun _ => peek.bind fun c => ?_
  split
  · refine lineBreak.bind fun first => remaining.bind fun n => (plainBreaks _).bind fun breaks => ?_
    split
    · exact pure _
    · split
      · exact pure _
      · split <;> exact pure _
  · exact pure _

lemma plainWords (flow : Bool) (indent : ℤ) (fuel : ℕ) (gap : List Char) (read : PlainText) :
    Reads source (Yaml.plainWords flow indent fuel gap read) := by
  induction fuel generalizing gap read with
  | zero => exact pure _
  | succ fuel ih =>
    refine peek.bind fun c => ?_
    split
    · exact pure _
    · refine get.bind fun c => (take _).bind fun word => ?_
      split
      · exact pure _
      · refine index.bind fun stop => plainGap.bind fun next => get.bind fun c => ?_
        split
        · exact pure _
        · exact ih _ _

lemma plainScalar (flow : Bool) (indent : ℤ) : Reads source (Yaml.plainScalar flow indent) :=
  index.bind fun _ => remaining.bind fun _ => (plainWords _ _ _ _ _).bind fun _ => pure _

/-! ## Block scalars -/

lemma chompingIndicator : Reads source Yaml.chompingIndicator := by
  refine peek.bind fun c => ?_
  split
  · exact (skip 1).bind fun _ => pure _
  · exact (skip 1).bind fun _ => pure _
  · exact pure _

lemma indentIndicator (start : ℕ) : Reads source (Yaml.indentIndicator start) := by
  refine peek.bind fun c => ?_
  split
  · exact check (fail _ _ _) fun _ => (skip 1).bind fun _ => pure _
  · exact pure _

lemma blockHeader (start : ℕ) : Reads source (Yaml.blockHeader start) := by
  have hrest (chomping : Option Chomping) (indent : Option ℕ) : Reads source (do
      let ch ← Scan.peek
      if !isSpaceBreakOrEnd ch then
        Scan.failFound blockContext start "chomping or indentation indicators" ch
      Scan.skipComment
      let ch ← Scan.peek
      if !isBreakOrEnd ch then
        Scan.failFound blockContext start "a comment or a line break" ch
      let _ ← Scan.lineBreak
      return (chomping.getD .clip, indent)) :=
    peek.bind fun _ => check (failFound _ _ _ _) fun _ => skipComment.bind fun _ =>
      peek.bind fun _ => check (failFound _ _ _ _) fun _ => lineBreak.bind fun _ => pure _
  refine chompingIndicator.bind fun first => (indentIndicator start).bind fun indent => ?_
  split
  · exact chompingIndicator.bind fun chomping => hrest chomping _
  · exact hrest _ _

lemma leadingBlankLines (fuel : ℕ) (breaks : List Char) (widest stop : ℕ) :
    Reads source (Yaml.leadingBlankLines fuel breaks widest stop) := by
  induction fuel generalizing breaks widest stop with
  | zero => exact pure _
  | succ fuel ih =>
    refine peek.bind fun c => ?_
    split
    · exact (skip 1).bind fun _ => get.bind fun _ => ih _ _ _
    · split
      · exact lineBreak.bind fun _ => index.bind fun _ => ih _ _ _
      · exact pure _

lemma skipIndent (indent : ℕ) : Reads source (Yaml.skipIndent indent) := get.bind fun _ => skip _

lemma blankLines (indent fuel : ℕ) (breaks : List Char) (stop : ℕ) :
    Reads source (Yaml.blankLines indent fuel breaks stop) := by
  induction fuel generalizing breaks stop with
  | zero => exact pure _
  | succ fuel ih =>
    refine (skipIndent _).bind fun _ => peek.bind fun c => ?_
    split
    · exact lineBreak.bind fun _ => index.bind fun _ => ih _ _
    · exact pure _

lemma blockLines (folded : Bool) (indent fuel : ℕ) (read : BlockText) :
    Reads source (Yaml.blockLines folded indent fuel read) := by
  induction fuel generalizing read with
  | zero => exact pure _
  | succ fuel ih =>
    refine get.bind fun c => ?_
    split
    · exact pure _
    · refine (takeWhile _).bind fun line => lineBreak.bind fun lastBreak => remaining.bind fun n =>
        index.bind fun stop => (blankLines _ _ _ _).bind fun blank => get.bind fun d => ?_
      split
      · exact ih _
      · exact pure _

lemma blockScalar (folded : Bool) (parent : ℤ) : Reads source (Yaml.blockScalar folded parent) := by
  refine index.bind fun start => (skip 1).bind fun _ => (blockHeader start).bind fun header =>
    remaining.bind fun n => ?_
  dsimp only
  split
  · exact index.bind fun _ => (leadingBlankLines _ _ _ _).bind fun _ => (pure _).bind fun _ =>
      (blockLines _ _ _ _).bind fun _ => pure _
  · exact index.bind fun _ => (blankLines _ _ _ _).bind fun _ => (pure _).bind fun _ =>
      (blockLines _ _ _ _).bind fun _ => pure _

/-! ## Escape sequences -/

lemma hexNumber (count : ℕ) {bad : Char → Scan Unit} (hbad : ∀ c, Reads source (bad c)) :
    Meets (Failure.DueTo (LexicalFault source)) (Cursor.Within source) (Yaml.hexNumber count bad)
      fun n c => n < 16 ^ count ∧ c.Within source := by
  refine Meets.bind get.meets fun c => ?_
  extract_lets digits
  have hbound : Text.ofDigits 16 (digits.filterMap Text.hexValue?) < 16 ^ count := by
    have hdigits : ∀ d ∈ digits.filterMap Text.hexValue?, d < 16 := by
      intro d hd
      obtain ⟨x, -, hx⟩ := List.mem_filterMap.1 hd
      exact hexValue?_lt hx
    have hlength : (digits.filterMap Text.hexValue?).length ≤ count :=
      (List.length_filterMap_le _ _).trans (by simp [digits])
    exact (ofDigits_lt hdigits).trans_le (Nat.pow_le_pow_right (by decide) hlength)
  have hrest : Meets (Failure.DueTo (LexicalFault source)) (Cursor.Within source)
      (do Scan.skip count; return Text.ofDigits 16 (digits.filterMap Text.hexValue?))
      fun n c => n < 16 ^ count ∧ c.Within source :=
    Meets.bind (skip count).meets fun _ => Meets.pure fun c hc => ⟨hbound, hc⟩
  split
  · exact Meets.bind (hbad _).meets fun _ => hrest
  · exact hrest

/-- Only a code of eight digits can be beyond the last character. -/
lemma escapedCode {code : ℕ} (h : code < 0x110000 ∨ ['\\', 'U'] <:+: source) :
    Reads source (liftM (Yaml.escapedCode code) : Scan Char) := by
  unfold Yaml.escapedCode
  split
  · exact pure _
  · rename_i hcode
    have hlong := h.resolve_left hcode
    split
    · exact Keeps.throw (.codePoint hlong)
    · exact Keeps.throw (.codePointSize hlong)

lemma quotedBreaks (start fuel : ℕ) : Reads source (Yaml.quotedBreaks start fuel) := by
  induction fuel with
  | zero => exact pure _
  | succ fuel ih =>
    refine get.bind fun c => check (fail _ _ _) fun _ => (skipWhile _).bind fun _ =>
      peek.bind fun c => ?_
    split
    · exact lineBreak.bind fun _ => ih.bind fun _ => pure _
    · exact pure _

end Reads

/-! ## What was read before -/

section Before

variable {α : Type} {fails : Failure → Prop} {pre : Cursor → Prop}

lemma meets_peek : Meets fails pre Scan.peek fun ch c => ch = c.peek ∧ pre c :=
  fun _ hc => ⟨rfl, hc⟩

lemma meets_peekAt (n : ℕ) : Meets fails pre (Scan.peekAt n) fun _ => pre :=
  fun _ hc => hc

lemma meets_index : Meets fails pre Scan.index fun _ => pre :=
  fun _ hc => hc

/-- A character that was looked at stands in front of the cursor when it is skipped. -/
lemma meets_skip {ch : Char} (h : ch ≠ endMark) :
    Meets fails (fun c => ch = c.peek ∧ c.Within source) (Scan.skip 1)
      fun _ c => ch :: c.rest <:+ source := by
  rintro c ⟨hch, hc⟩
  have hrest : c.rest = ch :: (c.advance 1).rest := by
    rw [Cursor.rest_advance]
    unfold Cursor.peek at hch
    cases hcs : c.rest with
    | nil =>
      rw [hcs] at hch
      exact absurd hch h
    | cons x cs =>
      rw [hcs] at hch
      subst hch
      rfl
  change ch :: (c.advance 1).rest <:+ source
  rw [← hrest]
  exact hc

/-- Characters that are taken stand in the text behind those in front of the cursor. -/
lemma meets_takeWhile (before : List Char) (p : Char → Bool) :
    Meets fails (fun c => before ++ c.rest <:+ source) (Scan.takeWhile p) fun cs c =>
      before ++ cs <:+: source ∧ (∀ x ∈ cs, p x) ∧ c.Within source := by
  intro c hc
  have htaken : c.rest.take (c.rest.takeWhile p).length = c.rest.takeWhile p :=
    (List.prefix_iff_eq_take.1 (List.takeWhile_prefix p)).symm
  change before ++ c.rest.take (c.rest.takeWhile p).length <:+: source ∧
    (∀ x ∈ c.rest.take (c.rest.takeWhile p).length, p x) ∧ (c.advance _).Within source
  rw [htaken]
  refine ⟨?_, fun x hx => List.mem_takeWhile_imp hx, ?_⟩
  · have hprefix : before ++ c.rest.takeWhile p <+: before ++ c.rest :=
      (List.prefix_append_right_inj before).2 (List.takeWhile_prefix p)
    exact hprefix.isInfix.trans hc.isInfix
  · exact Cursor.Within.advance ((List.suffix_append before c.rest).trans hc) _

/-- A reader may start wherever the cursor is in the text. -/
lemma Reads.from {m : Scan α} (hm : Reads source m) (h : ∀ c, pre c → c.Within source) :
    Meets (Failure.DueTo (LexicalFault source)) pre m fun _ => Cursor.Within source :=
  fun c hc => hm c (h c hc)

end Before

namespace Reads

/-! ## Quoted scalars -/

lemma escapeLength?_eq_some {ch : Char} {count : ℕ} (h : escapeLength? ch = some count) :
    count ≤ 4 ∨ ch = 'U' := by
  unfold escapeLength? at h
  split at h
  · exact .inl (by cases h; decide)
  · exact .inl (by cases h; decide)
  · exact .inr rfl
  · cases h

lemma infix_of_peek {c : Cursor} (hc : '\\' :: c.rest <:+ source) (hch : c.peek = 'U') :
    ['\\', 'U'] <:+: source := by
  have hprefix : ['\\', 'U'] <+: '\\' :: c.rest := by
    unfold Cursor.peek at hch
    cases hcs : c.rest with
    | nil =>
      rw [hcs] at hch
      exact absurd hch (by decide)
    | cons x cs =>
      rw [hcs] at hch
      obtain rfl : x = 'U' := hch
      exact ⟨cs, rfl⟩
  exact hprefix.isInfix.trans hc.isInfix

/-- Behind a backslash, only a code of eight digits can name no character. -/
lemma escapeSequence (start : ℕ) :
    Meets (Failure.DueTo (LexicalFault source)) (fun c => '\\' :: c.rest <:+ source)
      (Yaml.escapeSequence start) fun _ => Cursor.Within source := by
  refine Meets.bind meets_peek fun ch => Meets.fix fun c ⟨hch, hc⟩ => ?_
  have within : ∀ c', c' = c → c'.Within source := by
    rintro c' rfl
    exact (List.suffix_cons _ _).trans hc
  split
  · exact ((skip 1).bind fun _ => pure _).from within
  · rename_i count _ hcount
    have hcode {code : ℕ} (h : code < 16 ^ count) : code < 0x110000 ∨ ['\\', 'U'] <:+: source := by
      rcases escapeLength?_eq_some hcount with hshort | rfl
      · have hpow : 16 ^ count ≤ 16 ^ 4 := Nat.pow_le_pow_right (by decide) hshort
        exact .inl (by omega)
      · exact .inr (infix_of_peek hc hch.symm)
    refine Meets.bind ((skip 1).from within) fun _ =>
      Meets.bind (hexNumber count fun _ => failFound _ _ _ _) fun code =>
        Meets.fix fun c' ⟨h, hc'⟩ => ?_
    exact ((escapedCode (hcode h)).bind fun _ => pure _).from fun _ same => same ▸ hc'
  · split
    · exact (lineBreak.bind fun _ => remaining.bind fun _ => quotedBreaks _ _).from within
    · exact (fail _ _ _).from within

lemma quotedWord (double : Bool) (start fuel : ℕ) :
    Reads source (Yaml.quotedWord double start fuel) := by
  induction fuel with
  | zero => exact pure _
  | succ fuel ih =>
    refine (takeWhile _).bind fun run => .of_meets (Meets.bind meets_peek fun ch =>
      Meets.bind (meets_peekAt 1) fun next => ?_)
    have within (c : Cursor) (hc : ch = c.peek ∧ c.Within source) : c.Within source := hc.2
    extract_lets rest
    have hrest (more : Option (List Char)) : Reads source (rest more) := by
      cases more with
      | none => exact pure _
      | some cs => exact ih.bind fun _ => pure _
    split
    · exact ((skip 2).bind fun _ => (pure _).bind hrest).from within
    · split
      · exact ((skip 1).bind fun _ => (pure _).bind hrest).from within
      · split
        · rename_i hescape
          obtain rfl : ch = '\\' := by simpa using (Bool.and_eq_true_iff.1 hescape).2
          exact Meets.bind (meets_skip (by decide)) fun _ =>
            Meets.bind (escapeSequence start) fun _ => (pure _).bind hrest
        · exact ((pure _).bind hrest).from within

lemma quotedGap (start : ℕ) : Reads source (Yaml.quotedGap start) := by
  refine (takeWhile _).bind fun spaces => peek.bind fun ch => ?_
  split
  · exact fail _ _ _
  · split
    · refine lineBreak.bind fun first => remaining.bind fun n =>
        (quotedBreaks _ _).bind fun breaks => ?_
      split
      · exact pure _
      · split <;> exact pure _
    · exact pure _

lemma quotedText (double : Bool) (start fuel : ℕ) :
    Reads source (Yaml.quotedText double start fuel) := by
  induction fuel with
  | zero => exact pure _
  | succ fuel ih =>
    refine remaining.bind fun n => (quotedWord _ _ _).bind fun word => peek.bind fun ch => ?_
    split
    all_goals
      split
      · exact pure _
      · exact (quotedGap start).bind fun _ => ih.bind fun _ => pure _

lemma quotedScalar (double : Bool) : Reads source (Yaml.quotedScalar double) :=
  index.bind fun _ => (skip 1).bind fun _ => remaining.bind fun _ =>
    (quotedText _ _ _).bind fun _ =>
    (skip 1).bind fun _ => index.bind fun _ => pure _

/-! ## Properties -/

lemma anchorName (context : String) (start : ℕ) : Reads source (Yaml.anchorName context start) :=
  (skip 1).bind fun _ => (takeWhile _).bind fun _ => peek.bind fun _ =>
    check (failFound _ _ _ _) fun _ => pure _

lemma anchorToken : Reads source Yaml.anchorToken :=
  index.bind fun _ => (anchorName _ _).bind fun _ => index.bind fun _ => pure _

lemma aliasToken : Reads source Yaml.aliasToken :=
  index.bind fun _ => (anchorName _ _).bind fun _ => index.bind fun _ => pure _

lemma tagHandle (part : String) (start : ℕ) : Reads source (Yaml.tagHandle part start) := by
  refine peek.bind fun _ => check (failFound _ _ _ _) fun _ => (skip 1).bind fun _ =>
    peek.bind fun ch => ?_
  split
  · exact pure _
  · exact (takeWhile _).bind fun _ => peek.bind fun _ => check (failFound _ _ _ _) fun _ =>
      (skip 1).bind fun _ => pure _

lemma escapedBytes (context : String) (start fuel : ℕ) :
    Reads source (Yaml.escapedBytes context start fuel) := by
  induction fuel with
  | zero => exact pure _
  | succ fuel ih =>
    refine peek.bind fun ch => ?_
    split
    · exact (skip 1).bind fun _ => .of_meets (Meets.bind (hexNumber 2 fun _ => failFound _ _ _ _)
        fun n => (ih.bind fun _ => pure _).from fun _ hc => hc.2)
    · exact pure _

lemma uriPieces (context : String) (start fuel : ℕ) :
    Reads source (Yaml.uriPieces context start fuel) := by
  induction fuel with
  | zero => exact pure _
  | succ fuel ih =>
    refine peek.bind fun ch => ?_
    split
    · refine index.bind fun here => remaining.bind fun n =>
        (escapedBytes _ _ _).bind fun bytes => ?_
      split
      · exact ih.bind fun _ => pure _
      · exact Keeps.throw trivial
    · refine (takeWhile _).bind fun run => ?_
      split
      · exact pure _
      · exact ih.bind fun _ => pure _

lemma tagUri (part : String) (start : ℕ) : Reads source (Yaml.tagUri part start) := by
  refine remaining.bind fun _ => (uriPieces _ _ _).bind fun pieces => ?_
  split
  · exact peek.bind fun _ => (failFound _ _ _ _).bind fun _ => pure _
  · exact pure _

lemma tagToken : Reads source Yaml.tagToken := by
  have hend (start : ℕ) (tag : Option String × String) : Reads source (do
      let ch ← Scan.peek
      if !isSpaceBreakOrEnd ch then Scan.failFound "while scanning a tag" start "' '" ch
      return (⟨.tag tag.1 tag.2, start, ← Scan.index⟩ : Token)) :=
    peek.bind fun _ => check (failFound _ _ _ _) fun _ => index.bind fun _ => pure _
  refine index.bind fun start => (peekAt 1).bind fun next => ?_
  dsimp only
  split
  · refine (skip 2).bind fun _ => (tagUri _ _).bind fun uri => peek.bind fun _ =>
      check (failFound _ _ _ _) fun _ => (skip 1).bind fun _ => (pure _).bind fun _ => hend _ _
  · split
    · exact (skip 1).bind fun _ => (pure _).bind fun _ => hend _ _
    · refine get.bind fun c => ?_
      split
      · exact (tagHandle _ _).bind fun _ => (tagUri _ _).bind fun _ => (pure _).bind fun _ =>
          hend _ _
      · exact (skip 1).bind fun _ => (pure _).bind fun _ => (tagUri _ _).bind fun _ =>
          (pure _).bind fun _ => hend _ _

/-! ## Directives -/

/-- A version stands behind a directive of this name. -/
lemma versionNumber (hname : '%' :: "YAML".toList <:+: source) (start : ℕ) :
    Reads source (Yaml.versionNumber start) := by
  refine peek.bind fun ch => check (failFound _ _ _ _) fun _ => .of_meets
    (Meets.bind (meets_takeWhile [] Char.isDigit) fun digits =>
      Meets.fix fun c ⟨hdigits, hclass, hc⟩ => ?_)
  have within : ∀ c', c' = c → c'.Within source := fun c' same => same ▸ hc
  split
  · rename_i hlong
    exact Meets.throw (.version hname hdigits hclass hlong)
  · exact (pure _).from within

lemma versionDirective (hname : '%' :: "YAML".toList <:+: source) (start : ℕ) :
    Reads source (Yaml.versionDirective start) :=
  (skipWhile _).bind fun _ => (versionNumber hname _).bind fun _ => peek.bind fun _ =>
    check (failFound _ _ _ _) fun _ => (skip 1).bind fun _ => (versionNumber hname _).bind fun _ =>
      peek.bind fun _ => check (failFound _ _ _ _) fun _ => pure _

lemma tagDirective (start : ℕ) : Reads source (Yaml.tagDirective start) :=
  (skipWhile _).bind fun _ => (tagHandle _ _).bind fun _ => peek.bind fun _ =>
    check (failFound _ _ _ _) fun _ => (skipWhile _).bind fun _ => (tagUri _ _).bind fun _ =>
      peek.bind fun _ => check (failFound _ _ _ _) fun _ => pure _

lemma directiveEnd (start : ℕ) (directive : Directive) (stop : ℕ) : Reads source (do
    Scan.skipComment
    let ch ← Scan.peek
    if !isBreakOrEnd ch then
      Scan.failFound directiveContext start "a comment or a line break" ch
    let _ ← Scan.lineBreak
    return (⟨.directive directive, start, stop⟩ : Token)) :=
  skipComment.bind fun _ => peek.bind fun _ => check (failFound _ _ _ _) fun _ =>
    lineBreak.bind fun _ => pure _

lemma directiveToken :
    Meets (Failure.DueTo (LexicalFault source)) (fun c => '%' = c.peek ∧ c.Within source)
      Yaml.directiveToken fun _ => Cursor.Within source := by
  refine Meets.bind meets_index fun start => Meets.bind (meets_skip (by decide)) fun _ =>
    Meets.bind (meets_takeWhile ['%'] isNameChar) fun name => Meets.fix fun c ⟨hname, _, hc⟩ => ?_
  refine Reads.from ?_ fun c' same => same ▸ hc
  refine peek.bind fun ch => check (failFound _ _ _ _) fun _ => ?_
  split
  case' h_1 hversion =>
    have htext : name = "YAML".toList := by rw [← hversion, String.toList_ofList]
    rw [htext] at hname
    refine (versionDirective hname _).bind fun directive => ?_
  case' h_2 => refine (tagDirective _).bind fun directive => ?_
  case' h_3 => refine (pure _).bind fun directive => ?_
  all_goals
    refine index.bind fun stop => ?_
    split
    · exact (skipWhile _).bind fun _ => directiveEnd start _ stop
    · exact directiveEnd start _ stop

end Reads

end KsyTools.Yaml
