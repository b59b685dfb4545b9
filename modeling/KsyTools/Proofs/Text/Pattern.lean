/-
# The texts that a pattern matches

A pattern stands for a set of texts.  Matching it one character at a time decides exactly that set:
the derivative of a pattern by a character stands for what may follow the character, and the
simplifications that are made on the way change nothing.
-/
import KsyTools.Schema.Basic
import Mathlib.Computability.Language

namespace KsyTools.Text

open scoped Computability

/-- The texts of one character from a set. -/
def CharSet.language (s : CharSet) : Language Char :=
  {w | ∃ c, s.contains c = true ∧ w = [c]}

lemma CharSet.mem_language {s : CharSet} {w : List Char} :
    w ∈ s.language ↔ ∃ c, s.contains c = true ∧ w = [c] :=
  Iff.rfl

namespace Pattern

/-- The texts that a pattern stands for. -/
def language : Pattern → Language Char
  | .never => 0
  | .nothing => 1
  | .one s => s.language
  | .seq a b => a.language * b.language
  | .alt a b => a.language + b.language
  | .star a => a.language∗

/-! ## Simplifications -/

lemma language_andThen (a b : Pattern) : (andThen a b).language = a.language * b.language := by
  cases a <;> cases b <;> simp [andThen, language]

lemma language_orElse (a b : Pattern) : (orElse a b).language = a.language + b.language := by
  have same (p q : Pattern) :
      (if p = q then p else .alt p q).language = p.language + q.language := by
    split
    · rename_i h
      rw [h, add_idem]
    · rfl
  cases a <;> cases b <;> first | exact same _ _ | simp [orElse, language]

/-! ## Derivatives -/

lemma nullable_iff (p : Pattern) : p.nullable = true ↔ [] ∈ p.language := by
  induction p with
  | never => simp [nullable, language, Language.notMem_zero]
  | nothing => simp [nullable, language]
  | one s => simp [nullable, language, CharSet.mem_language]
  | seq a b iha ihb => simp [nullable, language, Language.mem_mul, iha, ihb]
  | alt a b iha ihb => rw [nullable, Bool.or_eq_true, iha, ihb, language, Language.mem_add]
  | star a _ => simp [nullable, language, Language.nil_mem_kstar]

/-- A repetition that does not match the empty text starts with one that does not either. -/
lemma cons_mem_kstar {l : Language Char} {c : Char} {w : List Char} :
    c :: w ∈ l∗ ↔ ∃ u v, c :: u ∈ l ∧ v ∈ l∗ ∧ u ++ v = w := by
  constructor
  · intro h
    obtain ⟨parts, joined, hparts⟩ := Language.mem_kstar_iff_exists_nonempty.1 h
    cases parts with
    | nil => simp at joined
    | cons first rest =>
      obtain ⟨hfirst, nonempty⟩ := hparts first (by simp)
      cases first with
      | nil => exact absurd rfl nonempty
      | cons d u =>
        rw [List.flatten_cons, List.cons_append, List.cons.injEq] at joined
        obtain ⟨rfl, rfl⟩ := joined
        refine ⟨u, rest.flatten, hfirst, ?_, rfl⟩
        exact Language.mem_kstar.2 ⟨rest, rfl, fun y hy => (hparts y (by simp [hy])).1⟩
  · rintro ⟨u, v, hu, hv, rfl⟩
    obtain ⟨parts, rfl, hparts⟩ := Language.mem_kstar.1 hv
    refine Language.mem_kstar.2 ⟨(c :: u) :: parts, by simp, ?_⟩
    intro y hy
    rcases List.mem_cons.1 hy with rfl | hy
    · exact hu
    · exact hparts y hy

/-- What follows a character in a text of two parts: the first part starts with the character, or
it is empty and the second one does. -/
lemma cons_mem_mul {l m : Language Char} {c : Char} {w : List Char} :
    c :: w ∈ l * m ↔ (∃ u v, c :: u ∈ l ∧ v ∈ m ∧ u ++ v = w) ∨ ([] ∈ l ∧ c :: w ∈ m) := by
  rw [Language.mem_mul]
  constructor
  · rintro ⟨x, hx, y, hy, joined⟩
    cases x with
    | nil =>
      rw [List.nil_append] at joined
      exact .inr ⟨hx, joined ▸ hy⟩
    | cons d u =>
      rw [List.cons_append, List.cons.injEq] at joined
      obtain ⟨rfl, rfl⟩ := joined
      exact .inl ⟨u, y, hx, hy, rfl⟩
  · rintro (⟨u, v, hu, hv, rfl⟩ | ⟨hnil, h⟩)
    · exact ⟨c :: u, hu, v, hv, rfl⟩
    · exact ⟨[], hnil, c :: w, h, rfl⟩

lemma mem_language_deriv (p : Pattern) (c : Char) (w : List Char) :
    w ∈ (p.deriv c).language ↔ c :: w ∈ p.language := by
  induction p generalizing w with
  | never => simp [deriv, language, Language.notMem_zero]
  | nothing => simp [deriv, language, Language.notMem_zero]
  | one s =>
    have only : c :: w ∈ s.language ↔ s.contains c = true ∧ w = [] := by
      simp [CharSet.mem_language]
    rw [deriv, language, only]
    split
    · rename_i h
      simp [language, h]
    · rename_i h
      simp [language, h, Language.notMem_zero]
  | seq a b iha ihb =>
    have first : w ∈ (andThen (a.deriv c) b).language ↔
        ∃ u v, c :: u ∈ a.language ∧ v ∈ b.language ∧ u ++ v = w := by
      rw [language_andThen, Language.mem_mul]
      simp only [iha]
      tauto
    rw [language, cons_mem_mul, ← nullable_iff, ← ihb, ← first, deriv]
    split
    · rename_i empty
      rw [language_orElse, Language.mem_add]
      simp only [empty, true_and]
    · rename_i empty
      simp only [empty, Bool.false_eq_true, false_and, or_false]
  | alt a b iha ihb =>
    rw [deriv, language_orElse, Language.mem_add, iha, ihb, language, Language.mem_add]
  | star a iha =>
    rw [deriv, language_andThen, language, cons_mem_kstar, Language.mem_mul]
    simp only [iha]
    tauto

/-- Matching decides the language of a pattern. -/
theorem accepts_iff (p : Pattern) (w : List Char) : p.accepts w = true ↔ w ∈ p.language := by
  induction w generalizing p with
  | nil => exact nullable_iff p
  | cons c w ih =>
    rw [accepts, ih (p.deriv c)]
    exact mem_language_deriv p c w

/-! ## The languages of the building blocks -/

lemma mem_star_one {s : CharSet} {w : List Char} :
    w ∈ (Pattern.star (.one s)).language ↔ ∀ c ∈ w, s.contains c = true := by
  induction w with
  | nil => simp [language, Language.nil_mem_kstar]
  | cons c w ih =>
    rw [language, cons_mem_kstar]
    constructor
    · rintro ⟨u, v, ⟨d, hd, single⟩, hv, rfl⟩
      rw [List.cons.injEq] at single
      obtain ⟨rfl, rfl⟩ := single
      have rest := ih.1 hv
      intro x hx
      rcases List.mem_cons.1 hx with rfl | hx
      · exact hd
      · exact rest x hx
    · intro h
      refine ⟨[], w, ⟨c, h c (by simp), rfl⟩, ih.2 ?_, rfl⟩
      intro x hx
      exact h x (by simp [hx])

lemma mem_plus_one {s : CharSet} {w : List Char} :
    w ∈ (Pattern.plus (.one s)).language ↔ w ≠ [] ∧ ∀ c ∈ w, s.contains c = true := by
  rw [plus, language, Language.mem_mul]
  constructor
  · rintro ⟨_, ⟨c, hc, rfl⟩, rest, hrest, rfl⟩
    have hrest := mem_star_one.1 hrest
    simpa [hc] using hrest
  · rintro ⟨nonempty, h⟩
    cases w with
    | nil => exact absurd rfl nonempty
    | cons c rest =>
      rw [List.forall_mem_cons] at h
      exact ⟨[c], ⟨c, h.1, rfl⟩, rest, mem_star_one.2 h.2, rfl⟩

lemma contains_range {first last c : Char} :
    (CharSet.range first last).contains c = true ↔ first ≤ c ∧ c ≤ last := by
  simp [CharSet.contains, CharSet.range]

lemma char_language (c : Char) : (char c).language = {[c]} := by
  ext w
  have only (d : Char) : (CharSet.range c c).contains d = true ↔ d = c := by
    rw [contains_range]
    exact ⟨fun h => Char.le_antisymm h.2 h.1, fun h => by simp [h]⟩
  rw [char, language, CharSet.mem_language]
  simp only [only, exists_eq_left]
  rfl

lemma word_language (s : String) : (word s).language = {s.toList} := by
  rw [word]
  induction s.toList with
  | nil => rfl
  | cons c cs ih =>
    ext w
    rw [List.foldr_cons, language, ih, char_language, Language.mem_mul]
    constructor
    · rintro ⟨_, rfl, _, rfl, rfl⟩
      rfl
    · rintro rfl
      exact ⟨[c], rfl, cs, rfl, rfl⟩

lemma mem_any {ps : List Pattern} {w : List Char} :
    w ∈ (any ps).language ↔ ∃ p ∈ ps, w ∈ p.language := by
  induction ps with
  | nil => simp [any, language, Language.notMem_zero]
  | cons p ps ih =>
    have rest : w ∈ (List.foldr Pattern.alt .never ps).language ↔ ∃ q ∈ ps, w ∈ q.language := ih
    rw [any, List.foldr_cons, language, Language.mem_add, rest]
    simp

lemma mem_anyText (w : List Char) : w ∈ PlacedPattern.anyText.language :=
  mem_star_one.2 fun _ _ => rfl

end Pattern

/-! ## Patterns at a place in a text -/

/-- A pattern that has to be the whole text is found in its texts, and in these with a line feed
behind them. -/
lemma isIn_whole {p : Pattern} {s : String} :
    PlacedPattern.isIn ⟨p, true, true⟩ s = true ↔
      s.toList ∈ p.language ∨ ∃ w ∈ p.language, s.toList = w ++ ['\n'] := by
  simp only [PlacedPattern.isIn, if_true, Pattern.acceptsLine, Bool.or_eq_true, Bool.and_eq_true,
    Pattern.accepts_iff, beq_iff_eq, List.getLast?_eq_some_iff]
  constructor
  · rintro (h | ⟨⟨w, hw⟩, h⟩)
    · exact .inl h
    · refine .inr ⟨w, ?_, hw⟩
      rwa [hw, List.dropLast_concat] at h
  · rintro (h | ⟨w, h, hw⟩)
    · exact .inl h
    · refine .inr ⟨⟨w, hw⟩, ?_⟩
      rwa [hw, List.dropLast_concat]

/-- A pattern for the start of a text is found where one of its texts comes first. -/
lemma isIn_start {p : Pattern} {s : String} :
    PlacedPattern.isIn ⟨p, true, false⟩ s = true ↔
      ∃ w ∈ p.language, w <+: s.toList := by
  simp only [PlacedPattern.isIn, if_true, Bool.false_eq_true, if_false, Pattern.accepts_iff]
  rw [Pattern.language, Language.mem_mul]
  constructor
  · rintro ⟨w, hw, rest, -, joined⟩
    exact ⟨w, hw, rest, joined⟩
  · rintro ⟨w, hw, rest, joined⟩
    exact ⟨w, hw, rest, Pattern.mem_anyText rest, joined⟩

end KsyTools.Text
