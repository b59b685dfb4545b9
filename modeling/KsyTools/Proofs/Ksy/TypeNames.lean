/-
# The names of types

What the checks of a name say about its characters: which names count bits, what is left of a name
without its arguments, and where a path is split into names.
-/
import KsyTools.Ksy.KnownType
import Mathlib.Data.List.DropRight
import Mathlib.Tactic.Common

namespace KsyTools

namespace Text

/-! ## Blanks -/

lemma trimStart_dropEndWhile {cs : List Char} (h : trimStart cs = cs) :
    trimStart (dropEndWhile isBlank cs) = dropEndWhile isBlank cs := by
  rw [trimStart, List.dropWhile_eq_self_iff] at h ⊢
  intro hlen
  -- what is left starts as the whole text does
  have hshort : dropEndWhile isBlank cs <+: cs := List.rdropWhile_prefix isBlank cs
  rw [hshort.getElem hlen]
  exact h (hlen.trans_le hshort.length_le)

/-- A trimmed text has no blanks around it. -/
lemma trim_trim (cs : List Char) : trim (trim cs) = trim cs := by
  have hstart : trimStart (trimStart cs) = trimStart cs := List.dropWhile_idempotent isBlank cs
  unfold trim
  rw [trimStart_dropEndWhile hstart]
  exact List.rdropWhile_idempotent isBlank (trimStart cs)

end Text

namespace Ksy

/-! ## Counts of bits -/

/-- A count of bits: the letter `b` and decimal digits, at least one. -/
def IsBitCount (cs : List Char) : Prop :=
  ∃ digits, digits ≠ [] ∧ (∀ c ∈ digits, Text.isDigit c) ∧ cs = 'b' :: digits

lemma isBitType_iff {cs : List Char} : isBitType cs ↔ IsBitCount cs := by
  constructor
  · intro h
    unfold isBitType at h
    split at h
    · rename_i digits
      simp only [Bool.and_eq_true, Bool.not_eq_true', List.isEmpty_eq_false_iff,
        List.all_eq_true] at h
      exact ⟨digits, h.1, h.2, rfl⟩
    · simp at h
  · rintro ⟨digits, hne, hdigits, rfl⟩
    simpa [isBitType, hne] using hdigits

/-- A standard name is one of a list, or a count of bits. -/
lemma isStandardType_trim (cs : List Char) :
    isStandardType (String.ofList (Text.trim cs)) ↔
      String.ofList (Text.trim cs) ∈ standardTypes ∨ IsBitCount (Text.trim cs) := by
  have hstrip : Text.strip (String.ofList (Text.trim cs)) = String.ofList (Text.trim cs) := by
    rw [Text.strip, String.toList_ofList, Text.trim_trim]
  unfold isStandardType
  simp only [hstrip, Bool.or_eq_true, List.contains_eq_mem, decide_eq_true_eq, String.toList_ofList,
    isBitType_iff]

/-- A count of bits with a byte order is a count of bits before `le` or `be`. -/
lemma isEndianBitType_iff {cs : List Char} :
    isEndianBitType cs ↔
      ∃ bits, IsBitCount bits ∧ (cs = bits ++ ['l', 'e'] ∨ cs = bits ++ ['b', 'e']) := by
  constructor
  · intro h
    unfold isEndianBitType at h
    split at h
    · rename_i order front hreverse
      have hcs : cs = front.reverse ++ [order, 'e'] := by
        rw [← List.reverse_reverse cs, hreverse]
        simp
      simp only [Bool.and_eq_true, Bool.or_eq_true, beq_iff_eq, isBitType_iff] at h
      obtain ⟨horder, hbits⟩ := h
      refine ⟨front.reverse, hbits, ?_⟩
      rcases horder with rfl | rfl
      · exact .inl hcs
      · exact .inr hcs
    · simp at h
  · rintro ⟨bits, hbits, rfl | rfl⟩
    · simp [isEndianBitType, isBitType_iff.mpr hbits]
    · simp [isEndianBitType, isBitType_iff.mpr hbits]

/-! ## Arguments -/

/-- The name in a use of a type: what comes before the first opening parenthesis, where the use ends
with a closing one. -/
def nameIn (use : List Char) : List Char :=
  if use.getLast? = some ')' ∧ '(' ∈ use.dropLast then Text.trim (use.takeWhile (· ≠ '(')) else use

lemma trim_dropArguments (text : List Char) :
    Text.trim (dropArguments (Text.trim text)) = nameIn (Text.trim text) := by
  unfold dropArguments nameIn
  by_cases hlast : (Text.trim text).getLast? = some ')'
  · -- the last character is no opening parenthesis, so all of these come before it
    have hmem : '(' ∈ Text.trim text ↔ '(' ∈ (Text.trim text).dropLast := by
      obtain ⟨front, hfront⟩ := List.getLast?_eq_some_iff.mp hlast
      simp [hfront]
    by_cases hopen : '(' ∈ Text.trim text
    · rw [if_pos (by simp [hlast, hopen]), if_pos ⟨hlast, hmem.mp hopen⟩]
      congr 2
      funext c
      by_cases hc : c = '(' <;> simp [hc]
    · rw [if_neg (by simp [hopen]), if_neg fun h => hopen (hmem.mpr h.2), Text.trim_trim]
  · rw [if_neg (by simp [hlast]), if_neg fun h => hlast h.1, Text.trim_trim]

lemma trim_nameIn (text : List Char) :
    Text.trim (nameIn (Text.trim text)) = nameIn (Text.trim text) := by
  rw [← trim_dropArguments, Text.trim_trim]

/-! ## Paths -/

/-- A path is split into names where two colons stand, from left to right: each name reaches up to
the first two colons that follow. -/
inductive Splits : List Char → List (List Char) → Prop
  | last {cs : List Char} : ¬ [':', ':'] <:+: cs → Splits cs [cs]
  | cut {name rest : List Char} {names : List (List Char)} : ¬ [':', ':'] <:+: name ++ [':'] →
      Splits rest names → Splits (name ++ ':' :: ':' :: rest) (name :: names)

lemma splits_segments (cs : List Char) : Splits cs (segments cs) := by
  fun_induction segments cs with
  | case1 => exact .last (by decide)
  | case2 rest ih =>
    show Splits ([] ++ ':' :: ':' :: rest) ([] :: segments rest)
    exact .cut (by decide) ih
  | case3 c rest hcolons name others hsegments ih =>
    -- a character in front makes no two colons with what follows
    have hcons : ∀ {tail after : List Char}, rest = tail ++ after → ¬ [':', ':'] <:+: tail →
        ¬ [':', ':'] <:+: c :: tail := by
      rintro tail after rfl htail hinfix
      rcases List.infix_cons_iff.mp hinfix with ⟨more, hmore⟩ | hinfix
      · obtain ⟨rfl, rfl⟩ : ':' = c ∧ ':' :: more = tail := by simpa using hmore
        exact hcolons _ rfl rfl
      · exact htail hinfix
    rw [hsegments] at ih
    cases ih with
    | last hno => exact .last (hcons (List.append_nil _).symm hno)
    | @cut _ later _ hno hlater =>
      have hfirst : ¬ [':', ':'] <:+: (c :: name) ++ [':'] :=
        hcons (show name ++ ':' :: ':' :: later = (name ++ [':']) ++ ':' :: later by simp) hno
      exact .cut hfirst hlater
  | case4 c rest hcolons hsegments ih =>
    rw [hsegments] at ih
    cases ih

/-- A name that has no two colons up to the first one behind it is the shorter one of two. -/
lemma length_le_of_cut {a b rest rest' : List Char} (hb : ¬ [':', ':'] <:+: b ++ [':'])
    (h : a ++ ':' :: ':' :: rest = b ++ ':' :: ':' :: rest') : b.length ≤ a.length := by
  by_contra hlt
  have ha : a ++ [':', ':'] <+: b ++ ':' :: ':' :: rest' := ⟨rest, by simp [← h]⟩
  have hb' : b ++ [':'] <+: b ++ ':' :: ':' :: rest' := ⟨':' :: rest', by simp⟩
  have hshort : a ++ [':', ':'] <+: b ++ [':'] :=
    List.prefix_of_prefix_length_le ha hb' (by simp; omega)
  exact hb ((List.suffix_append a _).isInfix.trans hshort.isInfix)

/-- There is one way to split a path. -/
lemma Splits.unique {cs : List Char} {names names' : List (List Char)} (h : Splits cs names)
    (h' : Splits cs names') : names = names' := by
  induction h generalizing names' with
  | @last cs hno =>
    cases h' with
    | last => rfl
    | @cut name rest => exact absurd ⟨name, rest, by simp⟩ hno
  | @cut name rest names hno hrest ih =>
    generalize hcs : name ++ ':' :: ':' :: rest = cs at h'
    cases h' with
    | last hno' => exact absurd ⟨name, rest, by simp [← hcs]⟩ hno'
    | @cut name' rest' names' hno' hrest' =>
      have hlength := le_antisymm (length_le_of_cut hno hcs.symm) (length_le_of_cut hno' hcs)
      obtain ⟨rfl, heq⟩ := List.append_inj hcs hlength
      obtain rfl : rest = rest' := by simpa using heq
      rw [ih hrest']

lemma splits_iff {cs : List Char} {names : List (List Char)} :
    Splits cs names ↔ names = segments cs := by
  constructor
  · intro h
    exact h.unique (splits_segments cs)
  · rintro rfl
    exact splits_segments cs

lemma segments_ne_nil (cs : List Char) : segments cs ≠ [] := by
  intro h
  have hsplits := splits_segments cs
  rw [h] at hsplits
  cases hsplits

end Ksy

end KsyTools
