/-
# What is typed is what is replaced

The part of an import path that is found in front of the cursor stands there, and nothing else is
replaced when a completion is taken.  Typing can go on from there: in the text with the completion
in it, the path in front of the cursor is found again, whether the list is in brackets or a block
list.  Only a hyphen alone is the start of an item no longer once something stands right behind it.
-/
import KsyTools.Ksy.Completion
import Mathlib.Data.List.DropRight
import Mathlib.Tactic.Common

namespace KsyTools

open Text (isBlank)

namespace Text

/-- A text without blanks has none to drop on its sides. -/
lemma trim_of_notBlank {cs : List Char} (h : ∀ c ∈ cs, ¬ isBlank c) : trim cs = cs := by
  have hstart : trimStart cs = cs := by
    cases cs with
    | nil => rfl
    | cons c rest => exact List.dropWhile_cons_of_neg (h c List.mem_cons_self)
  rw [trim, hstart]
  exact List.rdropWhile_eq_self_iff.mpr fun hne => h _ (List.getLast_mem hne)

lemma slice_zero {α : Type} (xs : List α) (n : ℕ) : slice xs 0 n = xs.take n := by
  have hstart : clampIndex xs.length 0 = 0 := by simp [clampIndex]
  have hstop : clampIndex xs.length n = min n xs.length := if_neg (by omega)
  rw [slice, hstart, hstop, List.drop_zero, Nat.sub_zero, ← List.take_eq_take_min]

end Text

namespace Ksy

/-! ## Lists in brackets -/

/-- The characters of a path in brackets. -/
lemma isFlowPathChar_iff {c : Char} :
    isFlowPathChar c ↔ ¬ isBlank c ∧ c ≠ ',' ∧ c ≠ '[' ∧ c ≠ ']' := by
  simp [isFlowPathChar, and_assoc]

/-- What is typed behind the inside of an open bracket is more of the path at its end. -/
lemma flowPath?_append (inside : List Char) {tail : List Char} (h : ∀ c ∈ tail, isFlowPathChar c) :
    flowPath? (inside ++ tail) = (flowPath? inside).map (· ++ tail) := by
  have hpath : ((inside ++ tail).reverse.takeWhile isFlowPathChar).reverse =
      (inside.reverse.takeWhile isFlowPathChar).reverse ++ tail := by
    rw [List.reverse_append, List.takeWhile_append_of_pos (by simpa using h), List.reverse_append,
      List.reverse_reverse]
  have hfront : (inside ++ tail).take ((inside ++ tail).length -
        ((inside.reverse.takeWhile isFlowPathChar).reverse ++ tail).length) =
      inside.take (inside.length - (inside.reverse.takeWhile isFlowPathChar).reverse.length) := by
    rw [List.length_append, List.length_append, Nat.add_sub_add_right,
      List.take_append_of_le_length (Nat.sub_le _ _)]
  unfold flowPath?
  rw [hpath]
  simp only [hfront]
  split
  · rfl
  · split_ifs <;> rfl
  · rfl

lemma suffix_of_flowPath? {inside path : List Char} (h : flowPath? inside = some path) :
    path <:+ inside ∧ ∀ c ∈ path, isFlowPathChar c := by
  obtain rfl : (inside.reverse.takeWhile isFlowPathChar).reverse = path := by
    unfold flowPath? at h
    simp only at h
    split at h
    · exact Option.some.inj h
    · split_ifs at h
      exact Option.some.inj h
    · cases h
  exact ⟨List.rtakeWhile_suffix isFlowPathChar inside,
    fun c hc => List.mem_takeWhile_imp (List.mem_reverse.mp hc)⟩

/-- Without a line feed at its end a text can only be matched up to its very end. -/
lemma lineEnds_of_notMem {cs : List Char} (h : '\n' ∉ cs) : lineEnds cs = [cs] :=
  if_neg fun hlast => h (List.mem_of_getLast? hlast)

/-- The path behind a key is that in the list that the key is followed by. -/
lemma flowPathAfterKey?_eq_some_iff {cs path : List Char} (hline : '\n' ∉ cs) :
    flowPathAfterKey? cs = some path ↔ ∃ blanks inside : List Char, (∀ c ∈ blanks, isBlank c) ∧
      cs = importsKey.toList ++ [':'] ++ blanks ++ '[' :: inside ∧
        flowPath? inside = some path := by
  have hends {inside : List Char} (hinside : '\n' ∉ inside) :
      (lineEnds inside).findSome? flowPath? = flowPath? inside := by
    rw [lineEnds_of_notMem hinside, List.findSome?_cons]
    cases flowPath? inside <;> rfl
  generalize hkey : importsKey.toList ++ [':'] = key
  unfold flowPathAfterKey?
  simp only [hkey]
  constructor
  · intro h
    split_ifs at h with hstarts
    obtain ⟨rest, rfl⟩ := List.isPrefixOf_iff_prefix.mp hstarts
    rw [List.drop_left] at h
    split at h
    · rename_i inside hrest
      have hcs : key ++ rest = key ++ rest.takeWhile isBlank ++ '[' :: inside := by
        rw [← hrest, List.append_assoc, List.takeWhile_append_dropWhile]
      rw [hends fun hmem => hline (by simp [hcs, hmem])] at h
      exact ⟨_, inside, fun c hc => List.mem_takeWhile_imp hc, hcs, h⟩
    · cases h
  · rintro ⟨blanks, inside, hblanks, rfl, hpath⟩
    have hstarts : key.isPrefixOf (key ++ blanks ++ '[' :: inside) := by
      rw [List.isPrefixOf_iff_prefix, List.append_assoc]
      exact List.prefix_append key _
    have hbracket : ¬ isBlank '[' := by decide
    rw [if_pos hstarts, List.append_assoc, List.drop_left, List.dropWhile_append_of_pos hblanks,
      List.dropWhile_cons_of_neg hbracket]
    exact (hends fun hmem => hline (by simp [hmem])).trans hpath

/-- What is typed behind a key is more of the path in the list, but opens no list itself. -/
lemma flowPathAfterKey?_append {cs tail : List Char} (hline : '\n' ∉ cs)
    (h : ∀ c ∈ tail, isFlowPathChar c) :
    flowPathAfterKey? (cs ++ tail) = (flowPathAfterKey? cs).map (· ++ tail) := by
  have hbracket : '[' ∉ tail := fun hmem => absurd (h '[' hmem) (by decide)
  have hfeed : '\n' ∉ tail := fun hmem => absurd (h '\n' hmem) (by decide)
  have hboth : '\n' ∉ cs ++ tail := by simp [hline, hfeed]
  ext path
  simp only [Option.map_eq_some_iff, flowPathAfterKey?_eq_some_iff hline,
    flowPathAfterKey?_eq_some_iff hboth]
  constructor
  · rintro ⟨blanks, inside, hblanks, hcs, hpath⟩
    obtain ⟨more, rfl, rfl⟩ : ∃ more, cs = importsKey.toList ++ [':'] ++ blanks ++ '[' :: more ∧
        inside = more ++ tail := by
      -- the bracket is in front of what is typed
      rcases List.append_eq_append_iff.mp hcs with ⟨more, -, htail⟩ | ⟨more, hfront, htail⟩
      · exact absurd (by simp [htail]) hbracket
      · cases more with
        | nil =>
          obtain rfl : '[' :: inside = tail := htail
          exact absurd List.mem_cons_self hbracket
        | cons c more =>
          obtain ⟨rfl, rfl⟩ := List.cons.inj htail
          exact ⟨more, hfront, rfl⟩
    rw [flowPath?_append more h, Option.map_eq_some_iff] at hpath
    obtain ⟨typed, htyped, rfl⟩ := hpath
    exact ⟨typed, ⟨blanks, more, hblanks, rfl, htyped⟩, rfl⟩
  · rintro ⟨typed, ⟨blanks, inside, hblanks, rfl, htyped⟩, rfl⟩
    refine ⟨blanks, inside ++ tail, hblanks, by simp, ?_⟩
    rw [flowPath?_append inside h, htyped]
    rfl

lemma flowSearch?_cons (before : Option Char) (c : Char) (rest : List Char) :
    flowSearch? before (c :: rest) =
      (if before.any Text.isWord then none else flowPathAfterKey? (c :: rest)).or
        (flowSearch? (some c) rest) := by
  rw [flowSearch?]
  split <;> simp [*]

/-- No list is opened where there are no brackets. -/
lemma flowSearch?_of_notMem {before : Option Char} {cs : List Char} (hline : '\n' ∉ cs)
    (h : '[' ∉ cs) : flowSearch? before cs = none := by
  induction cs generalizing before with
  | nil => rfl
  | cons c rest ih =>
    have hhere : flowPathAfterKey? (c :: rest) = none := by
      rw [Option.eq_none_iff_forall_ne_some]
      intro path hpath
      obtain ⟨blanks, inside, -, hcs, -⟩ := (flowPathAfterKey?_eq_some_iff hline).mp hpath
      exact h (by simp [hcs])
    rw [flowSearch?_cons, hhere, ite_self, Option.none_or]
    exact ih (List.not_mem_of_not_mem_cons hline) (List.not_mem_of_not_mem_cons h)

/-- What is typed behind a line is more of the path that is found at its end. -/
lemma flowSearch?_append {before : Option Char} {cs tail : List Char} (hline : '\n' ∉ cs)
    (h : ∀ c ∈ tail, isFlowPathChar c) :
    flowSearch? before (cs ++ tail) = (flowSearch? before cs).map (· ++ tail) := by
  induction cs generalizing before with
  | nil =>
    exact flowSearch?_of_notMem (fun hmem => absurd (h '\n' hmem) (by decide))
      fun hmem => absurd (h '[' hmem) (by decide)
  | cons c rest ih =>
    have hhere := flowPathAfterKey?_append hline h
    rw [List.cons_append] at hhere ⊢
    rw [flowSearch?_cons, flowSearch?_cons, hhere, ih (List.not_mem_of_not_mem_cons hline),
      Option.map_or]
    congr 1
    split_ifs <;> rfl

/-- What is found stands at the end of the line. -/
lemma suffix_of_flowSearch? {before : Option Char} {cs path : List Char} (hline : '\n' ∉ cs)
    (h : flowSearch? before cs = some path) : path <:+ cs ∧ ∀ c ∈ path, isFlowPathChar c := by
  induction cs generalizing before with
  | nil => cases h
  | cons c rest ih =>
    rw [flowSearch?_cons, Option.or_eq_some_iff] at h
    rcases h with h | ⟨-, h⟩
    · split_ifs at h
      obtain ⟨blanks, inside, -, hcs, hpath⟩ := (flowPathAfterKey?_eq_some_iff hline).mp h
      obtain ⟨hsuffix, hchars⟩ := suffix_of_flowPath? hpath
      refine ⟨hsuffix.trans ?_, hchars⟩
      rw [hcs]
      exact (List.suffix_cons '[' inside).trans (List.suffix_append _ _)
    · obtain ⟨hsuffix, hchars⟩ := ih (List.not_mem_of_not_mem_cons hline) h
      exact ⟨hsuffix.trans (List.suffix_cons c rest), hchars⟩

/-- The path that is found in a line is behind a part of the line where none is typed yet. -/
lemma flowSearch?_eq_some_iff {before : Option Char} {cs path : List Char} (hline : '\n' ∉ cs) :
    flowSearch? before cs = some path ↔ ∃ front, cs = front ++ path ∧
      flowSearch? before front = some [] ∧ ∀ c ∈ path, isFlowPathChar c := by
  constructor
  · intro h
    obtain ⟨⟨front, rfl⟩, hchars⟩ := suffix_of_flowSearch? hline h
    rw [List.mem_append, not_or] at hline
    rw [flowSearch?_append hline.1 hchars, Option.map_eq_some_iff] at h
    obtain ⟨typed, htyped, heq⟩ := h
    obtain rfl : typed = [] := List.append_left_eq_self.mp heq
    exact ⟨front, rfl, htyped, hchars⟩
  · rintro ⟨front, rfl, hfront, hchars⟩
    rw [List.mem_append, not_or] at hline
    rw [flowSearch?_append hline.1 hchars, hfront]
    rfl

/-! ## Block lists -/

/-- A line that ends right behind the hyphen of an item. -/
def EndsAtHyphen (before : List Char) : Prop :=
  before.dropWhile isBlank = ['-']

instance (before : List Char) : Decidable (EndsAtHyphen before) :=
  inferInstanceAs (Decidable (_ = _))

/-- The path of the item that a line is, up to its end. -/
def itemPath? (cs : List Char) : Option (List Char) :=
  if isEmptyItem cs then some [] else blockPath? cs

lemma dropFinalNewline_of_notMem {cs : List Char} (h : '\n' ∉ cs) : dropFinalNewline cs = cs :=
  if_neg fun hlast => h (List.mem_of_getLast? hlast)

/-- The characters of a path in a block list. -/
lemma isBlockPathChar_iff {c : Char} : isBlockPathChar c ↔ ¬ isBlank c ∧ c ≠ '#' := by
  simp [isBlockPathChar]

/-- A line is an item: a hyphen with blanks in front of it and behind it, and a path. -/
structure IsItem (cs indent gap path : List Char) : Prop where
  line_eq : cs = indent ++ '-' :: (gap ++ path)
  indent_blank : ∀ c ∈ indent, isBlank c
  gap_blank : ∀ c ∈ gap, isBlank c
  path_chars : ∀ c ∈ path, isBlockPathChar c

lemma exists_of_itemPath? {cs path : List Char} (hline : '\n' ∉ cs) (h : itemPath? cs = some path) :
    ∃ indent gap : List Char, IsItem cs indent gap path := by
  have hindent := List.takeWhile_append_dropWhile (p := isBlank) (l := cs)
  have hblank {l : List Char} : ∀ c ∈ l.takeWhile isBlank, isBlank c :=
    fun c hc => List.mem_takeWhile_imp hc
  unfold itemPath? at h
  split_ifs at h with hempty
  · cases h
    unfold isEmptyItem at hempty
    split at hempty
    · rename_i rest hrest
      rw [hrest] at hindent
      refine ⟨cs.takeWhile isBlank, rest, ?_, hblank, List.all_eq_true.mp hempty, by simp⟩
      rw [List.append_nil, hindent]
    · cases hempty
  · unfold blockPath? at h
    split at h
    · rename_i rest hrest
      rw [hrest] at hindent
      have hfeed : '\n' ∉ rest.dropWhile isBlank := fun hmem => hline <| by
        rw [← hindent]
        simp [(List.dropWhile_suffix isBlank).subset hmem]
      simp only [dropFinalNewline_of_notMem hfeed] at h
      split_ifs at h with hgap hchars
      cases h
      refine ⟨cs.takeWhile isBlank, rest.takeWhile isBlank, ?_, hblank, hblank,
        List.all_eq_true.mp hchars⟩
      rw [List.takeWhile_append_dropWhile, hindent]
    · cases h

namespace IsItem

variable {cs indent gap path : List Char}

/-- The path of an item is found, but right behind the hyphen only an empty one. -/
lemma itemPath?_eq (h : IsItem cs indent gap path) :
    itemPath? cs = if path ≠ [] ∧ gap = [] then none else some path := by
  have hbare : cs.dropWhile isBlank = '-' :: (gap ++ path) := by
    rw [h.line_eq, List.dropWhile_append_of_pos h.indent_blank,
      List.dropWhile_cons_of_neg (by decide)]
  unfold itemPath? isEmptyItem blockPath?
  simp only [hbare]
  cases path with
  | nil =>
    rw [List.append_nil, if_pos (List.all_eq_true.mpr h.gap_blank)]
    rfl
  | cons c rest =>
    have hblank : ¬ isBlank c := (isBlockPathChar_iff.mp (h.path_chars c List.mem_cons_self)).1
    have hrest : (gap ++ c :: rest).dropWhile isBlank = c :: rest := by
      rw [List.dropWhile_append_of_pos h.gap_blank, List.dropWhile_cons_of_neg hblank]
    have hfeed : '\n' ∉ c :: rest := fun hmem => absurd (h.path_chars '\n' hmem) (by decide)
    rw [hrest, dropFinalNewline_of_notMem hfeed, if_neg (by simp [hblank]),
      if_pos (List.all_eq_true.mpr h.path_chars)]
    simp [List.length_eq_zero_iff]

/-- Another path may stand in the place of that of an item. -/
lemma withPath (h : IsItem cs indent gap path) {label : List Char}
    (hlabel : ∀ c ∈ label, isBlockPathChar c) :
    IsItem (indent ++ '-' :: (gap ++ label)) indent gap label :=
  ⟨rfl, h.indent_blank, h.gap_blank, hlabel⟩

/-- What is neither blank nor a hyphen stands in the path. -/
lemma notMem (h : IsItem cs indent gap path) {c : Char} (hblank : ¬ isBlank c) (hhyphen : c ≠ '-')
    (hpath : c ∉ path) : c ∉ cs := by
  have hindent : c ∉ indent := fun hmem => hblank (h.indent_blank c hmem)
  have hgap : c ∉ gap := fun hmem => hblank (h.gap_blank c hmem)
  simp [h.line_eq, hindent, hgap, hhyphen, hpath]

lemma endsAtHyphen_iff (h : IsItem cs indent gap path) :
    EndsAtHyphen cs ↔ gap = [] ∧ path = [] := by
  rw [EndsAtHyphen, h.line_eq, List.dropWhile_append_of_pos h.indent_blank,
    List.dropWhile_cons_of_neg (by decide)]
  simp

end IsItem

lemma EndsAtHyphen.isItem {cs : List Char} (h : EndsAtHyphen cs) :
    IsItem cs (cs.takeWhile isBlank) [] [] where
  line_eq := by
    conv_lhs => rw [← List.takeWhile_append_dropWhile (p := isBlank) (l := cs), h]
    rfl
  indent_blank := fun c hc => List.mem_takeWhile_imp hc
  gap_blank := by simp
  path_chars := by simp

/-! ## Completions -/

/-- What is typed at the end of a line, with the lines above it, nearest first. -/
def typedIn? (above : List (List Char)) (before : List Char) : Option (List Char) :=
  match flowSearch? none before with
  | some path => some (Text.trim path)
  | none => if belongsToImports above then (itemPath? before).map Text.trim else none

lemma typedPath?_eq {lines : List (List Char)} {n : ℕ} {text : List Char}
    (hline : lines[n]? = some text) (character : ℕ) :
    typedPath? lines n character = typedIn? (lines.take n).reverse (text.take character) := by
  have hnat : (n : ℤ) = Int.ofNat n := rfl
  rw [hnat, typedPath?]
  simp only [hline, Text.slice_zero]
  rw [← itemPath?, typedIn?]
  cases itemPath? (text.take character) <;> split_ifs <;> rfl

/-- A label that can stand in any list. -/
def IsLabel (label : List Char) : Prop :=
  ∀ c ∈ label, ¬ isBlank c ∧ c ∉ ['#', ',', '[', ']']

/-- What is typed has no blanks and ends the line, and a label in its place is what is typed then,
unless it is put right behind a hyphen. -/
def Continues (above : List (List Char)) (before typed : List Char) : Prop :=
  (∀ c ∈ typed, ¬ isBlank c) ∧ ∃ front, before = front ++ typed ∧ ∀ label, IsLabel label →
    typedIn? above (front ++ label) =
      if label ≠ [] ∧ EndsAtHyphen before then none else some label

namespace IsLabel

variable {label : List Char}

lemma flowChars (h : IsLabel label) : ∀ c ∈ label, isFlowPathChar c := by
  intro c hc
  obtain ⟨hblank, hother⟩ := h c hc
  simp only [List.mem_cons, List.not_mem_nil, or_false, not_or] at hother
  exact isFlowPathChar_iff.mpr ⟨hblank, hother.2⟩

lemma blockChars (h : IsLabel label) : ∀ c ∈ label, isBlockPathChar c := by
  intro c hc
  obtain ⟨hblank, hother⟩ := h c hc
  exact isBlockPathChar_iff.mpr ⟨hblank, List.ne_of_not_mem_cons hother⟩

lemma trim_eq (h : IsLabel label) : Text.trim label = label :=
  Text.trim_of_notBlank fun c hc => (h c hc).1

lemma notMem (h : IsLabel label) : '[' ∉ label :=
  fun hmem => (h '[' hmem).2 (by decide)

lemma noFeed (h : IsLabel label) : '\n' ∉ label :=
  fun hmem => (h '\n' hmem).1 (by decide)

end IsLabel

variable {above : List (List Char)} {before path : List Char}

/-- In a list in brackets, typing can go on. -/
lemma continues_of_flowSearch? (hline : '\n' ∉ before)
    (h : flowSearch? none before = some path) : Continues above before path := by
  obtain ⟨front, rfl, hfront, hchars⟩ := (flowSearch?_eq_some_iff hline).mp h
  refine ⟨fun c hc => (isFlowPathChar_iff.mp (hchars c hc)).1, front, rfl, fun label hlabel => ?_⟩
  have hline' : '\n' ∉ front ++ label := by
    rw [List.mem_append, not_or] at hline ⊢
    exact ⟨hline.1, hlabel.noFeed⟩
  have hfound : flowSearch? none (front ++ label) = some label :=
    (flowSearch?_eq_some_iff hline').mpr ⟨front, rfl, hfront, hlabel.flowChars⟩
  have hhyphen : ¬ EndsAtHyphen (front ++ path) := by
    intro hends
    have hbracket := hends.isItem.notMem (c := '[') (by decide) (by decide) (by simp)
    rw [flowSearch?_of_notMem hline hbracket] at h
    cases h
  rw [if_neg fun hands => hhyphen hands.2, typedIn?, hfound]
  exact congrArg some hlabel.trim_eq

/-- In a block list, typing can go on, but not right behind a hyphen. -/
lemma continues_of_itemPath? (hline : '\n' ∉ before) (habove : belongsToImports above)
    (h : itemPath? before = some path) : Continues above before path := by
  obtain ⟨indent, gap, hitem⟩ := exists_of_itemPath? hline h
  refine ⟨fun c hc => (isBlockPathChar_iff.mp (hitem.path_chars c hc)).1, indent ++ '-' :: gap,
    by simpa using hitem.line_eq, fun label hlabel => ?_⟩
  have hitem' := hitem.withPath hlabel.blockChars
  have hfeed : '\n' ∉ indent ++ '-' :: (gap ++ label) := by
    rw [hitem.line_eq] at hline
    simp only [List.mem_append, List.mem_cons, not_or] at hline ⊢
    exact ⟨hline.1, hline.2.1, hline.2.2.1, hlabel.noFeed⟩
  have hflow : flowSearch? none (indent ++ '-' :: (gap ++ label)) = none :=
    flowSearch?_of_notMem hfeed (hitem'.notMem (by decide) (by decide) hlabel.notMem)
  have hgap : EndsAtHyphen before ↔ gap = [] := by
    rw [hitem.itemPath?_eq] at h
    rw [hitem.endsAtHyphen_iff, and_iff_left_iff_imp]
    intro hgap
    by_contra hpath
    rw [if_pos ⟨hpath, hgap⟩] at h
    cases h
  rw [List.append_assoc, List.cons_append, typedIn?, hflow]
  simp only [if_pos habove, hitem'.itemPath?_eq, hgap]
  split_ifs
  · rfl
  · exact congrArg some hlabel.trim_eq

lemma continues_of_typedIn? (hline : '\n' ∉ before) {typed : List Char}
    (h : typedIn? above before = some typed) : Continues above before typed := by
  have htrimmed {path : List Char} (hpath : Continues above before path)
      (htrim : Text.trim path = typed) : Continues above before typed := by
    rw [Text.trim_of_notBlank hpath.1] at htrim
    rwa [← htrim]
  unfold typedIn? at h
  cases hflow : flowSearch? none before with
  | some path =>
    rw [hflow] at h
    exact htrimmed (continues_of_flowSearch? hline hflow) (Option.some.inj h)
  | none =>
    simp only [hflow] at h
    split_ifs at h with habove
    obtain ⟨path, hpath, htrim⟩ := Option.map_eq_some_iff.mp h
    exact htrimmed (continues_of_itemPath? hline habove hpath) htrim

/-- A cursor that is not behind the line feed of its line is in the line, and has none in front of
it. -/
lemma take_of_le_length {text : List Char} {character : ℕ} (hfeed : '\n' ∉ text.dropLast)
    (hcharacter : character ≤ (dropFinalNewline text).length) :
    (text.take character).length = character ∧ '\n' ∉ text.take character := by
  have hfree : '\n' ∉ dropFinalNewline text := by
    unfold dropFinalNewline
    split_ifs with hlast
    · exact hfeed
    · intro hmem
      rcases List.eq_nil_or_concat text with rfl | ⟨front, c, rfl⟩
      · cases hmem
      · simp_all [eq_comm]
  obtain ⟨rest, hrest⟩ : dropFinalNewline text <+: text := by
    unfold dropFinalNewline
    split_ifs
    · exact List.dropLast_prefix text
    · exact List.prefix_refl text
  rw [← hrest, List.take_append_of_le_length hcharacter, List.length_take]
  exact ⟨Nat.min_eq_left hcharacter, fun hmem => hfree (List.mem_of_mem_take hmem)⟩

/-- The lines with a label in the place of the characters in front of a cursor that are typed. -/
def complete (lines : List (List Char)) (n character typed : ℕ) (label : List Char) :
    List (List Char) :=
  lines.modify n fun text => text.take (character - typed) ++ label ++ text.drop character

/-- A completion replaces what is typed and nothing else, and typing can go on from there.

What is typed in front of a cursor has no blanks, and the text in front of the cursor ends with it:
it is all that stands between its start, which is in the line, and the cursor.  When it is replaced
by a label that can stand in any list, the label is what is typed in front of the cursor at its end.
Only right behind a hyphen, where no path can start, nothing is typed any longer. -/
theorem typedPath?_complete {lines : List (List Char)} {n character : ℕ} {text typed : List Char}
    (hline : lines[n]? = some text) (hfeed : '\n' ∉ text.dropLast)
    (hcharacter : character ≤ (dropFinalNewline text).length)
    (h : typedPath? lines n character = some typed) :
    (∀ c ∈ typed, ¬ isBlank c) ∧ typed.length ≤ character ∧
      text.take character = text.take (character - typed.length) ++ typed ∧
      ∀ label, IsLabel label →
        typedPath? (complete lines n character typed.length label) n
            ↑(character - typed.length + label.length) =
          if label ≠ [] ∧ EndsAtHyphen (text.take character) then none else some label := by
  obtain ⟨hlength, hfree⟩ := take_of_le_length hfeed hcharacter
  rw [typedPath?_eq hline] at h
  obtain ⟨hblank, front, hbefore, hlabels⟩ := continues_of_typedIn? hfree h
  have hcursor : character = front.length + typed.length := by
    rw [← hlength, hbefore, List.length_append]
  have hfront : text.take (character - typed.length) = front := by
    have hle : character - typed.length ≤ character := Nat.sub_le _ _
    rw [← Nat.min_eq_left hle, ← List.take_take, hbefore, hcursor, Nat.add_sub_cancel,
      List.take_left]
  refine ⟨hblank, by omega, by rw [hfront, hbefore], fun label hlabel => ?_⟩
  have hedited : (complete lines n character typed.length label)[n]? =
      some (front ++ label ++ text.drop character) := by
    rw [complete, List.getElem?_modify_eq, hline, ← hfront]
    rfl
  have habove : (complete lines n character typed.length label).take n = lines.take n := by
    rw [complete, List.take_modify, List.modify_eq_self (List.length_take_le n lines)]
  have hbefore' : (front ++ label ++ text.drop character).take
      (character - typed.length + label.length) = front ++ label := by
    rw [List.take_left']
    rw [hcursor, Nat.add_sub_cancel, List.length_append]
  rw [typedPath?_eq hedited, habove, hbefore', hlabels label hlabel]

/-- The path of the second item is completed, and the item is still one of the imports. -/
theorem typedPath?_complete_item :
    let lines := ["imports:\n".toList, "  - a\n".toList, "  - b/c".toList]
    typedPath? lines 2 7 = some "b/c".toList ∧ IsLabel "b/".toList ∧
      typedPath? (complete lines 2 7 3 "b/".toList) 2 6 = some "b/".toList := by
  intro lines
  have hline : lines[2]? = some "  - b/c".toList := rfl
  have hcharacter : 7 ≤ (dropFinalNewline "  - b/c".toList).length := by decide
  have htyped : typedPath? lines 2 7 = some "b/c".toList := by decide +kernel
  have hlabel : IsLabel "b/".toList := by
    intro c hc
    obtain rfl | rfl : c = 'b' ∨ c = '/' := by simpa using hc
    · exact ⟨by decide, by decide⟩
    · exact ⟨by decide, by decide⟩
  obtain ⟨-, -, -, hlabels⟩ := typedPath?_complete hline (by decide) hcharacter htyped
  exact ⟨htyped, hlabel, hlabels _ hlabel⟩

/-- Right behind a hyphen, a label is no item. -/
example : typedPath? ["imports:".toList, "  -".toList] 1 3 = some [] ∧
    typedPath? ["imports:".toList, "  -a".toList] 1 4 = none := by
  decide +kernel

end Ksy

end KsyTools
