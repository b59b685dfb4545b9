/-
# Offsets and positions

The line of an offset is the number of line feeds before it, and the column is the number of
characters since the last of them.  Offsets and positions are two names for the same places: the
position of an offset leads back to it, the offset of a position that is in the text has that
position, and what is outside the text stands for the nearest place inside.
-/
import KsyTools.Server.Diagnostic
import Mathlib.Data.List.DropRight
import Mathlib.Data.Prod.Lex

namespace KsyTools

/-! ## The end of a text -/

/-- The position at the end of a text: the number of its line feeds, and the number of characters
behind the last of them. -/
def Position.endOf (cs : List Char) : Position :=
  ⟨cs.count '\n', (cs.rtakeWhile (· != '\n')).length⟩

namespace Position

lemma endOf_concat (cs : List Char) (c : Char) : endOf (cs ++ [c]) =
    if c = '\n' then ⟨(endOf cs).line + 1, 0⟩ else ⟨(endOf cs).line, (endOf cs).column + 1⟩ := by
  by_cases hc : c = '\n' <;> simp [endOf, hc]

/-- Characters other than line feeds are one column each. -/
lemma endOf_append_of_notMem {cs more : List Char} (h : '\n' ∉ more) :
    endOf (cs ++ more) = ⟨(endOf cs).line, (endOf cs).column + more.length⟩ := by
  induction more using List.reverseRecOn with
  | nil => simp
  | append_singleton more c ih =>
    obtain ⟨hmore, hc⟩ : '\n' ∉ more ∧ c ≠ '\n' := by simpa [eq_comm] using h
    rw [← List.append_assoc, endOf_concat, if_neg hc, ih hmore, List.length_append]
    rfl

/-- Columns are counted from the last line feed on. -/
lemma endOf_append_cons (cs more : List Char) : endOf (cs ++ '\n' :: more) =
    ⟨(endOf cs).line + 1 + (endOf more).line, (endOf more).column⟩ := by
  induction more using List.reverseRecOn with
  | nil => exact endOf_concat cs '\n'
  | append_singleton more c ih =>
    rw [← List.cons_append, ← List.append_assoc, endOf_concat, ih, endOf_concat]
    split_ifs <;> rfl

lemma line_endOf_append (cs more : List Char) :
    (endOf (cs ++ more)).line = (endOf cs).line + more.count '\n' :=
  List.count_append

end Position

open Position (endOf endOf_concat endOf_append_of_notMem endOf_append_cons line_endOf_append)

/-! ## The starts of lines -/

lemma lineStartsFrom_append (offset : ℕ) (cs more : List Char) :
    lineStartsFrom offset (cs ++ more) =
      lineStartsFrom offset cs ++ lineStartsFrom (offset + cs.length) more := by
  induction cs generalizing offset with
  | nil => simp [lineStartsFrom]
  | cons c rest ih =>
    have hshift : offset + (rest.length + 1) = offset + 1 + rest.length := by omega
    by_cases hc : c = '\n'
    · simp [lineStartsFrom, hc, ih, hshift]
    · simp [lineStartsFrom, hc, ih, hshift]

lemma lineStarts_append (cs more : List Char) :
    lineStarts (cs ++ more) = lineStarts cs ++ lineStartsFrom cs.length more := by
  rw [lineStarts, lineStartsFrom_append, Nat.zero_add]
  rfl

lemma lineStartsFrom_of_notMem {offset : ℕ} {cs : List Char} (h : '\n' ∉ cs) :
    lineStartsFrom offset cs = [] := by
  induction cs generalizing offset with
  | nil => rfl
  | cons c rest ih =>
    obtain ⟨hc, hrest⟩ := List.ne_and_not_mem_of_not_mem_cons h
    rw [lineStartsFrom, if_neg hc.symm, ih hrest]

lemma lt_of_mem_lineStartsFrom {offset start : ℕ} {cs : List Char}
    (h : start ∈ lineStartsFrom offset cs) : offset < start := by
  induction cs generalizing offset with
  | nil => simp [lineStartsFrom] at h
  | cons c rest ih =>
    rw [lineStartsFrom] at h
    split_ifs at h with hc
    · rcases List.mem_cons.mp h with rfl | h
      · exact Nat.lt_succ_self offset
      · exact (Nat.lt_succ_self offset).trans (ih h)
    · exact (Nat.lt_succ_self offset).trans (ih h)

/-- The lines that start at or before an offset are those of the text up to it. -/
lemma takeWhile_lineStartsFrom (offset n : ℕ) (cs : List Char) :
    (lineStartsFrom offset cs).takeWhile (· ≤ offset + n) = lineStartsFrom offset (cs.take n) := by
  induction cs generalizing offset n with
  | nil => simp [lineStartsFrom]
  | cons c rest ih =>
    cases n with
    | zero =>
      rw [List.take_zero, lineStartsFrom, List.takeWhile_eq_nil_iff]
      intro hpos
      have := lt_of_mem_lineStartsFrom (List.getElem_mem hpos)
      simpa using this
    | succ n =>
      have hshift : offset + (n + 1) = offset + 1 + n := by omega
      rw [List.take_succ_cons, hshift]
      by_cases hc : c = '\n'
      · rw [lineStartsFrom, if_pos hc, lineStartsFrom, if_pos hc,
          List.takeWhile_cons_of_pos (by simp), ih]
      · rw [lineStartsFrom, if_neg hc, lineStartsFrom, if_neg hc, ih]

lemma length_lineStarts (cs : List Char) : (lineStarts cs).length = (endOf cs).line + 1 := by
  induction cs using List.reverseRecOn with
  | nil => rfl
  | append_singleton cs c ih =>
    by_cases hc : c = '\n' <;> simp [lineStarts_append, lineStartsFrom, endOf_concat, hc, ih]

/-- The last line starts as many characters before the end as there are columns in it. -/
lemma getLastD_lineStarts (cs : List Char) :
    (lineStarts cs).getLastD 0 + (endOf cs).column = cs.length := by
  induction cs using List.reverseRecOn with
  | nil => rfl
  | append_singleton cs c ih =>
    by_cases hc : c = '\n'
    · simp [lineStarts_append, lineStartsFrom, endOf_concat, hc, List.getLastD_eq_getLast?]
    · simp [lineStarts_append, lineStartsFrom, endOf_concat, hc, ← ih, Nat.add_assoc]

/-- The position of an offset is that at the end of the text before it. -/
lemma offsetToPosition_eq (source : List Char) (o : ℤ) :
    offsetToPosition source o = endOf (source.take o.toNat) := by
  have hbefore : (lineStarts source).takeWhile (· ≤ clampOffset source.length o) =
      lineStarts (source.take o.toNat) := by
    have hrest := takeWhile_lineStartsFrom 0 (clampOffset source.length o) source
    rw [Nat.zero_add] at hrest
    rw [lineStarts, List.takeWhile_cons_of_pos (by simp), hrest, clampOffset,
      ← List.take_eq_take_min]
    rfl
  have hlength : clampOffset source.length o = (source.take o.toNat).length := by
    rw [clampOffset, List.length_take]
  have hcolumn := getLastD_lineStarts (source.take o.toNat)
  simp only [offsetToPosition]
  rw [hbefore, length_lineStarts, hlength, Nat.add_one_sub_one, ← hcolumn, Nat.add_sub_cancel_left]

/-! ## Lines -/

/-- A line of a text, with its number, what is before it and what is behind it. -/
structure IsLine (source : List Char) (n : ℕ) (before line after : List Char) : Prop where
  source_eq : source = before ++ line ++ after
  /-- The text before the line ends where a line starts. -/
  before_end : endOf before = ⟨n, 0⟩
  noFeed : '\n' ∉ line
  after_feed : after = [] ∨ ∃ rest, after = '\n' :: rest

namespace IsLine

variable {source before line after : List Char} {n : ℕ}

/-- The position of a character of a line. -/
lemma offsetToPosition_eq (h : IsLine source n before line after) {k : ℕ} (hk : k ≤ line.length) :
    offsetToPosition source ↑(before.length + k) = ⟨n, k⟩ := by
  have htake : source.take (before.length + k) = before ++ line.take k := by
    rw [h.source_eq, List.append_assoc, List.take_length_add_append,
      List.take_append_of_le_length hk]
  have hfree : '\n' ∉ line.take k := fun hmem => h.noFeed (List.mem_of_mem_take hmem)
  rw [KsyTools.offsetToPosition_eq, Int.toNat_natCast, htake, endOf_append_of_notMem hfree,
    h.before_end, List.length_take, Nat.min_eq_left hk, Nat.zero_add]

/-- The line starts where the text before it ends, and the next one, if there is one, a line feed
behind its end. -/
lemma getElem?_lineStarts (h : IsLine source n before line after) :
    (lineStarts source)[n]? = some before.length ∧
      (lineStarts source)[n + 1]? =
        (lineStartsFrom (before.length + line.length) after)[0]? := by
  have hlength : (lineStarts before).length = n + 1 := by rw [length_lineStarts, h.before_end]
  have hlast := getLastD_lineStarts before
  rw [h.before_end, Nat.add_zero, List.getLastD_eq_getLast?, List.getLast?_eq_getElem?, hlength,
    Nat.add_one_sub_one, List.getElem?_eq_getElem (by omega), Option.getD_some] at hlast
  rw [h.source_eq, List.append_assoc, lineStarts_append, lineStartsFrom_append,
    lineStartsFrom_of_notMem h.noFeed, List.nil_append]
  constructor
  · rw [List.getElem?_append_left (by omega), List.getElem?_eq_getElem (by omega), hlast]
  · rw [List.getElem?_append_right (by omega), hlength, Nat.sub_self]

/-- The offset of a position in a line. -/
lemma positionToOffset_eq (h : IsLine source n before line after) (character : ℤ) :
    positionToOffset source n character = before.length + min character.toNat line.length := by
  obtain ⟨hstart, hnext⟩ := h.getElem?_lineStarts
  have hsize : source.length = before.length + line.length + after.length := by
    rw [h.source_eq, List.length_append, List.length_append]
  rw [positionToOffset, if_neg (by omega), Int.toNat_natCast]
  simp only [hstart, hnext]
  rcases h.after_feed with rfl | ⟨rest, rfl⟩
  · simp only [lineStartsFrom, List.getElem?_nil, hsize, List.length_nil, Nat.add_zero]
    exact Nat.add_min_add_left ..
  · simp only [lineStartsFrom, if_true, List.getElem?_cons_zero, Nat.add_one_sub_one]
    exact Nat.add_min_add_left ..

/-- The position of an offset in a line leads back to it. -/
lemma round_trip (h : IsLine source n before line after) (character : ℤ) :
    offsetToPosition source (positionToOffset source n character) =
      ⟨n, min character.toNat line.length⟩ := by
  rw [h.positionToOffset_eq, h.offsetToPosition_eq (Nat.min_le_right _ _)]

end IsLine

/-- Every offset of a text is in a line. -/
lemma exists_isLine_of_le {source : List Char} {o : ℕ} (ho : o ≤ source.length) :
    ∃ n before line after k, IsLine source n before line after ∧ k ≤ line.length ∧
      o = before.length + k := by
  -- the line goes from the last line feed before the offset to the first one behind it
  set head := source.take o with hhead
  set before := head.rdropWhile (· != '\n') with hbefore
  set left := head.rtakeWhile (· != '\n') with hleft
  set right := (source.drop o).takeWhile (· != '\n') with hright
  set after := (source.drop o).dropWhile (· != '\n') with hafter
  have hsplit : before ++ left = head := List.rdropWhile_append_rtakeWhile ..
  have hsplit' : right ++ after = source.drop o := List.takeWhile_append_dropWhile
  refine ⟨(endOf before).line, before, left ++ right, after, left.length, ⟨?_, ?_, ?_, ?_⟩,
    by simp, ?_⟩
  · rw [← List.append_assoc, hsplit, List.append_assoc, hsplit', hhead, List.take_append_drop]
  · have hcolumn : before.rtakeWhile (· != '\n') = [] :=
      List.rtakeWhile_eq_nil_iff.mpr fun hne => List.rdropWhile_last_not _ _ hne
    rw [endOf, hcolumn]
    rfl
  · intro hmem
    rcases List.mem_append.mp hmem with hmem | hmem
    · simpa using List.mem_rtakeWhile_imp hmem
    · simpa using List.mem_takeWhile_imp hmem
  · cases hrest : after with
    | nil => exact .inl rfl
    | cons c rest =>
      have hc := List.head?_dropWhile_not (· != '\n') (source.drop o)
      rw [← hafter, hrest] at hc
      obtain rfl : c = '\n' := by simpa using hc
      exact .inr ⟨rest, rfl⟩
  · rw [← List.length_append, hsplit, hhead, List.length_take, Nat.min_eq_left ho]

/-- The lines of a text are what is between its line feeds. -/
lemma exists_isLine_of_getElem? {source line : List Char} {n : ℕ}
    (h : (source.splitOn '\n')[n]? = some line) :
    ∃ before after, IsLine source n before line after := by
  induction n generalizing source with
  | zero =>
    by_cases hfeed : '\n' ∈ source
    · obtain ⟨first, rest, rfl, hfirst⟩ := List.eq_append_cons_of_mem hfeed
      rw [List.splitOn_append_cons_self_of_not_mem hfirst] at h
      obtain rfl : first = line := by simpa using h
      exact ⟨[], '\n' :: rest, rfl, rfl, hfirst, .inr ⟨rest, rfl⟩⟩
    · rw [List.splitOn_eq_singleton hfeed] at h
      obtain rfl : source = line := by simpa using h
      exact ⟨[], [], by simp, rfl, hfeed, .inl rfl⟩
  | succ n ih =>
    by_cases hfeed : '\n' ∈ source
    · obtain ⟨first, rest, rfl, hfirst⟩ := List.eq_append_cons_of_mem hfeed
      rw [List.splitOn_append_cons_self_of_not_mem hfirst] at h
      obtain ⟨before, after, hline⟩ := ih (by simpa using h)
      refine ⟨first ++ '\n' :: before, after, ?_, ?_, hline.noFeed, hline.after_feed⟩
      · rw [hline.source_eq]
        simp
      · rw [endOf_append_cons, hline.before_end, ← List.nil_append first,
          endOf_append_of_notMem hfirst]
        simp [endOf, Nat.add_comm]
    · rw [List.splitOn_eq_singleton hfeed] at h
      simp at h

lemma length_splitOn (cs : List Char) : (cs.splitOn '\n').length = (lineStarts cs).length := by
  rw [length_lineStarts]
  induction cs with
  | nil => rfl
  | cons c rest ih =>
    rw [List.splitOn_cons_eq_if_modifyHead]
    by_cases hc : c = '\n'
    · simpa [hc, endOf] using ih
    · simpa [hc, endOf] using ih

/-- A line behind the last one stands for the end of the text. -/
lemma positionToOffset_of_length_le {source : List Char} {line : ℤ} (character : ℤ)
    (hline : 0 ≤ line) (h : (source.splitOn '\n')[line.toNat]? = none) :
    positionToOffset source line character = source.length := by
  rw [List.getElem?_eq_none_iff, length_splitOn] at h
  rw [positionToOffset, if_neg (by omega)]
  simp only [List.getElem?_eq_none h]

/-! ## Order -/

/-- Positions in the order of reading: by line, then by column. -/
def Position.order (p : Position) : ℕ ×ₗ ℕ :=
  toLex (p.line, p.column)

/-- Places in the order of reading. -/
def Place.order (p : Place) : ℤ ×ₗ ℤ :=
  toLex (p.line, p.character)

lemma Position.order_place_le {p q : Position} (h : p.order ≤ q.order) :
    p.place.order ≤ q.place.order := by
  rw [order, order, Prod.Lex.toLex_le_toLex] at h
  rw [Place.order, Place.order, Prod.Lex.toLex_le_toLex]
  simp only [place]
  omega

/-- A text ends before a longer one does. -/
lemma order_endOf_lt {cs more : List Char} (h : more ≠ []) :
    (endOf cs).order < (endOf (cs ++ more)).order := by
  rw [Position.order, Position.order, Prod.Lex.toLex_lt_toLex]
  by_cases hfeed : '\n' ∈ more
  · have hcount : 0 < more.count '\n' := List.count_pos_iff.mpr hfeed
    have hline := line_endOf_append cs more
    left
    omega
  · have hlength : 0 < more.length := List.length_pos_iff.mpr h
    rw [endOf_append_of_notMem hfeed]
    right
    exact ⟨rfl, Nat.lt_add_of_pos_right hlength⟩

lemma order_offsetToPosition_mono (source : List Char) {o o' : ℤ} (h : o ≤ o') :
    (offsetToPosition source o).order ≤ (offsetToPosition source o').order := by
  obtain ⟨more, hmore⟩ : source.take o.toNat <+: source.take o'.toNat :=
    List.take_prefix_take_left (Int.toNat_le_toNat h)
  rw [offsetToPosition_eq, offsetToPosition_eq, ← hmore]
  rcases List.eq_nil_or_concat more with rfl | ⟨_, _, rfl⟩
  · rw [List.append_nil]
  · exact (order_endOf_lt (by simp)).le

lemma order_offsetToPosition_lt {source : List Char} {o o' : ℤ} (ho : 0 ≤ o) (h : o < o')
    (ho' : o' ≤ source.length) :
    (offsetToPosition source o).order < (offsetToPosition source o').order := by
  obtain ⟨more, hmore⟩ : source.take o.toNat <+: source.take o'.toNat :=
    List.take_prefix_take_left (Int.toNat_le_toNat h.le)
  have hlength := congrArg List.length hmore
  simp only [List.length_append, List.length_take] at hlength
  rw [offsetToPosition_eq, offsetToPosition_eq, ← hmore]
  refine order_endOf_lt ?_
  rintro rfl
  simp only [List.length_nil] at hlength
  omega

/-- The position of an offset leads back to it, or to the nearer end of the text. -/
lemma positionToOffset_offsetToPosition (source : List Char) (o : ℤ) :
    positionToOffset source (offsetToPosition source o).line (offsetToPosition source o).column =
      clampOffset source.length o := by
  have hclamp : offsetToPosition source o =
      offsetToPosition source ↑(clampOffset source.length o) := by
    rw [offsetToPosition_eq, offsetToPosition_eq, Int.toNat_natCast, clampOffset,
      ← List.take_eq_take_min]
  obtain ⟨n, before, line, after, k, hline, hk, ho⟩ :=
    exists_isLine_of_le (Nat.min_le_right o.toNat source.length)
  rw [hclamp, clampOffset, ho, hline.offsetToPosition_eq hk, hline.positionToOffset_eq,
    Int.toNat_natCast, Nat.min_eq_left hk]

/-- Offsets and positions say the same of a text.

An offset is at the line that counts the line feeds before it and the column that counts the
characters behind the last of these, and its position leads back to it, or to the nearer end of the
text if it is outside.  The offset of a position is at that position, or at the nearest one that the
text has: at the start for a line before the first one, at the end for a line behind the last one,
and otherwise at the nearer end of the line.  Positions follow each other as offsets do, so no range
in an editor ends before it starts. -/
theorem Document.offsets_match_positions (d : Document) :
    (∀ o : ℤ, d.position o = ⟨(d.chars.take o.toNat).count '\n',
          ((d.chars.take o.toNat).rtakeWhile (· != '\n')).length⟩ ∧
        (d.offset (d.position o).line (d.position o).column : ℤ) =
          max 0 (min o d.chars.length)) ∧
      (∀ line character : ℤ, d.position (d.offset line character) =
        if line < 0 then ⟨0, 0⟩
        else
          match (d.chars.splitOn '\n')[line.toNat]? with
          | none => d.position d.chars.length
          | some text => ⟨line.toNat, min character.toNat text.length⟩) ∧
      (∀ o o' : ℤ, 0 ≤ o → o < o' → o' ≤ d.chars.length →
        (d.position o).order < (d.position o').order) ∧
      ∀ r : TextRange, r.start ≤ r.stop → (d.extent r).start.order ≤ (d.extent r).stop.order := by
  refine ⟨fun o => ⟨offsetToPosition_eq d.chars o, ?_⟩, fun line character => ?_,
    fun o o' => order_offsetToPosition_lt, fun r hr => ?_⟩
  · rw [offset, position, positionToOffset_offsetToPosition, clampOffset]
    omega
  · simp only [offset, position]
    split_ifs with hline
    · rw [positionToOffset, if_pos hline, offsetToPosition_eq]
      rfl
    · cases hlines : (d.chars.splitOn '\n')[line.toNat]? with
      | none => rw [positionToOffset_of_length_le character (by omega) hlines]
      | some text =>
        obtain ⟨before, after, htext⟩ := exists_isLine_of_getElem? hlines
        simpa [Int.toNat_of_nonneg (Int.not_lt.mp hline)] using htext.round_trip character
  · exact Position.order_place_le (order_offsetToPosition_mono d.chars hr)

/-- In a text with an empty line, the positions on both sides of its line feed are different. -/
theorem Document.offsets_match_positions_emptyLine :
    let d := Document.empty "a\n\nbc" none none
    (d.position 1).order < (d.position 2).order ∧
      d.extent ⟨-1, 9⟩ = ⟨⟨0, 0⟩, ⟨2, 2⟩⟩ ∧
      (d.extent ⟨-1, 9⟩).start.order ≤ (d.extent ⟨-1, 9⟩).stop.order := by
  intro d
  obtain ⟨-, -, hstrict, hextent⟩ := d.offsets_match_positions
  exact ⟨hstrict 1 2 (by decide) (by decide) (by decide), by decide, hextent ⟨-1, 9⟩ (by decide)⟩

end KsyTools
