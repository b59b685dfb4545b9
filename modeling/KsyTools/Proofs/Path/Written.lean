/-
# Paths and their texts

A path that was read from a text has components that are not empty, are not `.`, and have no slash
in them.  Such paths are read back from their own texts, and taking away `..` leaves such paths.
-/
import KsyTools.Path.Basic
import KsyTools.Path.Drive
import Mathlib.Tactic.Common

namespace KsyTools

namespace Text

/-- The parts between occurrences of a character, as the library has them. -/
lemma splitOnChar_eq_splitOn (sep : Char) (cs : List Char) :
    splitOnChar sep cs = cs.splitOn sep := by
  induction cs with
  | nil => rfl
  | cons c rest ih =>
    rw [splitOnChar, ih, List.splitOn_cons_eq_if_modifyHead]
    by_cases hc : c = sep
    · simp [hc]
    · cases hparts : rest.splitOn sep with
      | nil => exact absurd hparts (List.splitOn_ne_nil sep rest)
      | cons part others => simp [hc]

/-- The parts have the characters of the text, without the one that they are cut at. -/
lemma mem_of_mem_splitOnChar {sep c : Char} {cs part : List Char} (h : part ∈ splitOnChar sep cs)
    (hc : c ∈ part) : c ∈ cs ∧ c ≠ sep := by
  induction cs generalizing part with
  | nil =>
    obtain rfl : part = [] := by simpa [splitOnChar] using h
    simp at hc
  | cons d rest ih =>
    simp only [splitOnChar] at h
    split_ifs at h with hd
    · rcases List.mem_cons.mp h with rfl | h
      · simp at hc
      · exact ⟨List.mem_cons_of_mem _ (ih h hc).1, (ih h hc).2⟩
    · cases hparts : splitOnChar sep rest with
      | nil =>
        obtain rfl : part = [d] := by simpa [hparts] using h
        obtain rfl : c = d := by simpa using hc
        exact ⟨List.mem_cons_self, hd⟩
      | cons first others =>
        rw [hparts] at h ih
        rcases List.mem_cons.mp h with rfl | h
        · rcases List.mem_cons.mp hc with rfl | hc
          · exact ⟨List.mem_cons_self, hd⟩
          · exact ⟨List.mem_cons_of_mem _ (ih List.mem_cons_self hc).1,
              (ih List.mem_cons_self hc).2⟩
        · have hmem : part ∈ first :: others := List.mem_cons_of_mem _ h
          exact ⟨List.mem_cons_of_mem _ (ih hmem hc).1, (ih hmem hc).2⟩

/-- The characters of texts with a separator between them. -/
lemma mem_intercalate {sep : String} {parts : List String} {c : Char}
    (h : c ∈ (sep.intercalate parts).toList) :
    c ∈ sep.toList ∨ ∃ part ∈ parts, c ∈ part.toList := by
  induction parts with
  | nil => simp at h
  | cons part rest ih =>
    cases rest with
    | nil => exact .inr ⟨part, List.mem_cons_self, by simpa using h⟩
    | cons next rest =>
      rw [String.intercalate_cons_cons, String.toList_append, String.toList_append] at h
      rcases List.mem_append.mp h with h | h
      · rcases List.mem_append.mp h with h | h
        · exact .inr ⟨part, List.mem_cons_self, h⟩
        · exact .inl h
      · rcases ih h with h | ⟨other, hother, h⟩
        · exact .inl h
        · exact .inr ⟨other, List.mem_cons_of_mem _ hother, h⟩

end Text

namespace Path

/-! ## Components -/

/-- A text that can be a component of a path. -/
structure IsComponent (part : String) : Prop where
  ne_empty : part ≠ ""
  ne_dot : part ≠ "."
  no_slash : '/' ∉ part.toList

/-- A path all of whose components can be written. -/
def Written (p : Path) : Prop :=
  ∀ part ∈ p.parts, IsComponent part

lemma isComponent_of_mem_components {cs : List Char} {part : String} (h : part ∈ components cs) :
    IsComponent part := by
  simp only [components, List.mem_filter, List.mem_map, Bool.and_eq_true, bne_iff_ne] at h
  obtain ⟨⟨chars, hchars, rfl⟩, hempty, hdot⟩ := h
  refine ⟨hempty, hdot, fun hslash => ?_⟩
  rw [String.toList_ofList] at hslash
  exact (Text.mem_of_mem_splitOnChar hchars hslash).2 rfl

lemma written_ofString (s : String) : (ofString s).Written :=
  fun _ h => isComponent_of_mem_components h

lemma components_cons_slash (cs : List Char) : components ('/' :: cs) = components cs := by
  simp [components, Text.splitOnChar]

/-- A text without slashes is a single component. -/
lemma components_of_isComponent {part : String} (h : IsComponent part) :
    components part.toList = [part] := by
  rw [components, Text.splitOnChar_eq_splitOn, List.splitOn_eq_singleton h.no_slash]
  simp [h.ne_empty, h.ne_dot]

/-- Components that are written with slashes between them are read back. -/
lemma components_intercalate {parts : List String} (h : ∀ part ∈ parts, IsComponent part) :
    components ("/".intercalate parts).toList = parts := by
  -- an empty text has one part, not none, so it is read for itself
  by_cases hparts : parts = []
  · subst hparts
    decide
  · have hslash : ∀ chars ∈ parts.map String.toList, '/' ∉ chars := by
      intro chars hchars
      obtain ⟨part, hpart, rfl⟩ := List.mem_map.mp hchars
      exact (h part hpart).no_slash
    have htext : ("/".intercalate parts).toList = ['/'].intercalate (parts.map String.toList) := by
      rw [String.toList_intercalate]
      rfl
    rw [components, Text.splitOnChar_eq_splitOn, htext,
      List.splitOn_intercalate '/' hslash (by simpa using hparts), List.map_map]
    have hid : parts.map (String.ofList ∘ String.toList) = parts := by simp [Function.comp_def]
    rw [hid, List.filter_eq_self]
    intro part hpart
    simp [(h part hpart).ne_empty, (h part hpart).ne_dot]

lemma head?_intercalate_ne_slash {parts : List String} (h : ∀ part ∈ parts, IsComponent part) :
    ("/".intercalate parts).toList.head? ≠ some '/' := by
  cases parts with
  | nil => decide
  | cons part rest =>
    have hpart := h part List.mem_cons_self
    obtain ⟨c, cs, hcs⟩ : ∃ c cs, part.toList = c :: cs := by
      cases hcs : part.toList with
      | nil => exact absurd (String.toList_eq_nil_iff.mp hcs) hpart.ne_empty
      | cons c cs => exact ⟨c, cs, rfl⟩
    have hc : c ≠ '/' := fun hc => hpart.no_slash (by simp [hcs, hc])
    cases rest <;> simp [hcs, hc]

/-- The start of a path is read back. -/
lemma rootOf_append (root : PathRoot) {cs : List Char} (h : cs.head? ≠ some '/') :
    rootOf (root.text.toList ++ cs) = root := by
  have hcs : cs.takeWhile (· == '/') = [] := by
    cases cs with
    | nil => rfl
    | cons c rest =>
      have hc : c ≠ '/' := fun hc => h (by simp [hc])
      simp [hc]
  cases root <;> simp [rootOf, PathRoot.text, hcs]

/-- A text that can be a component is a path of its own. -/
lemma ofString_of_isComponent {part : String} (h : IsComponent part) :
    ofString part = ⟨.relative, [part]⟩ := by
  have hroot : rootOf part.toList = .relative :=
    rootOf_append .relative fun hhead => h.no_slash (List.mem_of_head? hhead)
  rw [ofString, hroot, components_of_isComponent h]

/-- Written paths are read back from their texts. -/
lemma ofString_toString {p : Path} (h : p.Written) : ofString p.toString = p := by
  obtain ⟨root, parts⟩ := p
  -- the path without start and components is written as a dot
  by_cases hempty : root = .relative ∧ parts = []
  · obtain ⟨rfl, rfl⟩ := hempty
    decide
  · have hroot := rootOf_append root (head?_intercalate_ne_slash h)
    have hparts : components (root.text.toList ++ ("/".intercalate parts).toList) = parts := by
      have hread : components ("/".intercalate parts).toList = parts := components_intercalate h
      cases root with
      | relative => simpa [PathRoot.text] using hread
      | slash => simpa [PathRoot.text, components_cons_slash] using hread
      | doubleSlash => simpa [PathRoot.text, components_cons_slash] using hread
    simp only [ofString, toString, if_neg hempty, String.toList_append]
    rw [hroot, hparts]

/-! ## Taking away `..` -/

lemma dropDots_of_notMem {kept way : List String} (h : ".." ∉ way) :
    dropDots kept way = kept.reverse ++ way := by
  induction way generalizing kept with
  | nil => simp [dropDots]
  | cons name rest ih =>
    have hname : name ≠ ".." := fun hn => h (by simp [hn])
    have hrest : ".." ∉ rest := fun hr => h (List.mem_cons_of_mem _ hr)
    simp [dropDots, hname, ih hrest]

lemma mem_dropDots {kept way : List String} {part : String} (h : part ∈ dropDots kept way) :
    part ∈ kept ∨ part ∈ way := by
  induction way generalizing kept with
  | nil => exact .inl (by simpa [dropDots] using h)
  | cons name rest ih =>
    simp only [dropDots] at h
    split_ifs at h with hname
    · rcases ih h with h | h
      · exact .inl (List.mem_of_mem_tail h)
      · exact .inr (List.mem_cons_of_mem _ h)
    · rcases ih h with h | h
      · rcases List.mem_cons.mp h with rfl | h
        · exact .inr List.mem_cons_self
        · exact .inl h
      · exact .inr (List.mem_cons_of_mem _ h)

lemma dots_notMem_dropDots {kept way : List String} (h : ".." ∉ kept) :
    ".." ∉ dropDots kept way := by
  induction way generalizing kept with
  | nil => simpa [dropDots] using h
  | cons name rest ih =>
    simp only [dropDots]
    split_ifs with hname
    · exact ih fun hmem => h (List.mem_of_mem_tail hmem)
    · refine ih fun hmem => ?_
      rcases List.mem_cons.mp hmem with heq | hmem
      · exact hname heq.symm
      · exact h hmem

/-! ## Written paths stay written -/

lemma Written.parent {p : Path} (h : p.Written) : p.parent.Written :=
  fun _ hpart => h _ ((List.dropLast_sublist p.parts).subset hpart)

lemma Written.join {p q : Path} (hp : p.Written) (hq : q.Written) : (p.join q).Written := by
  unfold Path.join
  split_ifs with habs
  · exact hq
  · intro part hpart
    rcases List.mem_append.mp hpart with hpart | hpart
    · exact hp part hpart
    · exact hq part hpart

lemma Written.absolute {cwd p : Path} (hcwd : cwd.Written) (hp : p.Written) :
    (Path.absolute cwd p).Written := by
  intro part hpart
  rcases mem_dropDots hpart with hpart | hpart
  · simp at hpart
  · exact hcwd.join hp part hpart

end Path

/-! ## Paths with drives -/

namespace DrivePath

section Characters

variable {P : Char → Prop} {cs : List Char}

lemma forall_splitVerbatim (hsep : P '\\') (hcs : ∀ c ∈ cs, P c) :
    (∀ c ∈ (splitVerbatim cs).1, P c) ∧ ∀ c ∈ (splitVerbatim cs).2, P c := by
  unfold splitVerbatim
  simp only
  split
  · split
    · refine ⟨fun c hc => hcs c (List.mem_of_mem_take hc), fun c hc => ?_⟩
      rcases List.mem_cons.mp hc with rfl | hc
      · exact hsep
      · exact hcs c (List.mem_of_mem_drop (List.mem_of_mem_drop hc))
    · exact ⟨fun c hc => hcs c (List.mem_of_mem_take hc),
        fun c hc => hcs c (List.mem_of_mem_drop hc)⟩
  · exact ⟨by simp, hcs⟩

lemma forall_splitShare? {share rest : List Char} (hsep : P '\\') (hcs : ∀ c ∈ cs, P c)
    (h : splitShare? cs = some (share, rest)) : (∀ c ∈ share, P c) ∧ ∀ c ∈ rest, P c := by
  unfold splitShare? at h
  split at h
  · next rest' =>
    split_ifs at h
    simp only at h
    split at h
    · simp at h
    · next d behind hbehind =>
      split_ifs at h
      simp only [Option.some.injEq, Prod.mk.injEq] at h
      obtain ⟨rfl, rfl⟩ := h
      have hrest' : ∀ c ∈ rest', P c := fun c hc => hcs c (by simp [hc])
      have hbehind' : ∀ c ∈ behind, P c := by
        intro c hc
        have hmem : c ∈ rest'.dropWhile (· != separator) := by simp [hbehind, hc]
        exact hrest' c ((List.dropWhile_sublist _).subset hmem)
      refine ⟨fun c hc => ?_, fun c hc => hbehind' c (List.mem_of_mem_drop hc)⟩
      simp only [List.cons_append, List.mem_cons, List.mem_append] at hc
      rcases hc with rfl | rfl | hc | rfl | hc
      · exact hsep
      · exact hsep
      · exact hrest' c ((List.takeWhile_sublist _).subset hc)
      · exact hsep
      · exact hbehind' c ((List.takeWhile_sublist _).subset hc)
  · simp at h

lemma forall_splitDrive (hcs : ∀ c ∈ cs, P c) :
    (∀ c ∈ (splitDrive cs).1, P c) ∧ ∀ c ∈ (splitDrive cs).2, P c := by
  unfold splitDrive
  split
  · next letter rest =>
    split
    · refine ⟨fun c hc => hcs c ?_, fun c hc => hcs c (by simp [hc])⟩
      rcases List.mem_cons.mp hc with rfl | hc
      · exact List.mem_cons_self
      · exact List.mem_cons_of_mem _ (by simpa using .inl (List.mem_singleton.mp hc))
    · exact ⟨by simp, hcs⟩
  · exact ⟨by simp, hcs⟩

/-- A path with a drive is divided without adding other characters than separators. -/
lemma forall_splitRoot (hsep : P '\\') (hcs : ∀ c ∈ cs, P c) :
    (∀ c ∈ (splitRoot cs).1, P c) ∧ (∀ c ∈ (splitRoot cs).2.1, P c) ∧
      ∀ c ∈ (splitRoot cs).2.2, P c := by
  obtain ⟨hmark, hbody⟩ := forall_splitVerbatim hsep hcs
  obtain ⟨hdrive, hbehind⟩ := forall_splitDrive hbody
  unfold splitRoot
  simp only
  split
  · next share rest hshare =>
    obtain ⟨hs, hr⟩ := forall_splitShare? hsep hbody hshare
    refine ⟨fun c hc => ?_, by simpa using hsep, hr⟩
    split at hc
    · exact hs c hc
    · rcases List.mem_append.mp hc with hc | hc
      · exact hmark c hc
      · exact hs c (List.mem_of_mem_drop hc)
  · have hmarked : ∀ c ∈ (splitVerbatim cs).1 ++ (splitDrive (splitVerbatim cs).2).1, P c := by
      intro c hc
      rcases List.mem_append.mp hc with hc | hc
      · exact hmark c hc
      · exact hdrive c hc
    split
    · exact ⟨hmarked, by simpa using hsep,
        fun c hc => hbehind c ((List.dropWhile_sublist _).subset hc)⟩
    · exact ⟨hmarked, by simp, hbehind⟩

end Characters

lemma splitRoot_root (cs : List Char) : (splitRoot cs).2.1 = ['\\'] ∨ (splitRoot cs).2.1 = [] := by
  unfold splitRoot
  simp only
  split
  · exact .inl rfl
  · split
    · exact .inl rfl
    · exact .inr rfl

/-- The text of a path with a drive has the characters that it was read from, with other
separators. -/
lemma mem_toString_ofString {s : String} {c : Char} (h : c ∈ (ofString s).toString.toList) :
    c = '\\' ∨ (c ∈ s.toList ∧ c ≠ '/') := by
  let P : Char → Prop := fun c => c = '\\' ∨ (c ∈ s.toList ∧ c ≠ '/')
  -- slashes become separators before the text is divided
  have hchars : ∀ c ∈ s.toList.map (fun c => if c = '/' then separator else c), P c := by
    intro c hc
    obtain ⟨d, hd, rfl⟩ := List.mem_map.mp hc
    split_ifs with hslash
    · exact .inl rfl
    · exact .inr ⟨hd, hslash⟩
  obtain ⟨hdrive, hroot, hrest⟩ := forall_splitRoot (P := P) (.inl rfl) hchars
  have hpart : ∀ part ∈ (ofString s).parts, ∀ c ∈ part.toList, P c := by
    intro part hpart c hc
    simp only [ofString, List.mem_filter, List.mem_map] at hpart
    obtain ⟨⟨chars, hchars, rfl⟩, -⟩ := hpart
    rw [String.toList_ofList] at hc
    exact hrest c (Text.mem_of_mem_splitOnChar hchars hc).1
  rw [toString, String.toList_append, String.toList_append] at h
  rcases List.mem_append.mp h with h | h
  · rcases List.mem_append.mp h with h | h
    · exact hdrive c (by simpa [ofString] using h)
    · exact hroot c (by simpa [ofString] using h)
  · rcases Text.mem_intercalate h with h | ⟨part, hmem, h⟩
    · exact .inl (by simpa using h)
    · exact hpart part hmem c h

/-- The text of an absolute path with a drive is a single component. -/
lemma isComponent_toString {s : String} (h : (ofString s).isAbsolute) :
    Path.IsComponent (ofString s).toString ∧ (ofString s).toString ≠ ".." := by
  -- an absolute path has a separator behind its drive
  have hsep : '\\' ∈ (ofString s).toString.toList := by
    have hroot : (ofString s).root ≠ "" := by
      simp only [isAbsolute, Bool.and_eq_true, bne_iff_ne] at h
      exact h.1
    have hroot' : (ofString s).root = "\\" := by
      rcases splitRoot_root (s.toList.map fun c => if c = '/' then separator else c) with hr | hr
      · simp [ofString, hr]
      · simp [ofString, hr] at hroot
    simp [toString, hroot']
  refine ⟨⟨fun he => ?_, fun he => ?_, fun hslash => ?_⟩, fun he => ?_⟩
  · simp [he] at hsep
  · simp [he] at hsep
  · rcases mem_toString_ofString hslash with hc | ⟨-, hc⟩
    · simp at hc
    · exact hc rfl
  · simp [he] at hsep

end DrivePath

end KsyTools
