/-
# The last component of a path

A text divides in front of its last component: what comes before is empty or ends in a slash.  What
is read from such a front and from what is written behind it makes up the path.  A last component
other than `..` is kept when dots are taken away.
-/
import KsyTools.Ksy.FileName
import KsyTools.Proofs.Path.Written
import KsyTools.Text.CharClass
import Mathlib.Data.List.DropRight

namespace KsyTools

namespace Path

/-! ## Fronts -/

/-- A text that a component can be written behind: it is empty or ends in a slash. -/
def IsFront (front : List Char) : Prop :=
  front = [] ∨ ∃ start, front = start ++ ['/']

/-- The text up to its last slash is a front. -/
lemma isFront_dropEndWhile (cs : List Char) : IsFront (Text.dropEndWhile (· != '/') cs) := by
  show IsFront (cs.rdropWhile (· != '/'))
  by_cases hempty : cs.rdropWhile (· != '/') = []
  · exact .inl hempty
  · have hlast : (cs.rdropWhile (· != '/')).getLast hempty = '/' := by
      simpa using List.rdropWhile_last_not (· != '/') cs hempty
    refine .inr ⟨(cs.rdropWhile (· != '/')).dropLast, ?_⟩
    conv_lhs => rw [← List.dropLast_append_getLast hempty, hlast]

/-- Every text is a front with something behind it that has no slashes. -/
lemma exists_front (cs : List Char) :
    ∃ front last, IsFront front ∧ '/' ∉ last ∧ cs = front ++ last := by
  refine ⟨_, cs.rtakeWhile (· != '/'), isFront_dropEndWhile cs, ?_,
    (List.rdropWhile_append_rtakeWhile ..).symm⟩
  intro hslash
  simpa using List.mem_rtakeWhile_imp hslash

lemma components_append_slash (cs cs' : List Char) :
    components (cs ++ '/' :: cs') = components cs ++ components cs' := by
  simp only [components, Text.splitOnChar_eq_splitOn, List.splitOn_append_cons_self,
    List.map_append, List.filter_append]

lemma components_append_of_isFront {front : List Char} (h : IsFront front) (cs : List Char) :
    components (front ++ cs) = components front ++ components cs := by
  have hnil : components [] = [] := by decide
  rcases h with rfl | ⟨start, rfl⟩
  · rw [hnil, List.nil_append, List.nil_append]
  · rw [components_append_slash, hnil, List.append_nil, List.append_assoc, List.singleton_append,
      components_append_slash]

/-- What is written behind a front has no part in where the path starts. -/
lemma rootOf_append_of_head {front cs : List Char} (h : cs.head? ≠ some '/') :
    rootOf (front ++ cs) = rootOf front := by
  have hcs : cs.takeWhile (· == '/') = [] := by
    cases cs with
    | nil => rfl
    | cons c rest =>
      have hc : c ≠ '/' := fun hc => h (by simp [hc])
      simp [hc]
  have htake : (front ++ cs).takeWhile (· == '/') = front.takeWhile (· == '/') := by
    rw [List.takeWhile_append, hcs, List.append_nil]
    split_ifs with hall
    · exact ((List.takeWhile_prefix _).eq_of_length hall).symm
    · rfl
  rw [rootOf, rootOf, htake]

lemma head?_of_isComponent {name : String} (h : IsComponent name) (cs : List Char) :
    (name.toList ++ cs).head? ≠ some '/' := by
  cases hname : name.toList with
  | nil => exact absurd (String.toList_eq_nil_iff.mp hname) h.ne_empty
  | cons c rest =>
    have hc : c ≠ '/' := fun hc => h.no_slash (by simp [hname, hc])
    simpa using hc

/-- A component behind a front is the last component of the path. -/
lemma ofString_append {front name : String} (hfront : IsFront front.toList)
    (hname : IsComponent name) :
    ofString (front ++ name) = (ofString front).child name := by
  have hhead : name.toList.head? ≠ some '/' := by simpa using head?_of_isComponent hname []
  rw [ofString, String.toList_append, rootOf_append_of_head hhead,
    components_append_of_isFront hfront, components_of_isComponent hname]
  rfl

/-- A slash behind the last component makes no difference. -/
lemma ofString_append_slash {front name : String} (hfront : IsFront front.toList)
    (hname : IsComponent name) :
    ofString (front ++ (name ++ "/")) = (ofString front).child name := by
  have hnil : components [] = [] := by decide
  have htext : (name ++ "/").toList = name.toList ++ '/' :: [] := by simp
  rw [ofString, String.toList_append, htext, rootOf_append_of_head (head?_of_isComponent hname _),
    components_append_of_isFront hfront, components_append_slash,
    components_of_isComponent hname, hnil]
  rfl

/-! ## Taking away dots -/

lemma dropDots_concat {name : String} (h : name ≠ "..") (kept way : List String) :
    dropDots kept (way ++ [name]) = dropDots kept way ++ [name] := by
  induction way generalizing kept with
  | nil => simp [dropDots, h]
  | cons first rest ih =>
    simp only [List.cons_append, dropDots]
    split_ifs with hdots
    · exact ih kept.tail
    · exact ih (first :: kept)

lemma join_child (p q : Path) (name : String) : p.join (q.child name) = (p.join q).child name := by
  unfold join
  by_cases hq : q.isAbsolute
  · rw [if_pos hq, if_pos (show (q.child name).isAbsolute from hq)]
  · rw [if_neg hq, if_neg (show ¬(q.child name).isAbsolute from hq)]
    simp [child]

lemma absolute_child {name : String} (h : name ≠ "..") (cwd p : Path) :
    absolute cwd (p.child name) = (absolute cwd p).child name := by
  unfold absolute
  rw [join_child]
  exact congrArg (Path.mk _) (dropDots_concat h [] (cwd.join p).parts)

/-- A path with a last component is the rest of it with this component. -/
lemma parent_child {p : Path} (h : p.parts ≠ []) : p.parent.child p.name = p := by
  have hname : p.name = p.parts.getLast h := by
    rw [Path.name, List.getLastD_eq_getLast?, List.getLast?_eq_some_getLast h, Option.getD_some]
  rw [hname, child, parent, List.dropLast_append_getLast]

/-- The text of a path from the root directory is not longer than that of a path further on. -/
lemma utf8ByteSize_toString_le_child {p : Path} (h : p.isAbsolute) (name : String) :
    p.toString.utf8ByteSize ≤ (p.child name).toString.utf8ByteSize := by
  have hroot : p.root ≠ .relative := by simpa [isAbsolute] using h
  rw [toString, if_neg fun hr => hroot hr.1, toString, if_neg fun hr => hroot hr.1, child,
    String.utf8ByteSize_append, String.utf8ByteSize_append]
  refine Nat.add_le_add_left ?_ _
  by_cases hparts : p.parts = []
  · simp [hparts]
  · rw [String.intercalate_append_of_ne_nil hparts (by simp), String.utf8ByteSize_append,
      String.utf8ByteSize_append]
    omega

lemma Written.child {p : Path} (hp : p.Written) {name : String} (hname : IsComponent name) :
    (p.child name).Written := by
  intro part hpart
  rcases List.mem_append.mp hpart with hpart | hpart
  · exact hp part hpart
  · rwa [List.mem_singleton.mp hpart]

lemma toString_inj {p q : Path} (hp : p.Written) (hq : q.Written) :
    p.toString = q.toString ↔ p = q := by
  refine ⟨fun h => ?_, fun h => h ▸ rfl⟩
  rw [← ofString_toString hp, h, ofString_toString hq]

lemma name_child (p : Path) (name : String) : (p.child name).name = name := by
  simp [Path.name, child]

end Path

/-! ## The names of format descriptions -/

namespace Ksy

open KsyTools.Path (IsComponent IsFront)

lemma isFileName_iff {name : String} : isFileName name ↔ extension.toList <:+ name.toList := by
  simp [isFileName, Text.hasEnding]

/-- The name of a format description is a component if it has no slashes. -/
lemma isComponent_of_isFileName {name : String} (h : isFileName name) (hslash : '/' ∉ name.toList) :
    IsComponent name ∧ name ≠ ".." := by
  have hlength := (isFileName_iff.mp h).length_le
  refine ⟨⟨?_, ?_, hslash⟩, ?_⟩
  · rintro rfl
    exact absurd hlength (by decide)
  · rintro rfl
    exact absurd hlength (by decide)
  · rintro rfl
    exact absurd hlength (by decide)

/-- The ending of a text is that of its last component. -/
lemma isFileName_append {front name : String} (hfront : IsFront front.toList)
    (h : isFileName (front ++ name)) : isFileName name := by
  rw [isFileName_iff, String.toList_append] at h
  rw [isFileName_iff]
  rcases hfront with hempty | ⟨start, hstart⟩
  · rwa [hempty, List.nil_append] at h
  · -- the ending has no slash, so it does not reach into the front
    have hslash : '/' :: name.toList <:+ front.toList ++ name.toList := ⟨start, by simp [hstart]⟩
    rcases List.suffix_or_suffix_of_suffix h hslash with hsuffix | hsuffix
    · rcases List.suffix_cons_iff.mp hsuffix with heq | hsuffix
      · exact absurd heq (by simp [extension])
      · exact hsuffix
    · have hmem := hsuffix.subset List.mem_cons_self
      exact absurd hmem (by decide)

/-- The last component of the path of a format description. -/
lemma exists_child_of_isFileName {text : String} (h : isFileName text) :
    ∃ (p : Path) (name : String), Path.ofString text = p.child name ∧ IsComponent name ∧
      name ≠ ".." ∧ isFileName name := by
  obtain ⟨front, last, hfront, hslash, htext⟩ := Path.exists_front text.toList
  have heq : text = String.ofList front ++ String.ofList last := by
    rw [← String.ofList_append, ← htext, String.ofList_toList]
  have hfront' : IsFront (String.ofList front).toList := by rwa [String.toList_ofList]
  rw [heq] at h ⊢
  have hname := isFileName_append hfront' h
  obtain ⟨hcomponent, hdots⟩ := isComponent_of_isFileName hname (by rwa [String.toList_ofList])
  exact ⟨_, _, Path.ofString_append hfront' hcomponent, hcomponent, hdots, hname⟩

end Ksy

end KsyTools
