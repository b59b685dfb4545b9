/-
# File URIs are read back

Every absolute path has a URI, and the URI leads back to the path in its normal form: the escapes
hide all characters that would end the path part of a URI, and two slashes at the start of a path
are not taken for a host, since the URI has its own two in front of them.  So paths with the same
URI are the same in normal form, and a URI that was written for a path is written again for the path
that it is read as.
-/
import KsyTools.Proofs.Path.Written
import KsyTools.Proofs.Text.Percent
import KsyTools.Server.FileUri

namespace KsyTools

open Text (Uri)

namespace Text.Uri

/-! ## The parts of a URI -/

section Plain

variable {cs : List Char}

/-- A character that is no plain one does not occur among plain ones. -/
lemma ne_of_isPlain {c d : Char} (h : Percent.isPlain c) (hd : Percent.isPlain d = false) :
    c ≠ d := by
  rintro rfl
  rw [hd] at h
  cases h

/-- What ends a path part does not occur in it. -/
lemma splitAtChar_of_plain (h : ∀ c ∈ cs, Percent.isPlain c) {sep : Char}
    (hsep : Percent.isPlain sep = false) : splitAtChar sep cs = (cs, []) := by
  have hfront : cs.takeWhile (· != sep) = cs := by
    rw [List.takeWhile_eq_self_iff]
    intro c hc
    simpa using ne_of_isPlain (h c hc) hsep
  simp [splitAtChar, hfront]

/-- The parts of the URI of a file. -/
lemma parse_file (h : ∀ c ∈ cs, Percent.isPlain c) (hslash : cs.head? = some '/') :
    parse (FileUri.scheme ++ String.ofList cs) = ⟨"file", [], cs, [], []⟩ := by
  obtain ⟨rest, rfl⟩ : ∃ rest, cs = '/' :: rest := by
    cases cs with
    | nil => cases hslash
    | cons c rest => exact ⟨rest, by rw [Option.some.inj hslash]⟩
  have htext : (FileUri.scheme ++ String.ofList ('/' :: rest)).toList =
      'f' :: 'i' :: 'l' :: 'e' :: ':' :: '/' :: '/' :: '/' :: rest := by
    rw [String.toList_append, String.toList_ofList]
    rfl
  -- nothing is left out: there are no blanks in front, and no tabs and line breaks anywhere
  have hkept : (rest.filter fun c => c != '\t' && c != '\r' && c != '\n') = rest := by
    rw [List.filter_eq_self]
    intro c hc
    have hplain := h c (List.mem_cons_of_mem _ hc)
    simp [ne_of_isPlain hplain (d := '\t') rfl, ne_of_isPlain hplain (d := '\r') rfl,
      ne_of_isPlain hplain (d := '\n') rfl]
  have hcleaned : ((FileUri.scheme ++ String.ofList ('/' :: rest)).toList.dropWhile
      fun c => c.toNat ≤ 32).filter (fun c => c != '\t' && c != '\r' && c != '\n') =
        'f' :: 'i' :: 'l' :: 'e' :: ':' :: '/' :: '/' :: '/' :: rest := by
    rw [htext]
    simp [hkept]
  have hscheme : splitScheme ('f' :: 'i' :: 'l' :: 'e' :: ':' :: '/' :: '/' :: '/' :: rest) =
      ("file", '/' :: '/' :: '/' :: rest) := by
    simp [splitScheme, isSchemeChar]
  have hhost : splitHost ('/' :: '/' :: '/' :: rest) = ([], '/' :: rest) := by
    simp [splitHost]
  have hfragment : splitAtChar '#' ('/' :: rest) = ('/' :: rest, []) := splitAtChar_of_plain h rfl
  have hquery : splitAtChar '?' ('/' :: rest) = ('/' :: rest, []) := splitAtChar_of_plain h rfl
  simp only [parse, hcleaned, hscheme, hhost, hfragment, hquery]

end Plain

end Text.Uri

namespace FileUri

/-! ## From paths to URIs and back -/

/-- A path that was read from a text with a slash at the start has one at the start of its own
text. -/
lemma head?_toString_ofString {p : String} (h : p.toList.head? = some '/') :
    (Path.ofString p).isAbsolute ∧ (Path.ofString p).toString.toList.head? = some '/' := by
  have hroot : (Path.ofString p).root ≠ .relative := by
    cases hp : p.toList with
    | nil => simp [hp] at h
    | cons c rest =>
      obtain rfl : c = '/' := by simpa [hp] using h
      simp only [Path.ofString, hp, Path.rootOf, List.takeWhile_cons, beq_self_eq_true, if_true,
        List.length_cons]
      split <;> simp_all
  refine ⟨by simpa [Path.isAbsolute] using hroot, ?_⟩
  rw [Path.toString, if_neg (fun hempty => hroot hempty.1), String.toList_append]
  cases hstart : (Path.ofString p).root with
  | relative => exact absurd hstart hroot
  | slash => rfl
  | doubleSlash => rfl

lemma isAbsolute_of_ofPath {p : Path} {uri : String} (h : ofPath p = .ok uri) : p.isAbsolute := by
  unfold ofPath at h
  split_ifs at h with habsolute
  exact habsolute

/-- The URI of an absolute path leads back to the text of the path. -/
lemma toPath_of_ofPath {p : Path} {uri : String} (h : ofPath p = .ok uri)
    (hslash : p.toString.toList.head? = some '/') : toPath uri = .ok p.toString := by
  have hplain : ∀ c ∈ Text.Percent.encode p.toString.toList, Text.Percent.isPlain c :=
    fun c => Text.Percent.isPlain_of_mem_encode
  have hhead : (Text.Percent.encode p.toString.toList).head? = some '/' := by
    cases hchars : p.toString.toList with
    | nil => simp [hchars] at hslash
    | cons c rest =>
      obtain rfl : c = '/' := by simpa [hchars] using hslash
      rw [Text.Percent.encode_cons_slash]
      rfl
  obtain rfl : scheme ++ String.ofList (Text.Percent.encode p.toString.toList) = uri := by
    rw [ofPath, if_pos (isAbsolute_of_ofPath h)] at h
    exact Except.ok.inj h
  have hfault : Host.fault? [] = none := by decide
  have hparameters : parameterSchemes.contains "file" = false := by decide
  simp only [toPath, parts, Text.Uri.parse_file hplain hhead, hfault, hparameters,
    Bool.false_eq_true, if_false, Text.Percent.decode_encode, pure_bind, String.ofList_toList]
  rfl

/-- Only texts with a slash at the start have a URI. -/
lemma head?_of_ofPath {p uri : String} (h : ofPath (Path.ofString p) = .ok uri) :
    p.toList.head? = some '/' := by
  have habsolute := isAbsolute_of_ofPath h
  cases hp : p.toList with
  | nil => simp [Path.isAbsolute, Path.ofString, hp, Path.rootOf] at habsolute
  | cons c rest =>
    by_cases hc : c = '/'
    · rw [hc]
      rfl
    · simp [Path.isAbsolute, Path.ofString, hp, Path.rootOf, hc] at habsolute

/-- The URI of a path leads back to it. -/
lemma toPath_of_written {p : Path} {uri : String} (written : p.Written) (h : ofPath p = .ok uri) :
    toPath uri = .ok p.toString := by
  have hread : ofPath (Path.ofString p.toString) = .ok uri := by
    rw [Path.ofString_toString written, h]
  exact toPath_of_ofPath h (head?_of_ofPath hread)

/-- Every text of an absolute path has a URI, which leads back to the text of the path in its normal
form.  Texts with the same URI are the same path, and what a URI leads back to has this URI. -/
theorem uris_lead_back :
    (∀ p : String, p.toList.head? = some '/' → ∃ uri, ofPath (Path.ofString p) = .ok uri ∧
      toPath uri = .ok (Path.ofString p).toString) ∧
    (∀ p q uri : String, ofPath (Path.ofString p) = .ok uri → ofPath (Path.ofString q) = .ok uri →
      Path.ofString p = Path.ofString q) ∧
    ∀ p uri : String, ofPath (Path.ofString p) = .ok uri →
      ∃ q, toPath uri = .ok q ∧ ofPath (Path.ofString q) = .ok uri := by
  have hback {p uri : String} (h : ofPath (Path.ofString p) = .ok uri) :
      toPath uri = .ok (Path.ofString p).toString :=
    toPath_of_ofPath h (head?_toString_ofString (head?_of_ofPath h)).2
  have hread (p : String) : Path.ofString (Path.ofString p).toString = Path.ofString p :=
    Path.ofString_toString (Path.written_ofString p)
  refine ⟨fun p hslash => ?_, fun p q uri hp hq => ?_, fun p uri h => ?_⟩
  · have huri : ∃ uri, ofPath (Path.ofString p) = .ok uri :=
      ⟨_, by rw [ofPath, if_pos (head?_toString_ofString hslash).1]⟩
    obtain ⟨uri, huri⟩ := huri
    exact ⟨uri, huri, hback huri⟩
  · -- a path is read back from its text, and both texts are what the URI leads back to
    have htext : (Path.ofString p).toString = (Path.ofString q).toString :=
      Except.ok.inj ((hback hp).symm.trans (hback hq))
    rw [← hread p, htext, hread q]
  · refine ⟨_, hback h, ?_⟩
    rw [hread p, h]

/-- Two slashes at the start, and characters that end parts of a URI. -/
theorem uris_lead_back_delimiters :
    "//a b/./%41?#;é".toList.head? = some '/' ∧ ∃ uri,
      ofPath (Path.ofString "//a b/./%41?#;é") = .ok uri ∧ toPath uri = .ok "//a b/%41?#;é" := by
  have hslash : "//a b/./%41?#;é".toList.head? = some '/' := by decide
  obtain ⟨uri, huri, hback⟩ := uris_lead_back.1 _ hslash
  exact ⟨hslash, uri, huri, by rw [hback]; decide⟩

end FileUri

end KsyTools
