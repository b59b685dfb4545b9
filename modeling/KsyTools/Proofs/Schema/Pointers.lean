/-
# Pointers are read back

A pointer is read by cutting it at its slashes.  Each part stands for a step, in which `~1` is
replaced by a slash and after that `~0` by a tilde.  Writing a step makes the opposite replacements
in the opposite order.  Then each tilde has a digit behind it, so both are undone, and there is no
slash left where a pointer could be cut.  So every path is read back from its pointer, and paths
with the same pointer have the same texts as steps.  Inside one value such paths are the same: a
part of it has either keys or indices.
-/
import KsyTools.Ksy.Validation
import KsyTools.Proofs.Schema.FindingPaths

namespace KsyTools

namespace Text

/-! ## Replacing -/

/-- The text with `new` in place of `old`, which is not empty.  Occurrences of `old` are looked for
from the start, each behind the one before. -/
def replaceAll (old new : List Char) : List Char → List Char
  | [] => []
  | c :: rest =>
    if old.isPrefixOf (c :: rest) then new ++ replaceAll old new (rest.drop (old.length - 1))
    else c :: replaceAll old new rest
termination_by cs => cs.length

section Replace

variable {old new cs rest : List Char} {c d mark digit other : Char}

@[simp] lemma replaceAll_nil : replaceAll old new [] = [] := by
  rw [replaceAll]

lemma replaceAll_append (h : old ≠ []) :
    replaceAll old new (old ++ rest) = new ++ replaceAll old new rest := by
  cases old with
  | nil => exact absurd rfl h
  | cons c others =>
    rw [List.cons_append, replaceAll, if_pos (by simp)]
    simp

lemma replaceAll_cons_of_not_prefix (h : ¬old <+: c :: rest) :
    replaceAll old new (c :: rest) = c :: replaceAll old new rest := by
  rw [replaceAll, if_neg (by simpa using h)]

@[simp] lemma replaceAll_cons_self :
    replaceAll [c] new (c :: rest) = new ++ replaceAll [c] new rest :=
  replaceAll_append (List.cons_ne_nil c [])

lemma replaceAll_cons_of_ne (h : d ≠ c) :
    replaceAll [c] new (d :: rest) = d :: replaceAll [c] new rest :=
  replaceAll_cons_of_not_prefix (by simpa using h.symm)

/-- Where every mark was given a digit, none has another character behind it. -/
lemma not_infix_replaceAll (hdigit : mark ≠ digit) (hother : other ≠ digit) (cs : List Char) :
    ¬[mark, other] <:+: replaceAll [mark] [mark, digit] cs := by
  induction cs with
  | nil => simp
  | cons c rest ih =>
    by_cases hc : c = mark
    · subst hc
      simp [List.infix_cons_iff, hdigit, hother, ih]
    · simp [replaceAll_cons_of_ne hc, List.infix_cons_iff, Ne.symm hc, ih]

/-- A character that was left alone makes no mark with a digit together with what is behind it: a
character that was replaced begins with a mark now, and all others stood there before. -/
lemma not_prefix_replaceAll (hdigit : mark ≠ digit) (hd : d ≠ c)
    (free : c = mark ∨ ¬[mark, digit] <:+: d :: rest) :
    ¬[mark, digit] <+: d :: replaceAll [c] [mark, digit] rest := by
  rw [List.cons_prefix_cons]
  rintro ⟨rfl, behind⟩
  have free := free.resolve_left hd.symm
  cases rest with
  | nil => simp at behind
  | cons e rest =>
    by_cases he : e = c
    · subst he
      simp [hdigit.symm] at behind
    · rw [replaceAll_cons_of_ne he, List.cons_prefix_cons] at behind
      rw [behind.1] at free
      exact free (List.prefix_append [mark, e] rest).isInfix

/-- Characters that were replaced by a mark with a digit are put back, unless these occurred
together before.  That is no condition on the mark itself, which has a digit behind it now. -/
lemma replaceAll_replaceAll (hdigit : mark ≠ digit) (free : c = mark ∨ ¬[mark, digit] <:+: cs) :
    replaceAll [mark, digit] [c] (replaceAll [c] [mark, digit] cs) = cs := by
  induction cs with
  | nil => simp
  | cons d rest ih =>
    have ih := ih (free.imp_right fun h inside => h (List.infix_cons inside))
    by_cases hd : d = c
    · subst hd
      rw [replaceAll_cons_self, replaceAll_append (List.cons_ne_nil _ _), ih, List.singleton_append]
    · rw [replaceAll_cons_of_ne hd,
        replaceAll_cons_of_not_prefix (not_prefix_replaceAll hdigit hd free), ih]

end Replace

end Text

namespace Pointer

open Text (replaceAll)

/-! ## Steps -/

/-- The step that a part of a pointer stands for. -/
def unescape (part : List Char) : List Char :=
  replaceAll ['~', '0'] ['~'] (replaceAll ['~', '1'] ['/'] part)

/-- The escape of a step replaces first tildes and then slashes. -/
lemma escape_eq_replaceAll (token : List Char) :
    escape token = replaceAll ['/'] ['~', '1'] (replaceAll ['~'] ['~', '0'] token) := by
  induction token with
  | nil => simp [escape]
  | cons c rest ih =>
    rw [escape, List.flatMap_cons, ← escape, ih]
    by_cases htilde : c = '~'
    · subst htilde
      simp [escapeChar, Text.replaceAll_cons_of_ne]
    · by_cases hslash : c = '/'
      · subst hslash
        simp [escapeChar, Text.replaceAll_cons_of_ne htilde]
      · simp [escapeChar, htilde, hslash, Text.replaceAll_cons_of_ne]

/-- A step is read back from its escape.  The replacement by slashes is safe as the first one: where
all tildes are escaped there is no other `~1`. -/
lemma unescape_escape (token : List Char) : unescape (escape token) = token := by
  have free : ¬['~', '1'] <:+: replaceAll ['~'] ['~', '0'] token :=
    Text.not_infix_replaceAll (by decide) (by decide) token
  calc unescape (escape token)
      = replaceAll ['~', '0'] ['~'] (replaceAll ['~'] ['~', '0'] token) := by
        rw [unescape, escape_eq_replaceAll, Text.replaceAll_replaceAll (by decide) (.inr free)]
    _ = token := Text.replaceAll_replaceAll (by decide) (.inl rfl)

/-- The escaped tilde in front of a digit does not become part of the escape of a slash. -/
example : unescape ['~', '0', '1'] = ['~', '1'] := by
  cbv

lemma slash_not_mem_escape (token : List Char) : '/' ∉ escape token := by
  intro h
  obtain ⟨c, -, hc⟩ := List.mem_flatMap.1 h
  unfold escapeChar at hc
  split_ifs at hc with htilde hslash
  · simp at hc
  · simp at hc
  · exact hslash (List.mem_singleton.1 hc).symm

/-! ## Paths -/

/-- The steps that a pointer is read as; a text that does not start with a slash is none, unless it
is empty. -/
def read? (pointer : String) : Option (List String) :=
  match pointer.toList with
  | [] => some []
  | '/' :: rest => some ((rest.splitOn '/').map fun part => String.ofList (unescape part))
  | _ => none

lemma read?_ofList_slash (rest : List Char) :
    read? (String.ofList ('/' :: rest)) =
      some ((rest.splitOn '/').map fun part => String.ofList (unescape part)) := by
  rw [read?, String.toList_ofList]
  rfl

/-- Behind the slash at the start of a pointer, its steps stand between slashes. -/
lemma render_eq_intercalate {tokens : List String} (h : tokens ≠ []) :
    render tokens = String.ofList
      ('/' :: ['/'].intercalate (tokens.map fun token => escape token.toList)) := by
  rw [render]
  congr 1
  induction tokens with
  | nil => exact absurd rfl h
  | cons first rest ih =>
    cases rest with
    | nil => simp
    | cons second rest =>
      rw [List.flatMap_cons, ih (List.cons_ne_nil _ _)]
      simp [List.intercalate_cons_cons]

/-- A path is read back from its pointer. -/
lemma read?_render (tokens : List String) : read? (render tokens) = some tokens := by
  by_cases h : tokens = []
  · subst h
    rfl
  · have hslash : ∀ part ∈ tokens.map fun token => escape token.toList, '/' ∉ part := by
      intro part hpart
      obtain ⟨token, -, rfl⟩ := List.mem_map.1 hpart
      exact slash_not_mem_escape token.toList
    rw [render_eq_intercalate h, read?_ofList_slash,
      List.splitOn_intercalate '/' hslash (by simpa using h), List.map_map]
    simp [Function.comp_def, unescape_escape]

lemma render_inj {tokens tokens' : List String} :
    render tokens = render tokens' ↔ tokens = tokens' := by
  refine ⟨fun h => ?_, congrArg render⟩
  have same := congrArg read? h
  rwa [read?_render, read?_render, Option.some_inj] at same

end Pointer

/-! ## Issues -/

/-- Different indices have different texts. -/
lemma PathToken.index_eq_of_text {i j : ℕ} (h : (ofIndex i).text = (ofIndex j).text) : i = j := by
  have digits : Nat.toDigits 10 i = Nat.toDigits 10 j := by
    have h : i.repr = j.repr := h
    rwa [Nat.repr_eq_ofList_toDigits, Nat.repr_eq_ofList_toDigits, String.ofList_inj] at h
  rw [← Nat.ofDigitChars_ten_toDigits (n := i), digits, Nat.ofDigitChars_ten_toDigits]

/-- Inside the value of some plain data, paths with the same texts are the same: a part of the value
has keys, which are different, or it has indices. -/
lemma Value.LeadsTo.path_eq_of_texts {v x y : Value} {p q : List PathToken}
    (seen : v.StandsForData) (hp : v.LeadsTo p x) (hq : v.LeadsTo q y)
    (texts : p.map PathToken.text = q.map PathToken.text) : p = q := by
  induction hp generalizing q with
  | here v => exact (List.map_eq_nil_iff.1 texts.symm).symm
  | @member members name x z path present _ ih =>
    cases hq with
    | here => cases texts
    | @member _ name' x' _ path' present' rest' =>
      obtain ⟨rfl, rest⟩ : name = name' ∧ path.map PathToken.text = path'.map PathToken.text :=
        List.cons.inj texts
      obtain ⟨nodup, parts⟩ := seen.members
      -- the keys are different, so both paths go on in the same part
      have same : some x = some x' := by
        rw [← (Keyed.lookup_eq_some_iff nodup).2 present,
          (Keyed.lookup_eq_some_iff nodup).2 present']
      obtain rfl := Option.some.inj same
      rw [ih (parts _ present) rest' rest]
  | @item items i x z path present _ ih =>
    cases hq with
    | here => cases texts
    | @item _ i' x' _ path' present' rest' =>
      obtain ⟨index, rest⟩ := List.cons.inj texts
      obtain rfl := PathToken.index_eq_of_text index
      obtain rfl := Option.some.inj (present.symm.trans present')
      rw [ih (seen.item (List.mem_of_getElem? present)) rest' rest]

namespace Ksy

open Pointer

lemma pointer?_findingIssue (d : Document) (f : Finding) :
    (findingIssue d f).pointer? = some (render (f.path.map PathToken.text)) := by
  unfold findingIssue Issue.about
  split <;> rfl

lemma exists_findings_of_grammarIssues {g : Grammar} {d : Document} {v : Yaml.Data}
    {issues : List Issue} (h : grammarIssues g d v = .ok issues) :
    ∃ w findings, Value.ofData v = .ok w ∧ g.findings w = .ok findings ∧
      issues = findings.map (findingIssue d) := by
  rw [grammarIssues] at h
  cases seen : Value.ofData v with
  | error e =>
    rw [seen] at h
    cases h
  | ok w =>
    rw [seen] at h
    change (g.findings w).bind _ = _ at h
    cases hfindings : g.findings w with
    | error e =>
      rw [hfindings] at h
      cases h
    | ok findings =>
      rw [hfindings] at h
      cases h
      exact ⟨w, findings, rfl, hfindings, rfl⟩

/-- Among the paths that exist in the value of a document, exactly one has the pointer of an
issue. -/
theorem existsUnique_path_of_issue {g : Grammar} {d : Document} {v : Yaml.Data}
    {issues : List Issue} (h : grammarIssues g d v = .ok issues) {issue : Issue}
    (hissue : issue ∈ issues) :
    ∃ w, Value.ofData v = .ok w ∧ ∃! path, w.HasPath path ∧
      issue.pointer? = some (render (path.map PathToken.text)) := by
  obtain ⟨w, findings, seen, found, rfl⟩ := exists_findings_of_grammarIssues h
  obtain ⟨f, hf, rfl⟩ := List.mem_map.1 hissue
  obtain ⟨x, leads⟩ := Grammar.hasPath_of_mem_findings found hf
  refine ⟨w, seen, f.path, ⟨⟨x, leads⟩, pointer?_findingIssue d f⟩, ?_⟩
  rintro path ⟨⟨y, leads'⟩, same⟩
  rw [pointer?_findingIssue, Option.some_inj, render_inj] at same
  exact leads'.path_eq_of_texts ⟨v, seen⟩ leads same.symm

/-- The steps of every path are read back from its pointer, and so are those of the path that a
finding has from the pointer of its issue.  Paths have the same pointer only if their steps are the
same texts. -/
theorem pointers_lead_back :
    (∀ path : List PathToken,
      read? (render (path.map PathToken.text)) = some (path.map PathToken.text)) ∧
    (∀ p q : List PathToken, render (p.map PathToken.text) = render (q.map PathToken.text) ↔
      p.map PathToken.text = q.map PathToken.text) ∧
    ∀ (d : Document) (f : Finding),
      (findingIssue d f).pointer?.bind read? = some (f.path.map PathToken.text) := by
  refine ⟨fun path => read?_render _, fun p q => render_inj, fun d f => ?_⟩
  rw [pointer?_findingIssue, Option.bind_some, read?_render]

end Ksy

end KsyTools
