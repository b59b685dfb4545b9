/-
# Asking for the grammar again

The grammar is made once, of a schema file that is read once.  Whether or not both were kept, the
grammar is the same when it is asked for again.
-/
import KsyTools.Schema.Cache
import Mathlib.Tactic.Common

namespace KsyTools

namespace SchemaCache

/-- A schema file that is asked for again has the same value. -/
lemma load_again (t : FileTree) (c : SchemaCache) (name : String) (p : Path) :
    ((c.load t name p).2.load t name p).1.map LoadedSchema.value =
      (c.load t name p).1.map LoadedSchema.value := by
  have kept {c : SchemaCache} {schema : LoadedSchema} (h : c.loaded.lookup name = some schema) :
      c.load t name p = (.ok schema, c) := by
    rw [load, h]
  cases hloaded : c.loaded.lookup name with
  | some schema => rw [kept hloaded, kept hloaded]
  | none =>
    cases hread : readFile t p with
    | error e =>
      have failed : c.load t name p = (.error e, c) := by
        rw [load, hloaded, hread]
      rw [failed, failed]
    | ok value =>
      have found : c.load t name p = (.ok ⟨c.nextSerial, value⟩, (c.load t name p).2) := by
        rw [load, hloaded, hread]
      have lookup : (c.load t name p).2.loaded.lookup name = none ∨
          (c.load t name p).2.loaded.lookup name = some ⟨c.nextSerial, value⟩ := by
        rw [load, hloaded, hread]
        -- a file that holds nothing is not kept
        cases value with
        | null => exact .inl hloaded
        | _ => exact .inr (by simp [List.lookup_append, hloaded])
      rcases lookup with unkept | keptNow
      · have again : ((c.load t name p).2.load t name p).1 =
            .ok ⟨(c.load t name p).2.nextSerial, value⟩ := by
          rw [load, unkept, hread]
        rw [again, found]
        rfl
      · rw [kept keptNow, found]

/-! ## Asking for the grammar -/

section Ask

variable {t : FileTree} {c c' : SchemaCache} {p : Path} {r : Except Failure LoadedSchema}
    {g : Grammar}

/-- The grammar that a schema file is understood as. -/
def understood (r : Except Failure LoadedSchema) : Except Failure Grammar :=
  r.bind fun schema => Grammar.ofSchema schema.value

lemma understood_congr {r' : Except Failure LoadedSchema}
    (h : r'.map LoadedSchema.value = r.map LoadedSchema.value) : understood r' = understood r := by
  cases r with
  | error e =>
    cases r' with
    | error e' => exact congrArg Except.error (Except.error.inj h)
    | ok schema' => cases h
  | ok schema =>
    cases r' with
    | error e' => cases h
    | ok schema' => exact congrArg Grammar.ofSchema (Except.ok.inj h)

lemma grammar_of_kept (h : c.grammar? = some g) : c.grammar t (some p) = (.ok g, c) := by
  simp only [grammar, h]

lemma grammar_of_error {e : Failure} (h : c.grammar? = none)
    (load : c.load t grammarName p = (r, c')) (hr : understood r = .error e) :
    c.grammar t (some p) = (.error e, c') := by
  cases r with
  | error e' =>
    cases hr
    simp only [grammar, h, load]
  | ok schema =>
    have hschema : Grammar.ofSchema schema.value = .error e := hr
    simp only [grammar, h, load, hschema]

lemma grammar_of_ok (h : c.grammar? = none) (load : c.load t grammarName p = (r, c'))
    (hr : understood r = .ok g) :
    c.grammar t (some p) = (.ok g, { c' with grammar? := some g }) := by
  cases r with
  | error e => cases hr
  | ok schema =>
    have hschema : Grammar.ofSchema schema.value = .ok g := hr
    simp only [grammar, h, load, hschema]

lemma load_grammar? (name : String) : (c.load t name p).2.grammar? = c.grammar? := by
  unfold load
  split
  · rfl
  · split <;> rfl

end Ask

/-- The grammar stays the same when it is asked for again. -/
lemma grammar_again (t : FileTree) (c : SchemaCache) (file? : Option Path) :
    ((c.grammar t file?).2.grammar t file?).1 = (c.grammar t file?).1 := by
  cases file? with
  | none =>
    have builtin (c : SchemaCache) : c.grammar t none = (.ok Ksy.grammar, c) := by rw [grammar]
    rw [builtin, builtin]
  | some p =>
    cases hg : c.grammar? with
    | some g => rw [grammar_of_kept hg, grammar_of_kept hg]
    | none =>
      rcases hload : c.load t grammarName p with ⟨r, c'⟩
      rcases hload' : c'.load t grammarName p with ⟨r', c''⟩
      have again := load_again t c grammarName p
      simp only [hload, hload'] at again
      have hg' : c'.grammar? = none := by
        have same := load_grammar? (t := t) (c := c) (p := p) grammarName
        rwa [hload, hg] at same
      cases hr : understood r with
      | error e =>
        rw [grammar_of_error hg hload hr,
          grammar_of_error hg' hload' ((understood_congr again).trans hr)]
      | ok g => rw [grammar_of_ok hg hload hr, grammar_of_kept rfl]

end SchemaCache

end KsyTools
