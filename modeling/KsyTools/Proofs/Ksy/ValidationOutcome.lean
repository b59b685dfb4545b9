/-
# How the check against the grammar ends

A description that could be read is checked against the grammar, and the check gives a list of
issues.  There are two exceptions.  The keys of its data are turned into texts first, by going over
lists and maps; this never ends if the data leads to a list or a map that contains itself, which an
alias inside its own node makes possible.  The tree of the same document is cut off at such a place.
And a number may have too many digits to be written into a message or a text.
-/
import KsyTools.Proofs.Ksy.DescriptionCheck
import KsyTools.Proofs.Uniform
import KsyTools.Proofs.Yaml.PartsInside
import Mathlib

namespace KsyTools

open Yaml (Graph Construction LeadsToCycle)

/-- The data of the only YAML document of a graph leads to a list or a map that contains itself. -/
def Yaml.Graph.Endless (g : Graph) (c : Construction) : Prop :=
  ∃ root, g.roots = [root] ∧ LeadsToCycle c.Encloses root

/-- Some data of a document has a number with too many digits. -/
def Document.Overlong (d : Document) : Prop :=
  ∃ v ∈ d.data, v.isWritable = false

namespace Ksy

variable {d : Document} {s : Session} {t : FileTree} {v : Yaml.Data} {root : Node}

/-- The check of a value ends if the value has an end and its numbers can be written. -/
lemma grammarIssues_outcome (d : Document) (v : Yaml.Data) :
    (∃ issues, grammarIssues grammar d v = .ok issues ∧ v.isEndless = false) ∨
      grammarIssues grammar d v = .error .endless ∧ v.isEndless = true ∨
      grammarIssues grammar d v = .error (.number .tooLong) ∧ v.isWritable = false := by
  have outcome := Value.ofData_outcome v
  rw [grammarIssues]
  cases seen : Value.ofData v with
  | error e =>
    rw [seen] at outcome
    rcases outcome with ⟨rfl, endless⟩ | ⟨rfl, long⟩
    · exact .inr (.inl ⟨rfl, endless⟩)
    · exact .inr (.inr ⟨rfl, long⟩)
  | ok x =>
    rw [seen] at outcome
    obtain ⟨ends, writable⟩ := outcome
    rcases (checks_description ⟨v, seen⟩).outcome with ⟨findings, found, -⟩ | ⟨failed, long⟩
    · have all : grammar.findings x = .ok (Grammar.sortFindings findings) := by
        rw [Grammar.findings, Grammar.report, found]
        rfl
      refine .inl ⟨(Grammar.sortFindings findings).map (findingIssue d), ?_, ends⟩
      simp only [bind, Except.bind, all]
      rfl
    · have none : grammar.findings x = .error (.number .tooLong) := by
        rw [Grammar.findings, Grammar.report, failed]
        rfl
      refine .inr (.inr ⟨by simp only [bind, Except.bind, none], ?_⟩)
      rw [← Bool.not_eq_true]
      intro all
      rw [writable all] at long
      cases long

/-- A description with one YAML document is checked by its value. -/
lemma validateGrammar_of_single (bundled : s.grammarFile? = none) (ksy : d.isKsy)
    (readable : d.failure? = none) (roots : d.roots = [root]) (data : d.data = [v]) :
    (s.run t (validateGrammar d)).1 = grammarIssues grammar d v := by
  have builtin : s.grammarResult t = .ok grammar := by
    rw [Session.grammarResult, bundled]
    rfl
  rw [validateGrammar, if_neg (by simp [ksy, readable]), roots, data]
  dsimp only
  rw [Session.run_bind, Session.run_grammar, builtin]
  dsimp only
  cases grammarIssues grammar d v <;> rfl

/-- Other documents have no issues. -/
lemma validateGrammar_of_not_single
    (h : ¬ (d.isKsy ∧ ∃ root v, d.roots = [root] ∧ d.data = [v])) :
    (s.run t (validateGrammar d)).1 = .ok [] := by
  rw [validateGrammar]
  split_ifs with skipped
  · rfl
  · split
    · rename_i root v roots data
      have ksy : d.isKsy = true := by
        by_contra no
        exact skipped (by simp [no])
      exact absurd ⟨ksy, root, v, roots, data⟩ h
    · rfl

end Ksy

/-- A document that could be read has the trees and the values of a graph. -/
lemma Document.exists_constructed {source : String} {file? : Option Path} {name? : Option String}
    {d : Document} (parsed : Document.parse source file? name? = .ok d)
    (readable : d.failure? = none) :
    ∃ g c, Graph.ofText source.toList = .ok g ∧ g.constructed = .ok c ∧
      d.roots = g.roots.map (Node.ofGraph g (Yaml.positionAt source.toList) []) ∧
      d.data = g.roots.map (Yaml.unfoldData c.cells none []) := by
  cases composed : Graph.ofText source.toList with
  | error e =>
    have contents : Document.contents source.toList = .error e := by
      simp only [Document.contents, composed, bind, Except.bind]
    rw [Document.parse, contents] at parsed
    cases e <;> cases parsed <;> cases readable
  | ok g =>
    obtain ⟨-, roots, data⟩ := Document.contents_of_parse composed parsed readable
    rw [Graph.data_eq] at data
    cases made : g.constructed with
    | error e =>
      rw [made] at data
      cases data
    | ok c =>
      rw [made] at data
      exact ⟨g, c, rfl, made, roots, (Except.ok.inj data).symm⟩

open Ksy (validateGrammar)

/-- In a document that could be read, checking against the built-in grammar gives a list of issues;
or it has no end, because the document is a description whose data leads to data that contains
itself; or a number has too many digits.  It never gives issues for such data, and there is such
data only where the tree of the document is cut off, at a node inside itself. -/
theorem Ksy.validateGrammar_outcome {source : String} {file? : Option Path} {name? : Option String}
    {d : Document} (parsed : Document.parse source file? name? = .ok d)
    (readable : d.failure? = none) {s : Session} (bundled : s.grammarFile? = none) (t : FileTree) :
    ∃ g c, Graph.ofText source.toList = .ok g ∧ g.constructed = .ok c ∧
      ((∃ issues, (s.run t (validateGrammar d)).1 = .ok issues) ∨
        ((s.run t (validateGrammar d)).1 = .error .endless ∧ d.isKsy ∧ g.Endless c) ∨
        (s.run t (validateGrammar d)).1 = .error (.number .tooLong) ∧ d.Overlong) ∧
      (d.isKsy → g.Endless c → ∀ issues, (s.run t (validateGrammar d)).1 ≠ .ok issues) ∧
      (g.Endless c → ∃ root, g.roots = [root] ∧ LeadsToCycle g.Encloses root) := by
  obtain ⟨g, c, composed, made, roots, data⟩ := Document.exists_constructed parsed readable
  refine ⟨g, c, composed, made, ?_, ?_, ?_⟩
  · by_cases single : d.isKsy ∧ ∃ root v, d.roots = [root] ∧ d.data = [v]
    · obtain ⟨ksy, tree, v, hroots, hdata⟩ := single
      obtain ⟨root, hroot, -⟩ := List.map_eq_singleton_iff.1 (roots.symm.trans hroots)
      rw [validateGrammar_of_single bundled ksy readable hroots hdata]
      rw [hroot, List.map_singleton, hdata, List.singleton_inj] at data
      rcases grammarIssues_outcome d v with ⟨issues, found, -⟩ | ⟨failed, endless⟩ | ⟨failed, long⟩
      · exact .inl ⟨issues, found⟩
      · rw [data, Construction.isEndless_unfoldData_iff] at endless
        exact .inr (.inl ⟨failed, ksy, root, hroot, endless⟩)
      · exact .inr (.inr ⟨failed, v, by rw [hdata]; exact List.mem_singleton_self v, long⟩)
    · exact .inl ⟨[], validateGrammar_of_not_single single⟩
  · rintro ksy ⟨root, hroot, endless⟩ issues found
    rw [hroot, List.map_singleton] at roots data
    rw [validateGrammar_of_single bundled ksy readable roots data] at found
    rw [← Construction.isEndless_unfoldData_iff] at endless
    -- a value for which there are issues has an end
    rcases grammarIssues_outcome d (Yaml.unfoldData c.cells none [] root) with
      ⟨_, -, ends⟩ | ⟨failed, -⟩ | ⟨failed, -⟩
    · rw [endless] at ends
      cases ends
    · rw [found] at failed
      cases failed
    · rw [found] at failed
      cases failed
  · rintro ⟨root, hroot, cycle⟩
    exact ⟨root, hroot, Graph.leadsToCycle_of_constructed made cycle⟩

/-! ## A list that contains itself -/

namespace Ksy

/-- A description with a list that has itself as its only item. -/
def recursiveSource : String :=
  "meta:\n  id: a\n-x: &x [*x]\n"

def recursiveGraph : Graph :=
  ⟨#[⟨.map, .mapping [(1, 2), (5, 6)], 0, 26⟩, ⟨.str, .scalar "meta", 0, 4⟩,
     ⟨.map, .mapping [(3, 4)], 8, 14⟩, ⟨.str, .scalar "id", 8, 10⟩, ⟨.str, .scalar "a", 12, 13⟩,
     ⟨.str, .scalar "-x", 14, 16⟩, ⟨.seq, .sequence [6], 18, 25⟩], [0]⟩

lemma ofText_recursiveSource : Graph.ofText recursiveSource.toList = .ok recursiveGraph :=
  Yaml.Graph.ofText_eq (by decide +kernel)

/-- The list is a value of the map at the top, and its own item. -/
lemma endless_recursiveGraph {c : Construction} (made : recursiveGraph.constructed = .ok c) :
    recursiveGraph.Endless c := by
  have entries : (recursiveGraph.constructed.toOption.map fun c => (c.entries 0, c.entries 6)) =
      some ([2, 6], [6]) := by
    decide +kernel
  rw [made] at entries
  obtain ⟨top, list⟩ := Prod.mk.inj (Option.some.inj entries)
  have first : c.Encloses 0 6 := by
    rw [Construction.Encloses, top]
    decide
  have again : c.Encloses 6 6 := by
    rw [Construction.Encloses, list]
    decide
  exact ⟨0, rfl, 6, .single first, .single again⟩

/-- The check of a description with a list that contains itself has no end. -/
theorem validateGrammar_outcome_recursive :
    ∃ d, Document.parse recursiveSource (some ⟨.slash, ["ws", "a.ksy"]⟩) none = .ok d ∧
      d.failure? = none ∧ (Session.start true 8 none).grammarFile? = none ∧
      ((Session.start true 8 none).run FileTree.noFiles (validateGrammar d)).1 =
        .error .endless := by
  have writable : (recursiveGraph.data.toOption.map fun ds => ds.all Yaml.Data.isWritable) =
      some true := by
    cbv
  obtain ⟨data, made⟩ : ∃ data, recursiveGraph.data = .ok data :=
    exists_ok_of_isOk (by decide +kernel)
  obtain ⟨d, parsed, readable⟩ := Document.parse_of_data ofText_recursiveSource made
    (some ⟨.slash, ["ws", "a.ksy"]⟩) none
  obtain ⟨g, c, composed, constructed, outcome, never, -⟩ :=
    validateGrammar_outcome parsed readable (s := .start true 8 none) rfl FileTree.noFiles
  refine ⟨d, parsed, readable, rfl, ?_⟩
  obtain rfl : recursiveGraph = g := Except.ok.inj (ofText_recursiveSource.symm.trans composed)
  have ksy : d.isKsy := by
    rw [Document.isKsy, (Document.parse_ok parsed).2]
    change isFile ⟨.slash, ["ws", "a.ksy"]⟩ = true
    decide
  rcases outcome with ⟨issues, found⟩ | ⟨failed, -, -⟩ | ⟨-, v, hv, long⟩
  · exact absurd found (never ksy (endless_recursiveGraph constructed) issues)
  · exact failed
  · -- all data of this description can be written
    obtain ⟨-, -, values⟩ := Document.contents_of_parse ofText_recursiveSource parsed readable
    rw [values] at writable
    have all : d.data.all Yaml.Data.isWritable = true := Option.some.inj writable
    rw [List.all_eq_true.1 all v hv] at long
    cases long

end Ksy

end KsyTools
