/-
# What parsing a text gives

A text gives a document: with a tree and a value for each YAML document of its node graph, or, if it
is not well formed, with the reason and nothing else.  The one exception is a value that the text
asks for and that does not exist; no document records such a fault.
-/
import KsyTools.Proofs.Document.Alignment
import KsyTools.Proofs.Store.Lookup
import KsyTools.Proofs.Yaml.ValueFaults

namespace KsyTools

open Yaml (Graph LexicalFault ScalarFault)

/-- A text asks for a value that does not exist: with its characters, or with a node of its
graph. -/
inductive Document.Faulty (source : List Char) : ScalarFault → Prop
  | lexical {fault : ScalarFault} : LexicalFault source fault → Faulty source fault
  | node {g : Graph} {fault : ScalarFault} :
      Graph.ofText source = .ok g → g.Faulty fault → Faulty source fault

/-- A document tells what its text holds: a tree and a value for each YAML document, in their order,
or why there are none. -/
inductive Document.Tells (d : Document) : Prop
  | contents {g : Graph} : d.parseError? = none → Graph.ofText d.chars = .ok g →
      d.roots = g.roots.map (Node.ofGraph g (Yaml.positionAt d.chars) []) →
      List.Forall₂ (fun root value => g.valueOf root = .ok value) g.roots d.data → Tells d
  | failure : d.parseError?.isSome → d.roots = [] → d.data = [] → Tells d

namespace Document

variable {source : String} {file? : Option Path} {name? : Option String}

/-- A graph has a value for each of its documents, in their order. -/
lemma forall₂_of_data {g : Graph} {values : List Yaml.Data} (h : g.data = .ok values) :
    List.Forall₂ (fun root value => g.valueOf root = .ok value) g.roots values := by
  rw [Graph.data] at h
  cases hrun : (Yaml.Construct.documents g.roots).run
      ⟨g.nodes, Array.replicate g.nodes.size none, []⟩ with
  | error e =>
    rw [hrun] at h
    cases h
  | ok r =>
    rw [hrun] at h
    cases h
    rw [List.forall₂_map_right_iff]
    refine List.forall₂_same.2 fun root _ => ?_
    rw [Graph.valueOf, hrun]
    rfl

/-- The trees and values of a text are those of its graph; a value that is missing was asked for. -/
lemma gives_contents (source : List Char) :
    Yaml.Gives (Yaml.Failure.DueTo (Faulty source))
      (fun r => ∃ g, Graph.ofText source = .ok g ∧
        r.1 = g.roots.map (Node.ofGraph g (Yaml.positionAt source) []) ∧ g.data = .ok r.2)
      (contents source) := by
  have htext := Graph.gives_ofText source
  unfold contents
  cases hgraph : Graph.ofText source with
  | error e =>
    rw [hgraph] at htext
    exact Yaml.Failure.DueTo.mono htext fun _ => .lexical
  | ok g =>
    have hdata := g.gives_data
    cases hvalues : g.data with
    | error e =>
      rw [hvalues] at hdata
      simp only [bind, Except.bind, hvalues]
      exact Yaml.Failure.DueTo.mono hdata fun _ => .node hgraph
    | ok values =>
      simp only [bind, Except.bind, hvalues]
      exact ⟨g, rfl, rfl, hvalues⟩

/-- Parsing a text gives a document that tells what the text holds, or why it holds nothing; in a
document that could be read there are as many trees as values.  It is an error only if a value that
the text asks for does not exist, and then it gives no document at all: so it is whenever the first
YAML document is a scalar with a text of another form than its tag asks for. -/
theorem parse_outcome (source : String) (file? : Option Path) (name? : Option String) :
    ((∃ d, Document.parse source file? name? = .ok d ∧ d.source = source ∧ d.file? = file? ∧
        d.name = name?.getD ((file?.map Path.name).getD "") ∧ d.Tells ∧
        d.roots.length = d.data.length) ∨
      ∃ fault, Document.parse source file? name? = .error fault ∧ Faulty source.toList fault) ∧
    ∀ g id rest n text fault, Graph.ofText source.toList = .ok g → g.roots = id :: rest →
      g.get? id = some n → n.content = .scalar text → n.tag.Rejects text fault →
      Document.parse source file? name? = .error fault := by
  constructor
  · have hcontents := gives_contents source.toList
    unfold parse
    generalize contents source.toList = result at hcontents ⊢
    cases result with
    | ok r =>
      obtain ⟨g, hgraph, hroots, hdata⟩ := hcontents
      have hvalues := forall₂_of_data hdata
      refine .inl ⟨_, rfl, rfl, rfl, rfl, .contents rfl hgraph hroots hvalues, ?_⟩
      change r.1.length = r.2.length
      rw [hroots, List.length_map, hvalues.length_eq]
    | error e =>
      cases e with
      | scalar fault => exact .inr ⟨fault, rfl, hcontents⟩
      | character c offset => exact .inl ⟨_, rfl, rfl, rfl, rfl, .failure rfl rfl rfl, rfl⟩
      | marked p => exact .inl ⟨_, rfl, rfl, rfl, rfl, .failure rfl rfl rfl, rfl⟩
      | tooDeep => exact .inl ⟨_, rfl, rfl, rfl, rfl, .failure rfl rfl rfl, rfl⟩
  · intro g id rest n text fault hgraph roots hn content rejects
    have hdata := g.data_of_rejects roots hn content rejects
    have hcontents : contents source.toList = .error (.scalar fault) := by
      simp only [contents, hgraph, hdata, bind, Except.bind]
    unfold parse
    rw [hcontents]

/-- The empty text is no whole number. -/
theorem parse_outcome_emptyInt :
    Document.parse "!!int ''\n" none none = .error (.number .empty) :=
  (parse_outcome _ none none).2 ⟨#[⟨.int, .scalar "", 0, 8⟩], [0]⟩ 0 []
    ⟨.int, .scalar "", 0, 8⟩ "" _
    (Graph.ofText_eq (by decide +kernel)) rfl rfl rfl rfl

end Document

end KsyTools
