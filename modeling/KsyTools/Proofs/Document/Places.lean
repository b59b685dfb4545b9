/-
# Places and positions

The places of nodes and of errors are counted while a text is read, one character after the other;
the position of an offset is looked up in the line starts of the whole text.  The reader ends lines
at more characters than the table does, and counts no column for a byte order mark.  In a text whose
only line breaks are line feeds, alone or behind a carriage return, the two agree: at every
character that the reader comes to, and so at the nodes and errors that are found there.
-/
import KsyTools.Proofs.Document.Outcome
import KsyTools.Proofs.Document.Positions
import KsyTools.Proofs.Document.Unfolding
import KsyTools.Proofs.Document.Walk
import KsyTools.Proofs.Yaml.LexicalFaults

namespace KsyTools

open Yaml (Cursor Graph NodeId freeCount freeCount_cons_lt)
open Position (endOf endOf_concat)

/-- A text has ordinary line breaks: line feeds, and carriage returns only before these. -/
structure PlainBreaks (source : List Char) : Prop where
  crlf : ∀ n : ℕ, source[n]? = some '\r' → source[n + 1]? = some '\n'
  noOther : ∀ c ∈ ['\u0085', '\u2028', '\u2029', '\ufeff'], c ∉ source

/-! ## The reader -/

namespace Yaml

variable {source before : List Char} {c : Cursor}

namespace Cursor

/-- A cursor behind a part of a text, with the index and the position of its end. -/
structure IsBehind (source before : List Char) (c : Cursor) : Prop where
  source_eq : source = before ++ c.rest
  index_eq : c.index = before.length
  position_eq : c.position = endOf before

lemma isBehind_start (source : List Char) : (start source).IsBehind source [] :=
  ⟨rfl, rfl, rfl⟩

/-- In a text with ordinary line breaks, lines end with line feeds only. -/
lemma endsLine_iff {ch : Char} {rest : List Char} (h : PlainBreaks (before ++ ch :: rest)) :
    endsLine ch rest ↔ ch = '\n' := by
  unfold endsLine
  split_ifs with hreturn
  · subst hreturn
    -- the carriage return leaves the end of the line to the line feed behind it
    have hhead : rest.head? = some '\n' := by
      simpa [List.head?_eq_getElem?, List.getElem?_append_right] using
        h.crlf before.length (by simp)
    simp [hhead]
  · have hother : ch ∉ ['\u0085', '\u2028', '\u2029', '\ufeff'] :=
      fun hch => h.noOther ch hch (by simp)
    simp only [List.mem_cons, not_or] at hother
    simp [isBreak, hreturn, hother]

/-- A step moves a cursor behind one more character. -/
lemma IsBehind.step {ch : Char} {rest : List Char} (hplain : PlainBreaks source)
    (h : c.IsBehind source before) (hrest : c.rest = ch :: rest) :
    c.step.IsBehind source (before ++ [ch]) := by
  have hsource : source = before ++ ch :: rest := by rw [h.source_eq, hrest]
  have hmark : ch ≠ '\ufeff' := by
    rintro rfl
    exact hplain.noOther '\ufeff' (by simp) (by simp [hsource])
  have hline := h.position_eq
  have hends := endsLine_iff (hsource ▸ hplain)
  refine ⟨?_, ?_, ?_⟩
  · rw [rest_step, hrest, hsource, List.tail_cons, List.append_assoc, List.singleton_append]
  · unfold Cursor.step
    rw [hrest, List.length_append, ← h.index_eq]
    simp only
    split_ifs <;> rfl
  · rw [endOf_concat, ← hline]
    unfold Cursor.step
    rw [hrest]
    simp only [hends, if_neg hmark]
    split_ifs <;> rfl

/-- A cursor that moves on is behind as many more characters, or at the end of the text. -/
lemma IsBehind.advance (hplain : PlainBreaks source) (h : c.IsBehind source before) (n : ℕ) :
    (c.advance n).IsBehind source (before ++ c.rest.take n) := by
  induction n generalizing c before with
  | zero => simpa [Cursor.advance] using h
  | succ n ih =>
    cases hrest : c.rest with
    | nil =>
      have hstep : c.step = c := by
        unfold Cursor.step
        rw [hrest]
      rw [Cursor.advance, hstep]
      simpa [hrest] using ih h
    | cons ch rest =>
      have hnext := ih (h.step hplain hrest)
      rwa [rest_step, hrest, List.tail_cons, List.append_assoc] at hnext

end Cursor

/-- The place that the reader counts for an offset is the position of the offset. -/
lemma positionAt_eq (hplain : PlainBreaks source) (offset : ℕ) :
    positionAt source offset = offsetToPosition source offset := by
  rw [positionAt, ((Cursor.isBehind_start source).advance hplain offset).position_eq,
    offsetToPosition_eq, Int.toNat_natCast]
  rfl

/-- A carriage return alone ends a line for the reader only. -/
example : positionAt ['a', '\r', 'b'] 2 = ⟨1, 0⟩ ∧
    offsetToPosition ['a', '\r', 'b'] 2 = ⟨0, 2⟩ := by
  decide

/-- The place in the text that a failure is marked with. -/
def Failure.mark? : Failure → Option ℕ
  | .marked p => some p.problemAt
  | _ => none

end Yaml

/-! ## Nodes -/

namespace Node

variable {g : Graph} {placeAt : ℕ → Position}

/-- A node has the place of the offset where it, or its key, starts. -/
def IsPlaced (placeAt : ℕ → Position) (n : Node) : Prop :=
  ∃ offset : ℕ, n.nameRange.start = offset ∧ n.place = placeAt offset

/-- All nodes of the tree of a graph have the places of their starts. -/
lemma isPlaced_ofGraph (hstart : placeAt 0 = ⟨0, 0⟩) (active : List NodeId) (id : NodeId)
    (ancestors : List Node) (path : List ℕ) (l : Located)
    (hl : l ∈ (ofGraph g placeAt active id).walk ancestors path) : l.node.IsPlaced placeAt := by
  cases node : g.get? id with
  | none =>
    rw [ofGraph_of_missing node, walk_eq_cons] at hl
    obtain rfl := List.mem_singleton.mp hl
    exact ⟨0, rfl, hstart.symm⟩
  | some n =>
    by_cases again : id ∈ active
    · rw [ofGraph_of_mem node again, walk_eq_cons] at hl
      obtain rfl := List.mem_singleton.mp hl
      exact ⟨n.start, rfl, rfl⟩
    · have smaller : freeCount g.nodes.size (id :: active) < freeCount g.nodes.size active :=
        freeCount_cons_lt (Array.getElem?_eq_some_iff.1 node).1 again
      rw [ofGraph_of_notMem node again] at hl
      cases content : n.content with
      | scalar text =>
        rw [content, walk_eq_cons] at hl
        obtain rfl := List.mem_singleton.mp hl
        exact ⟨n.start, rfl, rfl⟩
      | sequence items =>
        rw [content] at hl
        rcases mem_walk.mp hl with rfl | ⟨item, i, hitem, hl⟩
        · exact ⟨n.start, rfl, rfl⟩
        · obtain ⟨child, -, rfl⟩ := List.mem_map.mp (List.mem_of_getElem? hitem)
          exact isPlaced_ofGraph hstart (id :: active) child _ _ l hl
      | mapping pairs =>
        rw [content] at hl
        rcases mem_walk.mp hl with rfl | ⟨pair, i, hpair, hl⟩
        · exact ⟨n.start, rfl, rfl⟩
        · obtain ⟨⟨key, value⟩, -, rfl⟩ := List.mem_map.mp (List.mem_of_getElem? hpair)
          rcases mem_walk.mp hl with rfl | ⟨child, j, hchild, hl⟩
          · exact ⟨(g.nodes.getD key default).start, rfl, rfl⟩
          · obtain rfl := List.mem_singleton.mp (List.mem_of_getElem? hchild)
            exact isPlaced_ofGraph hstart (id :: active) value _ _ l hl
  termination_by freeCount g.nodes.size active

end Node

/-! ## Documents -/

namespace Document

variable {source : String} {file? : Option Path} {name? : Option String} {d : Document}

lemma errorPosition?_eq (d : Document) : d.errorPosition? =
    (d.failure?.bind Yaml.Failure.mark?).map (Yaml.positionAt d.chars) := by
  unfold errorPosition?
  cases d.failure? with
  | none => rfl
  | some failure => cases failure <;> rfl

/-- The trees of a document are those of a graph, with the places that the reader counts. -/
lemma roots_of_parse (h : Document.parse source file? name? = .ok d) :
    d.roots = [] ∨
      ∃ g : Graph, d.roots = g.roots.map (Node.ofGraph g (Yaml.positionAt d.chars) []) := by
  have hcontents := gives_contents source.toList
  unfold Document.parse at h
  generalize contents source.toList = result at h hcontents
  cases result with
  | ok r =>
    obtain ⟨g, -, hroots, -⟩ := hcontents
    cases h
    exact .inr ⟨g, hroots⟩
  | error e => cases e <;> cases h <;> exact .inl rfl

/-- The nodes of a document have the places of their starts. -/
lemma isPlaced_of_mem_walk (h : Document.parse source file? name? = .ok d) {l : Located}
    (hl : l ∈ d.walk) : l.node.IsPlaced (Yaml.positionAt d.chars) := by
  obtain ⟨root, i, hroot, hl⟩ := mem_walk.mp hl
  rcases roots_of_parse h with hroots | ⟨g, hroots⟩
  · rw [hroots] at hroot
    cases hroot
  · rw [hroots] at hroot
    obtain ⟨id, -, rfl⟩ := List.mem_map.mp (List.mem_of_getElem? hroot)
    have hstart : Yaml.positionAt d.chars 0 = ⟨0, 0⟩ := rfl
    exact Node.isPlaced_ofGraph hstart [] id _ _ l hl

/-- In a text with ordinary line breaks, the places that the reader counts and the positions of
offsets agree: wherever the reader comes to, at the start of every node, which is that of the key
for a key with its value, and at the mark of every failure that has one. -/
theorem places_match_positions (hplain : PlainBreaks source.toList)
    (h : Document.parse source file? name? = .ok d) :
    (∀ n : ℕ, ((Cursor.start d.chars).advance n).position =
        d.position ((Cursor.start d.chars).advance n).index) ∧
      (∀ l ∈ d.walk, l.node.place = d.position l.node.nameRange.start) ∧
      d.errorPosition? =
        (d.failure?.bind Yaml.Failure.mark?).map fun mark : ℕ => d.position mark := by
  obtain rfl : d.source = source := (parse_ok h).1
  have hplain : PlainBreaks d.chars := hplain
  refine ⟨fun n => ?_, fun l hl => ?_, ?_⟩
  · have hbehind := (Cursor.isBehind_start d.chars).advance hplain n
    rw [hbehind.position_eq, position, offsetToPosition_eq, Int.toNat_natCast, hbehind.index_eq]
    exact congrArg endOf (List.prefix_iff_eq_take.mp ⟨_, hbehind.source_eq.symm⟩)
  · obtain ⟨offset, hstart, hplace⟩ := isPlaced_of_mem_walk h hl
    rw [hplace, hstart, Yaml.positionAt_eq hplain, position]
  · rw [errorPosition?_eq]
    exact congrArg (Option.map · _) (funext (Yaml.positionAt_eq hplain))

/-- A list below a key, with carriage returns at the ends of the lines. -/
theorem places_match_positions_crlf :
    ∃ d, Document.parse "a:\r\n  - b\r\n" none none = .ok d ∧
      d.walk.map (·.node.place) = [⟨0, 0⟩, ⟨0, 0⟩, ⟨1, 2⟩, ⟨1, 4⟩] ∧
      ∀ l ∈ d.walk, l.node.place = d.position l.node.nameRange.start := by
  have hplain : PlainBreaks "a:\r\n  - b\r\n".toList := by
    refine ⟨fun n hn => ?_, by simp⟩
    have hlt : n < 11 := (List.getElem?_eq_some_iff.mp hn).1
    interval_cases n <;> first | rfl | exact absurd hn (by decide +kernel)
  have hplaces : (Document.parse "a:\r\n  - b\r\n" none none).toOption.map
      (fun d => d.walk.map (·.node.place)) = some [⟨0, 0⟩, ⟨0, 0⟩, ⟨1, 2⟩, ⟨1, 4⟩] := by
    decide +kernel
  cases hparse : Document.parse "a:\r\n  - b\r\n" none none with
  | error fault =>
    rw [hparse] at hplaces
    cases hplaces
  | ok d =>
    rw [hparse] at hplaces
    exact ⟨d, rfl, Option.some.inj hplaces, (places_match_positions hplain hparse).2.1⟩

end Document

end KsyTools
