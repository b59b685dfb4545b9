/-
# Dependents get fresh diagnostics

When a file is saved, closed or changed on disk, the open descriptions that depend on it are checked
one after the other.  Every check takes the text of its document over again, but the store holds
that text already; so all of them see the same documents, and what was sent for the first of them is
still right after the last.
-/
import KsyTools.Proofs.Document.Alignment
import KsyTools.Proofs.Server.Coherence

namespace KsyTools

open FileTree (noFiles)
open Ksy (includesOf)
open Yaml (Graph)

/-! ## Dependents and the file itself -/

lemma Keyed.erase_set {κ α : Type} [BEq κ] [LawfulBEq κ] (l : List (κ × α)) (k : κ) (a : α) :
    erase (set l k a) k = erase l k := by
  unfold erase set
  split
  next known =>
    clear known
    induction l with
    | nil => rfl
    | cons x rest ih => by_cases same : x.1 = k <;> simp [same, ih]
  · simp

namespace ImportIndex

variable {t : FileTree} {i i' : ImportIndex} {p key : Path}

/-- Whether other files depend on a file has nothing to do with the imports of the file itself. -/
lemma dependents_congr (h : t.indexKey? p = some key) (same : i'.erase key = i.erase key) :
    i'.dependents t p = i.dependents t p := by
  have others (i : ImportIndex) : ((i.targets t).filter fun e => some e.1 != t.indexKey? p) =
      (i.erase key).targets t := by
    rw [targets, targets, erase, Keyed.erase, List.filter_map, h]
    congr 2
  rw [dependents, dependents, others, others, same]

end ImportIndex

lemma Server.dependents_indexing {t : FileTree} {s : Server} {p : Path} {d : Document}
    (file : d.file?.bind t.indexKey? = t.indexKey? p) :
    (s.indexing t d).index.dependents t p = s.index.dependents t p := by
  unfold indexing
  rw [file]
  cases h : t.indexKey? p with
  | none => rfl
  | some key =>
    refine ImportIndex.dependents_congr h ?_
    simp only [ImportIndex.erase, ImportIndex.set, Keyed.erase_set]

namespace Server

/-! ## What is sent -/

/-- The diagnostics that were sent last for a URI. -/
def lastSent? (s : Server) (uri : String) : Option (List Diagnostic) :=
  (s.published.reverse.find? fun x => x.uri == uri).map Publication.diagnostics

/-- A URI is that of an open description that depends on a file. -/
structure Awaits (t : FileTree) (s : Server) (p : Path) (uri : String) : Prop where
  depends : ∃ k ∈ s.index.dependents t p, FileUri.ofPath k = .ok uri
  isOpen : (s.buffer? uri).isSome
  isKsy : (overlayKey? t.cwd uri).isSome

/-- From `s` to `s'` fresh diagnostics were sent for all open descriptions that depend on the file
`p`: they are those that their documents have in `s'`.  For nothing else was anything sent, apart
from the URI of the file itself. -/
structure Refreshed (t : FileTree) (s s' : Server) (uri : String) (p : Path) : Prop where
  fresh : ∀ u, s'.Awaits t p u → ∃ path d, FileUri.toPath u = .ok path ∧
    s'.session.store.answer t (Path.ofString path) = .ok (some d) ∧
    s'.lastSent? u = some (s'.session.diagnosticsOf t d)
  others : ∃ new, s'.published = s.published ++ new ∧
    ∀ x ∈ new, x.uri = uri ∨ s'.Awaits t p x.uri

variable {t : FileTree} {s s' : Server} {uri u : String} {p : Path}

/-- What was sent last is found from the end. -/
lemma lastSent?_of_append {x : Publication} {before new : List Publication}
    (published : s.published = before ++ new) (hx : x ∈ new)
    (unique : ∀ y ∈ new, y.uri = x.uri → y = x) : s.lastSent? x.uri = some x.diagnostics := by
  have found : (new.reverse.find? fun y => y.uri == x.uri) = some x := by
    cases h : new.reverse.find? fun y => y.uri == x.uri with
    | none =>
      have none := List.find?_eq_none.1 h x (List.mem_reverse.2 hx)
      simp at none
    | some y =>
      have hy := List.mem_reverse.1 (List.mem_of_find?_eq_some h)
      have same : y.uri = x.uri := by simpa using List.find?_some h
      rw [unique y hy same]
  rw [lastSent?, published, List.reverse_append, List.find?_append, found]
  rfl

/-- What is sent for a URI when it is checked is about this URI, and it is that of an open
description. -/
lemma of_mem_checkOf {x : Publication} (hx : x ∈ s.checkOf t u) :
    x.uri = u ∧ (s.buffer? u).isSome ∧ (overlayKey? t.cwd u).isSome := by
  unfold checkOf at hx
  split at hx
  next text path hbuffer hpath =>
    split at hx
    next ksy =>
      split at hx
      · have isKsy : (overlayKey? t.cwd u).isSome := by
          simp only [overlayKey?, hpath, if_pos ksy, Option.isSome_some]
        rw [List.mem_singleton.1 hx, hbuffer]
        exact ⟨rfl, rfl, isKsy⟩
      · cases hx
    · cases hx
  · cases hx

/-- An open description that the store holds is checked. -/
lemma Mirrored.checkOf (h : s.Mirrored t u) (isOpen : (s.buffer? u).isSome)
    (isKsy : (overlayKey? t.cwd u).isSome) : ∃ path d, FileUri.toPath u = .ok path ∧
      s.session.shown t (Path.ofString path) = .ok (some d) ∧
      s.checkOf t u = [⟨u, s.session.diagnosticsOf t d⟩] := by
  obtain ⟨text, hbuffer⟩ := Option.isSome_iff_exists.1 isOpen
  unfold overlayKey? at isKsy
  split at isKsy
  next path hpath =>
    split at isKsy
    next ksy =>
      obtain ⟨d, -, held⟩ := h text path hbuffer hpath ksy
      refine ⟨path, d, hpath, ?_, checkOf_of_held hbuffer hpath ksy held⟩
      rw [Session.shown, held]
    · cases isKsy
  · cases isKsy

/-- After the check of the dependents of a file, diagnostics are fresh. -/
lemma refreshed_of_checks {m x : Server} {own : List Publication}
    (alike : (m.sending ((m.index.dependents t p).flatMap (m.checksOf t))).Alike t x)
    (mirrored : ∀ k ∈ m.index.dependents t p, ∀ u, FileUri.ofPath k = .ok u → m.Mirrored t u)
    (published : m.published = s.published ++ own) (hown : ∀ y ∈ own, y.uri = uri) :
    s.Refreshed t x uri p := by
  have sent : x.published =
      m.published ++ (m.index.dependents t p).flatMap (m.checksOf t) := alike.published
  have index : x.index = m.index := alike.index
  have buffer (u : String) : x.buffer? u = m.buffer? u := alike.buffer? u
  have session : m.session.Alike t x.session := alike.session
  have mem_checks {y : Publication} : y ∈ (m.index.dependents t p).flatMap (m.checksOf t) →
      ∃ k ∈ m.index.dependents t p, FileUri.ofPath k = .ok y.uri ∧ y ∈ m.checkOf t y.uri ∧
        x.Awaits t p y.uri := by
    intro hy
    obtain ⟨k, hk, hy⟩ := List.mem_flatMap.1 hy
    unfold checksOf at hy
    split at hy
    next u hu =>
      obtain ⟨rfl, isOpen, isKsy⟩ := of_mem_checkOf hy
      exact ⟨k, hk, hu, hy, ⟨k, index ▸ hk, hu⟩, buffer y.uri ▸ isOpen, isKsy⟩
    · cases hy
  refine ⟨fun u hu => ?_, ⟨own ++ (m.index.dependents t p).flatMap (m.checksOf t), ?_, ?_⟩⟩
  · obtain ⟨⟨k, hk, hku⟩, isOpen, isKsy⟩ := hu
    rw [index] at hk
    rw [buffer] at isOpen
    obtain ⟨path, d, hpath, shown, check⟩ := (mirrored k hk u hku).checkOf isOpen isKsy
    refine ⟨path, d, hpath, ?_, ?_⟩
    · rw [Session.answer_eq_shown session.right, session.shown, shown]
    · rw [session.diagnosticsOf]
      have mem : ⟨u, m.session.diagnosticsOf t d⟩ ∈
          (m.index.dependents t p).flatMap (m.checksOf t) := by
        refine List.mem_flatMap.2 ⟨k, hk, ?_⟩
        have checks : m.checksOf t k = m.checkOf t u := by rw [checksOf, hku]
        rw [checks, check]
        exact List.mem_singleton_self _
      refine lastSent?_of_append sent mem fun y hy same => ?_
      obtain ⟨-, -, -, hy, -⟩ := mem_checks hy
      rw [same, check] at hy
      exact List.mem_singleton.1 hy
  · rw [sent, published, List.append_assoc]
  · intro y hy
    rcases List.mem_append.1 hy with hy | hy
    · exact .inl (hown y hy)
    · obtain ⟨-, -, -, -, awaits⟩ := mem_checks hy
      exact .inr awaits

/-! ## Events about a file -/

/-- An event about a file, after which its dependents are checked.  A text that is saved can be
parsed; it is that of the buffer, unless the file is none of its own dependents. -/
inductive Concerns (t : FileTree) (s : Server) (uri : String) (p : Path) : Event → Prop
  | saved : Concerns t s uri p (.saved uri none)
  | savedText {text : String} (parses : Parses text) (alone : s.Alone t uri)
      (own : s.buffer? uri = some text ∨ ¬ s.Awaits t p uri) :
      Concerns t s uri p (.saved uri (some text))
  | closed (alone : s.Alone t uri) : Concerns t s uri p (.closed uri)
  | changed (change : FileChange) : Concerns t s uri p (.filesChanged [(uri, change)])

/-- A handler that ends with the check of the dependents of a file refreshes their diagnostics. -/
lemma refreshed_of_does {m : Server} {path : String} {e : Event} {own : List Publication}
    (truthful : s.session.store.Truthful t) (hpath : FileUri.toPath uri = .ok path)
    (does : ∀ s', Serve.Does t (Serve.recheckDependents uri) m (.ok ()) s' →
      Serve.Does t (Serve.handle e) s (.ok ()) s')
    (ready : m.Ready t)
    (mirrored : ∀ k ∈ m.index.dependents t (Path.ofString path), ∀ u, FileUri.ofPath k = .ok u →
      m.Mirrored t u)
    (published : m.published = s.published ++ own) (hown : ∀ y ∈ own, y.uri = uri) :
    (s.run t (Serve.handle e)).1 = .ok () ∧
      s.Refreshed t (s.after t e) uri (Path.ofString path) := by
  have rest := Serve.does_recheckDependents ready.truthful ready.connected hpath
    (fun k hk => ready.absolute.of_mem_dependents hk) mirrored
  obtain ⟨result, alike⟩ := does _ rest s (.refl truthful)
  exact ⟨result, refreshed_of_checks alike mirrored published hown⟩

section Events

variable {path : String} (ready : s.Ready t) (mirrored : ∀ u, s.Mirrored t u)
  (hpath : FileUri.toPath uri = .ok path)

include ready mirrored hpath

lemma refreshed_saved :
    (s.run t (Serve.handle (.saved uri none))).1 = .ok () ∧
      s.Refreshed t (s.after t (.saved uri none)) uri (Path.ofString path) :=
  refreshed_of_does ready.truthful hpath (fun _ => Serve.does_saved hpath) ready
    (fun _ _ u _ => mirrored u) (List.append_nil _).symm nofun

lemma refreshed_savedText {text : String} (parses : Parses text) (alone : s.Alone t uri)
    (own : s.buffer? uri = some text ∨ ¬ s.Awaits t (Path.ofString path) uri) :
    (s.run t (Serve.handle (.saved uri (some text)))).1 = .ok () ∧
      s.Refreshed t (s.after t (.saved uri (some text))) uri (Path.ofString path) := by
  by_cases ksy : Ksy.isFile (Path.ofString path)
  · obtain ⟨d, parse⟩ := Serve.parse_ok_of_parses parses (some (Path.ofString path)) none
    refine refreshed_of_does ready.truthful hpath
      (fun _ => Serve.does_savedText ready hpath ksy parse) (ready.processed ..) ?_
      (congrArg (· ++ _) (published_indexing ..)) (fun y hy => ?_)
    · intro k hk u hu
      refine Mirrored.congr ?_ (session_processed ..) (buffers_processed ..)
      -- the document takes its imports along, on which its dependents do not depend
      have file : d.file?.bind t.indexKey? = t.indexKey? (Path.ofString path) := by
        rw [(Document.parse_ok parse).2]
        rfl
      have hk : k ∈ s.index.dependents t (Path.ofString path) :=
        dependents_indexing (s := s.holding t (Path.ofString path) text) file ▸ hk
      refine mirrored_holding (fun _ => mirrored u) alone hpath ksy parse fun same held hheld => ?_
      rcases own with own | own
      · exact Option.some.inj (hheld.symm.trans own)
      · refine absurd ⟨⟨k, hk, same ▸ hu⟩, ?_, ?_⟩ own
        · rw [hheld]
          rfl
        · rw [overlayKey?_of_ksy hpath ksy]
          rfl
    · rw [List.mem_singleton.1 hy]
  · exact refreshed_of_does ready.truthful hpath
      (fun _ rest => (Serve.does_invalidate hpath).bind
        ((Serve.does_process_of_not_ksy hpath ksy true).bind rest)) ready
      (fun _ _ u _ => mirrored u) (List.append_nil _).symm nofun

lemma refreshed_closed (alone : s.Alone t uri)
    (readable : ∃ d?, t.documentAt (t.key (Path.ofString path)) = .ok d?) :
    (s.run t (Serve.handle (.closed uri))).1 = .ok () ∧
      s.Refreshed t (s.after t (.closed uri)) uri (Path.ofString path) := by
  have removed := ready.removeBuffer uri
  by_cases ksy : Ksy.isFile (Path.ofString path)
  · obtain ⟨d?, shown⟩ :=
      exists_shown ((s.removeBuffer uri).dropping t (Path.ofString path)).session readable
    refine refreshed_of_does ready.truthful hpath
      (fun _ => Serve.does_closed ready hpath ksy shown) (removed.released ..) ?_
      (congrArg (· ++ _) (Serve.published_followed ..)) (fun y hy => ?_)
    · intro k _ u _
      exact (mirrored_dropping (mirrored u) alone hpath ksy).congr (session_released ..)
        (buffers_released ..)
    · rw [List.mem_singleton.1 hy]
  · refine refreshed_of_does ready.truthful hpath
      (fun _ rest => (Serve.does_removeBuffer uri).bind
        ((Serve.does_release_of_not_ksy hpath ksy).bind rest)) removed
      (fun _ _ u _ => ?_) (List.append_nil _).symm nofun
    exact fun text other hbuffer => mirrored u text other (buffer?_removeBuffer hbuffer).2

lemma refreshed_changed (change : FileChange)
    (readable : ∃ d?, t.documentAt (t.key (Path.ofString path)) = .ok d?) :
    (s.run t (Serve.handle (.filesChanged [(uri, change)]))).1 = .ok () ∧
      s.Refreshed t (s.after t (.filesChanged [(uri, change)])) uri (Path.ofString path) := by
  obtain ⟨d?, shown⟩ := exists_shown s.session readable
  exact refreshed_of_does ready.truthful hpath
    (fun _ rest => (Serve.does_fileChanged hpath (.inr shown) rest).bind (Serve.does_pure ()))
    (ready.noticed _ change d?)
    (fun _ _ u _ => (mirrored u).congr (Serve.session_noticed ..) (Serve.buffers_noticed ..))
    ((Serve.published_noticed ..).trans (List.append_nil _).symm) nofun

end Events

/-- Dependents get fresh diagnostics, and nobody else is disturbed.

A server is reached from a fresh one by any events, with files that are told apart by their
signatures.  In it the store holds the documents of all open descriptions, and the content of a file
on disk can be parsed.  Then an event about the file is handled without a failure.  Afterwards the
diagnostics that were sent last for an open description that depends on the file are those that its
document has in the session as it is then, and the handler has sent diagnostics for such
descriptions and the file itself only. -/
theorem dependents_refreshed {cacheEnabled : Bool} {maxCacheSize : Int} {grammarFile? : Option Path}
    {events : List (FileTree × Event)} {path : String} {e : Event} (size : 0 ≤ maxCacheSize)
    (tellApart : FileTree.TellApart (t :: events.map Prod.fst))
    (reached : s = (start (.start cacheEnabled maxCacheSize grammarFile?)).afterAll events)
    (mirrored : ∀ u, s.Mirrored t u) (hpath : FileUri.toPath uri = .ok path)
    (readable : ∃ d?, t.documentAt (t.key (Path.ofString path)) = .ok d?)
    (concerns : s.Concerns t uri (Path.ofString path) e) :
    (s.run t (Serve.handle e)).1 = .ok () ∧
      s.Refreshed t (s.after t e) uri (Path.ofString path) := by
  have healthy : s.Healthy (t :: events.map Prod.fst) := by
    rw [reached]
    refine (healthy_start _ cacheEnabled size grammarFile?).afterAll fun x hx => ?_
    exact List.mem_cons_of_mem t (List.mem_map_of_mem hx)
  have ready := healthy.ready tellApart List.mem_cons_self
  cases concerns with
  | saved => exact refreshed_saved ready mirrored hpath
  | savedText parses alone own => exact refreshed_savedText ready mirrored hpath parses alone own
  | closed alone => exact refreshed_closed ready mirrored hpath alone readable
  | changed change => exact refreshed_changed ready mirrored hpath change readable

end Server

/-! ## A file that an open description imports -/

/-- A description that imports another one. -/
def importingSource : String :=
  "imports: f\n"

def importingGraph : Graph :=
  ⟨#[⟨.map, .mapping [(1, 2)], 0, 11⟩, ⟨.str, .scalar "imports", 0, 7⟩,
     ⟨.str, .scalar "f", 9, 10⟩], [0]⟩

lemma ofText_importingSource : Graph.ofText importingSource.toList = .ok importingGraph :=
  Yaml.Graph.ofText_eq (by decide +kernel)

lemma ofGraph_importingGraph (placeAt : ℕ → Position) :
    Node.ofGraph importingGraph placeAt [] 0 = .mapping ⟨0, 11⟩ (placeAt 0)
      [.keyValue ⟨0, 10⟩ (placeAt 0) Ksy.importsKey ⟨0, 7⟩ (.scalar ⟨9, 10⟩ (placeAt 9) "f")] := by
  have value : Node.ofGraph importingGraph placeAt [0] 2 = .scalar ⟨9, 10⟩ (placeAt 9) "f" := by
    rw [Node.ofGraph_of_notMem rfl (show 2 ∉ [0] by decide)]
    rfl
  rw [Node.ofGraph_of_notMem rfl List.not_mem_nil]
  change Node.mapping _ _ [Node.ofPair placeAt _ (Node.ofGraph importingGraph placeAt [0] 2)] = _
  rw [value]
  rfl

lemma parse_importingSource (file? : Option Path) :
    ∃ d, Document.parse importingSource file? none = .ok d ∧
      d.roots = [Node.ofGraph importingGraph (Yaml.positionAt importingSource.toList) [] 0] := by
  obtain ⟨data, made⟩ : ∃ data, importingGraph.data = .ok data :=
    exists_ok_of_isOk (by decide)
  obtain ⟨d, parsed, readable⟩ := Document.parse_of_data ofText_importingSource made file? none
  exact ⟨d, parsed, (Document.contents_of_parse ofText_importingSource parsed readable).2.1⟩

lemma parses_importingSource : Parses importingSource := by
  obtain ⟨d, parse, -⟩ := parse_importingSource none
  exact ⟨d, parse⟩

lemma plain_imported : FileTree.Plain ⟨.slash, ["f.ksy"]⟩ :=
  FileTree.plain_singleton ⟨by decide, by decide, by decide⟩ (by decide)

lemma importPath_imported : Ksy.importPath noFiles "f" (some ⟨.slash, []⟩) = "/f.ksy" := by
  have named : Ksy.importPath noFiles "f" (some ⟨.slash, []⟩) = Path.toString ⟨.slash, ["f.ksy"]⟩ :=
    Ksy.importPath_noFiles (by decide) (by decide) ⟨by decide, by decide, by decide⟩
      (by decide) (by decide)
  rw [named]
  decide

lemma includesOf_importing {d : Document} (hfile : d.file? = some ⟨.slash, ["a.ksy"]⟩)
    (roots : d.roots =
      [Node.ofGraph importingGraph (Yaml.positionAt importingSource.toList) [] 0]) :
    includesOf noFiles d = [⟨"/f.ksy", "f", ⟨9, 10⟩⟩] := by
  have isKsy : d.isKsy := by
    rw [Document.isKsy, hfile]
    change Ksy.isFile ⟨.slash, ["a.ksy"]⟩
    decide
  have directory : d.directory? = some ⟨.slash, []⟩ := by
    rw [Document.directory?, hfile]
    rfl
  rw [includesOf, if_pos isKsy, directory, Document.walk, roots, ofGraph_importingGraph,
    ← importPath_imported]
  rfl

namespace Server

lemma toPath_imported : FileUri.toPath "file:///f.ksy" = .ok "/f.ksy" := by decide +kernel

lemma index_importing : (opening importingSource).index =
    ⟨[(⟨.slash, ["a.ksy"]⟩, [⟨"/f.ksy", "f", ⟨9, 10⟩⟩])]⟩ := by
  have path : Path.ofString "/a.ksy" = ⟨.slash, ["a.ksy"]⟩ := by decide
  obtain ⟨d, parse, roots⟩ := parse_importingSource (some (Path.ofString "/a.ksy"))
  have hfile := (Document.parse_ok parse).2
  have plain := plain_opening _ toPath_opening
  rw [path] at hfile plain
  rw [(alike_opening parse).index]
  change (indexing noFiles _ d).index = _
  rw [indexing, hfile, Option.bind_some, FileTree.orderly_noFiles.indexKey?_eq plain,
    includesOf_importing hfile roots]
  rfl

lemma mem_dependents_imported :
    ⟨.slash, ["a.ksy"]⟩ ∈
      (opening importingSource).index.dependents noFiles (Path.ofString "/f.ksy") := by
  have path : Path.ofString "/f.ksy" = ⟨.slash, ["f.ksy"]⟩ := by decide
  have key : noFiles.indexKey? (Path.ofString "/f.ksy") = some ⟨.slash, ["f.ksy"]⟩ := by
    rw [path, FileTree.orderly_noFiles.indexKey?_eq plain_imported]
    rfl
  have imports : (⟨.slash, ["a.ksy"]⟩, [some ⟨.slash, ["f.ksy"]⟩]) ∈
      ((opening importingSource).index.targets noFiles).filter
        fun e => some e.1 != some ⟨.slash, ["f.ksy"]⟩ := by
    simp [index_importing, ImportIndex.targets, key]
  rw [ImportIndex.mem_dependents, key]
  exact .direct imports List.mem_cons_self

/-- When a file is saved, the open description that imports it gets fresh diagnostics. -/
theorem dependents_refreshed_importing :
    ∃ d,
      ((opening importingSource).after noFiles (.saved "file:///f.ksy" none)).session.store.answer
        noFiles (Path.ofString "/a.ksy") = .ok (some d) ∧
      ((opening importingSource).after noFiles (.saved "file:///f.ksy" none)).lastSent?
          "file:///a.ksy" =
        some (((opening importingSource).after noFiles
          (.saved "file:///f.ksy" none)).session.diagnosticsOf noFiles d) := by
  have reached : opening importingSource = (start (.start true 8 none)).afterAll
      [(noFiles, .opened "file:///a.ksy" importingSource)] := rfl
  have sound := sound_opening parses_importingSource
  have ready := sound.healthy.ready (tellApart_replicate noFiles 1) List.mem_cons_self
  obtain ⟨-, refreshed⟩ := dependents_refreshed (by decide)
    (by exact tellApart_replicate noFiles 2) reached
    sound.coherent.mirrored toPath_imported ⟨none, Ksy.documentAt_noFiles _⟩ .saved
  -- the importing description still waits for the file when that has been saved
  obtain ⟨ps, rest, -⟩ := Serve.exists_does_checks ready sound.coherent toPath_imported
  have alike : ((opening importingSource).sending ps).Alike noFiles
      ((opening importingSource).after noFiles (.saved "file:///f.ksy" none)) :=
    (Serve.does_saved toPath_imported rest _ (.refl ready.truthful)).2
  have awaits :
      ((opening importingSource).after noFiles (.saved "file:///f.ksy" none)).Awaits noFiles
        (Path.ofString "/f.ksy") "file:///a.ksy" := by
    refine ⟨⟨⟨.slash, ["a.ksy"]⟩, ?_, by decide +kernel⟩, ?_, by decide +kernel⟩
    · exact alike.index ▸ mem_dependents_imported
    · rw [alike.buffer?, buffer?_congr (buffers_sending ..), buffer?_opening parses_importingSource]
      rfl
  obtain ⟨path, d, hpath, answer, sent⟩ := refreshed.fresh _ awaits
  obtain rfl : path = "/a.ksy" := Except.ok.inj (hpath.symm.trans toPath_opening)
  exact ⟨d, answer, sent⟩

end Server

end KsyTools
