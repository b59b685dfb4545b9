/-
# The imports of a description, the same everywhere

The include index, the references, the collector of types, the links and the warnings each look for
the imports of a description on their own.  All of them find the same scalars in the same order, and
compute the same path for each of them.  Each import becomes a link if it leads to a document and a
warning if it leads nowhere, and the links and the warnings keep the order of the imports.
-/
import KsyTools.Proofs.Asked
import KsyTools.Proofs.Ksy.ExistingDocument
import KsyTools.Proofs.Ksy.Warnings
import KsyTools.Proofs.Server.Run
import KsyTools.Server.Navigation

namespace KsyTools

open DocumentStore (Steady)

namespace Ksy

/-- The imports of a document, in the order of the text. -/
def importEntries (d : Document) : List Located :=
  d.walk.filter Located.isImport

lemma forall_mem_importEntries {d : Document} {P : Located → Prop} :
    (∀ l ∈ importEntries d, P l) ↔ ∀ l ∈ d.walk, l.isImport → P l := by
  simp only [importEntries, List.mem_filter, and_imp]

/-- The scalar of a reference to a document. -/
def Reference.import? : Reference → Option Located
  | .toDocument l => some l
  | .toType .. => none

variable {t : FileTree} {s : Session} {d : Document}

/-! ## The visit of the collector -/

lemma forM_visitLocated_lift (act : Located → Work Unit) (ls : List Located) (c : Collected) :
    (ls.forM (visitLocated d fun l => liftM (act l))).run c = (do
      (ls.filter Located.isImport).forM act
      return ((), { c with types := c.types ++
        (ls.filter Located.isTypesBlock).flatMap (blockDefinitions d) })) := by
  induction ls generalizing c with
  | nil => simp [List.forM]
  | cons l rest ih =>
    have hcons (c : Collected) : ((l :: rest).forM (visitLocated d fun l => liftM (act l))).run c =
        (visitLocated d (fun l => liftM (act l)) l).run c >>= fun r =>
          (rest.forM (visitLocated d fun l => liftM (act l))).run r.2 := rfl
    rw [hcons]
    simp only [ih]
    cases himport : l.isImport with
    | true =>
      have hblock : l.isTypesBlock = false :=
        Located.isTypesBlock_eq_false_of_scalar (Located.is_scalar_of_isImport himport)
      have hfilter : (l :: rest).filter Located.isImport = l :: rest.filter Located.isImport := by
        simp [himport]
      have hact : (visitLocated d (fun l => liftM (act l)) l).run c =
          act l >>= fun a => pure (a, c) := by
        rw [visitLocated, if_pos himport]
        rfl
      rw [hact, hfilter, List.filter_cons_of_neg (by simp [hblock]), bind_assoc]
      simp only [pure_bind]
      exact (bind_assoc ..).symm
    | false =>
      have hfilter : (l :: rest).filter Located.isImport = rest.filter Located.isImport := by
        simp [himport]
      cases hblock : l.isTypesBlock with
      | true =>
        have htake : (visitLocated d (fun l => liftM (act l)) l).run c =
            pure ((), { c with types := c.types ++ blockDefinitions d l }) := by
          rw [visitLocated, if_neg (by simp [himport]), if_pos hblock]
          rfl
        rw [htake, hfilter, pure_bind, List.filter_cons_of_pos hblock, List.flatMap_cons]
        simp only [List.append_assoc]
      | false =>
        have hskip : (visitLocated d (fun l => liftM (act l)) l).run c = pure ((), c) := by
          rw [visitLocated, if_neg (by simp [himport]), if_neg (by simp [hblock])]
          rfl
        rw [hskip, hfilter, pure_bind, List.filter_cons_of_neg (by simp [hblock])]

/-- A visit acts on the imports of the document, one after the other, and takes its definitions. -/
lemma visitNodes_lift (act : Located → Work Unit) (c : Collected) :
    (visitNodes d (fun l => liftM (act l)) [] [] 0 d.roots).run c = (do
      (importEntries d).forM act
      return ((), { c with types := c.types ++ ownDefinitions d })) := by
  rw [visitNodes_eq_forM]
  exact forM_visitLocated_lift act d.walk c

/-! ## The references -/

lemma references_eq_ok_iff (hs : Steady t s.store) {rs : List Reference} :
    (s.run t (references d)).1 = .ok rs ↔
      ∃ types, ((∃ l ∈ d.walk, usesCustomType l) → (s.run t (collectTypes d)).1 = .ok types) ∧
        rs = d.walk.flatMap (referencesAt d types) := by
  have h := Session.Asked.uniform hs
  have hyields := forReferences_yields ((h.collectTypes d).yields h.start)
    (fun r => Work.Yields.pure [r]) none d.walk
  have hok (r : Reference) (_ : True) : (.ok [r] : Except Failure (List Reference)) =
      .ok ((fun r => [r]) r) := rfl
  rw [references, (hyields s h.start).1,
    throughReferences_eq_ok_iff hok fun _ h => absurd trivial h]
  simp

lemma filterMap_import? (hksy : d.isKsy) (types : List Definition) :
    (d.walk.flatMap (referencesAt d types)).filterMap Reference.import? = importEntries d := by
  have hhere (l : Located) : (referencesAt d types l).filterMap Reference.import? =
      [l].filter Located.isImport := by
    simp only [referencesAt, hksy, if_true, List.filterMap_append]
    cases himport : l.isImport <;> cases usesCustomType l <;> simp [Reference.import?, himport]
  unfold importEntries
  induction d.walk with
  | nil => rfl
  | cons l rest ih =>
    rw [List.flatMap_cons, List.filterMap_append, ih, hhere, ← List.filter_append,
      List.singleton_append]

/-- Resolving an import computes its path. -/
lemma path_of_resolveImport {text : String} {r : ResolvedImport}
    (h : (s.run t (resolveImport text d)).1 = .ok r) : r.path = importPath t text d.directory? := by
  obtain ⟨log, hrun⟩ := run_resolveImport s t text d
  obtain ⟨target?, -, hr⟩ := map_eq_ok_iff.mp ((congrArg Prod.fst hrun).symm.trans h)
  rw [← hr]

/-! ## The warnings -/

/-- Where no type is used, any types will do. -/
lemma exists_types_iff {collected : Except Failure (List Definition)} {P : Prop} :
    (∃ types, ((∃ l ∈ d.walk, usesCustomType l) → collected = .ok types) ∧ P) ↔
      ((∃ l ∈ d.walk, usesCustomType l) → ∃ types, collected = .ok types) ∧ P := by
  rw [exists_and_right]
  refine and_congr_left fun _ => ⟨fun ⟨types, htypes⟩ huses => ⟨types, htypes huses⟩, fun h => ?_⟩
  by_cases huses : ∃ l ∈ d.walk, usesCustomType l
  · obtain ⟨types, htypes⟩ := h huses
    exact ⟨types, fun _ => htypes⟩
  · exact ⟨[], fun huses' => absurd huses' huses⟩

/-- When the references of a description can be checked. -/
lemma exists_validateReferences_iff {kind : Session → Prop} (h : s.Uniform t kind) (hksy : d.isKsy)
    (hread : d.failure? = none) :
    (∃ issues, (s.run t (validateReferences d)).1 = .ok issues) ↔
      ((∃ l ∈ d.walk, usesCustomType l) → ∃ types, (s.run t (collectTypes d)).1 = .ok types) ∧
        ∀ l ∈ importEntries d, Followable t s d l := by
  rw [forall_mem_importEntries, ← exists_types_iff]
  simp only [validateReferences_eq_ok_iff h hksy hread]
  rw [exists_comm]
  simp

lemma filter_warningsAt (types : List Definition) (ls : List Located) :
    (ls.flatMap (warningsAt t s d types)).filter Issue.isDanglingImport =
      ((ls.filter Located.isImport).filter fun l => !importFound t s d l).map
        (importWarning t d) := by
  induction ls with
  | nil => rfl
  | cons l rest ih =>
    rw [List.flatMap_cons, List.filter_append, ih]
    unfold warningsAt
    cases himport : l.isImport <;> cases hfound : importFound t s d l <;>
      cases usesCustomType l <;> cases typeFound types l.node.text <;> simp [himport, hfound]

/-- The documents that imports lead to belong to files if those of the store do. -/
lemma file_of_importedDocument (hfiled : s.store.Filed) {l : Located} {target : Document}
    (h : importedDocument t s d l = .ok (some target)) : ∃ file, target.file? = some file := by
  rw [importedDocument_eq] at h
  rcases importAnswer_cases t s.store l.node.text d with ha | ha
  · rw [ha] at h
    exact hfiled.answer h
  · simp [ha, Except.map] at h

end Ksy

/-! ## The links -/

namespace Serve

variable {t : FileTree} {s₀ s : Session} {kind : Session → Prop} {d : Document}

/-- What asking for the URI of a document gives. -/
def uriResult (d : Document) : Except Failure (Option String) :=
  match d.file? with
  | none => .ok none
  | some file => ((FileUri.ofPath file).mapError Failure.address).map some

lemma uriOfDocument?_yields (d : Document) : (uriOfDocument? d).Yields t kind (uriResult d) := by
  unfold uriOfDocument? uriResult
  cases d.file? with
  | none => exact .pure none
  | some file =>
    simp only
    cases FileUri.ofPath file with
    | ok uri => exact .pure (some uri)
    | error fault => exact .throw (.address fault)

/-- The link of an import, if the document that it leads to has the given URI. -/
def linkTo (t : FileTree) (d : Document) (l : Located) (uri : String) : DocumentLink :=
  ⟨d.extent l.node.range, uri, Ksy.importPath t l.node.text d.directory?⟩

/-- The links of an import, given the document that it leads to. -/
def linksTo (t : FileTree) (d : Document) (l : Located) :
    Option Document → Except Failure (List DocumentLink)
  | none => .ok []
  | some target => (uriResult target).map fun uri? => (uri?.map (linkTo t d l)).toList

/-- What looking for the link of a reference gives. -/
def linkResult (t : FileTree) (s : Session) (d : Document) :
    Ksy.Reference → Except Failure (List DocumentLink)
  | .toType .. => .ok []
  | .toDocument l => Ksy.importedDocument t s d l >>= linksTo t d l

lemma linkOf_yields (h : s₀.Uniform t kind) (d : Document) (r : Ksy.Reference) :
    (linkOf d r).Yields t kind (linkResult t s₀ d r) := by
  cases r with
  | toType l types => exact .pure []
  | toDocument l =>
    rw [linkOf, linkResult]
    refine h.resolveImport_bind (g := linksTo t d l) d l fun target? _ => ?_
    cases target? with
    | none => exact .pure []
    | some target =>
      have hlinks : linksTo t d l (some target.document) =
          uriResult target.document >>= fun uri? => .ok (uri?.map (linkTo t d l)).toList := by
        rw [linksTo]
        cases uriResult target.document <;> rfl
      rw [Option.map_some, hlinks]
      refine (uriOfDocument?_yields target.document).bind fun uri? _ => ?_
      cases uri? with
      | none => exact .pure []
      | some uri =>
        let link (path : String) : List DocumentLink := [⟨d.extent l.node.range, uri, path⟩]
        exact (h.computeImportPath l.node.text d).bind (g := fun path => .ok (link path))
          fun path _ => .pure (link path)

/-- A link can be made of an import, or there is none to be made: the import can be followed, and
the path of the document that it leads to does not depend on a current directory. -/
def Linkable (t : FileTree) (s : Session) (d : Document) (l : Located) : Prop :=
  ∃ target?, Ksy.importedDocument t s d l = .ok target? ∧
    ∀ target ∈ target?, ∀ file, target.file? = some file → file.isAbsolute

/-- A link is that of an import: it stands where the import stands, names the path of the import,
and leads to the file of the document that the import leads to. -/
def LinksTo (t : FileTree) (s : Session) (d : Document) (l : Located) (link : DocumentLink) :
    Prop :=
  link.extent = d.extent l.node.range ∧ link.tooltip = Ksy.importPath t l.node.text d.directory? ∧
    ∃ target file, Ksy.importedDocument t s d l = .ok (some target) ∧ target.file? = some file ∧
      FileUri.ofPath file = .ok link.target

/-- The URI of the document that an import leads to. -/
def targetUri? (t : FileTree) (s : Session) (d : Document) (l : Located) : Option String :=
  (Ksy.importedDocument t s d l).toOption.join.bind fun target => (uriResult target).toOption.join

/-- The links of an import: one, if it leads to a document with a URI. -/
def linksAt (t : FileTree) (s : Session) (d : Document) (l : Located) : List DocumentLink :=
  ((targetUri? t s d l).map (linkTo t d l)).toList

/-- The links of a reference. -/
def referenceLinks (t : FileTree) (s : Session) (d : Document) : Ksy.Reference → List DocumentLink
  | .toDocument l => linksAt t s d l
  | .toType .. => []

/-- A link can be made of a reference, or there is none to be made. -/
def ReferenceLinkable (t : FileTree) (s : Session) (d : Document) : Ksy.Reference → Prop
  | .toDocument l => Linkable t s d l
  | .toType .. => True

lemma uriResult_eq_error {d : Document} {file : Path} (hfile : d.file? = some file)
    (h : ¬file.isAbsolute) : uriResult d = .error (.address .relativePath) := by
  rw [uriResult, hfile]
  simp [FileUri.ofPath, h, Except.mapError, Except.map]

lemma uriResult_eq_ok {d : Document} (h : ∀ file, d.file? = some file → file.isAbsolute) :
    ∃ uri?, uriResult d = .ok uri? ∧
      ∀ file, d.file? = some file → ∃ uri, uri? = some uri ∧ FileUri.ofPath file = .ok uri := by
  unfold uriResult
  cases hfile : d.file? with
  | none => exact ⟨none, rfl, nofun⟩
  | some file =>
    have habsolute := h file hfile
    refine ⟨_, by simp [FileUri.ofPath, habsolute, Except.mapError, Except.map]; rfl, ?_⟩
    rintro _ ⟨⟩
    exact ⟨_, rfl, by rw [FileUri.ofPath, if_pos habsolute]⟩

lemma linkResult_of_linkable (r : Ksy.Reference) (h : ReferenceLinkable t s d r) :
    linkResult t s d r = .ok (referenceLinks t s d r) := by
  cases r with
  | toType l types => rfl
  | toDocument l =>
    obtain ⟨target?, htarget, habsolute⟩ := h
    rw [linkResult, referenceLinks, linksAt, targetUri?, htarget]
    cases target? with
    | none => rfl
    | some target =>
      obtain ⟨uri?, huri, -⟩ := uriResult_eq_ok (habsolute target rfl)
      change (uriResult target).map _ = _
      simp [huri, Except.map, Except.toOption]

lemma linkResult_of_not_linkable (r : Ksy.Reference) (h : ¬ReferenceLinkable t s d r) :
    ∃ e, linkResult t s d r = .error e := by
  cases r with
  | toType l types => exact absurd trivial h
  | toDocument l =>
    rw [linkResult]
    cases himported : Ksy.importedDocument t s d l with
    | error e => exact ⟨e, rfl⟩
    | ok target? =>
      -- the import can be followed, so it is the path of its target that is relative
      have hrelative : ∃ target file, target? = some target ∧ target.file? = some file ∧
          ¬file.isAbsolute := by
        by_contra hall
        push Not at hall
        exact h ⟨target?, himported, fun target htarget file => hall target file htarget⟩
      obtain ⟨target, file, rfl, hfile, hrelative⟩ := hrelative
      refine ⟨.address .relativePath, ?_⟩
      change (uriResult target).map _ = _
      rw [uriResult_eq_error hfile hrelative]
      rfl

lemma flatMap_referenceLinks (hksy : d.isKsy) (types : List Ksy.Definition) (ls : List Located) :
    (ls.flatMap fun l => (Ksy.referencesAt d types l).flatMap (referenceLinks t s d)) =
      (ls.filter Located.isImport).flatMap (linksAt t s d) := by
  induction ls with
  | nil => simp
  | cons l rest ih =>
    rw [List.flatMap_cons, ih, Ksy.referencesAt, if_pos hksy]
    cases himport : l.isImport <;> cases Ksy.usesCustomType l <;>
      simp [himport, referenceLinks]

lemma linksTo_linkTo {l : Located} {target : Document} {file : Path} {uri : String}
    (htarget : Ksy.importedDocument t s d l = .ok (some target)) (hfile : target.file? = some file)
    (huri : FileUri.ofPath file = .ok uri) : LinksTo t s d l (linkTo t d l uri) := by
  simp only [LinksTo, linkTo, true_and]
  exact ⟨target, file, htarget, hfile, huri⟩

/-- The imports that lead to documents have a link each. -/
lemma forall₂_linksTo (hfiled : s.store.Filed) {ls : List Located}
    (h : ∀ l ∈ ls, Linkable t s d l) :
    List.Forall₂ (LinksTo t s d) (ls.filter (Ksy.importFound t s d))
      (ls.flatMap (linksAt t s d)) := by
  induction ls with
  | nil => exact .nil
  | cons l rest ih =>
    have hrest := ih fun l' hl' => h l' (List.mem_cons_of_mem _ hl')
    obtain ⟨target?, htarget, habsolute⟩ := h l List.mem_cons_self
    have hfound := Ksy.importFound_of_ok htarget
    cases target? with
    | none =>
      have hnone : linksAt t s d l = [] := by
        rw [linksAt, targetUri?, htarget]
        rfl
      rw [List.filter_cons_of_neg (by simp [hfound]), List.flatMap_cons, hnone, List.nil_append]
      exact hrest
    | some target =>
      obtain ⟨file, hfile⟩ := Ksy.file_of_importedDocument hfiled htarget
      obtain ⟨uri?, huri, hof⟩ := uriResult_eq_ok (habsolute target rfl)
      obtain ⟨uri, rfl, hfileUri⟩ := hof file hfile
      have hone : linksAt t s d l = [linkTo t d l uri] := by
        rw [linksAt, targetUri?, htarget]
        change ((uriResult target).toOption.join.map _).toList = _
        rw [huri]
        rfl
      rw [List.filter_cons_of_pos (by simp [hfound]), List.flatMap_cons, hone,
        List.singleton_append]
      exact .cons (linksTo_linkTo htarget hfile hfileUri) hrest

/-- Asking for the document of a URI leaves a session behind that was only asked. -/
lemma asked_documentOf (server : Server) (uri : String) :
    server.session.Asked t (server.run t (documentOf uri)).2.session := by
  unfold documentOf pathOf
  cases FileUri.toPath uri with
  | error fault => exact .refl t server.session
  | ok path =>
    simp only [pure_bind]
    have hasked : server.session.Asked t
        (server.session.run t (Work.getDocument (Path.ofString path))).2 := by
      rw [Session.run_getDocument]
      exact (Session.Asked.refl t server.session).lookups (.get _ .refl) rfl rfl
    rw [Server.run_bind, Server.run_work]
    rcases hrun : server.session.run t (Work.getDocument (Path.ofString path)) with ⟨_ | _, _⟩
    all_goals
      rw [hrun] at hasked
      exact hasked

/-- When the links of a document can be given, and what they are. -/
lemma links_eq_ok_iff {server : Server} {uri : String} (hs : Steady t server.session.store)
    (hd : (server.run t (documentOf uri)).1 = .ok (some d)) (hksy : d.isKsy)
    {links : List DocumentLink} :
    (server.run t (Serve.links uri)).1 = .ok links ↔
      ∃ types, ((∃ l ∈ d.walk, Ksy.usesCustomType l) →
          (server.session.run t (Ksy.collectTypes d)).1 = .ok types) ∧
        (∀ l ∈ d.walk, l.isImport → Linkable t server.session d l) ∧
        links = (Ksy.importEntries d).flatMap (linksAt t server.session d) := by
  have h := Session.Asked.uniform hs
  have hasked := asked_documentOf (t := t) server uri
  have hyields := Ksy.forReferences_yields ((h.collectTypes d).yields h.start)
    (linkOf_yields h d) none d.walk
  rcases hrun : server.run t (documentOf uri) with ⟨r, server'⟩
  rw [hrun] at hd hasked
  obtain rfl : r = .ok (some d) := hd
  rw [Serve.links, Server.run_bind, hrun]
  simp only [Server.run_work]
  rw [(hyields server'.session hasked).1,
    Ksy.throughReferences_eq_ok_iff linkResult_of_linkable linkResult_of_not_linkable]
  simp only [flatMap_referenceLinks hksy]
  refine exists_congr fun types => and_congr_right fun _ => and_congr_left fun _ => ?_
  refine forall₂_congr fun l _ => ?_
  rw [Ksy.referencesAt, if_pos hksy]
  cases l.isImport <;> cases Ksy.usesCustomType l <;> simp [ReferenceLinkable]

end Serve

open Ksy (importEntries importFound importPath Followable usesCustomType)

/-- The imports of a document are the same everywhere, and each of them is accounted for. -/
structure ImportsAgree (t : FileTree) (server : Server) (uri : String) (d : Document) : Prop where
  /-- The include index has the imports of the document, with their paths. -/
  includes : (server.session.run t (Ksy.includes d)).1 =
    .ok ((importEntries d).map fun l =>
      ⟨importPath t l.node.text d.directory?, l.node.text, l.node.range⟩)
  /-- The references to documents are those of the imports. -/
  references : ∀ rs, (server.session.run t (Ksy.references d)).1 = .ok rs →
    rs.filterMap Ksy.Reference.import? = importEntries d
  /-- The visit of the collector acts on the imports. -/
  visited : ∀ (act : Located → Work Unit) (c : Ksy.Collected),
    (Ksy.visitNodes d (fun l => liftM (act l)) [] [] 0 d.roots).run c = (do
      (importEntries d).forM act
      return ((), { c with types := c.types ++ Ksy.ownDefinitions d }))
  /-- Whoever resolves an import computes the same path for it. -/
  paths : ∀ l ∈ importEntries d,
    (server.session.run t (Ksy.computeImportPath l.node.text d)).1 =
        .ok (importPath t l.node.text d.directory?) ∧
      ∀ r, (server.session.run t (Ksy.resolveImport l.node.text d)).1 = .ok r →
        r.path = importPath t l.node.text d.directory?
  /-- The imports that lead to documents have a link each, in their order. -/
  links : ∀ links, (server.run t (Serve.links uri)).1 = .ok links →
    List.Forall₂ (Serve.LinksTo t server.session d)
      ((importEntries d).filter (importFound t server.session d)) links
  /-- The other imports have a warning each, in their order. -/
  warnings : ∀ issues, (server.session.run t (Ksy.validateReferences d)).1 = .ok issues →
    issues.filter Issue.isDanglingImport =
      ((importEntries d).filter fun l => !importFound t server.session d l).map
        (Ksy.importWarning t d)
  /-- The references can be given exactly if the types can be collected where one is used. -/
  referencesGiven : (∃ rs, (server.session.run t (Ksy.references d)).1 = .ok rs) ↔
    ((∃ l ∈ d.walk, usesCustomType l) →
      ∃ types, (server.session.run t (Ksy.collectTypes d)).1 = .ok types)
  /-- The warnings can be given exactly if, besides, every import can be followed. -/
  warningsGiven : (∃ issues, (server.session.run t (Ksy.validateReferences d)).1 = .ok issues) ↔
    ((∃ l ∈ d.walk, usesCustomType l) →
        ∃ types, (server.session.run t (Ksy.collectTypes d)).1 = .ok types) ∧
      ∀ l ∈ importEntries d, Followable t server.session d l
  /-- The links can be given exactly if, besides, no import leads to a relative path. -/
  linksGiven : (∃ links, (server.run t (Serve.links uri)).1 = .ok links) ↔
    ((∃ l ∈ d.walk, usesCustomType l) →
        ∃ types, (server.session.run t (Ksy.collectTypes d)).1 = .ok types) ∧
      ∀ l ∈ importEntries d, Serve.Linkable t server.session d l

/-- Every import of a description is accounted for exactly once, and in the same way everywhere.

This holds for every description that the store gives for a URI, as long as the answers of the store
stay the same and its documents belong to files. -/
theorem imports_agree {t : FileTree} {server : Server} {uri : String} {d : Document}
    (hs : Steady t server.session.store) (hfiled : server.session.store.Filed)
    (hd : (server.run t (Serve.documentOf uri)).1 = .ok (some d)) (hksy : d.isKsy)
    (hread : d.failure? = none) : ImportsAgree t server uri d := by
  have h := Session.Asked.uniform hs
  exact {
    includes := by
      obtain ⟨log, hrun⟩ := Ksy.run_includes server.session t d
      rw [hrun, Ksy.includesOf, if_pos hksy]
      rfl
    references := by
      intro rs hrs
      obtain ⟨types, -, rfl⟩ := (Ksy.references_eq_ok_iff hs).mp hrs
      exact Ksy.filterMap_import? hksy types
    visited := Ksy.visitNodes_lift
    paths := by
      intro l _
      exact ⟨(h.computeImportPath l.node.text d _ h.start).1, fun r => Ksy.path_of_resolveImport⟩
    links := by
      intro links hlinks
      obtain ⟨types, -, hlinkable, rfl⟩ := (Serve.links_eq_ok_iff hs hd hksy).mp hlinks
      exact Serve.forall₂_linksTo hfiled (Ksy.forall_mem_importEntries.mpr hlinkable)
    warnings := by
      intro issues hissues
      obtain ⟨types, -, -, rfl⟩ := (Ksy.validateReferences_eq_ok_iff h hksy hread).mp hissues
      exact Ksy.filter_warningsAt types d.walk
    referencesGiven := by
      rw [← and_true (_ → _), ← Ksy.exists_types_iff]
      simp only [Ksy.references_eq_ok_iff hs, and_true]
      rw [exists_comm]
      simp
    warningsGiven := Ksy.exists_validateReferences_iff h hksy hread
    linksGiven := by
      rw [Ksy.forall_mem_importEntries, ← Ksy.exists_types_iff]
      simp only [Serve.links_eq_ok_iff hs hd hksy]
      rw [exists_comm]
      simp }

/-! ## A description with an import that leads nowhere -/

open FileTree (noFiles)

namespace Ksy

/-- A description that imports two others and uses a type. -/
def readerText : Document where
  source := "imports: [b, c]\ntype: foo\n"
  file? := some ⟨.slash, ["a.ksy"]⟩
  name := "a.ksy"
  roots := [.mapping ⟨0, 26⟩ ⟨0, 0⟩
    [.keyValue ⟨0, 15⟩ ⟨0, 0⟩ importsKey ⟨0, 7⟩
        (.sequence ⟨9, 15⟩ ⟨0, 9⟩
          [.scalar ⟨10, 11⟩ ⟨0, 10⟩ "b", .scalar ⟨13, 14⟩ ⟨0, 13⟩ "c"]),
      .keyValue ⟨16, 25⟩ ⟨1, 0⟩ typeKey ⟨16, 20⟩ (.scalar ⟨22, 25⟩ ⟨1, 6⟩ "foo")]]
  data := []
  failure? := none

/-- A server to which this description is open and one of the two that it imports, which defines the
type and imports the description in turn. -/
def reader : Server :=
  .start { Session.start true 8 none with
    store := { DocumentStore.empty true 8 with
      overlays := [(⟨.slash, ["a.ksy"]⟩, ⟨0, readerText⟩),
        (⟨.slash, ["b.ksy"]⟩, ⟨1, crossText "b.ksy" "a" "foo"⟩)] } }

lemma truthful_reader : reader.session.store.Truthful noFiles :=
  ⟨fun _ => by decide, fun _ he => absurd he List.not_mem_nil⟩

lemma filed_reader : reader.session.store.Filed := by
  refine ⟨fun o ho => ?_, fun _ he => absurd he List.not_mem_nil⟩
  simp only [reader, Server.start, List.mem_cons, List.not_mem_nil, or_false] at ho
  rcases ho with rfl | rfl <;> rfl

lemma directory?_reader : readerText.directory? = some ⟨.slash, []⟩ := by decide

/-- Where there are no files, an import leads to the text that is open under its path, or
nowhere. -/
lemma importedDocument_noFiles {s : Session} (hs : s.store.Truthful noFiles) (d : Document)
    (l : Located) :
    importedDocument noFiles s d l = .ok ((s.store.overlay? (noFiles.key (Path.ofString
      (importPath noFiles l.node.text d.directory?)))).map StoredDocument.document) := by
  rw [importedDocument_eq, importAnswer]
  generalize importPath noFiles l.node.text d.directory? = path
  cases ho : s.store.overlay? (noFiles.key (Path.ofString path)) with
  | some o =>
    have hfound : (s.store.findFile noFiles (Path.ofString path) (Text.quote path)).1 =
        some (Path.ofString path) := by
      simp [DocumentStore.findFile, DocumentStore.hasOverlay, ho]
    rw [hfound]
    dsimp only
    rw [DocumentStore.get_of_overlay ho]
    rfl
  | none =>
    have hanswer := (DocumentStore.get_of_current hs.1 ho fun e he _ => hs.2 e he).1
    rw [documentAt_noFiles] at hanswer
    split
    · exact hanswer
    · rfl

lemma importedDocument_reader (l : Located) (text name : String) (htext : l.node.text = text)
    (hpath : importPath noFiles text (some ⟨.slash, []⟩) = Path.toString ⟨.slash, [name]⟩)
    (hwritten : Path.ofString (Path.toString ⟨.slash, [name]⟩) = ⟨.slash, [name]⟩)
    (hdots : name ≠ "..") :
    importedDocument noFiles reader.session readerText l =
      .ok ((reader.session.store.overlay? ⟨.slash, [name]⟩).map StoredDocument.document) := by
  have hkey : noFiles.key ⟨.slash, [name]⟩ = ⟨.slash, [name]⟩ := by
    simp [FileTree.key, Path.absolute, Path.join, Path.isAbsolute, Path.dropDots, hdots]
  rw [importedDocument_noFiles truthful_reader, htext, directory?_reader, hpath, hwritten, hkey]

/-- The imports of the description. -/
def readerImport (text : String) (start : ℤ) (i : ℕ) : Located :=
  ⟨.scalar ⟨start, start + 1⟩ ⟨0, start.toNat⟩ text,
    [.sequence ⟨9, 15⟩ ⟨0, 9⟩ [.scalar ⟨10, 11⟩ ⟨0, 10⟩ "b", .scalar ⟨13, 14⟩ ⟨0, 13⟩ "c"],
      .keyValue ⟨0, 15⟩ ⟨0, 0⟩ importsKey ⟨0, 7⟩ (.sequence ⟨9, 15⟩ ⟨0, 9⟩
        [.scalar ⟨10, 11⟩ ⟨0, 10⟩ "b", .scalar ⟨13, 14⟩ ⟨0, 13⟩ "c"]),
      readerText.roots.head!], [i, 0, 0, 0]⟩

lemma importEntries_reader :
    importEntries readerText = [readerImport "b" 10 0, readerImport "c" 13 1] := by
  rfl

lemma importFound_reader_b :
    importFound noFiles reader.session readerText (readerImport "b" 10 0) := by
  have hb := importedDocument_reader (readerImport "b" 10 0) "b" "b.ksy" rfl
    (importPath_noFiles (by decide) (by decide) ⟨by decide, by decide, by decide⟩
      (by decide) (by decide)) (by decide) (by decide)
  rw [importFound_of_ok hb]
  rfl

lemma importFound_reader_c :
    importFound noFiles reader.session readerText (readerImport "c" 13 1) = false := by
  have hc := importedDocument_reader (readerImport "c" 13 1) "c" "c.ksy" rfl
    (importPath_noFiles (by decide) (by decide) ⟨by decide, by decide, by decide⟩
      (by decide) (by decide)) (by decide) (by decide)
  rw [importFound_of_ok hc]
  rfl

lemma collectTypes_reader :
    ∃ types, (reader.session.run noFiles (collectTypes readerText)).1 = .ok types := by
  rw [run_collectTypes (by decide)]
  cases hrun : (reader.session.run noFiles (walkImports readerText)).1 with
  | ok c => exact ⟨c.types, rfl⟩
  | error e =>
    obtain ⟨x, l, -, -, -, hfail⟩ := failure_of_run truthful_reader.steady hrun
    rw [importedDocument_noFiles truthful_reader] at hfail
    cases hfail

lemma documentOf_reader :
    (reader.run noFiles (Serve.documentOf "file:///a.ksy")).1 = .ok (some readerText) := by
  have hpath : FileUri.toPath "file:///a.ksy" = .ok "/a.ksy" := by decide +kernel
  have hkey : noFiles.key (Path.ofString "/a.ksy") = ⟨.slash, ["a.ksy"]⟩ := by decide
  have hoverlay : reader.session.store.overlay? (noFiles.key (Path.ofString "/a.ksy")) =
      some ⟨0, readerText⟩ := by
    rw [hkey]
    rfl
  rw [Serve.documentOf, Serve.pathOf, hpath]
  simp only [pure_bind]
  rw [Server.run_bind, Server.run_work, Session.run_getDocument,
    DocumentStore.get_of_overlay hoverlay]
  rfl

end Ksy

lemma linkable_reader (d : Document) (l : Located) :
    Serve.Linkable noFiles Ksy.reader.session d l := by
  refine ⟨_, Ksy.importedDocument_noFiles Ksy.truthful_reader d l,
    fun target htarget file hfile => ?_⟩
  obtain ⟨o, ho, rfl⟩ := Option.map_eq_some_iff.mp htarget
  have hmem := Keyed.mem_of_lookup ho
  simp only [Ksy.reader, Server.start, List.mem_cons, Prod.mk.injEq, List.not_mem_nil,
    or_false] at hmem
  rcases hmem with ⟨-, rfl⟩ | ⟨-, rfl⟩
  · obtain rfl : ⟨.slash, ["a.ksy"]⟩ = file := Option.some.inj hfile
    rfl
  · obtain rfl : ⟨.slash, ["b.ksy"]⟩ = file := Option.some.inj hfile
    rfl

open Ksy (reader readerText) in
/-- One of the two imports of the description is a link, the other one has a warning. -/
theorem imports_agree_reader :
    Steady noFiles reader.session.store ∧ reader.session.store.Filed ∧
      (reader.run noFiles (Serve.documentOf "file:///a.ksy")).1 = .ok (some readerText) ∧
      readerText.isKsy ∧ readerText.failure? = none ∧
      ∃ links issues, (reader.run noFiles (Serve.links "file:///a.ksy")).1 = .ok links ∧
        (reader.session.run noFiles (Ksy.validateReferences readerText)).1 = .ok issues ∧
        links.length = 1 ∧ (issues.filter Issue.isDanglingImport).length = 1 := by
  have hsteady := Ksy.truthful_reader.steady
  have hksy : readerText.isKsy := by decide
  have agree := imports_agree hsteady Ksy.filed_reader Ksy.documentOf_reader hksy rfl
  have hlinkable (l : Located) := linkable_reader readerText l
  obtain ⟨links, hlinks⟩ := agree.linksGiven.mpr
    ⟨fun _ => Ksy.collectTypes_reader, fun l _ => hlinkable l⟩
  obtain ⟨issues, hissues⟩ := agree.warningsGiven.mpr
    ⟨fun _ => Ksy.collectTypes_reader, fun l _ => ⟨_, (hlinkable l).choose_spec.1⟩⟩
  refine ⟨hsteady, Ksy.filed_reader, Ksy.documentOf_reader, hksy, rfl, links, issues, hlinks,
    hissues, ?_, ?_⟩
  · rw [← (agree.links links hlinks).length_eq, Ksy.importEntries_reader]
    simp [Ksy.importFound_reader_b, Ksy.importFound_reader_c]
  · rw [agree.warnings issues hissues, Ksy.importEntries_reader]
    simp [Ksy.importFound_reader_b, Ksy.importFound_reader_c]

end KsyTools
