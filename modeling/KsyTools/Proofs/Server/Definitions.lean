/-
# Definitions and warnings tell the same story

An editor can ask where the reference at a place leads, and it is shown warnings about references
that lead nowhere.  The two look for references on different ways: one of them by the position of
the cursor, the other one through all nodes.  At every scalar they agree: at an import there is a
place to go to exactly if there is no warning about it, and at the use of a type there is one only
if the type is not unknown.
-/
import KsyTools.Proofs.Document.Offsets
import KsyTools.Proofs.Server.ImportEntries

namespace KsyTools

open DocumentStore (Steady)

/-! ## What an editor asks for -/

namespace Server

/-- What asking for the definition at an offset of a document gives. -/
def definitionAt (t : FileTree) (server : Server) (uri : String) (d : Document) (o : ℤ) :
    Except Failure (Option Location) :=
  (server.run t (Serve.definition uri (d.position o).place)).1

/-- What checking the references of a document gives. -/
def referenceIssues (t : FileTree) (server : Server) (d : Document) : Except Failure (List Issue) :=
  (server.session.run t (Ksy.validateReferences d)).1

/-- What collecting the types that are visible in a document gives. -/
def visibleTypes (t : FileTree) (server : Server) (d : Document) :
    Except Failure (List Ksy.Definition) :=
  (server.session.run t (Ksy.collectTypes d)).1

end Server

/-- A place is in the file of a document. -/
def Location.IsIn (location : Location) (d : Document) (extent : Extent) : Prop :=
  location.extent = extent ∧ ∃ file, d.file? = some file ∧ FileUri.ofPath file = .ok location.uri

/-- The documents that a store gives have paths that do not depend on a current directory. -/
def DocumentStore.AbsoluteFiles (t : FileTree) (s : DocumentStore) : Prop :=
  ∀ p d, s.answer t p = .ok (some d) → ∀ file, d.file? = some file → file.isAbsolute

/-- A document belongs to a file with a path that does not depend on a current directory. -/
def Document.HasAbsoluteFile (d : Document) : Prop :=
  ∃ file, d.file? = some file ∧ file.isAbsolute

/-! ## The documents that references lead to -/

section Files

variable {t : FileTree} {s : Session} {d : Document}

lemma Ksy.hasAbsoluteFile_of_importedDocument (hfiled : s.store.Filed)
    (habsolute : s.store.AbsoluteFiles t) {l : Located} {target : Document}
    (h : importedDocument t s d l = .ok (some target)) : target.HasAbsoluteFile := by
  obtain ⟨file, hfile⟩ := file_of_importedDocument hfiled h
  rw [importedDocument_eq] at h
  rcases importAnswer_cases t s.store l.node.text d with ha | ha
  · rw [ha] at h
    exact ⟨file, hfile, habsolute _ _ h file hfile⟩
  · simp [ha, Except.map] at h

/-- The definitions that are visible in a document stand in files. -/
lemma Ksy.hasAbsoluteFile_of_mem_types (hs : Steady t s.store) (hfiled : s.store.Filed)
    (habsolute : s.store.AbsoluteFiles t) (hd : d.HasAbsoluteFile) (hksy : d.isKsy)
    {types : List Definition} (htypes : (s.run t (collectTypes d)).1 = .ok types) {x : Definition}
    (hx : x ∈ types) : x.document.HasAbsoluteFile ∧ x.located.node.is .keyValue := by
  rw [run_collectTypes hksy] at htypes
  obtain ⟨c, hrun, rfl⟩ := map_eq_ok_iff.mp htypes
  obtain ⟨entered, -, hp⟩ := progress_of_run hs hrun
  obtain ⟨hentered, -, hkey, -⟩ := hp.mem_types.mp hx
  refine ⟨?_, hkey⟩
  cases hp.reached _ hentered with
  | start => exact hd
  | step _ _ _ htarget _ => exact hasAbsoluteFile_of_importedDocument hfiled habsolute htarget

lemma Serve.answer_of_documentOf {server : Server} {uri : String}
    (h : (server.run t (documentOf uri)).1 = .ok (some d)) :
    ∃ p, server.session.store.answer t p = .ok (some d) := by
  unfold documentOf pathOf at h
  cases hpath : FileUri.toPath uri with
  | error fault =>
    rw [hpath] at h
    cases h
  | ok path =>
    refine ⟨Path.ofString path, ?_⟩
    simp only [hpath, pure_bind] at h
    rw [Server.run_bind, Server.run_work, Session.run_getDocument] at h
    rw [DocumentStore.answer]
    cases hget : (server.session.store.get t (Path.ofString path)).result with
    | error e =>
      rw [hget] at h
      cases h
    | ok found =>
      rw [hget] at h
      exact h

end Files

namespace Serve

variable {t : FileTree} {s₀ : Session} {kind : Session → Prop} {d : Document}

/-! ## The place that a reference leads to -/

/-- What looking for a place in a document gives. -/
def placeIn (d : Document) (extent : Extent) : Except Failure (Option Location) :=
  (uriResult d).map (Option.map fun uri => ⟨uri, extent⟩)

lemma placeIn_eq_ok (h : d.HasAbsoluteFile) (extent : Extent) :
    ∃ location : Location, placeIn d extent = .ok (some location) ∧ location.IsIn d extent := by
  obtain ⟨file, hfile, habsolute⟩ := h
  have hall : ∀ file', d.file? = some file' → file'.isAbsolute := by
    intro file' hfile'
    rwa [← Option.some.inj (hfile.symm.trans hfile')]
  obtain ⟨uri?, huri, hof⟩ := uriResult_eq_ok hall
  obtain ⟨uri, rfl, hfileUri⟩ := hof file hfile
  exact ⟨⟨uri, extent⟩, by rw [placeIn, huri]; rfl, rfl, file, hfile, hfileUri⟩

/-- What looking for the place that an import leads to gives: the start of the document. -/
def importPlace : Option Document → Except Failure (Option Location)
  | none => .ok none
  | some target => placeIn target startExtent

/-- What looking for the place that the use of a type leads to gives: the name in the definition. -/
def definitionPlace : Option Ksy.Definition → Except Failure (Option Location)
  | none => .ok none
  | some x => placeIn x.document (x.document.extent x.located.node.nameRange)

/-- What looking for the place that a reference leads to gives. -/
def locationResult (t : FileTree) (s : Session) (d : Document) :
    Ksy.Reference → Except Failure (Option Location)
  | .toDocument l => Ksy.importedDocument t s d l >>= importPlace
  | .toType l types => definitionPlace (Ksy.findDefinition? types l.node.text)

lemma placeIn_yields (target : Document) (extent : Extent) :
    Work.Yields t kind (do
      return (← uriOfDocument? target).map fun uri => (⟨uri, extent⟩ : Location))
      (placeIn target extent) := by
  have hplace : placeIn target extent =
      uriResult target >>= fun uri? => .ok (uri?.map fun uri => ⟨uri, extent⟩) := by
    rw [placeIn]
    cases uriResult target <;> rfl
  rw [hplace]
  let place (uri? : Option String) : Option Location := uri?.map fun uri => ⟨uri, extent⟩
  exact (uriOfDocument?_yields target).bind fun uri? _ => .pure (place uri?)

lemma locationOf_yields (h : s₀.Uniform t kind) (d : Document) (r : Ksy.Reference) :
    (locationOf d r).Yields t kind (locationResult t s₀ d r) := by
  cases r with
  | toDocument l =>
    rw [locationOf, locationResult]
    refine h.resolveImport_bind (g := importPlace) d l fun target? _ => ?_
    cases target? with
    | none => exact .pure none
    | some target => exact placeIn_yields target.document startExtent
  | toType l types =>
    rw [locationOf, locationResult]
    change Work.Yields t kind (match Ksy.findDefinition? types l.node.text with
      | none => return none
      | some x => do
        return (← uriOfDocument? x.document).map fun uri =>
          (⟨uri, x.document.extent x.located.node.nameRange⟩ : Location)) _
    cases Ksy.findDefinition? types l.node.text with
    | none => exact .pure none
    | some x => exact placeIn_yields x.document (x.document.extent x.located.node.nameRange)

/-! ## The reference at an offset -/

/-- What looking for the reference of a node gives. -/
def referenceResult (d : Document) (collected : Except Failure (List Ksy.Definition))
    (l : Located) :
    Except Failure (Option Ksy.Reference) :=
  if Ksy.usesCustomType l then collected.map fun types => (Ksy.referencesAt d types l).head?
  else .ok (Ksy.referencesAt d [] l).head?

lemma referenceAt?_yields (h : s₀.Uniform t kind) (hksy : d.isKsy) {l : Located} {o : ℤ}
    (hl : d.nodeAt? o = some l) :
    (Ksy.referenceAt? d o).Yields t kind
      (referenceResult d (s₀.run t (Ksy.collectTypes d)).1 l) := by
  unfold Ksy.referenceAt? referenceResult
  rw [hl]
  simp only [Ksy.nodeReferences, Ksy.referencesWith_eq hksy]
  split
  · have hmap : ((s₀.run t (Ksy.collectTypes d)).1.map fun types =>
        (Ksy.referencesAt d types l).head?) =
        ((fun types => Ksy.referencesAt d types l) <$> (s₀.run t (Ksy.collectTypes d)).1) >>=
          fun rs => .ok rs.head? := by
      cases (s₀.run t (Ksy.collectTypes d)).1 <;> rfl
    rw [hmap]
    exact (((h.collectTypes d).yields h.start).map _).bind fun rs _ => .pure rs.head?
  · rw [pure_bind]
    exact .pure _

/-- What asking for the definition at a node gives. -/
def definitionResult (t : FileTree) (server : Server) (d : Document) (l : Located) :
    Except Failure (Option Location) :=
  referenceResult d (server.visibleTypes t d) l >>= fun r? =>
    r?.elim (.ok none) (locationResult t server.session d)

lemma definitionAt_eq {server : Server} {uri : String} (hs : Steady t server.session.store)
    (hd : (server.run t (documentOf uri)).1 = .ok (some d)) (hksy : d.isKsy)
    (hnested : d.WellNested) {l : Located} (hl : l ∈ d.walk) (hscalar : l.node.is .scalar) {o : ℤ}
    (hstart : l.node.range.start ≤ o) (hstop : o < l.node.range.stop) :
    server.definitionAt t uri d o = definitionResult t server d l := by
  have h := Session.Asked.uniform hs
  have hasked := asked_documentOf (t := t) server uri
  rcases hrun : server.run t (documentOf uri) with ⟨r, server'⟩
  rw [hrun] at hd hasked
  obtain rfl : r = .ok (some d) := hd
  -- asking by the position is asking by the offset, where the scalar is found
  have hoffset : (d.offset (d.position o).place.line (d.position o).place.character : ℤ) = o :=
    hnested.offset_position hl hscalar hstart hstop
  have hreference := referenceAt?_yields h hksy (hnested.nodeAt? hl hscalar hstart hstop).1
  rw [Server.definitionAt, definition, Server.run_bind, hrun]
  simp only [hoffset]
  rw [Server.run_bind, Server.run_work]
  obtain ⟨hresult, hasked'⟩ := hreference server'.session hasked
  rcases hask : server'.session.run t (Ksy.referenceAt? d o) with ⟨answer, s'⟩
  rw [hask] at hresult hasked'
  have hanswer : answer = referenceResult d (server.visibleTypes t d) l := hresult
  rw [definitionResult, ← hanswer]
  cases answer with
  | error e => rfl
  | ok r? =>
    cases r? with
    | none => rfl
    | some r =>
      simp only [Server.run_work]
      exact (locationOf_yields h d r s' hasked').1

/-- At an import, an answer waits for the types only if the import is the use of a type as well. -/
lemma definitionResult_of_import (hksy : d.isKsy) {server : Server} {l : Located}
    (himport : l.isImport) :
    definitionResult t server d l =
      (if Ksy.usesCustomType l then (server.visibleTypes t d).map fun _ => () else .ok ()) >>=
        fun _ => Ksy.importedDocument t server.session d l >>= importPlace := by
  unfold definitionResult referenceResult
  split
  next huses =>
    cases server.visibleTypes t d with
    | error e => rfl
    | ok types =>
      simp only [Except.map, bind, Except.bind, Ksy.referencesAt, hksy, himport, if_true,
        List.singleton_append, List.head?_cons, Option.elim_some, locationResult]
  next huses =>
    simp only [bind, Except.bind, Ksy.referencesAt, hksy, himport, if_true, List.singleton_append,
      List.head?_cons, Option.elim_some, locationResult]

/-- At the use of a type that is no import, the first definition with its name is looked for. -/
lemma definitionResult_of_type (hksy : d.isKsy) {server : Server} {l : Located}
    (himport : l.isImport = false) (huses : Ksy.usesCustomType l) :
    definitionResult t server d l = server.visibleTypes t d >>= fun types =>
      definitionPlace (Ksy.findDefinition? types l.node.text) := by
  unfold definitionResult referenceResult
  rw [if_pos huses]
  cases server.visibleTypes t d with
  | error e => rfl
  | ok types =>
    simp only [Except.map, bind, Except.bind, Ksy.referencesAt, hksy, himport, huses, if_true,
      Bool.false_eq_true, if_false, List.nil_append, List.head?_cons, Option.elim_some,
      locationResult]

lemma definitionResult_of_other {server : Server} {l : Located} (himport : l.isImport = false)
    (huses : Ksy.usesCustomType l = false) : definitionResult t server d l = .ok none := by
  simp [definitionResult, referenceResult, Ksy.referencesAt, himport, huses, bind, Except.bind]

end Serve

/-! ## The warnings at a scalar -/

namespace Ksy

variable {t : FileTree} {s : Session} {d : Document} {l : Located} {types : List Definition}
  {i : Issue}

/-- What the warnings about a node can be. -/
lemma mem_warningsAt : i ∈ warningsAt t s d types l ↔
    (i = importWarning t d l ∧ l.isImport ∧ importFound t s d l = false) ∨
      i = typeWarning d l ∧ usesCustomType l ∧ typeFound types l.node.text = false := by
  unfold warningsAt
  cases l.isImport <;> cases importFound t s d l <;> cases usesCustomType l <;>
    cases typeFound types l.node.text <;> simp

lemma is_scalar_of_usesCustomType (h : usesCustomType l) : l.node.is .scalar := by
  cases hscalar : l.node.is .scalar with
  | true => rfl
  | false => simp [l.usesCustomType_eq_false hscalar] at h

lemma range?_of_scalar (h : l.node.is .scalar) :
    (importWarning t d l).range? = some l.node.range ∧
      (typeWarning d l).range? = some l.node.range := by
  unfold importWarning typeWarning Issue.about
  cases hnode : l.node with
  | scalar => exact ⟨rfl, rfl⟩
  | sequence => simp [hnode, Node.is, Node.kind] at h
  | mapping => simp [hnode, Node.is, Node.kind] at h
  | keyValue => simp [hnode, Node.is, Node.kind] at h

/-- The warnings at the range of a scalar are those about the scalar. -/
lemma mem_warningsAt_of_range (hnested : d.WellNested) (hl : l ∈ d.walk)
    (hscalar : l.node.is .scalar) (hlt : l.node.range.start < l.node.range.stop)
    (hi : i ∈ d.walk.flatMap (warningsAt t s d types)) (hrange : i.range? = some l.node.range) :
    i ∈ warningsAt t s d types l := by
  obtain ⟨l', hl', hi⟩ := List.mem_flatMap.mp hi
  have hscalar' : l'.node.is .scalar ∧ i.range? = some l'.node.range := by
    rcases mem_warningsAt.mp hi with ⟨rfl, himport, -⟩ | ⟨rfl, huses, -⟩
    · have h := Located.is_scalar_of_isImport himport
      exact ⟨h, (range?_of_scalar h).1⟩
    · have h := is_scalar_of_usesCustomType huses
      exact ⟨h, (range?_of_scalar (t := t) h).2⟩
  rw [hscalar'.2] at hrange
  rwa [← hnested.eq_of_range_eq hl hl' hscalar hscalar'.1 (Option.some.inj hrange) hlt]

/-- The first definition with a name is the first one whose key is the name. -/
lemma findDefinition?_eq (h : ∀ x ∈ types, x.located.node.is .keyValue) (name : String) :
    findDefinition? types name = types.find? fun x => x.key == name := by
  unfold findDefinition?
  induction types with
  | nil => rfl
  | cons x rest ih =>
    have hkey : x.located.node.hasKey name = (x.key == name) := by
      have hx := h x List.mem_cons_self
      unfold Definition.key
      cases hnode : x.located.node with
      | keyValue range place key keyRange value => rfl
      | scalar => simp [hnode, Node.is, Node.kind] at hx
      | sequence => simp [hnode, Node.is, Node.kind] at hx
      | mapping => simp [hnode, Node.is, Node.kind] at hx
    rw [List.find?_cons, List.find?_cons, hkey, ih fun y hy => h y (List.mem_cons_of_mem _ hy)]

end Ksy

/-! ## The agreement -/

open Ksy (Followable importEntries importedDocument isKnownType isStandardType usesCustomType)

/-- What asking for the definition at an offset gives agrees with the warnings about the scalar that
covers the offset. -/
structure DefinitionsAgree (t : FileTree) (server : Server) (uri : String) (d : Document)
    (l : Located) (o : ℤ) : Prop where
  /-- At an import an answer is given exactly if the import can be followed; if it is the use of a
  type as well, the visible types have to be collected. -/
  importGiven : l.isImport → ((∃ place?, server.definitionAt t uri d o = .ok place?) ↔
    Followable t server.session d l ∧
      (usesCustomType l → ∃ types, server.visibleTypes t d = .ok types))
  /-- The answer is the start of the document that the import leads to. -/
  importPlace : l.isImport → ∀ place?, server.definitionAt t uri d o = .ok place? →
    ∃ target?, importedDocument t server.session d l = .ok target? ∧
      Option.Rel (fun target place => place.IsIn target Serve.startExtent) target? place?
  /-- There is a place to go to exactly if there is no warning about the import. -/
  importIssue : l.isImport → ∀ issues, server.referenceIssues t d = .ok issues →
    ∃ place?, server.definitionAt t uri d o = .ok place? ∧
      (place?.isSome ↔ ∀ i ∈ issues, i.isDanglingImport → i.range? ≠ some l.node.range)
  /-- At the use of a standard type there is no place to go to. -/
  standardType : l.isTypeUse → ¬l.isImport → isStandardType l.node.text →
    server.definitionAt t uri d o = .ok none
  /-- At the use of any other type the answer is the first definition with its name. -/
  typePlace : l.isTypeUse → ¬l.isImport → ¬isStandardType l.node.text →
    ∀ types, server.visibleTypes t d = .ok types →
      ∃ place?, server.definitionAt t uri d o = .ok place? ∧
        Option.Rel (fun x place => place.IsIn x.document
          (x.document.extent x.located.node.nameRange))
          (types.find? fun x => x.key == l.node.text) place?
  /-- Where the types cannot be collected, there is no answer for the same reason. -/
  typeFails : l.isTypeUse → ¬l.isImport → ¬isStandardType l.node.text →
    ∀ e, server.visibleTypes t d = .error e → server.definitionAt t uri d o = .error e
  /-- Where there is a place to go to, there is no warning about the type; where there is none,
  there is a warning exactly if the name is no path into a definition either. -/
  typeIssue : l.isTypeUse → ¬l.isImport → ∀ issues, server.referenceIssues t d = .ok issues →
    ∃ place?, server.definitionAt t uri d o = .ok place? ∧
      (place?.isSome → ∀ i ∈ issues, i.isUnknownType → i.range? ≠ some l.node.range) ∧
      (¬isStandardType l.node.text → place? = none →
        ∀ types, server.visibleTypes t d = .ok types →
          ((∃ i ∈ issues, i.isUnknownType ∧ i.range? = some l.node.range) ↔
            isKnownType l.node.text types = false))
  /-- At any other scalar there is neither a place to go to nor a warning. -/
  elsewhere : ¬l.isImport → ¬l.isTypeUse → server.definitionAt t uri d o = .ok none ∧
    ∀ issues, server.referenceIssues t d = .ok issues → ∀ i ∈ issues, i.range? ≠ some l.node.range

section Agreement

variable {t : FileTree} {server : Server} {uri : String} {d : Document} {l : Located} {o : ℤ}

lemma usesCustomType_iff : usesCustomType l ↔ l.isTypeUse ∧ ¬isStandardType l.node.text := by
  simp [usesCustomType]

lemma importPlace_eq_ok (hfiled : server.session.store.Filed)
    (habsolute : server.session.store.AbsoluteFiles t) {target? : Option Document}
    (htarget : importedDocument t server.session d l = .ok target?) :
    ∃ place?, Serve.importPlace target? = .ok place? ∧
      Option.Rel (fun target place => place.IsIn target Serve.startExtent) target? place? := by
  cases target? with
  | none => exact ⟨none, rfl, .none⟩
  | some target =>
    have hfile := Ksy.hasAbsoluteFile_of_importedDocument hfiled habsolute htarget
    obtain ⟨place, hplace, hin⟩ := Serve.placeIn_eq_ok hfile Serve.startExtent
    exact ⟨some place, hplace, .some hin⟩

/-- When there is an answer at an import, and what it is. -/
lemma definitionResult_import_eq_ok_iff (hksy : d.isKsy) (himport : l.isImport)
    {place? : Option Location} :
    Serve.definitionResult t server d l = .ok place? ↔
      (usesCustomType l → ∃ types, server.visibleTypes t d = .ok types) ∧
        ∃ target?, importedDocument t server.session d l = .ok target? ∧
          Serve.importPlace target? = .ok place? := by
  rw [Serve.definitionResult_of_import hksy himport, bind_eq_ok_iff]
  simp only [bind_eq_ok_iff]
  split
  next huses =>
    cases server.visibleTypes t d with
    | error e => simp [huses, Except.map]
    | ok types => simp [huses, Except.map]
  next huses => simp [huses]

lemma definitionPlace_eq_ok {x? : Option Ksy.Definition}
    (h : ∀ x ∈ x?, x.document.HasAbsoluteFile) :
    ∃ place?, Serve.definitionPlace x? = .ok place? ∧
      Option.Rel (fun x place => place.IsIn x.document
        (x.document.extent x.located.node.nameRange)) x? place? := by
  cases x? with
  | none => exact ⟨none, rfl, .none⟩
  | some x =>
    obtain ⟨place, hplace, hin⟩ := Serve.placeIn_eq_ok (h x rfl)
      (x.document.extent x.located.node.nameRange)
    exact ⟨some place, hplace, .some hin⟩

lemma isSome_of_rel {α β : Type} {R : α → β → Prop} {a? : Option α} {b? : Option β}
    (h : Option.Rel R a? b?) : b?.isSome = a?.isSome := by
  cases h <;> rfl

/-- A description is asked about at an offset that one of its scalars covers. -/
structure Cursor (t : FileTree) (server : Server) (uri : String) (d : Document) (l : Located)
    (o : ℤ) : Prop where
  steady : Steady t server.session.store
  filed : server.session.store.Filed
  absolute : server.session.store.AbsoluteFiles t
  given : (server.run t (Serve.documentOf uri)).1 = .ok (some d)
  isKsy : d.isKsy
  read : d.failure? = none
  nested : d.WellNested
  mem : l ∈ d.walk
  scalar : l.node.is .scalar
  start : l.node.range.start ≤ o
  stop : o < l.node.range.stop

namespace Cursor

lemma definitionAt (h : Cursor t server uri d l o) :
    server.definitionAt t uri d o = Serve.definitionResult t server d l :=
  Serve.definitionAt_eq h.steady h.given h.isKsy h.nested h.mem h.scalar h.start h.stop

/-- The issues, if they can be given, and the types that they are found with.  Those at the range of
the scalar are about the scalar. -/
lemma issues (h : Cursor t server uri d l o) {issues : List Issue}
    (hissues : server.referenceIssues t d = .ok issues) :
    ∃ types, (usesCustomType l → server.visibleTypes t d = .ok types) ∧
      (l.isImport → Followable t server.session d l) ∧
      ∀ i, (i ∈ issues ∧ i.range? = some l.node.range) ↔
        i ∈ Ksy.warningsAt t server.session d types l := by
  obtain ⟨types, htypes, hfollow, rfl⟩ := (Ksy.validateReferences_eq_ok_iff
    (Session.Asked.uniform h.steady) h.isKsy h.read).mp hissues
  refine ⟨types, fun huses => htypes ⟨l, h.mem, huses⟩, hfollow l h.mem,
    fun i => ⟨?_, fun hi => ?_⟩⟩
  · rintro ⟨hi, hrange⟩
    exact Ksy.mem_warningsAt_of_range h.nested h.mem h.scalar
      (by have := h.start; have := h.stop; omega)
      hi hrange
  · refine ⟨List.mem_flatMap.mpr ⟨l, h.mem, hi⟩, ?_⟩
    rcases Ksy.mem_warningsAt.mp hi with ⟨rfl, -, -⟩ | ⟨rfl, -, -⟩
    · exact (Ksy.range?_of_scalar h.scalar).1
    · exact (Ksy.range?_of_scalar (t := t) h.scalar).2

lemma importGiven (h : Cursor t server uri d l o) (himport : l.isImport) :
    (∃ place?, server.definitionAt t uri d o = .ok place?) ↔
      Followable t server.session d l ∧
        (usesCustomType l → ∃ types, server.visibleTypes t d = .ok types) := by
  simp only [h.definitionAt, definitionResult_import_eq_ok_iff h.isKsy himport]
  constructor
  · rintro ⟨place?, htypes, target?, htarget, -⟩
    exact ⟨⟨target?, htarget⟩, htypes⟩
  · rintro ⟨⟨target?, htarget⟩, htypes⟩
    obtain ⟨place?, hplace, -⟩ := importPlace_eq_ok h.filed h.absolute htarget
    exact ⟨place?, htypes, target?, htarget, hplace⟩

lemma importPlace (h : Cursor t server uri d l o) (himport : l.isImport) {place? : Option Location}
    (hplace : server.definitionAt t uri d o = .ok place?) :
    ∃ target?, importedDocument t server.session d l = .ok target? ∧
      Option.Rel (fun target place => place.IsIn target Serve.startExtent) target? place? := by
  rw [h.definitionAt, definitionResult_import_eq_ok_iff h.isKsy himport] at hplace
  obtain ⟨-, target?, htarget, hplace⟩ := hplace
  obtain ⟨place', hplace', hrel⟩ := importPlace_eq_ok h.filed h.absolute htarget
  obtain rfl : place' = place? := Except.ok.inj (hplace'.symm.trans hplace)
  exact ⟨target?, htarget, hrel⟩

lemma importIssue (h : Cursor t server uri d l o) (himport : l.isImport) {issues : List Issue}
    (hissues : server.referenceIssues t d = .ok issues) :
    ∃ place?, server.definitionAt t uri d o = .ok place? ∧
      (place?.isSome ↔ ∀ i ∈ issues, i.isDanglingImport → i.range? ≠ some l.node.range) := by
  obtain ⟨types, htypes, hfollow, hat⟩ := h.issues hissues
  obtain ⟨place?, hplace⟩ :=
    (h.importGiven himport).mpr ⟨hfollow himport, fun huses => ⟨types, htypes huses⟩⟩
  obtain ⟨target?, htarget, hrel⟩ := h.importPlace himport hplace
  refine ⟨place?, hplace, ?_⟩
  rw [isSome_of_rel hrel, ← Ksy.importFound_of_ok htarget]
  constructor
  · intro hfound i hi hdangling hrange
    rcases Ksy.mem_warningsAt.mp ((hat i).mp ⟨hi, hrange⟩) with ⟨rfl, -, hnot⟩ | ⟨rfl, -, -⟩
    · simp [hfound] at hnot
    · simp at hdangling
  · intro hnone
    by_contra hfound
    -- an import that leads nowhere has its warning
    obtain ⟨hi, hrange⟩ := (hat (Ksy.importWarning t d l)).mpr
      (Ksy.mem_warningsAt.mpr (.inl ⟨rfl, himport, by simpa using hfound⟩))
    exact hnone _ hi (Ksy.isDanglingImport_importWarning t d l) hrange

lemma typePlace (h : Cursor t server uri d l o) (himport : l.isImport = false)
    (huses : usesCustomType l) {types : List Ksy.Definition}
    (htypes : server.visibleTypes t d = .ok types) :
    Ksy.findDefinition? types l.node.text = (types.find? fun x => x.key == l.node.text) ∧
      ∃ place?, server.definitionAt t uri d o = .ok place? ∧
        Option.Rel (fun x place => place.IsIn x.document
          (x.document.extent x.located.node.nameRange))
          (Ksy.findDefinition? types l.node.text) place? := by
  obtain ⟨p, hp⟩ := Serve.answer_of_documentOf h.given
  obtain ⟨file, hfile⟩ := h.filed.answer hp
  have hall {x : Ksy.Definition} (hx : x ∈ types) :=
    Ksy.hasAbsoluteFile_of_mem_types h.steady h.filed h.absolute
      ⟨file, hfile, h.absolute p d hp file hfile⟩ h.isKsy htypes hx
  refine ⟨Ksy.findDefinition?_eq (fun x hx => (hall hx).2) _, ?_⟩
  rw [h.definitionAt, Serve.definitionResult_of_type h.isKsy himport huses, htypes]
  exact definitionPlace_eq_ok fun x hx => (hall (List.mem_of_find?_eq_some hx)).1

lemma typeFails (h : Cursor t server uri d l o) (himport : l.isImport = false)
    (huses : usesCustomType l) {e : Failure} (he : server.visibleTypes t d = .error e) :
    server.definitionAt t uri d o = .error e := by
  rw [h.definitionAt, Serve.definitionResult_of_type h.isKsy himport huses, he]
  rfl

lemma nowhere (h : Cursor t server uri d l o) (himport : l.isImport = false)
    (huses : usesCustomType l = false) : server.definitionAt t uri d o = .ok none := by
  rw [h.definitionAt, Serve.definitionResult_of_other himport huses]

lemma typeIssue (h : Cursor t server uri d l o) (himport : l.isImport = false)
    {issues : List Issue} (hissues : server.referenceIssues t d = .ok issues) :
    ∃ place?, server.definitionAt t uri d o = .ok place? ∧
      (place?.isSome → ∀ i ∈ issues, i.isUnknownType → i.range? ≠ some l.node.range) ∧
      (usesCustomType l → place? = none → ∀ types, server.visibleTypes t d = .ok types →
        ((∃ i ∈ issues, i.isUnknownType ∧ i.range? = some l.node.range) ↔
          isKnownType l.node.text types = false)) := by
  obtain ⟨types, htypes, -, hat⟩ := h.issues hissues
  cases huses : usesCustomType l with
  | false => exact ⟨none, h.nowhere himport huses, by simp, by simp⟩
  | true =>
    have htypes := htypes huses
    obtain ⟨-, place?, hplace, hrel⟩ := h.typePlace himport huses htypes
    have hsome := isSome_of_rel hrel
    -- the warning is there exactly if the name is not that of a visible type
    have hwarned : (∃ i ∈ issues, i.isUnknownType ∧ i.range? = some l.node.range) ↔
        Ksy.typeFound types l.node.text = false := by
      constructor
      · rintro ⟨i, hi, hunknown, hrange⟩
        rcases Ksy.mem_warningsAt.mp ((hat i).mp ⟨hi, hrange⟩) with ⟨rfl, -, -⟩ | ⟨-, -, hnot⟩
        · simp at hunknown
        · exact hnot
      · intro hnot
        obtain ⟨hi, hrange⟩ := (hat (Ksy.typeWarning d l)).mpr
          (Ksy.mem_warningsAt.mpr (.inr ⟨rfl, huses, hnot⟩))
        exact ⟨_, hi, Ksy.isUnknownType_typeWarning d l, hrange⟩
    refine ⟨place?, hplace, fun hplaced i hi hunknown hrange => ?_, ?_⟩
    · have hnot := hwarned.mp ⟨i, hi, hunknown, hrange⟩
      rw [hsome] at hplaced
      simp [Ksy.typeFound, hplaced] at hnot
    · rintro - rfl types' htypes'
      obtain rfl : types = types' := Except.ok.inj (htypes.symm.trans htypes')
      rw [hwarned, Ksy.typeFound, ← hsome, Option.isSome_none, Bool.false_or]

end Cursor

/-- Definitions and warnings tell the same story.

This holds for every description that the store gives for a URI without an error, as long as the
answers of the store stay the same, its documents belong to files with absolute paths, and the nodes
of the description are well nested; and for every offset that a scalar of the description covers.
The warnings can be given exactly if every import can be followed, and if the visible types can be
collected where one is used. -/
theorem definitions_agree (hs : Steady t server.session.store)
    (hfiled : server.session.store.Filed) (habsolute : server.session.store.AbsoluteFiles t)
    (hd : (server.run t (Serve.documentOf uri)).1 = .ok (some d)) (hksy : d.isKsy)
    (hread : d.failure? = none) (hnested : d.WellNested) :
    ((∃ issues, server.referenceIssues t d = .ok issues) ↔
        ((∃ l ∈ d.walk, usesCustomType l) → ∃ types, server.visibleTypes t d = .ok types) ∧
          ∀ l ∈ importEntries d, Followable t server.session d l) ∧
      ∀ l ∈ d.walk, l.node.is .scalar → ∀ o : ℤ, l.node.range.start ≤ o → o < l.node.range.stop →
        DefinitionsAgree t server uri d l o := by
  refine ⟨Ksy.exists_validateReferences_iff (Session.Asked.uniform hs) hksy hread, ?_⟩
  intro l hl hscalar o hstart hstop
  have h : Cursor t server uri d l o :=
    ⟨hs, hfiled, habsolute, hd, hksy, hread, hnested, hl, hscalar, hstart, hstop⟩
  exact {
    importGiven := h.importGiven
    importPlace := fun himport place? => h.importPlace himport
    importIssue := fun himport issues => h.importIssue himport
    standardType := by
      intro htype himport hstandard
      exact h.nowhere (by simpa using himport) (by simp [usesCustomType, hstandard])
    typePlace := by
      intro htype himport hstandard types htypes
      obtain ⟨hfind, hplace⟩ := h.typePlace (by simpa using himport)
        (usesCustomType_iff.mpr ⟨htype, hstandard⟩) htypes
      rwa [hfind] at hplace
    typeFails := by
      intro htype himport hstandard e he
      exact h.typeFails (by simpa using himport) (usesCustomType_iff.mpr ⟨htype, hstandard⟩) he
    typeIssue := by
      intro htype himport issues hissues
      obtain ⟨place?, hplace, hsome, hnone⟩ := h.typeIssue (by simpa using himport) hissues
      exact ⟨place?, hplace, hsome, fun hstandard =>
        hnone (usesCustomType_iff.mpr ⟨htype, hstandard⟩)⟩
    elsewhere := by
      intro himport htype
      have huses : usesCustomType l = false := by simp [usesCustomType, htype]
      refine ⟨h.nowhere (by simpa using himport) huses, fun issues hissues i hi hrange => ?_⟩
      obtain ⟨types, -, -, hat⟩ := h.issues hissues
      rcases Ksy.mem_warningsAt.mp ((hat i).mp ⟨hi, hrange⟩) with ⟨-, himport', -⟩ | ⟨-, huses', -⟩
      · exact himport himport'
      · simp [huses] at huses' }

end Agreement

/-! ## A description with an import that leads nowhere -/

open FileTree (noFiles)
open Ksy (reader readerText readerImport)

lemma absoluteFiles_reader : reader.session.store.AbsoluteFiles noFiles := by
  intro p d hd file hfile
  cases ho : reader.session.store.overlay? (noFiles.key p) with
  | none =>
    have hanswer := (DocumentStore.get_of_current Ksy.truthful_reader.1 ho
      fun e he _ => Ksy.truthful_reader.2 e he).1
    rw [hd, Ksy.documentAt_noFiles] at hanswer
    cases hanswer
  | some o =>
    rw [DocumentStore.answer, DocumentStore.get_of_overlay ho] at hd
    obtain rfl : o.document = d := Option.some.inj (Except.ok.inj hd)
    have hmem := Keyed.mem_of_lookup ho
    simp only [reader, Server.start, List.mem_cons, Prod.mk.injEq, List.not_mem_nil, or_false]
      at hmem
    rcases hmem with ⟨-, rfl⟩ | ⟨-, rfl⟩
    · obtain rfl : ⟨.slash, ["a.ksy"]⟩ = file := Option.some.inj hfile
      rfl
    · obtain rfl : ⟨.slash, ["b.ksy"]⟩ = file := Option.some.inj hfile
      rfl

lemma wellNested_reader : readerText.WellNested where
  inside := by decide
  roots := by decide
  nodes := by decide

/-- There is a place to go to at one of the two imports of the description, and none at the
other. -/
theorem definitions_agree_reader :
    Steady noFiles reader.session.store ∧ reader.session.store.Filed ∧
      reader.session.store.AbsoluteFiles noFiles ∧
      (reader.run noFiles (Serve.documentOf "file:///a.ksy")).1 = .ok (some readerText) ∧
      readerText.isKsy ∧ readerText.failure? = none ∧ readerText.WellNested ∧
      (∃ place, reader.definitionAt noFiles "file:///a.ksy" readerText 10 = .ok (some place)) ∧
      reader.definitionAt noFiles "file:///a.ksy" readerText 13 = .ok none ∧
      ∃ issues, reader.referenceIssues noFiles readerText = .ok issues ∧
        ∃ i ∈ issues, i.isDanglingImport ∧ i.range? = some ⟨13, 14⟩ := by
  have hsteady := Ksy.truthful_reader.steady
  have hksy : readerText.isKsy := by decide
  obtain ⟨hgiven, hagree⟩ := definitions_agree hsteady Ksy.filed_reader absoluteFiles_reader
    Ksy.documentOf_reader hksy rfl wellNested_reader
  have hfollow (l : Located) : Followable noFiles reader.session readerText l :=
    ⟨_, Ksy.importedDocument_noFiles Ksy.truthful_reader readerText l⟩
  obtain ⟨issues, hissues⟩ := hgiven.mpr ⟨fun _ => Ksy.collectTypes_reader, fun l _ => hfollow l⟩
  have hmem {l : Located} (hl : l ∈ importEntries readerText) : l ∈ readerText.walk ∧ l.isImport :=
    List.mem_filter.mp hl
  rw [Ksy.importEntries_reader] at hmem
  obtain ⟨hwalk, himport⟩ := hmem (l := readerImport "b" 10 0) (by simp)
  obtain ⟨hwalk', himport'⟩ := hmem (l := readerImport "c" 13 1) (by simp)
  have hb := hagree _ hwalk rfl 10 (by decide) (by decide)
  have hc := hagree _ hwalk' rfl 13 (by decide) (by decide)
  obtain ⟨place?, hplace, -⟩ := hb.importIssue himport issues hissues
  obtain ⟨target?, htarget, hrel⟩ := hb.importPlace himport place? hplace
  obtain ⟨place, rfl⟩ : ∃ place, place? = some place := by
    rw [← Option.isSome_iff_exists, isSome_of_rel hrel, ← Ksy.importFound_of_ok htarget]
    exact Ksy.importFound_reader_b
  obtain ⟨nowhere?, hnowhere, hissue⟩ := hc.importIssue himport' issues hissues
  obtain ⟨target?', htarget', hrel'⟩ := hc.importPlace himport' nowhere? hnowhere
  obtain rfl : nowhere? = none := by
    rw [← Option.isNone_iff_eq_none, ← Option.not_isSome, isSome_of_rel hrel',
      ← Ksy.importFound_of_ok htarget', Ksy.importFound_reader_c]
    rfl
  obtain ⟨i, hi, hdangling, hrange⟩ :
      ∃ i ∈ issues, i.isDanglingImport ∧ i.range? = some ⟨13, 14⟩ := by
    by_contra hnone
    push Not at hnone
    have : (none : Option Location).isSome := hissue.mpr hnone
    cases this
  exact ⟨hsteady, Ksy.filed_reader, absoluteFiles_reader, Ksy.documentOf_reader, hksy, rfl,
    wellNested_reader, ⟨place, hplace⟩, hnowhere, issues, hissues, i, hi, hdangling, hrange⟩

end KsyTools
