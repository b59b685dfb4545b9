/-
# Completed imports lead back

What a typed import can be completed to comes from a directory: the one that the typed text leads
to up to its last slash, or the one of a file that it leads to.  One candidate is offered for each
directory and for each format description there.  The text of a directory can be completed
further, and lists this directory.  The text of a description, as an import, leads back to the
description, unless its name ends in the ending twice: then the ending that the completion has
taken away is not put back.

The entries are looked up one by one.  Where the path of one of them is too long, nothing is offered
and the completion fails.
-/
import KsyTools.Ksy.Completion
import KsyTools.Proofs.Files.Regular
import KsyTools.Proofs.Ksy.ExistingDocument
import KsyTools.Proofs.Ksy.ImportPaths

namespace KsyTools

open FileTree (Regular IsEntryName TooLong hasNull)

/-! ## Texts without drives -/

lemma Path.rootOf_eq_relative_iff {cs : List Char} :
    rootOf cs = .relative ↔ cs.head? ≠ some '/' := by
  cases cs with
  | nil => simp [rootOf]
  | cons c rest =>
    by_cases hc : c = '/'
    · -- there is a slash at the start at least
      have hlength : ((c :: rest).takeWhile (· == '/')).length =
          (rest.takeWhile (· == '/')).length + 1 := by
        simp [hc]
      rw [rootOf, hlength]
      split
      · omega
      · simp [hc]
      · simp [hc]
    · simp [rootOf, hc]

lemma Path.isAbsolute_ofString {s : String} :
    (Path.ofString s).isAbsolute ↔ s.toList.head? = some '/' := by
  rw [isAbsolute, ofString, bne_iff_ne, ne_eq, rootOf_eq_relative_iff, not_not]

/-- A path that starts with no separator and has no colon has no drive. -/
lemma DrivePath.splitRoot_drive {c : Char} {cs : List Char} (hc : c ≠ '\\') (hcolon : ':' ∉ cs) :
    (splitRoot (c :: cs)).1 = [] := by
  have hverbatim : splitVerbatim (c :: cs) = ([], c :: cs) := by
    rw [splitVerbatim, if_neg (by simp [verbatimMark, Ne.symm hc])]
  have hshare : splitShare? (c :: cs) = none := by
    unfold splitShare?
    split
    next heq => exact absurd (List.cons.inj heq).1 hc
    · rfl
  have hdrive : splitDrive (c :: cs) = ([], c :: cs) := by
    unfold splitDrive
    split
    next heq => exact absurd (by simp [(List.cons.inj heq).2]) hcolon
    · rfl
  simp only [splitRoot, hverbatim, hshare, hdrive]
  split <;> rfl

/-- Without backslashes and colons, a path starts with a slash or has no drive. -/
lemma DrivePath.not_isAbsolute_ofString {s : String} (hback : '\\' ∉ s.toList)
    (hcolon : ':' ∉ s.toList) (hslash : s.toList.head? ≠ some '/') :
    ¬(DrivePath.ofString s).isAbsolute := by
  have hdrive : (splitRoot (s.toList.map fun c => if c = '/' then separator else c)).1 = [] := by
    cases hs : s.toList with
    | nil => rfl
    | cons c rest =>
      rw [hs] at hback hcolon hslash
      have hc : c ≠ '/' ∧ c ≠ '\\' := ⟨by simpa using hslash, fun hc => hback (by simp [hc])⟩
      rw [List.map_cons, if_neg hc.1]
      refine splitRoot_drive hc.2 fun hmem => ?_
      obtain ⟨d, hd, heq⟩ := List.mem_map.mp hmem
      split_ifs at heq with hslash'
      · exact absurd heq (by decide)
      · exact hcolon (List.mem_cons_of_mem _ (heq ▸ hd))
  have hempty : (DrivePath.ofString s).drive = "" := by
    simp [DrivePath.ofString, hdrive]
  simp [isAbsolute, hempty]

namespace Ksy

lemma isAbsoluteText_eq {s : String} (hback : '\\' ∉ s.toList) (hcolon : ':' ∉ s.toList) :
    isAbsoluteText s = (Path.ofString s).isAbsolute := by
  unfold isAbsoluteText
  by_cases hslash : s.toList.head? = some '/'
  · simp [Path.isAbsolute_ofString.mpr hslash]
  · simp [DrivePath.not_isAbsolute_ofString hback hcolon hslash]

/-! ## The directory that is listed -/

lemma toList_typedDirectory (typed : String) :
    (typedDirectory typed).toList = typed.toList.rdropWhile (· != '/') :=
  String.toList_ofList ..

lemma isFront_typedDirectory (typed : String) : Path.IsFront (typedDirectory typed).toList := by
  rw [toList_typedDirectory]
  exact Path.isFront_dropEndWhile typed.toList

/-- Behind the last slash there are no slashes. -/
lemma exists_typed_eq (typed : String) :
    ∃ last, '/' ∉ last ∧ typed.toList = (typedDirectory typed).toList ++ last := by
  refine ⟨typed.toList.rtakeWhile (· != '/'), fun hslash => ?_, ?_⟩
  · simpa using List.mem_rtakeWhile_imp hslash
  · rw [toList_typedDirectory, List.rdropWhile_append_rtakeWhile]

lemma mem_typed_of_mem_typedDirectory {typed : String} {c : Char}
    (h : c ∈ (typedDirectory typed).toList) : c ∈ typed.toList := by
  obtain ⟨last, -, htyped⟩ := exists_typed_eq typed
  rw [htyped]
  exact List.mem_append_left _ h

/-- A text that ends in a slash is typed up to its end. -/
lemma typedDirectory_concat (front : String) : typedDirectory (front ++ "/") = front ++ "/" := by
  rw [← String.toList_inj, toList_typedDirectory, String.toList_append]
  exact List.rdropWhile_concat_neg (· != '/') front.toList '/' (by simp)

/-- Where a typed text leads up to its last slash, from a directory. -/
def typedRoot (directory : Path) (typed : String) : Path :=
  directory.join (Path.ofString (typedDirectory typed))

/-- The directory that is listed for a path: the path itself, or the directory of a file. -/
inductive Listed (t : FileTree) (root : Path) : Path → Prop
  | directory : t.isDirectory root = .ok true → Listed t root root
  | file : t.isFile root = .ok true → Listed t root root.parent

variable {t : FileTree} {directory listed root : Path} {typed : String}

lemma typedRoot_empty (directory : Path) : typedRoot directory "" = directory := by
  have hempty : Path.ofString (typedDirectory "") = ⟨.relative, []⟩ := by decide
  obtain ⟨root, parts⟩ := directory
  rw [typedRoot, hempty]
  simp [Path.join, Path.isAbsolute]

lemma typedRoot_of_absolute (directory : Path) (h : (Path.ofString typed).isAbsolute) :
    typedDirectory typed ≠ "" ∧
      typedRoot directory typed = Path.ofString (typedDirectory typed) := by
  obtain ⟨last, hlast, htyped⟩ := exists_typed_eq typed
  have hslash := Path.isAbsolute_ofString.mp h
  rw [htyped] at hslash
  cases hfront : (typedDirectory typed).toList with
  | nil =>
    -- the slash at the start would be behind the last one
    rw [hfront, List.nil_append] at hslash
    exact absurd (List.mem_of_head? hslash) hlast
  | cons c rest =>
    rw [hfront, List.cons_append, List.head?_cons] at hslash
    have habs : (Path.ofString (typedDirectory typed)).isAbsolute :=
      Path.isAbsolute_ofString.mpr (by rw [hfront, List.head?_cons, hslash])
    refine ⟨fun hempty => by simp [hempty] at hfront, ?_⟩
    rw [typedRoot, Path.join, if_pos habs]

/-- What is looked up for a typed text is where it leads up to its last slash. -/
lemma ite_isAbsoluteText (hback : '\\' ∉ typed.toList) (hcolon : ':' ∉ typed.toList) :
    (if isAbsoluteText typed then
        Path.ofString (if typedDirectory typed = "" then typed else typedDirectory typed)
      else directory.join (Path.ofString (typedDirectory typed))) = typedRoot directory typed := by
  rw [isAbsoluteText_eq hback hcolon]
  by_cases habs : (Path.ofString typed).isAbsolute
  · obtain ⟨hfront, hroot⟩ := typedRoot_of_absolute directory habs
    rw [if_pos habs, if_neg hfront, hroot]
  · rw [if_neg habs, typedRoot]

/-- A path leads to a directory, to a file or to nothing. -/
lemma listed_cases (ht : t.Regular) (root : Path) :
    (t.exists? root = .ok true ∧ t.isDirectory root = .ok true ∧ t.isFile root = .ok false) ∨
      (t.exists? root = .ok true ∧ t.isDirectory root = .ok false ∧ t.isFile root = .ok true) ∨
      (t.exists? root ≠ .ok true ∧ ∀ listed, ¬Listed t root listed) := by
  by_cases hsome : t.exists? root = .ok true
  · obtain ⟨hnull, way, e, hfind, -⟩ := FileTree.ask_eq_ok_true_iff.mp hsome
    have hask := FileTree.ask_of_find hnull hfind
    have hat := FileTree.Regular.at?_of_find hfind
    cases e with
    | directory es => exact .inl ⟨hsome, hask _, hask _⟩
    | file content changed => exact .inr (.inl ⟨hsome, hask _, hask _⟩)
    | pipe => simpa [Entry.isFile, Entry.isDirectory] using ht.kinds way _ hat
    | link target => exact absurd hat (ht.linkFree way target)
  · refine .inr (.inr ⟨hsome, fun listed h => hsome ?_⟩)
    cases h with
    | directory hdirectory =>
      obtain ⟨hnull, way, e, hfind, -⟩ := FileTree.ask_eq_ok_true_iff.mp hdirectory
      exact FileTree.ask_eq_ok_true_iff.mpr ⟨hnull, way, e, hfind, rfl⟩
    | file hfile =>
      obtain ⟨hnull, way, e, hfind, -⟩ := FileTree.ask_eq_ok_true_iff.mp hfile
      exact FileTree.ask_eq_ok_true_iff.mpr ⟨hnull, way, e, hfind, rfl⟩

lemma listed_iff_of_isDirectory (hdirectory : t.isDirectory root = .ok true)
    (hfile : t.isFile root = .ok false) : Listed t root listed ↔ listed = root := by
  constructor
  · intro h
    cases h with
    | directory => rfl
    | file h => simp [hfile] at h
  · rintro rfl
    exact .directory hdirectory

lemma listed_iff_of_isFile (hdirectory : t.isDirectory root = .ok false)
    (hfile : t.isFile root = .ok true) : Listed t root listed ↔ listed = root.parent := by
  constructor
  · intro h
    cases h with
    | directory h => simp [hdirectory] at h
    | file => rfl
  · rintro rfl
    exact .file hfile

/-- What is listed while an import is typed. -/
lemma completionRoot?_eq_some_iff (ht : t.Regular) (hdirectory : t.isDirectory directory = .ok true)
    (hback : '\\' ∉ typed.toList) (hcolon : ':' ∉ typed.toList) :
    completionRoot? t typed directory = some listed ↔
      Listed t (typedRoot directory typed) listed := by
  unfold completionRoot?
  by_cases hempty : typed = ""
  · subst hempty
    rw [if_pos rfl, typedRoot_empty]
    rcases listed_cases ht directory with ⟨-, -, hfile⟩ | ⟨-, hother, -⟩ | ⟨-, hlisted⟩
    · rw [listed_iff_of_isDirectory hdirectory hfile, Option.some.injEq, eq_comm]
    · simp [hdirectory] at hother
    · exact absurd (.directory hdirectory) (hlisted directory)
  · rw [if_neg hempty]
    simp only [ite_isAbsoluteText hback hcolon]
    generalize typedRoot directory typed = root
    rcases listed_cases ht root with ⟨hsome, hdirectory, hfile⟩ | ⟨hsome, hdirectory, hfile⟩ |
      ⟨hnone, hlisted⟩
    · simp only [hsome, hdirectory, Option.some.injEq, listed_iff_of_isDirectory hdirectory hfile,
        eq_comm]
    · simp only [hsome, hdirectory, Option.some.injEq, listed_iff_of_isFile hdirectory hfile,
        eq_comm]
    · simp [hlisted]

/-! ## What is offered -/

/-- What is offered for an entry: a directory with a slash, a format description without its ending,
both behind the typed text up to its last slash. -/
def entryCandidate? (front : String) : String × Entry → Option Candidate
  | (name, e) =>
    if e.isDirectory then some ⟨front ++ (name ++ "/"), true⟩
    else if isFileName name then some ⟨front ++ Text.dropEnd extension.length name, false⟩
    else none

/-- A loop in which every round gives a result. -/
lemma mapM_eq_ok {α β ε : Type} {f : α → Except ε β} {g : α → β} {xs : List α}
    (h : ∀ x ∈ xs, f x = .ok (g x)) : xs.mapM f = .ok (xs.map g) := by
  induction xs with
  | nil => rfl
  | cons x rest ih =>
    have hrest := ih fun y hy => h y (List.mem_cons_of_mem _ hy)
    rw [List.mapM_cons, h x List.mem_cons_self, hrest]
    rfl

/-- A loop in which some rounds fail, each in its own way, ends as one of these. -/
lemma exists_mapM_eq_error {α β ε : Type} {f : α → Except ε β} {fails : α → Prop} {e : α → ε}
    {xs : List α} (hfails : ∀ x ∈ xs, fails x → f x = .error (e x))
    (hok : ∀ x ∈ xs, ¬fails x → ∃ b, f x = .ok b) (h : ∃ x ∈ xs, fails x) :
    ∃ x ∈ xs, fails x ∧ xs.mapM f = .error (e x) := by
  induction xs with
  | nil => simp at h
  | cons x rest ih =>
    rw [List.mapM_cons]
    by_cases hx : fails x
    · exact ⟨x, List.mem_cons_self, hx, by rw [hfails x List.mem_cons_self hx]; rfl⟩
    · obtain ⟨b, hb⟩ := hok x List.mem_cons_self hx
      obtain ⟨y, hy, hfail⟩ := h
      have hy' : y ∈ rest := (List.mem_cons.mp hy).resolve_left fun heq => hx (heq ▸ hfail)
      obtain ⟨z, hz, hz', hrest⟩ := ih (fun y hy => hfails y (List.mem_cons_of_mem _ hy))
        (fun y hy => hok y (List.mem_cons_of_mem _ hy)) ⟨y, hy', hfail⟩
      exact ⟨z, List.mem_cons_of_mem _ hz, hz', by rw [hb, hrest]; rfl⟩

variable {way : List String} {es : List (String × Entry)}

lemma mem_sortNames {x : String × Entry} : x ∈ FileTree.sortNames es ↔ x ∈ es :=
  (List.mergeSort_perm es _).mem_iff

/-- What one entry of a directory gives. -/
def entryCandidates (t : FileTree) (listed : Path) (name : String) :
    Except Failure (List Candidate) :=
  match t.isDirectory (listed.child name) with
  | .error e => .error (.file e)
  | .ok true => .ok [Candidate.mk (name ++ "/") true]
  | .ok false =>
    if isFileName name then .ok [Candidate.mk (Text.dropEnd extension.length name) false]
    else .ok []

/-- Listing a directory is a loop over its entries, in the order of their names. -/
lemma children_eq_mapM (hnull : hasNull listed = false)
    (hfind : t.find listed = .ok (way, .directory es)) :
    children t listed = ((FileTree.sortNames es).mapM fun x => entryCandidates t listed x.1) >>=
      fun found => .ok (found.flatten, []) := by
  have hlist : t.list listed = .ok ((FileTree.sortNames es).map Prod.fst) := by
    rw [FileTree.list, if_neg (by simp [hnull]), hfind]
  unfold children
  rw [hlist]
  simp only [List.mapM_map]
  rfl

/-- The entries of a directory, in order, where all of them can be looked up. -/
lemma children_eq (ht : t.Regular) (hnull : hasNull listed = false)
    (hfind : t.find listed = .ok (way, .directory es))
    (hshort : ∀ x ∈ es, ¬TooLong (listed.child x.1)) :
    children t listed = .ok ((FileTree.sortNames es).filterMap (entryCandidate? ""), []) := by
  have hrounds : ∀ x ∈ FileTree.sortNames es,
      entryCandidates t listed x.1 = .ok (entryCandidate? "" x).toList := by
    rintro ⟨name, e⟩ hx
    have hmem := mem_sortNames.mp hx
    have hdirectory := ht.isDirectory_child hnull hfind hmem (hshort _ hmem)
    simp only [entryCandidates, hdirectory, entryCandidate?, String.empty_append]
    cases e.isDirectory with
    | true => rfl
    | false => by_cases hname : isFileName name <;> simp [hname]
  rw [children_eq_mapM hnull hfind, mapM_eq_ok hrounds, List.filterMap_eq_flatMap_toList,
    List.flatMap_def]
  rfl

/-- The failure at an entry that cannot be looked up. -/
lemma children_error (ht : t.Regular) (hnull : hasNull listed = false)
    (hfind : t.find listed = .ok (way, .directory es))
    (hlong : ∃ x ∈ es, TooLong (listed.child x.1)) :
    ∃ x ∈ es, TooLong (listed.child x.1) ∧
      children t listed = .error (.file (.failed .nameTooLong (listed.child x.1).toString)) := by
  have hfails : ∀ x ∈ FileTree.sortNames es, TooLong (listed.child x.1) →
      entryCandidates t listed x.1 =
        .error (.file (.failed .nameTooLong (listed.child x.1).toString)) := by
    intro x hx htoo
    have hnull' := FileTree.hasNull_child hnull (ht.isEntryName hfind (mem_sortNames.mp hx)).no_null
    rw [entryCandidates, FileTree.isDirectory_of_tooLong hnull' htoo]
  have hok : ∀ x ∈ FileTree.sortNames es, ¬TooLong (listed.child x.1) →
      ∃ found, entryCandidates t listed x.1 = .ok found := by
    intro x hx hshort
    rw [entryCandidates, ht.isDirectory_child hnull hfind (mem_sortNames.mp hx) hshort]
    cases x.2.isDirectory with
    | true => exact ⟨_, rfl⟩
    | false => by_cases hname : isFileName x.1 <;> simp [hname]
  obtain ⟨y, hy, htoo⟩ := hlong
  obtain ⟨x, hx, htoo, hmap⟩ := exists_mapM_eq_error hfails hok ⟨y, mem_sortNames.mpr hy, htoo⟩
  refine ⟨x, mem_sortNames.mp hx, htoo, ?_⟩
  rw [children_eq_mapM hnull hfind, hmap]
  rfl

/-- The completions of a typed text are the entries of what is listed, behind the typed text. -/
lemma run_completions (s : Session) (t : FileTree) (typed : String) (directory : Path) :
    (s.run t (completions typed directory)).1 =
      match completionRoot? t typed directory with
      | none => .ok []
      | some listed => (children t listed).map fun r =>
        r.1.map fun c => { c with label := typedDirectory typed ++ c.label } := by
  unfold completions
  rw [Session.run_bind, Session.run_read]
  simp only
  cases completionRoot? t typed directory with
  | none => rfl
  | some listed =>
    simp only
    rcases children t listed with e | ⟨found, records⟩
    · rfl
    · rfl

lemma dropEnd_extension {name : String} (h : isFileName name) :
    Text.dropEnd extension.length name ++ extension = name := by
  obtain ⟨stem, hstem⟩ := isFileName_iff.mp h
  have hlength : name.length - extension.length = stem.length := by
    rw [← String.length_toList, ← hstem, ← String.length_toList]
    simp
  rw [← String.toList_inj, String.toList_append, Text.dropEnd, String.toList_ofList, hlength,
    ← hstem, List.take_left']
  rfl

lemma mem_of_mem_dropEnd {n : ℕ} {s : String} {c : Char} (h : c ∈ (Text.dropEnd n s).toList) :
    c ∈ s.toList := by
  rw [Text.dropEnd, String.toList_ofList] at h
  exact List.mem_of_mem_take h

/-- The name of an entry can be read from its label: only the label of a directory has a slash
behind the front. -/
lemma exists_label {front name : String} {e : Entry} {c : Candidate} (hname : '/' ∉ name.toList)
    (h : entryCandidate? front (name, e) = some c) : ∃ label, c.label = front ++ label ∧
      if '/' ∈ label.toList then label = name ++ "/" else label ++ extension = name := by
  simp only [entryCandidate?] at h
  split_ifs at h with hdirectory hfile
  · obtain rfl := Option.some.inj h
    exact ⟨name ++ "/", rfl, by simp⟩
  · obtain rfl := Option.some.inj h
    have hslash : '/' ∉ (Text.dropEnd extension.length name).toList :=
      fun hslash => hname (mem_of_mem_dropEnd hslash)
    exact ⟨_, rfl, by rw [if_neg hslash, dropEnd_extension hfile]⟩

/-- Entries with different names are offered under different labels. -/
lemma label_ne {front name name' : String} {e e' : Entry} {c c' : Candidate}
    (hname : '/' ∉ name.toList) (hname' : '/' ∉ name'.toList) (hne : name ≠ name')
    (hc : entryCandidate? front (name, e) = some c)
    (hc' : entryCandidate? front (name', e') = some c') : c.label ≠ c'.label := by
  obtain ⟨label, hlabel, hread⟩ := exists_label hname hc
  obtain ⟨label', hlabel', hread'⟩ := exists_label hname' hc'
  intro heq
  obtain rfl : label = label' := by rwa [hlabel, hlabel', String.append_right_inj] at heq
  split_ifs at hread hread' with hslash
  · rw [hread, String.append_left_inj] at hread'
    exact hne hread'
  · exact hne (hread.symm.trans hread')

/-- No label is offered twice. -/
lemma nodup_labels {front : String} (hslash : ∀ x ∈ es, '/' ∉ x.1.toList)
    (hnodup : (es.map Prod.fst).Nodup) :
    ((es.filterMap (entryCandidate? front)).map Candidate.label).Nodup := by
  rw [List.Nodup, List.pairwise_map, List.pairwise_filterMap]
  refine (List.pairwise_map.mp hnodup).imp_of_mem fun {x y} hx hy hne c hc c' hc' => ?_
  exact label_ne (hslash x hx) (hslash y hy) hne hc hc'

/-- Completing a text lists a directory with some entries: one candidate is offered for each
directory and for each format description among them, and no other.  Where the path of an entry is
too long, the completion fails at such an entry. -/
structure Lists (t : FileTree) (directory : Path) (typed : String) (listed : Path)
    (es : List (String × Entry)) : Prop where
  offered : (∀ x ∈ es, ¬TooLong (listed.child x.1)) → ∃ candidates,
    candidates.Perm (es.filterMap (entryCandidate? (typedDirectory typed))) ∧
    (candidates.map Candidate.label).Nodup ∧
    ∀ s : Session, (s.run t (completions typed directory)).1 = .ok candidates
  failed : (∃ x ∈ es, TooLong (listed.child x.1)) → ∃ x ∈ es, TooLong (listed.child x.1) ∧
    ∀ s : Session, (s.run t (completions typed directory)).1 =
      .error (.file (.failed .nameTooLong (listed.child x.1).toString))

lemma lists_of_completionRoot? (ht : t.Regular) (hnull : hasNull listed = false)
    (hfind : t.find listed = .ok (way, .directory es))
    (hroot : completionRoot? t typed directory = some listed) :
    Lists t directory typed listed es where
  offered hshort := by
    have hat := FileTree.Regular.at?_of_find hfind
    have hprepend : ∀ x, (entryCandidate? "" x).map
        (fun c => { c with label := typedDirectory typed ++ c.label }) =
          entryCandidate? (typedDirectory typed) x := by
      rintro ⟨name, e⟩
      simp only [entryCandidate?]
      split_ifs <;> simp
    have hperm := (List.mergeSort_perm es fun x y => decide (x.1 ≤ y.1)).filterMap
      (entryCandidate? (typedDirectory typed))
    refine ⟨(FileTree.sortNames es).filterMap (entryCandidate? (typedDirectory typed)), hperm, ?_,
      fun s => ?_⟩
    · refine (hperm.map Candidate.label).nodup_iff.mpr (nodup_labels ?_ (ht.nodup way es hat))
      exact fun x hx => (ht.names way es hat x hx).component.no_slash
    · rw [run_completions, hroot]
      simp only [children_eq ht hnull hfind hshort, Except.map, List.map_filterMap, hprepend]
  failed hlong := by
    obtain ⟨x, hx, htoo, hchildren⟩ := children_error ht hnull hfind hlong
    refine ⟨x, hx, htoo, fun s => ?_⟩
    rw [run_completions, hroot]
    simp only [hchildren, Except.map]

/-! ## Back from the labels -/

/-- From a canonical directory every typed text leads to an absolute path. -/
lemma written_typedRoot (ht : t.Regular) (hdirectory : t.isDirectory directory = .ok true)
    (hcanonical : t.canonical directory = .ok directory) (typed : String) :
    (typedRoot directory typed).Written ∧ (typedRoot directory typed).isAbsolute := by
  obtain ⟨hnull, way, es, hfind⟩ := FileTree.isDirectory_eq_ok_true_iff.mp hdirectory
  have hway := (FileTree.canonical_of_find hnull hfind).1
  obtain rfl : ⟨.slash, way⟩ = directory := Except.ok.inj (hway.symm.trans hcanonical)
  exact ⟨(ht.written_of_find hfind).join (Path.written_ofString _), Path.isAbsolute_join rfl _⟩

/-- The label of a directory leads to this directory. -/
lemma typedRoot_label (directory : Path) (typed : String) {name : String}
    (hname : Path.IsComponent name) :
    typedRoot directory (typedDirectory typed ++ (name ++ "/")) =
      (typedRoot directory typed).child name := by
  have hlabel : typedDirectory (typedDirectory typed ++ (name ++ "/")) =
      typedDirectory typed ++ (name ++ "/") := by
    rw [← String.append_assoc, typedDirectory_concat]
  rw [typedRoot, hlabel, Path.ofString_append_slash (isFront_typedDirectory typed) hname,
    Path.join_child]
  rfl

/-- What is listed is a directory.  It is the one that the typed text leads to, or else this text
leads to a file in it. -/
lemma Listed.find (ht : t.Regular) (hwritten : root.Written) (habs : root.isAbsolute)
    (h : Listed t root listed) : hasNull root = false ∧ hasNull listed = false ∧ listed.Written ∧
      ∃ here e way es, t.find root = .ok (here, e) ∧ t.find listed = .ok (way, .directory es) ∧
        (here = way ↔ t.isDirectory root = .ok true) := by
  cases h with
  | directory hdirectory =>
    obtain ⟨hnull, way, es, hfind⟩ := FileTree.isDirectory_eq_ok_true_iff.mp hdirectory
    exact ⟨hnull, hnull, hwritten, way, _, way, es, hfind, hfind, by simp [hdirectory]⟩
  | file hfile =>
    obtain ⟨hnull, here, e, hfind, he⟩ := FileTree.isFile_eq_ok_true_iff.mp hfile
    cases e with
    | directory es => simp [Entry.isFile] at he
    | link target => simp [Entry.isFile] at he
    | pipe => simp [Entry.isFile] at he
    | file content changed =>
      obtain ⟨way, es, rfl, hparent⟩ := ht.find_parent hwritten habs hfind
      have hother : t.isDirectory root = .ok false := FileTree.ask_of_find hnull hfind _
      exact ⟨hnull, hasNull_parent hnull, hwritten.parent, way ++ [root.name], _, way, es, hfind,
        hparent, by simp [hother]⟩

/-- A character that can stand in the name of an entry. -/
def IsNameChar (c : Char) : Prop :=
  c ≠ '/' ∧ c ≠ '\x00' ∧ c ≠ '\\' ∧ c ≠ ':'

lemma isNameChar_of_mem {name : String} (h : IsEntryName name) {c : Char} (hc : c ∈ name.toList) :
    IsNameChar c := by
  refine ⟨?_, ?_, ?_, ?_⟩ <;> rintro rfl
  · exact h.component.no_slash hc
  · exact h.no_null hc
  · exact h.no_backslash hc
  · exact h.no_colon hc

lemma isNameChar_of_mem_withExtension {stem : String} (h : ∀ c ∈ stem.toList, IsNameChar c) :
    ∀ c ∈ (withExtension stem).toList, IsNameChar c := by
  have hextension : ∀ c ∈ extension.toList, IsNameChar c := by
    simp [extension, IsNameChar]
  unfold withExtension
  split_ifs
  · exact h
  · intro c hc
    rw [String.toList_append] at hc
    exact (List.mem_append.mp hc).elim (h c) (hextension c)

lemma isComponent_withExtension {stem : String} (h : ∀ c ∈ stem.toList, IsNameChar c) :
    Path.IsComponent (withExtension stem) ∧ withExtension stem ≠ ".." :=
  isComponent_of_isFileName (isFileName_withExtension stem)
    fun hslash => (isNameChar_of_mem_withExtension h _ hslash).1 rfl

/-- An ending is put behind the last component. -/
lemma withExtension_append {front : String} (hfront : Path.IsFront front.toList) (stem : String) :
    withExtension (front ++ stem) = front ++ withExtension stem := by
  unfold withExtension
  by_cases hstem : isFileName stem
  · have hname : isFileName (front ++ stem) := by
      rw [isFileName_iff, String.toList_append]
      exact (isFileName_iff.mp hstem).trans (List.suffix_append _ _)
    rw [if_pos hname, if_pos hstem]
  · rw [if_neg fun hname => hstem (isFileName_append hfront hname), if_neg hstem,
      String.append_assoc]

/-- The ending that was taken away is put back, unless there is another one in front of it. -/
lemma withExtension_dropEnd {name : String} (h : isFileName name) :
    withExtension (Text.dropEnd extension.length name) = name ↔
      ¬isFileName (Text.dropEnd extension.length name) := by
  have hname := dropEnd_extension h
  rw [withExtension]
  split_ifs with hstem
  · refine iff_of_false (fun heq => ?_) (not_not_intro hstem)
    rw [heq, String.append_eq_left_iff] at hname
    exact absurd hname (by decide)
  · exact iff_of_true hname hstem

lemma notMem_typed_append {c : Char} {name : String} (htyped : c ∉ typed.toList)
    (hname : c ∉ name.toList) : c ∉ (typedDirectory typed ++ name).toList := by
  rw [String.toList_append, List.mem_append, not_or]
  exact ⟨fun h => htyped (mem_typed_of_mem_typedDirectory h), hname⟩

/-- An import behind a typed text leads to a name next to what the text leads to. -/
lemma importPath_append (ht : t.Regular) (hback : '\\' ∉ typed.toList) (hcolon : ':' ∉ typed.toList)
    (hwritten : (typedRoot directory typed).Written)
    (hnull : hasNull (typedRoot directory typed) = false) {here : List String} {e : Entry}
    (hfind : t.find (typedRoot directory typed) = .ok (here, e)) {stem : String}
    (hstem : ∀ c ∈ stem.toList, IsNameChar c) :
    importPath t (typedDirectory typed ++ stem) (some directory) =
      (Path.mk .slash (here ++ [withExtension stem])).toString := by
  have hchars := isNameChar_of_mem_withExtension hstem
  obtain ⟨hname, hdots⟩ := isComponent_withExtension hstem
  have htext := withExtension_append (isFront_typedDirectory typed) stem
  have hroot : ((some directory).getD t.cwd).join
      (Path.ofString (withExtension (typedDirectory typed ++ stem))) =
        (typedRoot directory typed).child (withExtension stem) := by
    rw [htext, Path.ofString_append (isFront_typedDirectory typed) hname, Path.join_child]
    rfl
  have hdrive : isAbsoluteText (withExtension (typedDirectory typed ++ stem)) →
      (Path.ofString (withExtension (typedDirectory typed ++ stem))).isAbsolute := by
    rw [htext, isAbsoluteText_eq (notMem_typed_append hback fun h => (hchars _ h).2.2.1 rfl)
      (notMem_typed_append hcolon fun h => (hchars _ h).2.2.2 rfl)]
    exact id
  rw [importPath_eq_canonicalOrNormal hdrive hroot,
    (ht.canonical_child hwritten hnull hfind hname hdots fun h => (hchars _ h).2.1 rfl).2]

/-- The label of a description is the import of this description exactly if the typed text leads to
its directory, and its name does not end in the ending twice. -/
lemma importPath_label_iff (ht : t.Regular) (hback : '\\' ∉ typed.toList)
    (hcolon : ':' ∉ typed.toList) (hwritten : (typedRoot directory typed).Written)
    (habs : (typedRoot directory typed).isAbsolute)
    (hlisted : Listed t (typedRoot directory typed) listed)
    (hfind : t.find listed = .ok (way, .directory es)) {name : String} {e : Entry}
    (hmem : (name, e) ∈ es) (hname : isFileName name) :
    ∃ path, t.canonical (listed.child name) = .ok path ∧
      (importPath t (typedDirectory typed ++ Text.dropEnd extension.length name) (some directory) =
          path.toString ↔
        t.isDirectory (typedRoot directory typed) = .ok true ∧
          ¬isFileName (Text.dropEnd extension.length name)) := by
  obtain ⟨hnull, hnull', hwritten', here, e, way', es', hroot, hfind', hway⟩ :=
    hlisted.find ht hwritten habs
  obtain ⟨rfl, -⟩ : way = way' ∧ _ := by simpa using hfind.symm.trans hfind'
  have hentry := ht.isEntryName hfind hmem
  have hstem : ∀ c ∈ (Text.dropEnd extension.length name).toList, IsNameChar c :=
    fun c hc => isNameChar_of_mem hentry (mem_of_mem_dropEnd hc)
  have hto : (Path.mk .slash
      (here ++ [withExtension (Text.dropEnd extension.length name)])).Written :=
    (ht.written_of_find hroot).child (isComponent_withExtension hstem).1
  have hfrom : (Path.mk .slash (way ++ [name])).Written :=
    (ht.written_of_find hfind).child hentry.component
  refine ⟨_, (ht.canonical_child hwritten' hnull' hfind hentry.component hentry.ne_dots
    hentry.no_null).1, ?_⟩
  rw [importPath_append ht hback hcolon hwritten hnull hroot hstem, Path.toString_inj hto hfrom,
    ← hway, ← withExtension_dropEnd hname]
  simp

lemma run_completions_of_none (ht : t.Regular) (hdirectory : t.isDirectory directory = .ok true)
    (hback : '\\' ∉ typed.toList) (hcolon : ':' ∉ typed.toList)
    (hnone : ∀ listed, ¬Listed t (typedRoot directory typed) listed) (s : Session) :
    (s.run t (completions typed directory)).1 = .ok [] := by
  have hroot : completionRoot? t typed directory = none :=
    Option.eq_none_iff_forall_ne_some.mpr fun listed h =>
      hnone listed ((completionRoot?_eq_some_iff ht hdirectory hback hcolon).mp h)
  rw [run_completions, hroot]

lemma lists_of_listed (ht : t.Regular) (hdirectory : t.isDirectory directory = .ok true)
    (hcanonical : t.canonical directory = .ok directory) (hback : '\\' ∉ typed.toList)
    (hcolon : ':' ∉ typed.toList) (hlisted : Listed t (typedRoot directory typed) listed) :
    ∃ way es, t.find listed = .ok (way, .directory es) ∧ Lists t directory typed listed es := by
  obtain ⟨hwritten, habs⟩ := written_typedRoot ht hdirectory hcanonical typed
  obtain ⟨-, hnull, -, -, -, way, es, -, hfind, -⟩ := hlisted.find ht hwritten habs
  exact ⟨way, es, hfind, lists_of_completionRoot? ht hnull hfind
    ((completionRoot?_eq_some_iff ht hdirectory hback hcolon).mpr hlisted)⟩

/-- Completing the label of a directory lists this directory. -/
lemma lists_label (ht : t.Regular) (hdirectory : t.isDirectory directory = .ok true)
    (hback : '\\' ∉ typed.toList) (hcolon : ':' ∉ typed.toList)
    (hroot : t.isDirectory (typedRoot directory typed) = .ok true)
    (hfind : t.find (typedRoot directory typed) = .ok (way, .directory es)) {name : String}
    {inner : List (String × Entry)} (hmem : (name, .directory inner) ∈ es)
    (hshort : ¬TooLong ((typedRoot directory typed).child name)) :
    Lists t directory (typedDirectory typed ++ (name ++ "/"))
      ((typedRoot directory typed).child name)
      inner := by
  have hnull := (FileTree.isDirectory_eq_ok_true_iff.mp hroot).1
  have hname := ht.isEntryName hfind hmem
  have hchild := ht.isDirectory_child hnull hfind hmem hshort
  have hback' : '\\' ∉ (typedDirectory typed ++ (name ++ "/")).toList :=
    notMem_typed_append hback (by simpa using hname.no_backslash)
  have hcolon' : ':' ∉ (typedDirectory typed ++ (name ++ "/")).toList :=
    notMem_typed_append hcolon (by simpa using hname.no_colon)
  refine lists_of_completionRoot? ht (FileTree.hasNull_child hnull hname.no_null)
    (ht.find_child hfind hmem hshort)
    ((completionRoot?_eq_some_iff ht hdirectory hback' hcolon').mpr ?_)
  rw [typedRoot_label directory typed hname.component]
  exact .directory hchild

/-- Completed imports lead back to what was listed.

In a regular tree, for a canonical directory and a typed text without backslashes and colons:

* where the text leads to something up to its last slash, completing it lists the directory there,
  or the directory of a file there, and otherwise offers nothing;
* the label of a directory that is inside the one that the text leads to can be completed further,
  and this lists that directory;
* the label of a description is an import that leads, from every document in the directory, to the
  canonical path of the description exactly if the text leads to a directory and the name of the
  description does not end in the ending twice. -/
theorem completions_lead_back (ht : t.Regular) (hdirectory : t.isDirectory directory = .ok true)
    (hcanonical : t.canonical directory = .ok directory) (hback : '\\' ∉ typed.toList)
    (hcolon : ':' ∉ typed.toList) :
    (∀ listed, Listed t (typedRoot directory typed) listed →
      ∃ way es, t.find listed = .ok (way, .directory es) ∧ Lists t directory typed listed es) ∧
    ((∀ listed, ¬Listed t (typedRoot directory typed) listed) →
      ∀ s : Session, (s.run t (completions typed directory)).1 = .ok []) ∧
    (t.isDirectory (typedRoot directory typed) = .ok true → ∀ way es,
      t.find (typedRoot directory typed) = .ok (way, .directory es) →
      ∀ name inner, (name, .directory inner) ∈ es →
        ¬TooLong ((typedRoot directory typed).child name) →
        Lists t directory (typedDirectory typed ++ (name ++ "/"))
          ((typedRoot directory typed).child name) inner) ∧
    (∀ listed, Listed t (typedRoot directory typed) listed → ∀ way es,
      t.find listed = .ok (way, .directory es) →
      ∀ name content changed, (name, .file content changed) ∈ es → isFileName name →
        ∃ path, t.canonical (listed.child name) = .ok path ∧
          ∀ (s : Session) (d : Document), d.directory? = some directory →
            ((s.run t (computeImportPath
                (typedDirectory typed ++ Text.dropEnd extension.length name) d)).1 =
              .ok path.toString ↔
                t.isDirectory (typedRoot directory typed) = .ok true ∧
                  ¬isFileName (Text.dropEnd extension.length name))) := by
  obtain ⟨hwritten, habs⟩ := written_typedRoot ht hdirectory hcanonical typed
  refine ⟨fun listed hlisted => lists_of_listed ht hdirectory hcanonical hback hcolon hlisted,
    run_completions_of_none ht hdirectory hback hcolon, ?_, ?_⟩
  · intro hroot way es hfind name inner hmem hshort
    exact lists_label ht hdirectory hback hcolon hroot hfind hmem hshort
  · intro listed hlisted way es hfind name content changed hmem hname
    obtain ⟨path, hpath, hiff⟩ :=
      importPath_label_iff ht hback hcolon hwritten habs hlisted hfind hmem hname
    refine ⟨path, hpath, fun s d hd => ?_⟩
    rw [run_computeImportPath_fst, hd, Except.ok.injEq, hiff]

/-! ## A tree with one description -/

/-- A description in a directory. -/
def loneDescription : FileTree :=
  ⟨.directory [("sub", .directory [("a.ksy", .file [] 0)])], ⟨.slash, []⟩, 0⟩

lemma regular_loneDescription : loneDescription.Regular := by
  have hcwd : loneDescription.PlainCwd :=
    ⟨rfl, by simp [loneDescription, Path.Written], by decide, rfl⟩
  have hsub : IsEntryName "sub" :=
    ⟨⟨by decide, by decide, by decide⟩, by decide, by decide, by decide, by decide, by decide⟩
  have hdescription : IsEntryName "a.ksy" :=
    ⟨⟨by decide, by decide, by decide⟩, by decide, by decide, by decide, by decide, by decide⟩
  refine .of_entries (P := fun e => e = loneDescription.root ∨
    e = .directory [("a.ksy", .file [] 0)] ∨ e = .file [] 0) hcwd rfl (.inl rfl) ?_ ?_
  · rintro e (rfl | rfl | rfl)
    · exact .inr rfl
    · exact .inr rfl
    · exact .inl rfl
  · rintro es (h | h | h)
    · obtain rfl := Entry.directory.inj h
      simpa using hsub
    · obtain rfl := Entry.directory.inj h
      simpa using hdescription
    · simp at h

lemma find_loneDescription :
    loneDescription.find ⟨.slash, []⟩ = .ok ([], loneDescription.root) := by
  refine FileTree.find_eq_ok_iff.mpr ⟨by unfold TooLong; decide, ?_⟩
  show FileTree.followFrom loneDescription.root FileTree.maxLinks [] [] = _
  rw [FileTree.followFrom]
  rfl

lemma find_sub_loneDescription : loneDescription.find ⟨.slash, ["sub"]⟩ =
    .ok (["sub"], .directory [("a.ksy", .file [] 0)]) :=
  regular_loneDescription.find_child find_loneDescription List.mem_cons_self
    (by unfold TooLong; decide)

/-- The description of a tree is offered in its directory, and this import leads to it. -/
theorem completions_lead_back_loneDescription :
    loneDescription.Regular ∧ loneDescription.isDirectory ⟨.slash, []⟩ = .ok true ∧
      loneDescription.canonical ⟨.slash, []⟩ = .ok ⟨.slash, []⟩ ∧
      '\\' ∉ "sub/".toList ∧ ':' ∉ "sub/".toList ∧ ∀ s : Session,
        (s.run loneDescription (completions "sub/" ⟨.slash, []⟩)).1 = .ok [⟨"sub/a", false⟩] ∧
        (s.run loneDescription (computeImportPath "sub/a"
          (Document.empty "" (some ⟨.slash, ["d.ksy"]⟩) none))).1 = .ok "/sub/a.ksy" := by
  have ht := regular_loneDescription
  have hdirectory : loneDescription.isDirectory ⟨.slash, []⟩ = .ok true :=
    FileTree.isDirectory_eq_ok_true_iff.mpr ⟨rfl, _, _, find_loneDescription⟩
  have hcanonical := (FileTree.canonical_of_find rfl find_loneDescription).1
  have hback : '\\' ∉ "sub/".toList := by decide
  have hcolon : ':' ∉ "sub/".toList := by decide
  have hroot : typedRoot ⟨.slash, []⟩ "sub/" = ⟨.slash, ["sub"]⟩ := by decide
  have hsub : loneDescription.isDirectory ⟨.slash, ["sub"]⟩ = .ok true :=
    FileTree.isDirectory_eq_ok_true_iff.mpr ⟨rfl, _, _, find_sub_loneDescription⟩
  have hlisted : Listed loneDescription (typedRoot ⟨.slash, []⟩ "sub/") ⟨.slash, ["sub"]⟩ := by
    rw [hroot]
    exact .directory hsub
  obtain ⟨hlists, -, -, hlead⟩ := completions_lead_back ht hdirectory hcanonical hback hcolon
  obtain ⟨way, es, hfind', hoffers⟩ := hlists _ hlisted
  obtain ⟨rfl, rfl⟩ : ["sub"] = way ∧ [("a.ksy", Entry.file [] 0)] = es := by
    simpa using find_sub_loneDescription.symm.trans hfind'
  have hshort : ¬TooLong (Path.child ⟨.slash, ["sub"]⟩ "a.ksy") := by
    unfold TooLong
    decide
  obtain ⟨candidates, hperm, -, hrun⟩ := hoffers.offered fun x hx =>
    List.mem_singleton.mp hx ▸ hshort
  have hoffered : [("a.ksy", Entry.file [] 0)].filterMap (entryCandidate? (typedDirectory "sub/")) =
      [⟨"sub/a", false⟩] := by decide
  obtain rfl := List.perm_singleton.mp (hoffered ▸ hperm)
  obtain ⟨path, hpath, hlead⟩ :=
    hlead _ hlisted _ _ find_sub_loneDescription "a.ksy" [] 0 List.mem_cons_self (by decide)
  have hpath' : path = ⟨.slash, ["sub", "a.ksy"]⟩ := by
    have hfile := ht.find_child find_sub_loneDescription List.mem_cons_self hshort
    exact Except.ok.inj (hpath.symm.trans (FileTree.canonical_of_find rfl hfile).1)
  refine ⟨ht, hdirectory, hcanonical, hback, hcolon, fun s => ⟨hrun s, ?_⟩⟩
  have hd : (Document.empty "" (some ⟨.slash, ["d.ksy"]⟩) none).directory? =
      some ⟨.slash, []⟩ := rfl
  have himport := (hlead s _ hd).mpr ⟨?_, by decide⟩
  · rw [hpath'] at himport
    exact himport
  · rwa [hroot]

end Ksy

end KsyTools
