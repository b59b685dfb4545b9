/-
# Trees of directories and files

Trees that hold nothing but directories and files, under names that can be written in paths.  In
such a tree a way is followed part by part: what is at a path decides what is one name further, as
long as the longer path is not too long to be looked up.
-/
import KsyTools.Proofs.Files.LinkFree
import KsyTools.Proofs.Path.LastComponent
import KsyTools.Proofs.Schema.Values

namespace KsyTools

namespace FileTree

variable {t : FileTree} {p : Path} {way : List String} {es : List (String × Entry)} {e : Entry}
  {name : String}

/-! ## Ways, one after the other -/

/-- Without links a way is followed part by part. -/
lemma LinkFree.followFrom_append (h : t.LinkFree) (links : ℕ) (here v w : List String) :
    followFrom t.root links here (v ++ w) =
      (followFrom t.root links here v).bind fun r => followFrom t.root links r.1 w := by
  induction v generalizing here with
  | nil =>
    rw [List.nil_append]
    conv_rhs => rw [followFrom]
    cases hat : t.root.at? here.reverse with
    | none => cases w <;> simp [followFrom, hat, Except.bind]
    | some e => rfl
  | cons name rest ih =>
    rw [List.cons_append, followFrom]
    conv_rhs => rw [followFrom]
    cases hdir : t.root.at? here.reverse with
    | none => rfl
    | some dir =>
      simp only
      split_ifs with hd hdot hdots hlong
      · rfl
      · exact ih here
      · exact ih here.tail
      · rfl
      · cases hchild : dir.child? name with
        | none => rfl
        | some e =>
          cases e with
          | link target =>
            have hat : t.root.at? (here.reverse ++ [name]) = some (.link target) := by
              simp [Entry.at?_append, hdir, Entry.at?_singleton, hchild]
            exact absurd hat (h _ _)
          | file content changed => exact ih (name :: here)
          | directory es => exact ih (name :: here)
          | pipe => exact ih (name :: here)

lemma followFrom_nil_ok {root : Entry} {links : ℕ} {here there : List String}
    (h : followFrom root links here [] = .ok (there, e)) :
    there = here ∧ root.at? here.reverse = some e := by
  rw [followFrom] at h
  split at h
  next e' hat =>
    obtain ⟨rfl, rfl⟩ : here = there ∧ e' = e := by simpa using h
    exact ⟨rfl, hat⟩
  · simp at h

/-- Only directories have something inside. -/
lemma exists_directory_of_at?_concat {root : Entry} (h : root.at? (way ++ [name]) = some e) :
    ∃ es, root.at? way = some (.directory es) := by
  rw [Entry.at?_append, Option.bind_eq_some_iff] at h
  obtain ⟨dir, hdir, hchild⟩ := h
  rw [Entry.at?_singleton] at hchild
  cases dir with
  | directory es => exact ⟨es, hdir⟩
  | file content changed => simp [Entry.child?, Entry.entries] at hchild
  | pipe => simp [Entry.child?, Entry.entries] at hchild
  | link target => simp [Entry.child?, Entry.entries] at hchild

/-- A path is too long to be looked up. -/
def TooLong (p : Path) : Prop :=
  maxPath ≤ p.toString.utf8ByteSize

lemma find_eq_ok_iff : t.find p = .ok (way, e) ↔ ¬TooLong p ∧
    followFrom t.root maxLinks [] (t.fromRoot p).parts = .ok (way.reverse, e) := by
  rw [find, TooLong]
  by_cases hlong : maxPath ≤ p.toString.utf8ByteSize
  · simp [hlong]
  · rw [if_neg hlong]
    cases hfollow : followFrom t.root maxLinks [] (t.fromRoot p).parts with
    | error fault => simp [Except.map]
    | ok r =>
      obtain ⟨here, e'⟩ := r
      simp [Except.map, hlong, List.reverse_eq_iff]

lemma isDirectory_eq_ok_true_iff : t.isDirectory p = .ok true ↔
    hasNull p = false ∧ ∃ way es, t.find p = .ok (way, .directory es) := by
  rw [isDirectory, ask_eq_ok_true_iff]
  refine and_congr_right fun _ => ⟨?_, ?_⟩
  · rintro ⟨way, e, hfind, he⟩
    cases e with
    | directory es => exact ⟨way, es, hfind⟩
    | file => simp [Entry.isDirectory] at he
    | pipe => simp [Entry.isDirectory] at he
    | link => simp [Entry.isDirectory] at he
  · rintro ⟨way, es, hfind⟩
    exact ⟨way, _, hfind, rfl⟩

/-- A question about a path that is too long fails. -/
lemma isDirectory_of_tooLong (hnull : hasNull p = false) (hlong : TooLong p) :
    t.isDirectory p = .error (.failed .nameTooLong p.toString) := by
  have hfind : t.find p = .error .nameTooLong := if_pos hlong
  simp [isDirectory, ask, stat, hnull, hfind, FileFault.meansAbsent]

lemma hasNull_child (hp : hasNull p = false) (hname : '\x00' ∉ name.toList) :
    hasNull (p.child name) = false := by
  rw [hasNull_eq_false_iff] at hp ⊢
  intro part hpart
  rcases List.mem_append.mp hpart with hpart | hpart
  · exact hp part hpart
  · rwa [List.mem_singleton.mp hpart]

/-! ## Regular trees -/

/-- A name as entries of a regular tree have it: one that can stand in a path, and without a
backslash and a colon. -/
structure IsEntryName (name : String) : Prop where
  component : Path.IsComponent name
  ne_dots : name ≠ ".."
  no_null : '\x00' ∉ name.toList
  short : name.utf8ByteSize ≤ maxName
  no_backslash : '\\' ∉ name.toList
  no_colon : ':' ∉ name.toList

/-- A tree of directories and files, with proper names of which no two are the same in one
directory. -/
structure Regular (t : FileTree) : Prop where
  plainCwd : t.PlainCwd
  root : t.root.isDirectory
  kinds : ∀ way e, t.root.at? way = some e → e.isFile ∨ e.isDirectory
  names : ∀ way es, t.root.at? way = some (.directory es) → ∀ x ∈ es, IsEntryName x.1
  nodup : ∀ way es, t.root.at? way = some (.directory es) → (es.map Prod.fst).Nodup

/-- What holds of an entry, and with a directory of what is inside, holds wherever a way leads. -/
lemma prop_of_at? {P : Entry → Prop} (hinside : ∀ es, P (.directory es) → ∀ x ∈ es, P x.2)
    {root : Entry} (hroot : P root) (h : root.at? way = some e) : P e := by
  induction way generalizing root with
  | nil => exact Option.some.inj h ▸ hroot
  | cons name rest ih =>
    obtain ⟨inner, hchild, hrest⟩ := Option.bind_eq_some_iff.mp h
    refine ih ?_ hrest
    cases root with
    | directory es => exact hinside es hroot _ (Keyed.mem_of_lookup hchild)
    | file content changed => simp [Entry.child?, Entry.entries] at hchild
    | pipe => simp [Entry.child?, Entry.entries] at hchild
    | link target => simp [Entry.child?, Entry.entries] at hchild

namespace Regular

/-- A tree is regular if its entries are taken from proper files and directories. -/
lemma of_entries {P : Entry → Prop} (hcwd : t.PlainCwd) (hdirectory : t.root.isDirectory)
    (hroot : P t.root) (hkinds : ∀ e, P e → e.isFile ∨ e.isDirectory)
    (hinside : ∀ es, P (.directory es) → (∀ x ∈ es, IsEntryName x.1 ∧ P x.2) ∧
      (es.map Prod.fst).Nodup) : t.Regular := by
  have hall {way e} (h : t.root.at? way = some e) : P e :=
    prop_of_at? (fun es hes x hx => ((hinside es hes).1 x hx).2) hroot h
  exact ⟨hcwd, hdirectory, fun _ e h => hkinds e (hall h),
    fun _ es h x hx => ((hinside es (hall h)).1 x hx).1, fun _ es h => (hinside es (hall h)).2⟩

lemma linkFree (ht : t.Regular) : t.LinkFree := by
  intro way target hat
  rcases ht.kinds way _ hat with h | h
  · simp [Entry.isFile] at h
  · simp [Entry.isDirectory] at h

lemma at?_of_find (hfind : t.find p = .ok (way, e)) : t.root.at? way = some e := by
  obtain ⟨-, hfollow⟩ := find_eq_ok_iff.mp hfind
  simpa using (leads_of_followFrom hfollow).2

lemma isEntryName (ht : t.Regular) (hfind : t.find p = .ok (way, .directory es))
    (hmem : (name, e) ∈ es) : IsEntryName name :=
  ht.names way es (at?_of_find hfind) _ hmem

/-- An entry of a directory is found one name further. -/
lemma find_child (ht : t.Regular) (hfind : t.find p = .ok (way, .directory es))
    (hmem : (name, e) ∈ es) (hshort : ¬TooLong (p.child name)) :
    t.find (p.child name) = .ok (way ++ [name], e) := by
  have hname := ht.isEntryName hfind hmem
  obtain ⟨-, hfollow⟩ := find_eq_ok_iff.mp hfind
  have hat := at?_of_find hfind
  have hchild : (Entry.directory es).child? name = some e :=
    (Keyed.lookup_eq_some_iff (ht.nodup way es hat)).mpr hmem
  have hinner : t.root.at? (way ++ [name]) = some e := by
    rw [Entry.at?_append, hat, Option.bind_some, Entry.at?_singleton, hchild]
  have hstep : followFrom t.root maxLinks way.reverse [name] = .ok (name :: way.reverse, e) := by
    have hend :
        followFrom t.root maxLinks (name :: way.reverse) [] = .ok (name :: way.reverse, e) := by
      rw [followFrom]
      simp [hinner]
    rw [followFrom]
    simp only [List.reverse_reverse, hat, hchild, Entry.isDirectory, Bool.not_true,
      Bool.false_eq_true, if_false, if_neg hname.component.ne_dot, if_neg hname.ne_dots,
      if_neg (Nat.not_lt.mpr hname.short)]
    cases e with
    | link target => exact absurd hinner (ht.linkFree _ _)
    | file content changed => exact hend
    | directory es => exact hend
    | pipe => exact hend
  refine find_eq_ok_iff.mpr ⟨hshort, ?_⟩
  rw [fromRoot, Path.join_child]
  show followFrom t.root maxLinks [] ((t.fromRoot p).parts ++ [name]) = _
  rw [ht.linkFree.followFrom_append, hfollow, List.reverse_append]
  exact hstep

lemma isDirectory_child (ht : t.Regular) (hnull : hasNull p = false)
    (hfind : t.find p = .ok (way, .directory es)) (hmem : (name, e) ∈ es)
    (hshort : ¬TooLong (p.child name)) : t.isDirectory (p.child name) = .ok e.isDirectory := by
  have hnull' := hasNull_child hnull (ht.isEntryName hfind hmem).no_null
  exact ask_of_find hnull' (ht.find_child hfind hmem hshort) Entry.isDirectory

/-! ### Files and their directories -/

lemma root_ne_file {content : List UInt8} {changed : ℕ} (ht : t.Regular) :
    t.root.at? [] ≠ some (.file content changed) := by
  intro hroot
  have hdirectory := ht.root
  rw [Option.some.inj hroot] at hdirectory
  simp [Entry.isDirectory] at hdirectory

/-- The last name on the way to a file is its name in a directory. -/
lemma directory_of_file {content : List UInt8} {changed : ℕ} (ht : t.Regular)
    {here there : List String}
    {outer : Entry} (houter : t.root.at? here.reverse = some outer) (hname : name ≠ ".")
    (h : followFrom t.root maxLinks here [name] = .ok (there, .file content changed)) :
    there = name :: here ∧ ∃ es, outer = .directory es := by
  rcases followFrom_cons_ok h with ⟨hdot, -⟩ | ⟨-, hup⟩ | ⟨-, -, -, hend⟩ |
    ⟨target, -, -, -, htarget, -⟩
  · exact absurd hdot hname
  · -- `..` leads to a directory
    obtain ⟨-, hfile⟩ := followFrom_nil_ok hup
    cases here with
    | nil => exact absurd hfile ht.root_ne_file
    | cons inner here =>
      rw [List.reverse_cons] at houter
      obtain ⟨es, hdirectory⟩ := exists_directory_of_at?_concat houter
      rw [List.tail_cons, hdirectory] at hfile
      simp at hfile
  · obtain ⟨hway, hfile⟩ := followFrom_nil_ok hend
    rw [List.reverse_cons] at hfile
    obtain ⟨es, hdirectory⟩ := exists_directory_of_at?_concat hfile
    exact ⟨hway, es, Option.some.inj (houter.symm.trans hdirectory)⟩
  · rw [ht.linkFree.linkTarget?_eq_none] at htarget
    simp at htarget

/-- The directory of a file is found one name less far. -/
lemma find_parent {content : List UInt8} {changed : ℕ} (ht : t.Regular) (hp : p.Written)
    (habs : p.isAbsolute) (hfind : t.find p = .ok (way, .file content changed)) :
    ∃ above es, way = above ++ [p.name] ∧ t.find p.parent = .ok (above, .directory es) := by
  obtain ⟨hsize, hfollow⟩ := find_eq_ok_iff.mp hfind
  have hfrom : ∀ q : Path, q.isAbsolute → t.fromRoot q = q := fun q hq => if_pos hq
  rw [hfrom p habs] at hfollow
  -- the root directory is no file, so there is a last component
  have hparts : p.parts ≠ [] := by
    intro hempty
    rw [hempty] at hfollow
    exact ht.root_ne_file (followFrom_nil_ok hfollow).2
  have hlast : p.parts = p.parent.parts ++ [p.name] :=
    congrArg Path.parts (Path.parent_child hparts).symm
  rw [hlast, ht.linkFree.followFrom_append] at hfollow
  cases hfront : followFrom t.root maxLinks [] p.parent.parts with
  | error fault => simp [hfront, Except.bind] at hfollow
  | ok r =>
    obtain ⟨here, outer⟩ := r
    simp only [hfront, Except.bind] at hfollow
    have hdot : p.name ≠ "." := (hp _ (by rw [hlast]; simp)).ne_dot
    obtain ⟨hway, es, rfl⟩ := ht.directory_of_file (leads_of_followFrom hfront).2 hdot hfollow
    refine ⟨here.reverse, es, by simpa using congrArg List.reverse hway,
      find_eq_ok_iff.mpr ⟨?_, ?_⟩⟩
    · have hle := Path.utf8ByteSize_toString_le_child (p := p.parent) habs p.name
      rw [Path.parent_child hparts] at hle
      exact fun hlong => hsize (hlong.trans hle)
    · rw [hfrom p.parent habs, hfront, List.reverse_reverse]

/-! ### Canonical paths -/

/-- The way to what exists has names of entries only. -/
lemma isEntryName_of_at? (ht : t.Regular) (hat : t.root.at? way = some e) :
    ∀ part ∈ way, IsEntryName part := by
  induction way using List.reverseRecOn generalizing e with
  | nil => simp
  | append_singleton way name ih =>
    obtain ⟨es, hdirectory⟩ := exists_directory_of_at?_concat hat
    rw [Entry.at?_append, hdirectory, Option.bind_some, Entry.at?_singleton] at hat
    intro part hpart
    rcases List.mem_append.mp hpart with hpart | hpart
    · exact ih hdirectory part hpart
    · rw [List.mem_singleton.mp hpart]
      exact ht.names way es hdirectory _ (Keyed.mem_of_lookup hat)

lemma written_of_find (ht : t.Regular) (hfind : t.find p = .ok (way, e)) :
    (Path.mk .slash way).Written :=
  fun part hpart => (ht.isEntryName_of_at? (at?_of_find hfind) part hpart).component

/-- The normal form of a path to something is the way there. -/
lemma key_parts_of_find (ht : t.Regular) (hp : p.Written) (hnull : hasNull p = false)
    (hfind : t.find p = .ok (way, e)) : (t.key p).parts = way := by
  have hcanonical := (canonical_of_find hnull hfind).1
  rw [ht.linkFree.canonical_eq ht.plainCwd hp hnull] at hcanonical
  exact (Path.mk.inj (Except.ok.inj hcanonical)).2

/-- The canonical path one name further, whether or not something is there. -/
lemma canonical_child (ht : t.Regular) (hp : p.Written) (hnull : hasNull p = false)
    (hfind : t.find p = .ok (way, e)) (hname : Path.IsComponent name) (hdots : name ≠ "..")
    (hname' : '\x00' ∉ name.toList) :
    t.canonical (p.child name) = .ok ⟨.slash, way ++ [name]⟩ ∧
      Ksy.canonicalOrNormal t (p.child name) = (⟨.slash, way ++ [name]⟩, none) := by
  have hkey : (t.key (p.child name)).parts = way ++ [name] := by
    rw [key, Path.absolute_child hdots, Path.child, ← ht.key_parts_of_find hp hnull hfind]
    rfl
  have hwritten := hp.child hname
  have hnull' := hasNull_child hnull hname'
  rw [ht.linkFree.canonical_eq ht.plainCwd hwritten hnull',
    ht.linkFree.canonicalOrNormal_eq ht.plainCwd hwritten hnull', hkey]
  exact ⟨rfl, rfl⟩

end Regular

end FileTree

end KsyTools
