/-
# File trees without links

Where there are no links, the canonical path of a path is found without looking at any files: it is
the absolute path, with a single slash at its start.
-/
import KsyTools.Proofs.Files.Links
import KsyTools.Proofs.Path.Written
import KsyTools.Server.ImportIndex

namespace KsyTools

namespace FileTree

/-- No entry of the tree is a link. -/
def LinkFree (t : FileTree) : Prop :=
  ∀ way target, t.root.at? way ≠ some (.link target)

/-- The current directory starts with a single slash, and has no dots and no NUL character. -/
structure PlainCwd (t : FileTree) : Prop where
  root : t.cwd.root = .slash
  written : t.cwd.Written
  dots : ".." ∉ t.cwd.parts
  null : hasNull t.cwd = false

variable {t : FileTree} {p : Path}

lemma LinkFree.linkTarget?_eq_none (h : t.LinkFree) (way : List String) :
    linkTarget? t.root way = none := by
  unfold linkTarget?
  split
  · next target hat => exact absurd hat (h _ _)
  · rfl

/-- Without links only dots are taken away. -/
lemma LinkFree.canonicalFrom_eq (h : t.LinkFree) (depth : ℕ) (seen : SeenLinks)
    (here way : List String) :
    canonicalFrom t.root depth seen here way =
      ((Path.dropDots here (way.filter (· != "."))).reverse, true, seen) := by
  induction way generalizing here with
  | nil => simp [canonicalFrom, Path.dropDots]
  | cons name rest ih =>
    rw [canonicalFrom]
    by_cases hdot : name = "."
    · simp [hdot, ih]
    · by_cases hdots : name = ".."
      · simp [hdots, ih, Path.dropDots]
      · simp [hdot, hdots, h.linkTarget?_eq_none, ih, Path.dropDots]

/-- Without links there are never too many of them. -/
lemma LinkFree.followFrom_ne_tooManyLinks (h : t.LinkFree) (links : ℕ) (here way : List String) :
    followFrom t.root links here way ≠ .error .tooManyLinks := by
  induction way generalizing here with
  | nil =>
    rw [followFrom]
    split <;> simp
  | cons name rest ih =>
    rw [followFrom]
    cases hdir : t.root.at? here.reverse with
    | none => simp
    | some dir =>
      simp only
      split_ifs with hd hdot hdots hlong
      · simp
      · exact ih here
      · exact ih here.tail
      · simp
      · cases hchild : dir.child? name with
        | none => simp
        | some e =>
          cases e with
          | link target =>
            have hat : t.root.at? (here.reverse ++ [name]) = some (.link target) := by
              simp [Entry.at?_append, hdir, Entry.at?_singleton, hchild]
            exact absurd hat (h _ _)
          | file content changed => exact ih (name :: here)
          | directory es => exact ih (name :: here)
          | pipe => exact ih (name :: here)

lemma LinkFree.stat_ne_tooManyLinks (h : t.LinkFree) (path : String) :
    t.stat p ≠ .error (.failed .tooManyLinks path) := by
  unfold stat find
  split_ifs with hnull hlong
  · simp
  · simp
  · cases hf : followFrom t.root maxLinks [] (t.fromRoot p).parts with
    | ok r => simp [Except.map]
    | error fault =>
      have hfault : fault ≠ .tooManyLinks := by
        rintro rfl
        exact h.followFrom_ne_tooManyLinks _ _ _ hf
      simp [Except.map, hfault]

/-- A written path has no `.` to be taken away. -/
lemma filter_dot_of_written (hp : p.Written) : p.parts.filter (· != ".") = p.parts := by
  rw [List.filter_eq_self]
  intro part hpart
  simp [(hp part hpart).ne_dot]

/-- Without links the canonical path is the absolute path, with a single slash. -/
lemma LinkFree.canonical_eq (h : t.LinkFree) (hcwd : t.PlainCwd) (hp : p.Written)
    (hnull : hasNull p = false) : t.canonical p = .ok ⟨.slash, (t.key p).parts⟩ := by
  have hdots : ".." ∉ Path.dropDots [] (t.fromRoot p).parts := Path.dots_notMem_dropDots (by simp)
  have hwritten : (t.fromRoot p).Written := hcwd.written.join hp
  unfold canonical
  rw [if_neg (by simp [hnull]), h.canonicalFrom_eq]
  simp only [List.reverse_reverse]
  rw [filter_dot_of_written hwritten, Path.dropDots_of_notMem hdots]
  rfl

lemma LinkFree.indexKey?_eq (h : t.LinkFree) (hcwd : t.PlainCwd) (hp : p.Written)
    (hnull : hasNull p = false) : t.indexKey? p = some ⟨.slash, (t.key p).parts⟩ := by
  rw [indexKey?, h.canonical_eq hcwd hp hnull]
  rfl

lemma LinkFree.documentKey_eq (h : t.LinkFree) (hcwd : t.PlainCwd) (hp : p.Written)
    (hnull : hasNull p = false) : t.documentKey p = ⟨.slash, (t.key p).parts⟩ := by
  rw [documentKey, h.canonical_eq hcwd hp hnull]

lemma LinkFree.canonicalOrNormal_eq (h : t.LinkFree) (hcwd : t.PlainCwd) (hp : p.Written)
    (hnull : hasNull p = false) :
    Ksy.canonicalOrNormal t p = (⟨.slash, (t.key p).parts⟩, none) := by
  rw [Ksy.canonicalOrNormal, h.canonical_eq hcwd hp hnull]
  simp only
  split
  · next path hstat => exact absurd hstat (h.stat_ne_tooManyLinks path)
  · rfl

/-! ## Paths that do not start with two slashes -/

/-- A path that the index knows under its absolute form: it does not start with two slashes and has
no NUL character. -/
structure Plain (p : Path) : Prop where
  written : p.Written
  root : p.root ≠ .doubleSlash
  null : hasNull p = false

lemma key_root (hcwd : t.PlainCwd) (hp : p.root ≠ .doubleSlash) : (t.key p).root = .slash := by
  obtain ⟨root, parts⟩ := p
  cases root with
  | relative => exact hcwd.root
  | slash => rfl
  | doubleSlash => exact absurd rfl hp

lemma key_key (hcwd : t.PlainCwd) (p : Path) : t.key (t.key p) = t.key p := by
  have hdots : ".." ∉ (t.key p).parts := Path.dots_notMem_dropDots (by simp)
  have habs : (t.key p).isAbsolute := by
    obtain ⟨root, parts⟩ := p
    cases root with
    | relative => simp [key, Path.absolute, Path.join, Path.isAbsolute, hcwd.root]
    | slash => rfl
    | doubleSlash => rfl
  rw [key, Path.absolute, Path.join, if_pos habs]
  exact congrArg (Path.mk _) (Path.dropDots_of_notMem hdots)

lemma hasNull_eq_false_iff : hasNull p = false ↔ ∀ part ∈ p.parts, '\x00' ∉ part.toList := by
  simp [hasNull]

lemma hasNull_join {q : Path} (hp : hasNull p = false) (hq : hasNull q = false) :
    hasNull (p.join q) = false := by
  unfold Path.join
  split_ifs with habs
  · exact hq
  · rw [hasNull_eq_false_iff] at hp hq ⊢
    intro part hpart
    rcases List.mem_append.mp hpart with hpart | hpart
    · exact hp part hpart
    · exact hq part hpart

lemma hasNull_key (hcwd : t.PlainCwd) (hp : hasNull p = false) : hasNull (t.key p) = false := by
  have hjoin := hasNull_eq_false_iff.mp (hasNull_join hcwd.null hp)
  rw [hasNull_eq_false_iff]
  intro part hpart
  rcases Path.mem_dropDots hpart with hpart | hpart
  · simp at hpart
  · exact hjoin part hpart

lemma Plain.key (hcwd : t.PlainCwd) (hp : Plain p) : Plain (t.key p) where
  written := hcwd.written.absolute hp.written
  root := by simp [key_root hcwd hp.root]
  null := hasNull_key hcwd hp.null

lemma LinkFree.indexKey?_of_plain (h : t.LinkFree) (hcwd : t.PlainCwd) (hp : Plain p) :
    t.indexKey? p = some (t.key p) := by
  rw [h.indexKey?_eq hcwd hp.written hp.null, ← key_root hcwd hp.root]

lemma LinkFree.documentKey_of_plain (h : t.LinkFree) (hcwd : t.PlainCwd) (hp : Plain p) :
    t.documentKey p = t.key p := by
  rw [h.documentKey_eq hcwd hp.written hp.null, ← key_root hcwd hp.root]

/-! ## Paths without dots -/

lemma key_of_dots_notMem (hcwd : t.PlainCwd) (hdots : ".." ∉ p.parts) :
    t.key p = ⟨(t.fromRoot p).root, (t.fromRoot p).parts⟩ := by
  have hjoin : ".." ∉ (t.cwd.join p).parts := by
    unfold Path.join
    split_ifs
    · exact hdots
    · simpa using ⟨hcwd.dots, hdots⟩
  rw [key, Path.absolute, Path.dropDots_of_notMem hjoin]
  rfl

/-- The text of a path is not longer than that of its absolute form. -/
lemma utf8ByteSize_toString_le_key (hcwd : t.PlainCwd) (hdots : ".." ∉ p.parts) :
    p.toString.utf8ByteSize ≤ (t.key p).toString.utf8ByteSize := by
  obtain ⟨root, parts⟩ := p
  rw [key_of_dots_notMem hcwd hdots]
  cases root with
  | slash => exact le_refl _
  | doubleSlash => exact le_refl _
  | relative =>
    -- the current directory is put in front
    have hkey : (Path.mk t.cwd.root (t.cwd.parts ++ parts)).toString =
        "/" ++ "/".intercalate (t.cwd.parts ++ parts) := by
      simp [Path.toString, hcwd.root, PathRoot.text]
    change _ ≤ (Path.mk t.cwd.root (t.cwd.parts ++ parts)).toString.utf8ByteSize
    rw [hkey, String.utf8ByteSize_append]
    have hslash : "/".utf8ByteSize = 1 := by decide
    by_cases hparts : parts = []
    · subst hparts
      have hdot : (Path.mk .relative []).toString.utf8ByteSize = 1 := by decide
      omega
    · have htext : (Path.mk .relative parts).toString = "/".intercalate parts := by
        simp [Path.toString, hparts, PathRoot.text]
      rw [htext]
      by_cases hhere : t.cwd.parts = []
      · rw [hhere, List.nil_append]
        omega
      · rw [String.intercalate_append_of_ne_nil hhere hparts, String.utf8ByteSize_append]
        omega

/-- What is at the absolute form of a path without dots is at the path itself. -/
lemma find_of_find_key {r : List String × Entry} (hcwd : t.PlainCwd) (hdots : ".." ∉ p.parts)
    (h : t.find (t.key p) = .ok r) : t.find p = .ok r := by
  have hsize := utf8ByteSize_toString_le_key hcwd hdots
  have hfrom : (t.fromRoot (t.key p)).parts = (t.fromRoot p).parts := by
    rw [key_of_dots_notMem hcwd hdots]
    obtain ⟨root, parts⟩ := p
    cases root with
    | relative => simp [fromRoot, Path.join, Path.isAbsolute, hcwd.root]
    | slash => rfl
    | doubleSlash => rfl
  -- only the bound on the length tells the two searches apart
  unfold find at h ⊢
  rw [hfrom] at h
  split_ifs at h with hlong
  rwa [if_neg (by omega)]

/-! ## No files at all -/

/-- A file system without files. -/
def noFiles : FileTree := ⟨.directory [], ⟨.slash, []⟩, 0⟩

lemma linkFree_noFiles : noFiles.LinkFree := by
  intro way target h
  cases way with
  | nil => simp [noFiles, Entry.at?] at h
  | cons name rest => simp [noFiles, Entry.at?, Entry.child?, Entry.entries] at h

lemma plainCwd_noFiles : noFiles.PlainCwd where
  root := rfl
  written := by simp [noFiles, Path.Written]
  dots := by simp [noFiles]
  null := rfl

/-- A name in the root directory. -/
lemma plain_singleton {name : String} (h : Path.IsComponent name) (hnull : '\x00' ∉ name.toList) :
    Plain ⟨.slash, [name]⟩ where
  written := by simpa [Path.Written] using h
  root := by simp
  null := by simpa [hasNull] using hnull

lemma key_singleton {name : String} (hdots : name ≠ "..") :
    noFiles.key ⟨.slash, [name]⟩ = ⟨.slash, [name]⟩ := by
  simp [key, Path.absolute, Path.join, Path.isAbsolute, Path.dropDots, hdots]

end FileTree

open FileTree (noFiles)

/-- An import by name leads from the root directory to the file of this name. -/
lemma Ksy.importPath_noFiles {text name : String}
    (hwritten : Path.ofString (withExtension text) = ⟨.relative, [name]⟩)
    (hdrive : ¬(isAbsoluteText (withExtension text) &&
      !(Path.ofString (withExtension text)).isAbsolute))
    (hname : Path.IsComponent name) (hnull : '\x00' ∉ name.toList) (hdots : name ≠ "..") :
    importPath noFiles text (some ⟨.slash, []⟩) = Path.toString ⟨.slash, [name]⟩ := by
  have hplain := FileTree.plain_singleton hname hnull
  rw [importPath, importPathNote]
  dsimp only
  rw [if_neg hdrive, hwritten]
  change (canonicalOrNormal noFiles ⟨.slash, [name]⟩).1.toString = _
  rw [FileTree.linkFree_noFiles.canonicalOrNormal_eq FileTree.plainCwd_noFiles hplain.written
    hplain.null, FileTree.key_singleton hdots]

end KsyTools
