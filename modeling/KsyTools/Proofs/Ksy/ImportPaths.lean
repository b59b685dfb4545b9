/-
# Where imports lead without links

Where there are no links, an import leads to the normal form of its path, taken from the directory
of the document and that from the current directory.  This is so whether the path could be followed,
or only be brought into normal form because it is none.  An import that is written as such a path
leads to itself, from every document.
-/
import KsyTools.Proofs.Files.LinkFree
import KsyTools.Proofs.Ksy.ImportedDocument
import KsyTools.Proofs.Path.LastComponent

namespace KsyTools

open FileTree (LinkFree PlainCwd noFiles)

namespace Path

lemma isAbsolute_join {p : Path} (hp : p.isAbsolute) (q : Path) : (p.join q).isAbsolute := by
  unfold join
  split_ifs with hq
  · exact hq
  · exact hp

/-- A path with nothing in it stands for the current directory. -/
lemma absolute_join {cwd : Path} (hcwd : cwd.isAbsolute) (p : Path) :
    absolute cwd (cwd.join p) = absolute cwd ((⟨.relative, []⟩ : Path).join p) := by
  have hrelative : (⟨.relative, []⟩ : Path).join p = p := by
    obtain ⟨root, parts⟩ := p
    cases root <;> rfl
  have hjoin : cwd.join (cwd.join p) = cwd.join p := by
    conv_lhs => rw [join, if_pos (isAbsolute_join hcwd p)]
  rw [hrelative, absolute, absolute, hjoin]

lemma join_root_ne_doubleSlash {p q : Path} (hp : p.root ≠ .doubleSlash)
    (hq : q.root ≠ .doubleSlash) : (p.join q).root ≠ .doubleSlash := by
  unfold join
  split_ifs
  · exact hq
  · exact hp

/-- The text of a path from the root directory. -/
lemma toString_slash (parts : List String) :
    (Path.mk .slash parts).toString = "/" ++ "/".intercalate parts := by
  simp [toString, PathRoot.text]

end Path

namespace Ksy

variable {t : FileTree} {text : String} {directory? : Option Path}

/-- Without links the canonical form and the normal form that can stand in for it are the same. -/
lemma canonicalOrNormal_eq_key (hlinks : t.LinkFree) (hcwd : t.PlainCwd) {p : Path}
    (hp : p.Written) (hroot : p.root ≠ .doubleSlash) : (canonicalOrNormal t p).1 = t.key p := by
  by_cases hnull : FileTree.hasNull p
  · rw [canonicalOrNormal, FileTree.canonical, if_pos hnull]
  · rw [hlinks.canonicalOrNormal_eq hcwd hp (by simpa using hnull), ← FileTree.key_root hcwd hroot]

/-- Both forms start with one slash, unless a path starts with two and has no canonical form. -/
lemma canonicalOrNormal_eq_slash (hlinks : t.LinkFree) (hcwd : t.PlainCwd) {p : Path}
    (hp : p.Written) (hroot : FileTree.hasNull p → p.root ≠ .doubleSlash) :
    (canonicalOrNormal t p).1 = ⟨.slash, (t.key p).parts⟩ := by
  by_cases hnull : FileTree.hasNull p
  · rw [canonicalOrNormal_eq_key hlinks hcwd hp (hroot hnull),
      ← FileTree.key_root hcwd (hroot hnull)]
  · rw [hlinks.canonicalOrNormal_eq hcwd hp (by simpa using hnull)]

/-- An import that is no path with a drive leads to a path from the directory of the document. -/
lemma importPath_eq_canonicalOrNormal
    (hdrive : isAbsoluteText (withExtension text) → (Path.ofString (withExtension text)).isAbsolute)
    {p : Path} (hp : (directory?.getD t.cwd).join (Path.ofString (withExtension text)) = p) :
    importPath t text directory? = (canonicalOrNormal t p).1.toString := by
  have hcondition : ¬(isAbsoluteText (withExtension text) &&
      !(Path.ofString (withExtension text)).isAbsolute) := by
    simpa using hdrive
  rw [importPath, importPathNote]
  dsimp only
  rw [if_neg hcondition, hp]

lemma importPath_eq_key (hlinks : t.LinkFree) (hcwd : t.PlainCwd)
    (hdrive : isAbsoluteText (withExtension text) → (Path.ofString (withExtension text)).isAbsolute)
    {p : Path} (hp : (directory?.getD t.cwd).join (Path.ofString (withExtension text)) = p)
    (hwritten : p.Written) (hroot : p.root ≠ .doubleSlash) :
    importPath t text directory? = (t.key p).toString := by
  rw [importPath_eq_canonicalOrNormal hdrive hp,
    canonicalOrNormal_eq_key hlinks hcwd hwritten hroot]

lemma isFileName_withExtension (text : String) : isFileName (withExtension text) := by
  unfold withExtension
  split_ifs with h
  · exact h
  · rw [isFileName_iff, String.toList_append]
    exact List.suffix_append _ _

/-- The text of a path ends as its last component does. -/
lemma isFileName_toString {p : Path} {name : String} (hname : isFileName name)
    (hroot : p.root ≠ .relative) : isFileName (p.child name).toString := by
  rw [isFileName_iff] at hname ⊢
  have htext : name.toList <:+ (p.child name).toString.toList := by
    rw [Path.toString, if_neg fun h => hroot h.1, String.toList_append]
    refine List.IsSuffix.trans ?_ (List.suffix_append _ _)
    by_cases hparts : p.parts = []
    · simp [Path.child, hparts]
    · rw [Path.child, String.intercalate_append_of_ne_nil hparts (by simp), String.toList_append,
        String.intercalate_singleton]
      exact List.suffix_append _ _
  exact hname.trans htext

/-- The path of an import is that of a format description. -/
lemma key_eq_child (t : FileTree) (p : Path) (text : String) :
    ∃ (q : Path) (name : String), isFileName name ∧
      t.key (p.join (Path.ofString (withExtension text))) = q.child name := by
  obtain ⟨q, name, htext, -, hdots, hname⟩ :=
    exists_child_of_isFileName (isFileName_withExtension text)
  refine ⟨t.key (p.join q), name, hname, ?_⟩
  rw [htext, Path.join_child]
  exact Path.absolute_child hdots t.cwd (p.join q)

/-- An import that is written as a path in normal form leads to this path. -/
lemma importPath_key (hlinks : t.LinkFree) (hcwd : t.PlainCwd) {p : Path} (hp : p.Written)
    (hroot : p.root ≠ .doubleSlash) (hname : isFileName (t.key p).toString)
    (directory? : Option Path) :
    importPath t (t.key p).toString directory? = (t.key p).toString := by
  have hfull : withExtension (t.key p).toString = (t.key p).toString := if_pos hname
  have hwritten : (t.key p).Written := hcwd.written.absolute hp
  have hread : Path.ofString (t.key p).toString = t.key p := Path.ofString_toString hwritten
  have hslash := FileTree.key_root hcwd hroot
  have habs : (t.key p).isAbsolute := by simp [Path.isAbsolute, hslash]
  have hjoin : (directory?.getD t.cwd).join (Path.ofString (withExtension (t.key p).toString)) =
      t.key p := by
    rw [hfull, hread, Path.join, if_pos habs]
  have hdrive : isAbsoluteText (withExtension (t.key p).toString) →
      (Path.ofString (withExtension (t.key p).toString)).isAbsolute := by
    rw [hfull, hread]
    exact fun _ => habs
  rw [importPath_eq_key hlinks hcwd hdrive hjoin hwritten (by simp [hslash]),
    FileTree.key_key hcwd]

lemma run_computeImportPath_fst (s : Session) (t : FileTree) (text : String) (d : Document) :
    (s.run t (computeImportPath text d)).1 = .ok (importPath t text d.directory?) := by
  obtain ⟨log, hrun⟩ := run_computeImportPath s t text d
  rw [hrun]

/-- The directory that imports of a document are taken from. -/
lemma directory_getD {d : Document} (hcwd : t.PlainCwd)
    (hfile : ∀ p ∈ d.file?, p.Written ∧ p.root ≠ .doubleSlash) :
    (d.directory?.getD t.cwd).Written ∧ (d.directory?.getD t.cwd).root ≠ .doubleSlash := by
  unfold Document.directory?
  cases hd : d.file? with
  | none => exact ⟨hcwd.written, by simp [hcwd.root]⟩
  | some file =>
    obtain ⟨hwritten, hstart⟩ := hfile file hd
    exact ⟨hwritten.parent, hstart⟩

/-- Without links the paths of imports are canonical and stable.

For an import that is no path with a drive and does not start with two slashes, in a document
whose own path does not start with two slashes, computing the path gives a result in every
session.  This is the normal form of the text with its ending, taken from the directory of the
document and that from the current directory: a slash and components that are neither empty nor
dots, with slashes between them.  It is the path of a format description, and as an import it
leads to itself from every document. -/
theorem computeImportPath_canonical {d : Document} (hlinks : t.LinkFree) (hcwd : t.PlainCwd)
    (hdrive : ¬(DrivePath.ofString (withExtension text)).isAbsolute)
    (hroot : (Path.ofString (withExtension text)).root ≠ .doubleSlash)
    (hfile : ∀ p ∈ d.file?, p.Written ∧ p.root ≠ .doubleSlash) :
    ∃ path parts, (∀ s : Session, (s.run t (computeImportPath text d)).1 = .ok path) ∧
      path = "/" ++ "/".intercalate parts ∧
      Path.absolute t.cwd ((d.directory?.getD ⟨.relative, []⟩).join
        (Path.ofString (withExtension text))) = ⟨.slash, parts⟩ ∧
      (∀ part ∈ parts, Path.IsComponent part ∧ part ≠ "..") ∧
      isFile (Path.ofString path) ∧
      ∀ (s : Session) (d' : Document), (s.run t (computeImportPath path d')).1 = .ok path := by
  obtain ⟨hfromWritten, hfromStart⟩ := directory_getD hcwd hfile
  generalize hp : (d.directory?.getD t.cwd).join (Path.ofString (withExtension text)) = p
  have hwritten : p.Written := hp ▸ hfromWritten.join (Path.written_ofString _)
  have hstart : p.root ≠ .doubleSlash := hp ▸ Path.join_root_ne_doubleSlash hfromStart hroot
  have hslash : (t.key p).root = .slash := FileTree.key_root hcwd hstart
  have hkeyWritten : (t.key p).Written := hcwd.written.absolute hwritten
  have hkey : t.key p = ⟨.slash, (t.key p).parts⟩ := by rw [← hslash]
  have hdrive' : isAbsoluteText (withExtension text) →
      (Path.ofString (withExtension text)).isAbsolute := by
    simp [isAbsoluteText, hdrive]
  have hnormal : Path.absolute t.cwd ((d.directory?.getD ⟨.relative, []⟩).join
      (Path.ofString (withExtension text))) = t.key p := by
    rw [← hp]
    cases d.directory? with
    | none => exact (Path.absolute_join (by simp [Path.isAbsolute, hcwd.root]) _).symm
    | some directory => rfl
  obtain ⟨q, name, hname, hchild⟩ := key_eq_child t (d.directory?.getD t.cwd) text
  rw [hp] at hchild
  have hending : isFileName (t.key p).toString := by
    have hq : q.root ≠ .relative := by
      intro hq
      rw [hchild] at hslash
      exact absurd (hq.symm.trans hslash) (by decide)
    rw [hchild]
    exact isFileName_toString hname hq
  refine ⟨(t.key p).toString, (t.key p).parts, fun s => ?_, ?_, hnormal.trans hkey, ?_, ?_,
    fun s d' => ?_⟩
  · rw [run_computeImportPath_fst, importPath_eq_key hlinks hcwd hdrive' hp hwritten hstart]
  · rw [hkey]
    exact Path.toString_slash _
  · intro part hpart
    have hdots : ".." ∉ (t.key p).parts := Path.dots_notMem_dropDots (by simp)
    exact ⟨hkeyWritten part hpart, fun h => hdots (h ▸ hpart)⟩
  · rw [Path.ofString_toString hkeyWritten, isFile, hchild, Path.name_child]
    exact hname
  · rw [run_computeImportPath_fst, importPath_key hlinks hcwd hwritten hstart hending]

/-- An import with empty components, dots and a NUL character leads to a path without them. -/
theorem computeImportPath_canonical_null :
    noFiles.LinkFree ∧ noFiles.PlainCwd ∧ ∀ s : Session,
      (s.run noFiles (computeImportPath "a\x00//.././../b"
        (Document.empty "" (some ⟨.slash, ["x", "d.ksy"]⟩) none))).1 = .ok "/b.ksy" := by
  have hlinks := FileTree.linkFree_noFiles
  have hcwd := FileTree.plainCwd_noFiles
  have hfile : ∀ p ∈ (Document.empty "" (some ⟨.slash, ["x", "d.ksy"]⟩) none).file?,
      p.Written ∧ p.root ≠ .doubleSlash := by
    intro p hp
    obtain rfl := Option.some.inj hp
    refine ⟨fun part hpart => ?_, by decide⟩
    rcases List.mem_pair.mp hpart with rfl | rfl
    · exact ⟨by decide, by decide, by decide⟩
    · exact ⟨by decide, by decide, by decide⟩
  have hdrive : ¬(DrivePath.ofString (withExtension "a\x00//.././../b")).isAbsolute := by decide
  obtain ⟨path, parts, hrun, hpath, hparts, -⟩ :=
    computeImportPath_canonical hlinks hcwd hdrive (by decide) hfile
  have hnormal : Path.mk .slash ["b.ksy"] = ⟨.slash, parts⟩ := hparts ▸ by decide
  obtain rfl : ["b.ksy"] = parts := (Path.mk.inj hnormal).2
  refine ⟨hlinks, hcwd, fun s => ?_⟩
  rw [hrun s, hpath]
  rfl

end Ksy

end KsyTools
