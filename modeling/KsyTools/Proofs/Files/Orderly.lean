/-
# Orderly file trees

File trees without links whose entries have proper names and that share a current directory.  In all
of them the index and the store know files by the same keys, imports lead to the same paths, and
what is found below a plain path has a plain path again.
-/
import KsyTools.Proofs.Files.LinkFree
import KsyTools.Proofs.Ksy.ExistingDocument
import KsyTools.Server.Workspace

namespace KsyTools

open Ksy (includesOf importPath)

/-- What is below an entry of a tree is below the tree. -/
lemma Entry.append_mem_waysBelow {root e : Entry} {way below : List String}
    (h : root.at? way = some e) (hbelow : below ∈ e.waysBelow) : way ++ below ∈ root.waysBelow := by
  induction way generalizing root with
  | nil =>
    obtain rfl : root = e := Option.some.inj h
    exact hbelow
  | cons name rest ih =>
    simp only [at?, Option.bind_eq_some_iff] at h
    obtain ⟨c, hc, hrest⟩ := h
    cases root with
    | directory es => exact (cons_mem_waysBelowAll (Keyed.mem_of_lookup hc)).2 _ (ih hrest)
    | file content changed => simp [child?, entries] at hc
    | pipe => simp [child?, entries] at hc
    | link target => simp [child?, entries] at hc

/-- What passes a test that can fail was among the tested. -/
lemma mem_of_mem_filterM {α ε : Type} {test : α → Except ε Bool} {xs ys : List α} {x : α}
    (h : xs.filterM test = .ok ys) (hx : x ∈ ys) : x ∈ xs := by
  have aux {xs acc ys : List α} (h : xs.filterAuxM test acc = .ok ys) :
      ∀ x ∈ ys, x ∈ xs ∨ x ∈ acc := by
    induction xs generalizing acc with
    | nil =>
      obtain rfl : acc = ys := Except.ok.inj h
      exact fun x hx => .inr hx
    | cons y rest ih =>
      rw [List.filterAuxM] at h
      cases passed : test y with
      | error e =>
        rw [passed] at h
        cases h
      | ok b =>
        rw [passed] at h
        intro x hx
        rcases ih h x hx with hx | hx
        · exact .inl (List.mem_cons_of_mem y hx)
        · cases b with
          | false => exact .inr hx
          | true =>
            rcases List.mem_cons.1 hx with rfl | hx
            · exact .inl List.mem_cons_self
            · exact .inr hx
  unfold List.filterM at h
  cases found : xs.filterAuxM test [] with
  | error e =>
    rw [found] at h
    cases h
  | ok zs =>
    rw [found] at h
    obtain rfl : zs.reverse = ys := Except.ok.inj h
    rcases aux found x (List.mem_reverse.1 hx) with hx | hx
    · exact hx
    · cases hx

namespace FileTree

/-- A tree without links, with proper names and a given current directory. -/
structure Orderly (cwd : Path) (t : FileTree) : Prop where
  cwd_eq : t.cwd = cwd
  plainCwd : t.PlainCwd
  linkFree : t.LinkFree
  names : ∀ way ∈ t.root.waysBelow, ∀ name ∈ way, Path.IsComponent name ∧ '\x00' ∉ name.toList

variable {cwd p : Path} {t t' : FileTree}

namespace Orderly

lemma key_eq (h : t.Orderly cwd) (h' : t'.Orderly cwd) (p : Path) : t'.key p = t.key p := by
  rw [key, h'.cwd_eq, key, h.cwd_eq]

lemma indexKey?_eq (h : t.Orderly cwd) (hp : Plain p) : t.indexKey? p = some (t.key p) :=
  h.linkFree.indexKey?_of_plain h.plainCwd hp

/-! ## Imports -/

lemma canonicalOrNormal_eq (h : t.Orderly cwd) (h' : t'.Orderly cwd) (hp : p.Written) :
    (Ksy.canonicalOrNormal t' p).1 = (Ksy.canonicalOrNormal t p).1 := by
  cases null : hasNull p with
  | true =>
    simp only [Ksy.canonicalOrNormal, canonical, null, if_true]
    exact h.key_eq h' p
  | false =>
    rw [h'.linkFree.canonicalOrNormal_eq h'.plainCwd hp null,
      h.linkFree.canonicalOrNormal_eq h.plainCwd hp null, h.key_eq h']

lemma importPath_eq (h : t.Orderly cwd) (h' : t'.Orderly cwd) {directory : Path}
    (written : directory.Written) (text : String) :
    importPath t' text (some directory) = importPath t text (some directory) := by
  have same := h.canonicalOrNormal_eq h'
    (written.join (Path.written_ofString (Ksy.withExtension text)))
  unfold importPath Ksy.importPathNote
  simp only [Option.getD_some]
  generalize Ksy.canonicalOrNormal t' _ = found' at same ⊢
  generalize Ksy.canonicalOrNormal t _ = found at same ⊢
  split
  · rfl
  · rw [same]

/-- Where imports lead does not depend on the files. -/
lemma includesOf_eq (h : t.Orderly cwd) (h' : t'.Orderly cwd) {d : Document} {file : Path}
    (hfile : d.file? = some file) (written : file.Written) : includesOf t' d = includesOf t d := by
  have directory : d.directory? = some file.parent := by rw [Document.directory?, hfile]; rfl
  unfold includesOf
  rw [directory]
  simp only [h.importPath_eq h' written.parent]

/-! ## Descriptions below a folder -/

lemma plain_of_mem_below (h : t.Orderly cwd) (hp : Plain p) {ending : String} {q : Path}
    (hq : q ∈ t.below p ending) : Plain q := by
  unfold below at hq
  split at hq
  next there e found =>
    obtain ⟨way, hway, rfl⟩ := List.mem_map.1 (List.mem_mergeSort.1 hq)
    have hway := (List.mem_filter.1 hway).1
    have found : t.root.at? there = some e := by
      unfold find at found
      split_ifs at found
      cases follow : followFrom t.root maxLinks [] (t.fromRoot p).parts with
      | error fault =>
        rw [follow] at found
        cases found
      | ok r =>
        rw [follow] at found
        cases found
        exact (leads_of_followFrom follow).2
    have names (name : String) (hname : name ∈ way) :=
      h.names _ (Entry.append_mem_waysBelow found hway) name (List.mem_append_right _ hname)
    refine ⟨fun part hpart => ?_, hp.root, hasNull_eq_false_iff.2 fun part hpart => ?_⟩
    · rcases List.mem_append.1 hpart with hpart | hpart
      · exact hp.written part hpart
      · exact (names part hpart).1
    · rcases List.mem_append.1 hpart with hpart | hpart
      · exact hasNull_eq_false_iff.1 hp.null part hpart
      · exact (names part hpart).2
  · cases hq

lemma plain_of_mem_descriptionsBelow (h : t.Orderly cwd) (hp : Plain p) {files : List Path}
    {q : Path} (hfiles : Serve.descriptionsBelow t p = .ok files) (hq : q ∈ files) : Plain q := by
  unfold Serve.descriptionsBelow at hfiles
  cases directory : t.isDirectory p with
  | error e =>
    rw [directory] at hfiles
    cases hfiles
  | ok b =>
    rw [directory] at hfiles
    cases b with
    | false =>
      obtain rfl : [] = files := Except.ok.inj hfiles
      cases hq
    | true => exact h.plain_of_mem_below hp (mem_of_mem_filterM hfiles hq)

end Orderly

lemma orderly_noFiles : noFiles.Orderly ⟨.slash, []⟩ where
  cwd_eq := rfl
  plainCwd := plainCwd_noFiles
  linkFree := linkFree_noFiles
  names := by simp [noFiles, Entry.waysBelow, Entry.waysBelowAll]

end FileTree

end KsyTools
