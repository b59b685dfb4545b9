/-
# Dependents and reverse imports

The registry of imports is a map: the texts of its files are all different.  Over such a map,
however the imports in it run, the dependents of a file come in strict order, and they are the other
files of the map from which one gets to the file by going from a file to one that it imports.  An
index is such a map as long as all that is put into it is known by canonical paths.
-/
import KsyTools.Proofs.Files.LinkFree
import KsyTools.Proofs.Schema.Values
import KsyTools.Proofs.Server.Dependents
import Mathlib.Data.List.Perm.Subperm
import Mathlib.Data.String.Basic
import Mathlib.Logic.Relation

namespace KsyTools

/-! ## Canonical paths can be written -/

namespace FileTree

/-- All names on a way are components. -/
def IsWay (way : List String) : Prop :=
  ∀ part ∈ way, Path.IsComponent part

/-- All ways that are remembered of links consist of components. -/
def SeenLinks.Written (seen : SeenLinks) : Prop :=
  ∀ link known, (link, some known) ∈ seen → IsWay known

variable {t : FileTree} {p q : Path} {way way' : List String}

/-- What is left of a way, put behind what was reached. -/
lemma IsWay.reverse_append (h : IsWay way) (h' : IsWay way') : IsWay (way.reverse ++ way') := by
  intro part hpart
  rcases List.mem_append.mp hpart with hpart | hpart
  · exact h part (List.mem_reverse.mp hpart)
  · exact h' part hpart

lemma SeenLinks.Written.cons {seen : SeenLinks} (h : seen.Written) (link : List String)
    {known? : Option (List String)} (hknown : ∀ known, known? = some known → IsWay known) :
    SeenLinks.Written ((link, known?) :: seen) := by
  intro link' known hmem
  rcases List.mem_cons.mp hmem with heq | hmem
  · exact hknown known (Prod.mk.inj heq).2.symm
  · exact h link' known hmem

/-- The directory from which a link is followed. -/
lemma isWay_start {here : List String} (h : IsWay here) {absolute : Prop} [Decidable absolute] :
    IsWay (if _h : absolute then [] else here) := by
  split_ifs
  · exact fun _ hmem => absurd hmem List.not_mem_nil
  · exact h

/-- Following links only meets components, since links are read as paths. -/
lemma isWay_canonicalFrom (root : Entry) (depth : ℕ) (seen : SeenLinks) (here way : List String)
    (hseen : seen.Written) (hhere : IsWay here) (hway : IsWay way) :
    IsWay (canonicalFrom root depth seen here way).1 ∧
      SeenLinks.Written (canonicalFrom root depth seen here way).2.2 := by
  fun_induction canonicalFrom root depth seen here way
  case case1 => exact ⟨hhere, hseen⟩
  case case2 ih => exact ih hseen hhere (List.forall_mem_cons.mp hway).2
  case case3 here _ _ ih =>
    exact ih hseen (fun part hpart => hhere part (List.mem_of_mem_tail hpart))
      (List.forall_mem_cons.mp hway).2
  case case4 ih =>
    obtain ⟨hname, hrest⟩ := List.forall_mem_cons.mp hway
    exact ih hseen (List.forall_mem_cons.mpr ⟨hname, hhere⟩) hrest
  case case5 hknown ih =>
    exact ih hseen (hseen _ _ (Keyed.mem_of_lookup hknown)) (List.forall_mem_cons.mp hway).2
  case case6 =>
    obtain ⟨hname, hrest⟩ := List.forall_mem_cons.mp hway
    exact ⟨IsWay.reverse_append hrest (List.forall_mem_cons.mpr ⟨hname, hhere⟩), hseen⟩
  case case7 =>
    obtain ⟨hname, hrest⟩ := List.forall_mem_cons.mp hway
    exact ⟨IsWay.reverse_append hrest (List.forall_mem_cons.mpr ⟨hname, hhere⟩), hseen⟩
  case case8 here name rest _ _ next target _ _ _ p start reached seen' hinner ih =>
    obtain ⟨hname, hrest⟩ := List.forall_mem_cons.mp hway
    have hstart : IsWay start := isWay_start hhere
    have hkept := ih (hseen.cons next nofun) hstart (Path.written_ofString target)
    rw [hinner] at hkept
    exact ⟨IsWay.reverse_append hrest hkept.1, hkept.2⟩
  case case9 here name rest _ _ next target _ _ _ p start reached seen' hinner ih ih' =>
    have hstart : IsWay start := isWay_start hhere
    have hkept := ih (hseen.cons next nofun) hstart (Path.written_ofString target)
    rw [hinner] at hkept
    refine ih' (hkept.2.cons next ?_) hkept.1 (List.forall_mem_cons.mp hway).2
    rintro known ⟨⟩
    exact hkept.1

/-- The canonical path of a written path is written. -/
lemma written_of_canonical (hcwd : t.cwd.Written) (hp : p.Written) (h : t.canonical p = .ok q) :
    q.Written := by
  unfold canonical at h
  split_ifs at h with hnull
  have hway : IsWay (t.fromRoot p).parts := hcwd.join hp
  have hreached := (isWay_canonicalFrom t.root t.root.waysBelow.length [] [] _
    (fun _ _ hmem => absurd hmem List.not_mem_nil) (fun _ hmem => absurd hmem List.not_mem_nil)
    hway).1
  cases h
  intro part hpart
  rcases Path.mem_dropDots hpart with hpart | hpart
  · exact absurd hpart List.not_mem_nil
  · exact hreached part (List.mem_reverse.mp hpart)

/-- The index knows a written path by a path that can be written. -/
lemma written_of_indexKey? (hcwd : t.cwd.Written) (hp : p.Written)
    (h : t.indexKey? p = some q) : q.Written := by
  unfold indexKey? at h
  cases hcanonical : t.canonical p with
  | error fault => simp [hcanonical, Except.toOption] at h
  | ok q' =>
    obtain rfl : q' = q := by simpa [hcanonical, Except.toOption] using h
    exact written_of_canonical hcwd hp hcanonical

end FileTree

namespace ImportIndex

variable {t : FileTree} {i : ImportIndex} {p key k : Path} {target? : Option Path}

/-! ## The registry is a map -/

lemma texts_keys (i : ImportIndex) :
    (i.entries.map Prod.fst).map Path.toString = i.entries.map fun e => e.1.toString := by
  rw [List.map_map]
  rfl

/-- The files of an index are known by written paths, each by one of its own. -/
structure Written (i : ImportIndex) : Prop where
  keys : ∀ e ∈ i.entries, e.1.Written
  nodup : (i.entries.map Prod.fst).Nodup

namespace Written

lemma empty : ImportIndex.empty.Written where
  keys := fun _ hmem => absurd hmem List.not_mem_nil
  nodup := List.nodup_nil

lemma set (h : i.Written) (hcwd : t.cwd.Written) (hp : p.Written)
    (hkey : t.indexKey? p = some key) (includes : List Ksy.Include) :
    (i.set key includes).Written where
  keys := by
    intro e he
    rcases Keyed.mem_set.mp he with ⟨heq, -⟩ | ⟨-, he⟩
    · rw [heq]
      exact FileTree.written_of_indexKey? hcwd hp hkey
    · exact h.keys e he
  nodup := Keyed.nodup_set h.nodup key includes

/-- In such an index no two files have the same text. -/
lemma nodup_texts (h : i.Written) : (i.entries.map fun e => e.1.toString).Nodup := by
  rw [← texts_keys]
  refine h.nodup.map_on fun a ha b hb hab => ?_
  obtain ⟨e, he, rfl⟩ := List.mem_map.mp ha
  obtain ⟨e', he', rfl⟩ := List.mem_map.mp hb
  rw [← Path.ofString_toString (h.keys e he), hab, Path.ofString_toString (h.keys e' he')]

end Written

/-! ## The order of the dependents -/

/-- What the search finds is among the files that it searches, each of them at most once. -/
lemma importers_subperm (remaining : List Targets) (pending : List (Option Path)) :
    (importers remaining pending).Subperm (remaining.map Prod.fst) := by
  fun_induction importers remaining pending with
  | case1 remaining => exact List.nil_subperm
  | case2 remaining target rest found ih =>
    -- the files that lead to the target and the others are all the files, in another order
    have hsplit : (found ++ (notLeadingTo target remaining).map Prod.fst).Perm
        (remaining.map Prod.fst) := by
      rw [← List.map_append]
      exact (List.filter_append_perm (fun e => e.2.contains target) remaining).map Prod.fst
    exact ((List.Subperm.refl found).append ih).trans hsplit.subperm

/-- The dependents are among the files of the index, each of them at most once. -/
lemma dependents_subperm (t : FileTree) (i : ImportIndex) (p : Path) :
    (i.dependents t p).Subperm (i.entries.map Prod.fst) := by
  have hfiles : (i.targets t).map Prod.fst = i.entries.map Prod.fst := by
    rw [targets, List.map_map]
    rfl
  have hsearched := importers_subperm ((i.targets t).filter fun e => some e.1 != t.indexKey? p)
    [t.indexKey? p]
  rw [← hfiles]
  exact ((List.mergeSort_perm _ _).subperm.trans hsearched).trans
    (List.filter_sublist.map Prod.fst).subperm

/-- Where the texts of the files are all different, the dependents are in strict order. -/
lemma pairwise_lt_dependents (distinct : (i.entries.map fun e => e.1.toString).Nodup)
    (t : FileTree) (p : Path) :
    (i.dependents t p).Pairwise fun a b => a.toString < b.toString := by
  have hle : (i.dependents t p).Pairwise fun a b => a.toString ≤ b.toString := by
    have hsorted : (i.dependents t p).Pairwise fun a b => decide (a.toString ≤ b.toString) = true :=
      List.pairwise_mergeSort
        (fun a b c hab hbc => by
          simp only [decide_eq_true_eq] at hab hbc ⊢
          exact le_trans hab hbc)
        (fun a b => by simpa using le_total a.toString b.toString) _
    exact hsorted.imp fun hab => of_decide_eq_true hab
  have hne : (i.dependents t p).Pairwise fun a b => a.toString ≠ b.toString := by
    obtain ⟨l, hperm, hsub⟩ := dependents_subperm t i p
    have hnodup : (l.map Path.toString).Nodup := by
      rw [← texts_keys] at distinct
      exact distinct.sublist (hsub.map Path.toString)
    exact List.pairwise_map.mp ((hperm.map Path.toString).nodup_iff.mp hnodup)
  exact hle.imp₂ (fun a b hab hne => lt_of_le_of_ne hab hne) hne

/-! ## Reachability -/

/-- One gets from a file to another one: the first is a file of the index, and one of its imports
leads to the second. -/
def Imports (t : FileTree) (i : ImportIndex) (source? target? : Option Path) : Prop :=
  ∃ k includes, source? = some k ∧ i.get? k = some includes ∧
    ∃ x ∈ includes, t.indexKey? (Path.ofString x.path) = target?

/-- A file of a map is listed with the files that its imports lead to. -/
lemma mem_targets (nodup : (i.entries.map Prod.fst).Nodup) {ts : List (Option Path)} :
    (k, ts) ∈ i.targets t ↔ ∃ includes, i.get? k = some includes ∧
      ts = includes.map fun x => t.indexKey? (Path.ofString x.path) := by
  simp only [targets, List.mem_map, Prod.mk.injEq, get?, Keyed.lookup_eq_some_iff nodup]
  constructor
  · rintro ⟨⟨_, includes⟩, hmem, rfl, rfl⟩
    exact ⟨includes, hmem, rfl⟩
  · rintro ⟨includes, hmem, rfl⟩
    exact ⟨(k, includes), hmem, rfl, rfl⟩

/-- A chain of imports is a way from file to file. -/
lemma leadsTo_targets (nodup : (i.entries.map Prod.fst).Nodup) :
    LeadsTo (i.targets t) target? k ↔ Relation.TransGen (i.Imports t) (some k) target? := by
  constructor
  · intro h
    induction h with
    | direct hmem ht =>
      obtain ⟨includes, hget, rfl⟩ := (mem_targets nodup).mp hmem
      obtain ⟨x, hx, hxt⟩ := List.mem_map.mp ht
      exact .single ⟨_, includes, rfl, hget, x, hx, hxt⟩
    | through hmem ht _ ih =>
      obtain ⟨includes, hget, rfl⟩ := (mem_targets nodup).mp hmem
      obtain ⟨x, hx, hxt⟩ := List.mem_map.mp ht
      exact .head ⟨_, includes, rfl, hget, x, hx, hxt⟩ ih
  · intro h
    generalize hsource : some k = source? at h
    induction h using Relation.TransGen.head_induction_on generalizing k with
    | single himports =>
      obtain ⟨k', includes, rfl, hget, x, hx, hxt⟩ := himports
      cases hsource
      exact .direct ((mem_targets nodup).mpr ⟨includes, hget, rfl⟩) (List.mem_map.mpr ⟨x, hx, hxt⟩)
    | head himports hrest ih =>
      obtain ⟨k', includes, rfl, hget, x, hx, hxt⟩ := himports
      cases hsource
      -- what comes after the first step starts at a file of the index again
      obtain ⟨next, hstep, -⟩ := Relation.TransGen.head'_iff.mp hrest
      obtain ⟨k'', -, rfl, -⟩ := hstep
      exact .through ((mem_targets nodup).mpr ⟨includes, hget, rfl⟩)
        (List.mem_map.mpr ⟨x, hx, hxt⟩) (ih rfl)

/-- A chain that leads to a target from another file can be cut where it first comes to the
target. -/
lemma LeadsTo.other {files : List Targets} (h : LeadsTo files target? k) (hk : some k ≠ target?) :
    LeadsTo (files.filter fun e => some e.1 != target?) target? k := by
  induction h with
  | direct hmem ht => exact .direct (List.mem_filter.mpr ⟨hmem, by simpa using hk⟩) ht
  | @through k k' ts hmem ht _ ih =>
    have hmem' : (k, ts) ∈ files.filter fun e => some e.1 != target? :=
      List.mem_filter.mpr ⟨hmem, by simpa using hk⟩
    by_cases hk' : some k' = target?
    · exact .direct hmem' (hk' ▸ ht)
    · exact .through hmem' ht (ih hk')

/-- The dependents of a file are in strict order, and they are the other files of the registry from
which one gets to the file, in one step or more, by going from a file of the registry to one that it
imports. -/
theorem dependents_reverse_reachability
    (distinct : (i.entries.map fun e => e.1.toString).Nodup) (t : FileTree) (p : Path) :
    ((i.dependents t p).Pairwise fun a b => a.toString < b.toString) ∧
      ∀ k, k ∈ i.dependents t p ↔ k ∈ i.entries.map Prod.fst ∧ some k ≠ t.indexKey? p ∧
        Relation.TransGen (i.Imports t) (some k) (t.indexKey? p) := by
  have nodup : (i.entries.map Prod.fst).Nodup := by
    rw [← texts_keys] at distinct
    exact List.Nodup.of_map Path.toString distinct
  refine ⟨pairwise_lt_dependents distinct t p, fun k => ⟨fun hk => ?_, ?_⟩⟩
  · have hleads := mem_dependents.mp hk
    obtain ⟨ts, hts⟩ := hleads.mem
    have hother : some k ≠ t.indexKey? p := by simpa using (List.mem_filter.mp hts).2
    exact ⟨(dependents_subperm t i p).subset hk, hother, (leadsTo_targets nodup).mp
      (hleads.mono fun _ he => (List.mem_filter.mp he).1)⟩
  · rintro ⟨-, hother, hreach⟩
    exact mem_dependents.mpr (((leadsTo_targets nodup).mpr hreach).other hother)

/-! ## Files that import each other -/

open FileTree (noFiles linkFree_noFiles plainCwd_noFiles)

/-- The index knows a file in the root directory by its path. -/
lemma indexKey?_noFiles {name : String} (hname : Path.IsComponent name)
    (hnull : '\x00' ∉ name.toList) (hdots : name ≠ "..") :
    noFiles.indexKey? ⟨.slash, [name]⟩ = some ⟨.slash, [name]⟩ := by
  have hplain := FileTree.plain_singleton hname hnull
  rw [linkFree_noFiles.indexKey?_of_plain plainCwd_noFiles hplain, FileTree.key_singleton hdots]

/-- The file `a` imports itself and `b`, the file `b` imports `a` and a file that is not known. -/
def entangled : ImportIndex :=
  (empty.set ⟨.slash, ["a"]⟩ [⟨"/a", "a", ⟨0, 0⟩⟩, ⟨"/b", "b", ⟨0, 0⟩⟩]).set
    ⟨.slash, ["b"]⟩ [⟨"/a", "a", ⟨0, 0⟩⟩, ⟨"/c", "c", ⟨0, 0⟩⟩]

/-- Of two files that import each other, each is the only dependent of the other one. -/
theorem dependents_entangled :
    (entangled.entries.map fun e => e.1.toString).Nodup ∧
      (⟨.slash, ["b"]⟩ : Path) ∈ entangled.dependents noFiles ⟨.slash, ["a"]⟩ ∧
      (⟨.slash, ["a"]⟩ : Path) ∉ entangled.dependents noFiles ⟨.slash, ["a"]⟩ := by
  have ha : Path.IsComponent "a" := ⟨by decide, by decide, by decide⟩
  have hb : Path.IsComponent "b" := ⟨by decide, by decide, by decide⟩
  have hkeyA := indexKey?_noFiles ha (by decide) (by decide)
  have hkeyB := indexKey?_noFiles hb (by decide) (by decide)
  have hwritten : entangled.Written :=
    (Written.empty.set plainCwd_noFiles.written (FileTree.plain_singleton ha (by decide)).written
      hkeyA _).set plainCwd_noFiles.written (FileTree.plain_singleton hb (by decide)).written
      hkeyB _
  obtain ⟨-, mem⟩ :=
    dependents_reverse_reachability hwritten.nodup_texts noFiles ⟨.slash, ["a"]⟩
  rw [hkeyA] at mem
  have himports : entangled.Imports noFiles (some ⟨.slash, ["b"]⟩) (some ⟨.slash, ["a"]⟩) := by
    refine ⟨_, _, rfl, rfl, ⟨"/a", "a", ⟨0, 0⟩⟩, List.mem_cons_self, ?_⟩
    have hread : Path.ofString "/a" = ⟨.slash, ["a"]⟩ := by decide
    rw [hread, hkeyA]
  refine ⟨hwritten.nodup_texts, (mem _).mpr ⟨by decide, by decide, .single himports⟩, ?_⟩
  intro hmem
  exact ((mem _).mp hmem).2.1 rfl

end ImportIndex

end KsyTools
