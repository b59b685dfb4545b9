/-
# The dependents of a file

The index searches backwards: from a file to those that import it, from these to those that import
them, and so on.  What it finds are the files from which a chain of imports leads to the file.
-/
import KsyTools.Server.ImportIndex
import Mathlib.Tactic.Common

namespace KsyTools

namespace ImportIndex

/-- From a file of the index, imports lead to a target, directly or through other files of it. -/
inductive LeadsTo (files : List Targets) (target : Option Path) : Path → Prop
  | direct {k : Path} {ts : List (Option Path)} : (k, ts) ∈ files → target ∈ ts →
      LeadsTo files target k
  | through {k k' : Path} {ts : List (Option Path)} : (k, ts) ∈ files → some k' ∈ ts →
      LeadsTo files target k' → LeadsTo files target k

variable {files files' : List Targets} {target : Option Path} {k k' : Path}

lemma LeadsTo.mem (h : LeadsTo files target k) : ∃ ts, (k, ts) ∈ files := by
  cases h with
  | direct hmem _ => exact ⟨_, hmem⟩
  | through hmem _ _ => exact ⟨_, hmem⟩

lemma LeadsTo.mono (h : LeadsTo files target k) (hsub : files ⊆ files') :
    LeadsTo files' target k := by
  induction h with
  | direct hmem ht => exact .direct (hsub hmem) ht
  | through hmem ht _ ih => exact .through (hsub hmem) ht ih

lemma LeadsTo.trans (h : LeadsTo files (some k') k) (h' : LeadsTo files target k') :
    LeadsTo files target k := by
  induction h with
  | direct hmem ht => exact .through hmem ht h'
  | through hmem ht _ ih => exact .through hmem ht ih

lemma mem_leadingTo {ts : List (Option Path)} :
    (k, ts) ∈ leadingTo target files ↔ (k, ts) ∈ files ∧ target ∈ ts := by
  simp [leadingTo]

lemma mem_notLeadingTo {ts : List (Option Path)} :
    (k, ts) ∈ notLeadingTo target files ↔ (k, ts) ∈ files ∧ target ∉ ts := by
  simp [notLeadingTo]

/-- When the files that lead to a pending target directly are taken out, the others that lead to a
pending target lead to one of them or to another pending target. -/
lemma LeadsTo.cut {rest : List (Option Path)} {goal : Option Path} (h : LeadsTo files goal k)
    (hgoal : goal = target ∨ goal ∈ rest) :
    (∃ ts, (k, ts) ∈ leadingTo target files) ∨
      ∃ goal', (goal' ∈ rest ∨ ∃ k' ts, goal' = some k' ∧ (k', ts) ∈ leadingTo target files) ∧
        LeadsTo (notLeadingTo target files) goal' k := by
  -- along the chain, which is cut at the first file that leads to `target` directly
  induction h with
  | @direct k ts hmem ht =>
    by_cases hts : target ∈ ts
    · exact .inl ⟨ts, mem_leadingTo.mpr ⟨hmem, hts⟩⟩
    · have hrest : goal ∈ rest := by
        rcases hgoal with rfl | hgoal
        · exact absurd ht hts
        · exact hgoal
      exact .inr ⟨goal, .inl hrest, .direct (mem_notLeadingTo.mpr ⟨hmem, hts⟩) ht⟩
  | @through k k' ts hmem ht _ ih =>
    by_cases hts : target ∈ ts
    · exact .inl ⟨ts, mem_leadingTo.mpr ⟨hmem, hts⟩⟩
    · have hmem' := mem_notLeadingTo.mpr ⟨hmem, hts⟩
      rcases ih with ⟨ts', hfound⟩ | ⟨goal', hgoal', hleads⟩
      · exact .inr ⟨some k', .inr ⟨k', ts', rfl, hfound⟩, .direct hmem' ht⟩
      · exact .inr ⟨goal', hgoal', .through hmem' ht hleads⟩

/-- The search finds the files from which imports lead to a pending target. -/
lemma mem_importers (remaining : List Targets) (pending : List (Option Path)) :
    k ∈ importers remaining pending ↔ ∃ goal ∈ pending, LeadsTo remaining goal k := by
  fun_induction importers remaining pending generalizing k with
  | case1 remaining => simp
  | case2 remaining target rest found =>
    rename_i ih
    rw [List.mem_append, ih]
    have hfound : ∀ k, k ∈ found ↔ ∃ ts, (k, ts) ∈ leadingTo target remaining := by
      intro k
      simp [found]
    -- the search goes on among the other files, with the found ones as further targets
    constructor
    · rintro (hk | ⟨goal, hgoal, hleads⟩)
      · obtain ⟨ts, hts⟩ := (hfound k).mp hk
        obtain ⟨hmem, ht⟩ := mem_leadingTo.mp hts
        exact ⟨target, List.mem_cons_self, .direct hmem ht⟩
      · have hleads' : LeadsTo remaining goal k := hleads.mono fun _ h => (List.mem_filter.mp h).1
        rcases List.mem_append.mp hgoal with hgoal | hgoal
        · obtain ⟨k', hk', rfl⟩ := List.mem_map.mp hgoal
          obtain ⟨ts, hts⟩ := (hfound k').mp hk'
          obtain ⟨hmem, ht⟩ := mem_leadingTo.mp hts
          exact ⟨target, List.mem_cons_self, hleads'.trans (.direct hmem ht)⟩
        · exact ⟨goal, List.mem_cons_of_mem _ hgoal, hleads'⟩
    · rintro ⟨goal, hgoal, hleads⟩
      rcases hleads.cut (List.mem_cons.mp hgoal) with hk | ⟨goal', hgoal', hcut⟩
      · exact .inl ((hfound k).mpr hk)
      · refine .inr ⟨goal', List.mem_append.mpr ?_, hcut⟩
        rcases hgoal' with hrest | ⟨k', ts, rfl, hts⟩
        · exact .inr hrest
        · exact .inl (List.mem_map.mpr ⟨k', (hfound k').mpr ⟨ts, hts⟩, rfl⟩)

/-- The dependents of a file are the other files of the index from which imports lead to it. -/
lemma mem_dependents {t : FileTree} {i : ImportIndex} {p k : Path} :
    k ∈ i.dependents t p ↔
      LeadsTo ((i.targets t).filter fun e => some e.1 != t.indexKey? p) (t.indexKey? p) k := by
  simp [dependents, mem_importers]

variable {t : FileTree} {i : ImportIndex} {p : Path}

/-- Dependents are files of the index. -/
lemma exists_entry_of_mem_dependents (h : k ∈ i.dependents t p) : ∃ e ∈ i.entries, e.1 = k := by
  obtain ⟨ts, hmem⟩ := (mem_dependents.mp h).mem
  obtain ⟨e, he, heq⟩ := List.mem_map.mp (List.mem_filter.mp hmem).1
  exact ⟨e, he, congrArg Prod.fst heq⟩

/-- A file is not its own dependent. -/
lemma ne_of_mem_dependents (h : k ∈ i.dependents t p) : some k ≠ t.indexKey? p := by
  obtain ⟨ts, hmem⟩ := (mem_dependents.mp h).mem
  simpa using (List.mem_filter.mp hmem).2

end ImportIndex

end KsyTools
