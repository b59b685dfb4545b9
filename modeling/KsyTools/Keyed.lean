/-
# Values by keys

Lists of keys with values, in the order in which the keys came.  A key that is set again keeps its
place.
-/

namespace KsyTools.Keyed

variable {κ α : Type} [BEq κ]

/-- Sets the value of a key. -/
def set (l : List (κ × α)) (k : κ) (a : α) : List (κ × α) :=
  if l.any fun x => x.1 == k then l.map fun x => if x.1 == k then (k, a) else x
  else l ++ [(k, a)]

/-- Removes a key. -/
def erase (l : List (κ × α)) (k : κ) : List (κ × α) :=
  l.filter fun x => x.1 != k

variable [LawfulBEq κ] {l : List (κ × α)} {k k' : κ} {a a' : α}

theorem mem_of_lookup (h : l.lookup k = some a) : (k, a) ∈ l := by
  obtain ⟨l₁, l₂, rfl, -⟩ := List.lookup_eq_some_iff.mp h
  simp

/-- After a key is set, it has the new value and all others have theirs. -/
theorem mem_set : (k', a') ∈ set l k a ↔ (k' = k ∧ a' = a) ∨ (k' ≠ k ∧ (k', a') ∈ l) := by
  unfold set
  by_cases hany : l.any fun x => x.1 == k
  · rw [if_pos hany]
    obtain ⟨y, hy, hyk⟩ := List.any_eq_true.mp hany
    simp only [beq_iff_eq] at hyk
    simp only [List.mem_map]
    constructor
    · rintro ⟨x, hx, hxe⟩
      by_cases hk : x.1 = k
      · simp only [hk, beq_self_eq_true, if_true, Prod.mk.injEq] at hxe
        exact .inl ⟨hxe.1.symm, hxe.2.symm⟩
      · simp only [beq_iff_eq, hk, if_false] at hxe
        subst hxe
        exact .inr ⟨hk, hx⟩
    · rintro (⟨rfl, rfl⟩ | ⟨hk, hx⟩)
      · exact ⟨y, hy, by simp [hyk]⟩
      · exact ⟨(k', a'), hx, by simp [hk]⟩
  · rw [if_neg hany]
    simp only [List.any_eq_true, beq_iff_eq, not_exists, not_and] at hany
    simp only [List.mem_append, List.mem_singleton, Prod.mk.injEq]
    constructor
    · rintro (hx | hx)
      · exact .inr ⟨hany _ hx, hx⟩
      · exact .inl hx
    · rintro (hx | ⟨-, hx⟩)
      · exact .inr hx
      · exact .inl hx

theorem mem_erase : (k', a') ∈ erase l k ↔ k' ≠ k ∧ (k', a') ∈ l := by
  simp [erase, and_comm]

theorem lookup_set_self : (set l k a).lookup k = some a := by
  unfold set
  by_cases hany : l.any fun x => x.1 == k
  · rw [if_pos hany]
    induction l with
    | nil => simp at hany
    | cons x rest ih =>
      obtain ⟨kx, ax⟩ := x
      by_cases hx : kx = k
      · simp [hx]
      · have hk : (k == kx) = false := by simp [Ne.symm hx]
        have hrest : rest.any fun x => x.1 == k := by simpa [hx] using hany
        simpa [hx, List.lookup_cons, hk] using ih hrest
  · rw [if_neg hany, List.lookup_append]
    have hnone : l.lookup k = none := by
      rw [List.lookup_eq_none_iff]
      intro x hx
      simp only [List.any_eq_true, beq_iff_eq, not_exists, not_and] at hany
      simpa using Ne.symm (hany x hx)
    simp [hnone]

theorem lookup_set_of_ne (h : k' ≠ k) : (set l k a).lookup k' = l.lookup k' := by
  have hne : (k' == k) = false := by simp [h]
  have hmap : (l.map fun x => if x.1 == k then (k, a) else x).lookup k' = l.lookup k' := by
    induction l with
    | nil => rfl
    | cons x rest ih =>
      obtain ⟨kx, ax⟩ := x
      by_cases hx : kx = k
      · subst hx
        simpa [List.lookup_cons, hne] using ih
      · simp only [List.map_cons, beq_iff_eq, hx, if_false, List.lookup_cons]
        split
        · rfl
        · simpa using ih
  unfold set
  split
  · exact hmap
  · simp [List.lookup_append, List.lookup_cons, hne]

theorem lookup_erase_self : (erase l k).lookup k = none := by
  rw [List.lookup_eq_none_iff]
  intro x hx
  have hk : x.1 ≠ k := (mem_erase.mp hx).1
  simpa using Ne.symm hk

theorem lookup_erase_of_ne (h : k' ≠ k) : (erase l k).lookup k' = l.lookup k' := by
  unfold erase
  induction l with
  | nil => rfl
  | cons x rest ih =>
    obtain ⟨kx, ax⟩ := x
    by_cases hx : kx = k
    · subst hx
      have hne : (k' == kx) = false := by simp [h]
      simpa [List.lookup_cons, hne] using ih
    · simp only [List.filter_cons, bne_iff_ne, ne_eq, hx, not_false_eq_true, if_true,
        List.lookup_cons]
      split
      · rfl
      · exact ih

end KsyTools.Keyed
