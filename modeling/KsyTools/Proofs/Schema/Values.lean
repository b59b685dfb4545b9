/-
# Values that stand for plain data

What a schema sees of plain data: items and members stand for plain data again, the names of the
members of an object are different, and a value can be written if the data can.  Only numbers with
too many digits and data that contains itself are seen as nothing at all.
-/
import KsyTools.Keyed
import KsyTools.Schema.Value
import Mathlib.Data.List.Forall2
import Mathlib.Data.List.Nodup
import Mathlib.Tactic.Common

namespace KsyTools

open Yaml (Data Atom)

/-- Setting a key keeps the keys different. -/
lemma Keyed.nodup_set {κ α : Type} [BEq κ] [LawfulBEq κ] {l : List (κ × α)}
    (h : (l.map Prod.fst).Nodup) (k : κ) (a : α) : ((set l k a).map Prod.fst).Nodup := by
  unfold set
  by_cases known : l.any fun x => x.1 == k
  · have same : (l.map fun x => if x.1 == k then (k, a) else x).map Prod.fst = l.map Prod.fst := by
      rw [List.map_map]
      apply List.map_congr_left
      intro x _
      by_cases hx : x.1 = k <;> simp [hx]
    rw [if_pos known, same]
    exact h
  · rw [if_neg known, List.map_append, List.nodup_append]
    refine ⟨h, by simp, ?_⟩
    intro x hx y hy hxy
    obtain ⟨m, hm, rfl⟩ := List.mem_map.1 hx
    have hy : y = k := by simpa using hy
    exact known (List.any_eq_true.2 ⟨m, hm, by simp [hxy, hy]⟩)

/-- Where the keys are different, looking up is finding the entry. -/
lemma Keyed.lookup_eq_some_iff {κ α : Type} [BEq κ] [LawfulBEq κ] {l : List (κ × α)}
    (nodup : (l.map Prod.fst).Nodup) {k : κ} {a : α} : l.lookup k = some a ↔ (k, a) ∈ l := by
  refine ⟨mem_of_lookup, fun hmem => ?_⟩
  induction l with
  | nil => exact absurd hmem List.not_mem_nil
  | cons e rest ih =>
    obtain ⟨hnew, hrest⟩ := List.nodup_cons.mp nodup
    rcases List.mem_cons.mp hmem with rfl | hmem
    · exact List.lookup_cons_self
    · have hne : (k == e.1) = false := by
        rw [beq_eq_false_iff_ne]
        rintro rfl
        exact hnew (List.mem_map.mpr ⟨_, hmem, rfl⟩)
      rw [List.lookup_cons, hne]
      exact ih hrest hmem

/-! ## Induction over parts -/

/-- What holds of a value whenever it holds of its items and members holds of all values. -/
theorem Value.parts_induction {P : Value → Prop} (atom : ∀ a, P (.atom a))
    (list : ∀ items : List Value, (∀ v ∈ items, P v) → P (.list items))
    (object : ∀ members : List (String × Value), (∀ m ∈ members, P m.2) → P (.object members))
    (other : ∀ d, P (.other d)) : ∀ v, P v
  | .atom a => atom a
  | .list items => list items fun v hv =>
    have : sizeOf v < sizeOf items := List.sizeOf_lt_of_mem hv
    parts_induction atom list object other v
  | .object members => object members fun m hm =>
    have : sizeOf m < sizeOf members := List.sizeOf_lt_of_mem hm
    have : sizeOf m.2 < sizeOf m := by cases m; simp only [Prod.mk.sizeOf_spec]; omega
    parts_induction atom list object other m.2
  | .other d => other d

/-- What holds of data whenever it holds of its parts holds of all data. -/
theorem Yaml.Data.parts_induction {P : Data → Prop} (atom : ∀ a, P (.atom a))
    (list : ∀ number, ∀ items : List Data, (∀ d ∈ items, P d) → P (.list number items))
    (map : ∀ number, ∀ entries : List (Atom × Data), (∀ e ∈ entries, P e.2) →
      P (.map number entries))
    (set : ∀ members, P (.set members))
    (tuple : ∀ key value, P key → P value → P (.tuple key value))
    (cycle : ∀ container, P (.cycle container)) : ∀ d, P d
  | .atom a => atom a
  | .list number items => list number items fun d hd =>
    have : sizeOf d < sizeOf items := List.sizeOf_lt_of_mem hd
    parts_induction atom list map set tuple cycle d
  | .map number entries => map number entries fun e he =>
    have : sizeOf e < sizeOf entries := List.sizeOf_lt_of_mem he
    have : sizeOf e.2 < sizeOf e := by cases e; simp only [Prod.mk.sizeOf_spec]; omega
    parts_induction atom list map set tuple cycle e.2
  | .set members => set members
  | .tuple key value =>
    tuple key value (parts_induction atom list map set tuple cycle key)
      (parts_induction atom list map set tuple cycle value)
  | .cycle container => cycle container

namespace Value

/-! ## The parts of what is seen -/

lemma itemsOfData_eq_ok {ds : List Data} {vs : List Value} :
    itemsOfData ds = .ok vs ↔ List.Forall₂ (fun d v => ofData d = .ok v) ds vs := by
  induction ds generalizing vs with
  | nil => cases vs <;> simp [itemsOfData]
  | cons d ds ih =>
    rw [itemsOfData]
    cases hd : ofData d with
    | error e => cases vs <;> simp [hd, bind, Except.bind]
    | ok v =>
      cases hds : itemsOfData ds with
      | error e => cases vs <;> simp [← ih, hds, bind, Except.bind]
      | ok ws => cases vs <;> simp [hd, ← ih, hds, bind, Except.bind, pure, Except.pure]

lemma membersOfData_eq_ok {es : List (Atom × Data)} {ms : List (String × Value)} :
    membersOfData es = .ok ms ↔
      List.Forall₂ (fun e m => e.1.keyText = .ok m.1 ∧ ofData e.2 = .ok m.2) es ms := by
  induction es generalizing ms with
  | nil => cases ms <;> simp [membersOfData]
  | cons e es ih =>
    obtain ⟨key, d⟩ := e
    rw [membersOfData]
    cases hk : key.keyText with
    | error f => cases ms <;> simp [hk, bind, Except.bind]
    | ok name =>
      cases hd : ofData d with
      | error f => cases ms <;> simp [hd, bind, Except.bind]
      | ok v =>
        cases hes : membersOfData es with
        | error f => cases ms <;> simp [← ih, hes, bind, Except.bind]
        | ok ns =>
          cases ms with
          | nil => simp [bind, Except.bind, pure, Except.pure]
          | cons x xs =>
            obtain ⟨name', v'⟩ := x
            simp [hk, hd, ← ih, hes, bind, Except.bind, pure, Except.pure]

/-- The members of an object, where a name that comes again keeps its place. -/
def gather (start members : List (String × Value)) : List (String × Value) :=
  members.foldl (fun ms m => Keyed.set ms m.1 m.2) start

lemma mem_of_mem_gather {members start : List (String × Value)} {m : String × Value}
    (h : m ∈ gather start members) : m ∈ start ∨ m ∈ members := by
  induction members generalizing start with
  | nil => exact .inl h
  | cons x rest ih =>
    rcases ih h with h | h
    · rcases Keyed.mem_set.1 h with ⟨hname, hvalue⟩ | ⟨-, h⟩
      · exact .inr (List.mem_cons.2 (.inl (Prod.ext hname hvalue)))
      · exact .inl h
    · exact .inr (List.mem_cons_of_mem x h)

lemma nodup_gather {start : List (String × Value)} (h : (start.map Prod.fst).Nodup)
    (members : List (String × Value)) : ((gather start members).map Prod.fst).Nodup := by
  induction members generalizing start with
  | nil => exact h
  | cons x rest ih => exact ih (Keyed.nodup_set h x.1 x.2)

lemma ofData_list {number : ℕ} {ds : List Data} {v : Value} :
    ofData (.list number ds) = .ok v ↔ ∃ vs, itemsOfData ds = .ok vs ∧ v = .list vs := by
  rw [ofData]
  cases itemsOfData ds <;> simp [bind, Except.bind, pure, Except.pure, eq_comm]

lemma ofData_map {number : ℕ} {es : List (Atom × Data)} {v : Value} :
    ofData (.map number es) = .ok v ↔
      ∃ ms, membersOfData es = .ok ms ∧ v = .object (gather [] ms) := by
  rw [ofData]
  cases membersOfData es with
  | error e => simp [bind, Except.bind]
  | ok ms =>
    change Except.ok (.object (gather [] ms)) = .ok v ↔ _
    simp [eq_comm]

/-- The value is what a schema sees of some plain data. -/
def StandsForData (v : Value) : Prop :=
  ∃ d, ofData d = .ok v

namespace StandsForData

lemma item {items : List Value} (h : (Value.list items).StandsForData) {v : Value}
    (hv : v ∈ items) : v.StandsForData := by
  obtain ⟨d, hd⟩ := h
  cases d with
  | list number ds =>
    obtain ⟨vs, hvs, same⟩ := ofData_list.1 hd
    obtain rfl : items = vs := by simpa using same
    obtain ⟨i, hi, rfl⟩ := List.mem_iff_getElem.1 hv
    have parts := itemsOfData_eq_ok.1 hvs
    exact ⟨_, parts.get (by rw [parts.length_eq]; exact hi) hi⟩
  | map number es =>
    obtain ⟨ms, -, same⟩ := ofData_map.1 hd
    simp at same
  | atom a => simp [ofData] at hd
  | set members => simp [ofData] at hd
  | tuple key value => simp [ofData] at hd
  | cycle container => simp [ofData] at hd

lemma members {members : List (String × Value)} (h : (Value.object members).StandsForData) :
    (members.map Prod.fst).Nodup ∧ ∀ m ∈ members, m.2.StandsForData := by
  obtain ⟨d, hd⟩ := h
  cases d with
  | map number es =>
    obtain ⟨ms, hms, same⟩ := ofData_map.1 hd
    obtain rfl : members = gather [] ms := by simpa using same
    refine ⟨nodup_gather (by simp) ms, ?_⟩
    intro m hm
    have hm : m ∈ ms := by simpa using mem_of_mem_gather hm
    obtain ⟨i, hi, rfl⟩ := List.mem_iff_getElem.1 hm
    have parts := membersOfData_eq_ok.1 hms
    exact ⟨_, (parts.get (by rw [parts.length_eq]; exact hi) hi).2⟩
  | list number ds =>
    obtain ⟨vs, -, same⟩ := ofData_list.1 hd
    simp at same
  | atom a => simp [ofData] at hd
  | set members => simp [ofData] at hd
  | tuple key value => simp [ofData] at hd
  | cycle container => simp [ofData] at hd

lemma text (s : String) : (Value.atom (.str s)).StandsForData :=
  ⟨.atom (.str s), rfl⟩

/-- What has no parts for a schema is a set or an entry of an ordered map. -/
lemma other {d : Data} (h : (Value.other d).StandsForData) :
    (∃ members, d = .set members) ∨ ∃ key value, d = .tuple key value := by
  obtain ⟨d', hd⟩ := h
  cases d' with
  | set members => exact .inl ⟨members, by simpa [ofData, eq_comm] using hd⟩
  | tuple key value => exact .inr ⟨key, value, by simpa [ofData, eq_comm] using hd⟩
  | map number es =>
    obtain ⟨ms, -, same⟩ := ofData_map.1 hd
    simp at same
  | list number ds =>
    obtain ⟨vs, -, same⟩ := ofData_list.1 hd
    simp at same
  | atom a => simp [ofData] at hd
  | cycle container => simp [ofData] at hd

end StandsForData

/-! ## Writable values -/

lemma isWritable_list {items : List Value} :
    (Value.list items).isWritable = true ↔ ∀ v ∈ items, v.isWritable = true := by
  have all (vs : List Value) :
      Data.areWritable (itemsToData vs) = true ↔ ∀ v ∈ vs, v.isWritable = true := by
    induction vs with
    | nil => simp [itemsToData, Data.areWritable]
    | cons v vs ih => simp [itemsToData, Data.areWritable, ih, isWritable]
  exact all items

lemma isWritable_object {members : List (String × Value)} :
    (Value.object members).isWritable = true ↔ ∀ m ∈ members, m.2.isWritable = true := by
  have all (ms : List (String × Value)) :
      Data.areEntriesWritable (membersToData ms) = true ↔ ∀ m ∈ ms, m.2.isWritable = true := by
    induction ms with
    | nil => simp [membersToData, Data.areEntriesWritable]
    | cons m ms ih =>
      simp [membersToData, Data.areEntriesWritable, Atom.isWritable, ih, isWritable]
  exact all members

end Value

namespace Yaml.Data

mutual

/-- Whether no part of the data is a container that stands inside itself. -/
def isAcyclic : Data → Bool
  | .atom _ => true
  | .list _ items => areAcyclic items
  | .map _ entries => areEntriesAcyclic entries
  | .set _ => true
  | .tuple key value => key.isAcyclic && value.isAcyclic
  | .cycle _ => false

/-- Whether no item has a container that stands inside itself. -/
def areAcyclic : List Data → Bool
  | [] => true
  | item :: rest => item.isAcyclic && areAcyclic rest

/-- Whether no entry has a container that stands inside itself. -/
def areEntriesAcyclic : List (Atom × Data) → Bool
  | [] => true
  | (_, value) :: rest => value.isAcyclic && areEntriesAcyclic rest

end

lemma areAcyclic_iff {ds : List Data} :
    areAcyclic ds = true ↔ ∀ d ∈ ds, d.isAcyclic = true := by
  induction ds with
  | nil => simp [areAcyclic]
  | cons d ds ih => simp [areAcyclic, ih]

lemma areEntriesAcyclic_iff {es : List (Atom × Data)} :
    areEntriesAcyclic es = true ↔ ∀ e ∈ es, e.2.isAcyclic = true := by
  induction es with
  | nil => simp [areEntriesAcyclic]
  | cons e es ih => simp [areEntriesAcyclic, ih]

end Yaml.Data

/-! ## Data without an end -/

namespace Yaml.Data

mutual

/-- Whether the data has no end for a schema: over items of lists and values of maps one comes to a
container that stands inside itself.  The entries of ordered maps are not looked into. -/
def isEndless : Data → Bool
  | .atom _ => false
  | .list _ items => areEndless items
  | .map _ entries => areEntriesEndless entries
  | .set _ => false
  | .tuple _ _ => false
  | .cycle _ => true

/-- Whether some item has no end. -/
def areEndless : List Data → Bool
  | [] => false
  | item :: rest => item.isEndless || areEndless rest

/-- Whether some entry has no end. -/
def areEntriesEndless : List (Atom × Data) → Bool
  | [] => false
  | (_, value) :: rest => value.isEndless || areEntriesEndless rest

end

lemma areEndless_iff {ds : List Data} : areEndless ds = true ↔ ∃ d ∈ ds, d.isEndless = true := by
  induction ds with
  | nil => simp [areEndless]
  | cons d ds ih => simp [areEndless, ih]

lemma areEntriesEndless_iff {es : List (Atom × Data)} :
    areEntriesEndless es = true ↔ ∃ e ∈ es, e.2.isEndless = true := by
  induction es with
  | nil => simp [areEntriesEndless]
  | cons e es ih => simp [areEntriesEndless, ih]

/-- Data that does not contain itself has an end. -/
lemma isEndless_of_isAcyclic {d : Data} (acyclic : d.isAcyclic = true) : d.isEndless = false := by
  rw [← Bool.not_eq_true]
  induction d using parts_induction with
  | atom a => exact Bool.false_ne_true
  | list number ds ih =>
    rw [isAcyclic, areAcyclic_iff] at acyclic
    rw [isEndless, areEndless_iff]
    rintro ⟨d, hd, endless⟩
    exact ih d hd (acyclic d hd) endless
  | map number es ih =>
    rw [isAcyclic, areEntriesAcyclic_iff] at acyclic
    rw [isEndless, areEntriesEndless_iff]
    rintro ⟨e, he, endless⟩
    exact ih e he (acyclic e he) endless
  | set members => exact Bool.false_ne_true
  | tuple key value _ _ => exact Bool.false_ne_true
  | cycle container => cases acyclic

end Yaml.Data

namespace Value

/-! ## Which data is seen -/

/-- What a schema sees of data, or why it sees nothing: the data has no end, or a number has
too many digits. -/
def Outcome (d : Data) : Except Failure Value → Prop
  | .ok v => d.isEndless = false ∧ (d.isWritable = true → v.isWritable = true)
  | .error e =>
    e = .endless ∧ d.isEndless = true ∨ e = .number .tooLong ∧ d.isWritable = false

lemma itemsOfData_outcome {ds : List Data} (seen : ∀ d ∈ ds, Outcome d (ofData d)) :
    (∃ vs, itemsOfData ds = .ok vs ∧ Data.areEndless ds = false ∧
        (Data.areWritable ds = true → ∀ v ∈ vs, v.isWritable = true)) ∨
      itemsOfData ds = .error .endless ∧ Data.areEndless ds = true ∨
      itemsOfData ds = .error (.number .tooLong) ∧ Data.areWritable ds = false := by
  induction ds with
  | nil => exact .inl ⟨[], rfl, rfl, by simp⟩
  | cons d ds ih =>
    rw [List.forall_mem_cons] at seen
    obtain ⟨first, rest⟩ := seen
    rw [itemsOfData, Data.areWritable, Data.areEndless]
    cases hd : ofData d with
    | error e =>
      rw [hd] at first
      rcases first with ⟨rfl, endless⟩ | ⟨rfl, long⟩
      · exact .inr (.inl ⟨rfl, by simp [endless]⟩)
      · exact .inr (.inr ⟨rfl, by simp [long]⟩)
    | ok v =>
      rw [hd] at first
      obtain ⟨ends, firstWritable⟩ := first
      rcases ih rest with ⟨vs, hvs, restEnds, writable⟩ | ⟨hvs, endless⟩ | ⟨hvs, long⟩
      · refine .inl ⟨v :: vs, by rw [hvs]; rfl, by simp [ends, restEnds], fun h => ?_⟩
        rw [Bool.and_eq_true] at h
        rw [List.forall_mem_cons]
        exact ⟨firstWritable h.1, writable h.2⟩
      · exact .inr (.inl ⟨by rw [hvs]; rfl, by simp [endless]⟩)
      · exact .inr (.inr ⟨by rw [hvs]; rfl, by simp [long]⟩)

lemma keyText_cases (a : Atom) :
    (∃ name, a.keyText = .ok name) ∨
      a.keyText = .error (.number .tooLong) ∧ a.isWritable = false := by
  cases h : a.isWritable <;> cases a <;> simp_all [Atom.keyText, Atom.isWritable]

lemma membersOfData_outcome {es : List (Atom × Data)} (seen : ∀ e ∈ es, Outcome e.2 (ofData e.2)) :
    (∃ ms, membersOfData es = .ok ms ∧ Data.areEntriesEndless es = false ∧
        (Data.areEntriesWritable es = true → ∀ m ∈ ms, m.2.isWritable = true)) ∨
      membersOfData es = .error .endless ∧ Data.areEntriesEndless es = true ∨
      membersOfData es = .error (.number .tooLong) ∧ Data.areEntriesWritable es = false := by
  induction es with
  | nil => exact .inl ⟨[], rfl, rfl, by simp⟩
  | cons e es ih =>
    obtain ⟨key, d⟩ := e
    rw [List.forall_mem_cons] at seen
    obtain ⟨first, rest⟩ := seen
    rw [membersOfData, Data.areEntriesWritable, Data.areEntriesEndless]
    rcases keyText_cases key with ⟨name, hname⟩ | ⟨hname, long⟩
    · rw [hname]
      cases hd : ofData d with
      | error e =>
        rw [hd] at first
        rcases first with ⟨rfl, endless⟩ | ⟨rfl, long⟩
        · exact .inr (.inl ⟨rfl, by simp [endless]⟩)
        · exact .inr (.inr ⟨rfl, by simp [long]⟩)
      | ok v =>
        rw [hd] at first
        obtain ⟨ends, firstWritable⟩ := first
        rcases ih rest with ⟨ms, hms, restEnds, writable⟩ | ⟨hms, endless⟩ | ⟨hms, long⟩
        · refine .inl ⟨(name, v) :: ms, by rw [hms]; rfl, by simp [ends, restEnds], fun h => ?_⟩
          simp only [Bool.and_eq_true] at h
          rw [List.forall_mem_cons]
          exact ⟨firstWritable h.1.2, writable h.2⟩
        · exact .inr (.inl ⟨by rw [hms]; rfl, by simp [endless]⟩)
        · exact .inr (.inr ⟨by rw [hms]; rfl, by simp [long]⟩)
    · exact .inr (.inr ⟨by rw [hname]; rfl, by simp [long]⟩)

/-- Data is seen if it has an end, unless a key has too many digits. -/
theorem ofData_outcome (d : Data) : Outcome d (ofData d) := by
  induction d using Data.parts_induction with
  | atom a => exact ⟨rfl, id⟩
  | list number ds ih =>
    rcases itemsOfData_outcome ih with ⟨vs, hvs, ends, writable⟩ | ⟨hvs, endless⟩ | ⟨hvs, long⟩
    · rw [ofData_list.2 ⟨vs, hvs, rfl⟩]
      exact ⟨ends, fun h => isWritable_list.2 (writable h)⟩
    · rw [ofData, hvs]
      exact .inl ⟨rfl, endless⟩
    · rw [ofData, hvs]
      exact .inr ⟨rfl, long⟩
  | map number es ih =>
    rcases membersOfData_outcome ih with ⟨ms, hms, ends, writable⟩ | ⟨hms, endless⟩ | ⟨hms, long⟩
    · rw [ofData_map.2 ⟨ms, hms, rfl⟩]
      refine ⟨ends, fun h => isWritable_object.2 fun m hm => writable h m ?_⟩
      simpa using mem_of_mem_gather hm
    · rw [ofData, hms]
      exact .inl ⟨rfl, endless⟩
    · rw [ofData, hms]
      exact .inr ⟨rfl, long⟩
  | set members => exact ⟨rfl, id⟩
  | tuple key value _ _ => exact ⟨rfl, id⟩
  | cycle container => exact .inl ⟨rfl, rfl⟩

/-- What a schema sees of data, or that it sees nothing because a number has too many digits. -/
def SeenAs (d : Data) : Except Failure Value → Prop
  | .ok v => d.isWritable = true → v.isWritable = true
  | .error e => e = .number .tooLong ∧ d.isWritable = false

/-- Data that does not contain itself is seen, unless a key has too many digits. -/
theorem seenAs_of_isAcyclic {d : Data} (acyclic : d.isAcyclic = true) : SeenAs d (ofData d) := by
  have outcome := ofData_outcome d
  cases hd : ofData d with
  | ok v =>
    rw [hd] at outcome
    exact outcome.2
  | error e =>
    rw [hd] at outcome
    rcases outcome with ⟨-, endless⟩ | long
    · rw [Data.isEndless_of_isAcyclic acyclic] at endless
      cases endless
    · exact long

end Value

end KsyTools
