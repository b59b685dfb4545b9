/-
# Following links

Two walks go through a file tree: `followFrom` looks for what is at the end of a way and gives up
after a number of links, `canonicalFrom` rewrites a way into one without links and remembers the
links that it has met.  Wherever the first one arrives, the second one arrives too, at the same
place.  So the canonical path of something that exists is the way to it, and it is one of the
finitely many ways of the tree.

Between the two stands the relation `Leads`, which says where a way leads and over how many links.
-/
import KsyTools.Files.Tree
import KsyTools.Proofs.Path.Written
import Mathlib.Data.List.Nodup
import Mathlib.Data.List.Perm.Subperm
import Mathlib.Order.Nat
import Mathlib.Tactic.Common

namespace KsyTools

namespace Entry

/-! ## The ways of a tree -/

lemma at?_append (e : Entry) (v w : List String) :
    e.at? (v ++ w) = (e.at? v).bind fun c => c.at? w := by
  induction v generalizing e with
  | nil => rfl
  | cons name rest ih =>
    simp only [List.cons_append, at?, Option.bind_assoc]
    congr 1
    funext c
    exact ih c

lemma at?_singleton (e : Entry) (name : String) : e.at? [name] = e.child? name := by
  simp [at?]

lemma cons_mem_waysBelowAll {es : List (String × Entry)} {name : String} {e : Entry}
    (h : (name, e) ∈ es) :
    [name] ∈ waysBelowAll es ∧ ∀ way ∈ e.waysBelow, name :: way ∈ waysBelowAll es := by
  induction es with
  | nil => simp at h
  | cons x rest ih =>
    obtain ⟨name', e'⟩ := x
    rcases List.mem_cons.mp h with h | h
    · obtain ⟨rfl, rfl⟩ := Prod.mk.inj h
      refine ⟨by simp [waysBelowAll], fun way hway => ?_⟩
      simp [waysBelowAll, hway]
    · obtain ⟨h1, h2⟩ := ih h
      refine ⟨by simp [waysBelowAll, h1], fun way hway => ?_⟩
      simp [waysBelowAll, h2 way hway]

/-- The ways of a tree are all the ways at whose end something is. -/
lemma mem_waysBelow {e x : Entry} {way : List String} (h : e.at? way = some x) (hne : way ≠ []) :
    way ∈ e.waysBelow := by
  induction way generalizing e with
  | nil => exact absurd rfl hne
  | cons name rest ih =>
    simp only [at?, Option.bind_eq_some_iff] at h
    obtain ⟨c, hc, hrest⟩ := h
    cases e with
    | directory es =>
      have hmem : (name, c) ∈ es := Keyed.mem_of_lookup hc
      obtain ⟨h1, h2⟩ := cons_mem_waysBelowAll hmem
      by_cases hr : rest = []
      · subst hr
        exact h1
      · exact h2 rest (ih hrest hr)
    | file content changed => simp [child?, entries] at hc
    | pipe => simp [child?, entries] at hc
    | link target => simp [child?, entries] at hc

end Entry

namespace FileTree

/-- Where a link starts from: the root, or the directory that it is in. -/
def linkStart (target : String) (here : List String) : List String :=
  if (Path.ofString target).isAbsolute then [] else here

/-- From a directory a way of names leads to another one, over a number of links.  Ways are given
nearest name first; nothing is said about what exists. -/
inductive Leads (root : Entry) : (links : ℕ) → (here way there : List String) → Prop
  | done {here : List String} : Leads root 0 here [] here
  | dot {n : ℕ} {name : String} {here rest there : List String} :
      name = "." → Leads root n here rest there → Leads root n here (name :: rest) there
  | up {n : ℕ} {name : String} {here rest there : List String} :
      name = ".." → Leads root n here.tail rest there → Leads root n here (name :: rest) there
  | name {n : ℕ} {name : String} {here rest there : List String} :
      name ≠ "." → name ≠ ".." → linkTarget? root (name :: here) = none →
      Leads root n (name :: here) rest there → Leads root n here (name :: rest) there
  | link {m n : ℕ} {name target : String} {here rest mid there : List String} :
      name ≠ "." → name ≠ ".." → linkTarget? root (name :: here) = some target →
      Leads root m (linkStart target here) (Path.ofString target).parts mid →
      Leads root n mid rest there → Leads root (m + n + 1) here (name :: rest) there

namespace Leads

variable {root : Entry}

/-- Where a way leads, and over how many links, is determined by the way. -/
lemma unique {n n' : ℕ} {here way there there' : List String} (h : Leads root n here way there)
    (h' : Leads root n' here way there') : n = n' ∧ there = there' := by
  -- the rules exclude each other: the second way begins by the same rule as the first
  induction h generalizing n' there' with
  | done => cases h' with | done => exact ⟨rfl, rfl⟩
  | dot hd _ ih =>
    cases h' with
    | dot _ h' => exact ih h'
    | up hdd => exact absurd (hd.symm.trans hdd) (by decide)
    | name hd' => exact absurd hd hd'
    | link hd' => exact absurd hd hd'
  | up hdd _ ih =>
    cases h' with
    | dot hd => exact absurd (hd.symm.trans hdd) (by decide)
    | up _ h' => exact ih h'
    | name _ hdd' => exact absurd hdd hdd'
    | link _ hdd' => exact absurd hdd hdd'
  | name hd hdd ht _ ih =>
    cases h' with
    | dot hd' => exact absurd hd' hd
    | up hdd' => exact absurd hdd' hdd
    | name _ _ _ h' => exact ih h'
    | link _ _ ht' => exact absurd (ht.symm.trans ht') (by simp)
  | link hd hdd ht _ _ ih₁ ih₂ =>
    cases h' with
    | dot hd' => exact absurd hd' hd
    | up hdd' => exact absurd hdd' hdd
    | name _ _ ht' => exact absurd (ht.symm.trans ht') (by simp)
    | link _ _ ht' h₁ h₂ =>
      obtain rfl := Option.some.inj (ht.symm.trans ht')
      obtain ⟨rfl, rfl⟩ := ih₁ h₁
      obtain ⟨rfl, rfl⟩ := ih₂ h₂
      exact ⟨rfl, rfl⟩

/-- A way that leads somewhere leads there part by part. -/
lemma split {n : ℕ} {here v w there : List String} (h : Leads root n here (v ++ w) there) :
    ∃ i j mid, n = i + j ∧ Leads root i here v mid ∧ Leads root j mid w there := by
  induction v generalizing n here with
  | nil => exact ⟨0, n, here, by simp, .done, h⟩
  | cons x v ih =>
    cases h with
    | dot hd h =>
      obtain ⟨i, j, mid, hn, h₁, h₂⟩ := ih h
      exact ⟨i, j, mid, hn, .dot hd h₁, h₂⟩
    | up hdd h =>
      obtain ⟨i, j, mid, hn, h₁, h₂⟩ := ih h
      exact ⟨i, j, mid, hn, .up hdd h₁, h₂⟩
    | name hd hdd ht h =>
      obtain ⟨i, j, mid, hn, h₁, h₂⟩ := ih h
      exact ⟨i, j, mid, hn, .name hd hdd ht h₁, h₂⟩
    | link hd hdd ht hm h =>
      obtain ⟨i, j, mid, rfl, h₁, h₂⟩ := ih h
      exact ⟨_, j, mid, by omega, .link hd hdd ht hm h₁, h₂⟩

/-- A `.` on the way makes no difference. -/
lemma filter_dot {n : ℕ} {here way there : List String} (h : Leads root n here way there) :
    Leads root n here (way.filter (· != ".")) there := by
  induction h with
  | done => exact .done
  | dot hd _ ih => simpa [hd] using ih
  | up hdd _ ih => simpa [hdd] using Leads.up rfl ih
  | name hd hdd ht _ ih => simpa [hd] using Leads.name hd hdd ht ih
  | link hd hdd ht hm _ _ ih => simpa [hd] using Leads.link hd hdd ht hm ih

/-- No `..` is left in where a way leads. -/
lemma dots_notMem {n : ℕ} {here way there : List String} (h : Leads root n here way there)
    (hh : ".." ∉ here) : ".." ∉ there := by
  induction h with
  | done => exact hh
  | dot _ _ ih => exact ih hh
  | up _ _ ih => exact ih fun hm => hh (List.mem_of_mem_tail hm)
  | name _ hdd _ _ ih =>
    refine ih fun hm => ?_
    rcases List.mem_cons.mp hm with hm | hm
    · exact hdd hm.symm
    · exact hh hm
  | link _ _ _ _ _ ih₁ ih₂ =>
    refine ih₂ (ih₁ ?_)
    unfold linkStart
    split
    · simp
    · exact hh

end Leads

/-! ## Looking for what is at the end of a way -/

/-- A link stands for its path, but for the `.` that asks for a directory. -/
lemma filter_linkWay (target : String) :
    (linkWay target).filter (· != ".") = (Path.ofString target).parts := by
  unfold linkWay Path.ofString Path.components
  simp only [List.filter_append, List.filter_filter]
  split
  · simp [Bool.and_comm]
  · simp [Bool.and_comm]

lemma linkTarget?_cons (root : Entry) {dir : Entry} {here : List String} (name : String)
    (h : root.at? here.reverse = some dir) :
    linkTarget? root (name :: here) =
      match dir.child? name with
      | some (.link target) => some target
      | _ => none := by
  have hat : root.at? (name :: here).reverse = dir.child? name := by
    rw [List.reverse_cons, Entry.at?_append, h, Option.bind_some, Entry.at?_singleton]
  cases hchild : dir.child? name with
  | none => simp only [linkTarget?, hat, hchild]
  | some e => cases e <;> simp only [linkTarget?, hat, hchild]

/-- What the first step of a successful search can be. -/
lemma followFrom_cons_ok {root : Entry} {links : ℕ} {here rest : List String} {name : String}
    {r : List String × Entry} (h : followFrom root links here (name :: rest) = .ok r) :
    (name = "." ∧ followFrom root links here rest = .ok r) ∨
      (name = ".." ∧ followFrom root links here.tail rest = .ok r) ∨
      (name ≠ "." ∧ name ≠ ".." ∧ linkTarget? root (name :: here) = none ∧
        followFrom root links (name :: here) rest = .ok r) ∨
      ∃ target inner, name ≠ "." ∧ name ≠ ".." ∧
        linkTarget? root (name :: here) = some target ∧ links = inner + 1 ∧
        followFrom root inner (linkStart target here) (linkWay target ++ rest) = .ok r := by
  rw [followFrom] at h
  split at h
  · simp at h
  next dir hdir =>
    have htarget := linkTarget?_cons root name hdir
    split_ifs at h with hdirectory hd hdd hlong
    · exact .inl ⟨hd, h⟩
    · exact .inr (.inl ⟨hdd, h⟩)
    · split at h
      · simp at h
      next target hc =>
        cases links with
        | zero => simp at h
        | succ inner =>
          change (if target = "" then _ else
            followFrom root inner (linkStart target here) (linkWay target ++ rest)) = _ at h
          split_ifs at h with hempty
          exact .inr (.inr (.inr ⟨target, inner, hd, hdd, by simp [htarget, hc], rfl, h⟩))
      next c hlink hc =>
        refine .inr (.inr (.inl ⟨hd, hdd, ?_, h⟩))
        rw [htarget, hc]
        cases c with
        | link target => exact absurd rfl (hlink target)
        | file content changed => rfl
        | directory es => rfl
        | pipe => rfl

/-- Where something is found, the way leads there. -/
lemma leads_of_followFrom {root : Entry} {links : ℕ} {here way there : List String} {e : Entry}
    (h : followFrom root links here way = .ok (there, e)) :
    (∃ n, Leads root n here way there) ∧ root.at? there.reverse = some e := by
  -- a link makes the way longer and leaves fewer links to follow
  induction links using Nat.strongRecOn generalizing here way with
  | _ links ihLinks =>
    induction way generalizing here with
    | nil =>
      rw [followFrom] at h
      split at h
      next e' he =>
        simp only [Except.ok.injEq, Prod.mk.injEq] at h
        obtain ⟨rfl, rfl⟩ := h
        exact ⟨⟨0, .done⟩, he⟩
      · simp at h
    | cons name rest ih =>
      rcases followFrom_cons_ok h with ⟨hd, hrest⟩ | ⟨hdd, hrest⟩ | ⟨hd, hdd, ht, hrest⟩ |
        ⟨target, inner, hd, hdd, ht, rfl, hrest⟩
      · obtain ⟨⟨n, hn⟩, he⟩ := ih hrest
        exact ⟨⟨n, .dot hd hn⟩, he⟩
      · obtain ⟨⟨n, hn⟩, he⟩ := ih hrest
        exact ⟨⟨n, .up hdd hn⟩, he⟩
      · obtain ⟨⟨n, hn⟩, he⟩ := ih hrest
        exact ⟨⟨n, .name hd hdd ht hn⟩, he⟩
      · obtain ⟨⟨n, hn⟩, he⟩ := ihLinks inner (by omega) hrest
        -- the search has put the way of the link before the rest, where it is cut again
        obtain ⟨i, j, mid, -, h₁, h₂⟩ := hn.split
        have h₁ := h₁.filter_dot
        rw [filter_linkWay] at h₁
        exact ⟨⟨i + j + 1, .link hd hdd ht h₁ h₂⟩, he⟩

/-! ## Rewriting a way into one without links -/

/-- A link leads to a place over a number of links. -/
def Resolves (root : Entry) (link : List String) (n : ℕ) (there : List String) : Prop :=
  ∃ target, linkTarget? root link = some target ∧
    Leads root n (linkStart target link.tail) (Path.ofString target).parts there

lemma Resolves.unique {root : Entry} {link there there' : List String} {n n' : ℕ}
    (h : Resolves root link n there) (h' : Resolves root link n' there') :
    n = n' ∧ there = there' := by
  obtain ⟨target, ht, hl⟩ := h
  obtain ⟨target', ht', hl'⟩ := h'
  obtain rfl := Option.some.inj (ht.symm.trans ht')
  exact hl.unique hl'

/-- What is remembered about the links that were met, while a way over `n` links is followed.  The
links that are being followed are `active`; all of them lead over at least `n` links, so none of
them is met again. -/
structure Remembered (root : Entry) (depth n : ℕ) (active : List (List String))
    (seen : SeenLinks) : Prop where
  known : ∀ link there, seen.lookup link = some (some there) → ∃ m, Resolves root link m there
  unknown : ∀ link, seen.lookup link = some none → link ∈ active
  far : ∀ link ∈ active, ∀ m there, Resolves root link m there → n ≤ m
  nodup : active.Nodup
  ways : ∀ link ∈ active, link.reverse ∈ root.waysBelow
  /-- There is room for all links that are not being followed. -/
  room : root.waysBelow.length ≤ depth + active.length

namespace Remembered

variable {root : Entry} {depth n : ℕ} {active : List (List String)} {seen : SeenLinks}

lemma weaken {n' : ℕ} (h : Remembered root depth n active seen) (hn : n' ≤ n) :
    Remembered root depth n' active seen :=
  { h with far := fun link hl m there hr => hn.trans (h.far link hl m there hr) }

lemma notMem {link there : List String} {m : ℕ} (h : Remembered root depth n active seen)
    (hr : Resolves root link m there) (hm : m < n) : link ∉ active := by
  intro hl
  have := h.far link hl m there hr
  omega

/-- There is room for one more link to be followed. -/
lemma depth_pos {link : List String} (h : Remembered root depth n active seen)
    (hl : link ∉ active) (hway : link.reverse ∈ root.waysBelow) : 0 < depth := by
  -- the new link and those that are being followed are different ways of the tree
  have hnodup : ((link :: active).map List.reverse).Nodup :=
    (List.nodup_cons.mpr ⟨hl, h.nodup⟩).map List.reverse_injective
  have hsub : (link :: active).map List.reverse ⊆ root.waysBelow := by
    intro way hmem
    obtain ⟨l, hl, rfl⟩ := List.mem_map.mp hmem
    rcases List.mem_cons.mp hl with rfl | hl
    · exact hway
    · exact h.ways l hl
  have hlen := (hnodup.subperm hsub).length_le
  have := h.room
  simp only [List.length_map, List.length_cons] at hlen
  omega

/-- One more link is being followed. -/
lemma enter {link there : List String} {m : ℕ} (h : Remembered root (depth + 1) n active seen)
    (hr : Resolves root link m there) (hm : m < n) (hway : link.reverse ∈ root.waysBelow) :
    Remembered root depth m (link :: active) ((link, none) :: seen) where
  known l k hk := by
    by_cases hl : l = link
    · subst hl
      simp at hk
    · rw [List.lookup_cons, beq_false_of_ne hl] at hk
      exact h.known l k hk
  unknown l hk := by
    by_cases hl : l = link
    · simp [hl]
    · rw [List.lookup_cons, beq_false_of_ne hl] at hk
      exact List.mem_cons_of_mem _ (h.unknown l hk)
  far l hl m' k hk := by
    rcases List.mem_cons.mp hl with rfl | hl
    · exact (hr.unique hk).1.le
    · exact hm.le.trans (h.far l hl m' k hk)
  nodup := List.nodup_cons.mpr ⟨h.notMem hr hm, h.nodup⟩
  ways l hl := by
    rcases List.mem_cons.mp hl with rfl | hl
    · exact hway
    · exact h.ways l hl
  room := by
    have := h.room
    simp only [List.length_cons]
    omega

/-- Where a link leads has been found out. -/
lemma leave {link there : List String} {m k n' : ℕ} {seen' : SeenLinks}
    (h : Remembered root (depth + 1) n active seen) (hk : k ≤ n)
    (hr : Resolves root link m there)
    (h' : Remembered root depth n' (link :: active) seen') :
    Remembered root (depth + 1) k active ((link, some there) :: seen') where
  known l p hp := by
    by_cases hl : l = link
    · subst hl
      simp only [List.lookup_cons_self, Option.some.injEq] at hp
      subst hp
      exact ⟨m, hr⟩
    · rw [List.lookup_cons, beq_false_of_ne hl] at hp
      exact h'.known l p hp
  unknown l hp := by
    by_cases hl : l = link
    · subst hl
      simp at hp
    · rw [List.lookup_cons, beq_false_of_ne hl] at hp
      exact (List.mem_cons.mp (h'.unknown l hp)).resolve_left hl
  far l hl m' p hp := hk.trans (h.far l hl m' p hp)
  nodup := h.nodup
  ways := h.ways
  room := h.room

end Remembered

lemma reverse_mem_waysBelow {root : Entry} {link : List String} {target : String}
    (h : linkTarget? root link = some target) (hne : link ≠ []) :
    link.reverse ∈ root.waysBelow := by
  unfold linkTarget? at h
  split at h
  next he => exact Entry.mem_waysBelow he (by simpa using hne)
  · simp at h

/-- Where a way leads, the walk that remembers links arrives, and it arrives at the same place. -/
lemma canonicalFrom_of_leads {root : Entry} {n : ℕ} {here way there : List String}
    (h : Leads root n here way there) :
    ∀ {depth : ℕ} {active : List (List String)} {seen : SeenLinks},
      Remembered root depth n active seen →
      ∃ seen', canonicalFrom root depth seen here way = (there, true, seen') ∧
        Remembered root depth 0 active seen' := by
  induction h with
  | done =>
    intro depth active seen hs
    exact ⟨seen, by rw [canonicalFrom], hs.weaken (Nat.zero_le _)⟩
  | dot hd _ ih =>
    intro depth active seen hs
    obtain ⟨seen', hc, hs'⟩ := ih hs
    exact ⟨seen', by rw [canonicalFrom, if_pos hd, hc], hs'⟩
  | up hdd _ ih =>
    intro depth active seen hs
    obtain ⟨seen', hc, hs'⟩ := ih hs
    refine ⟨seen', ?_, hs'⟩
    rw [canonicalFrom, if_neg (by simp [hdd]), if_pos hdd, hc]
  | name hd hdd ht _ ih =>
    intro depth active seen hs
    obtain ⟨seen', hc, hs'⟩ := ih hs
    refine ⟨seen', ?_, hs'⟩
    rw [canonicalFrom, if_neg hd, if_neg hdd]
    simp only [ht, hc]
  | @link m n name target here rest mid there hd hdd ht hm _ ih₁ ih₂ =>
    intro depth active seen hs
    have hr : Resolves root (name :: here) m mid := ⟨target, ht, hm⟩
    have hway := reverse_mem_waysBelow ht (by simp)
    have hnew : name :: here ∉ active := hs.notMem hr (by omega)
    rw [canonicalFrom, if_neg hd, if_neg hdd]
    simp only [ht]
    rcases hl : seen.lookup (name :: here) with _ | _ | known
    · -- the link is met for the first time
      obtain ⟨inner, rfl⟩ : ∃ inner, depth = inner + 1 :=
        ⟨depth - 1, by have := hs.depth_pos hnew hway; omega⟩
      obtain ⟨seen₁, hc₁, hs₁⟩ := ih₁ (hs.enter hr (by omega) hway)
      obtain ⟨seen₂, hc₂, hs₂⟩ := ih₂ (hs.leave (show n ≤ m + n + 1 by omega) hr hs₁)
      unfold linkStart at hc₁
      exact ⟨seen₂, by simp only [hc₁, hc₂], hs₂⟩
    · -- it is not being followed, since its own way is shorter than all those
      exact absurd (hs.unknown _ hl) hnew
    · -- it was followed before, and led to the same place
      obtain ⟨m', hr'⟩ := hs.known _ _ hl
      obtain ⟨rfl, rfl⟩ := hr.unique hr'
      exact ih₂ (hs.weaken (by omega))

/-! ## The canonical path of what exists -/

/-- The canonical path of what exists is the way to it. -/
theorem canonical_of_find {t : FileTree} {p : Path} {way : List String} {e : Entry}
    (hnull : hasNull p = false) (h : t.find p = .ok (way, e)) :
    t.canonical p = .ok ⟨.slash, way⟩ ∧ t.root.at? way = some e := by
  unfold find at h
  split at h
  · simp at h
  · cases hf : followFrom t.root maxLinks [] (t.fromRoot p).parts with
    | error fault => simp [hf, Except.map] at h
    | ok r =>
      obtain ⟨there, e'⟩ := r
      simp only [hf, Except.map, Except.ok.injEq, Prod.mk.injEq] at h
      obtain ⟨rfl, rfl⟩ := h
      obtain ⟨⟨n, hn⟩, hat⟩ := leads_of_followFrom hf
      have hs : Remembered t.root t.root.waysBelow.length n [] [] :=
        { known := by simp, unknown := by simp, far := by simp, nodup := .nil, ways := by simp,
          room := by simp }
      obtain ⟨seen, hc, -⟩ := canonicalFrom_of_leads hn hs
      have hdots : ".." ∉ there.reverse := by simpa using hn.dots_notMem (by simp)
      refine ⟨?_, hat⟩
      simp [canonical, hnull, hc, Path.dropDots_of_notMem hdots]

/-! ## Questions about paths -/

lemma ask_of_find {t : FileTree} {p : Path} {way : List String} {e : Entry}
    (hnull : hasNull p = false) (h : t.find p = .ok (way, e)) (question : Entry → Bool) :
    t.ask p question = .ok (question e) := by
  simp [ask, stat, hnull, h]

/-- A question about a path is answered with yes where there is something of which this holds. -/
lemma ask_eq_ok_true_iff {t : FileTree} {p : Path} {question : Entry → Bool} :
    t.ask p question = .ok true ↔
      hasNull p = false ∧ ∃ way e, t.find p = .ok (way, e) ∧ question e := by
  by_cases hnull : hasNull p
  · simp [ask, stat, hnull]
  · cases hfind : t.find p with
    | error fault => by_cases hfault : fault.meansAbsent <;> simp [ask, stat, hnull, hfind, hfault]
    | ok r =>
      obtain ⟨way, e⟩ := r
      simp [ask_of_find (by simpa using hnull) hfind, hnull]

end FileTree

end KsyTools
