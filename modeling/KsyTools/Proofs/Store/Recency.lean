/-
# Which documents are kept

A store that keeps at most `m` documents keeps those of the `m` files that were served last, in the
order in which they were served last.  Nothing else moves them: a text that an editor holds hides a
kept document, and a file that is gone or cannot be read leaves it where it is.  So a file that is
asked for again gives the document that it gave before, unless it has changed or `m` other files
were served in between.
-/
import KsyTools.Proofs.Store.Runs
import Mathlib.Data.Finset.Card
import Mathlib.Data.List.DropRight

namespace KsyTools

/-! ## Servings -/

/-- What a lookup gives from the file of a path, kept or read again: the key of the file, its
signature at that time, and the document. -/
def DocumentStore.served? (t : FileTree) (s : DocumentStore) (p : Path) : Option CacheEntry :=
  match s.overlay? (t.key p), t.signature? (t.key p), (s.get t p).result with
  | none, some signature, .ok (some d) => some ⟨t.key p, signature, d⟩
  | _, _, _ => none

/-- The events by which kept documents are dropped on demand. -/
def StoreEvent.DropsOnDemand : StoreEvent → Prop
  | .invalidate _ => True
  | .clearCache => True
  | _ => False

/-- What the lookups among some events give from files. -/
def World.servings (w : World) : List StoreEvent → List CacheEntry
  | [] => []
  | .get p :: rest =>
    (w.store.served? w.files p).toList ++ (w.after (.get p)).servings rest
  | e :: rest => (w.after e).servings rest

/-- The last serving of each key, in the order of these servings. -/
def latest (served : List CacheEntry) : List CacheEntry :=
  served.pwFilter fun e e' => e.key ≠ e'.key

variable {m : ℕ} {served cache cache' : List CacheEntry} {e x : CacheEntry}

/-! ## The last serving of each key -/

lemma latest_cons_of_exists (h : ∃ e' ∈ served, e'.key = e.key) :
    latest (e :: served) = latest served := by
  refine List.pwFilter_cons_of_neg fun hall => ?_
  obtain ⟨e', he', hkey⟩ := h
  rw [List.forall_mem_pwFilter (fun {a b c} hac => by grind)] at hall
  exact hall e' he' hkey.symm

lemma latest_cons_of_forall (h : ∀ e' ∈ served, e'.key ≠ e.key) :
    latest (e :: served) = e :: latest served :=
  List.pwFilter_cons_of_pos fun e' he' => (h e' (List.pwFilter_subset _ he')).symm

lemma map_key_latest (served : List CacheEntry) :
    (latest served).map CacheEntry.key = (served.map CacheEntry.key).dedup := by
  rw [latest, List.dedup, List.pwFilter_map]

lemma nodup_keys_latest (served : List CacheEntry) :
    ((latest served).map CacheEntry.key).Nodup := by
  rw [map_key_latest]
  exact List.nodup_dedup _

/-- A new serving takes the place of the one with the same key, at the end. -/
lemma latest_concat (served : List CacheEntry) (x : CacheEntry) :
    latest (served ++ [x]) = (latest served).filter (·.key != x.key) ++ [x] := by
  induction served with
  | nil => exact latest_cons_of_forall (by simp)
  | cons e served ih =>
    rw [List.cons_append]
    by_cases hx : e.key = x.key
    · rw [latest_cons_of_exists ⟨x, by simp, hx.symm⟩, ih]
      by_cases hlater : ∃ e' ∈ served, e'.key = e.key
      · rw [latest_cons_of_exists hlater]
      · push Not at hlater
        rw [latest_cons_of_forall hlater, List.filter_cons_of_neg (by simp [hx])]
    · by_cases hlater : ∃ e' ∈ served, e'.key = e.key
      · obtain ⟨e', he', hkey⟩ := hlater
        rw [latest_cons_of_exists ⟨e', by simp [he'], hkey⟩, latest_cons_of_exists ⟨e', he', hkey⟩,
          ih]
      · push Not at hlater
        have hlater' : ∀ e' ∈ served ++ [x], e'.key ≠ e.key := by
          simpa [or_imp, forall_and] using ⟨hlater, Ne.symm hx⟩
        rw [latest_cons_of_forall hlater', latest_cons_of_forall hlater, ih,
          List.filter_cons_of_pos (by simpa using hx), List.cons_append]

/-- Behind the last serving of a key come the last servings of the keys served since. -/
lemma suffix_latest (before since : List CacheEntry) (h : ∀ y ∈ since, y.key ≠ x.key) :
    (x :: latest since) <:+ latest (before ++ x :: since) := by
  induction before with
  | nil => rw [List.nil_append, latest_cons_of_forall h]
  | cons e before ih =>
    rw [List.cons_append]
    by_cases hlater : ∃ e' ∈ before ++ x :: since, e'.key = e.key
    · rwa [latest_cons_of_exists hlater]
    · push Not at hlater
      rw [latest_cons_of_forall hlater]
      exact ih.trans (List.suffix_cons e _)

/-! ## The end of a list -/

lemma rtake_suffix {α : Type} (l : List α) (n : ℕ) : l.rtake n <:+ l :=
  List.drop_suffix _ l

lemma length_rtake {α : Type} (l : List α) (n : ℕ) : (l.rtake n).length = min n l.length := by
  rw [List.rtake, List.length_drop]
  omega

lemma rtake_of_length_le {α : Type} {l : List α} {n : ℕ} (h : l.length ≤ n) : l.rtake n = l := by
  rw [List.rtake, Nat.sub_eq_zero_of_le h, List.drop_zero]

lemma suffix_rtake {α : Type} {l l' : List α} {n : ℕ} (h : l' <:+ l) (hlength : l'.length ≤ n) :
    l' <:+ l.rtake n := by
  refine List.suffix_of_suffix_length_le h (rtake_suffix l n) ?_
  rw [length_rtake]
  exact le_min hlength h.length_le

lemma rtake_append_of_le_length {α : Type} {l l' : List α} {n : ℕ} (h : n ≤ l'.length) :
    (l ++ l').rtake n = l'.rtake n := by
  rw [List.rtake, List.rtake, List.length_append, Nat.add_sub_assoc h, List.drop_length_add_append]

/-- What is further back than the last `m` does not count when one more comes to the end and at most
one of the others is taken out. -/
lemma rtake_filter_concat {p : CacheEntry → Bool} (l : List CacheEntry) (x : CacheEntry)
    (h : (l.filter fun e => !p e).length ≤ 1) :
    ((l.rtake (m + 1)).filter p ++ [x]).rtake (m + 1) = (l.filter p ++ [x]).rtake (m + 1) := by
  rw [List.rtake_concat_succ, List.rtake_concat_succ]
  obtain ⟨front, hfront⟩ := rtake_suffix l (m + 1)
  rcases Nat.le_total l.length (m + 1) with hle | hle
  · rw [rtake_of_length_le hle]
  · -- of the last `m + 1` at least `m` stay
    have hlength : (l.rtake (m + 1)).length = m + 1 := by
      rw [length_rtake, Nat.min_eq_left hle]
    have hout : ((l.rtake (m + 1)).filter fun e => !p e).length ≤ 1 :=
      ((rtake_suffix l (m + 1)).sublist.filter _).length_le.trans h
    have hstay := (l.rtake (m + 1)).length_eq_length_filter_add p
    have hfilter : l.filter p = front.filter p ++ (l.rtake (m + 1)).filter p := by
      rw [← List.filter_append, hfront]
    rw [hfilter, rtake_append_of_le_length (by omega)]

/-! ## One lookup -/

/-- In a list with different keys, no key is there twice. -/
lemma filter_key_length_le (h : (cache.map CacheEntry.key).Nodup) (k : Path) :
    (cache.filter fun e => e.key == k).length ≤ 1 := by
  have hcount := List.nodup_iff_count_le_one.mp h k
  rwa [List.count, List.countP_map, List.countP_eq_length_filter] at hcount

lemma filter_key_eq (h : (cache.map CacheEntry.key).Nodup) (he : e ∈ cache) :
    (cache.filter fun e' => e'.key == e.key) = [e] := by
  have hmem : e ∈ cache.filter fun e' => e'.key == e.key := List.mem_filter.mpr ⟨he, by simp⟩
  have hle := filter_key_length_le h e.key
  match hfilter : cache.filter fun e' => e'.key == e.key with
  | [] => simp [hfilter] at hmem
  | [e'] =>
    rw [hfilter, List.mem_singleton] at hmem
    rw [hfilter, hmem]
  | _ :: _ :: _ => simp [hfilter] at hle

lemma find?_key_eq (h : (cache.map CacheEntry.key).Nodup) (he : e ∈ cache) :
    cache.find? (fun e' => e'.key == e.key) = some e := by
  rw [← List.head?_filter, filter_key_eq h he, List.head?_cons]

/-- What serving does to the kept documents: the entry that is served comes to the end, and is the
one that was kept if that was current. -/
structure Serves (m : ℕ) (cache : List CacheEntry) (x : CacheEntry) (cache' : List CacheEntry) :
    Prop where
  again : ∀ e ∈ cache, e.key = x.key → e.signature = x.signature → x = e
  cache_eq : cache' = (cache.filter (·.key != x.key) ++ [x]).rtake m

namespace DocumentStore

variable {s : DocumentStore}

/-- A lookup serves nothing from a file and leaves what is kept as it is, or it serves an entry. -/
lemma get_serves (t : FileTree) (p : Path) (hen : s.cacheEnabled) (hmax : 1 ≤ s.maxCacheSize)
    (hkeys : (s.cache.map CacheEntry.key).Nodup)
    (hsize : s.cache.length ≤ s.maxCacheSize.toNat) :
    (s.served? t p = none ∧ (s.get t p).store.cache = s.cache) ∨
      ∃ x, s.served? t p = some x ∧
        Serves s.maxCacheSize.toNat s.cache x (s.get t p).store.cache := by
  rcases get_cases t s p with ⟨d, ho, -, hs⟩ | ⟨ho, hsig, -, hs⟩ |
    ⟨signature, e, ho, hsig, -, hfind, rfl, hr, hs⟩ | ⟨signature, ho, hsig, hcached, hload⟩
  · exact .inl ⟨by simp [served?, ho], by rw [hs]⟩
  · exact .inl ⟨by simp [served?, ho, hsig], by rw [hs]⟩
  · -- the kept document is current
    have hkey : e.key = t.key p := by simpa using List.find?_some hfind
    have he := List.mem_of_find?_eq_some hfind
    have hentry : (⟨t.key p, e.signature, e.stored⟩ : CacheEntry) = e := by rw [← hkey]
    refine .inr ⟨e, by simp [served?, ho, hsig, hr, hentry], ?_, ?_⟩
    · intro e' he' hkey' _
      have hone := filter_key_eq hkeys he
      have hmem : e' ∈ s.cache.filter fun e' => e'.key == e.key :=
        List.mem_filter.mpr ⟨he', by simpa using hkey'⟩
      rw [hone, List.mem_singleton] at hmem
      exact hmem.symm
    · rw [hs, touch, ← hkey]
      simp only
      rw [filter_key_eq hkeys he, rtake_of_length_le]
      have hlength := s.cache.length_eq_length_filter_add fun e' => e'.key == e.key
      rw [filter_key_eq hkeys he] at hlength
      rw [List.length_append]
      exact (Nat.add_comm _ _).trans_le (hlength ▸ hsize)
  · rcases load_cases t s (t.key p) signature with ⟨-, hr, hs⟩ | ⟨fault, -, hr, hs⟩ |
      ⟨d, s', -, -, -, rfl, hr, hs⟩
    · exact .inl ⟨by simp [served?, ho, hsig, hload, hr], by rw [hload, hs]⟩
    · exact .inl ⟨by simp [served?, ho, hsig, hload, hr], by rw [hload, hs]⟩
    · -- no kept document is current, and the file is read
      have hneg : ¬(s.cacheEnabled ∧ s.maxCacheSize < 0) := fun h => by omega
      rw [if_neg hneg] at hr
      rw [if_pos hen] at hs
      refine .inr ⟨⟨t.key p, signature, d⟩, by simp [served?, ho, hsig, hload, hr], ?_, ?_⟩
      · intro e he hkey hsame
        have hkey : e.key = t.key p := hkey
        simp [cached?, hen, ← hkey, find?_key_eq hkeys he, hsame] at hcached
      · rw [hload, hs, remember]
        rfl

/-- What is kept is given as long as it is current. -/
lemma get_of_mem {t : FileTree} {p : Path} (hen : s.cacheEnabled)
    (hkeys : (s.cache.map CacheEntry.key).Nodup) (he : e ∈ s.cache) (hkey : t.key p = e.key)
    (ho : s.overlay? e.key = none) (hsig : t.signature? e.key = some e.signature) :
    (s.get t p).result = .ok (some e.stored) := by
  have hcached : s.cached? e.key e.signature = some e.stored := by
    simp [cached?, hen, find?_key_eq hkeys he]
  simp [get, hkey, ho, hsig, hcached]

end DocumentStore

/-! ## Runs -/

/-- Of what was served, the last `m` keys are kept; and what was served was what was kept, where
that was current. -/
structure KeepsLatest (m : ℕ) (served cache : List CacheEntry) : Prop where
  cache_eq : cache = (latest served).rtake m
  again : ∀ before x rest, served = before ++ x :: rest →
    ∀ e ∈ (latest before).rtake m, e.key = x.key → e.signature = x.signature → x = e

namespace KeepsLatest

lemma nil : KeepsLatest m [] [] :=
  ⟨by simp [latest], fun before x rest h => by simp at h⟩

lemma nodup_keys (h : KeepsLatest m served cache) : (cache.map CacheEntry.key).Nodup := by
  rw [h.cache_eq]
  exact (nodup_keys_latest served).sublist ((rtake_suffix _ m).sublist.map _)

lemma length_le (h : KeepsLatest m served cache) : cache.length ≤ m := by
  rw [h.cache_eq, length_rtake]
  exact Nat.min_le_left _ _

/-- One more serving. -/
lemma concat (hm : 1 ≤ m) (h : KeepsLatest m served cache) (hx : Serves m cache x cache') :
    KeepsLatest m (served ++ [x]) cache' := by
  constructor
  · obtain ⟨k, rfl⟩ := Nat.exists_eq_add_of_le' hm
    rw [hx.cache_eq, h.cache_eq, latest_concat]
    refine rtake_filter_concat (latest served) x ?_
    simpa [bne] using filter_key_length_le (nodup_keys_latest served) x.key
  · intro before y rest hsplit
    rcases List.eq_nil_or_concat rest with rfl | ⟨rest, z, rfl⟩
    · -- the new serving
      obtain ⟨rfl, hy⟩ := List.append_inj' hsplit rfl
      obtain rfl : x = y := by simpa using hy
      rw [← h.cache_eq]
      exact hx.again
    · refine h.again before y rest ?_
      rw [List.concat_eq_append, ← List.cons_append, ← List.append_assoc] at hsplit
      exact (List.append_inj' hsplit rfl).1

/-- What was served at any time was kept then. -/
lemma of_append {rest : List CacheEntry} (h : KeepsLatest m (served ++ rest) cache) :
    KeepsLatest m served ((latest served).rtake m) :=
  ⟨rfl, fun before x rest' hserved => h.again before x (rest' ++ rest) (by simp [hserved])⟩

/-- An entry is still kept if its key had the same signature whenever it was served since, and fewer
than `m` other keys were served since. -/
lemma mem_of_few (before between : List CacheEntry)
    (h : KeepsLatest m (before ++ e :: between) cache)
    (hsig : ∀ y ∈ between, y.key = e.key → y.signature = e.signature)
    (hfew : ((between.map CacheEntry.key).toFinset.erase e.key).card < m) : e ∈ cache := by
  induction hn : between.length using Nat.strong_induction_on
    generalizing before between e cache with
  | _ n ih =>
    subst hn
    have few {part : List CacheEntry} (hpart : part ⊆ between) :
        ((part.map CacheEntry.key).toFinset.erase e.key).card < m :=
      (Finset.card_le_card (Finset.erase_subset_erase _ fun k hk =>
        List.mem_toFinset.mpr (List.map_subset _ hpart (List.mem_toFinset.mp hk)))).trans_lt hfew
    by_cases hagain : ∃ y ∈ between, y.key = e.key
    · -- when its key was served in between, the entry was still kept, and so is what was served
      obtain ⟨y, hy, hykey⟩ := hagain
      obtain ⟨front, back, rfl⟩ := List.append_of_mem hy
      rw [← List.cons_append, ← List.append_assoc] at h
      have hkept := ih front.length (by simp) before front h.of_append
        (fun z hz => hsig z (by simp [hz])) (few (by simp)) rfl
      obtain rfl : y = e := h.again _ y back rfl e hkept hykey.symm (hsig y hy hykey).symm
      exact ih back.length (by simp; omega) (before ++ y :: front) back h
        (fun z hz => hsig z (by simp [hz])) (few fun z hz => by simp [hz]) rfl
    · push Not at hagain
      have hlength : (e :: latest between).length ≤ m := by
        rwa [Finset.erase_eq_of_notMem (by simpa using hagain), List.card_toFinset,
          ← map_key_latest, List.length_map] at hfew
      rw [h.cache_eq]
      exact (suffix_rtake (suffix_latest before between hagain) hlength).subset List.mem_cons_self

end KeepsLatest

namespace World

variable {w : World}

/-- What a run serves is kept after what was served before. -/
lemma keepsLatest_run (hen : w.store.cacheEnabled) (hmax : 1 ≤ w.store.maxCacheSize)
    (h : KeepsLatest w.store.maxCacheSize.toNat served w.store.cache) {events : List StoreEvent}
    (hevents : ∀ e ∈ events, ¬ e.DropsOnDemand) :
    KeepsLatest w.store.maxCacheSize.toNat (served ++ w.servings events)
      (w.run events).store.cache := by
  induction events generalizing w served with
  | nil => simpa [servings] using h
  | cons e rest ih =>
    obtain ⟨he, hrest⟩ := List.forall_mem_cons.mp hevents
    obtain ⟨hen', hmax'⟩ := settings_after w e
    rw [run_cons, ← hmax']
    have further {served' : List CacheEntry}
        (h' : KeepsLatest w.store.maxCacheSize.toNat served' (w.after e).store.cache) :
        KeepsLatest (w.after e).store.maxCacheSize.toNat
          (served' ++ (w.after e).servings rest) ((w.after e).run rest).store.cache :=
      ih (hen'.trans hen) (by rwa [hmax']) (by rwa [hmax']) hrest
    cases e with
    | setOverlay path? content =>
      refine further ?_
      rwa [after, setOverlay_cache]
    | removeOverlay p => exact further h
    | get p =>
      rw [servings, ← List.append_assoc]
      refine further ?_
      rcases DocumentStore.get_serves w.files p hen hmax h.nodup_keys h.length_le with
        ⟨hnone, hcache⟩ | ⟨x, hsome, hserves⟩
      · rwa [hnone, Option.toList_none, List.append_nil, after, hcache]
      · rw [hsome, Option.toList_some]
        exact h.concat (by omega) hserves
    | findFile p shown => exact further h
    | invalidate p => exact absurd trivial he
    | clearCache => exact absurd trivial he
    | change root now => exact further h

/-- A store keeps the documents that were asked for last.

In a run that starts with nothing kept, and in which nothing is dropped on demand, the keys of the
kept documents are the last `m` of the keys served, each counted where it was served last, in this
order; so there are never more than `m`.  A lookup that comes to the file of a key served before
gives the very document that was given then, if the file has the signature that it had then and
whenever it was served since, and fewer than `m` other keys were served since. -/
theorem cache_keeps_latest (start : World) (hen : start.store.cacheEnabled)
    (hmax : 1 ≤ start.store.maxCacheSize) (hnew : start.store.cache = [])
    (events : List StoreEvent) (hevents : ∀ e ∈ events, ¬ e.DropsOnDemand) :
    let m := start.store.maxCacheSize.toNat
    let served := start.servings events
    let w := start.run events
    w.store.cache.map CacheEntry.key = (served.map CacheEntry.key).dedup.rtake m ∧
      w.store.cache.length = min m (served.map CacheEntry.key).dedup.length ∧
      ∀ before e between p, served = before ++ e :: between →
        (∀ y ∈ between, y.key = e.key → y.signature = e.signature) →
        ((between.map CacheEntry.key).toFinset.erase e.key).card < m →
        w.files.key p = e.key → w.store.overlay? e.key = none →
        w.files.signature? e.key = some e.signature →
        (w.store.get w.files p).result = .ok (some e.stored) := by
  intro m served w
  have hkeeps : KeepsLatest m served w.store.cache := by
    have hnil : KeepsLatest m [] start.store.cache := by
      rw [hnew]
      exact .nil
    simpa using keepsLatest_run hen hmax hnil hevents
  have hkeys : w.store.cache.map CacheEntry.key = (served.map CacheEntry.key).dedup.rtake m := by
    rw [← map_key_latest, List.rtake, ← List.map_drop, List.length_map]
    exact congrArg _ hkeeps.cache_eq
  refine ⟨hkeys, ?_, fun before e between p hserved hsame hfew hkey ho hsig => ?_⟩
  · rw [← List.length_map, hkeys, length_rtake]
  · have hkept : e ∈ w.store.cache :=
      KeepsLatest.mem_of_few before between (hserved ▸ hkeeps) hsame hfew
    have hen' : w.store.cacheEnabled := by rwa [(settings_run start events).1]
    exact DocumentStore.get_of_mem hen' hkeeps.nodup_keys hkept hkey ho hsig

/-- A directory with two files, both empty. -/
def emptyFiles : FileTree :=
  ⟨.directory [("a.ksy", .file [] 0), ("b.ksy", .file [] 0)], ⟨.slash, []⟩, 1⟩

lemma find_emptyFiles {name : String} (hname : name = "a.ksy" ∨ name = "b.ksy") :
    emptyFiles.find ⟨.slash, [name]⟩ = .ok ([name], .file [] 0) := by
  rcases hname with rfl | rfl
  · rw [FileTree.find, if_neg (by decide)]
    change Except.map _ (FileTree.followFrom emptyFiles.root FileTree.maxLinks [] ["a.ksy"]) = _
    rw [FileTree.followFrom]
    simp [FileTree.followFrom, emptyFiles, Entry.at?, Entry.child?, Entry.entries]
    rfl
  · rw [FileTree.find, if_neg (by decide)]
    change Except.map _ (FileTree.followFrom emptyFiles.root FileTree.maxLinks [] ["b.ksy"]) = _
    rw [FileTree.followFrom]
    simp [FileTree.followFrom, emptyFiles, Entry.at?, Entry.child?, Entry.entries]
    rfl

/-- Both files are asked for, the first one twice, then the other one while an editor holds a text
for it. -/
def turns : List StoreEvent :=
  [.get ⟨.slash, ["a.ksy"]⟩, .get ⟨.slash, ["b.ksy"]⟩, .get ⟨.slash, ["a.ksy"]⟩,
    .setOverlay (some ⟨.slash, ["b.ksy"]⟩) "", .get ⟨.slash, ["b.ksy"]⟩,
    .removeOverlay ⟨.slash, ["b.ksy"]⟩]

lemma get_emptyFiles {name : String} (hname : name = "a.ksy" ∨ name = "b.ksy") :
    emptyFiles.signature? ⟨.slash, [name]⟩ = some (0, 0) ∧
      emptyFiles.readText ⟨.slash, [name]⟩ = .ok "" ∧
      ∃ d, Document.parse "" (some ⟨.slash, [name]⟩) none = .ok d := by
  have hnull : FileTree.hasNull ⟨.slash, [name]⟩ = false := by
    rcases hname with rfl | rfl <;> decide
  have hparse : (Document.parse "" (some ⟨.slash, [name]⟩) none).isOk = true := by
    rcases hname with rfl | rfl <;> decide +kernel
  refine ⟨?_, ?_, ?_⟩
  · simp [FileTree.signature?, FileTree.stat, hnull, find_emptyFiles hname]
  · have htext : Text.decodeUtf8 [] = .ok "" := by decide +kernel
    simp [FileTree.readText, hnull, find_emptyFiles hname, FileTree.textOf, Except.map, htext,
      Text.unifyNewlines]
  · cases h : Document.parse "" (some ⟨.slash, [name]⟩) none with
    | ok d => exact ⟨d, rfl⟩
    | error fault => simp [h, Except.isOk, Except.toBool] at hparse

lemma servings_turns : ∃ d d', servings ⟨emptyFiles, .empty true 2⟩ turns =
    [⟨⟨.slash, ["a.ksy"]⟩, (0, 0), ⟨0, d⟩⟩, ⟨⟨.slash, ["b.ksy"]⟩, (0, 0), ⟨1, d'⟩⟩,
      ⟨⟨.slash, ["a.ksy"]⟩, (0, 0), ⟨0, d⟩⟩] := by
  obtain ⟨hsig, hread, d, hd⟩ := get_emptyFiles (.inl rfl)
  obtain ⟨hsig', hread', d', hd'⟩ := get_emptyFiles (.inr rfl)
  have hkey : emptyFiles.key ⟨.slash, ["a.ksy"]⟩ = ⟨.slash, ["a.ksy"]⟩ := by decide
  have hkey' : emptyFiles.key ⟨.slash, ["b.ksy"]⟩ = ⟨.slash, ["b.ksy"]⟩ := by decide
  refine ⟨d, d', ?_⟩
  simp [turns, servings, DocumentStore.served?, after, DocumentStore.get, DocumentStore.empty,
    DocumentStore.overlay?, hkey, hkey', hsig, hsig', DocumentStore.cached?, DocumentStore.load,
    hread, hread', DocumentStore.parse, hd, hd', DocumentStore.remember, DocumentStore.setOverlay,
    Keyed.set]

/-- What is hidden by a text does not count as served: the first file is kept last, and the other
one is given as it was before. -/
theorem cache_keeps_latest_turns :
    let w := run ⟨emptyFiles, .empty true 2⟩ turns
    (∀ e ∈ turns, ¬ e.DropsOnDemand) ∧
      w.store.cache.map CacheEntry.key = [⟨.slash, ["b.ksy"]⟩, ⟨.slash, ["a.ksy"]⟩] ∧
      ∃ a b a', servings ⟨emptyFiles, .empty true 2⟩ turns = [a, b, a'] ∧
        (w.store.get w.files ⟨.slash, ["b.ksy"]⟩).result = .ok (some b.stored) := by
  intro w
  obtain ⟨d, d', hserved⟩ := servings_turns
  have hevents : ∀ e ∈ turns, ¬ e.DropsOnDemand := by simp [turns, StoreEvent.DropsOnDemand]
  obtain ⟨hkeys, -, hagain⟩ :=
    cache_keeps_latest ⟨emptyFiles, .empty true 2⟩ rfl (by decide) rfl turns hevents
  have hkey : emptyFiles.key ⟨.slash, ["b.ksy"]⟩ = ⟨.slash, ["b.ksy"]⟩ := by decide
  have hclosed : w.store.overlay? ⟨.slash, ["b.ksy"]⟩ = none := by
    rw [overlay?_run]
    simp only [turns, held, heldAfter]
    exact if_pos hkey
  refine ⟨hevents, ?_, _, _, _, hserved, ?_⟩
  · rw [hkeys, hserved]
    simp only [List.map_cons, List.map_nil]
    decide
  · refine hagain [_] _ [_] ⟨.slash, ["b.ksy"]⟩ hserved (by simp) ?_ hkey hclosed
      (get_emptyFiles (.inr rfl)).1
    simp only [List.map_cons, List.map_nil]
    decide

end World

end KsyTools
