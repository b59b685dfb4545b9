/-
# The index follows the store

After an event about a description the index has an entry for it exactly if the store has a
document, and the entry is what the document imports.  There are three occasions on which
that can fail: a file is reported to be deleted although it still has a document, it is
reported to have changed although it has none any more, and a document is saved about which
the index was wrong before.
-/
import KsyTools.Proofs.Server.Coherence

namespace KsyTools

open FileTree (Plain Orderly TellApart noFiles)
open Ksy (includesOf)

namespace Server

/-- What the index says about a file. -/
def known? (t : FileTree) (s : Server) (p : Path) : Option (List Ksy.Include) :=
  (t.indexKey? p).bind s.index.get?

/-- The index says about a file what the store shows: nothing where there is no document, and
otherwise what the document imports. -/
def Follows (t : FileTree) (s : Server) (p : Path) : Prop :=
  (s.session.store.answer t p = .ok none ∧ s.known? t p = none) ∨
    ∃ d includes, s.session.store.answer t p = .ok (some d) ∧
      (s.session.run t (Ksy.includes d)).1 = .ok includes ∧ s.known? t p = some includes

/-- What a client can tell a server about a file; a change of it can be told among others. -/
inductive Occasion where
  | opened (text : String)
  | edited (text : String)
  | saved (text? : Option String)
  | closed
  | changed (before : List (String × FileChange)) (change : FileChange)
      (later : List (String × FileChange))

namespace Occasion

/-- The event on an occasion about a URI. -/
def event (uri : String) : Occasion → Event
  | .opened text => .opened uri text
  | .edited text => .edited uri text
  | .saved text? => .saved uri text?
  | .closed => .closed uri
  | .changed before change later => .filesChanged (before ++ (uri, change) :: later)

/-- The changes that are told after that of the file. -/
def later : Occasion → List (String × FileChange)
  | .changed _ _ later => later
  | _ => []

end Occasion

/-- The occasions on which the index does not follow the store.  No text is sent along with a
document that is saved, and the index did not follow the store before; a file is deleted that still
has a document; or a file that has none any more is not deleted, and it has an entry when its
change is noticed. -/
def Lapses (t : FileTree) (s : Server) (p : Path) : Occasion → Prop
  | .saved none => ¬ s.Follows t p
  | .changed _ .deleted _ => ∃ d, s.session.store.answer t p = .ok (some d)
  | .changed before _ _ => s.session.store.answer t p = .ok none ∧
      ((s.after t (.filesChanged before)).known? t p).isSome
  | _ => False

/-- All that is read on an occasion can be parsed, and a document that is edited is open.  Files
that were deleted are not read, apart from the one in question. -/
def Readable (t : FileTree) (s : Server) (uri : String) (p : Path) : Occasion → Prop
  | .opened text => Parses text
  | .edited text => (s.buffer? uri).isSome ∧ Parses text
  | .saved text? => ∀ text, text? = some text → Parses text
  | .closed => ∃ d?, t.documentAt (t.key p) = .ok d?
  | .changed before _ later => (∃ d?, s.session.store.answer t p = .ok d?) ∧
      ∀ c ∈ before ++ later, ∃ path, FileUri.toPath c.1 = .ok path ∧
        (c.2 = .deleted ∨ ∃ d?, s.session.store.answer t (Path.ofString path) = .ok d?)

/-- When other files have changed along with the one in question, it can be checked as a dependent
of theirs, which takes over the text of its buffer; the store has to hold that text already. -/
def Undisturbed (t : FileTree) (s : Server) (p : Path) : Occasion → Prop
  | .changed before _ later => before ++ later ≠ [] → s.MirroredAt t (t.key p)
  | _ => True

variable {cwd p : Path} {t : FileTree} {s s' m : Server} {uri path : String}
  {d : Document} {d? : Option Document} {change : FileChange}

lemma known?_eq (orderly : t.Orderly cwd) (plain : Plain p) :
    s.known? t p = s.index.get? (t.key p) := by
  rw [known?, orderly.indexKey?_eq plain]
  rfl

lemma run_includes_ok (session : Session) (d : Document) :
    (session.run t (Ksy.includes d)).1 = .ok (includesOf t d) := by
  obtain ⟨log, run⟩ := Ksy.run_includes session t d
  rw [run]

lemma follows_iff (truthful : s.session.store.Truthful t) (shown : s.session.shown t p = .ok d?) :
    s.Follows t p ↔ s.known? t p = d?.map (includesOf t) := by
  rw [Follows, Session.answer_eq_shown truthful, shown]
  cases d? with
  | none => simp
  | some d => simp [run_includes_ok]

/-- Whether the index follows the store depends on what both say about the file. -/
lemma follows_congr (truthful : s.session.store.Truthful t)
    (truthful' : s'.session.store.Truthful t)
    (shown : s'.session.shown t p = s.session.shown t p) (known : s'.known? t p = s.known? t p) :
    s'.Follows t p ↔ s.Follows t p := by
  simp only [Follows, Session.answer_eq_shown truthful, Session.answer_eq_shown truthful', shown,
    known, run_includes_ok]

/-- Whether the index follows the store can be told from any like server. -/
lemma follows_of_does {e : Event} (truthful : s.session.store.Truthful t)
    (does : Serve.Does t (Serve.handle e) s (.ok ()) s') :
    (s.run t (Serve.handle e)).1 = .ok () ∧ ((s.after t e).Follows t p ↔ s'.Follows t p) := by
  obtain ⟨result, alike⟩ := does s (.refl truthful)
  have alike : s'.Alike t (s.after t e) := alike
  refine ⟨result, follows_congr alike.session.left alike.session.right (alike.session.shown p) ?_⟩
  rw [known?, alike.index, known?]

/-! ## What handlers do before they check dependents -/

lemma shown_of_held {session : Session}
    (held : (session.store.overlay? (t.key p)).map StoredDocument.document = some d) :
    session.shown t p = .ok (some d) := by
  rw [Session.shown, held]

lemma shown_holding {text : String} (parse : Document.parse text (some p) none = .ok d) :
    (s.holding t p text).session.shown t p = .ok (some d) :=
  shown_of_held ((overlay?_holding parse _).trans (if_pos rfl))

/-- A text that is taken over is shown, and its imports are in the index. -/
lemma follows_processed {text : String} (ready : s.Ready t) (orderly : t.Orderly cwd)
    (plain : Plain p) (parse : Document.parse text (some p) none = .ok d) :
    (s.processed t uri p text d).Follows t p := by
  have shown : (s.processed t uri p text d).session.shown t p = .ok (some d) := by
    rw [session_processed, shown_holding parse]
  have known := get?_indexing (s := s.holding t p text) orderly (Document.parse_ok parse).2 plain
    (t.key p)
  rw [follows_iff (ready.processed uri p text d).truthful shown, known?_eq orderly plain]
  exact known.trans (if_pos rfl)

section Shown

variable (ready : s.Ready t) (placed : s.Placed t) (orderly : t.Orderly cwd) (plain : Plain p)

include ready placed orderly plain

/-- The imports of what is shown for a file are taken into the index under the key of the file. -/
lemma get?_indexing_of_shown (shown : s.session.shown t p = .ok (some d)) (key : Path) :
    (s.indexing t d).index.get? key =
      if key = t.key p then some (includesOf t d) else s.index.get? key := by
  obtain ⟨file, hfile, plainFile, hkey⟩ := placed.file_of_shown orderly ready plain shown
  rw [get?_indexing orderly hfile plainFile, hkey]

lemma follows_followed (shown : s.session.shown t p = .ok d?) :
    (Serve.followed t s p d?).Follows t p := by
  have shown' : (Serve.followed t s p d?).session.shown t p = .ok d? := by
    rw [Serve.session_followed, shown]
  rw [follows_iff (ready.followed p d?).truthful shown', known?_eq orderly plain]
  cases d? with
  | some d => exact (get?_indexing_of_shown ready placed orderly plain shown _).trans (if_pos rfl)
  | none => exact (get?_forgetting orderly plain _).trans (if_pos rfl)

/-- What the index says about a file after a change of it was noticed. -/
lemma get?_noticed (shown : change = .deleted ∨ s.session.shown t p = .ok d?) (key : Path) :
    (Serve.noticed t s p change d?).index.get? key =
      if key = t.key p then
        match change, d? with
        | .deleted, _ => none
        | _, some d => some (includesOf t d)
        | _, none => s.index.get? key
      else s.index.get? key := by
  cases change with
  | deleted => exact get?_forgetting orderly plain key
  | created | changed =>
    cases d? with
    | none => exact (ite_self _).symm
    | some d =>
      exact get?_indexing_of_shown ready placed orderly plain (shown.resolve_left nofun) key

/-- A change of a file is noticed without a lapse, or the index does not follow the store. -/
lemma follows_noticed (shown : s.session.shown t p = .ok d?) :
    (Serve.noticed t s p change d?).Follows t p ↔ ¬ s.Lapses t p (.changed [] change []) := by
  have shown' : (Serve.noticed t s p change d?).session.shown t p = .ok d? := by
    rw [Serve.session_noticed, shown]
  have answer : s.session.store.answer t p = .ok d? :=
    (Session.answer_eq_shown ready.truthful p).trans shown
  have nothing : s.after t (.filesChanged []) = s := rfl
  rw [follows_iff (ready.noticed p change d?).truthful shown', known?_eq orderly plain,
    get?_noticed ready placed orderly plain (.inr shown), if_pos rfl]
  cases change with
  | deleted => cases d? <;> simp [Lapses, answer]
  | created | changed =>
    cases d? <;> simp [Lapses, answer, nothing, known?_eq orderly plain]

end Shown

/-! ## Checks of dependents -/

/-- Checks change nothing about files that are not checked. -/
lemma Checked.follows_iff {files : List Path} (h : Checked t files m s') (ready : m.Ready t)
    (other : t.key p ∉ files) : s'.Follows t p ↔ m.Follows t p := by
  refine follows_congr ready.truthful h.ready.truthful (h.shown p fun mem => absurd mem other) ?_
  rw [known?, h.index, known?]

lemma key_notMem_dependents (orderly : t.Orderly cwd) (plain : Plain p) (i : ImportIndex) :
    t.key p ∉ i.dependents t p :=
  fun mem => ImportIndex.ne_of_mem_dependents mem (orderly.indexKey?_eq plain).symm

/-- The check of dependents at the end of a handler changes nothing about the file itself. -/
lemma follows_of_checks {e : Event} (truthful : s.session.store.Truthful t)
    (orderly : t.Orderly cwd) (ready : m.Ready t) (placed : m.Placed t)
    (hpath : FileUri.toPath uri = .ok path) (plain : Plain (Path.ofString path))
    (does : ∀ s', Serve.Does t (Serve.recheckDependents uri) m (.ok ()) s' →
      Serve.Does t (Serve.handle e) s (.ok ()) s') :
    (s.run t (Serve.handle e)).1 = .ok () ∧
      ((s.after t e).Follows t (Path.ofString path) ↔ m.Follows t (Path.ofString path)) := by
  obtain ⟨s', rest, checked⟩ := Serve.exists_does_recheckDependents ready orderly placed hpath
  obtain ⟨result, follows⟩ := follows_of_does truthful (does s' rest)
  exact ⟨result, follows.trans (checked.follows_iff ready (key_notMem_dependents orderly plain _))⟩

/-! ## Texts that are taken over and given back -/

section Texts

variable (orderly : t.Orderly cwd) (ready : s.Ready t) (placed : s.Placed t)
  (hpath : FileUri.toPath uri = .ok path) (ksy : Ksy.isFile (Path.ofString path))
  (plain : Plain (Path.ofString path))

include orderly ready hpath ksy plain

/-- A text that is put into a buffer and then taken over. -/
lemma follows_taken {e : Event} {text : String} (parses : Parses text)
    (does : ∀ s', Serve.Does t (Serve.process uri text true) (s.setBuffer uri text) (.ok ()) s' →
      Serve.Does t (Serve.handle e) s (.ok ()) s') :
    (s.run t (Serve.handle e)).1 = .ok () ∧ (s.after t e).Follows t (Path.ofString path) := by
  obtain ⟨d, parse⟩ := Serve.parse_ok_of_parses parses (some (Path.ofString path)) none
  have buffered := ready.setBuffer uri text
  obtain ⟨result, follows⟩ := follows_of_does ready.truthful
    (does _ (Serve.does_processed buffered hpath ksy parse))
  exact ⟨result, follows.2 (follows_processed buffered orderly plain parse)⟩

include placed

lemma follows_savedText {text : String} (parses : Parses text) :
    (s.run t (Serve.handle (.saved uri (some text)))).1 = .ok () ∧
      (s.after t (.saved uri (some text))).Follows t (Path.ofString path) := by
  obtain ⟨d, parse⟩ := Serve.parse_ok_of_parses parses (some (Path.ofString path)) none
  obtain ⟨result, follows⟩ := follows_of_checks ready.truthful orderly
    (ready.processed uri _ text d) (placed.processed orderly plain parse) hpath plain
    fun _ => Serve.does_savedText ready hpath ksy parse
  exact ⟨result, follows.2 (follows_processed ready orderly plain parse)⟩

lemma follows_closed (readable : ∃ d?, t.documentAt (t.key (Path.ofString path)) = .ok d?) :
    (s.run t (Serve.handle (.closed uri))).1 = .ok () ∧
      (s.after t (.closed uri)).Follows t (Path.ofString path) := by
  have removed := ready.removeBuffer uri
  have removedPlaced := placed.removeBuffer uri
  obtain ⟨d?, shown⟩ :=
    exists_shown ((s.removeBuffer uri).dropping t (Path.ofString path)).session readable
  obtain ⟨result, follows⟩ := follows_of_checks ready.truthful orderly
    (removed.released uri _ d?) (removedPlaced.released orderly removed plain shown) hpath plain
    fun _ => Serve.does_closed ready hpath ksy shown
  exact ⟨result, follows.2 (follows_followed (removed.dropping _)
    (removedPlaced.dropping orderly _) orderly plain shown)⟩

end Texts

/-! ## Changes of files -/

/-- A change of a file is noticed, and then its dependents are checked. -/
lemma run_fileChanged (ready : s.Ready t) (placed : s.Placed t) (orderly : t.Orderly cwd)
    (plain : FileUri.Plain uri) (hpath : FileUri.toPath uri = .ok path)
    (shown : change = .deleted ∨ s.session.shown t (Path.ofString path) = .ok d?) :
    ∃ x, s.run t (Serve.fileChanged uri change) = (.ok (), x) ∧ x.Placed t ∧
      Checked t ((Serve.noticed t s (Path.ofString path) change d?).index.dependents t
        (Path.ofString path)) (Serve.noticed t s (Path.ofString path) change d?) x := by
  have placed' := placed.noticed orderly ready (plain path hpath) shown
  obtain ⟨s', rest, checked⟩ := Serve.exists_does_recheckDependents
    (ready.noticed (Path.ofString path) change d?) orderly placed' hpath
  obtain ⟨result, alike⟩ := Serve.does_fileChanged hpath shown rest s (.refl ready.truthful)
  exact ⟨_, Prod.ext result rfl, (Placed.stable orderly).fileChanged plain change s placed,
    checked.congr alike⟩

/-- Changes are followed in their order. -/
lemma run_filesChanged_append {before rest : List (String × FileChange)}
    (first : s.run t (Serve.handle (.filesChanged before)) = (.ok (), s')) :
    s.run t (Serve.handle (.filesChanged (before ++ rest))) =
      s'.run t (Serve.handle (.filesChanged rest)) := by
  have split : Serve.handle (.filesChanged (before ++ rest)) =
      Serve.handle (.filesChanged before) >>= fun _ => Serve.handle (.filesChanged rest) :=
    List.forM_append ..
  rw [split, Server.run_bind, first]

lemma run_filesChanged_cons {rest : List (String × FileChange)}
    (first : s.run t (Serve.fileChanged uri change) = (.ok (), s')) :
    s.run t (Serve.handle (.filesChanged ((uri, change) :: rest))) =
      s'.run t (Serve.handle (.filesChanged rest)) := by
  have split : Serve.handle (.filesChanged ((uri, change) :: rest)) =
      Serve.fileChanged uri change >>= fun _ => Serve.handle (.filesChanged rest) := rfl
  rw [split, Server.run_bind, first]

/-- From `s` to `s'` nothing else is shown for a file, and its buffer is still mirrored. -/
structure Passes (t : FileTree) (key : Path) (s s' : Server) : Prop where
  ready : s'.Ready t
  placed : s'.Placed t
  mirrored : s'.MirroredAt t key
  shown : ∀ p, t.key p = key → s'.session.shown t p = s.session.shown t p
  readable : ∀ p, (∃ d?, s.session.shown t p = .ok d?) → ∃ d?, s'.session.shown t p = .ok d?

lemma Passes.trans {key : Path} (h : Passes t key s s') (h' : Passes t key s' m) :
    Passes t key s m :=
  ⟨h'.ready, h'.placed, h'.mirrored, fun p hp => (h'.shown p hp).trans (h.shown p hp),
    fun p readable => h'.readable p (h.readable p readable)⟩

/-- The change of a file passes over every file with a mirrored buffer, itself included. -/
lemma Checked.passes {files : List Path} {key : Path} (own : t.IsKey key)
    (h : Checked t files (Serve.noticed t s p change d?) m) (placed : m.Placed t)
    (mirrored : s.MirroredAt t key) : Passes t key s m := by
  have mirrored' : (Serve.noticed t s p change d?).MirroredAt t key := fun uri huri =>
    (mirrored uri huri).congr (Serve.session_noticed ..) (Serve.buffers_noticed ..)
  refine ⟨h.ready, placed, h.mirrored key own mirrored', fun q hq => ?_, fun q readable => ?_⟩
  · rw [h.shown q fun _ => by rwa [hq], Serve.session_noticed]
  · refine h.readable q ?_
    rwa [Serve.session_noticed]

/-- Changes of files are noticed one after the other without a failure.  They pass over a file with
a mirrored buffer, and if none of them is about it, what the index says about it stays as well. -/
lemma run_filesChanged {key : Path} {changes : List (String × FileChange)} (own : t.IsKey key)
    (orderly : t.Orderly cwd) (ready : s.Ready t) (placed : s.Placed t)
    (mirrored : s.MirroredAt t key) (plain : ∀ c ∈ changes, FileUri.Plain c.1)
    (readable : ∀ c ∈ changes, ∃ path, FileUri.toPath c.1 = .ok path ∧
      (c.2 = .deleted ∨ ∃ d?, s.session.shown t (Path.ofString path) = .ok d?)) :
    (s.run t (Serve.handle (.filesChanged changes))).1 = .ok () ∧
      Passes t key s (s.after t (.filesChanged changes)) ∧
      ((∀ c ∈ changes, ∀ path, FileUri.toPath c.1 = .ok path → t.key (Path.ofString path) ≠ key) →
        (s.after t (.filesChanged changes)).index.get? key = s.index.get? key) := by
  induction changes generalizing s with
  | nil => exact ⟨rfl, ⟨ready, placed, mirrored, fun _ _ => rfl, fun _ => id⟩, fun _ => rfl⟩
  | cons c rest ih =>
    obtain ⟨path, hpath, shown⟩ := readable c List.mem_cons_self
    obtain ⟨d?, shown⟩ :
        ∃ d?, c.2 = .deleted ∨ s.session.shown t (Path.ofString path) = .ok d? := by
      rcases shown with deleted | ⟨d?, shown⟩
      · exact ⟨none, .inl deleted⟩
      · exact ⟨d?, .inr shown⟩
    have plainUri := plain c List.mem_cons_self
    obtain ⟨x, first, placed', checked⟩ :=
      run_fileChanged ready placed orderly plainUri hpath shown
    have passes := checked.passes own placed' mirrored
    obtain ⟨result, passes', index⟩ := ih passes.ready passes.placed passes.mirrored
      (fun y hy => plain y (List.mem_cons_of_mem c hy))
      (fun y hy => by
        obtain ⟨path, hpath, shown⟩ := readable y (List.mem_cons_of_mem c hy)
        exact ⟨path, hpath, shown.imp_right (passes.readable _)⟩)
    have run : s.run t (Serve.handle (.filesChanged (c :: rest))) =
        x.run t (Serve.handle (.filesChanged rest)) := run_filesChanged_cons first
    have after : s.after t (.filesChanged (c :: rest)) = x.after t (.filesChanged rest) :=
      congrArg Prod.snd run
    rw [run, after]
    refine ⟨result, passes.trans passes', fun others => ?_⟩
    rw [index fun y hy => others y (List.mem_cons_of_mem c hy), checked.index,
      get?_noticed ready placed orderly (plainUri path hpath) shown, if_neg]
    exact fun same => others c List.mem_cons_self path hpath same.symm

/-- When a change of a file was noticed the index follows the store, unless that was a lapse. -/
lemma follows_fileChanged (orderly : t.Orderly cwd) (ready : s.Ready t) (placed : s.Placed t)
    (plain : FileUri.Plain uri) (hpath : FileUri.toPath uri = .ok path)
    (shown : s.session.shown t (Path.ofString path) = .ok d?) (change : FileChange) :
    ∃ x, s.run t (Serve.fileChanged uri change) = (.ok (), x) ∧
      (x.Follows t (Path.ofString path) ↔
        ¬ s.Lapses t (Path.ofString path) (.changed [] change [])) ∧
      (s.MirroredAt t (t.key (Path.ofString path)) →
        Passes t (t.key (Path.ofString path)) s x) := by
  have plainPath := plain path hpath
  obtain ⟨x, run, placed', checked⟩ :=
    run_fileChanged ready placed orderly plain hpath (.inr shown)
  refine ⟨x, run, ?_, checked.passes (.key orderly.plainCwd plainPath) placed'⟩
  rw [checked.follows_iff (ready.noticed ..) (key_notMem_dependents orderly plainPath _),
    follows_noticed ready placed orderly plainPath shown]

/-- Whether the index lapses on a change among others can be told when it is the turn of the
change. -/
lemma lapses_changed_iff {before later : List (String × FileChange)}
    (after : s.after t (.filesChanged before) = m)
    (answer : m.session.store.answer t p = s.session.store.answer t p) :
    s.Lapses t p (.changed before change later) ↔ m.Lapses t p (.changed [] change []) := by
  have nothing : m.after t (.filesChanged []) = m := rfl
  cases change <;> simp only [Lapses, answer, nothing, after]

/-- A file whose change was noticed, and that no later change is about. -/
lemma follows_changed (orderly : t.Orderly cwd) (ready : s.Ready t) (placed : s.Placed t)
    {before later : List (String × FileChange)}
    (plain : ∀ c ∈ before ++ (uri, change) :: later, FileUri.Plain c.1)
    (readable : s.Readable t uri (Path.ofString path) (.changed before change later))
    (undisturbed : s.Undisturbed t (Path.ofString path) (.changed before change later))
    (hpath : FileUri.toPath uri = .ok path)
    (last : ∀ c ∈ later, ∀ other, FileUri.toPath c.1 = .ok other →
      t.indexKey? (Path.ofString other) ≠ t.indexKey? (Path.ofString path)) :
    (s.run t (Serve.handle (.filesChanged (before ++ (uri, change) :: later)))).1 = .ok () ∧
      ((s.after t (.filesChanged (before ++ (uri, change) :: later))).Follows t
          (Path.ofString path) ↔
        ¬ s.Lapses t (Path.ofString path) (.changed before change later)) := by
  have plainUri := plain (uri, change) (List.mem_append_right _ List.mem_cons_self)
  have plainPath := plainUri path hpath
  have plainLater (c : String × FileChange) (hc : c ∈ later) : FileUri.Plain c.1 :=
    plain c (List.mem_append_right _ (List.mem_cons_of_mem _ hc))
  obtain ⟨⟨d?, answer⟩, readable⟩ := readable
  have answers (q : Path) := Session.answer_eq_shown ready.truthful q
  simp only [answers] at answer readable
  by_cases alone : before ++ later = []
  · obtain ⟨rfl, rfl⟩ := List.append_eq_nil_iff.1 alone
    obtain ⟨x, first, follows, -⟩ :=
      follows_fileChanged orderly ready placed plainUri hpath answer change
    have run : s.run t (Serve.handle (.filesChanged [(uri, change)])) = (.ok (), x) :=
      run_filesChanged_cons first
    have after : s.after t (.filesChanged [(uri, change)]) = x := congrArg Prod.snd run
    exact ⟨congrArg Prod.fst run, after ▸ follows⟩
  · -- first the changes before, then that of the file, then those after it
    have own : t.IsKey (t.key (Path.ofString path)) := .key orderly.plainCwd plainPath
    obtain ⟨result₁, passes₁, -⟩ := run_filesChanged own orderly ready placed (undisturbed alone)
      (fun c hc => plain c (List.mem_append_left _ hc))
      (fun c hc => readable c (List.mem_append_left _ hc))
    generalize hs₁ : s.after t (.filesChanged before) = s₁ at passes₁
    have shown₁ := passes₁.shown (Path.ofString path) rfl
    obtain ⟨x, second, follows, passes₂⟩ := follows_fileChanged orderly passes₁.ready
      passes₁.placed plainUri hpath (shown₁.trans answer) change
    have passes₂ := passes₂ passes₁.mirrored
    obtain ⟨result₃, passes₃, index₃⟩ := run_filesChanged own orderly passes₂.ready passes₂.placed
      passes₂.mirrored plainLater fun c hc => by
        obtain ⟨path, hpath, shown⟩ := readable c (List.mem_append_right _ hc)
        exact ⟨path, hpath, shown.imp_right fun h => passes₂.readable _ (passes₁.readable _ h)⟩
    have run : s.run t (Serve.handle (.filesChanged (before ++ (uri, change) :: later))) =
        x.run t (Serve.handle (.filesChanged later)) :=
      (run_filesChanged_append (Prod.ext result₁ hs₁)).trans (run_filesChanged_cons second)
    have after : s.after t (.filesChanged (before ++ (uri, change) :: later)) =
        x.after t (.filesChanged later) := congrArg Prod.snd run
    have known : (x.after t (.filesChanged later)).known? t (Path.ofString path) =
        x.known? t (Path.ofString path) := by
      rw [known?_eq orderly plainPath, known?_eq orderly plainPath]
      refine index₃ fun c hc other hother same => last c hc other hother ?_
      rw [orderly.indexKey?_eq plainPath,
        orderly.indexKey?_eq (plainLater c hc other hother), same]
    have answer₁ : s₁.session.store.answer t (Path.ofString path) =
        s.session.store.answer t (Path.ofString path) := by
      rw [Session.answer_eq_shown passes₁.ready.truthful, answers, shown₁]
    rw [run, after, lapses_changed_iff hs₁ answer₁, ← follows]
    exact ⟨result₃, follows_congr passes₂.ready.truthful passes₃.ready.truthful
      (passes₃.shown _ rfl) known⟩

/-! ## The index follows the store -/

/-- A run of events in orderly trees, with files that are told apart by their signatures, and with
URIs that lead to plain paths. -/
structure OrderlyRun (cwd : Path) (events : List (FileTree × Event)) : Prop where
  orderly : ∀ t ∈ events.map Prod.fst, t.Orderly cwd
  tellApart : TellApart (events.map Prod.fst)
  plain : ∀ x ∈ events, ∀ uri ∈ x.2.uris, FileUri.Plain uri

section Reached

variable {cacheEnabled : Bool} {maxCacheSize : Int} {grammarFile? : Option Path}
  {events rest : List (FileTree × Event)}

/-- What an orderly run makes of a fresh server. -/
lemma OrderlyRun.reaches (h : OrderlyRun cwd (events ++ rest)) (size : 0 ≤ maxCacheSize)
    (ht : t ∈ (events ++ rest).map Prod.fst) :
    ((start (.start cacheEnabled maxCacheSize grammarFile?)).afterAll events).Ready t ∧
      ((start (.start cacheEnabled maxCacheSize grammarFile?)).afterAll events).Placed t := by
  have mem {x : FileTree × Event} (hx : x ∈ events) : x.1 ∈ (events ++ rest).map Prod.fst :=
    List.mem_map_of_mem (List.mem_append_left _ hx)
  refine ⟨?_, ?_⟩
  · exact ((healthy_start _ cacheEnabled size grammarFile?).afterAll fun _ => mem).ready
      h.tellApart ht
  · exact (placed_start t cacheEnabled maxCacheSize grammarFile?).afterAll (h.orderly t ht)
      (fun x hx => h.orderly x.1 (mem hx)) fun x hx => h.plain x (List.mem_append_left _ hx)

/-- In a run that a client can send, the index is right about an open description if it knows it. -/
lemma OrderlyRun.follows_iff_known (h : OrderlyRun cwd (events ++ rest)) (size : 0 ≤ maxCacheSize)
    (ht : t ∈ (events ++ rest).map Prod.fst)
    (admits : (start (.start cacheEnabled maxCacheSize grammarFile?)).AdmitsAll cwd events)
    (reached : s = (start (.start cacheEnabled maxCacheSize grammarFile?)).afterAll events)
    (hpath : FileUri.toPath uri = .ok path) (ksy : Ksy.isFile (Path.ofString path))
    (plain : Plain (Path.ofString path)) (isOpen : (s.buffer? uri).isSome) :
    s.Follows t (Path.ofString path) ↔ s.known? t (Path.ofString path) ≠ none := by
  have sound : s.Sound ((events ++ rest).map Prod.fst) t := by
    rw [reached]
    exact Sound.afterAll h.orderly h.tellApart (fun t _ => sound_start _ t _ size _)
      (fun _ hx => List.mem_map_of_mem (List.mem_append_left _ hx)) admits
      (fun x hx => h.plain x (List.mem_append_left _ hx)) t ht
  obtain ⟨text, hbuffer⟩ := Option.isSome_iff_exists.1 isOpen
  obtain ⟨d, -, held⟩ := sound.coherent.mirrored uri text path hbuffer hpath ksy
  rw [follows_iff (sound.healthy.truthful h.tellApart ht) (shown_of_held held),
    known?_eq (h.orderly t ht) plain, Option.map_some]
  constructor
  · intro known
    rw [known]
    exact Option.some_ne_none _
  · intro known
    obtain ⟨includes, known⟩ := Option.ne_none_iff_exists'.1 known
    rw [known, sound.coherent.indexed _ d includes held known t ht]

end Reached

/-- The index follows the store.

A server is reached from a fresh one by any events, in orderly trees that change in between.  Then
something happens to a description; all that has to be read can be parsed, and while other files
have changed as well, the buffer of the description is mirrored.  The event is handled without a
failure.  Afterwards the index has an entry for the description exactly if the store has a document
for it, and the entry is what this document imports, except on the three occasions on which the
index lapses; and on these it never does.  If a client can have sent the events before, the index
can only be wrong about an open description by not knowing it. -/
theorem index_follows_store {cacheEnabled : Bool} {maxCacheSize : Int} {grammarFile? : Option Path}
    {events : List (FileTree × Event)} {o : Occasion} (size : 0 ≤ maxCacheSize)
    (reached : s = (start (.start cacheEnabled maxCacheSize grammarFile?)).afterAll events)
    (run : OrderlyRun cwd (events ++ [(t, o.event uri)]))
    (hpath : FileUri.toPath uri = .ok path) (ksy : Ksy.isFile (Path.ofString path))
    (readable : s.Readable t uri (Path.ofString path) o)
    (undisturbed : s.Undisturbed t (Path.ofString path) o)
    (last : ∀ c ∈ o.later, ∀ other, FileUri.toPath c.1 = .ok other →
      t.indexKey? (Path.ofString other) ≠ t.indexKey? (Path.ofString path)) :
    (s.run t (Serve.handle (o.event uri))).1 = .ok () ∧
      ((s.after t (o.event uri)).Follows t (Path.ofString path) ↔
        ¬ s.Lapses t (Path.ofString path) o) ∧
      ((start (.start cacheEnabled maxCacheSize grammarFile?)).AdmitsAll cwd events →
        (s.buffer? uri).isSome →
        (s.Follows t (Path.ofString path) ↔ s.known? t (Path.ofString path) ≠ none)) := by
  have last' : (t, o.event uri) ∈ events ++ [(t, o.event uri)] :=
    List.mem_append_right events List.mem_cons_self
  have ht := List.mem_map_of_mem (f := Prod.fst) last'
  have orderly := run.orderly t ht
  have plain := run.plain _ last'
  have named : uri ∈ (o.event uri).uris := by cases o <;> simp [Occasion.event, Event.uris]
  have plainPath := plain uri named path hpath
  refine and_assoc.1 ⟨?_, fun admits => run.follows_iff_known size ht admits reached hpath ksy
    plainPath⟩
  obtain ⟨ready, placed⟩ := reached ▸ run.reaches size ht
  have followed {e : Event} (h : (s.run t (Serve.handle e)).1 = .ok () ∧
      (s.after t e).Follows t (Path.ofString path)) :
      (s.run t (Serve.handle e)).1 = .ok () ∧
        ((s.after t e).Follows t (Path.ofString path) ↔ ¬ False) :=
    ⟨h.1, iff_of_true h.2 not_false⟩
  cases o with
  | opened text =>
    exact followed (follows_taken orderly ready hpath ksy plainPath readable
      fun _ => Serve.does_opened hpath)
  | edited text =>
    exact followed (follows_taken orderly ready hpath ksy plainPath readable.2
      fun _ => Serve.does_edited readable.1)
  | saved text? =>
    cases text? with
    | none =>
      obtain ⟨result, follows⟩ := follows_of_checks ready.truthful orderly ready placed hpath
        plainPath fun _ => Serve.does_saved hpath
      exact ⟨result, follows.trans not_not.symm⟩
    | some text =>
      exact followed
        (follows_savedText orderly ready placed hpath ksy plainPath (readable text rfl))
  | closed =>
    exact followed (follows_closed orderly ready placed hpath ksy plainPath readable)
  | changed before change later =>
    exact follows_changed orderly ready placed (fun c hc => plain c.1 (List.mem_map_of_mem hc))
      readable undisturbed hpath last

/-! ## A description that is deleted while it is open -/

lemma orderlyRun_opening {e : Event} (uris : e.uris = ["file:///a.ksy"]) :
    OrderlyRun ⟨.slash, []⟩ ([(noFiles, .opened "file:///a.ksy" "")] ++ [(noFiles, e)]) where
  orderly t ht := by
    obtain rfl : t = noFiles := by simpa using ht
    exact FileTree.orderly_noFiles
  tellApart := tellApart_replicate noFiles 2
  plain x hx uri huri := by
    obtain rfl : uri = "file:///a.ksy" := by
      rcases List.mem_cons.1 hx with rfl | hx
      · exact List.mem_singleton.1 huri
      · rw [List.mem_singleton.1 hx, uris] at huri
        exact List.mem_singleton.1 huri
    exact plain_opening

lemma answer_opening :
    ∃ d, (opening "").session.store.answer noFiles (Path.ofString "/a.ksy") = .ok (some d) := by
  obtain ⟨d, parse⟩ := Serve.parse_ok_of_parses parses_empty (some (Path.ofString "/a.ksy")) none
  have alike := (alike_opening parse).session
  refine ⟨d, (Session.answer_eq_shown alike.right _).trans ?_⟩
  rw [alike.shown, session_processed, shown_holding parse]

/-- The index follows an open description that is edited.  When the description is reported to be
deleted the index forgets it, although the store still has its document. -/
theorem index_follows_store_unless_deleted :
    ((opening "").after noFiles (.edited "file:///a.ksy" "")).Follows noFiles
        (Path.ofString "/a.ksy") ∧
      ¬ ((opening "").after noFiles (.filesChanged [("file:///a.ksy", .deleted)])).Follows noFiles
        (Path.ofString "/a.ksy") := by
  have reached : opening "" = (start (.start true 8 none)).afterAll
      [(noFiles, .opened "file:///a.ksy" "")] := rfl
  have isOpen : ((opening "").buffer? "file:///a.ksy").isSome := by
    rw [buffer?_opening parses_empty]
    rfl
  obtain ⟨d, answer⟩ := answer_opening
  have edited := index_follows_store (o := .edited "") (by decide) reached (orderlyRun_opening rfl)
    toPath_opening isFile_opening ⟨isOpen, parses_empty⟩ trivial nofun
  have deleted := index_follows_store (o := .changed [] .deleted []) (by decide) reached
    (orderlyRun_opening rfl) toPath_opening isFile_opening ⟨⟨_, answer⟩, nofun⟩
    (absurd rfl) nofun
  exact ⟨edited.2.1.2 id, fun follows => deleted.2.1.1 follows ⟨d, answer⟩⟩

end Server

end KsyTools
