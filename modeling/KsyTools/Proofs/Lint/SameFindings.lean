/-
# Linting and editing find the same

The linter and the editor run the same two checks on a description, but they report what was found
each in their own way.  A lint result sorts the findings into errors and warnings and counts lines
and columns from one; an editor is shown one list with ranges.  Apart from what the linter says
about the number of YAML documents of a file, the list is the errors followed by the warnings.
-/
import KsyTools.Lint.Files
import KsyTools.Proofs.Asked
import KsyTools.Proofs.Document.Alignment
import KsyTools.Proofs.Ksy.Warnings
import Mathlib

namespace KsyTools

open DocumentStore (Steady)

/-! ## What every result of a computation has -/

/-- Every value that a computation gives has a property. -/
def Work.Ensures {α : Type} (w : Work α) (P : α → Prop) : Prop :=
  ∀ (s : Session) (t : FileTree) (a : α), (s.run t w).1 = .ok a → P a

namespace Work.Ensures

variable {α β : Type} {P : α → Prop} {Q : β → Prop}

lemma pure {a : α} (h : P a) : (Pure.pure a : Work α).Ensures P := by
  rintro s t b hb
  rwa [← Except.ok.inj hb]

lemma bind {w : Work α} {f : α → Work β} (hw : w.Ensures P) (hf : ∀ a, P a → (f a).Ensures Q) :
    (w >>= f).Ensures Q := by
  intro s t b hb
  rw [Session.run_bind] at hb
  rcases hrun : s.run t w with ⟨e | a, s'⟩
  · rw [hrun] at hb
    cases hb
  · rw [hrun] at hb
    exact hf a (hw s t a (by rw [hrun])) s' t b hb

lemma trivial (w : Work α) : w.Ensures fun _ => True := fun _ _ _ _ => True.intro

lemma mapM {f : α → Work β} (hf : ∀ a, (f a).Ensures Q) (xs : List α) :
    (xs.mapM f).Ensures fun bs => ∀ b ∈ bs, Q b := by
  induction xs with
  | nil => exact pure nofun
  | cons x rest ih =>
    rw [List.mapM_cons]
    refine (hf x).bind fun b hb => ih.bind fun bs hbs => pure ?_
    exact List.forall_mem_cons.2 ⟨hb, hbs⟩

/-- What is found at each reference has a property if all of it has. -/
lemma forReferences (d : Document) {each : Ksy.Reference → Work (List β)}
    (heach : ∀ r, (each r).Ensures fun bs => ∀ b ∈ bs, Q b)
    (known : Option (List Ksy.Definition)) (ls : List Located) :
    (Ksy.forReferences d each known ls).Ensures fun bs => ∀ b ∈ bs, Q b := by
  induction ls generalizing known with
  | nil => exact pure nofun
  | cons l rest ih =>
    have hrest : ∀ known : Option (List Ksy.Definition), Ensures (do
        let references ← Ksy.referencesWith d l (return known.getD [])
        let here ← references.mapM each
        return here.flatten ++ (← Ksy.forReferences d each known rest))
        fun bs => ∀ b ∈ bs, Q b := by
      intro known
      refine (trivial _).bind fun references _ => (mapM heach references).bind fun here hhere => ?_
      refine (ih known).bind fun later hlater => pure fun b hb => ?_
      rcases List.mem_append.1 hb with hb | hb
      · obtain ⟨bs, hbs, hb⟩ := List.mem_flatten.1 hb
        exact hhere bs hbs b hb
      · exact hlater b hb
    unfold Ksy.forReferences
    cases known with
    | some types => exact (trivial _).bind fun known _ => hrest known
    | none =>
      simp only
      split <;> exact (trivial _).bind fun known _ => hrest known

end Work.Ensures

lemma Diagnostic.ofParseError?_eq_none_iff {d : Document} :
    ofParseError? d = none ↔ d.failure? = none := by
  simp [ofParseError?, Document.parseError?]

/-! ## Issues as lint entries -/

/-- An issue about a place in a document. -/
def Issue.IsAbout (d : Document) (severity : Severity) (i : Issue) : Prop :=
  ∃ node? message pointer?, i = .about d node? message pointer? severity

namespace Ksy

/-- A text that could not be read is not checked. -/
lemma checks_of_failure {d : Document} (h : (Diagnostic.ofParseError? d).isSome) :
    validateGrammar d = pure [] ∧ validateReferences d = pure [] := by
  have hfailure : d.failure?.isSome := by
    rw [Option.isSome_iff_ne_none] at h ⊢
    exact mt Diagnostic.ofParseError?_eq_none_iff.2 h
  constructor
  · simp [validateGrammar, hfailure]
  · simp [validateReferences, hfailure]

lemma ensures_validateGrammar (d : Document) :
    (validateGrammar d).Ensures fun issues => ∀ i ∈ issues, i.IsAbout d .error := by
  unfold validateGrammar
  split
  · exact .pure nofun
  · split
    · refine (Work.Ensures.trivial _).bind fun g _ => ?_
      split
      next v _ _ issues hissues =>
        obtain ⟨value, -, hfindings⟩ := bind_eq_ok_iff.1 hissues
        obtain ⟨findings, -, rfl⟩ := map_eq_ok_iff.1 hfindings
        refine .pure fun i hi => ?_
        obtain ⟨f, -, rfl⟩ := List.mem_map.1 hi
        exact ⟨_, _, _, rfl⟩
      · exact fun _ _ _ h => nomatch h
    · exact (Work.Ensures.trivial _).bind fun _ _ => .pure nofun

lemma ensures_referenceIssue (d : Document) (r : Reference) :
    (referenceIssue d r).Ensures fun issues => ∀ i ∈ issues, i.IsAbout d .warning := by
  have single (message : String) :
      ∀ i ∈ [Issue.about d (some r.element.node) message none .warning], i.IsAbout d .warning := by
    intro i hi
    rw [List.mem_singleton.1 hi]
    exact ⟨_, _, _, rfl⟩
  unfold referenceIssue
  cases r with
  | toDocument l =>
    refine (Work.Ensures.trivial _).bind fun resolved _ => ?_
    split
    · exact .pure nofun
    · exact (Work.Ensures.trivial _).bind fun path _ => .pure (single _)
  | toType l types =>
    dsimp only
    split
    · exact .pure nofun
    · exact .pure (single _)

lemma ensures_validateReferences (d : Document) :
    (validateReferences d).Ensures fun issues => ∀ i ∈ issues, i.IsAbout d .warning := by
  unfold validateReferences
  split
  · exact .pure nofun
  · exact (Work.Ensures.forReferences d (ensures_referenceIssue d) none d.walk).bind
      fun issues hissues => (Work.Ensures.trivial _).bind fun _ _ => .pure hissues

end Ksy

/-- An editor shows what a lint entry says, with its severity and its path, and, unless the text
could not be read, at the place that the entry names. -/
structure Diagnostic.Shows (d : Document) (severity : Severity) (x : Diagnostic) (e : LintEntry) :
    Prop where
  severity : x.severity = severity
  message : x.message =
    match e.pointer? with
    | some pointer => s!"{e.message} (at {pointer})"
    | none => e.message
  start : d.failure? = none → ∃ line column : ℕ, e.line? = some (line + 1) ∧
    e.column? = some (column + 1) ∧ x.extent.start = ⟨line, column⟩

namespace Issue.IsAbout

variable {d : Document} {severity : Severity} {i : Issue}

lemma severity_eq (h : i.IsAbout d severity) : i.severity = severity := by
  obtain ⟨node?, message, pointer?, rfl⟩ := h
  cases node? <;> rfl

/-- The range of an issue starts at its position; without a range that is the start of the text. -/
lemma start_eq (h : i.IsAbout d severity) :
    (Diagnostic.ofIssue d i).extent.start = i.position.place := by
  obtain ⟨node?, message, pointer?, rfl⟩ := h
  cases node? with
  | some n => rfl
  | none =>
    change (lineExtent d.lines (.ofNat 0)).start = _
    cases hline : d.lines[0]? <;> simp [lineExtent, hline, Issue.about, Position.place]

lemma shows (h : i.IsAbout d severity) :
    (Diagnostic.ofIssue d i).Shows d severity (.ofIssue i) := by
  refine ⟨h.severity_eq, ?_, fun _ => ⟨i.position.line, i.position.column, rfl, rfl, h.start_eq⟩⟩
  simp only [Diagnostic.ofIssue, LintEntry.ofIssue]
  cases i.pointer? with
  | none => rfl
  | some pointer =>
    by_cases hempty : pointer = ""
    · subst hempty
      rfl
    · simp [hempty, Option.filter]

end Issue.IsAbout

/-! ## Errors and warnings -/

namespace LintResult

/-- What the linter says about a file without a YAML document. -/
def countErrors (d : Document) : List LintEntry :=
  if d.failure?.isNone && d.roots.isEmpty then [.ofMessage "Empty schema file"] else []

/-- What the linter says about a file with several YAML documents. -/
def countWarnings (d : Document) : List LintEntry :=
  if d.failure?.isNone && 1 < d.roots.length then
    [.ofMessage s!"File contains {d.roots.length} YAML documents; schema validation skipped"]
  else []

/-- A lint result records what an editor is shown: after what is said about the number of YAML
documents, the errors and then the warnings are the diagnostics in order. -/
def Records (d : Document) (diagnostics : List Diagnostic) (r : LintResult) : Prop :=
  ∃ errors warnings shownErrors shownWarnings,
    r.errors = countErrors d ++ errors ∧ r.warnings = countWarnings d ++ warnings ∧
    diagnostics = shownErrors ++ shownWarnings ∧
    List.Forall₂ (Diagnostic.Shows d .error) shownErrors errors ∧
    List.Forall₂ (Diagnostic.Shows d .warning) shownWarnings warnings

/-- How many errors and warnings are recorded. -/
lemma Records.length_eq {d : Document} {diagnostics : List Diagnostic} {r : LintResult}
    (h : r.Records d diagnostics) :
    r.errors.length = (countErrors d).length + diagnostics.countP (·.severity = .error) ∧
      r.warnings.length =
        (countWarnings d).length + diagnostics.countP (·.severity = .warning) := by
  have count {severity severity' : Severity} {shown : List Diagnostic} {entries : List LintEntry}
      (h : List.Forall₂ (Diagnostic.Shows d severity) shown entries) :
      shown.countP (·.severity = severity') =
        if severity = severity' then entries.length else 0 := by
    induction h with
    | nil => simp
    | cons shows _ ih =>
      rw [List.countP_cons, ih, shows.severity]
      split <;> simp_all
  obtain ⟨errors, warnings, shown, shown', herrors, hwarnings, rfl, hcheck, hcheck'⟩ := h
  simp [herrors, hwarnings, List.countP_append, count hcheck, count hcheck']

lemma addIssues_errors {issues : List Issue} (h : ∀ i ∈ issues, i.severity = .error)
    (r : LintResult) :
    r.addIssues issues = { r with errors := r.errors ++ issues.map LintEntry.ofIssue } := by
  induction issues generalizing r with
  | nil => simp [addIssues]
  | cons i rest ih =>
    obtain ⟨hi, hrest⟩ := List.forall_mem_cons.1 h
    have hadd : r.addIssue i = r.addError (.ofIssue i) := by rw [addIssue, hi]
    change (r.addIssue i).addIssues rest = _
    rw [ih hrest, hadd, addError]
    simp

lemma addIssues_warnings {issues : List Issue} (h : ∀ i ∈ issues, i.severity = .warning)
    (r : LintResult) :
    r.addIssues issues = { r with warnings := r.warnings ++ issues.map LintEntry.ofIssue } := by
  induction issues generalizing r with
  | nil => simp [addIssues]
  | cons i rest ih =>
    obtain ⟨hi, hrest⟩ := List.forall_mem_cons.1 h
    have hadd : r.addIssue i = r.addWarning (.ofIssue i) := by rw [addIssue, hi]
    change (r.addIssue i).addIssues rest = _
    rw [ih hrest, hadd, addWarning]
    simp

lemma file_addIssues (issues : List Issue) (r : LintResult) :
    (r.addIssues issues).file = r.file := by
  induction issues generalizing r with
  | nil => rfl
  | cons i rest ih =>
    have hadd : (r.addIssue i).file = r.file := by
      unfold addIssue
      split <;> rfl
    change ((r.addIssue i).addIssues rest).file = _
    rw [ih, hadd]

lemma addSyntax_of_read {d : Document} (h : d.failure? = none) (p : Path) :
    (empty p).addSyntax d = ⟨p, countErrors d, countWarnings d⟩ := by
  unfold addSyntax countErrors countWarnings Document.parseError?
  rw [h]
  rcases d.roots with _ | ⟨root, _ | ⟨second, rest⟩⟩
  · rfl
  · rfl
  · simp [addWarning, empty]

/-- What is recorded for a description that could be read. -/
lemma records_of_read {d : Document} (h : d.failure? = none) (p : Path)
    {errors warnings : List Issue} (herrors : ∀ i ∈ errors, i.IsAbout d .error)
    (hwarnings : ∀ i ∈ warnings, i.IsAbout d .warning) :
    ((((empty p).addSyntax d).addIssues errors).addIssues warnings).Records d
      ((errors ++ warnings).map (Diagnostic.ofIssue d)) := by
  rw [addSyntax_of_read h, addIssues_errors fun i hi => (herrors i hi).severity_eq,
    addIssues_warnings fun i hi => (hwarnings i hi).severity_eq]
  refine ⟨_, _, _, _, rfl, rfl, List.map_append, ?_, ?_⟩
  · rw [List.forall₂_map_left_iff, List.forall₂_map_right_iff]
    exact List.forall₂_same.2 fun i hi => (herrors i hi).shows
  · rw [List.forall₂_map_left_iff, List.forall₂_map_right_iff]
    exact List.forall₂_same.2 fun i hi => (hwarnings i hi).shows

lemma file_of_checks (d : Document) (p : Path) (errors warnings : List Issue) :
    ((((empty p).addSyntax d).addIssues errors).addIssues warnings).file = p := by
  have hsyntax : ((empty p).addSyntax d).file = p := by
    unfold addSyntax
    split <;> rfl
  rw [file_addIssues, file_addIssues, hsyntax]

/-- What is recorded for a text that could not be read. -/
lemma records_of_failure {d : Document} {x : Diagnostic} (h : Diagnostic.ofParseError? d = some x)
    (p : Path) : ((empty p).addSyntax d).Records d [x] := by
  obtain ⟨message, hmessage, rfl⟩ := Option.map_eq_some_iff.1 h
  obtain ⟨failure, hfailure, -⟩ := Option.map_eq_some_iff.1 hmessage
  have hadd : (empty p).addSyntax d = (empty p).addError
      ⟨s!"YAML syntax error: {message}", d.errorPosition?.map (·.line + 1),
        d.errorPosition?.map (·.column + 1), none⟩ := by
    unfold addSyntax
    rw [hmessage]
  have read : d.failure? ≠ none := by simp [hfailure]
  refine ⟨((empty p).addSyntax d).errors, [], _, [], ?_, ?_, (List.append_nil _).symm, ?_, .nil⟩
  · simp [countErrors, hfailure]
  · rw [hadd]
    simp [countWarnings, hfailure, addError, empty]
  · rw [hadd]
    exact .cons ⟨rfl, rfl, fun hnone => absurd hnone read⟩ .nil

end LintResult

/-! ## Linting a file -/

namespace Session

variable {s s' s₁ : Session} {t : FileTree} {p : Path} {d : Document} {errors warnings : List Issue}

/-- Reading a file past the store changes nothing in the session but the number of the next document
and the log. -/
lemma run_loadDocument (s : Session) (t : FileTree) (p : Path) :
    ∃ n log, (s.run t (Work.loadDocument p)).2 =
      { s with store := { s.store with nextSerial := n }, log } := by
  unfold Work.loadDocument
  simp only [run_bind, run_read]
  split
  · exact ⟨_, _, rfl⟩
  · exact ⟨_, _, rfl⟩
  · split
    · exact ⟨_, _, rfl⟩
    · exact ⟨_, _, rfl⟩
    · simp only [Work.log, run_bind, run_logAll]
      split
      · exact ⟨_, _, rfl⟩
      · rw [Work.parse, run_answer]
        simp only [DocumentStore.parse]
        cases Document.parse _ _ _ <;> exact ⟨_, _, rfl⟩

lemma run_load (s : Session) (t : FileTree) (p : Path) :
    ∃ n log, (s.run t (Lint.load p)).2 =
      { s with store := { s.store with nextSerial := n }, log } := by
  obtain ⟨n, log, hrun⟩ := run_loadDocument s t p
  refine ⟨n, log, ?_⟩
  unfold Lint.load
  rw [run_bind, run_tryCatch, run_bind]
  rcases hresult : s.run t (Work.loadDocument p) with ⟨e | stored, s'⟩
  · rw [hresult] at hrun
    subst hrun
    cases e <;> rfl
  · rw [hresult] at hrun
    subst hrun
    rfl

/-- A session that has read a file past the store has only been asked. -/
lemma asked_of_load (h : s.run t (Lint.load p) = (.ok (.ok d), s')) :
    s'.store.unnumbered = s.store.unnumbered ∧ s.Asked t s' := by
  obtain ⟨n, log, hrun⟩ := run_load s t p
  rw [h] at hrun
  subst hrun
  exact ⟨rfl, (Asked.refl t s).renumber rfl rfl rfl⟩

/-- A file is linted by the two checks, one after the other. -/
lemma run_file (hload : s.run t (Lint.load p) = (.ok (.ok d), s'))
    (hgrammar : s'.run t (Ksy.validateGrammar d) = (.ok errors, s₁))
    (hreferences : (s₁.run t (Ksy.validateReferences d)).1 = .ok warnings) :
    (s.run t (Lint.file true p)).1 =
      .ok ((((LintResult.empty p).addSyntax d).addIssues errors).addIssues warnings) := by
  rcases hrun : s₁.run t (Ksy.validateReferences d) with ⟨_, s₂⟩
  rw [hrun] at hreferences
  subst hreferences
  unfold Lint.file
  rw [run_bind_of_ok hload]
  unfold Lint.document
  dsimp only
  rw [run_bind, run_tryCatch, run_bind_of_ok hgrammar]
  simp only [if_true]
  rw [run_bind_of_ok hrun]
  rfl

/-- For a text that could not be read an editor is shown only why. -/
lemma run_diagnostics_of_failure {x : Diagnostic} (hksy : d.isKsy)
    (h : Diagnostic.ofParseError? d = some x) : (s.run t (Diagnostic.all d)).1 = .ok [x] := by
  unfold Diagnostic.all
  simp only [hksy, h, Bool.not_true, Bool.false_eq_true, if_false]
  rfl

/-- What an editor is shown comes from the same two checks. -/
lemma run_diagnostics (hksy : d.isKsy) (hread : d.failure? = none)
    (hgrammar : s'.run t (Ksy.validateGrammar d) = (.ok errors, s₁))
    (hreferences : (s₁.run t (Ksy.validateReferences d)).1 = .ok warnings) :
    (s'.run t (Diagnostic.all d)).1 = .ok ((errors ++ warnings).map (Diagnostic.ofIssue d)) := by
  rcases hrun : s₁.run t (Ksy.validateReferences d) with ⟨_, s₂⟩
  rw [hrun] at hreferences
  subst hreferences
  unfold Diagnostic.all
  simp only [hksy, Diagnostic.ofParseError?_eq_none_iff.2 hread, Bool.not_true, Bool.false_eq_true,
    if_false]
  rw [run_bind, run_tryCatch, hgrammar]
  dsimp only
  rw [run_bind_of_ok hrun]
  rfl

end Session

namespace Lint

/-- The result of a file among others that are linted before and after it. -/
lemma run_files_append {s₀ s : Session} {t : FileTree} {before : List Path}
    {earlier : List LintResult} {check : Bool} {p : Path} {result : LintResult}
    (hbefore : s₀.run t (files check before) = (.ok earlier, s))
    (hfile : (s.run t (file check p)).1 = .ok result) :
    (s₀.run t (files check (before ++ [p]))).1 = .ok (earlier ++ [result]) ∧
    ∀ after results, (s₀.run t (files check (before ++ p :: after))).1 = .ok results →
      ∃ later, results = earlier ++ result :: later := by
  rcases hrun : s.run t (file check p) with ⟨_, s'⟩
  rw [hrun] at hfile
  subst hfile
  have hsplit (after : List Path) : s₀.run t (files check (before ++ p :: after)) =
      match s'.run t (files check after) with
      | (.ok later, s'') => (.ok (earlier ++ result :: later), s'')
      | (.error e, s'') => (.error e, s'') := by
    unfold files at hbefore ⊢
    rw [List.mapM_append, Session.run_bind_of_ok hbefore, List.mapM_cons, bind_assoc,
      Session.run_bind_of_ok hrun, bind_assoc, Session.run_bind]
    rcases s'.run t (after.mapM (file check)) with ⟨_ | _, _⟩ <;> rfl
  constructor
  · rw [hsplit]
    rfl
  · intro after results hresults
    rw [hsplit] at hresults
    rcases hlater : s'.run t (files check after) with ⟨_ | later, _⟩
    · rw [hlater] at hresults
      cases hresults
    · rw [hlater] at hresults
      exact ⟨later, (Except.ok.inj hresults).symm⟩

end Lint

/-- What the linter records for a description among other files is what an editor is shown for it,
from the same store: the errors and then the warnings, apart from what is said about the number of
YAML documents.  An editor is shown the same whatever the store was asked before, if the answers of
the store stay the same. -/
theorem lint_records_diagnostics {t : FileTree} {s₀ s s' s₁ : Session} {before : List Path}
    {earlier : List LintResult} {p : Path} {d : Document} {errors warnings : List Issue}
    (hbefore : s₀.run t (Lint.files true before) = (.ok earlier, s))
    (hload : s.run t (Lint.load p) = (.ok (.ok d), s')) (hksy : d.isKsy)
    (hgrammar : s'.run t (Ksy.validateGrammar d) = (.ok errors, s₁))
    (hreferences : (s₁.run t (Ksy.validateReferences d)).1 = .ok warnings) :
    ∃ diagnostics result,
      (s'.run t (Diagnostic.all d)).1 = .ok diagnostics ∧
      (s₀.run t (Lint.files true (before ++ [p]))).1 = .ok (earlier ++ [result]) ∧
      (∀ after results, (s₀.run t (Lint.files true (before ++ p :: after))).1 = .ok results →
        ∃ later, results = earlier ++ result :: later) ∧
      result.file = p ∧ result.Records d diagnostics ∧
      s'.store.unnumbered = s.store.unnumbered ∧
      (Steady t s.store → ∀ σ, s.Asked t σ → (σ.run t (Diagnostic.all d)).1 = .ok diagnostics) := by
  obtain ⟨hstore, hasked⟩ := Session.asked_of_load hload
  -- the same diagnostics are given in all sessions that were only asked
  have hagain (diagnostics : List Diagnostic)
      (h : (s'.run t (Diagnostic.all d)).1 = .ok diagnostics)
      (hsteady : Steady t s.store) (σ : Session) (hσ : s.Asked t σ) :
      (σ.run t (Diagnostic.all d)).1 = .ok diagnostics := by
    obtain ⟨r, hr⟩ := (Session.Asked.uniform hsteady).diagnostics d
    rw [(hr σ hσ).1, ← (hr s' hasked).1, h]
  obtain ⟨hone, hmany⟩ :=
    Lint.run_files_append hbefore (Session.run_file hload hgrammar hreferences)
  have herrors : ∀ i ∈ errors, i.IsAbout d .error :=
    Ksy.ensures_validateGrammar d s' t errors (by rw [hgrammar])
  have hwarnings : ∀ i ∈ warnings, i.IsAbout d .warning :=
    Ksy.ensures_validateReferences d s₁ t warnings hreferences
  cases hproblem : Diagnostic.ofParseError? d with
  | none =>
    have hread : d.failure? = none := Diagnostic.ofParseError?_eq_none_iff.1 hproblem
    have hall := Session.run_diagnostics hksy hread hgrammar hreferences
    exact ⟨_, _, hall, hone, hmany, LintResult.file_of_checks d p errors warnings,
      LintResult.records_of_read hread p herrors hwarnings, hstore, hagain _ hall⟩
  | some problem =>
    have hall := Session.run_diagnostics_of_failure (s := s') (t := t) hksy hproblem
    -- neither check looks at a text that could not be read
    obtain ⟨hnoErrors, hnoWarnings⟩ := Ksy.checks_of_failure (by rw [hproblem]; rfl)
    rw [hnoErrors] at hgrammar
    rw [hnoWarnings] at hreferences
    obtain rfl : [] = errors := Except.ok.inj (congrArg Prod.fst hgrammar)
    obtain rfl : [] = warnings := Except.ok.inj hreferences
    exact ⟨_, _, hall, hone, hmany, LintResult.file_of_checks d p [] [],
      LintResult.records_of_failure hproblem p, hstore, hagain _ hall⟩

/-! ## A file with findings of all kinds -/

namespace Lint

open Yaml (Graph)

def filePath : Path := ⟨.slash, ["a.ksy"]⟩

/-- The directory with a text as its only file. -/
def fileOf (text : String) : FileTree :=
  ⟨.directory [("a.ksy", .file text.toUTF8.data.toList 0)], ⟨.slash, []⟩, 1⟩

/-- A text in which a type is used at a place that the grammar does not know. -/
def misplacedText : String := "meta:\n  type: foo\n"

/-- The same text with a second YAML document. -/
def pairText : String := "meta:\n  type: foo\n--- b\n"

def misplacedGraph : Graph :=
  ⟨#[⟨.map, .mapping [(1, 2)], 0, 18⟩, ⟨.str, .scalar "meta", 0, 4⟩,
     ⟨.map, .mapping [(3, 4)], 8, 18⟩, ⟨.str, .scalar "type", 8, 12⟩,
     ⟨.str, .scalar "foo", 14, 17⟩], [0]⟩

def pairGraph : Graph :=
  ⟨misplacedGraph.nodes.push ⟨.str, .scalar "b", 22, 23⟩, [0, 5]⟩

/-- The tree of the first YAML document. -/
def misplacedRoot (placeAt : ℕ → Position) : Node :=
  .mapping ⟨0, 18⟩ (placeAt 0) [.keyValue ⟨0, 18⟩ (placeAt 0) "meta" ⟨0, 4⟩
    (.mapping ⟨8, 18⟩ (placeAt 8) [.keyValue ⟨8, 17⟩ (placeAt 8) Ksy.typeKey ⟨8, 12⟩
      (.scalar ⟨14, 17⟩ (placeAt 14) "foo")])]

/-- The value of the first YAML document. -/
def misplacedData : Yaml.Data :=
  .map 0 [(.str "meta", .map 2 [(.str "type", .atom (.str "foo"))])]

def documentOf (text : String) (roots : List Node) (data : List Yaml.Data) : Document where
  source := text
  file? := some filePath
  name := "a.ksy"
  roots := roots
  data := data
  failure? := none

def misplacedDocument : Document :=
  documentOf misplacedText [misplacedRoot (Yaml.positionAt misplacedText.toList)] [misplacedData]

def pairDocument : Document :=
  documentOf pairText [misplacedRoot (Yaml.positionAt pairText.toList),
    .scalar ⟨22, 23⟩ ⟨2, 4⟩ "b"] [misplacedData, .atom (.str "b")]

/-! ### Reading the file -/

lemma ofGraph_misplaced {g : Graph} (nodes : ∀ id < 5, g.nodes[id]? = misplacedGraph.nodes[id]?)
    (placeAt : ℕ → Position) : Node.ofGraph g placeAt [] 0 = misplacedRoot placeAt := by
  have key (id : ℕ) (hid : id < 5) :
      g.nodes.getD id default = misplacedGraph.nodes.getD id default := by
    rw [Array.getD_eq_getD_getElem?, nodes id hid, ← Array.getD_eq_getD_getElem?]
  have inner : Node.ofGraph g placeAt [2, 0] 4 = .scalar ⟨14, 17⟩ (placeAt 14) "foo" := by
    rw [Node.ofGraph_of_notMem ((nodes 4 (by decide)).trans rfl) (show 4 ∉ [2, 0] by decide)]
    rfl
  have outer : Node.ofGraph g placeAt [0] 2 = .mapping ⟨8, 18⟩ (placeAt 8)
      [.keyValue ⟨8, 17⟩ (placeAt 8) Ksy.typeKey ⟨8, 12⟩
        (.scalar ⟨14, 17⟩ (placeAt 14) "foo")] := by
    rw [Node.ofGraph_of_notMem ((nodes 2 (by decide)).trans rfl) (show 2 ∉ [0] by decide)]
    change Node.mapping _ _ [Node.ofPair placeAt (g.nodes.getD 3 default)
      (Node.ofGraph g placeAt [2, 0] 4)] = _
    rw [inner, key 3 (by decide)]
    rfl
  rw [Node.ofGraph_of_notMem ((nodes 0 (by decide)).trans rfl) List.not_mem_nil]
  change Node.mapping _ _ [Node.ofPair placeAt (g.nodes.getD 1 default)
    (Node.ofGraph g placeAt [0] 2)] = _
  rw [outer, key 1 (by decide)]
  rfl

section Read

variable {text : String} {g : Graph} {roots : List Node} {data : List Yaml.Data}

lemma parse_documentOf (composed : Graph.ofText text.toList = .ok g) (made : g.data = .ok data)
    (built : g.roots.map (Node.ofGraph g (Yaml.positionAt text.toList) []) = roots) :
    Document.parse text (some filePath) none = .ok (documentOf text roots data) := by
  have hcontents : Document.contents text.toList = .ok (roots, data) := by
    rw [Document.contents, composed]
    simp only [bind, Except.bind, made, built]
    rfl
  rw [Document.parse, hcontents]
  rfl

lemma parse_misplacedText :
    Document.parse misplacedText (some filePath) none = .ok misplacedDocument := by
  refine parse_documentOf (Graph.ofText_eq (g := misplacedGraph) (by decide +kernel)) (by cbv) ?_
  change [Node.ofGraph misplacedGraph _ [] 0] = _
  rw [ofGraph_misplaced fun _ _ => rfl]

lemma parse_pairText : Document.parse pairText (some filePath) none = .ok pairDocument := by
  refine parse_documentOf (Graph.ofText_eq (g := pairGraph) (by decide +kernel)) (by cbv) ?_
  have place : Yaml.positionAt pairText.toList 22 = ⟨2, 4⟩ := by decide
  have second (placeAt : ℕ → Position) : Node.ofGraph pairGraph placeAt [] 5 =
      .scalar ⟨22, 23⟩ (placeAt 22) "b" := by
    rw [Node.ofGraph_of_notMem rfl List.not_mem_nil]
    rfl
  change [Node.ofGraph pairGraph _ [] 0, Node.ofGraph pairGraph _ [] 5] = _
  rw [ofGraph_misplaced (by decide), second, place]

lemma find_fileOf (text : String) :
    (fileOf text).find filePath = .ok (["a.ksy"], .file text.toUTF8.data.toList 0) := by
  have hlength : ¬FileTree.maxPath ≤ filePath.toString.utf8ByteSize := by decide
  rw [FileTree.find, if_neg hlength]
  change Except.map _ (FileTree.followFrom (fileOf text).root FileTree.maxLinks [] ["a.ksy"]) = _
  rw [FileTree.followFrom]
  simp [FileTree.followFrom, fileOf, Entry.at?, Entry.child?, Entry.entries]
  rfl

lemma readText_misplacedText : (fileOf misplacedText).readText filePath = .ok misplacedText := by
  rw [FileTree.readText, if_neg (by decide), find_fileOf]
  decide +kernel

lemma readText_pairText : (fileOf pairText).readText filePath = .ok pairText := by
  rw [FileTree.readText, if_neg (by decide), find_fileOf]
  decide +kernel

/-- The file is read past the store. -/
lemma run_load_fileOf {d : Document} (read : (fileOf text).readText filePath = .ok text)
    (parsed : Document.parse text (some filePath) none = .ok d) (s : Session) :
    ∃ s', s.run (fileOf text) (load filePath) = (.ok (.ok d), s') := by
  have hstat : (fileOf text).stat filePath = .ok (.file text.toUTF8.data.toList 0) := by
    rw [FileTree.stat, find_fileOf]
    rfl
  have hexists : (fileOf text).exists? filePath = .ok true := by
    rw [FileTree.exists?, FileTree.ask, hstat]
  have hfile : (fileOf text).isFile filePath = .ok true := by
    rw [FileTree.isFile, FileTree.ask, hstat]
    rfl
  have hload : ∃ serial s', s.run (fileOf text) (Work.loadDocument filePath) =
      (.ok ⟨serial, d⟩, s') := by
    unfold Work.loadDocument
    simp only [Session.run_bind, Session.run_read, hexists, hfile, Work.log, Session.run_logAll,
      read]
    rw [Work.parse, Session.run_answer]
    simp only [DocumentStore.parse, parsed]
    exact ⟨_, _, rfl⟩
  obtain ⟨serial, s', hload⟩ := hload
  refine ⟨s', ?_⟩
  unfold load
  rw [Session.run_bind, Session.run_tryCatch, Session.run_bind_of_ok hload]
  rfl

/-- A fresh session that has only read a file gives the same answers from then on, and still has the
grammar that comes with it. -/
lemma of_load_start {t : FileTree} {p : Path} {r : Except DocumentFault Document} {s' : Session}
    (h : (Session.start true 8 none).run t (load p) = (.ok r, s')) :
    Steady t s'.store ∧ s'.grammarFile? = none := by
  obtain ⟨n, log, hrun⟩ := Session.run_load (.start true 8 none) t p
  rw [h] at hrun
  subst hrun
  refine ⟨DocumentStore.Truthful.steady ⟨fun _ => ?_, fun _ he => absurd he List.not_mem_nil⟩, rfl⟩
  change (0 : ℤ) ≤ 8
  decide

end Read

/-! ### Checking the document -/

section Check

variable {t : FileTree} {s : Session} {d : Document}

/-- Without imports only the types of the document itself are visible; here it defines none. -/
lemma run_collectTypes_nil (hs : Steady t s.store) (hksy : d.isKsy)
    (himports : ∀ l ∈ d.walk, ¬l.isImport) (hnone : Ksy.ownDefinitions d = []) :
    (s.run t (Ksy.collectTypes d)).1 = .ok [] := by
  have hreaches {x : Document} (hx : Ksy.Reaches t s d x) : x = d := by
    induction hx with
    | start => rfl
    | step _ hl himport _ _ ih =>
      subst ih
      exact absurd himport (himports _ hl)
  rw [Ksy.run_collectTypes hksy]
  cases hrun : (s.run t (Ksy.walkImports d)).1 with
  | error e =>
    obtain ⟨x, l, hx, hl, himport, -⟩ := Ksy.failure_of_run hs hrun
    rw [hreaches hx] at hl
    exact absurd himport (himports l hl)
  | ok c =>
    obtain ⟨entered, hd, hp⟩ := Ksy.progress_of_run hs hrun
    have hperm : c.types.Perm (entered.flatMap Ksy.ownDefinitions) := by simpa using hp.types
    have hempty : entered.flatMap Ksy.ownDefinitions = [] := by
      rw [List.flatMap_eq_nil_iff]
      intro x hx
      rw [hreaches (hp.reached x hx), hnone]
    rw [hempty] at hperm
    rw [Except.map, hperm.eq_nil]

/-- Without imports and definitions of types, the references are checked one by one. -/
lemma run_validateReferences_alone (hs : Steady t s.store) (hksy : d.isKsy)
    (hread : d.failure? = none) (himports : ∀ l ∈ d.walk, ¬l.isImport)
    (hnone : Ksy.ownDefinitions d = []) :
    (s.run t (Ksy.validateReferences d)).1 = .ok (d.walk.flatMap (Ksy.warningsAt t s d [])) :=
  (Ksy.validateReferences_eq_ok_iff (Session.Asked.uniform hs) hksy hread).2
    ⟨[], fun _ => run_collectTypes_nil hs hksy himports hnone,
      fun l hl himport => absurd himport (himports l hl), rfl⟩

end Check

/-! ### The two texts -/

variable {t : FileTree} {s : Session}

lemma isKsy_documentOf {text : String} {roots : List Node} {data : List Yaml.Data} :
    (documentOf text roots data).isKsy := by
  change Ksy.isFile filePath
  decide

/-- The grammar knows no type at this place. -/
def misplacedIssue : Issue :=
  ⟨"'type' does not match any of the regexes: '^-'", some "/meta", some ⟨8, 18⟩, ⟨1, 2⟩, .error⟩

lemma grammarIssues_misplaced :
    Ksy.grammarIssues Ksy.grammar misplacedDocument misplacedData = .ok [misplacedIssue] := by
  have value : Value.ofData misplacedData =
      .ok (.object [("meta", .object [("type", .atom (.str "foo"))])]) := by
    cbv
  obtain ⟨found, report, rfl⟩ := exists_ok_of_toOption
    (r := (Ksy.grammar.report (.object [("meta", .object [("type", .atom (.str "foo"))])])).outcome)
    (f := id) (b := [⟨[.ofKey "meta"], "'type' does not match any of the regexes: '^-'"⟩])
    (by decide +kernel)
  have findings :
      Ksy.grammar.findings (.object [("meta", .object [("type", .atom (.str "foo"))])]) =
      .ok [⟨[.ofKey "meta"], "'type' does not match any of the regexes: '^-'"⟩] := by
    rw [Grammar.findings, report]
    exact congrArg Except.ok (List.mergeSort_singleton _)
  have shown : Ksy.findingIssue misplacedDocument
      ⟨[.ofKey "meta"], "'type' does not match any of the regexes: '^-'"⟩ = misplacedIssue := by
    decide +kernel
  rw [Ksy.grammarIssues, value]
  simp only [bind, Except.bind, findings, List.map_cons, List.map_nil, shown]
  rfl

/-- The one YAML document has its type at a place that the grammar does not know. -/
lemma run_validateGrammar_misplaced (builtin : s.grammarFile? = none) :
    s.run t (Ksy.validateGrammar misplacedDocument) = (.ok [misplacedIssue], s) := by
  obtain ⟨store, schemas, file?, log⟩ := s
  obtain rfl : file? = none := builtin
  have made : Session.run ⟨store, schemas, none, log⟩ t Work.grammar =
      (.ok Ksy.grammar, ⟨store, schemas, none, log⟩) := Session.run_grammar t _
  have ksy : misplacedDocument.isKsy := isKsy_documentOf
  have read : misplacedDocument.failure? = none := rfl
  unfold Ksy.validateGrammar
  rw [if_neg (by simp [ksy, read])]
  change Session.run _ t (Work.grammar >>= _) = _
  rw [Session.run_bind_of_ok made, grammarIssues_misplaced]
  rfl

/-- Only one YAML document is checked against the grammar. -/
lemma run_validateGrammar_pair (s : Session) : ∃ log,
    s.run t (Ksy.validateGrammar pairDocument) = (.ok [], { s with log }) :=
  ⟨_, rfl⟩

/-- The type is not known either. -/
def unknownIssue : Issue :=
  ⟨"Unknown type 'foo'", none, some ⟨14, 17⟩, ⟨1, 8⟩, .warning⟩

lemma run_validateReferences_misplaced (hs : Steady t s.store) :
    (s.run t (Ksy.validateReferences misplacedDocument)).1 = .ok [unknownIssue] := by
  have himports : misplacedDocument.walk.all (fun l => !l.isImport) = true := by rfl
  rw [run_validateReferences_alone (d := misplacedDocument) hs isKsy_documentOf rfl
    (by simpa using List.all_eq_true.1 himports) rfl]
  rfl

lemma run_validateReferences_pair (hs : Steady t s.store) :
    (s.run t (Ksy.validateReferences pairDocument)).1 = .ok [unknownIssue] := by
  have himports : pairDocument.walk.all (fun l => !l.isImport) = true := by rfl
  rw [run_validateReferences_alone (d := pairDocument) hs isKsy_documentOf rfl
    (by simpa using List.all_eq_true.1 himports) rfl]
  rfl

end Lint

section Witness

open Lint

/-- Two files, each linted by itself.  For the one with two YAML documents the linter has an entry
about their number, and another one that is what an editor is shown; for the other one it has an
error and a warning, which are what an editor is shown. -/
theorem lint_records_diagnostics_pair :
    (∃ s' s₁ x result, let start := Session.start true 8 none
      start.run (fileOf pairText) (Lint.load filePath) = (.ok (.ok pairDocument), s') ∧
      pairDocument.isKsy ∧
      s'.run (fileOf pairText) (Ksy.validateGrammar pairDocument) = (.ok [], s₁) ∧
      (s₁.run (fileOf pairText) (Ksy.validateReferences pairDocument)).1 = .ok [unknownIssue] ∧
      (s'.run (fileOf pairText) (Diagnostic.all pairDocument)).1 = .ok [x] ∧
      (start.run (fileOf pairText) (Lint.files true [filePath])).1 = .ok [result] ∧
      result.errors.length = 0 ∧ result.warnings.length = 2 ∧
      result.Records pairDocument [x]) ∧
    ∃ s' s₁ x y result, let start := Session.start true 8 none
      start.run (fileOf misplacedText) (Lint.load filePath) = (.ok (.ok misplacedDocument), s') ∧
      misplacedDocument.isKsy ∧
      s'.run (fileOf misplacedText) (Ksy.validateGrammar misplacedDocument) =
        (.ok [misplacedIssue], s₁) ∧
      (s₁.run (fileOf misplacedText) (Ksy.validateReferences misplacedDocument)).1 =
        .ok [unknownIssue] ∧
      (s'.run (fileOf misplacedText) (Diagnostic.all misplacedDocument)).1 = .ok [x, y] ∧
      (start.run (fileOf misplacedText) (Lint.files true [filePath])).1 = .ok [result] ∧
      result.errors.length = 1 ∧ result.warnings.length = 1 ∧
      result.Records misplacedDocument [x, y] := by
  constructor
  · obtain ⟨s', hload⟩ := run_load_fileOf readText_pairText parse_pairText
      (.start true 8 none)
    obtain ⟨hsteady, -⟩ := of_load_start hload
    obtain ⟨log, hgrammar⟩ := run_validateGrammar_pair (t := fileOf pairText) s'
    have hreferences := run_validateReferences_pair (s := { s' with log }) hsteady
    obtain ⟨diagnostics, result, hall, hfiles, -, -, hrecords, -⟩ := lint_records_diagnostics
      (show (Session.start true 8 none).run _ (Lint.files true []) = (.ok [], _) from rfl)
      hload isKsy_documentOf hgrammar hreferences
    have hone := Session.run_diagnostics isKsy_documentOf rfl hgrammar hreferences
    obtain rfl := Except.ok.inj (hall.symm.trans hone)
    obtain ⟨herrors, hwarnings⟩ := hrecords.length_eq
    exact ⟨s', _, _, result, hload, isKsy_documentOf, hgrammar, hreferences, hall, hfiles,
      herrors, hwarnings, hrecords⟩
  · obtain ⟨s', hload⟩ := run_load_fileOf readText_misplacedText parse_misplacedText
      (.start true 8 none)
    obtain ⟨hsteady, hbuiltin⟩ := of_load_start hload
    have hgrammar := run_validateGrammar_misplaced (t := fileOf misplacedText) hbuiltin
    have hreferences := run_validateReferences_misplaced hsteady
    obtain ⟨diagnostics, result, hall, hfiles, -, -, hrecords, -⟩ := lint_records_diagnostics
      (show (Session.start true 8 none).run _ (Lint.files true []) = (.ok [], _) from rfl)
      hload isKsy_documentOf hgrammar hreferences
    have htwo := Session.run_diagnostics isKsy_documentOf rfl hgrammar hreferences
    obtain rfl := Except.ok.inj (hall.symm.trans htwo)
    obtain ⟨herrors, hwarnings⟩ := hrecords.length_eq
    exact ⟨s', s', _, _, result, hload, isKsy_documentOf, hgrammar, hreferences, hall, hfiles,
      herrors, hwarnings, hrecords⟩

end Witness

end KsyTools
