/-
# Reports

Checking a value against a schema gives findings one by one, each with the way to the part of the
value that it is about.  A check can also break off.  What was found before that only counts for
one who asks whether there is a finding at all.
-/
import KsyTools.Document.Basic
import KsyTools.Failure

namespace KsyTools

/-- What is wrong with a part of a value. -/
structure Finding where
  /-- The way to the part. -/
  path : List PathToken
  message : String
  deriving Repr, DecidableEq

/-- The findings of a check, and why it broke off if it did. -/
structure Report where
  findings : List Finding
  failure? : Option Failure
  deriving Repr, DecidableEq

namespace Report

/-- Nothing was found. -/
def empty : Report :=
  ⟨[], none⟩

/-- One finding about the whole value. -/
def finding (message : String) : Report :=
  ⟨[⟨[], message⟩], none⟩

/-- The check breaks off. -/
def broken (failure : Failure) : Report :=
  ⟨[], some failure⟩

/-- Two checks one after the other; the second is not made if the first breaks off. -/
def andThen (first : Report) (second : Unit → Report) : Report :=
  match first.failure? with
  | some _ => first
  | none =>
    let second := second ()
    ⟨first.findings ++ second.findings, second.failure?⟩

/-- A check for each of several things, one after another. -/
def forEach {α : Type} (check : α → Report) : List α → Report
  | [] => .empty
  | a :: rest => (check a).andThen fun _ => forEach check rest

/-- A check that depends on something that may fail. -/
def given {α : Type} (r : Except Failure α) (check : α → Report) : Report :=
  match r with
  | .ok a => check a
  | .error failure => .broken failure

/-- Findings about a part, as findings about the whole. -/
def under (token : PathToken) (r : Report) : Report :=
  { r with findings := r.findings.map fun f => { f with path := token :: f.path } }

/-- All findings. -/
def outcome (r : Report) : Except Failure (List Finding) :=
  match r.failure? with
  | some failure => .error failure
  | none => .ok r.findings

/-- Whether nothing is wrong.  One finding is enough to know that something is. -/
def verdict (r : Report) : Except Failure Bool :=
  match r.findings, r.failure? with
  | _ :: _, _ => .ok false
  | [], some failure => .error failure
  | [], none => .ok true

end Report

end KsyTools
