import Livedoc.Proofs.Document.Origin
import Livedoc.Proofs.Expansion.Ground
import Livedoc.Proofs.Expansion.Overlay

/-!
# Where warnings about names point

A warning about a variable or a function that does not exist has the span of the reference or
of the call that was expanded.  What expansion may come to is a `Reach`: calls and references, and
texts that it may read.  In a source that includes no file these are the nodes of its tree, and
those in the texts of its arguments, at any depth (`reachOf_closed`), so the warning is about one of
them (`compile_explains`).

The name stands in the source after a dot, wherever the warning points.  A block call is found at
its place.  What stands within a line is searched for, in a stretch of the lines with the labels of
quotations rewritten, and the text of an argument is a source of its own.  So the warning points at
the name in the source unless the search found nothing, or the line was rewritten, or the name
stands in the text of an argument (`compile_names`).
-/

namespace Livedoc

open Livedoc.Call Livedoc.Document Livedoc.Expansion Livedoc.Problem Livedoc.Source Livedoc.Text
open Livedoc.Tree Livedoc.Tree.Node

variable {source : String}

/-! ## Reaches -/

/-- Calls and references that expansion may come to, and texts that it may read. -/
structure Reach where
  names : Node → Prop
  texts : String → Prop

namespace Reach

variable {r : Reach}

/-- No call or text leads out of the reach, and no call includes a file. -/
structure Closed (r : Reach) : Prop where
  isName : ∀ {n}, r.names n → n.isName = true
  call : ∀ {name args named body span}, r.names (.call name args named body span) →
    name ≠ Builtin.inclusion.name ∧ (∀ a ∈ args, r.texts a.content) ∧
      ∀ a ∈ named, r.texts a.value.content
  text : ∀ {raw}, r.texts raw → AllDynamic r.names (Document.readLine raw)

/-- If the warning is about a variable or a function that is not there, it is about a reference
or a call within the reach, and has its span. -/
structure Explains (r : Reach) (w : Warning) : Prop where
  reference : ∀ {name}, w.message = "Undefined variable: " ++ name → r.names (.reference name w.span)
  call : ∀ {name}, w.message = "Unknown function: " ++ name →
    ∃ args named body, r.names (.call name args named body w.span)

private theorem undefined_ne_unknown (name other : String) :
    "Undefined variable: " ++ name ≠ "Unknown function: " ++ other := by
  intro h
  have hstart := congrArg (fun message => message.toList.take 3) h
  simp only [String.toList_append] at hstart
  change ['U', 'n', 'd'] = ['U', 'n', 'k'] at hstart
  revert hstart
  decide

/-- The ground of a reach: no file is included, and errors may be anywhere. -/
def ground (r : Reach) : Ground where
  names := r.names
  texts := r.texts
  files _ := True
  warning := r.Explains
  errorAt _ := True

theorem Closed.ground (hr : r.Closed) : r.ground.Closed where
  isName := hr.isName
  arguments h := (hr.call h).2
  text := hr.text
  file h hname _ := absurd hname (hr.call h).1
  undefined {name span} h :=
    { reference := fun {n} hn => by
        obtain rfl : name = n := by simpa using hn
        exact h
      call := fun {n} hn => absurd hn (undefined_ne_unknown name n) }
  unknown {c} h :=
    { reference := fun {n} hn => absurd hn.symm (undefined_ne_unknown n c.name)
      call := fun {n} hn => by
        obtain rfl : c.name = n := by simpa using hn
        exact ⟨_, _, _, h⟩ }
  other _ hmessage := ⟨fun {n} hn => absurd hn (hmessage n).1, fun {n} hn => absurd hn (hmessage n).2⟩
  error _ := ⟨trivial, trivial⟩

end Reach

/-! ## Texts of arguments -/

/-- The text of an argument of a call in the tree of a source, or of a call in such a text. -/
inductive ArgumentText (source : String) : String → Prop
  | written {n : Node} {text : String} (hn : n ∈ walkAll (read source).result.children)
      (h : text ∈ n.argumentTexts) : ArgumentText source text
  | inner {outer text : String} {n : Node} (houter : ArgumentText source outer)
      (hn : n ∈ walkAll (readLine outer)) (h : text ∈ n.argumentTexts) : ArgumentText source text

/-- Only calls have arguments. -/
theorem isDynamic_of_mem_argumentTexts {n : Node} {text : String}
    (h : text ∈ n.argumentTexts) : n.isDynamic = true := by
  cases n with
  | call => rfl
  | _ => cases h

/-- **The text of an argument has no names but those of the source.** -/
theorem ArgumentText.drawn (hreturn : '\r' ∉ source.toList) {text : String}
    (h : ArgumentText source text) : DrawnFrom source.toList text.toList := by
  induction h with
  | written hn h =>
      have hdynamic := isDynamic_of_mem_argumentTexts h
      exact (read_allDynamic hreturn _ hn hdynamic).2.argument _ h
  | inner _ hn h ih =>
      have hdynamic := isDynamic_of_mem_argumentTexts h
      exact ih.trans ((readLine_allDynamic _ _ hn hdynamic).2.argument _ h)

/-- The calls and references of a source, and the texts of its arguments. -/
def reachOf (source : String) : Reach where
  names n := n.isDynamic = true ∧ (n ∈ walkAll (read source).result.children ∨
    ∃ text, ArgumentText source text ∧ n ∈ walkAll (readLine text))
  texts := ArgumentText source

theorem ArgumentText.of_names {n : Node} {text : String} (hn : (reachOf source).names n)
    (h : text ∈ n.argumentTexts) : ArgumentText source text := by
  rcases hn.2 with hn | ⟨outer, houter, hn⟩
  · exact .written hn h
  · exact .inner houter hn h

/-- **A call or reference of a source has a name that stands in the source after a dot**, and so
has one in the text of an argument. -/
theorem reachOf_spelt (hreturn : '\r' ∉ source.toList) {n : Node} (h : (reachOf source).names n) :
    n.Spelt source.toList := by
  obtain ⟨hdynamic, hn | ⟨text, htext, hn⟩⟩ := h
  · exact (read_allDynamic hreturn n hn hdynamic).2
  · exact .trans (htext.drawn hreturn) (readLine_allDynamic text n hn hdynamic).2

/-! ## Sources that include nothing -/

/-- Whether a node is a call that includes a file. -/
def Tree.Node.isInclude : Node → Bool
  | .call name .. => name == Builtin.inclusion.name
  | _ => false

/-- A source that includes no file: no call in its tree does, and no call in the text of an
argument. -/
def IncludesNothing (source : String) : Prop :=
  ∀ n, (reachOf source).names n → n.isInclude = false

/-- A source in which `.include` is not written includes no file. -/
theorem includesNothing_of_unwritten (hreturn : '\r' ∉ source.toList)
    (h : ¬ ".include".toList <:+: source.toList) : IncludesNothing source := by
  intro n hn
  cases n with
  | call name args named body span =>
      have hname := (reachOf_spelt hreturn hn).name name rfl
      rw [isInclude, beq_eq_false_iff_ne]
      rintro rfl
      exact h hname
  | _ => rfl

/-- **Expansion of a source that includes no file comes to nothing but its calls, its references
and the texts of its arguments.** -/
theorem reachOf_closed (hinclude : IncludesNothing source) :
    (reachOf source).Closed where
  isName := by
    rintro n ⟨hdynamic, hn | ⟨text, -, hn⟩⟩
    · exact read_isName source n hn hdynamic
    · exact readLine_isName text n hn hdynamic
  call := by
    rintro name args named body span hcall
    have hname := hinclude _ hcall
    refine ⟨by simpa [isInclude] using hname, fun a ha => ?_, fun a ha => ?_⟩
    · exact .of_names hcall (List.mem_append_left _ (List.mem_map_of_mem ha))
    · exact .of_names hcall
        (List.mem_append_right _ (List.mem_map_of_mem (f := fun a => a.value.content) ha))
  text := fun {raw} hraw n hn hdynamic => ⟨hdynamic, .inr ⟨raw, hraw, hn⟩⟩

/-- **Every warning about a name is about a call or a reference of the source, or of the text of
an argument in it**, and has its span. -/
theorem compile_explains (hinclude : IncludesNothing source) (o : CompileOptions) :
    ∀ w ∈ (compile source o).report.warnings, (reachOf source).Explains w := by
  have hholds : (reachOf source).ground.Holds source o :=
    { closed := (reachOf_closed hinclude).ground
      tree := fun n hn hdynamic => ⟨hdynamic, .inl hn⟩
      files := fun _ => trivial
      mistakes := fun _ _ => trivial
      unknown := trivial }
  exact (compile_onGround hholds).1

/-! ## Places -/

/-- A name stands at an offset of a text, after a dot. -/
def NameAt (source name : String) (offset : Nat) : Prop :=
  '.' :: name.toList <+: source.toList.drop offset

/-- A line and a column of a text, and the offset that goes with them. -/
private theorem nameAt_of_line {name : String} {span : Span} {line : List Char}
    (hknown : span.isKnown = true) (hline : (lines source.toList)[span.start.line - 1]? = some line)
    (hname : '.' :: name.toList <+: line.drop (span.start.column - 1))
    (hoffset : span.start.offset = (LineIndex.of source).lineStart (span.start.line : Int) +
      (span.start.column - 1)) : NameAt source name span.start.offset := by
  have hpos : 0 < span.start.line := of_decide_eq_true hknown
  have hlt : span.start.line - 1 < (lines source.toList).length :=
    (List.getElem?_eq_some_iff.mp hline).1
  have hstart := LineIndex.lineStart_ofText hlt
  rw [Nat.sub_add_cancel hpos] at hstart
  obtain ⟨before, after, hsource, hbefore⟩ := LineIndex.exists_eq_append_line hline
  rw [NameAt, hoffset, LineIndex.of, hstart, ← hbefore]
  have hdrop : source.toList.drop (before.length + (span.start.column - 1)) =
      (line ++ after).drop (span.start.column - 1) := by
    rw [← List.drop_drop, hsource, List.append_assoc, List.drop_left]
  rw [hdrop, List.drop_append]
  exact hname.trans (List.prefix_append _ _)

/-- A place on a line whose label is rewritten, at which the name stands after a dot once it
is. -/
def NameOnRewritten (source name : String) (place : Position) : Prop :=
  ∃ line marked, (lines source.toList)[place.line - 1]? = some line ∧
    markLabel? line = some marked ∧ '.' :: name.toList <+: marked.drop (place.column - 1)

/-- The span of a block call starts at its name. -/
private theorem nameAt_of_blockCall (hreturn : '\r' ∉ source.toList) {c : BlockCall} {k : Nat}
    (hc : HasBlockCall source c k) {name : String} {args : List Argument}
    {named : List NamedArgument} {body : List Node} {span : Span}
    (hnode : .call name args named body span = blockCallNode (LineIndex.of source) c k) :
    span.isKnown = true ∧ NameAt source name span.start.offset := by
  obtain ⟨hnumber, hhead, hclosed, full, hfull, hline⟩ := hc.line hreturn
  obtain rfl : name = c.head.name := (Node.call.inj hnode).1
  have hplaced := BlockCall.placed hnumber hhead hclosed hfull hline hnode.symm
  refine ⟨?_, ?_⟩
  · rw [Span.isKnown, hplaced.number]
    exact decide_eq_true hnumber
  · have htext := hplaced.span.text
    have hdot := hplaced.dot
    rw [← htext, List.drop_take] at hdot
    exact hdot.trans (List.take_prefix _ _)

/-- What was found in the lines stands there in the source, unless the line was rewritten. -/
private theorem nameAt_of_located {name : String} {span : Span}
    (h : Located (markLabels false (lines source.toList)) (LineIndex.of source) name span) :
    NameAt source name span.start.offset ∨ span.start = span.stop ∨
      NameOnRewritten source name span.start := by
  by_cases hempty : span.start = span.stop
  · exact .inr (.inl hempty)
  · obtain ⟨marked, hmarked, hname, hoffset⟩ := h.found hempty
    obtain ⟨line, hline, rfl | hnew⟩ := getElem?_markLabels hmarked
    · exact .inl (nameAt_of_line h.known hline hname hoffset)
    · exact .inr (.inr ⟨line, marked, hline, hnew, hname⟩)

private theorem nameAt_of_located_text {text name : String} {span : Span}
    (h : Located (lines text.toList) (LineIndex.of text) name span) :
    span.start = span.stop ∨ NameAt text name span.start.offset := by
  by_cases hempty : span.start = span.stop
  · exact .inl hempty
  · obtain ⟨line, hline, hname, hoffset⟩ := h.found hempty
    exact .inr (nameAt_of_line h.known hline hname hoffset)

/-- Whether a node stands within a line and has this name and this span. -/
def Tree.Node.IsNamed (name : String) (span : Span) (n : Node) : Prop :=
  n.InLine fun m s => m = name ∧ s = span

/-- A call or a reference within a line has its own name and its own span. -/
private theorem isNamed_reference {P : String → Span → Prop} {name : String} {span : Span}
    (h : (Node.reference name span).InLine P) :
    P name span ∧ (Node.reference name span).IsNamed name span := ⟨h, rfl, rfl⟩

private theorem isNamed_call {P : String → Span → Prop} {name : String} {args : List Argument}
    {named : List NamedArgument} {body : List Node} {span : Span}
    (h : (Node.call name args named body span).InLine P) :
    P name span ∧ (Node.call name args named body span).IsNamed name span :=
  ⟨h.1, ⟨rfl, rfl⟩, h.2⟩

/-- The node that a warning is about is a block call, or it stands within a line and has the name
and the span of the warning. -/
private theorem exists_of_explains {r : Reach} {w : Warning} (h : r.Explains w) {name : String}
    (hmessage : w.message = "Undefined variable: " ++ name ∨
      w.message = "Unknown function: " ++ name) :
    ∃ n, r.names n ∧ n.name? = some name ∧
      (∀ P, n.InLine P → P name w.span ∧ n.IsNamed name w.span) ∧
      ∀ index c k, n = blockCallNode index c k →
        ∃ args named body, Node.call name args named body w.span = blockCallNode index c k := by
  rcases hmessage with hmessage | hmessage
  · refine ⟨_, h.reference hmessage, rfl, fun P hP => isNamed_reference hP, ?_⟩
    rintro index c k ⟨⟩
  · obtain ⟨args, named, body, hn⟩ := h.call hmessage
    exact ⟨_, hn, rfl, fun P hP => isNamed_call hP, fun index c k heq => ⟨args, named, body, heq⟩⟩

/-- **Warnings about names point at the names**, but for three kinds of them. In a source without
carriage returns that includes no file, every warning about a variable or a function that is not
there has a known span, and its name stands in the source after a dot. It does so at the offset
where the span starts; or the warning is about a name within a line which the search did not find,
so that the span is empty, or which it found on a line whose label was rewritten; or it is about a
name in the text of an argument, and the span is one in that text. -/
theorem compile_names (hreturn : '\r' ∉ source.toList) (hinclude : IncludesNothing source)
    (o : CompileOptions) {w : Warning} (hw : w ∈ (compile source o).report.warnings) {name : String}
    (hmessage : w.message = "Undefined variable: " ++ name ∨
      w.message = "Unknown function: " ++ name) :
    w.span.isKnown = true ∧ '.' :: name.toList <:+: source.toList ∧
      (NameAt source name w.span.start.offset ∨
        (∃ n ∈ walkAll (read source).result.children, n.IsNamed name w.span ∧
          (w.span.start = w.span.stop ∨ NameOnRewritten source name w.span.start)) ∨
        ∃ text, ArgumentText source text ∧
          ∃ n ∈ walkAll (readLine text), n.IsNamed name w.span ∧
            (w.span.start = w.span.stop ∨ NameAt text name w.span.start.offset)) := by
  obtain ⟨n, hreach, hname, hline, hblock⟩ :=
    exists_of_explains (compile_explains hinclude o w hw) hmessage
  have hspelt := (reachOf_spelt hreturn hreach).name name hname
  obtain ⟨hdynamic, hn | ⟨text, htext, hn⟩⟩ := hreach
  · rcases (read_allDynamic hreturn n hn hdynamic).1 with ⟨c, k, hc, hnode⟩ | hinline
    · obtain ⟨args, named, body, hcall⟩ := hblock _ _ _ hnode
      obtain ⟨hknown, hplace⟩ := nameAt_of_blockCall hreturn hc hcall
      exact ⟨hknown, hspelt, .inl hplace⟩
    · obtain ⟨hlocated, hnamed⟩ := hline _ hinline
      refine ⟨hlocated.known, hspelt, ?_⟩
      exact (nameAt_of_located hlocated).imp_right fun h => .inl ⟨n, hn, hnamed, h⟩
  · obtain ⟨hlocated, hnamed⟩ := hline _ (readLine_allDynamic text n hn hdynamic).1
    exact ⟨hlocated.known, hspelt,
      .inr (.inr ⟨text, htext, n, hn, hnamed, nameAt_of_located_text hlocated⟩)⟩

/-- A reference within a line to a variable that is not there. -/
theorem compile_names_missing :
    ∃ w ∈ (compile "see .missing" { moment := ⟨2024, 3, 9, 12, 0, 0, 0⟩ }).report.warnings,
      w.message = "Undefined variable: " ++ "missing" ∧ w.span.isKnown = true ∧
        '.' :: "missing".toList <:+: "see .missing".toList := by
  have hreturn : '\r' ∉ "see .missing".toList := by decide
  have hinclude := includesNothing_of_unwritten hreturn (by decide)
  obtain ⟨w, hw, hmessage⟩ : ∃ w ∈ (compile "see .missing"
      { moment := ⟨2024, 3, 9, 12, 0, 0, 0⟩ }).report.warnings,
        w.message = "Undefined variable: " ++ "missing" := by decide +kernel
  obtain ⟨hknown, hname, -⟩ := compile_names hreturn hinclude _ hw (.inl hmessage)
  exact ⟨w, hw, hmessage, hknown, hname⟩

/-- The exceptions are needed: the name on a rewritten line, the name that the search does not find
because its argument runs over an indented line, and the name in the text of an argument are all
missing, and none of them stands where its warning points. -/
theorem compile_names_elsewhere :
    let source := "> Note: .x\n\n- .y \x7ba\n  b\x7d\n\n.var \x7bv\x7d \x7b.z\x7d\n\n.v"
    '\r' ∉ source.toList ∧ ¬ ".include".toList <:+: source.toList ∧
      ∀ p ∈ [("Undefined variable: ", "x"), ("Unknown function: ", "y"),
          ("Undefined variable: ", "z")],
        ∃ w ∈ (compile source { moment := ⟨2024, 3, 9, 12, 0, 0, 0⟩ }).report.warnings,
          w.message = p.1 ++ p.2 ∧ ¬ NameAt source p.2 w.span.start.offset := by
  unfold NameAt
  decide +kernel

end Livedoc
