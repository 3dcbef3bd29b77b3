import Livedoc.Document.Reading
import Livedoc.Proofs.Document.Placeless
import Livedoc.Proofs.Document.Segment
import Livedoc.Proofs.Document.TypedQuote

/-!
# Reading parts one after the other

What lines read as is what their segments read as, put together (`readParts_eq`).  It does not
depend on the source that the lines come from nor on where they stand in it, spans apart
(`readParts_same`): the body of a block call reads as the same lines would on their own.

A complete call at the start of a line ends whatever stands before it: the Markdown that is
pending, the body of an earlier call, the quotation whose label was rewritten.  If no fence is
open there, and what comes after it is no body, then the document reads as the text before the
call, the call, and the text after it would read as three documents (`read_append_call`).
-/

namespace Livedoc.Document

open Livedoc.Source Livedoc.Text Livedoc.Tree Livedoc.Tree.Node Livedoc.Problem

/-! ## Parts -/

namespace Parsed

/-- What parts read as, one after the other. -/
def join (parts : List (Parsed (List Node))) : Parsed (List Node) :=
  ⟨parts.flatMap (·.result), parts.flatMap (·.mistakes)⟩

/-- Two results that differ in spans alone. -/
structure Same (p q : Parsed (List Node)) : Prop where
  nodes : SameNodes p.result q.result
  messages : p.mistakes.map (·.message) = q.mistakes.map (·.message)

/-- Two results one after the other. -/
def append (p q : Parsed (List Node)) : Parsed (List Node) :=
  ⟨p.result ++ q.result, p.mistakes ++ q.mistakes⟩

theorem Same.append {p p' q q' : Parsed (List Node)} (hp : p.Same p') (hq : q.Same q') :
    (p.append q).Same (p'.append q') where
  nodes := by
    simp only [SameNodes, Parsed.append, bareAll_append, hp.nodes, hq.nodes]
  messages := by
    simp only [Parsed.append, List.map_append, hp.messages, hq.messages]

theorem append_assoc (p q r : Parsed (List Node)) :
    (p.append q).append r = p.append (q.append r) := by
  simp only [Parsed.append, List.append_assoc]

theorem join_append (ps qs : List (Parsed (List Node))) :
    join (ps ++ qs) = (join ps).append (join qs) := by
  simp only [join, Parsed.append, List.flatMap_append]

theorem join_cons (p : Parsed (List Node)) (ps : List (Parsed (List Node))) :
    join (p :: ps) = p.append (join ps) := by
  simp only [join, Parsed.append, List.flatMap_cons]

/-- The top-level nodes of a document that was read, with the mistakes. -/
def content (p : Parsed Document) : Parsed (List Node) := ⟨p.result.children, p.mistakes⟩

end Parsed

/-- What one segment reads as. -/
def readSegment (index : LineIndex) (indent : Nat) : Segment → Parsed (List Node)
  | .markdown ls number => readMarkdown index ls number indent
  | .call c =>
    let onLine := readCallLine index c indent
    let removed := commonIndent c.body
    let below := readParts index (c.number + 1) (indent + removed) (c.body.map (List.drop removed))
    ⟨[callNode index c indent onLine.result below.result], onLine.mistakes ++ below.mistakes⟩

/-- **Lines read as their segments do, one after the other.** -/
theorem readParts_eq (index : LineIndex) (number indent : Nat) (ls : List (List Char)) :
    readParts index number indent ls = .join ((segments number ls).map (readSegment index indent)) := by
  have hattach : (segments number ls).map (readSegment index indent) =
      (segments number ls).attach.map fun s => readSegment index indent s.1 := by
    simp
  rw [readParts, hattach]
  refine congrArg Parsed.join (List.map_congr_left fun s _ => ?_)
  obtain ⟨segment, hsegment⟩ := s
  cases segment <;> rfl

theorem readParts_nil (index : LineIndex) (number indent : Nat) :
    readParts index number indent [] = ⟨[], []⟩ := by
  rw [readParts_eq]
  rfl

/-! ## Places -/

/-- A search gives the same wherever it starts. -/
theorem Alike.same {w : Locating (List Node)} (h : Alike SameNodes w w) (c c' : Cursor) :
    (Locating.from w c).Same (Locating.from w c') := by
  obtain ⟨hnodes, noted, hc, hc'⟩ := h { cursor := c } { cursor := c' }
  exact ⟨hnodes, hc.trans hc'.symm⟩

variable (index index' : LineIndex)

theorem readMarkdown_same (ls : List (List Char)) (number number' indent indent' : Nat) :
    (readMarkdown index ls number indent).Same (readMarkdown index' ls number' indent') := by
  unfold readMarkdown
  dsimp only
  split
  · exact ⟨rfl, rfl⟩
  · exact (markdownNodes_alike _).same _ _

theorem readCallLine_same {c d : BlockCall} (hline : c.line = d.line) (hhead : c.head = d.head)
    (indent indent' : Nat) :
    (readCallLine index c indent).Same (readCallLine index' d indent') := by
  unfold readCallLine
  rw [hline, hhead]
  dsimp only
  split
  · exact ⟨rfl, rfl⟩
  · exact (inlineNodes_alike _).same _ _

theorem callNode_same {c d : BlockCall} (hhead : c.head = d.head) (hbody : c.body = d.body)
    (indent indent' : Nat) {onLine onLine' below below' : List Node}
    (honLine : SameNodes onLine onLine') (hbelow : SameNodes below below') :
    SameNode (callNode index c indent onLine below) (callNode index' d indent' onLine' below') := by
  have hempty : onLine.isEmpty = onLine'.isEmpty := by
    have hlength := congrArg List.length honLine
    simp only [bareAll_eq_map, List.length_map] at hlength
    rw [Bool.eq_iff_iff, List.isEmpty_iff_length_eq_zero, List.isEmpty_iff_length_eq_zero, hlength]
  have hfirst : SameNodes
      (if onLine.isEmpty || c.body.isEmpty then onLine else [.paragraph onLine (coverNodes onLine)])
      (if onLine'.isEmpty || d.body.isEmpty then onLine'
        else [.paragraph onLine' (coverNodes onLine')]) := by
    rw [hempty, hbody]
    split
    · exact honLine
    · apply SameNodes.single
      rw [SameNode, bare, bare, honLine]
  unfold callNode
  simp only [SameNode, bare, bareAll_append, hfirst, hbelow, hhead, List.map_map]
  rfl

/-- Segments that differ in their numbers read the same, if the bodies of calls do. -/
private theorem readSegment_same {s t : Segment} (h : s.unnumbered = t.unnumbered)
    (indent indent' : Nat)
    (hbody : ∀ c, s = .call c → ∀ number number' indent indent' removed,
      (readParts index number indent (c.body.map (List.drop removed))).Same
        (readParts index' number' indent' (c.body.map (List.drop removed)))) :
    (readSegment index indent s).Same (readSegment index' indent' t) := by
  cases s with
  | markdown ls number =>
      cases t with
      | call d => cases h
      | markdown ls' number' =>
          obtain rfl : ls = ls' := by simpa [Segment.unnumbered] using h
          exact readMarkdown_same index index' ls number number' indent indent'
  | call c =>
      cases t with
      | markdown ls number => cases h
      | call d =>
          simp only [Segment.unnumbered, Segment.call.injEq, BlockCall.mk.injEq] at h
          obtain ⟨hhead, hline, -, hlines⟩ := h
          have honLine := readCallLine_same index index' hline hhead indent indent'
          have hbelow := hbody c rfl (c.number + 1) (d.number + 1) (indent + commonIndent c.body)
            (indent' + commonIndent c.body) (commonIndent c.body)
          simp only [readSegment, ← hlines]
          refine ⟨SameNodes.single ?_, ?_⟩
          · exact callNode_same index index' hhead hlines indent indent' honLine.nodes hbelow.nodes
          · simp only [List.map_append, honLine.messages, hbelow.messages]

/-- **Lines read the same wherever they stand.** -/
theorem readParts_same (number number' indent indent' : Nat) (ls : List (List Char)) :
    (readParts index number indent ls).Same (readParts index' number' indent' ls) := by
  -- By induction on the number of lines: the body of a call has fewer.
  induction hlength : ls.length using Nat.strong_induction_on
    generalizing number number' indent indent' ls with
  | _ n ih =>
    subst hlength
    rw [readParts_eq, readParts_eq]
    have hshort : ∀ c, Segment.call c ∈ segments number ls → c.body.length < ls.length :=
      fun c hc => body_length_lt hc
    have hsegments : (segments number ls).map Segment.unnumbered =
        (segments number' ls).map Segment.unnumbered :=
      segmentsFrom_unnumbered none [] number number' 0 ls
    generalize segments number ls = ss at hshort hsegments ⊢
    generalize segments number' ls = tt at hsegments ⊢
    induction ss generalizing tt with
    | nil =>
        cases tt with
        | nil => exact ⟨rfl, rfl⟩
        | cons t tt => cases hsegments
    | cons s ss ihs =>
        cases tt with
        | nil => cases hsegments
        | cons t tt =>
            rw [List.map_cons, List.map_cons, List.cons.injEq] at hsegments
            rw [List.map_cons, List.map_cons, Parsed.join_cons, Parsed.join_cons]
            refine Parsed.Same.append (readSegment_same index index' hsegments.1 indent indent' ?_)
              (ihs (fun c hc => hshort c (by simp [hc])) tt hsegments.2)
            rintro c rfl number number' indent indent' removed
            exact ih _ (by simpa using hshort c (by simp)) number number' indent indent' _ rfl

open Livedoc.Call

/-! ## A call between lines -/

/-- **Lines around a complete call read as they do on their own.** -/
theorem readParts_append_call {line : List Char} {head : Head}
    (hhead : headAt? 0 line = some head) (hcall : head.isCall = true)
    {before after : List (List Char)} (hopen : openFence? before = none)
    (hbody : indentedLines after = []) (index index₁ index₂ index₃ : LineIndex)
    (number number₁ number₂ number₃ indent : Nat) :
    (readParts index number indent (before ++ line :: after)).Same
      (((readParts index₁ number₁ indent before).append (readParts index₂ number₂ indent [line])).append
        (readParts index₃ number₃ indent after)) := by
  have hline : ∀ n, readParts index n indent [line] =
      .join [readSegment index indent (.call { head, line, number := n, body := [] })] := by
    intro n
    have halone := segments_append_call [] [] hhead hcall rfl rfl n
    rw [List.nil_append] at halone
    rw [readParts_eq, halone]
    rfl
  have hsplit : readParts index number indent (before ++ line :: after) =
      ((readParts index number indent before).append
        (readParts index (number + before.length) indent [line])).append
        (readParts index (number + before.length + 1) indent after) := by
    rw [readParts_eq, segments_append_call before after hhead hcall hopen hbody, hline,
      readParts_eq index number indent before, readParts_eq index _ indent after]
    rw [List.map_append, List.map_cons, ← List.singleton_append, Parsed.join_append,
      Parsed.join_append, Parsed.append_assoc]
  rw [hsplit]
  exact ((readParts_same _ _ _ _ _ _ _).append (readParts_same _ _ _ _ _ _ _)).append
    (readParts_same _ _ _ _ _ _ _)

/-! ## A call between sources -/

/-- What a source reads as is what its lines read as, their labels rewritten. -/
theorem read_content {source : String} (h : '\r' ∉ source.toList) :
    (read source).content =
      readParts (.ofText source.toList) 1 0 (markLabels false (lines source.toList)) := by
  rw [read, normalizeBreaks_of_not_mem h, lines_normalizeQuotes]
  rfl

/-- Whether a fence is open, for the division into segments, at the end of a source. -/
def endsInFence (source : String) : Bool :=
  (openFence? (lines (normalizeQuotes (normalizeBreaks source.toList)))).isSome

/-- Whether the first line of a source that is not blank is indented. -/
def startsIndented (source : String) : Bool :=
  ((lines (normalizeBreaks source.toList)).find? fun l => !allBlank l).any fun l => l.head?.any isGap

/-- What comes after a call is no body if its first line that is not blank is not indented. -/
private theorem indentedLines_markLabels {source : String} (h : '\r' ∉ source.toList)
    (hflush : startsIndented source = false) :
    indentedLines (markLabels false (lines source.toList)) = [] := by
  refine indentedLines_eq_nil fun line hline => ?_
  have hfirst := head?_find?_markLabels (lines source.toList) false
  rw [Option.mem_def.mp hline, Option.map_some, eq_comm, Option.map_eq_some_iff] at hfirst
  obtain ⟨first, hfirst, hhead⟩ := hfirst
  rw [startsIndented, normalizeBreaks_of_not_mem h, hfirst] at hflush
  rw [← hhead]
  exact hflush

/-- **A block call is a barrier**: where no fence is open at the end of the text before a
complete call and the text after it does not start indented, the nodes of the whole are those of
the text before, of the call, and of the text after, and so are the messages of the mistakes. -/
theorem read_append_call {a c b : String} {head : Head} (ha : '\r' ∉ a.toList)
    (hb : '\r' ∉ b.toList) (hc : '\n' ∉ c.toList ∧ '\r' ∉ c.toList)
    (hhead : scan c.toList 0 = some head) (hcall : head.isCall = true)
    (hfence : endsInFence a = false) (hflush : startsIndented b = false) :
    sameAll (read (a ++ "\n" ++ c ++ "\n" ++ b)).result.children
        ((read a).result.children ++ (read c).result.children ++ (read b).result.children) = true ∧
      (read (a ++ "\n" ++ c ++ "\n" ++ b)).mistakes.map (·.message) =
        (read a).mistakes.map (·.message) ++ (read c).mistakes.map (·.message) ++
          (read b).mistakes.map (·.message) := by
  have hhead : headAt? 0 c.toList = some head := hhead
  obtain ⟨rest, hdot⟩ := headAt?_dot hhead
  have hunquoted : takeQuoteMark? c.toList = none := by
    rw [hdot]
    exact takeQuoteMark?_cons (by decide) (by decide) rest
  -- The whole is the lines of both texts with the call between them.
  have htext : (a ++ "\n" ++ c ++ "\n" ++ b).toList =
      a.toList ++ '\n' :: (c.toList ++ '\n' :: b.toList) := by
    simp
  have hlines : markLabels false (lines (a ++ "\n" ++ c ++ "\n" ++ b).toList) =
      markLabels false (lines a.toList) ++ c.toList :: markLabels false (lines b.toList) := by
    rw [htext, lines_append, lines_append, lines_of_newline_not_mem hc.1, List.singleton_append,
      markLabels_append_cons hunquoted]
  have hwhole : '\r' ∉ (a ++ "\n" ++ c ++ "\n" ++ b).toList := by
    rw [htext]
    simp [ha, hb, hc.2]
  have hcontent : (read c).content = readParts (.ofText c.toList) 1 0 [c.toList] := by
    rw [read_content hc.2, lines_of_newline_not_mem hc.1, markLabels_of_unquoted]
    simpa using hunquoted
  have hopen : openFence? (markLabels false (lines a.toList)) = none := by
    rw [endsInFence, normalizeBreaks_of_not_mem ha, lines_normalizeQuotes] at hfence
    simpa using hfence
  have hsame : (read (a ++ "\n" ++ c ++ "\n" ++ b)).content.Same
      (((read a).content.append (read c).content).append (read b).content) := by
    rw [read_content hwhole, hlines, read_content ha, hcontent, read_content hb]
    exact readParts_append_call hhead hcall hopen (indentedLines_markLabels hb hflush) _ _ _ _ _ _ _ _ _
  refine ⟨(sameAll_iff _ _).mpr hsame.nodes, ?_⟩
  rw [← List.map_append, ← List.map_append]
  exact hsame.messages

/-- A call between a fence that is closed and a heading. -/
theorem read_append_call_fence_heading :
    sameAll (read "> Note: q\n```\nx\n```\n.var \x7bx\x7d tail\n\n# H").result.children
      ((read "> Note: q\n```\nx\n```").result.children ++
        (read ".var \x7bx\x7d tail").result.children ++ (read "\n# H").result.children) = true :=
  (read_append_call (a := "> Note: q\n```\nx\n```") (b := "\n# H") (c := ".var \x7bx\x7d tail")
    (by decide) (by decide) (by decide) rfl rfl (by decide) (by decide)).1

end Livedoc.Document
