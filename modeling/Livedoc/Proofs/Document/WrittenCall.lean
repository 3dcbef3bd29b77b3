import Livedoc.Proofs.Call.Balanced
import Livedoc.Proofs.Call.Spelling
import Livedoc.Proofs.Document.Reading

/-!
# A written call reads as the call

The three readers of call heads agree on what is written: the reader of heads, the markup
within a line, and the division into segments.  Each takes the whole text of a call for the
call and nothing else (`read_spelling`), whatever its values hold: braces, backslashes before
braces, Markdown, further calls.

The argument of a call may hold a call, which is read when the argument is resolved.  The braces of
an inner call balance, so that it is the whole argument of the call around it.  But the argument is
not the text of the inner call.  Reading the outer call takes the backslashes before braces away, also
those within the groups of the inner call, which are missing when it is read in turn.  The inner call
is kept as it was written exactly if no brace in it is escaped (`scan_innerCall`).
-/

namespace Livedoc.Document

open Livedoc.Call Livedoc.Markdown Livedoc.Source Livedoc.Text Livedoc.Tree Livedoc.Tree.Node

/-! ## The node of a call -/

/-- The node that a written call stands for, without any place. -/
def spelledNode (c : Spelling) : Node :=
  .call (String.ofList c.name)
    ((c.groups.filter (·.key.isNone)).map fun g => { content := String.ofList g.value })
    ((c.groups.filter (·.key.isSome)).map fun g =>
      { name := String.ofList (g.key.getD []), value := { content := String.ofList g.value } })
    [] .unknown

theorem bare_spelledNode (c : Spelling) : (spelledNode c).bare = spelledNode c := by
  simp only [spelledNode, bare, bareAll, List.map_map]
  rfl

/-- The arguments of a written call, wherever they stand. -/
private theorem bare_arguments (c : Spelling) (place : Group → Span) :
    (c.head.positional.map fun g => { content := g.value, span := place g : Argument }).map
        Argument.bare =
      (c.groups.filter (·.key.isNone)).map fun g => { content := String.ofList g.value } := by
  have hgroups := groupsAt_filter_map Option.isNone (fun _ value => { content := value : Argument })
    c.groups (1 + c.name.length)
  simp only [Option.isNone_map] at hgroups
  rw [List.map_map]
  exact hgroups

/-- The keyed arguments of a written call, wherever they stand. -/
private theorem bare_namedArguments (c : Spelling) (place : Group → Span) :
    (c.head.keyed.map fun g =>
      { name := g.key.getD "", value := { content := g.value, span := place g }
        span := place g : NamedArgument }).map NamedArgument.bare =
      (c.groups.filter (·.key.isSome)).map fun g =>
        { name := String.ofList (g.key.getD []), value := { content := String.ofList g.value } } := by
  have hgroups := groupsAt_filter_map Option.isSome
    (fun key value => { name := key.getD "", value := { content := value } : NamedArgument })
    c.groups (1 + c.name.length)
  have hkey : ∀ key : Option (List Char),
      (key.map String.ofList).getD "" = String.ofList (key.getD []) := by
    rintro (_ | key) <;> rfl
  simp only [Option.isSome_map, hkey] at hgroups
  rw [List.map_map]
  exact hgroups

/-! ## Within a line -/

/-- The markup of a text that is a head from start to end is the head. -/
theorem readInline_head {cs : List Char} {head : Head} (h : headAt? 0 cs = some head)
    (hstop : head.stop = cs.length) : readInline [] cs = [.call head cs] := by
  obtain ⟨rest, rfl⟩ : ∃ rest, cs = '.' :: rest := by
    unfold headAt? at h
    split at h
    · next rest => exact ⟨rest, rfl⟩
    · cases h
  have hleaf : leaf? .empty ('.' :: rest) = some (.call head ('.' :: rest), []) := by
    have hspan : callSpan? none ('.' :: rest) = some (.call head ('.' :: rest), []) := by
      rw [callSpan?, if_pos (by rfl), h, Option.map_some, hstop, List.take_length,
        List.drop_length]
    exact hspan
  -- The call is the first piece, and nothing is left after it.
  have hread : readFrom [] ('.' :: rest).length .empty ('.' :: rest) =
      (LineReading.empty.addLeaf (.call head ('.' :: rest))).passed ('.' :: rest) [] := by
    have hstep : stepInline [] .empty '.' rest =
        ((LineReading.empty.addLeaf (.call head ('.' :: rest))).passed ('.' :: rest) [], []) := by
      unfold stepInline
      rw [hleaf]
    have hend : ∀ rounds r, readFrom [] rounds r [] = r := by
      rintro (_ | rounds) r <;> rfl
    rw [List.length_cons, readFrom, hstep]
    exact hend _ _
  rw [readInline, if_neg (by simp), hread]
  rfl

/-- The markup of the text of a call is the call. -/
theorem readInline_spelling (c : Spelling) : readInline [] c.text = [.call c.head c.text] :=
  readInline_head c.headAt?_text rfl

/-- The node of the head of a written call is the call. -/
private theorem headNode_spelling (c : Spelling) (raw : List Char) (s : Search) :
    SameNode (headNode c.head raw s).1 (spelledNode c) := by
  have hproblem : c.head.problem? = none := rfl
  unfold headNode
  rw [hproblem, c.head_isCall, SameNode, bare_spelledNode]
  show (Node.call ..).bare = _
  rw [bare, bare_arguments, bare_namedArguments]
  rfl

/-- A written call is read within a line as the call. -/
theorem readLine_spelling (c : Spelling) :
    SameNodes (readLine (String.ofList c.text)) [spelledNode c] := by
  unfold readLine
  dsimp only
  rw [String.toList_ofList, readInline_spelling]
  exact SameNodes.single (headNode_spelling c _ _)

/-! ## On a line of its own -/

/-- A written call on a line of its own is read as the call. -/
theorem readParts_spelling (c : Spelling) (index : LineIndex) (number indent : Nat) :
    (readParts index number indent [c.text]).Same ⟨[spelledNode c], []⟩ := by
  have hsegments : segments number [c.text] =
      [.call { head := c.head, line := c.text, number, body := [] }] :=
    segments_append_call [] [] c.headAt?_text c.head_isCall rfl rfl number
  have hrest : c.text.drop c.head.stop = [] := List.drop_length
  have hcallLine : readCallLine index { head := c.head, line := c.text, number, body := [] } indent =
      ⟨[], []⟩ := by
    simp only [readCallLine, hrest]
    rfl
  rw [readParts_eq, hsegments]
  rw [List.map_cons, List.map_nil, Parsed.join_cons]
  simp only [readSegment, hcallLine, List.map_nil, readParts_nil]
  refine ⟨SameNodes.single ?_, rfl⟩
  rw [SameNode, bare_spelledNode, callNode, bare, bare_arguments, bare_namedArguments]
  rfl

/-- **A written call is read back as it was meant**, by every reader of calls.  The head has
the name and the groups, and its offsets cut them out of the text; within a line the text is
this call and nothing else; and so it is as a document, if it is a single line. -/
theorem read_spelling (c : Spelling) :
    (∃ head, scan c.text 0 = some head ∧ head.problem? = none ∧
      head.name = String.ofList c.name ∧
      head.groups.map (fun g => (g.key, g.value)) =
        c.groups.map (fun g => (g.key.map String.ofList, String.ofList g.value)) ∧
      head.start = 0 ∧ head.stop = c.text.length ∧
      head.groups.map (fun g => (c.text.take g.stop).drop g.start) =
        c.groups.map GroupSpelling.own) ∧
    sameAll (readLine (String.ofList c.text)) [spelledNode c] = true ∧
    ((∀ g ∈ c.groups, '\n' ∉ g.value ∧ '\r' ∉ g.value) →
      sameAll (read (String.ofList c.text)).result.children [spelledNode c] = true ∧
        (read (String.ofList c.text)).mistakes = []) := by
  refine ⟨⟨c.head, c.headAt?_text, rfl, rfl, c.head_map_value, rfl, rfl, c.head_map_slice⟩, ?_, ?_⟩
  · exact (sameAll_iff _ _).mpr (readLine_spelling c)
  · intro hvalues
    have hnewline : '\n' ∉ c.text :=
      c.not_mem_text (by decide) (by decide) (by decide) fun g hg => (hvalues g hg).1
    have hreturn : '\r' ∉ (String.ofList c.text).toList := by
      rw [String.toList_ofList]
      exact c.not_mem_text (by decide) (by decide) (by decide) fun g hg => (hvalues g hg).2
    have hunquoted : takeQuoteMark? c.text = none :=
      takeQuoteMark?_cons (by decide) (by decide) _
    have hcontent := read_content hreturn
    rw [String.toList_ofList, lines_of_newline_not_mem hnewline,
      markLabels_of_unquoted (by simpa using hunquoted)] at hcontent
    have hsame := readParts_spelling c (.ofText c.text) 1 0
    rw [← hcontent] at hsame
    exact ⟨(sameAll_iff _ _).mpr hsame.nodes, List.map_eq_nil_iff.mp hsame.messages⟩

/-- A call whose values hold braces, markup and another call. -/
theorem read_spelling_nested_text :
    sameAll (read ".var \x7ba \\\x7d *b*\x7d to:\x7b.x \\\x7b1\x7d").result.children
      [.call "var" [{ content := "a \x7d *b*" }]
        [{ name := "to", value := { content := ".x \x7b1" } }] [] .unknown] = true :=
  ((read_spelling
    { name := "var".toList
      groups :=
        [{ gap := [' '], key := none, value := "a \x7d *b*".toList, gap_isGap := rfl
           key_isName := rfl, value_ends := by decide },
         { gap := [' '], key := some "to".toList, value := ".x \x7b1".toList, gap_isGap := rfl
           key_isName := rfl, value_ends := by decide }]
      name_isName := rfl
      groups_ne_nil := by simp
      apart := by simp }).2.2 (by decide)).1

/-! ## Calls within arguments -/

open Livedoc.Call Livedoc.Markdown Livedoc.Source Livedoc.Tree

/-- The call that a head stands for, at a place. -/
def callOf (head : Head) (span : Span) : Node :=
  .call head.name (head.positional.map fun g => { content := g.value, span })
    (head.keyed.map fun g => { name := g.key.getD "", value := { content := g.value, span }, span })
    [] span

/-- A text that is a call from start to end is read within a line as the call. -/
theorem readLine_head {text : List Char} {head : Head} (hscan : scan text 0 = some head)
    (hgroups : head.groups ≠ []) (hproblem : head.problem? = none)
    (hstop : head.stop = text.length) :
    ∃ span, readLine (String.ofList text) = [callOf head span] := by
  have hread : readInline [] text = [.call head text] := readInline_head hscan hstop
  have hcall : head.isCall = true := by
    rw [Head.isCall, Head.problem?_eq_none_iff.mp hproblem]
    simpa using hgroups
  have hnode (raw : List Char) (c : Cursor) :
      ∃ span, ((headNode head raw).from c).result = callOf head span := by
    unfold headNode
    rw [hproblem, hcall]
    exact ⟨_, rfl⟩
  obtain ⟨span, hspan⟩ := hnode text (.ofText (.ofText text) text 1 0)
  refine ⟨span, ?_⟩
  unfold readLine
  dsimp only
  rw [String.toList_ofList, hread, ← hspan]
  rfl

/-- **An inner call is the whole argument of the call around it, but without the backslashes before
its braces.**  The argument is the text of the inner call exactly if no brace in it is escaped, and
then it is read as the inner call, with the same name and the same arguments. -/
theorem scan_innerCall {name inner : List Char} {head : Head} (hname : isName name = true)
    (hscan : scan inner 0 = some head) (hgroups : head.groups ≠ [])
    (hproblem : head.problem? = none) (hstop : head.stop = inner.length) :
    (∃ outer, scan (around name inner) 0 = some outer ∧ outer.problem? = none ∧
      outer.name = String.ofList name ∧ outer.stop = (around name inner).length ∧
      outer.groups =
        [⟨none, String.ofList (unescapeBraces inner), name.length + 2, outer.stop⟩]) ∧
    (unescapeBraces inner = inner ↔ ∀ brace ∈ ['{', '}'], ¬['\\', brace] <:+: inner) ∧
    (unescapeBraces inner = inner →
      ∃ span, readLine (String.ofList (unescapeBraces inner)) = [callOf head span]) := by
  have hbalanced := Balanced.of_scan hscan hproblem hstop
  refine ⟨⟨_, hbalanced.scan_around hname, rfl, rfl, rfl, rfl⟩, unescapeBraces_eq_self_iff, ?_⟩
  intro h
  rw [h]
  exact readLine_head hscan hgroups hproblem hstop

/-- An inner call with a keyed group, in which a further call stands. -/
theorem scan_innerCall_nested :
    let inner := ".add \x7b1\x7d to:\x7b.x \x7b2\x7d\x7d".toList
    let head : Head :=
      ⟨"add", [⟨none, "1", 5, 8⟩, ⟨some "to", ".x \x7b2\x7d", 9, 20⟩], 0, 20, false⟩
    isName ['f'] = true ∧ scan inner 0 = some head ∧ head.groups ≠ [] ∧ head.problem? = none ∧
      head.stop = inner.length ∧
      (∃ outer, scan (around ['f'] inner) 0 = some outer ∧
        outer.groups = [⟨none, String.ofList inner, 3, 25⟩]) ∧
      ∃ span, readLine (String.ofList inner) = [callOf head span] := by
  intro inner head
  have hscan : scan inner 0 = some head := rfl
  obtain ⟨⟨outer, houter, -, -, hstop, hgroups⟩, -, hread⟩ :=
    scan_innerCall (show isName ['f'] = true from rfl) hscan (by decide) rfl rfl
  refine ⟨rfl, hscan, by decide, rfl, rfl, ⟨outer, houter, ?_⟩, hread rfl⟩
  rw [hgroups, hstop]
  rfl

/-- An escaped brace of the inner call is not escaped in the argument, so that the group of the inner
call ends there and has another value. -/
theorem innerCall_escaped_brace :
    let inner := ".g \x7b\\\x7d\x7d".toList
    let argument := ".g \x7b\x7d\x7d"
    scan inner 0 = some ⟨"g", [⟨none, "\x7d", 3, inner.length⟩], 0, inner.length, false⟩ ∧
      scan (around ['f'] inner) 0 = some ⟨"f", [⟨none, argument, 3, 12⟩], 0, 12, false⟩ ∧
      argument ≠ String.ofList inner ∧
      scan argument.toList 0 = some ⟨"g", [⟨none, "", 3, 5⟩], 0, 5, false⟩ :=
  ⟨rfl, rfl, by decide, rfl⟩

end Livedoc.Document
