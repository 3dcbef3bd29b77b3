import Livedoc.Proofs.Compilation.Ranges
import Livedoc.Proofs.Compilation.Strict
import Livedoc.Proofs.Expansion.Placed
import Livedoc.Proofs.Expansion.Static
import Livedoc.Proofs.Html.Containment

/-!
# Blocks in the paragraphs of a compilation, and its diagrams

A call within a line of the source is replaced by what it gives, and this may be a block.  The
document that is rendered then has a block within a line, and the paragraph that the line becomes is
broken; and code that would be a diagram is written like other code there, while the page loads the
script that draws diagrams all the same.  Both are so for such documents only
(`compile_breaksParagraph`, `compile_diagrams`), and no document is such a one if no call stands
within a line of the source or of a file that can be included: then blocks come from blocks alone.

Of a document that a source expands to it is known in any case that nothing in it is dynamic and
that its list items stand in lists (`Compilation.Renders.orderly`).
-/

namespace Livedoc.Tree.Node

variable {p : Place} {n : Node}

/-! ## Lines without blocks -/

theorem isPhrase_of_line (h : Placed (Suits fun _ => False) .line n) : n.isPhrase = true :=
  (h.self.line rfl).resolve_right id

/-- What belongs within a line brings no block into it. -/
theorem bringsBlock_of_line (h : Placed (Suits fun _ => False) p n) (hp : p = .line) :
    n.bringsBlock = false := by
  induction h with
  | @intro p n self children ih =>
      subst hp
      have hphrase := (self.line rfl).resolve_right id
      cases n with
      | emphasis cs | link _ cs =>
          rw [bringsBlock, bringBlock_eq_any, List.any_eq_false]
          exact fun c hc => by simp [ih c hc rfl]
      | text | code | math | image | lineBreak | reference => rfl
      | _ => cases hphrase

/-- So what starts a paragraph brings no block into it. -/
theorem bringsBlock_of_startsParagraph {c : Node} (h : Placed (Suits fun _ => False) p c)
    (hp : p ≠ .argument) (hstarts : n.startsParagraph c = true) : c.bringsBlock = false := by
  have hkind : c.isParagraph = true ∨ c.isInline = true := by
    simp only [startsParagraph, Bool.and_eq_true, Bool.or_eq_true] at hstarts
    exact hstarts.2.imp_right And.right
  have hline (hholds : c.holdsLine = true) : (c.children.any bringsBlock) = false := by
    have hchild := h.child
    rw [Placed.childPlace_of_holdsLine hp hholds] at hchild
    exact List.any_eq_false.mpr fun m hm => by simp [bringsBlock_of_line (hchild m hm) rfl]
  cases c with
  | paragraph cs | emphasis cs | link _ cs =>
      rw [bringsBlock, bringBlock_eq_any]
      exact hline rfl
  | text | code | math | image | lineBreak | reference => rfl
  | _ => simp [isParagraph, isInline] at hkind

theorem breaks_of_placed (h : Placed (Suits fun _ => False) p n) (hp : p ≠ .argument) :
    n.breaks = false := by
  rw [breaks, List.any_eq_false]
  intro m hm
  obtain ⟨q, hq, hplaced⟩ := h.walk hp m hm
  rw [Bool.not_eq_true, List.any_eq_false]
  intro c hc hboth
  obtain ⟨hstarts, hbrings⟩ := Bool.and_eq_true_iff.mp hboth
  rw [bringsBlock_of_startsParagraph (hplaced.child c hc) (Placed.childPlace_ne_argument hq)
    hstarts] at hbrings
  cases hbrings

/-- A diagram does not belong within a line. -/
theorem isDiagram_of_line (h : Placed (Suits fun _ => False) .line n) : n.isDiagram = false := by
  have hphrase := isPhrase_of_line h
  have hread := h.self.readable
  cases n with
  | code content language inline s =>
      have hinline : inline = true := hphrase
      subst hinline
      cases language with
      | none => rfl
      | some language => simp [isReadable] at hread
  | _ => rfl

/-- Diagrams are found below nodes as they are found below each. -/
theorem any_walk_isDiagram {ns : List Node}
    (h : ∀ c ∈ ns, c.walk.any isDiagram = (c.isDiagram || c.draws)) :
    (ns.any fun c => c.walk.any isDiagram) = (ns.any isDiagram || ns.any draws) := by
  rw [← any_or, Bool.eq_iff_iff, List.any_eq_true, List.any_eq_true]
  exact exists_congr fun c => and_congr_right fun hc => by rw [h c hc]

/-- So every diagram below a node stands among blocks. -/
theorem any_isDiagram_walk (h : Placed (Suits fun _ => False) p n) (hp : p ≠ .argument) :
    n.walk.any isDiagram = (n.isDiagram || n.draws) := by
  induction h with
  | @intro p n self children ih =>
      have hbelow := any_walk_isDiagram fun c hc => ih c hc (Placed.childPlace_ne_argument hp)
      have hline (hholds : n.holdsLine = true) : n.children.any isDiagram = false := by
        rw [Placed.childPlace_of_holdsLine hp hholds] at children
        exact List.any_eq_false.mpr fun c hc => by simp [isDiagram_of_line (children c hc)]
      rw [any_walk, draws_eq, hbelow]
      cases hholds : n.holdsLine with
      | false => rfl
      | true => rw [hline hholds]; rfl

end Livedoc.Tree.Node

namespace Livedoc

open Livedoc.Html Livedoc.Tree Livedoc.Tree.Node

/-! ## Documents in order -/

namespace Tree.Document

variable {d : Document}

/-- A document without dynamic nodes is one of regular nodes if its nodes are in order, whatever
stands within its lines. -/
theorem orderly_of_ordered (hstatic : d.toNode.containsDynamic = false)
    (h : Ordered True .block d.children) : d.Orderly := by
  intro n hn
  have hitem {q : Place} {m : Node} (hm : Placed (Suits fun _ => True) q m) (hq : q ≠ .argument)
      (hplace : q ≠ .item) : m.isListItem = false := by
    rw [Bool.eq_false_iff, ne_eq, hm.self.item hq]
    exact hplace
  refine ⟨fun m hm => ?_, hitem (h n hn) (by decide) (by decide)⟩
  obtain ⟨q, hq, hplaced⟩ := (h n hn).walk (by decide) m hm
  have hread := hplaced.self.readable
  refine ⟨⟨?_, ?_⟩, hread, fun hlist c hc => ?_⟩
  · rw [containsDynamic, List.any_eq_false] at hstatic
    refine Bool.eq_false_iff.mpr (hstatic m (mem_walk.mpr (.inr ⟨n, ?_, hm⟩)))
    exact hn
  · cases m with
    | document => cases hread
    | _ => rfl
  · refine hitem (hplaced.child c hc) (Placed.childPlace_ne_argument hq) ?_
    unfold childPlace
    rw [hlist]
    split_ifs <;> first | decide | contradiction

theorem breaks_of_ordered (h : Ordered False .block d.children) : d.toNode.breaks = false := by
  rw [breaks_eq, Bool.or_eq_false_iff, List.any_eq_false, List.any_eq_false]
  constructor
  · intro c hc hboth
    obtain ⟨hstarts, hbrings⟩ := Bool.and_eq_true_iff.mp hboth
    rw [bringsBlock_of_startsParagraph (h c hc) (by decide) hstarts] at hbrings
    cases hbrings
  · exact fun c hc => Bool.eq_false_iff.mp (breaks_of_placed (h c hc) (by decide))

theorem draws_of_ordered (h : Ordered False .block d.children) :
    d.toNode.walk.any isDiagram = d.toNode.draws := by
  rw [any_walk, draws_eq]
  exact any_walk_isDiagram fun c hc => any_isDiagram_walk (h c hc) (by decide)

end Tree.Document

/-! ## Sources in order -/

/-- What is found is at one of the paths. -/
theorem Files.exists_look {files : Files} {paths : List Path} {path : Path} {text : String}
    (h : files.search paths = .found path text) :
    ∃ p ∈ paths, files.look p = some (.text text) := by
  induction paths with
  | nil => cases h
  | cons p rest ih =>
      unfold Files.search at h
      split at h
      · next found hlook =>
          cases h
          exact ⟨p, by simp, hlook⟩
      · cases h
      all_goals
        obtain ⟨q, hq, hlook⟩ := ih h
        exact ⟨q, by simp [hq], hlook⟩

/-- Of files that are held in memory those can be included that are held. -/
theorem CompileOptions.HasFile.mem_texts {o : CompileOptions} {texts : List (Path × String)}
    {text : String} (h : o.HasFile text) (hfiles : o.files = .ofTexts texts) :
    text ∈ texts.map Prod.snd := by
  obtain ⟨paths, path, hfound⟩ := h
  obtain ⟨p, -, hlook⟩ := Files.exists_look hfound
  rw [hfiles, Files.ofTexts, Option.some.injEq] at hlook
  cases hlookup : texts.lookup (Path.resolve .root p) with
  | none =>
      rw [hlookup] at hlook
      cases hlook
  | some found =>
      rw [hlookup] at hlook
      cases hlook
      obtain ⟨before, after, htexts, -⟩ := List.lookup_eq_some_iff.mp hlookup
      simp [htexts]

/-- Whether no call stands within a line of a source. -/
def linesWithoutCalls (source : String) : Bool :=
  (Document.read source).result.toNode.walk.all fun n =>
    !n.holdsLine || n.children.all fun c => !c.isCall

theorem read_ordered_of_linesWithoutCalls {source : String} (h : linesWithoutCalls source = true) :
    Ordered False .block (Document.read source).result.children := by
  have hlines : ∀ n ∈ (Document.read source).result.toNode.walk, n.holdsLine = true →
      ∀ c ∈ n.children, c.isCall = false := by
    intro n hn hholds c hc
    have hnode := List.all_eq_true.mp h n hn
    rw [hholds, Bool.not_true, Bool.false_or] at hnode
    simpa using List.all_eq_true.mp hnode c hc
  intro n hn
  refine placed_of_linesWithoutCalls (Document.read_written source n hn) (by decide) ?_ nofun
  exact fun m hm => hlines m (mem_walk.mpr (.inr ⟨n, hn, hm⟩))

theorem read_ordered (source : String) :
    Ordered True .block (Document.read source).result.children :=
  AllPlaced.mono (Document.read_written source) fun _ _ => trivial

namespace Compilation

variable {mixed : Prop} {c : Compilation} {source : String} {o : CompileOptions} {d : Document}

/-- **What is rendered is in order** if the source and the files that can be included are. -/
theorem Renders.ordered (h : c.Renders source o d)
    (hsource : Ordered mixed .block (Document.read source).result.children)
    (hfiles : ∀ text, o.HasFile text → Ordered mixed .block (Document.read text).result.children) :
    Ordered mixed .block d.children := by
  obtain ⟨bindings, -, rfl⟩ := h.expanded
  refine Expansion.expandEach_ordered Expansion.expandNodes_keeps _ _ hsource ⟨?_, ?_⟩
  · intro name f hf
    cases hf
  · exact fun hfound => hfiles _ ⟨_, _, hfound⟩

theorem Renders.orderly (h : c.Renders source o d) : d.Orderly := by
  refine Document.orderly_of_ordered ?_ (h.ordered (read_ordered _) fun _ _ => read_ordered _)
  obtain ⟨bindings, -, rfl⟩ := h.expanded
  exact (Expansion.expansion_containsDynamic_eq_false _ _ []).1

/-- Without calls within lines, no block comes into a line. -/
theorem Renders.ordered_of_linesWithoutCalls (h : c.Renders source o d)
    (hsource : linesWithoutCalls source = true)
    (hfiles : ∀ text, o.HasFile text → linesWithoutCalls text = true) :
    Ordered False .block d.children :=
  h.ordered (read_ordered_of_linesWithoutCalls hsource)
    fun text htext => read_ordered_of_linesWithoutCalls (hfiles text htext)

/-! ## What is shown -/

/-- The document that the HTML shows, if it shows one. -/
def shown? (c : Compilation) : Option Document := if c.html = "" then none else c.document

/-- The HTML without the declaration that a page starts with. -/
def markup (c : Compilation) (standalone : Bool) : List Char :=
  if standalone then (c.html.toList.dropPrefix? declaration.toList).getD c.html.toList
  else c.html.toList

theorem markup_of_html {body : List Char} {standalone : Bool}
    (h : c.html.toList = (if standalone then declaration.toList else []) ++ body) :
    c.markup standalone = body := by
  cases standalone with
  | false => exact h
  | true =>
      have hdrop : c.html.toList.dropPrefix? declaration.toList = some body :=
        List.dropPrefix?_eq_some_iff.mpr ⟨_, h, beq_self_eq_true _⟩
      rw [markup, if_pos rfl, hdrop, Option.getD_some]

/-- A compilation shows nothing, and then there is no markup, or the document that it renders. -/
theorem shown?_cases (source : String) (o : CompileOptions) :
    ((compile source o).shown? = none ∧ (compile source o).markup o.standalone = []) ∨
      ∃ d, (compile source o).shown? = some d ∧ (compile source o).Renders source o d := by
  by_cases hempty : (compile source o).html = ""
  · refine .inl ⟨if_pos hempty, ?_⟩
    rw [markup, hempty]
    cases o.standalone <;> rfl
  · obtain ⟨d, hd⟩ := exists_renders hempty
    exact .inr ⟨d, (if_neg hempty).trans hd.document, hd⟩

/-- A page without errors shows its document. -/
theorem shown?_of_isOk (hpage : o.standalone = true) (hok : (compile source o).isOk = true) :
    (compile source o).shown? = (compile source o).document := by
  obtain ⟨-, hfailed⟩ | ⟨d, hd⟩ := compile_rendered source o
  · rw [hok] at hfailed
    cases hfailed
  · obtain ⟨info, hhtml⟩ := hd.html
    exact if_neg (hhtml ▸ render_standalone_ne hpage)

end Compilation

/-! ## Blocks in paragraphs -/

/-- **Where a paragraph holds a block.**  The markup of a compilation has a paragraph with a block
in it exactly if in the document that is shown a node that starts a paragraph brings a block into
it.  No node does so as long as no call stands within a line of the source or of a file that can be
included. -/
theorem compile_breaksParagraph (source : String) (o : CompileOptions) :
    ∃ found, readPieces? ((compile source o).markup o.standalone) = some found ∧
      (breaksParagraph [] found = true ↔
        ∃ d ∈ (compile source o).shown?, ∃ n ∈ d.toNode.walk, ∃ c ∈ n.children,
          n.startsParagraph c = true ∧ c.bringsBlock = true) ∧
      (linesWithoutCalls source = true → (∀ text, o.HasFile text → linesWithoutCalls text = true) →
        breaksParagraph [] found = false) := by
  rcases Compilation.shown?_cases source o with ⟨hnone, hmarkup⟩ | ⟨d, hshown, hd⟩
  · refine ⟨[], by rw [hmarkup]; rfl, ?_, fun _ _ => rfl⟩
    simp [hnone, breaksParagraph]
  · obtain ⟨info, hhtml⟩ := hd.html
    obtain ⟨body, found, hbody, hfound, hbreaks⟩ :=
      render_breaksParagraph hd.orderly (o.presentation info)
    refine ⟨found, ?_, ?_, fun hsource hfiles => ?_⟩
    · rw [Compilation.markup_of_html (hhtml ▸ hbody), hfound]
    · rw [hbreaks, hshown]
      simp [breaks]
    · rw [hbreaks]
      exact Document.breaks_of_ordered (hd.ordered_of_linesWithoutCalls hsource hfiles)

/-- A list that comes from a file is no part of the paragraph after it. -/
theorem compile_breaksParagraph_include :
    let o : CompileOptions :=
      { standalone := false, files := .ofTexts [(.ofText "/list.dd", "- a")]
        moment := ⟨2024, 3, 9, 14, 30, 0, 0⟩ }
    let source := ".include \x7blist.dd\x7d\n\nx .y"
    ∃ found, readPieces? ((compile source o).markup false) = some found ∧
      breaksParagraph [] found = false := by
  intro o source
  obtain ⟨found, hfound, -, hunbroken⟩ := compile_breaksParagraph source o
  refine ⟨found, hfound, hunbroken (by decide +kernel) fun text htext => ?_⟩
  rw [List.mem_singleton.mp (htext.mem_texts rfl)]
  decide +kernel

/-- A row within a line stands in the paragraph that the line becomes. -/
theorem compile_breaksParagraph_row :
    let c := compile "x .row {} y" { standalone := false, moment := ⟨2024, 3, 9, 14, 30, 0, 0⟩ }
    c.html = "<p>x <div class=\"dd-row alignment-start\"></div> y</p>\n" ∧
      (readPieces? (c.markup false)).map (breaksParagraph []) = some true := by decide +kernel

/-! ## Diagrams -/

/-- The diagrams and the script in the markup of a page, by the document that is shown. -/
theorem Compilation.Renders.diagrams {source : String} {o : CompileOptions} {d : Document}
    (h : (compile source o).Renders source o d) (hpage : o.standalone = true) :
    ∃ found, readPieces? ((compile source o).markup o.standalone) = some found ∧
      (diagramTag ∈ found ↔ d.toNode.draws = true) ∧
      (scriptTag diagramScript ∈ found ↔
        diagramScript ∈ o.scripts ∨ d.toNode.walk.any isDiagram = true) := by
  obtain ⟨info, hhtml⟩ := h.html
  have hstandalone : (o.presentation info).standalone = true := hpage
  obtain ⟨body, found, hbody, hfound, hdiagram, hscript⟩ := render_diagrams h.orderly hstandalone
  refine ⟨found, ?_, hdiagram, ?_⟩
  · have hparts : (compile source o).html.toList =
        (if o.standalone then declaration.toList else []) ++ body := by
      rw [hhtml, hbody, if_pos hpage]
    rw [Compilation.markup_of_html hparts, hfound]
  · rw [hscript, List.any_eq_true]
    rfl

/-- **The diagrams of a page and the script for them.**  A page holds a diagram exactly if in the
document that is shown code in the language of diagrams stands somewhere else than within a line,
and it loads the script exactly if such code stands anywhere, or if the caller asks for it.  So a
page with a diagram has the script.  A page with the script has a diagram as long as no call stands
within a line of the source or of a file that can be included, unless the caller asks for the
script. -/
theorem compile_diagrams (source : String) {o : CompileOptions} (hpage : o.standalone = true) :
    ∃ found, readPieces? ((compile source o).markup o.standalone) = some found ∧
      (diagramTag ∈ found ↔
        ∃ d ∈ (compile source o).shown?, ∃ n ∈ d.toNode.walk, n.holdsLine = false ∧
          ∃ c ∈ n.children, c.isDiagram = true) ∧
      (scriptTag diagramScript ∈ found ↔
        ∃ d ∈ (compile source o).shown?, diagramScript ∈ o.scripts ∨
          ∃ n ∈ d.toNode.walk, n.isDiagram = true) ∧
      (diagramTag ∈ found → scriptTag diagramScript ∈ found) ∧
      (diagramScript ∉ o.scripts → linesWithoutCalls source = true →
        (∀ text, o.HasFile text → linesWithoutCalls text = true) →
          (scriptTag diagramScript ∈ found ↔ diagramTag ∈ found)) := by
  rcases Compilation.shown?_cases source o with ⟨hnone, hmarkup⟩ | ⟨d, hshown, hd⟩
  · refine ⟨[], by rw [hmarkup]; rfl, ?_⟩
    simp [hnone]
  · obtain ⟨found, hfound, hdiagram, hscript⟩ := hd.diagrams hpage
    refine ⟨found, hfound, ?_, ?_, fun hmem => ?_, fun hnot hsource hfiles => ?_⟩
    · rw [hdiagram, hshown]
      simp [draws]
    · rw [hscript, hshown]
      simp
    · -- a diagram that does not stand within a line is a diagram
      rw [hdiagram, draws, List.any_eq_true] at hmem
      obtain ⟨n, hn, hdraws⟩ := hmem
      obtain ⟨c, hc, hcdiagram⟩ := List.any_eq_true.mp (Bool.and_eq_true_iff.mp hdraws).2
      exact hscript.mpr (.inr (List.any_eq_true.mpr ⟨c, mem_walk_of_child hn hc, hcdiagram⟩))
    · rw [hscript, hdiagram,
        Document.draws_of_ordered (hd.ordered_of_linesWithoutCalls hsource hfiles)]
      simp [hnot]

/-- Code in the language of diagrams among blocks is a diagram, and the page has the script. -/
theorem compile_diagrams_block :
    let o : CompileOptions := { moment := ⟨2024, 3, 9, 14, 30, 0, 0⟩ }
    let source := "```mermaid\na\n```"
    ∃ found, readPieces? ((compile source o).markup true) = some found ∧
      diagramTag ∈ found ∧ scriptTag diagramScript ∈ found := by
  intro o source
  obtain ⟨found, hfound, -, hscript, -, hagree⟩ := compile_diagrams source (o := o) rfl
  have hshown : (compile source o).shown?.any (·.toNode.walk.any isDiagram) = true := by
    rw [Compilation.shown?_of_isOk rfl (by decide +kernel)]
    decide +kernel
  have hloads : scriptTag diagramScript ∈ found := by
    cases hd : (compile source o).shown? with
    | none =>
        rw [hd] at hshown
        cases hshown
    | some d =>
        rw [hd, Option.any_some] at hshown
        exact hscript.mpr ⟨d, hd, .inr (List.any_eq_true.mp hshown)⟩
  refine ⟨found, hfound, (hagree nofun (by decide +kernel) fun text htext => ?_).mp hloads, hloads⟩
  obtain ⟨paths, path, hfile⟩ := htext
  obtain ⟨p, -, hlook⟩ := Files.exists_look hfile
  cases hlook

/-- Code that comes into a line is no diagram, and the page has the script for diagrams. -/
theorem compile_diagrams_line :
    let o : CompileOptions := { moment := ⟨2024, 3, 9, 14, 30, 0, 0⟩ }
    let source := ".function \x7bd\x7d\n    ```mermaid\n    a\n    ```\n\nSee .d \x7b\x7d here"
    ∃ found, readPieces? ((compile source o).markup true) = some found ∧
      diagramTag ∉ found ∧ scriptTag diagramScript ∈ found := by
  intro o source
  have hdocument : (compile source o).document.any (fun d =>
      !d.toNode.draws && d.toNode.walk.any isDiagram) = true := by decide +kernel
  obtain ⟨-, hfailed⟩ | ⟨d, hd⟩ := compile_rendered source o
  · have hok : (compile source o).isOk = true := by decide +kernel
    rw [hok] at hfailed
    cases hfailed
  · rw [hd.document, Option.any_some, Bool.and_eq_true, Bool.not_eq_true'] at hdocument
    obtain ⟨found, hfound, hdiagram, hscript⟩ := hd.diagrams rfl
    refine ⟨found, hfound, fun h => ?_, hscript.mpr (.inr hdocument.2)⟩
    rw [hdiagram, hdocument.1] at h
    cases h

end Livedoc
