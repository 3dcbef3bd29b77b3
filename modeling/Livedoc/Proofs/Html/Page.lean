import Livedoc.Html.Page
import Livedoc.Proofs.Html.Substance

/-!
# Well-formed pages

Verbatim texts are the one way around escaping. A page has two, its style sheet and the
script that starts the others. The rules and the lines they are made of are fixed, and none
of them holds an angle bracket; what a document and a presentation bring goes into texts and
values only. So whatever they hold, what is rendered is well-formed
(`render_wellFormed`).
-/

namespace Livedoc.Html

open Livedoc.Tree Markup

/-! ## Texts without brackets -/

/-- A text that can stand between tags as it is. -/
def Plain (s : String) : Prop := (Piece.text s.toList).Sound

theorem Plain.append {s t : String} (hs : Plain s) (ht : Plain t) : Plain (s ++ t) := by
  intro c hc
  rw [String.toList_append, List.mem_append] at hc
  exact hc.elim (hs c) (ht c)

theorem Plain.join {ss : List String} (h : ∀ s ∈ ss, Plain s) : Plain (String.join ss) := by
  intro c hc
  simp only [String.toList_join, List.mem_flatMap] at hc
  obtain ⟨s, hs, hc⟩ := hc
  exact h s hs c hc

/-- Whether a text holds no angle bracket, decided on its bytes: those of other characters are
not the byte of a bracket, and bytes are what a literal is computed to. -/
def isBracketFree (s : String) : Bool :=
  s.toByteArray.data.toList.all fun b => b != 0x3C && b != 0x3E

theorem plain_of_isBracketFree {s : String} (h : isBracketFree s = true) : Plain s := by
  have hbytes : s.toByteArray.data.toList = s.toList.flatMap String.utf8EncodeChar := by
    rw [← String.utf8Encode_toList, List.utf8Encode, List.toList_data_toByteArray]
  rw [isBracketFree, hbytes, List.all_eq_true] at h
  intro c hc
  constructor
  · rintro rfl
    exact absurd (h 0x3C (List.mem_flatMap.mpr ⟨'<', hc, by decide⟩)) (by decide)
  · rintro rfl
    exact absurd (h 0x3E (List.mem_flatMap.mpr ⟨'>', hc, by decide⟩)) (by decide)

/-! ## The style sheet -/

namespace Css

/-- Whether neither the selector nor a declaration holds a bracket. -/
def Rule.isBracketFree (r : Rule) : Bool :=
  Html.isBracketFree r.selector && r.declarations.all Html.isBracketFree

/-- Whether no rule holds a bracket, nor the query. -/
def Statement.isBracketFree : Statement → Bool
  | .rule r => r.isBracketFree
  | .media query rules => Html.isBracketFree query && rules.all Rule.isBracketFree

theorem Rule.plain_print {r : Rule} (h : r.isBracketFree = true) {indent : String}
    (hindent : Plain indent) : Plain (r.print indent) := by
  simp only [Rule.isBracketFree, Bool.and_eq_true, List.all_eq_true] at h
  obtain ⟨hselector, hdeclarations⟩ := h
  have hline : ∀ line ∈ r.declarations.map (fun d =>
      if r.tall then indent ++ "  " ++ d ++ ";\n" else d ++ "; "), Plain line := by
    intro line hline
    obtain ⟨d, hd, rfl⟩ := List.mem_map.mp hline
    have hd : Plain d := plain_of_isBracketFree (hdeclarations d hd)
    split
    · exact ((hindent.append (plain_of_isBracketFree rfl)).append hd).append
        (plain_of_isBracketFree rfl)
    · exact hd.append (plain_of_isBracketFree rfl)
  have hbreak : Plain (if r.tall then "\n" else " ") := by
    cases r.tall <;> exact plain_of_isBracketFree rfl
  have hend : Plain (if r.tall then indent else "") := by
    cases r.tall
    · exact plain_of_isBracketFree rfl
    · exact hindent
  exact (((((hindent.append (plain_of_isBracketFree hselector)).append
    (plain_of_isBracketFree rfl)).append hbreak).append (Plain.join hline)).append hend).append
    (plain_of_isBracketFree rfl)

theorem Statement.plain_print {st : Statement} (h : st.isBracketFree = true) : Plain st.print := by
  cases st with
  | rule r => exact r.plain_print h (plain_of_isBracketFree rfl)
  | media query rules =>
      simp only [Statement.isBracketFree, Bool.and_eq_true, List.all_eq_true] at h
      have hrules : ∀ s ∈ rules.map (Rule.print "  "), Plain s := by
        intro s hs
        obtain ⟨r, hr, rfl⟩ := List.mem_map.mp hs
        exact r.plain_print (h.2 r hr) (plain_of_isBracketFree rfl)
      exact (((plain_of_isBracketFree h.1).append (plain_of_isBracketFree rfl)).append
        (Plain.join hrules)).append (plain_of_isBracketFree rfl)

theorem Sheet.plain_print {sheet : Sheet} (h : ∀ st ∈ sheet, st.isBracketFree = true) :
    Plain sheet.print := by
  refine Plain.join fun s hs => ?_
  obtain ⟨st, hst, rfl⟩ := List.mem_map.mp hs
  exact st.plain_print (h st hst)

end Css

namespace Stylesheet

open Css

/-- Every statement that can come into the style sheet of a page. -/
def every : Sheet :=
  base ++ themes.flatMap (·.2) ++ arrangement ++ layouts.flatMap (·.2) ++
    documentTypes.flatMap (·.2) ++ printed

set_option maxRecDepth 100000 in
theorem isBracketFree_every : every.all Statement.isBracketFree = true := by rfl

/-- What is looked up comes from the dictionary. -/
theorem mem_of_mem_get? {d : Dictionary Sheet} (key : String) {st : Statement}
    (h : st ∈ (d.get? key).getD []) : st ∈ d.flatMap (·.2) := by
  cases hkey : d.get? key with
  | none => simp [hkey] at h
  | some sheet =>
      obtain ⟨before, after, rfl, -⟩ := List.lookup_eq_some_iff.mp hkey
      rw [hkey] at h
      exact List.mem_flatMap.mpr ⟨(key, sheet), by simp, h⟩

theorem whole_subset_every (theme type : String) (layout : Option String) (medium : Medium) :
    whole theme type layout medium ⊆ every := by
  intro st hst
  simp only [whole, ofTheme, ofLayout, ofDocumentType, List.mem_append] at hst
  simp only [every, List.mem_append]
  rcases hst with (((hst | hst) | hst | hst) | hst) | hst
  · simp [hst]
  · simp [mem_of_mem_get? theme hst]
  · simp [hst]
  · cases layout with
    | none => cases hst
    | some name => simp [mem_of_mem_get? name hst]
  · simp [mem_of_mem_get? type hst]
  · cases medium with
    | screen => cases hst
    | paper => exact .inr hst

/-- The style sheet of a page holds no bracket, whatever theme, type and layout are. -/
theorem plain_whole (theme type : String) (layout : Option String) (medium : Medium) :
    Plain (whole theme type layout medium).print :=
  Sheet.plain_print fun st hst =>
    List.all_eq_true.mp isBracketFree_every st (whole_subset_every theme type layout medium hst)

end Stylesheet

/-! ## The script -/

theorem startLines_subset (type : String) (diagrams : Bool) :
    startLines type diagrams ⊆ startLines "slides" true := by
  intro line hline
  simp only [startLines, List.mem_append] at hline ⊢
  rcases hline with ((hline | hline) | hline) | hline
  · simp [hline]
  · cases diagrams with
    | false => cases hline
    | true => exact .inl (.inl (.inr hline))
  · split at hline
    · exact .inl (.inr hline)
    · cases hline
  · simp [hline]

theorem isBracketFree_startLines : (startLines "slides" true).all isBracketFree = true := by rfl

theorem plain_startLines (type : String) (diagrams : Bool) :
    Plain (String.join ((startLines type diagrams).map (· ++ "\n"))) := by
  refine Plain.join fun s hs => ?_
  obtain ⟨line, hline, rfl⟩ := List.mem_map.mp hs
  have hfree := List.all_eq_true.mp isBracketFree_startLines line
    (startLines_subset type diagrams hline)
  exact (plain_of_isBracketFree hfree).append (plain_of_isBracketFree rfl)

/-! ## The content of a document -/

section Slides

variable {α : Type} {f : List Node → List α} {g : Node → List α}

theorem flatMap_betweenRules (hnil : f [] = []) (hcons : ∀ n ns, f (n :: ns) = g n ++ f ns)
    (hrule : ∀ span, g (.thematicBreak span) = []) (ns : List Node) :
    (betweenRules ns).flatMap f = f ns := by
  fun_induction betweenRules ns with
  | case1 => simp [hnil]
  | case2 span rest ih => rw [List.flatMap_cons, ih, hnil, hcons, hrule]
  | case3 n rest _ hnone ih => simp_all
  | case4 n rest _ group groups hsome ih =>
      rw [hsome] at ih
      rw [hcons, ← ih, List.flatMap_cons, List.flatMap_cons, hcons, List.append_assoc]

/-- What is counted of nodes one by one, and not of horizontal rules, is counted of slides. -/
theorem flatMap_slideGroups (hnil : f [] = []) (hcons : ∀ n ns, f (n :: ns) = g n ++ f ns)
    (hrule : ∀ span, g (.thematicBreak span) = []) (ns : List Node) :
    (slideGroups ns).flatMap f = f ns := by
  have hfilter (groups : List (List Node)) :
      (groups.filter fun group => !group.isEmpty).flatMap f = groups.flatMap f := by
    induction groups with
    | nil => rfl
    | cons group groups ih => cases group <;> simp [hnil, ih]
  have hgroups := hfilter (betweenRules ns)
  rw [flatMap_betweenRules hnil hcons hrule] at hgroups
  rw [← hgroups, slideGroups]
  split
  · next hnone =>
      rw [hnone]
      simp [hnil]
  · rfl

end Slides

/-- Horizontal rules show nothing, so what they separate shows all there is. -/
theorem shownAll_slideGroups (ns : List Node) :
    (slideGroups ns).flatMap Node.shownAll = Node.shownAll ns :=
  flatMap_slideGroups rfl (fun _ _ => rfl) (fun _ => rfl) ns

theorem contentOf_gives (ns : List Node) : Node.Shows (contentOf ns) (Node.shownAll ns) := by
  refine (Node.blocksFrom_gives true [] ns).bind fun blocks hblocks => ?_
  split
  · exact .pure hblocks
  · exact .pure (by simpa using hblocks)

theorem slideOf_gives (ns : List Node) : Node.Shows (slideOf ns) (Node.shownAll ns) := by
  refine (contentOf_gives ns).bind fun content hcontent => ?_
  split
  · exact .pure (by simpa using hcontent)
  · exact .pure (by simpa using hcontent)

theorem slidesOf_gives (groups : List (List Node)) :
    Node.Shows (slidesOf groups) (groups.flatMap Node.shownAll) := by
  induction groups with
  | nil => exact .pure rfl
  | cons group groups ih =>
      exact (slideOf_gives group).bind fun first hfirst =>
        ih.map fun others hothers => by simp [hfirst, hothers]

/-- **The wrapper of a document shows what its nodes do**, as slides, paged or plain. -/
theorem wrappedContent_gives (type : String) (ns : List Node) :
    Gives (wrappedContent type ns) fun m => m.substance = solid (Node.shownAll ns) := by
  unfold wrappedContent
  split
  · exact (slidesOf_gives (slideGroups ns)).map fun slides h => by
      simpa [shownAll_slideGroups] using h
  · split
    · exact (contentOf_gives ns).map fun content h => by simpa using h
    · exact (contentOf_gives ns).map fun content h => by simpa using h

/-! ## The page around it -/

theorem substanceAll_map_eq_nil {α : Type} {f : α → Markup} (h : ∀ x, (f x).substance = [])
    (xs : List α) : substanceAll (xs.map f) = [] := by
  induction xs with
  | nil => rfl
  | cons x xs ih =>
      rw [List.map_cons, substanceAll_cons, h x, ih]
      rfl

theorem substance_property (key content : String) : (property key content).substance = [] := rfl

theorem substanceAll_dependencyLinks (type : String) :
    substanceAll (dependencyLinks type) = [] := by
  unfold dependencyLinks
  split <;> rfl

theorem substanceAll_dependencyScripts (type : String) (diagrams : Bool) :
    substanceAll (dependencyScripts type diagrams) = [] := by
  unfold dependencyScripts
  split_ifs <;> rfl

/-- A head shows its title and its style sheet. -/
theorem substance_headOf (p : Presentation) : (headOf p).substance =
    solid (orElse p.title "Document").toList ++
      [.inr ("\n" ++ (Stylesheet.whole p.theme p.shownType p.layout p.medium).print)] := by
  simp only [headOf, substance_onOwnLines, substanceAll_append, substanceAll_dependencyLinks,
    substanceAll_map_eq_nil (f := styleLink) fun address => rfl]
  rw [substanceAll_map_eq_nil (f := fun x : String × String => property x.1 x.2) fun entry => rfl]
  cases hauthor : p.author with
  | none => simp [substance_property]
  | some a =>
      simp only
      split <;> simp [substance_property]

/-- A body shows the content of the document and the script that starts the others. -/
theorem substance_bodyOf (p : Presentation) (diagrams : Bool) (content : Markup) :
    (bodyOf p diagrams content).substance = content.substance ++
      [.inr ("\n" ++ String.join ((startLines p.shownType diagrams).map (· ++ "\n")))] := by
  have hlinks : substanceAll (p.scripts.map scriptLink) = [] :=
    substanceAll_map_eq_nil (fun address => rfl) p.scripts
  rw [bodyOf, substance_element, substanceAll_cons, substanceAll_flatMap_newline]
  simp [substanceAll_dependencyScripts, hlinks, startScript]

/-- A page holds its head and its body. -/
theorem pageOf_eq (p : Presentation) (d : Document) :
    pageOf p d = [.element .html [⟨.lang, orElse p.language "en"⟩] [newline, headOf p, newline,
      bodyOf p (hasDiagrams d) (wrappedContent p.shownType d.children []).1, newline], newline] :=
  rfl

/-- The texts of a document are no verbatim texts. -/
theorem plainVerbatims_of_solid {ms : List Markup} {cs : List Char}
    (h : substanceAll ms = solid cs) : PlainVerbatims (contentsAll ms) := by
  intro s hs
  obtain ⟨ds, hds, -⟩ := exists_of_filter_isSolid h
  simp [hds] at hs

/-- The verbatim texts of a page are its style sheet and its script. -/
theorem plainVerbatims_pageOf (p : Presentation) (d : Document) :
    PlainVerbatims (contentsAll (pageOf p d)) := by
  intro s hs
  have hsolid : .inr s ∈ substanceAll (pageOf p d) := List.mem_filter.mpr ⟨hs, rfl⟩
  have htext (cs : List Char) : .inr s ∉ solid cs := by simp [solid]
  simp only [pageOf_eq, substanceAll_cons, substanceAll_nil, substance_element, substance_newline,
    substance_headOf, substance_bodyOf, wrappedContent_gives p.shownType d.children [],
    List.nil_append, List.append_nil, List.mem_append, List.mem_singleton, htext, false_or,
    Sum.inr.injEq] at hsolid
  rcases hsolid with rfl | rfl
  · exact (plain_of_isBracketFree rfl).append
      (Stylesheet.plain_whole p.theme p.shownType p.layout p.medium)
  · exact (plain_of_isBracketFree rfl).append (plain_startLines p.shownType (hasDiagrams d))

end Livedoc.Html
