import Livedoc.Document.Metadata
import Livedoc.Proofs.Expansion.ControlFlow
import Livedoc.Proofs.Expansion.Overlay

/-!
# Calls that say something about the document

What a document says about itself is read twice: at a glance, off the calls at its top level as
they are written, and again where these calls are expanded. The glance looks for the first layout
that a call names. Expansion looks among the named arguments by key, where the later of two counts.

So the two come to the same if each call names its layout once, and else if the arguments are
gone through from the last one at a glance, too (`expand_declarations`). Where a call names two
layouts the glance takes one and expansion the other (`metadata_ne_expand`).
-/

namespace Livedoc

open Livedoc.Document Livedoc.Environment Livedoc.Expansion Livedoc.Text Livedoc.Tree
open Livedoc.Tree.Node

namespace Invocation

/-- A call says something about the document as it is written: its name is one of those for that,
it has an argument, no text in it can hold a call, and a type that it names exists. -/
structure Declares (c : Invocation) (first : Argument) : Prop where
  known : (metadataKeys.get? c.name).isSome = true
  head : c.arguments.head? = some first
  arguments : ∀ a ∈ c.arguments, '.' ∉ a.content.toList
  named : ∀ a ∈ c.named, '.' ∉ a.value.content.toList
  type : c.name = "doctype" → strip first.content ∈ documentTypes

/-- The call with its named arguments from the last one to the first. -/
def lastFirst (c : Invocation) : Invocation := { c with named := c.named.reverse }

theorem Declares.lastFirst {c : Invocation} {first : Argument} (h : c.Declares first) :
    c.lastFirst.Declares first where
  known := h.known
  head := h.head
  arguments := h.arguments
  named a ha := h.named a (List.mem_reverse.mp ha)
  type := h.type

/-- The named arguments by key are those that are found first from the end. -/
theorem get?_namedTexts (c : Invocation) (key : String) :
    c.namedTexts.get? key = namedValue? c.lastFirst.named key := by
  have hfold : ∀ (named : List NamedArgument) (d : Dictionary String),
      Dictionary.get? (named.foldl (fun d a => d.set a.name a.value.content) d) key =
        (namedValue? named.reverse key).or (d.get? key) := by
    intro named
    induction named with
    | nil => exact fun d => rfl
    | cons a rest ih =>
        intro d
        rw [List.foldl_cons, ih, Dictionary.get?_set]
        simp only [namedValue?, List.reverse_cons, List.find?_append, Option.map_or]
        rw [Option.or_assoc]
        congr 1
        by_cases ha : a.name = key
        · simp [ha]
        · simp [ha, Ne.symm ha]
  exact (hfold c.named []).trans Option.or_none

end Invocation

namespace Expansion

variable {c : Invocation} {first : Argument} {e : Environment}

/-- A text without a dot is taken as it is. -/
theorem resolveText_verbatim (x : Expander) {raw : String} (h : '.' ∉ raw.toList) :
    resolveText x raw = pure raw := by
  rw [resolveText, if_neg (mt List.contains_iff_mem.mp h)]

theorem strippedArgument_run (h : c.Declares first) (x : Expander) (e : Environment) :
    strippedArgument x c 0 e = (.ok (strip first.content), e) := by
  obtain ⟨rest, harguments⟩ : ∃ rest, c.arguments = first :: rest := List.head?_eq_some_iff.mp h.head
  have hverbatim : resolveText x first.content = pure first.content :=
    resolveText_verbatim x (h.arguments first (harguments ▸ List.mem_cons_self))
  simp only [strippedArgument, argumentText, harguments, List.getElem?_cons_zero, hverbatim]
  rfl

/-- Within its call, a named argument is the last one of its key. -/
theorem namedText?_run (h : c.Declares first) (hnamed : e.setting.named = c.namedTexts)
    (x : Expander) (key : String) :
    namedText? x key e = (.ok (namedValue? c.lastFirst.named key), e) := by
  have hlook : named? key e = (.ok (namedValue? c.lastFirst.named key), e) := by
    rw [named?, inspect_run, hnamed, c.get?_namedTexts]
  rw [namedText?, bind_ok hlook]
  cases hvalue : namedValue? c.lastFirst.named key with
  | none => rfl
  | some raw =>
      obtain ⟨a, ha, rfl⟩ := Option.map_eq_some_iff.mp hvalue
      have hmem : a ∈ c.named := List.mem_reverse.mp (List.mem_of_find?_eq_some ha)
      simp only [resolveText_verbatim x (h.named a hmem)]
      rfl

/-! ## The functions that record -/

/-- The names of such calls. -/
theorem name_cases (h : c.Declares first) : c.name = "docname" ∨ c.name = "docauthor" ∨
    c.name = "doclang" ∨ c.name = "doctype" ∨ c.name = "theme" := by
  have hmem : c.name ∈ metadataKeys.map fun entry => entry.1 := by
    by_contra hnot
    have hknown := h.known
    rw [Dictionary.get?_eq_none_of_notMem hnot] at hknown
    cases hknown
  simpa only [metadataKeys, List.map_cons, List.map_nil, List.mem_cons, List.not_mem_nil,
    or_false] using hmem

/-- What a call says at a glance, unless it may say more than one thing. -/
theorem addMetadata_toNode (h : c.Declares first) {key : String}
    (hkey : metadataKeys.get? c.name = some key) (htheme : key ≠ "theme")
    (htype : key = "doctype" → strip first.content ∈ documentTypes) (metadata : Dictionary String) :
    addMetadata documentTypes metadata c.toNode = metadata.set key (strip first.content) := by
  obtain ⟨rest, harguments⟩ := List.head?_eq_some_iff.mp h.head
  have hexists : key = "doctype" → strip first.content ∉ documentTypes →
      metadata = metadata.set key (strip first.content) :=
    fun hdoctype hnot => absurd (htype hdoctype) hnot
  simpa [Invocation.toNode, harguments, addMetadata, hkey, htheme] using hexists

/-- What a call of a theme says at a glance. -/
theorem addMetadata_theme (h : c.Declares first) (hname : c.name = "theme")
    (metadata : Dictionary String) : addMetadata documentTypes metadata c.toNode =
      match namedValue? c.named "layout" with
      | some layout =>
        if layout = "" then metadata.set "theme" (strip first.content)
        else (metadata.set "theme" (strip first.content)).set "layout" (strip layout)
      | none => metadata.set "theme" (strip first.content) := by
  obtain ⟨rest, harguments⟩ := List.head?_eq_some_iff.mp h.head
  rw [Invocation.toNode, harguments, hname]
  rfl

/-- The order of the named arguments matters only to the layout of a theme. -/
theorem addMetadata_lastFirst (h : c.Declares first)
    (hlayout : c.name = "theme" →
      namedValue? c.lastFirst.named "layout" = namedValue? c.named "layout")
    (metadata : Dictionary String) :
    addMetadata documentTypes metadata c.lastFirst.toNode =
      addMetadata documentTypes metadata c.toNode := by
  obtain ⟨rest, harguments⟩ := List.head?_eq_some_iff.mp h.head
  show addMetadata documentTypes metadata
    (.call c.name c.arguments c.named.reverse c.body c.span) = _
  rw [Invocation.toNode, harguments]
  rcases name_cases h with hname | hname | hname | hname | hname
  · rw [hname]; rfl
  · rw [hname]; rfl
  · rw [hname]; rfl
  · rw [hname]; rfl
  · rw [← harguments]
    exact (addMetadata_theme h.lastFirst hname metadata).trans
      (hlayout hname ▸ (addMetadata_theme h hname metadata).symm)

theorem setMetadata_run (h : c.Declares first) {key : String}
    (hkey : metadataKeys.get? c.name = some key) (htheme : key ≠ "theme")
    (hdoctype : key ≠ "doctype") (e : Environment) : setMetadata expandNodes key c e =
      (.ok [], e.withMetadata (addMetadata documentTypes e.store.metadata c.toNode)) := by
  rw [setMetadata, bind_ok (strippedArgument_run h expandNodes e),
    addMetadata_toNode h hkey htheme fun heq => absurd heq hdoctype]
  rfl

theorem documentType_run (h : c.Declares first) (hname : c.name = "doctype") (e : Environment) :
    Builtin.run expandNodes c .documentType e =
      (.ok [], e.withMetadata (addMetadata documentTypes e.store.metadata c.toNode)) := by
  have hkey : metadataKeys.get? c.name = some "doctype" := by rw [hname]; rfl
  have hexists : documentTypes.contains (strip first.content) = true :=
    List.contains_iff_mem.mpr (h.type hname)
  rw [Builtin.run, bind_ok (strippedArgument_run h expandNodes e), hexists,
    addMetadata_toNode h hkey (by decide) fun _ => h.type hname]
  rfl

theorem theme_run (h : c.Declares first) (hname : c.name = "theme")
    (hnamed : e.setting.named = c.namedTexts) : Builtin.run expandNodes c .theme e =
      (.ok [], e.withMetadata
        (addMetadata documentTypes e.store.metadata c.lastFirst.toNode)) := by
  let themed : Environment := e.mapStore (·.record "theme" (strip first.content))
  have hlayout : namedText? expandNodes "layout" themed =
      (.ok (namedValue? c.lastFirst.named "layout"), themed) :=
    namedText?_run h (e := themed) hnamed expandNodes "layout"
  have hupdate : Expansion.update (·.record "theme" (strip first.content)) e = (.ok (), themed) := rfl
  rw [Builtin.run, bind_ok (strippedArgument_run h expandNodes e), bind_ok hupdate, bind_ok hlayout,
    addMetadata_theme h.lastFirst hname]
  cases namedValue? c.lastFirst.named "layout" with
  | none => rfl
  | some layout =>
      by_cases hempty : layout = ""
      · simp only [hempty]
        rfl
      · simp only [hempty, bne_iff_ne, ne_eq, not_false_eq_true, if_true, if_false]
        rfl

/-- The call runs a built-in function that records what the call says, read with the named
arguments from the last one to the first. -/
theorem exists_builtin (h : c.Declares first) : ∃ b : Builtin, b.name = c.name ∧
    b.handsOnBody = false ∧ ∀ e, e.setting.named = c.namedTexts → b.run expandNodes c e =
      (.ok [], e.withMetadata (addMetadata documentTypes e.store.metadata c.lastFirst.toNode)) := by
  -- other named arguments than the layout of a theme do not matter
  have hset (key : String) (hkey : metadataKeys.get? c.name = some key) (htheme : key ≠ "theme")
      (hdoctype : key ≠ "doctype") (e : Environment) : setMetadata expandNodes key c e = (.ok [],
        e.withMetadata (addMetadata documentTypes e.store.metadata c.lastFirst.toNode)) :=
    setMetadata_run h.lastFirst hkey htheme hdoctype e
  rcases name_cases h with hname | hname | hname | hname | hname
  · exact ⟨.documentName, hname.symm, rfl, fun e _ =>
      hset "title" (hname ▸ rfl) (by decide) (by decide) e⟩
  · exact ⟨.documentAuthor, hname.symm, rfl, fun e _ =>
      hset "author" (hname ▸ rfl) (by decide) (by decide) e⟩
  · exact ⟨.documentLanguage, hname.symm, rfl, fun e _ =>
      hset "language" (hname ▸ rfl) (by decide) (by decide) e⟩
  · exact ⟨.documentType, hname.symm, rfl, fun e _ => documentType_run h.lastFirst hname e⟩
  · exact ⟨.theme, hname.symm, rfl, fun e hnamed => theme_run h hname hnamed⟩

/-! ## Expanding calls one after the other -/

/-- Expanding such a call leaves nothing of it and changes nothing but the metadata. -/
theorem expandNodes_declares (h : c.Declares first) (hfunctions : e.store.functions = [])
    (hdepth : (e.setting.calls.length : Int) < e.setting.limits.callDepth) :
    expandNodes [c.toNode] e = (.ok [],
      e.withMetadata (addMetadata documentTypes e.store.metadata c.lastFirst.toNode)) := by
  obtain ⟨b, hname, hb, hrun⟩ := exists_builtin h
  have hcallee : e.store.callee? c.name = some (.builtin b) := by
    rw [← hname]
    exact callee_builtin (by rw [hfunctions]; rfl)
  rw [expandNodes_builtin hcallee hb, inBlock_ok (enter_call_of_lt hdepth _ _ _), hrun _ rfl]
  simp [withMetadata, Environment.leave, Setting.enterCall]

/-- Expanding such calls one by one leaves nothing of them and changes nothing but the metadata. -/
theorem expandEach_declares {calls : List Invocation}
    (hcalls : ∀ c ∈ calls, ∃ first, c.Declares first) : ∀ e : Environment,
    e.store.functions = [] → (e.setting.calls.length : Int) < e.setting.limits.callDepth →
      expandEach expandNodes (calls.map (·.toNode)) e = ([], e.withMetadata
        ((calls.map (·.lastFirst.toNode)).foldl (addMetadata documentTypes) e.store.metadata)) := by
  induction calls with
  | nil => exact fun e _ _ => rfl
  | cons c rest ih =>
      intro e hfunctions hdepth
      obtain ⟨first, hfirst⟩ := hcalls c List.mem_cons_self
      let after := e.withMetadata
        (addMetadata documentTypes e.store.metadata c.lastFirst.toNode)
      have hstep : expandNodes [c.toNode] e = (.ok [], after) :=
        expandNodes_declares hfirst hfunctions hdepth
      have hrest := ih (fun d hd => hcalls d (List.mem_cons_of_mem _ hd)) after hfunctions hdepth
      simp only [List.map_cons, expandEach, hstep, hrest]
      rfl

end Expansion

/-- **Metadata at a glance and after expansion.** Let the top-level nodes of a document be calls
that say something about it, and expand it in an environment without functions of the document,
where a call can be opened. Then nothing is left of the document, and nothing of the environment
changes but the metadata. These are the ones at a glance, over the metadata from before, if of
several arguments with one name the last one is looked at first. So they are the ones at a glance
if in each call of a theme the first layout is the last one. -/
theorem expand_declarations (d : Document) (calls : List Invocation) (e : Environment)
    (hd : d.children = calls.map (·.toNode)) (hcalls : ∀ c ∈ calls, ∃ first, c.Declares first)
    (hfunctions : e.store.functions = [])
    (hdepth : (e.setting.calls.length : Int) < e.setting.limits.callDepth) :
    e.expand d = ({ d with children := [] }, e.withMetadata (metadata documentTypes
      { d with children := calls.map (·.lastFirst.toNode) } e.store.metadata)) ∧
    ((∀ c ∈ calls, c.name = "theme" →
        namedValue? c.lastFirst.named "layout" = namedValue? c.named "layout") →
      (e.expand d).2.store.metadata = metadata documentTypes d e.store.metadata) := by
  have hrun : e.expand d = ({ d with children := [] }, e.withMetadata (metadata documentTypes
      { d with children := calls.map (·.lastFirst.toNode) } e.store.metadata)) := by
    rw [expand, expandBy, hd, expandEach_declares hcalls e hfunctions hdepth]
    rfl
  refine ⟨hrun, fun hlayout => ?_⟩
  rw [hrun]
  show metadata documentTypes _ e.store.metadata = _
  rw [metadata, metadata, hd, List.foldl_map, List.foldl_map]
  refine List.foldl_ext _ _ _ fun said c hc => ?_
  obtain ⟨first, hfirst⟩ := hcalls c hc
  exact addMetadata_lastFirst hfirst (hlayout c hc) said

/-- Two titles, of which the later one counts, and a theme with a layout, over a language. -/
theorem expand_declarations_layout :
    let e := (folderWith "").withMetadata [("language", "de")]
    let calls : List Invocation :=
      [⟨"docname", [⟨"Draft", .unknown⟩], [], [], .unknown⟩,
        ⟨"theme", [⟨" dark", .unknown⟩], [⟨"layout", ⟨"wide ", .unknown⟩, .unknown⟩], [], .unknown⟩,
        ⟨"docname", [⟨"", .unknown⟩], [], [], .unknown⟩]
    let d : Document := { children := calls.map (·.toNode) }
    (∀ c ∈ calls, ∃ first, c.Declares first) ∧ e.store.functions = [] ∧
      (e.setting.calls.length : Int) < e.setting.limits.callDepth ∧
      (∀ c ∈ calls, c.name = "theme" →
        namedValue? c.lastFirst.named "layout" = namedValue? c.named "layout") ∧
      (e.expand d).2.store.metadata = metadata documentTypes d e.store.metadata ∧
      metadata documentTypes d e.store.metadata =
        [("language", "de"), ("title", ""), ("theme", "dark"), ("layout", "wide")] := by
  intro e calls d
  have hcalls : ∀ c ∈ calls, ∃ first, c.Declares first := by
    intro c hc
    simp only [calls, List.mem_cons, List.not_mem_nil, or_false] at hc
    rcases hc with rfl | rfl | rfl
    all_goals exact ⟨_, by decide, rfl, by decide, by decide, by decide⟩
  have hlayout : ∀ c ∈ calls, c.name = "theme" →
      namedValue? c.lastFirst.named "layout" = namedValue? c.named "layout" := by decide
  obtain ⟨-, hmetadata⟩ := expand_declarations d calls e rfl hcalls rfl (by decide)
  exact ⟨hcalls, rfl, by decide, hlayout, hmetadata hlayout, by decide +kernel⟩

/-- A theme with two layouts: at a glance the first one is taken, by expansion the last. -/
theorem metadata_ne_expand :
    let e := folderWith ""
    let c : Invocation := ⟨"theme", [⟨"dark", .unknown⟩],
      [⟨"layout", ⟨"wide", .unknown⟩, .unknown⟩, ⟨"layout", ⟨"narrow", .unknown⟩, .unknown⟩], [],
      .unknown⟩
    let d : Document := { children := [c.toNode] }
    c.Declares ⟨"dark", .unknown⟩ ∧ e.store.functions = [] ∧
      (e.setting.calls.length : Int) < e.setting.limits.callDepth ∧
      metadata documentTypes d e.store.metadata = [("theme", "dark"), ("layout", "wide")] ∧
      (e.expand d).2.store.metadata = [("theme", "dark"), ("layout", "narrow")] := by
  refine ⟨⟨by decide, rfl, by decide, by decide, by decide⟩, rfl, by decide, ?_, ?_⟩
  · decide +kernel
  · decide +kernel

end Livedoc
