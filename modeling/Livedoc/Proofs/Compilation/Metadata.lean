import Livedoc.Proofs.Compilation.Strict
import Livedoc.Proofs.Expansion.Overlay

/-!
# What a compilation says about its document

What a document says about itself has two sources: its calls as they are written, and what
expansion recorded. Three layers lie over each other, the defaults and the options at the bottom,
what is written on them (`metadata_overlays`), and what was recorded at the top
(`expand_overlaid`). A type that does not exist never goes before one below it
(`get?_settledMetadata`).

A call that is written is believed even where it records nothing, because it never runs or is a
call of a function of the document. So a result may say what no built-in function recorded
(`compile_info_unrecorded`).
-/

namespace Livedoc

open Livedoc.Expansion Livedoc.Html Livedoc.Problem Livedoc.Tree

/-! ## Layers -/

namespace Dictionary.Overlays

variable {base d d' : Dictionary String}

/-- What a node says as it is written is set over all that is there. -/
theorem addMetadata (h : Overlays base d d') (types : List String) (n : Node) :
    Overlays base (Document.addMetadata types d n) (Document.addMetadata types d' n) := by
  unfold Document.addMetadata
  split
  · split
    · exact h
    · dsimp only
      split
      · exact h
      · split
        · split
          · exact h.set _ _
          · exact (h.set _ _).set _ _
        · exact h.set _ _
  · exact h

end Dictionary.Overlays

/-- What is written lies over what there is to start from. -/
theorem Document.metadata_overlays {base : Dictionary String} (hbase : base.Distinct)
    (types : List String) (d : Document) :
    base.Overlays (Document.metadata types d []) (Document.metadata types d base) := by
  have hfold : ∀ (ns : List Node) (m m' : Dictionary String), base.Overlays m m' →
      base.Overlays (ns.foldl (addMetadata types) m) (ns.foldl (addMetadata types) m') := by
    intro ns
    induction ns with
    | nil => exact fun _ _ h => h
    | cons n rest ih => exact fun m m' h => ih _ _ (h.addMetadata types n)
  exact hfold d.children [] base (Dictionary.Overlays.of_distinct hbase)

/-- What was recorded goes before what there was early on, but for a type that does not
exist. -/
theorem get?_settledMetadata {early recorded all : Dictionary String}
    (h : early.Overlays recorded all) (key : String) :
    (settledMetadata early all).get? key =
      ((recorded.get? key).filter fun value =>
        key != "doctype" || documentTypes.contains value).or (early.get? key) := by
  have hkept : Dictionary.Distinct (all.filter fun entry =>
      entry.1 != "doctype" || documentTypes.contains entry.2) :=
    h.distinct.sublist (List.filter_sublist.map _)
  rw [settledMetadata, Dictionary.get?_setAll hkept, h.distinct.get?_filter, h.get?]
  cases recorded.get? key with
  | some value => rfl
  | none =>
      cases early.get? key with
      | none => rfl
      | some value =>
          simp only [Option.none_or, Option.filter_some, Option.filter_none]
          split <;> rfl

namespace CompileOptions

theorem distinct_defaults (o : CompileOptions) : o.defaults.Distinct := by
  show ["title", "language", "doctype", "theme"].Nodup
  decide

/-- The expansion of a source in an environment without metadata, so that those in the end are
the ones that were recorded, each with the value that it was given last. A compilation expands
the source over metadata that are there already, which makes no difference (`expand_overlaid`).
There is none if a variable that the document starts with has no value. -/
def recording? (o : CompileOptions) (source : String) : Option (Document × Environment) :=
  o.frame?.map fun bindings => (o.environment source bindings).expand (Document.read source).result

end CompileOptions

/-- What the calls at the top level of a source say as they are written, the last one for each
key. -/
def writtenMetadata (source : String) : Dictionary String :=
  Document.metadata documentTypes (Document.read source).result []

/-- What is said about a document, given what was recorded, what is written, and the options: of
the type what was recorded, if it is one that exists, and of everything else what was recorded;
where nothing was, what is written, or else what the options say. An empty text is as good as
none, and then there are defaults. -/
def CompileOptions.infoOf (o : CompileOptions) (recorded written : Dictionary String) :
    DocumentInfo :=
  let said := fun key => (recorded.get? key).or (written.get? key)
  let saidType := ((recorded.get? "doctype").filter documentTypes.contains).or
    (written.get? "doctype")
  { title := orElse ((said "title").getD "") "Document"
    author := (said "author").filter (· != "")
    language := orElse ((said "language").getD "") "en"
    type := orElse (saidType.getD (o.type.getD "")) "plain"
    theme := orElse ((said "theme").getD (o.theme.getD "")) "default"
    layout := (said "layout").filter (· != "")
    created := o.moment }

/-- A text that may be missing or empty, over one that may be empty, over a fallback. -/
theorem getD_filter_or (said : Option String) (given fallback : String) :
    (((said.or (some (orElse given fallback))).filter (· != "")).getD fallback) =
      orElse (said.getD given) fallback := by
  cases said with
  | none =>
      by_cases h : given = "" <;> by_cases h' : fallback = "" <;>
        simp [orElse, Option.filter_some, h, h']
  | some value => by_cases h : value = "" <;> simp [orElse, Option.filter_some, h]

/-- The metadata in the end, read off layer by layer. -/
theorem ofMetadata_settledMetadata {o : CompileOptions}
    {recorded written early all : Dictionary String} (hearly : o.defaults.Overlays written early)
    (hall : early.Overlays recorded all) :
    DocumentInfo.ofMetadata (settledMetadata early all) o.moment = o.infoOf recorded written := by
  have hkey (key : String) (hne : key ≠ "doctype") : (settledMetadata early all).get? key =
      ((recorded.get? key).or (written.get? key)).or (o.defaults.get? key) := by
    rw [get?_settledMetadata hall, hearly.get?, ← Option.or_assoc]
    cases recorded.get? key <;> simp [Option.filter_some, hne]
  have htype : (settledMetadata early all).get? "doctype" =
      (((recorded.get? "doctype").filter documentTypes.contains).or (written.get? "doctype")).or
        (o.defaults.get? "doctype") := by
    rw [get?_settledMetadata hall, hearly.get?, ← Option.or_assoc]
    rfl
  have htitle : o.defaults.get? "title" = some (orElse "" "Document") := rfl
  have hlanguage : o.defaults.get? "language" = some (orElse "" "en") := rfl
  have hauthor : o.defaults.get? "author" = none := rfl
  have hlayout : o.defaults.get? "layout" = none := rfl
  have htypeDefault : o.defaults.get? "doctype" = some (orElse (o.type.getD "") "plain") := rfl
  have htheme : o.defaults.get? "theme" = some (orElse (o.theme.getD "") "default") := rfl
  simp only [DocumentInfo.ofMetadata, given?, htype, hkey "title" (by decide),
    hkey "author" (by decide), hkey "language" (by decide), hkey "theme" (by decide),
    hkey "layout" (by decide), htitle, hlanguage, hauthor, hlayout, htypeDefault, htheme,
    getD_filter_or, Option.or_none]
  rfl

/-! ## Compilation -/

namespace Compilation

theorem finished_info {o : CompileOptions} {report : Report}
    (hshown : o.strict = true → report.errors = []) (early recorded : Dictionary String)
    (d : Document) :
    (finished o early recorded report d).document = some d ∧
      (finished o early recorded report d).info =
        .ofMetadata (settledMetadata early recorded) o.moment := by
  have hnot : ¬ (o.strict && !report.errors.isEmpty) = true := by
    simpa using hshown
  rw [finished, if_neg hnot]
  exact ⟨rfl, rfl⟩

/-- A compilation that came to an end, and whose result is not suppressed, has an expanded
document, and says about it what the metadata after expansion say. -/
theorem ofDocument_info {o : CompileOptions} {source : String} {mistakes : List Error}
    {d : Document} {bindings : Frame} {c : Compilation}
    (hc : ofDocument o source mistakes d bindings = c) (hdone : c.document ≠ none)
    (hshown : o.strict = true → c.report.errors = []) :
    let early := Document.metadata documentTypes d o.defaults
    let run := ((o.environment source bindings).withMetadata early).expand d
    c.document = some run.1 ∧
      c.info = .ofMetadata (settledMetadata early run.2.store.metadata) o.moment := by
  intro early run
  have hrun : { ofExpanded o early mistakes run.1 run.2 with
      unknown := run.2.store.inquiry.unknown } = c := hc
  cases hend : run.2.store.inquiry.unreadable with
  | some reason =>
      rw [ofExpanded, hend] at hrun
      exact absurd (congrArg document hrun.symm) hdone
  | none =>
      rw [ofExpanded, hend] at hrun
      subst hrun
      refine finished_info (fun hstrict => ?_) _ _ _
      have herrors := hshown hstrict
      rwa [report_finished] at herrors

/-- A compilation that came to an end, and whose result is not suppressed, got as far as
expanding the source. -/
theorem compile_eq_ofDocument {source : String} {o : CompileOptions}
    (hdone : (compile source o).document ≠ none)
    (hshown : o.strict = true → (compile source o).report.errors = []) :
    ∃ bindings, o.frame? = some bindings ∧ ofDocument o source (Document.read source).mistakes
      (Document.read source).result bindings = compile source o := by
  unfold compile at hdone hshown ⊢
  dsimp only at hdone hshown ⊢
  split
  · rename_i hsuppressed
    obtain ⟨hstrict, hmistakes⟩ := Bool.and_eq_true_iff.mp hsuppressed
    have hnone := hshown hstrict
    rw [if_pos hsuppressed] at hnone
    simp [withoutOutput] at hnone
    simp [hnone] at hmistakes
  · rename_i hnot
    rw [if_neg hnot] at hdone
    split
    · rename_i hframe
      rw [hframe] at hdone
      exact absurd rfl hdone
    · rename_i bindings hframe
      exact ⟨bindings, hframe, rfl⟩

/-- **What a compilation says about its document.** If the compilation came to an end and is
not suppressed by strict mode, its document is what the source expands to, and of the title,
the author, the language, the theme and the layout it says what was recorded last during that
expansion, or else what is written last at the top level, or else what the options or the
defaults say; of the type it says what was recorded last, if it is one that exists, or else the
same. A text that is empty counts as the default. -/
theorem compile_info (source : String) (o : CompileOptions)
    (hdone : (compile source o).document ≠ none)
    (hshown : o.strict = true → (compile source o).report.errors = []) :
    ∃ run, o.recording? source = some run ∧ (compile source o).document = some run.1 ∧
      (compile source o).info = o.infoOf run.2.store.metadata (writtenMetadata source) := by
  obtain ⟨bindings, hframe, hc⟩ := compile_eq_ofDocument hdone hshown
  obtain ⟨hdocument, hinfo⟩ := ofDocument_info hc hdone hshown
  let early := Document.metadata documentTypes (Document.read source).result o.defaults
  have hearly : o.defaults.Overlays (writtenMetadata source) early :=
    Document.metadata_overlays o.distinct_defaults documentTypes _
  have hover : Overlaid early (o.environment source bindings)
      ((o.environment source bindings).withMetadata early) :=
    ⟨early, rfl, Dictionary.Overlays.of_distinct hearly.distinct⟩
  obtain ⟨hsame, metadata, hafter, hall⟩ := expand_overlaid hover (Document.read source).result
  refine ⟨(o.environment source bindings).expand (Document.read source).result, ?_, ?_, ?_⟩
  · rw [CompileOptions.recording?, hframe]
    rfl
  · rw [hdocument, hsame]
  · rw [hinfo, hafter]
    exact ofMetadata_settledMetadata hearly hall

/-- Options for the cases below, in strict mode. -/
def strictly : CompileOptions := { strict := true, moment := ⟨2024, 3, 9, 12, 0, 0, 0⟩ }

/-- A title that is known only once it is expanded: what is recorded goes before what is
written. -/
def computedTitle : String := ".var {who} {Ann}\n.docname {Report by .who}\n"

theorem compile_info_computedTitle :
    (compile computedTitle strictly).document ≠ none ∧
      (strictly.strict = true → (compile computedTitle strictly).report.errors = []) ∧
      (∃ run, strictly.recording? computedTitle = some run ∧
        (compile computedTitle strictly).document = some run.1 ∧
        (compile computedTitle strictly).info =
          strictly.infoOf run.2.store.metadata (writtenMetadata computedTitle)) ∧
      (compile computedTitle strictly).info.title = "Report by Ann" := by
  have hdone : (compile computedTitle strictly).document ≠ none := by
    rw [← Option.isSome_iff_ne_none]
    decide +kernel
  have hshown : strictly.strict = true → (compile computedTitle strictly).report.errors = [] := by
    rw [← List.isEmpty_iff]
    decide +kernel
  exact ⟨hdone, hshown, compile_info computedTitle strictly hdone hshown, by decide +kernel⟩

/-- A call of a function of the document, and a type that is recorded within a conditional. -/
def disowned : String :=
  ".function {docname}\n    hi\n\n.docname {Foo}\n\n.if {true}\n    .doctype {slides}\n"

/-- The same, with a type recorded after it that does not exist. -/
def disownedTwice : String := disowned ++ "\n.doctype {poster}\n"

/-- What a compilation says need not be what was recorded. The call that looks like a title
runs a function of the document: no title is recorded, and the result has one. A type that does
not exist takes the place of the one that was recorded before: `slides` is the last type
recorded that does, and the result is `plain`. -/
theorem compile_info_unrecorded :
    ((strictly.recording? disowned).map fun run => run.2.store.metadata) =
        some [("doctype", "slides")] ∧
      ((strictly.recording? disownedTwice).map fun run => run.2.store.metadata) =
        some [("doctype", "poster")] ∧
      (compile disownedTwice strictly).document.isSome = true ∧
      (compile disownedTwice strictly).report.errors.isEmpty = true ∧
      (compile disownedTwice strictly).info.title = "Foo" ∧
      (compile disownedTwice strictly).info.type = "plain" := by
  decide +kernel

end Compilation

end Livedoc
