import Livedoc.Compilation

/-!
# Strict mode suppresses output and nothing else

A compilation in strict mode leaves early in two places: after reading, where the source
has mistakes, and after expansion, where there are errors of either kind.  Between the
two, and on every other way out, the mode does not show.

`Suppresses` relates the results of the two modes.  It is proved exit by exit, from the
last one back to the first: for a document that was expanded (`finished_suppresses`), for
one that was read (`ofDocument_suppresses`), and for a source.
-/

namespace Livedoc

open Livedoc.Problem Livedoc.Tree

/-- The options with strict mode switched on or off. -/
def CompileOptions.inMode (o : CompileOptions) (strict : Bool) : CompileOptions := { o with strict }

namespace Compilation

/-- Whether the work could not be done. -/
def isBroken (c : Compilation) : Bool := c.report.errors.any (·.kind == .runtime)

/-- How the result in strict mode follows from the one without it: it is the same if there
are no errors, and if there are some it is empty and has errors, which are the first ones of
the others unless the work could not be done. -/
structure Suppresses (lax strict : Compilation) : Prop where
  same : lax.isOk = true → strict = lax
  html : lax.isOk = false → strict.html = ""
  isOk : lax.isOk = false → strict.isOk = false
  errors : lax.isBroken = false → strict.isBroken = false →
    strict.report.errors <+: lax.report.errors

namespace Suppresses

/-- A result without output is suppressed already. -/
theorem refl {c : Compilation} (h : c.isOk = false → c.html = "") : Suppresses c c where
  same _ := rfl
  html := h
  isOk h := h
  errors _ _ := List.prefix_refl _

/-- A result without output, the errors of which are the first ones of the other result. -/
theorem of_prefix {lax strict : Compilation} (hhtml : strict.html = "")
    (hok : strict.isOk = false)
    (herrors : lax.isBroken = false → strict.report.errors <+: lax.report.errors)
    (hlax : lax.isOk = false) : Suppresses lax strict where
  same h := by rw [hlax] at h; cases h
  html _ := hhtml
  isOk _ := hok
  errors h _ := herrors h

/-- What is noted about unknown files is no part of the relation. -/
theorem withUnknown {lax strict : Compilation} (h : Suppresses lax strict) (paths : List Path) :
    Suppresses { lax with unknown := paths } { strict with unknown := paths } where
  same hok := by rw [h.same hok]
  html := h.html
  isOk := h.isOk
  errors := h.errors

end Suppresses

/-! ## The exits -/

theorem isOk_eq_false_iff {c : Compilation} : c.isOk = false ↔ c.report.errors ≠ [] := by
  simp [isOk]

theorem isBroken_broken (o : CompileOptions) (reason : String) (warnings : List Warning) :
    (broken o reason warnings).isBroken = true := by
  simp [broken, isBroken]

/-- Work that cannot be done gives the same in both modes. -/
theorem broken_suppresses (o : CompileOptions) (reason : String) (warnings : List Warning) :
    Suppresses (broken (o.inMode false) reason warnings) (broken (o.inMode true) reason warnings) :=
  Suppresses.refl fun _ => rfl

/-- The report does not hang on the output. -/
theorem report_finished (o : CompileOptions) (early recorded : Dictionary String)
    (report : Report) (d : Document) : (finished o early recorded report d).report = report := by
  unfold finished
  split <;> rfl

theorem finished_suppresses (o : CompileOptions) (early recorded : Dictionary String)
    (report : Report) (d : Document) :
    Suppresses (finished (o.inMode false) early recorded report d)
      (finished (o.inMode true) early recorded report d) := by
  have hlax := report_finished (o.inMode false) early recorded report d
  by_cases hnone : report.errors = []
  · have hsame : finished (o.inMode true) early recorded report d =
        finished (o.inMode false) early recorded report d := by
      simp only [finished, hnone, List.isEmpty_nil, Bool.not_true, Bool.and_false]
      rfl
    rw [hsame]
    refine Suppresses.refl fun hok => ?_
    rw [isOk_eq_false_iff, hlax] at hok
    exact absurd hnone hok
  · have hstrict : finished (o.inMode true) early recorded report d =
        withoutOutput (o.inMode true) report d := by
      simp [finished, CompileOptions.inMode, hnone]
    rw [hstrict]
    refine Suppresses.of_prefix rfl (isOk_eq_false_iff.mpr hnone) (fun _ => ?_) ?_
    · rw [hlax]
      exact List.prefix_refl _
    · rw [isOk_eq_false_iff, hlax]
      exact hnone

/-- The result for a document once it was expanded in an environment. -/
def ofExpanded (o : CompileOptions) (early : Dictionary String) (mistakes : List Error)
    (d : Document) (e : Environment) : Compilation :=
  match e.store.inquiry.unreadable with
  | some reason => broken o reason e.store.report.warnings
  | none =>
    finished o early e.store.metadata ⟨e.store.report.warnings, mistakes ++ e.store.report.errors⟩ d

/-- How the work on a document that was read ends.  The mode has no say in which way out is
taken, nor in what is found out before. -/
theorem ofDocument_exit (o : CompileOptions) (source : String) (mistakes : List Error)
    (d : Document) (bindings : Frame) :
    (∃ reason warnings unknown, ∀ strict,
      ofDocument (o.inMode strict) source mistakes d bindings =
        { broken (o.inMode strict) reason warnings with unknown }) ∨
    (∃ early recorded report expanded unknown, mistakes <+: report.errors ∧ ∀ strict,
      ofDocument (o.inMode strict) source mistakes d bindings =
        { finished (o.inMode strict) early recorded report expanded with unknown }) := by
  let early := Document.metadata documentTypes d o.defaults
  let start := o.environment source bindings
  let run := Environment.expand { start with store := { start.store with metadata := early } } d
  have hrun (strict : Bool) : ofDocument (o.inMode strict) source mistakes d bindings =
      { ofExpanded (o.inMode strict) early mistakes run.1 run.2 with
        unknown := run.2.store.inquiry.unknown } := rfl
  cases hend : run.2.store.inquiry.unreadable with
  | some reason =>
      refine .inl ⟨reason, run.2.store.report.warnings, run.2.store.inquiry.unknown,
        fun strict => ?_⟩
      rw [hrun, ofExpanded, hend]
  | none =>
      refine .inr ⟨early, run.2.store.metadata,
        ⟨run.2.store.report.warnings, mistakes ++ run.2.store.report.errors⟩, run.1,
        run.2.store.inquiry.unknown, List.prefix_append mistakes _, fun strict => ?_⟩
      rw [hrun, ofExpanded, hend]

theorem ofDocument_suppresses (o : CompileOptions) (source : String) (mistakes : List Error)
    (d : Document) (bindings : Frame) :
    Suppresses (ofDocument (o.inMode false) source mistakes d bindings)
      (ofDocument (o.inMode true) source mistakes d bindings) := by
  obtain ⟨reason, warnings, unknown, hexit⟩ |
    ⟨early, recorded, report, expanded, unknown, -, hexit⟩ :=
    ofDocument_exit o source mistakes d bindings
  · rw [hexit, hexit]
    exact (broken_suppresses o reason warnings).withUnknown unknown
  · rw [hexit, hexit]
    exact (finished_suppresses o early recorded report expanded).withUnknown unknown

/-- The mistakes in a source are the first errors of what comes of it, unless the work could
not be done, which is an error as well. -/
theorem mistakes_prefix_ofDocument (o : CompileOptions) (source : String) (mistakes : List Error)
    (d : Document) (bindings : Frame) :
    let lax := ofDocument (o.inMode false) source mistakes d bindings
    lax.isBroken = true ∨ mistakes <+: lax.report.errors := by
  intro lax
  obtain ⟨reason, warnings, unknown, hexit⟩ |
    ⟨early, recorded, report, expanded, unknown, hprefix, hexit⟩ :=
    ofDocument_exit o source mistakes d bindings
  · left
    simp only [lax, hexit]
    exact isBroken_broken (o.inMode false) reason warnings
  · right
    simp only [lax, hexit, report_finished]
    exact hprefix

/-! ## Sources -/

/-- The result for a document that was read, before there is an environment. -/
def ofRead (o : CompileOptions) (source : String) (mistakes : List Error) (d : Document) :
    Compilation :=
  match o.frame? with
  | none => broken o "int too large to convert to float" []
  | some bindings => ofDocument o source mistakes d bindings

theorem ofRead_suppresses (o : CompileOptions) (source : String) (mistakes : List Error)
    (d : Document) : Suppresses (ofRead (o.inMode false) source mistakes d)
      (ofRead (o.inMode true) source mistakes d) := by
  have hframe (strict : Bool) : (o.inMode strict).frame? = o.frame? := rfl
  unfold ofRead
  rw [hframe, hframe]
  cases o.frame? with
  | none => exact broken_suppresses o _ _
  | some bindings => exact ofDocument_suppresses o source mistakes d bindings

theorem mistakes_prefix_ofRead (o : CompileOptions) (source : String) (mistakes : List Error)
    (d : Document) : (ofRead (o.inMode false) source mistakes d).isBroken = true ∨
      mistakes <+: (ofRead (o.inMode false) source mistakes d).report.errors := by
  unfold ofRead
  cases (o.inMode false).frame? with
  | none => exact .inl (isBroken_broken (o.inMode false) _ _)
  | some bindings => exact mistakes_prefix_ofDocument o source mistakes d bindings

theorem compile_suppresses (source : String) (o : CompileOptions) :
    Suppresses (compile source (o.inMode false)) (compile source (o.inMode true)) := by
  rcases hread : Document.read source with ⟨d, mistakes⟩
  have hlax : compile source (o.inMode false) = ofRead (o.inMode false) source mistakes d := by
    rw [compile, hread]
    rfl
  by_cases hnone : mistakes = []
  · have hstrict : compile source (o.inMode true) = ofRead (o.inMode true) source mistakes d := by
      rw [compile, hread, hnone]
      rfl
    rw [hlax, hstrict]
    exact ofRead_suppresses o source mistakes d
  · -- strict mode leaves before there is an environment
    have hstrict : compile source (o.inMode true) =
        withoutOutput (o.inMode true) ⟨[], mistakes⟩ d := by
      simp [compile, hread, hnone, CompileOptions.inMode]
    have hbegins := mistakes_prefix_ofRead o source mistakes d
    rw [hlax, hstrict]
    refine Suppresses.of_prefix rfl (isOk_eq_false_iff.mpr hnone) (fun hdone => ?_) ?_
    · exact hbegins.resolve_left (by simp [hdone])
    · rw [isOk_eq_false_iff]
      rcases hbegins with hbroken | hprefix
      · intro hempty
        simp [isBroken, hempty] at hbroken
      · intro hempty
        rw [hempty, List.prefix_nil] at hprefix
        exact hnone hprefix

/-- **Strict mode only suppresses output.**  A compilation without errors comes out the same
in strict mode.  One with errors comes out empty and with errors in strict mode; unless the
work could not be done in one of the modes, which is a runtime error, the errors in strict
mode are the first ones of the errors without it. -/
theorem compile_inMode (source : String) (o : CompileOptions) :
    let lax := compile source (o.inMode false)
    let strict := compile source (o.inMode true)
    (lax.report.errors = [] → strict = lax) ∧
      (lax.report.errors ≠ [] → strict.html = "" ∧ strict.report.errors ≠ [] ∧
        ((∀ err ∈ lax.report.errors, err.kind ≠ .runtime) →
          (∀ err ∈ strict.report.errors, err.kind ≠ .runtime) →
            strict.report.errors <+: lax.report.errors)) := by
  intro lax strict
  have h : Suppresses lax strict := compile_suppresses source o
  have hbroken {c : Compilation} (hc : ∀ err ∈ c.report.errors, err.kind ≠ .runtime) :
      c.isBroken = false := by
    simpa [isBroken] using hc
  constructor
  · intro hnone
    exact h.same (by simp [isOk, hnone])
  · intro hsome
    have hok : lax.isOk = false := isOk_eq_false_iff.mpr hsome
    refine ⟨h.html hok, isOk_eq_false_iff.mp (h.isOk hok), fun hlax hstrict => ?_⟩
    exact h.errors (hbroken hlax) (hbroken hstrict)

end Compilation

end Livedoc

/-!
## What a compilation renders

A compilation leaves early with errors and without HTML, or it renders the document that the
source expands to (`compile_rendered`).  So its HTML may be empty although there is no error, but
a whole page never is (`render_standalone_ne`).
-/

namespace Livedoc

open Livedoc.Html Livedoc.Problem Livedoc.Tree

/-- What a source expands to, with the environment after it, from the variables it starts
with. -/
def CompileOptions.expansion (o : CompileOptions) (source : String) (bindings : Frame) :
    Document × Environment :=
  let d := (Document.read source).result
  let e := o.environment source bindings
  Environment.expand { e with store := { e.store with
    metadata := Document.metadata documentTypes d o.defaults } } d

/-- A compilation renders what its source expands to. -/
structure Compilation.Renders (c : Compilation) (source : String) (o : CompileOptions)
    (d : Document) : Prop where
  expanded : ∃ bindings, o.frame? = some bindings ∧ d = (o.expansion source bindings).1
  document : c.document = some d
  html : ∃ info, c.html = render d (o.presentation info)

/-- **A compilation without HTML to show has errors, or else renders its document.** -/
theorem compile_rendered (source : String) (o : CompileOptions) :
    ((compile source o).html = "" ∧ (compile source o).isOk = false) ∨
      ∃ d, (compile source o).Renders source o d := by
  unfold compile
  dsimp only
  split
  · next hstrict =>
      refine .inl ⟨rfl, ?_⟩
      rw [Bool.and_eq_true, Bool.not_eq_true'] at hstrict
      exact hstrict.2
  · split
    · exact .inl ⟨rfl, rfl⟩
    · next bindings hframe =>
        unfold Compilation.ofDocument
        dsimp only
        split
        · exact .inl ⟨rfl, rfl⟩
        · unfold Compilation.finished
          split
          · next hstrict =>
              refine .inl ⟨rfl, ?_⟩
              rw [Bool.and_eq_true, Bool.not_eq_true'] at hstrict
              exact hstrict.2
          · exact .inr ⟨_, ⟨bindings, hframe, rfl⟩, rfl, _, rfl⟩

/-- What is shown is the document. -/
theorem Compilation.exists_renders {source : String} {o : CompileOptions}
    (h : (compile source o).html ≠ "") : ∃ d, (compile source o).Renders source o d :=
  (compile_rendered source o).resolve_left fun hempty => h hempty.1

/-- **A page is never empty**: it starts with a declaration. -/
theorem Html.render_standalone_ne {d : Document} {p : Presentation} (h : p.standalone = true) :
    render d p ≠ "" := by
  rw [render, if_pos h, ne_eq, String.append_eq_empty_iff]
  exact fun hempty => absurd hempty.1 (by decide)

end Livedoc
