import Livedoc.Datum
import Livedoc.Document.Metadata
import Livedoc.Expansion.Nodes
import Livedoc.Html.Page

/-!
# Compilation

Compiling a source reads it, expands it and writes it as HTML. It always gives a
result. By default errors are reported beside the best HTML that can be had; in
strict mode any error leaves no HTML at all. Where the work cannot be done, because
a variable holds an integer that is too large or a file cannot be read, the result
is a single error, with the warnings found up to then.

What a document says about itself is collected twice: first from its calls as they
are written, so that its content can refer to it, then from what expansion recorded.
-/

namespace Livedoc

open Livedoc.Html Livedoc.Problem Livedoc.Tree

/-- What a caller settles. The document itself may choose another type and theme. -/
structure CompileOptions where
  type : Option String := none
  theme : Option String := none
  medium : Medium := .screen
  /-- Whether an error leaves no HTML. -/
  strict : Bool := false
  includePaths : List Path := []
  filename : String := "input.dd"
  bindings : Dictionary Datum := []
  standalone : Bool := true
  stylesheets : List String := []
  scripts : List String := []
  properties : List (String × String) := []
  files : Files := {}
  limits : Limits := {}
  moment : Moment

/-- What is known about a document. -/
structure DocumentInfo where
  title : String := "Document"
  author : Option String := none
  language : String := "en"
  type : String := "plain"
  theme : String := "default"
  layout : Option String := none
  /-- When the document was compiled. -/
  created : Moment
deriving DecidableEq, Repr

/-- The result of compiling a source. -/
structure Compilation where
  /-- Empty where the work was broken off. -/
  html : String
  info : DocumentInfo
  report : Report
  /-- The expanded document, if there is one. -/
  document : Option Document
  /-- Files of which nothing was known. -/
  unknown : List Path := []

/-- Whether there are no errors. -/
def Compilation.isOk (c : Compilation) : Bool := c.report.errors.isEmpty

/-- A text that is there and not empty. -/
def given? (metadata : Dictionary String) (key : String) : Option String :=
  (metadata.get? key).filter (· != "")

namespace DocumentInfo

/-- What metadata say about a document. -/
def ofMetadata (metadata : Dictionary String) (created : Moment) : DocumentInfo where
  title := (given? metadata "title").getD "Document"
  author := given? metadata "author"
  language := (given? metadata "language").getD "en"
  type := (given? metadata "doctype").getD "plain"
  theme := (given? metadata "theme").getD "default"
  layout := given? metadata "layout"
  created

end DocumentInfo

namespace CompileOptions

/-- The metadata that a document starts from. -/
def defaults (o : CompileOptions) : Dictionary String :=
  [("title", "Document"), ("language", "en"), ("doctype", orElse (o.type.getD "") "plain"),
   ("theme", orElse (o.theme.getD "") "default")]

/-- The variables that a document starts with; nothing if one of them has no value. -/
def frame? (o : CompileOptions) : Option Frame :=
  o.bindings.mapM fun (name, d) => d.toValue?.map fun v => (name, v)

/-- How a document is shown. -/
def presentation (o : CompileOptions) (info : DocumentInfo) : Presentation where
  type := info.type
  theme := info.theme
  layout := info.layout
  title := info.title
  author := info.author
  language := info.language
  standalone := o.standalone
  medium := o.medium
  stylesheets := o.stylesheets
  scripts := o.scripts
  properties := o.properties

/-- A fresh environment for a source. -/
def environment (o : CompileOptions) (source : String) (bindings : Frame) : Environment :=
  .create source o.filename none o.includePaths o.files o.limits bindings o.moment

end CompileOptions

/-- The metadata after expansion. A type that does not exist is not taken over. -/
def settledMetadata (early recorded : Dictionary String) : Dictionary String :=
  Dictionary.setAll early
    (recorded.filter fun (key, value) => key != "doctype" || documentTypes.contains value)

namespace Compilation

/-- The result in strict mode where there are errors. -/
def withoutOutput (o : CompileOptions) (report : Report) (d : Document) : Compilation :=
  { html := "", info := { created := o.moment }, report, document := some d }

/-- The result where the work could not be done. -/
def broken (o : CompileOptions) (reason : String) (warnings : List Warning) : Compilation :=
  { html := "", info := { created := o.moment }, document := none
    report := ⟨warnings, [⟨"Compilation failed: " ++ reason, .runtime, .unknown⟩]⟩ }

/-- The result for an expanded document. -/
def finished (o : CompileOptions) (early recorded : Dictionary String) (report : Report)
    (d : Document) : Compilation :=
  if o.strict && !report.errors.isEmpty then withoutOutput o report d
  else
    let info := DocumentInfo.ofMetadata (settledMetadata early recorded) o.moment
    { html := render d (o.presentation info), info, report, document := some d }

/-- The result for a document that was read, with the variables it starts with. -/
def ofDocument (o : CompileOptions) (source : String) (mistakes : List Error) (d : Document)
    (bindings : Frame) : Compilation :=
  let early := Document.metadata documentTypes d o.defaults
  let e := o.environment source bindings
  let (expanded, e) := Environment.expand { e with store := { e.store with metadata := early } } d
  let report : Report := ⟨e.store.report.warnings, mistakes ++ e.store.report.errors⟩
  let result := match e.store.inquiry.unreadable with
    | some reason => broken o reason report.warnings
    | none => finished o early e.store.metadata report expanded
  { result with unknown := e.store.inquiry.unknown }

end Compilation

/-- Compiles a source. -/
def compile (source : String) (o : CompileOptions) : Compilation :=
  let ⟨d, mistakes⟩ := Document.read source
  if o.strict && !mistakes.isEmpty then .withoutOutput o ⟨[], mistakes⟩ d
  else
    match o.frame? with
    | none => .broken o "int too large to convert to float" []
    | some bindings => .ofDocument o source mistakes d bindings

end Livedoc
