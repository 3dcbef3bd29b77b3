import Livedoc.Proofs.Document.LineText
import Livedoc.Proofs.Expansion.Elsewhere
import Livedoc.Proofs.Expansion.Isolation
import Livedoc.Proofs.Expansion.Nesting

/-!
# Shared includes are splices

An include that is not isolated expands the content of its file with the variables, functions and
metadata of the document. It does so in other surroundings than those of the include: within a
call, with one more file open, and with the text of the file as the source. If the content
includes no further file, none of that shows, and the include comes to what the nodes of the file
would come to in its place (`expandNodes_splice`).

What is left of the file is its mistakes. They are recorded before its nodes are expanded, each
with the name of the file before it.

An argument of a call may be a literal for want of a call in it. If it has no dot it is taken as it
is; else it is read as the content of a line, and what comes of that is the text that the nodes hold.
If no call and no reference starts in the argument, nothing is recorded in either case
(`resolveText_uncalled`). But the two ways differ in the text. With a dot in it an argument loses its
Markdown: the asterisks of emphasis, the backslashes of escapes, the address of a link, the spaces
around a line break.
-/

namespace Livedoc

open Livedoc.Environment Livedoc.Expansion Livedoc.Problem Livedoc.Source Livedoc.Text Livedoc.Tree
open List (Sublist)

/-! ## Literals -/

/-- Whether a text is a literal: it has no dot, or what it reads as has nothing dynamic in it. -/
def Literal (raw : String) : Prop :=
  raw.toList.contains '.' = true → Static (Document.readLine raw)

/-- The text that a literal stands for. -/
def literalText (raw : String) : String :=
  if raw.toList.contains '.' then Node.textOf (Document.readLine raw) else raw

theorem Literal.of_no_dot {raw : String} (h : raw.toList.contains '.' = false) : Literal raw := by
  intro hdot
  rw [h] at hdot
  cases hdot

/-- Resolving a literal gives the text that it stands for, and does nothing. -/
theorem Literal.resolve {raw : String} (h : Literal raw) (e : Environment) :
    resolveText expandNodes raw e = (.ok (literalText raw), e) := by
  unfold resolveText literalText
  split
  · rename_i hdot
    rw [expandNodes_of_static (h hdot)]
    rfl
  · rfl

/-! ## Calls that share a file -/

/-- The mistakes of a file, each with the name of the file before it. -/
def fileMistakes (c : Invocation) (path : Path) (source : String) : List Error :=
  (Document.read source).mistakes.map fun m => ⟨path.name ++ ": " ++ m.message, .malformed, c.firstSpan⟩

namespace Environment

/-- The environment within a call that has looked for a file. `display` is the path of the file as
it is spelt. -/
def withinInclude (e : Environment) (c : Invocation) (display : String) : Environment where
  setting := e.setting.enterCall c.name c.namedTexts
  store := e.store.askFor (e.setting.files.unknown (e.setting.candidates display))

/-- The environment in which the nodes of a file are expanded where it is included: within the
call and the file, with the mistakes of the file recorded. `path` is the resolved path. -/
def withinFile (e : Environment) (c : Invocation) (display : String) (path : Path)
    (source : String) : Environment where
  setting := ({ (e.withinInclude c display).setting with
    includes := e.setting.includes ++ [path] } : Setting).reading path source
  store := (e.withinInclude c display).store.failAll (fileMistakes c path source)

end Environment

/-- A call includes a file as a part of the document. Its only argument is a literal path, under
which a file with this text is found. The call does not ask for isolation: it has no such named
argument, or one that comes to a text that does not count as true, and does nothing else. -/
structure Invocation.Shares (c : Invocation) (e : Environment) (display : String) (path : Path)
    (source : String) : Prop where
  argument : ∃ a, c.arguments = [a] ∧ Literal a.content ∧ strip (literalText a.content) = display
  nonempty : display ≠ ""
  found : e.setting.searchInclude display = .found path source
  shared : ∀ raw, c.namedTexts.get? "isolated" = some raw → ∃ text,
    resolveText expandNodes raw (e.withinInclude c display) = (.ok text, e.withinInclude c display) ∧
      isTruthyText text = false

namespace Expansion

variable {c : Invocation} {e : Environment} {display source : String} {path : Path}
variable {nodes : List Node}

/-- The named argument does nothing. -/
theorem namedText_shared (h : c.Shares e display path source) :
    ∃ given, namedText? expandNodes "isolated" (e.withinInclude c display) =
        (.ok given, e.withinInclude c display) ∧ isTruthyText (given.getD "") = false := by
  have hgiven : named? "isolated" (e.withinInclude c display) =
      (.ok (c.namedTexts.get? "isolated"), e.withinInclude c display) := rfl
  unfold namedText?
  rw [bind_ok hgiven]
  cases hraw : c.namedTexts.get? "isolated" with
  | none => exact ⟨none, rfl, by decide⟩
  | some raw =>
      obtain ⟨text, htext, hfalse⟩ := h.shared raw hraw
      exact ⟨some text, bind_ok htext _, hfalse⟩

/-- The call comes to the file, and until then it does nothing but to look for it. -/
theorem inclusionOf_shared (h : c.Shares e display path source) :
    inclusionOf expandNodes c { e with setting := e.setting.enterCall c.name c.namedTexts } =
      (.ok (.file path display source false), e.withinInclude c display) := by
  let inside : Environment := { e with setting := e.setting.enterCall c.name c.namedTexts }
  obtain ⟨a, harguments, hliteral, hdisplay⟩ := h.argument
  have hpath : strippedArgument expandNodes c 0 inside = (.ok display, inside) := by
    unfold strippedArgument argumentText
    simp only [harguments, List.getElem?_cons_zero]
    rw [bind_ok (hliteral.resolve inside), hdisplay]
    rfl
  have hfile : findFile display c.firstSpan inside =
      (.ok (some (path, source)), e.withinInclude c display) := by
    have hsearch : inside.setting.searchInclude display = .found path source := h.found
    simp only [findFile, hsearch]
    rfl
  obtain ⟨given, hgiven, hfalse⟩ := namedText_shared h
  show inclusionOf expandNodes c inside = _
  unfold inclusionOf
  rw [bind_ok hpath, if_neg h.nonempty, bind_ok hfile]
  dsimp only
  rw [bind_ok hgiven, hfalse]
  rfl

/-- The content of a file is what its nodes come to, with the file open and read from, and its
mistakes recorded. -/
theorem fileNodes_eq_ok {expand : Expander} {after : Environment}
    (h : fileNodes expand c path display source e = (.ok nodes, after)) :
    ∃ last, expand (Document.read source).result.children
        { setting := ({ e.setting with includes := e.setting.includes ++ [path] } : Setting).reading
            path source
          store := e.store.failAll (fileMistakes c path source) } = (.ok nodes, last) ∧
      after.store = last.store := by
  simp only [fileNodes] at h
  obtain ⟨opened, _, last, hopened, hreading, rfl⟩ := inBlock_eq_ok h
  obtain ⟨setting, hfile, rfl, rfl⟩ := enter_file_eq_ok hopened
  obtain ⟨-, -, rfl⟩ := including_eq_ok_iff.mp hfile
  obtain ⟨inner, _, last, hinner, hrun, rfl⟩ := inBlock_eq_ok hreading
  cases hinner
  obtain ⟨_, recorded, hrecord, hnodes⟩ := bind_eq_ok hrun
  cases hrecord
  exact ⟨last, hnodes, rfl⟩

/-- What the call comes to, the nodes of its file come to within it. -/
theorem expandNodes_withinFile {after : Environment}
    (hcallee : e.store.callee? c.name = some (.builtin .inclusion))
    (hshares : c.Shares e display path source)
    (h : expandNodes [c.toNode] e = (.ok nodes, after)) :
    ∃ last, expandNodes (Document.read source).result.children
        (e.withinFile c display path source) = (.ok nodes, last) ∧ after.store = last.store := by
  rw [expandNodes_include hcallee] at h
  obtain ⟨inside, _, last, henter, hrun, rfl⟩ := inBlock_eq_ok h
  obtain ⟨setting, hcall, rfl, rfl⟩ := enter_call_eq_ok henter
  obtain ⟨-, rfl⟩ := call_eq_ok_iff.mp hcall
  rw [bind_ok (inclusionOf_shared hshares), Inclusion.content, if_neg Bool.false_ne_true] at hrun
  obtain ⟨inner, hnodes, hstore⟩ := fileNodes_eq_ok hrun
  exact ⟨inner, hnodes, hstore⟩

/-- **A shared include is a splice.** Let a call of the built-in function include a file, named by
a literal path, as a part of the document. If it expands without breaking off, and the nodes of
the file include no further one, then it gives what these nodes expand to in the environment of
the call. Both leave the same setting, variables, frames, functions, metadata and warnings. The
errors are the same as well, apart from the mistakes of the file, which the call records once,
each with the name of the file before it. -/
theorem expandNodes_splice
    (hcallee : e.store.callee? c.name = some (.builtin .inclusion))
    (hshares : c.Shares e display path source)
    (hno : NeverIncludes (Document.read source).result.children
      (e.withinFile c display path source))
    (hrun : (expandNodes [c.toNode] e).1 = .ok nodes) :
    let after := (expandNodes [c.toNode] e).2
    let direct := expandNodes (Document.read source).result.children e
    direct.1 = .ok nodes ∧ direct.2.setting = after.setting ∧
      direct.2.store.globals = after.store.globals ∧ direct.2.store.frames = after.store.frames ∧
      direct.2.store.functions = after.store.functions ∧
      direct.2.store.metadata = after.store.metadata ∧
      direct.2.store.report.warnings = after.store.report.warnings ∧
      ∃ new, direct.2.store.report.errors = e.store.report.errors ++ new ∧
        after.store.report.errors =
          e.store.report.errors ++ fileMistakes c path source ++ new := by
  intro after direct
  have hafter : after.setting = e.setting := (expandNodes_restores [c.toNode] e).setting
  have hdirect : direct.2.setting = e.setting := (expandNodes_restores _ e).setting
  obtain ⟨last, hwithin, hstore⟩ := expandNodes_withinFile hcallee hshares (Prod.ext hrun rfl)
  -- no file is looked for, so it does not matter if none can be read
  have hblind := hno .blind
  rw [hwithin] at hblind
  have houtside := expandNodes_outside e.setting.calls e.setting.named
    (by simp [withinFile, withinInclude, withFiles, Setting.reading, Setting.enterCall]) hblind
  obtain ⟨new, hnew, hmoved⟩ := expandNodes_moved Files.blind_blind houtside
  have hplace : Sublist e.setting.includes (e.withinFile c display path source).setting.includes :=
    List.sublist_append_left _ _
  have hspliced : direct = (.ok nodes, _) :=
    hmoved e.setting e.store.report.errors e.store.inquiry hplace
  rw [hspliced] at hdirect ⊢
  refine ⟨rfl, hdirect.trans hafter.symm, ?_⟩
  rw [show after.store = last.store from hstore]
  exact ⟨rfl, rfl, rfl, rfl, rfl, new, rfl, hnew⟩

/-- A file that sets a variable, shows it and another one that is missing, and ends within the
argument of a call. -/
theorem expandNodes_splice_unterminated :
    let source := ".var \x7bx\x7d \x7b1\x7d\n\n.x .y\n\n.upper \x7b"
    let e : Environment := .create "" "d" none [] (.ofTexts [(.ofText "/a.dd", source)]) {} []
      { year := 2024, month := 3, day := 9 }
    let c : Invocation :=
      ⟨"include", [⟨"a.dd", .unknown⟩], [⟨"isolated", ⟨"false", .unknown⟩, .unknown⟩], [], .unknown⟩
    let after := expandNodes [c.toNode] e
    let direct := expandNodes (Document.read source).result.children e
    c.Shares e "a.dd" (.ofText "/a.dd") source ∧
      NeverIncludes (Document.read source).result.children
        (e.withinFile c "a.dd" (.ofText "/a.dd") source) ∧
      direct.1 = after.1 ∧ direct.2.store.globals = after.2.store.globals ∧
      direct.2.store.report.warnings = after.2.store.report.warnings ∧
      after.2.store.report.warnings.map (·.message) = ["Undefined variable: y"] ∧
      after.2.store.report.errors.map (·.message) =
        ["a.dd: unterminated argument group in call to .upper"] ∧
      direct.2.store.report.errors = [] := by
  intro source e c after direct
  have hshares : c.Shares e "a.dd" (.ofText "/a.dd") source := by
    refine ⟨⟨_, rfl, ?_, by decide +kernel⟩, by decide, by decide +kernel, ?_⟩
    · unfold Literal Static
      decide +kernel
    · intro raw hraw
      obtain rfl : "false" = raw := Option.some.inj hraw
      exact ⟨"false", rfl, by decide⟩
  have hsome (result : Except Failure (List Node)) (h : result.toOption.isSome = true) :
      ∃ nodes, result = .ok nodes := by
    cases result with
    | ok nodes => exact ⟨nodes, rfl⟩
    | error f => cases h
  have hno : NeverIncludes (Document.read source).result.children
      (e.withinFile c "a.dd" (.ofText "/a.dd") source) := by
    obtain ⟨nodes, hblind⟩ := hsome (expandNodes (Document.read source).result.children
      ((e.withinFile c "a.dd" (.ofText "/a.dd") source).withFiles .blind)).1 (by decide +kernel)
    exact neverIncludes_of_blind hblind
  obtain ⟨nodes, hrun⟩ := hsome after.1 (by decide +kernel)
  obtain ⟨hnodes, -, hglobals, -, -, -, hwarnings, -⟩ := expandNodes_splice rfl hshares hno hrun
  exact ⟨hshares, hno, hnodes.trans hrun.symm, hglobals, hwarnings, by decide +kernel,
    by decide +kernel, by decide +kernel⟩

end Expansion

end Livedoc

/-! ## Arguments without calls -/

namespace Livedoc.Expansion

open Livedoc.Document Livedoc.Environment Livedoc.Markdown Livedoc.Source Livedoc.Tree
  Livedoc.Tree.Node

variable {raw : String}

/-- A text without calls and references is a literal. -/
theorem literal_of_uncalled (h : Uncalled none raw.toList) : Literal raw := by
  intro _
  refine any_isDynamic_walkAll.mp (List.any_eq_false.mpr fun m hm hdynamic => ?_)
  exact (readLine_holds h).static m hm hdynamic

theorem literalText_of_uncalled (h : Uncalled none raw.toList) (hdot : '.' ∈ raw.toList) :
    literalText raw = String.ofList (Inline.shownAll (readInline [] raw.toList)) := by
  rw [literalText, if_pos (List.contains_iff_mem.mpr hdot)]
  exact (readLine_holds h).text

/-- **An argument in which no call and no reference starts resolves to a text**, in every
environment and without any change to it. An argument without a dot is this text. Any other
argument resolves to what its markup shows. That is no longer than the argument, it is the
argument only if this has no markup, and it is the argument whenever no character of it can start
markup. -/
theorem resolveText_uncalled (h : Uncalled none raw.toList) (e : Environment) :
    ∃ text, resolveText expandNodes raw e = (.ok text, e) ∧
      ('.' ∉ raw.toList → text = raw) ∧
      ('.' ∈ raw.toList →
        text = String.ofList (Inline.shownAll (readInline [] raw.toList)) ∧
        text.length ≤ raw.length ∧
        (text = raw → (readInline [] raw.toList).all Inline.isPlain = true) ∧
        ((∀ c ∈ raw.toList, startsMarkup c = false) → text = raw)) := by
  refine ⟨literalText raw, (literal_of_uncalled h).resolve e, fun hdot => ?_, fun hdot => ?_⟩
  · rw [literalText, if_neg (mt List.contains_iff_mem.mp hdot)]
  · have hreduces := readInline_reduces [] h
    rw [literalText_of_uncalled h hdot]
    refine ⟨rfl, ?_, fun htext => ?_, fun hplain => ?_⟩
    · have hlength := hreduces.length_le
      rw [String.length_ofList, ← String.length_toList]
      simpa only [Inline.shownAll, Inline.shown, List.append_nil] using hlength
    · have hshown := congrArg String.toList htext
      rw [String.toList_ofList] at hshown
      exact hreduces.all_isPlain hshown
    · rw [shownAll_readInline [] h hplain, String.ofList_toList]

/-- A file name, a number and the end of a sentence. -/
theorem resolveText_uncalled_sentence :
    let raw := "See notes.txt, 1.5 and ..x (a.b)!"
    let e : Environment :=
      .create "" "d" none [] (.ofTexts []) {} [] { year := 2024, month := 3, day := 9 }
    Uncalled none raw.toList ∧ resolveText expandNodes raw e = (.ok raw, e) := by
  intro raw e
  have huncalled : Uncalled none raw.toList := by decide
  have hall : raw.toList.all (fun c => !startsMarkup c) = true := by decide
  have hplain : ∀ c ∈ raw.toList, startsMarkup c = false := by
    simpa only [List.all_eq_true, Bool.not_eq_true'] using hall
  obtain ⟨text, hrun, -, hdot⟩ := resolveText_uncalled huncalled e
  obtain ⟨-, -, -, htext⟩ := hdot (by decide)
  rw [htext hplain] at hrun
  exact ⟨huncalled, hrun⟩

/-- With a dot in it an argument loses the marks of emphasis, which it keeps without one. -/
theorem resolveText_emphasis_ne :
    let e : Environment :=
      .create "" "d" none [] (.ofTexts []) {} [] { year := 2024, month := 3, day := 9 }
    Uncalled none "*1.5*".toList ∧ resolveText expandNodes "*1.5*" e = (.ok "1.5", e) ∧
      "1.5" ≠ "*1.5*" ∧ resolveText expandNodes "*15*" e = (.ok "*15*", e) := by
  intro e
  have huncalled : Uncalled none "*1.5*".toList := by decide
  have htext : literalText "*1.5*" = "1.5" := by decide +kernel
  refine ⟨huncalled, ?_, by decide, rfl⟩
  rw [(literal_of_uncalled huncalled).resolve, htext]

end Livedoc.Expansion
