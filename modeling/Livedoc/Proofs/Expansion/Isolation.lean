import Livedoc.Proofs.Expansion.Demand
import Livedoc.Proofs.Expansion.Static

/-!
# Isolated includes

An include first finds out what it is about: its path, the file, and whether the file is to be
expanded in isolation. Then the content of the file is expanded, within the call and, if it is
isolated, on a copy of the environment. `inclusionOf` is the first part and `Inclusion.content`
the second; expanding the call is both of them within the call (`expandNodes_include`), since
what they give is static.

What an isolated file does, it does to the copy. Its messages are taken over if its expansion
was completed, and then all of them; if it broke off, those that the copy had by then are lost
(`expandNodes_isolated_report`).
-/

namespace Livedoc

open Livedoc.Environment Livedoc.Expansion Livedoc.Problem Livedoc.Tree

/-! ## Taking over messages -/

/-- A report with what a later one has more is the later one. -/
theorem Problem.Report.extend_of_prefix {r later : Report} (hwarnings : r.warnings <+: later.warnings)
    (herrors : r.errors <+: later.errors) : r.extend later = later := by
  obtain ⟨newWarnings, hwarnings⟩ := hwarnings
  obtain ⟨newErrors, herrors⟩ := herrors
  rw [Report.extend, ← hwarnings, ← herrors, List.drop_left, List.drop_left, hwarnings, herrors]

namespace Expansion

/-- A copy starts with all messages, so taking over what it has more gives what it has. -/
theorem report_adopt {e copy : Environment} (h : Restored e.clone copy) :
    (e.mapStore (·.adopt copy.store)).store.report = copy.store.report :=
  Report.extend_of_prefix h.warnings h.errors

end Expansion

/-! ## The two parts of an include -/

/-- What an include is about. -/
inductive Inclusion where
  /-- No file is entered, and this is shown in its place. -/
  | refused (content : List Node)
  /-- The content of a file at a resolved path. -/
  | file (path : Path) (display source : String) (isolated : Bool)

/-- Finds out what an include is about. -/
def inclusionOf (expand : Expander) (c : Invocation) : Expansion Inclusion := do
  let path ← strippedArgument expand c 0
  if path = "" then
    Expansion.warn "include requires a path" .style c.firstSpan
    return .refused []
  match ← Expansion.findFile path c.firstSpan with
  | none =>
    Expansion.warn ("Included file not found: " ++ path) .style c.firstSpan
    return .refused [.text ("[missing include: " ++ path ++ "]") c.firstSpan]
  | some (resolved, source) =>
    let isolated := (← namedText? expand "isolated").getD ""
    return .file resolved path source (isTruthyText isolated)

/-- The content that an include gives. -/
def Inclusion.content (expand : Expander) (c : Invocation) : Inclusion → Expansion (List Node)
  | .refused content => pure content
  | .file path display source isolated =>
    if isolated then inIsolation (fileNodes expand c path display source)
    else fileNodes expand c path display source

theorem includeFile_eq (expand : Expander) (c : Invocation) :
    includeFile expand c = inclusionOf expand c >>= Inclusion.content expand c := by
  unfold includeFile inclusionOf
  rw [bind_assoc]
  refine bind_congr fun path => ?_
  split
  · rw [bind_assoc]
    rfl
  · rw [bind_assoc]
    refine bind_congr fun found => ?_
    cases found with
    | none =>
        rw [bind_assoc]
        rfl
    | some file =>
        rw [bind_assoc]
        refine bind_congr fun isolated => ?_
        rw [pure_bind]
        rfl

theorem fileNodes_restores (c : Invocation) (path : Path) (display source : String) :
    Restores (fileNodes expandNodes c path display source) :=
  (Composed.fileNodes c path display source).restores
    (Meaning.restores_inCall expandNodes_restores (expandCall expandNodes))

theorem fileNodes_static (c : Invocation) (path : Path) (display source : String) :
    Returns Static (fileNodes expandNodes c path display source) := by
  unfold fileNodes
  refine Returns.inBlock _ (Returns.inBlock _ ?_)
  exact Returns.bind (Returns.trivial _) fun _ _ => expandNodes_static _

theorem inclusion_static (c : Invocation) : Returns Static
    (inclusionOf expandNodes c >>= Inclusion.content expandNodes c) := by
  rw [← includeFile_eq]
  unfold includeFile
  refine .bind (.trivial _) fun path _ => ?_
  split
  · exact .bind (.trivial _) fun _ _ => .pure .nil
  · refine .bind (.trivial _) fun found _ => ?_
    cases found with
    | none => exact .bind (.trivial _) fun _ _ => .pure (.leaf (by simp [Node.walk]) rfl)
    | some file =>
        refine .bind (.trivial _) fun isolated _ => ?_
        dsimp only
        split
        · exact .inIsolation (fileNodes_static c file.1 path file.2)
        · exact fileNodes_static c file.1 path file.2

/-! ## Expanding an include -/

/-- Expanding a single call is what the call stands for. -/
theorem expandNodes_call (c : Invocation) (e : Environment) :
    expandNodes [c.toNode] e = expandCall expandNodes c e := by
  rw [expandNodes_single]
  rfl

/-- **An include expands to its two parts within its call.** -/
theorem expandNodes_include {c : Invocation} {e : Environment}
    (hcallee : e.store.callee? c.name = some (.builtin .inclusion)) :
    expandNodes [c.toNode] e = inBlock (.call c.name c.namedTexts c.span)
      (inclusionOf expandNodes c >>= Inclusion.content expandNodes c) e := by
  have hrun : Callee.run expandNodes c (.builtin .inclusion) =
      (inclusionOf expandNodes c >>= Inclusion.content expandNodes c) := by
    show includeFile expandNodes c >>= expandNodes = _
    rw [includeFile_eq, bind_expandNodes (inclusion_static c)]
  rw [expandNodes_call, expandCall_known hcallee, hrun]

namespace Expansion

/-! ## Messages of isolated includes -/

section Isolated

variable {c : Invocation} {e inside caller copy : Environment} {block : OpenBlock} {path : Path}
variable {display source : String} {nodes : List Node} {f : Failure}

/-- An isolated include is isolated work within its call. -/
theorem expandNodes_isolated
    (hcallee : e.store.callee? c.name = some (.builtin .inclusion))
    (henter : e.enter (.call c.name c.namedTexts c.span) = .ok (inside, block))
    (hfile : inclusionOf expandNodes c inside = (.ok (.file path display source true), caller)) :
    expandNodes [c.toNode] e =
      ((inIsolation (fileNodes expandNodes c path display source) caller).1,
        (inIsolation (fileNodes expandNodes c path display source) caller).2.leave block) := by
  rw [expandNodes_include hcallee, inBlock_ok henter, bind_ok hfile]
  rfl

/-- A file that is expanded to its end leaves its messages. -/
theorem expandNodes_isolated_ok
    (hcallee : e.store.callee? c.name = some (.builtin .inclusion))
    (henter : e.enter (.call c.name c.namedTexts c.span) = .ok (inside, block))
    (hfile : inclusionOf expandNodes c inside = (.ok (.file path display source true), caller))
    (hwork : fileNodes expandNodes c path display source caller.clone = (.ok nodes, copy)) :
    (expandNodes [c.toNode] e).1 = .ok nodes ∧
      (expandNodes [c.toNode] e).2.store.report = copy.store.report := by
  have hcopy : Restored caller.clone copy :=
    (fileNodes_restores c path display source).restored hwork
  rw [expandNodes_isolated hcallee henter hfile, inIsolation_ok hwork]
  exact ⟨rfl, (report_leave _ block).trans (report_adopt hcopy)⟩

/-- A file that breaks off leaves none. -/
theorem expandNodes_isolated_error
    (hcallee : e.store.callee? c.name = some (.builtin .inclusion))
    (henter : e.enter (.call c.name c.namedTexts c.span) = .ok (inside, block))
    (hfile : inclusionOf expandNodes c inside = (.ok (.file path display source true), caller))
    (hwork : fileNodes expandNodes c path display source caller.clone = (.error f, copy)) :
    (expandNodes [c.toNode] e).1 = .error f ∧
      (expandNodes [c.toNode] e).2.store.report = caller.store.report := by
  rw [expandNodes_isolated hcallee henter hfile, inIsolation_error hwork]
  exact ⟨rfl, report_leave _ block⟩

/-- **Of an isolated include all messages are kept, or none.** Let a call of the built-in
function come to the file at `path`, to be expanded in isolation, in the environment `caller`
within the call. It gives what the file gives on a copy of that environment. The copy starts
with the messages of `caller` and only gets more of them. If the file was expanded to its end,
they are those of the environment after the call, in order; if it broke off, the environment
is left with those of `caller`. So some are lost exactly if the file breaks off after it
recorded one. -/
theorem expandNodes_isolated_report
    (hcallee : e.store.callee? c.name = some (.builtin .inclusion))
    (henter : e.enter (.call c.name c.namedTexts c.span) = .ok (inside, block))
    (hfile : inclusionOf expandNodes c inside = (.ok (.file path display source true), caller)) :
    let work := fileNodes expandNodes c path display source caller.clone
    let after := expandNodes [c.toNode] e
    after.1 = work.1 ∧
      caller.store.report.warnings <+: work.2.store.report.warnings ∧
      caller.store.report.errors <+: work.2.store.report.errors ∧
      (∀ nodes, work.1 = .ok nodes → after.2.store.report = work.2.store.report) ∧
      (∀ f, work.1 = .error f → after.2.store.report = caller.store.report) := by
  intro work after
  have hcopy : Restored caller.clone work.2 :=
    fileNodes_restores c path display source caller.clone
  cases hresult : work.1 with
  | ok nodes =>
      obtain ⟨hnodes, hreport⟩ :=
        expandNodes_isolated_ok hcallee henter hfile (Prod.ext hresult rfl)
      exact ⟨hnodes, hcopy.warnings, hcopy.errors, fun _ _ => hreport, fun _ h => nomatch h⟩
  | error f =>
      obtain ⟨herror, hreport⟩ :=
        expandNodes_isolated_error hcallee henter hfile (Prod.ext hresult rfl)
      exact ⟨herror, hcopy.warnings, hcopy.errors, fun _ h => (nomatch h), fun _ _ => hreport⟩

end Isolated

/-- An environment whose folder holds one file. -/
def folderWith (text : String) : Environment :=
  .create "" "d" none [] (.ofTexts [(.ofText "/a", text)]) {} []
    { year := 2024, month := 3, day := 9 }

/-- An include of that file, in isolation or not. -/
def includeCall (isolated : String) : Invocation where
  name := "include"
  arguments := [⟨"/a", .unknown⟩]
  named := [⟨"isolated", ⟨isolated, .unknown⟩, .unknown⟩]
  body := []
  span := .unknown

/-- The environment within that include. -/
def insideInclude (e : Environment) (isolated : String) : Environment :=
  { e with setting := e.setting.enterCall "include" (includeCall isolated).namedTexts }

/-- The file that an include is about. -/
def Inclusion.file? : Inclusion → Option (Path × String × String × Bool)
  | .refused _ => none
  | .file path display source isolated => some (path, display, source, isolated)

theorem run_eq_of_file? {m : Expansion Inclusion} {e : Environment} {path : Path}
    {display source : String} {isolated : Bool}
    (h : (m e).1.toOption.bind Inclusion.file? = some (path, display, source, isolated)) :
    m e = (.ok (.file path display source isolated), (m e).2) := by
  rcases hrun : m e with ⟨result, e'⟩
  rw [hrun] at h
  match result with
  | .error f => cases h
  | .ok (.refused content) => cases h
  | .ok (.file ..) =>
      cases h
      rfl

/-- A variable that is missing in the file is warned about. -/
theorem expandNodes_isolated_report_missing :
    let e := folderWith ".missing"
    let c := includeCall "true"
    let caller := (inclusionOf expandNodes c (insideInclude e "true")).2
    e.store.callee? c.name = some (.builtin .inclusion) ∧
      e.enter (.call c.name c.namedTexts c.span) = .ok (insideInclude e "true", .call []) ∧
      inclusionOf expandNodes c (insideInclude e "true") =
        (.ok (.file (.ofText "/a") "/a" ".missing" true), caller) ∧
      (expandNodes [c.toNode] e).1 =
        (fileNodes expandNodes c (.ofText "/a") "/a" ".missing" caller.clone).1 ∧
      (expandNodes [c.toNode] e).2.store.report =
        (fileNodes expandNodes c (.ofText "/a") "/a" ".missing" caller.clone).2.store.report ∧
      (expandNodes [c.toNode] e).2.store.report.warnings.map (·.message) =
        ["Undefined variable: missing"] := by
  intro e c caller
  have hcallee : e.store.callee? c.name = some (.builtin .inclusion) := rfl
  have henter : e.enter (.call c.name c.namedTexts c.span) =
      .ok (insideInclude e "true", .call []) := rfl
  have hfile : inclusionOf expandNodes c (insideInclude e "true") =
      (.ok (.file (.ofText "/a") "/a" ".missing" true), caller) :=
    run_eq_of_file? (by decide +kernel)
  have hreport := expandNodes_isolated_report hcallee henter hfile
  obtain ⟨nodes, hok⟩ : ∃ nodes,
      (fileNodes expandNodes c (.ofText "/a") "/a" ".missing" caller.clone).1 = .ok nodes := by
    have hdone : (fileNodes expandNodes c (.ofText "/a") "/a" ".missing"
        caller.clone).1.toOption.isSome = true := by decide +kernel
    cases hresult : (fileNodes expandNodes c (.ofText "/a") "/a" ".missing" caller.clone).1 with
    | ok nodes => exact ⟨nodes, rfl⟩
    | error f =>
        rw [hresult] at hdone
        cases hdone
  exact ⟨hcallee, henter, hfile, hreport.1, hreport.2.2.2.1 nodes hok, by decide +kernel⟩

/-- A file that includes itself breaks off. If it is included as a part of the document, its
warning is there after the call; if it is included in isolation, the copy has the warning and
after the call there is none. -/
theorem expandNodes_isolated_report_lost :
    let source := ".missing\n\n.include \x7b/a\x7d"
    let e := folderWith source
    let c := includeCall "true"
    let caller := (inclusionOf expandNodes c (insideInclude e "true")).2
    let work := fileNodes expandNodes c (.ofText "/a") "/a" source caller.clone
    ((inclusionOf expandNodes c (insideInclude e "true")).1.toOption.bind Inclusion.file? =
        some (.ofText "/a", "/a", source, true)) ∧
      work.1.toOption.isNone = true ∧
      work.2.store.report.warnings.map (·.message) = ["Undefined variable: missing"] ∧
      (expandNodes [c.toNode] e).2.store.report.warnings = [] ∧
      (expandNodes [(includeCall "false").toNode] e).2.store.report.warnings.map (·.message) =
        ["Undefined variable: missing"] := by
  decide +kernel

end Expansion

end Livedoc
