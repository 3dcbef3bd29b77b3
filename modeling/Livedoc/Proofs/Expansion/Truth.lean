import Livedoc.Proofs.Decimal.RoundTrip
import Livedoc.Proofs.Document.WrittenCall
import Livedoc.Proofs.Expansion.ControlFlow
import Livedoc.Proofs.Expansion.Counting
import Livedoc.Proofs.Expansion.Declarations

/-!
# Truth through text

A value counts as true or false by what it is, and a text by what it says. The text of a number is
neither of the two words and makes up a number, so it counts by the number that is read from it,
which is the number itself or the other zero (`isTruthyText_formatNumber`). The text of a truth value
is one of the words, and the text of a text is this text.

That leaves the undefined number. It counts as false, and its text is a word like any other
(`isTruthyText_toText`).

A variable that is set to a reference to another one holds the text of what this one holds
(`expandNodes_assignReference`). So a condition on either variable decides the same, undefined numbers
apart.
-/

namespace Livedoc

open Livedoc.Call Livedoc.Decimal Livedoc.Document Livedoc.Environment Livedoc.Expansion
  Livedoc.Source Livedoc.Text Livedoc.Tree

/-! ## Values -/

/-- Whether a value is the number that is not defined. -/
def Value.isUndefined : Value → Bool
  | .number x => x.isNaN
  | .text _ | .boolean _ => false

/-- A number whose parts are those of no number is undefined. -/
theorem isNaN_of_ofFloat {x : Float} (h : Binary.ofFloat x = .nan) : x.isNaN = true := by
  have hlt : x.toBits.toNat < 2 ^ 64 := x.toBits.toNat_lt
  rcases Binary.ofBits_cases hlt with hnan | ⟨_, hbinary, -⟩ | ⟨_, _, _, hbinary, -⟩
  · exact isNaN_of_bits hnan.2.1 hnan.2.2
  · rw [Binary.ofFloat, hbinary] at h
    cases h
  · rw [Binary.ofFloat, hbinary] at h
    cases h

/-- A text that spells a number in full, and is no word for true or false, counts as the number. -/
theorem isTruthyText_of_readsAs {text : String} {y : Float} (hread : ReadsAs text y)
    (hstrip : strip text = text) (htrue : toLower text ≠ "true") (hfalse : toLower text ≠ "false") :
    isTruthyText text = isTruthyNumber y := by
  unfold isTruthyText
  simp only [hstrip, if_neg htrue, if_neg hfalse, hread.parse.2]

/-- The text of a number is no word for true or false, and has no white space around it. -/
theorem formatNumber_plain {x : Float} (hx : x.isNaN = false) :
    strip (formatNumber x) = formatNumber x ∧ toLower (formatNumber x) ≠ "true" ∧
      toLower (formatNumber x) ≠ "false" := by
  unfold formatNumber
  cases hbinary : Binary.ofFloat x with
  | nan =>
      rw [isNaN_of_ofFloat hbinary] at hx
      cases hx
  | infinite negative => cases negative <;> decide +kernel
  | finite negative m e =>
      have hmarks := OfMarks.formatBinary negative m e
      have hletter : ∀ word : String, ¬ OfMarks word →
          toLower (formatBinary (.finite negative m e)) ≠ word := by
        intro word hword heq
        rw [hmarks.toLower] at heq
        exact hword (heq ▸ hmarks)
      constructor
      · exact hmarks.strip
      · exact ⟨hletter "true" (by decide), hletter "false" (by decide)⟩

/-- **The text of a number counts as the number.** -/
theorem isTruthyText_formatNumber {x : Float} (hx : x.isNaN = false) :
    isTruthyText (formatNumber x) = isTruthyNumber x := by
  obtain ⟨y, hread, hy⟩ := exists_readsAs hx
  obtain ⟨hstrip, htrue, hfalse⟩ := formatNumber_plain hx
  rw [isTruthyText_of_readsAs hread hstrip htrue hfalse]
  rcases hy with rfl | ⟨rfl, rfl⟩
  · rfl
  · -- neither zero counts as true
    decide +kernel

/-- The text of a value counts as the value, but that of the undefined number, which counts as
true. -/
theorem isTruthyText_toText (v : Value) : isTruthyText v.toText = (v.isTruthy || v.isUndefined) := by
  cases v with
  | text s => exact (Bool.or_false _).symm
  | boolean b => cases b <;> decide +kernel
  | number x =>
      cases hx : x.isNaN with
      | false =>
          show isTruthyText (formatNumber x) = (isTruthyNumber x || x.isNaN)
          rw [isTruthyText_formatNumber hx, hx, Bool.or_false]
      | true =>
          rw [Float.isNaN_eq_decide_eq_nan, decide_eq_true_eq] at hx
          subst hx
          decide +kernel

/-! ## Conditions -/

/-- The condition is a reference to the variable. -/
def RefersTo (condition name : String) : Prop :=
  ∃ rest, trim condition.toList = '.' :: rest ∧ String.ofList (trim rest) = name

/-- A reference holds if the variable is there and counts as true. -/
theorem holds_of_refersTo {condition name : String} (h : RefersTo condition name) (s : Store) :
    s.holds condition = ((s.lookup name).map Value.isTruthy).getD false := by
  obtain ⟨rest, htrim, rfl⟩ := h
  rw [Store.holds, htrim]
  rfl

/-- A reference to a variable that holds the text of a value decides as one to a variable that holds
the value, unless this is undefined. -/
theorem holds_toText {s s' : Store} {condition condition' x y : String} {v : Value}
    (hx : RefersTo condition x) (hy : RefersTo condition' y) (hv : s.lookup x = some v)
    (htext : s'.lookup y = some (.text v.toText)) :
    s'.holds condition' = (s.holds condition || v.isUndefined) := by
  rw [holds_of_refersTo hx, holds_of_refersTo hy, hv, htext, Option.map_some, Option.getD_some,
    Option.map_some, Option.getD_some, ← isTruthyText_toText v]
  rfl

/-! ## A variable that is set to another one -/

namespace Document

/-- A text that is a reference from start to end is read within a line as the reference. -/
theorem readLine_reference {name : List Char} (hname : isName name = true) :
    ∃ span, readLine (String.ofList ('.' :: name)) = [.reference (String.ofList name) span] := by
  let head : Head := ⟨String.ofList name, [], 0, 0 + 1 + name.length, false⟩
  have hhead : headAt? 0 ('.' :: name) = some head := by
    have hscan : headAt? 0 ('.' :: (name ++ [])) = some head := headAt?_dot_cons hname (by simp)
    rw [List.append_nil] at hscan
    exact hscan
  have hstop : head.stop = ('.' :: name).length := by
    show 0 + 1 + name.length = _
    rw [List.length_cons]
    omega
  have hread : Markdown.readInline [] ('.' :: name) = [.call head ('.' :: name)] :=
    readInline_head hhead hstop
  have hnode (raw : List Char) (c : Cursor) : ∃ span,
      ((headNode head raw).from c).result = .reference (String.ofList name) span := ⟨_, rfl⟩
  obtain ⟨span, hspan⟩ := hnode ('.' :: name) (.ofText (.ofText ('.' :: name)) ('.' :: name) 1 0)
  use span
  unfold readLine
  dsimp only
  rw [String.toList_ofList, hread, ← hspan]
  rfl

end Document

namespace Expansion

variable {e : Environment} {x : String} {v : Value}

/-- An argument that is a reference to a variable resolves to the text of what this holds. -/
theorem resolveText_reference (hname : isName x.toList = true) (hv : e.store.lookup x = some v) :
    resolveText expandNodes ("." ++ x) e = (.ok v.toText, e) := by
  have hraw : "." ++ x = String.ofList ('.' :: x.toList) := by
    apply String.toList_injective
    simp
  obtain ⟨span, hread⟩ := readLine_reference hname
  have hdot : ("." ++ x).toList.contains '.' = true := by simp
  have hreference : expandNodes [.reference x span] e = (.ok [.text v.toText span], e) := by
    rw [expandNodes_single, expandNode, expandReference, bind_ok (inspect_run _ e), hv]
    rfl
  have htext : Node.textOf [.text v.toText span] = v.toText := String.append_empty
  rw [resolveText, if_pos hdot, hraw, hread, String.ofList_toList, bind_ok hreference, htext]
  rfl

/-- A call of `var` with a reference sets its variable to the text of the other one, and does nothing
else. -/
theorem expandNodes_assignReference {target : String} (hname : isName x.toList = true)
    (hdot : '.' ∉ target.toList) (hne : strip target ≠ "")
    (hnone : e.store.functions.get? "var" = none)
    (hdepth : (e.setting.calls.length : Int) < e.setting.limits.callDepth)
    (hv : e.store.lookup x = some v) (named : List NamedArgument) (body : List Node)
    (place place' span : Span) :
    expandNodes [.call "var" [⟨target, place⟩, ⟨"." ++ x, place'⟩] named body span] e =
      (.ok [], e.mapStore (·.assign (strip target) (.text v.toText))) := by
  let c : Invocation := ⟨"var", [⟨target, place⟩, ⟨"." ++ x, place'⟩], named, body, span⟩
  have hcallee : e.store.callee? c.name = some (.builtin .variable) :=
    callee_builtin (b := .variable) hnone
  let inner : Environment := { e with setting := e.setting.enterCall c.name c.namedTexts }
  have henter : e.enter (.call c.name c.namedTexts c.span) = .ok (inner, .call e.setting.named) :=
    enter_call_of_lt hdepth _ _ _
  have htarget : strippedArgument expandNodes c 0 inner = (.ok (strip target), inner) := by
    have hverbatim := resolveText_verbatim expandNodes hdot
    simp only [strippedArgument, argumentText, c, List.getElem?_cons_zero, hverbatim]
    rfl
  have hvalue : argumentText expandNodes c 1 inner = (.ok v.toText, inner) :=
    resolveText_reference hname (e := inner) hv
  have hrun : Builtin.run expandNodes c .variable inner =
      (.ok [], inner.mapStore (·.assign (strip target) (.text v.toText))) := by
    rw [Builtin.run, bind_ok htarget, if_neg hne, bind_ok hvalue]
    rfl
  show expandNodes [c.toNode] e = _
  rw [expandNodes_builtin hcallee rfl, inBlock_ok henter, hrun]
  simp [inner, mapStore, Environment.leave, Setting.enterCall]

/-- **Truth survives the passage through text**, but for undefined numbers: the text of a value counts
as true if the value does, or is undefined. Let `var` be no function of the document, and let a call
be possible. A call of `var` with a name and a reference to a variable that holds a value leaves
nothing and changes nothing but the variable of this name. After it, a condition that refers to this
variable holds if the one that refers to the other variable did before, or if the value is
undefined. -/
theorem truth_through_text (v : Value) :
    isTruthyText v.toText = (v.isTruthy || v.isUndefined) ∧
    (∀ e x target named body place place' span, isName x.toList = true →
      '.' ∉ target.toList → strip target ≠ "" → e.store.functions.get? "var" = none →
      (e.setting.calls.length : Int) < e.setting.limits.callDepth →
      e.store.lookup x = some v →
        let after := e.mapStore (·.assign (strip target) (.text v.toText))
        expandNodes [.call "var" [⟨target, place⟩, ⟨"." ++ x, place'⟩] named body span] e =
            (.ok [], after) ∧
          ∀ condition condition', RefersTo condition x → RefersTo condition' (strip target) →
            after.store.holds condition' = (e.store.holds condition || v.isUndefined)) := by
  constructor
  · exact isTruthyText_toText v
  · intro e x target named body place place' span hname hdot hne hnone hdepth hv
    constructor
    · exact expandNodes_assignReference hname hdot hne hnone hdepth hv named body place place' span
    · intro condition condition' hx hy
      exact holds_toText hx hy hv (lookup_assign _ _ _)

/-- An environment in which `x` is a number. -/
def numberEnvironment (x : Float) : Environment :=
  .create "" "d" none [] (.ofTexts []) {} [("x", .number x)] { year := 2024, month := 3, day := 9 }

/-- A number that is shown with an exponent. -/
theorem truth_through_text_exponent :
    let v : Value := .number (Float.ofBits 0x3E7AD7F29ABCAF48)
    let e := numberEnvironment (Float.ofBits 0x3E7AD7F29ABCAF48)
    let after := e.mapStore (·.assign "y" (.text "1e-7"))
    isName "x".toList = true ∧ e.store.lookup "x" = some v ∧ v.toText = "1e-7" ∧
      v.isUndefined = false ∧ isTruthyText "1e-7" = v.isTruthy ∧
      expandNodes [.call "var" [⟨" y ", .unknown⟩, ⟨".x", .unknown⟩] [] [] .unknown] e =
        (.ok [], after) ∧ after.store.holds ".y" = e.store.holds ". x " := by
  intro v e after
  have hv : e.store.lookup "x" = some v := by rfl
  have htext : v.toText = "1e-7" := by decide +kernel
  have hdefined : v.isUndefined = false := by decide +kernel
  have hstrip : strip " y " = "y" := by decide
  obtain ⟨htruth, hvariables⟩ := truth_through_text v
  obtain ⟨hrun, hconditions⟩ := hvariables e "x" " y " [] [] .unknown .unknown .unknown (by decide)
    (by decide) (by decide) rfl (by decide) hv
  have hholds := hconditions ". x " ".y" ⟨[' ', 'x'], by decide, by decide⟩ ⟨['y'], by decide, by decide⟩
  rw [htext, hdefined, Bool.or_false] at htruth
  rw [htext, hstrip] at hrun
  rw [htext, hstrip, hdefined, Bool.or_false] at hholds
  exact ⟨by decide, hv, htext, hdefined, htruth, hrun, hholds⟩

/-- The undefined number counts as false, but its text counts as true, and so does a variable that is
set to it by a reference. -/
theorem truth_through_text_undefined :
    let v : Value := .number Float.nan
    let e := numberEnvironment Float.nan
    let assign : Node := .call "var" [⟨"y", .unknown⟩, ⟨".x", .unknown⟩] [] [] .unknown
    v.toText = "NaN" ∧ v.isTruthy = false ∧ isTruthyText v.toText = true ∧
      (expandNodes [assign] e).2.store.holds ".x" = false ∧
      (expandNodes [assign] e).2.store.holds ".y" = true := by
  decide +kernel

end Expansion

end Livedoc
