import Livedoc.Markdown.Inline.Structure
import Mathlib.Data.List.Infix

/-!
# What readers leave

A reader takes the start of a text and leaves the rest.  So what is left is an end of the text,
for the readers of markup within a line, for those of raw HTML and for those of the targets of
links (`stepInline_suffix` puts them together).
-/

namespace Livedoc.Markdown

open Livedoc.Call Livedoc.Text

variable {cs ds after : List Char} {c : Char}

/-! ## Ends of texts -/

@[local grind ←]
private theorem suffix_cons_of_suffix (h : ds <:+ cs) : ds <:+ c :: cs :=
  h.trans (List.suffix_cons c cs)

@[local grind →]
private theorem suffix_of_cons_suffix (h : c :: ds <:+ cs) : ds <:+ cs :=
  (List.suffix_cons c ds).trans h

@[local grind! .]
private theorem drop_suffix_self (cs : List Char) (n : Nat) : cs.drop n <:+ cs :=
  List.drop_suffix n cs

@[local grind! .]
private theorem dropWhile_suffix_self (cs : List Char) (p : Char → Bool) : cs.dropWhile p <:+ cs :=
  List.dropWhile_suffix p

@[local grind! .]
private theorem trimStart_suffix (cs : List Char) : trimStart cs <:+ cs :=
  List.dropWhile_suffix _

@[local grind →]
private theorem exists_of_map_eq_some {α β : Type} {found : Option α} {f : α → β} {b : β}
    (h : found.map f = some b) : ∃ a, found = some a ∧ f a = b :=
  Option.map_eq_some_iff.mp h

@[local grind →]
private theorem exists_of_bind_eq_some {α β : Type} {found : Option α} {f : α → Option β} {b : β}
    (h : found.bind f = some b) : ∃ a, found = some a ∧ f a = some b :=
  Option.bind_eq_some_iff.mp h

@[local grind →]
private theorem eq_some_of_orElse {α : Type} {first : Option α} {second : Unit → Option α} {a : α}
    (h : first.orElse second = some a) : first = some a ∨ second () = some a := by
  cases first with
  | none => exact .inr h
  | some b => exact .inl h

/-! ## Leaves -/

theorem takeEscapes_suffix (cs : List Char) : (takeEscapes cs).2 <:+ cs := by
  fun_induction takeEscapes cs with grind

@[local grind →]
theorem takeCode?_suffix {count ticks : Nat} {code : List Char}
    (h : takeCode? count ticks cs = some (code, after)) : after <:+ cs := by
  fun_induction takeCode? count ticks cs generalizing code with grind

@[local grind →]
theorem takeFormula?_suffix {multiline : Bool} {formula : List Char}
    (h : takeFormula? multiline cs = some (formula, after)) : after <:+ cs := by
  fun_induction takeFormula? multiline cs generalizing formula with grind

@[local grind →]
theorem splitAtMarker?_suffix {marker before : List Char}
    (h : splitAtMarker? marker cs = some (before, after)) : after <:+ cs := by
  fun_induction splitAtMarker? marker cs generalizing before with grind

/-- What a reader of one piece leaves is an end of its text. -/
def Reader.Leaves (read : Reader) : Prop :=
  ∀ {cs i after}, read cs = some (i, after) → after <:+ cs

theorem Reader.Leaves.orElse {first second : Reader} (hfirst : Leaves first)
    (hsecond : Leaves second) : Leaves fun cs => (first cs).orElse fun _ => second cs := by
  intro cs i after h
  exact (eq_some_of_orElse h).elim hfirst fun h => hsecond h

theorem escapes?_leaves : Reader.Leaves escapes? := by
  intro cs i after h
  have htaken := takeEscapes_suffix cs
  unfold escapes? at h
  grind

theorem lineBreak?_leaves : Reader.Leaves lineBreak? := by
  intro cs i after h
  unfold lineBreak? afterBreak? at h
  grind

theorem codeSpan?_leaves : Reader.Leaves codeSpan? := by
  intro cs i after h
  unfold codeSpan? at h
  grind

theorem displayFormula?_leaves : Reader.Leaves displayFormula? := by
  intro cs i after h
  unfold displayFormula? at h
  grind

theorem tickedFormulaWith?_leaves (count : Nat) : Reader.Leaves (tickedFormulaWith? count) := by
  induction count with
  | zero => nofun
  | succ count ih =>
      intro cs i after h
      unfold tickedFormulaWith? at h
      grind [Reader.Leaves]

theorem tickedFormula?_leaves : Reader.Leaves tickedFormula? := by
  intro cs i after h
  unfold tickedFormula? at h
  split at h
  · exact suffix_cons_of_suffix (tickedFormulaWith?_leaves _ h)
  · cases h

theorem plainFormula?_leaves : Reader.Leaves plainFormula? := by
  intro cs i after h
  unfold plainFormula? at h
  grind

theorem formulaSpan?_leaves : Reader.Leaves formulaSpan? :=
  displayFormula?_leaves.orElse (tickedFormula?_leaves.orElse plainFormula?_leaves)

@[local grind →]
theorem autoAddress?_suffix {address : List Char}
    (h : autoAddress? cs = some (address, after)) : after <:+ cs := by
  unfold autoAddress? at h
  grind

@[local grind →]
theorem mailAddress?_suffix {address : List Char}
    (h : mailAddress? cs = some (address, after)) : after <:+ cs := by
  unfold mailAddress? at h
  grind

theorem ownLink?_leaves (linksAllowed : Bool) : Reader.Leaves (ownLink? linksAllowed) := by
  intro cs i after h
  unfold ownLink? at h
  grind

/-! ## Raw HTML -/

@[local grind →]
theorem Html.tagName?_suffix {name : List Char} (h : tagName? cs = some (name, after)) :
    after <:+ cs := by
  unfold tagName? at h
  grind [List.span_eq_takeWhile_dropWhile]

@[local grind →]
theorem Html.afterQuote?_suffix {quote : Char} (h : afterQuote? quote cs = some after) :
    after <:+ cs := by
  fun_induction afterQuote? quote cs with grind

@[local grind →]
theorem Html.afterValue?_suffix (h : afterValue? cs = some after) : after <:+ cs := by
  unfold afterValue? at h
  grind

@[local grind →]
theorem Html.afterAttribute?_suffix (h : afterAttribute? cs = some after) : after <:+ cs := by
  have hvalue : ∀ value rest, (afterValue? value).getD rest <:+ value ∨
      (afterValue? value).getD rest = rest := by
    intro value rest
    cases hafter : afterValue? value with
    | none => exact .inr rfl
    | some after => exact .inl (afterValue?_suffix hafter)
  unfold afterAttribute? at h
  grind

theorem Html.afterAttributes_suffix (rounds : Nat) (cs : List Char) :
    afterAttributes rounds cs <:+ cs := by
  fun_induction afterAttributes rounds cs with grind

@[local grind →]
theorem Html.afterOpenTag?_suffix (h : afterOpenTag? cs = some after) : after <:+ cs := by
  have hattributes := afterAttributes_suffix cs.length cs
  unfold afterOpenTag? at h
  grind

@[local grind →]
theorem Html.afterCloseTag?_suffix (h : afterCloseTag? cs = some after) : after <:+ cs := by
  unfold afterCloseTag? at h
  grind

@[local grind →]
theorem Html.afterMarker?_suffix {marker : List Char} (h : afterMarker? marker cs = some after) :
    after <:+ cs := by
  fun_induction afterMarker? marker cs with grind

@[local grind →]
theorem afterRawHtml?_suffix (h : afterRawHtml? cs = some after) : after <:+ cs := by
  unfold afterRawHtml? at h
  split at h
  · next rest =>
      have hcomment : after <:+ rest := by
        split at h <;> grind
      exact hcomment.trans ⟨['<', '!', '-', '-'], rfl⟩
  all_goals grind

theorem rawHtml?_leaves : Reader.Leaves rawHtml? := by
  intro cs i after h
  unfold rawHtml? at h
  grind

/-! ## Images with measures -/

@[local grind →]
theorem SizedImage.takeUntil?_suffix {stop : Char} {allowed : Char → Bool} {taken : List Char}
    (h : takeUntil? stop allowed cs = some (taken, after)) : after <:+ cs := by
  unfold takeUntil? at h
  grind

@[local grind →]
theorem SizedImage.takeEnd?_suffix {title : Option (List Char)}
    (h : takeEnd? cs = some (title, after)) : after <:+ cs := by
  unfold takeEnd? at h
  grind

@[local grind →]
theorem SizedImage.takeBracketed?_suffix {source : List Char}
    (h : takeBracketed? cs = some (source, after)) : after <:+ cs := by
  unfold takeBracketed? at h
  grind

@[local grind →]
theorem SizedImage.takePlain?_suffix {source : List Char}
    (h : takePlain? cs = some (source, after)) : after <:+ cs := by
  unfold takePlain? at h
  grind

@[local grind →]
theorem SizedImage.takeTarget?_suffix {source : List Char} {title : Option (List Char)}
    (h : takeTarget? cs = some (source, title, after)) : after <:+ cs := by
  unfold takeTarget? at h
  grind

@[local grind →]
theorem SizedImage.take?_suffix {image : SizedImage} (h : take? cs = some (image, after)) :
    after <:+ cs := by
  unfold take? at h
  split at h
  · simp only [Option.bind_eq_bind, Option.bind_eq_some_iff] at h
    grind
  · cases h

theorem sizedImage?_leaves : Reader.Leaves sizedImage? := by
  intro cs i after h
  unfold sizedImage? at h
  grind

theorem callSpan?_leaves (previous : Option Char) : Reader.Leaves (callSpan? previous) := by
  intro cs i after h
  unfold callSpan? at h
  grind

/-- **What stands at the start of a text without inner markup leaves an end of the text.** -/
theorem leaf?_leaves (r : LineReading) : Reader.Leaves (leaf? r) := by
  intro cs i after h
  unfold leaf? at h
  split at h
  · exact escapes?_leaves.orElse lineBreak?_leaves h
  · exact formulaSpan?_leaves h
  · exact codeSpan?_leaves h
  · exact callSpan?_leaves _ h
  · exact sizedImage?_leaves h
  · exact Reader.Leaves.orElse (ownLink?_leaves _) rawHtml?_leaves h
  · exact lineBreak?_leaves h
  · exact lineBreak?_leaves h
  · cases h

/-! ## Targets of links -/

theorem skipOneBreak_suffix (cs : List Char) : skipOneBreak cs <:+ cs := by
  unfold skipOneBreak
  grind

@[local grind →]
theorem takeAngled?_suffix {address : List Char} (h : takeAngled? cs = some (address, after)) :
    after <:+ cs := by
  fun_induction takeAngled? cs generalizing address with grind

@[local grind →]
theorem takeBalanced?_suffix {depth : Nat} {address : List Char}
    (h : takeBalanced? depth cs = some (address, after)) : after <:+ cs := by
  fun_induction takeBalanced? depth cs generalizing address with grind

@[local grind →]
theorem takeDestination?_suffix {address : List Char}
    (h : takeDestination? cs = some (address, after)) : after <:+ cs := by
  have hskipped := skipOneBreak_suffix cs
  unfold takeDestination? at h
  grind

@[local grind →]
theorem takeTitleTo?_suffix {close : Char} {title : List Char}
    (h : takeTitleTo? close cs = some (title, after)) : after <:+ cs := by
  fun_induction takeTitleTo? close cs generalizing title with grind

@[local grind →]
theorem takeTitle?_suffix {title : List Char} (h : takeTitle? cs = some (title, after)) :
    after <:+ cs := by
  unfold takeTitle? at h
  grind

@[local grind →]
theorem takeTarget?_suffix {target : Target} (h : takeTarget? cs = some (target, after)) :
    after <:+ cs := by
  unfold takeTarget? at h
  grind

@[local grind →]
theorem takeLabelFrom?_suffix {label : List Char}
    (h : takeLabelFrom? cs = some (label, after)) : after <:+ cs := by
  fun_induction takeLabelFrom? cs generalizing label with grind

@[local grind →]
theorem takeLabel?_suffix {label : List Char} (h : takeLabel? cs = some (label, after)) :
    after <:+ cs :=
  takeLabelFrom?_suffix (Option.filter_eq_some_iff.mp h).1

@[local grind →]
theorem referenceTarget?_suffix {refs : References} {text : List Char} {target : Target}
    (h : referenceTarget? refs text cs = some (target, after)) : after <:+ cs := by
  unfold referenceTarget? at h
  grind

@[local grind →]
theorem linkTarget?_suffix {refs : References} {text : List Char} {target : Target}
    (h : linkTarget? refs text cs = some (target, after)) : after <:+ cs := by
  unfold linkTarget? at h
  grind

/-! ## Steps -/

theorem closeBracket_suffix (refs : References) (r : LineReading) (cs : List Char) :
    (closeBracket refs r cs).2 <:+ cs := by
  unfold closeBracket
  grind

/-- **A step of reading a line leaves an end of the source.** -/
theorem stepInline_suffix (refs : References) (r : LineReading) (c : Char) (rest : List Char) :
    (stepInline refs r c rest).2 <:+ c :: rest := by
  have hclosed := closeBracket_suffix refs r rest
  unfold stepInline
  split
  · next i after hleaf => exact leaf?_leaves r hleaf
  · grind

end Livedoc.Markdown
