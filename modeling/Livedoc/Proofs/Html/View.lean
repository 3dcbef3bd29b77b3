import Livedoc.Html.Page

/-!
# Views of markup

A view counts something of markup from left to right: characters of texts, verbatim texts, and
the tags of some elements. White space counts for nothing, and neither does a tag that only
arranges what is within it. So trimming, wrapping and putting on lines do not show in a view,
and what is counted of a whole is what is counted of its parts, in order.
-/

namespace Livedoc.Html

open Livedoc.Text Livedoc.Tree

/-- Whether an element only arranges its content, and does not say what it is. -/
def Tag.isArranging : Tag → Bool
  | h1 | h2 | h3 | h4 | h5 | h6 | pre | code | em | strong | a | span => false
  | _ => true

/-- What is counted of markup. -/
structure View (α : Type) where
  char : Char → List α := fun _ => []
  verbatim : String → List α := fun _ => []
  tag : Tag → List Attribute → List α := fun _ _ => []
  blank : ∀ c, Markup.isPlainBlank c = true → char c = [] := by simp
  arranging : ∀ t attributes, t.isArranging = true → tag t attributes = [] := by simp

namespace View

variable {α : Type} (v : View α)

mutual

/-- What is counted of a piece of markup. -/
def of : Markup → List α
  | .text s => s.toList.flatMap v.char
  | .verbatim s => v.verbatim s
  | .element tag attributes children => v.tag tag attributes ++ all children
  | .void .. => []

/-- What is counted of several pieces, one after the other. -/
def all : List Markup → List α
  | [] => []
  | m :: rest => of m ++ all rest

end

/-! ## Lists of markup -/

@[simp] theorem all_nil : v.all [] = [] := by rw [all]

@[simp] theorem all_cons (m : Markup) (ms : List Markup) : v.all (m :: ms) = v.of m ++ v.all ms := by
  rw [all]

@[simp] theorem all_append (ms ns : List Markup) : v.all (ms ++ ns) = v.all ms ++ v.all ns := by
  induction ms with
  | nil => simp
  | cons m ms ih => simp [ih]

@[simp] theorem of_void (tag : VoidTag) (attributes : List Attribute) :
    v.of (.void tag attributes) = [] := by rw [of]

theorem of_element (tag : Tag) (attributes : List Attribute) (children : List Markup) :
    v.of (.element tag attributes children) = v.tag tag attributes ++ v.all children := by rw [of]

/-- An element that arranges its content counts for what its content does. -/
theorem of_arranging {tag : Tag} (h : tag.isArranging = true) (attributes : List Attribute)
    (children : List Markup) : v.of (.element tag attributes children) = v.all children := by
  rw [of_element, v.arranging tag attributes h, List.nil_append]

@[simp] theorem of_newline : v.of Markup.newline = [] := by
  rw [Markup.newline, of]
  simp [v.blank '\n' (by decide)]

/-! ## Trimming -/

theorem flatMap_dropWhile (cs : List Char) :
    (cs.dropWhile Markup.isPlainBlank).flatMap v.char = cs.flatMap v.char := by
  induction cs with
  | nil => rfl
  | cons c cs ih =>
      cases h : Markup.isPlainBlank c with
      | true => rw [List.dropWhile_cons_of_pos h, ih, List.flatMap_cons, v.blank c h, List.nil_append]
      | false => rw [List.dropWhile_cons_of_neg (by simp [h])]

theorem flatMap_dropEndWhile (cs : List Char) :
    (dropEndWhile Markup.isPlainBlank cs).flatMap v.char = cs.flatMap v.char := by
  induction cs with
  | nil => rfl
  | cons c cs ih =>
      rw [show dropEndWhile Markup.isPlainBlank (c :: cs) =
        if (dropEndWhile Markup.isPlainBlank cs).isEmpty && Markup.isPlainBlank c then []
        else c :: dropEndWhile Markup.isPlainBlank cs from rfl]
      split
      · next h =>
          obtain ⟨hnil, hc⟩ := Bool.and_eq_true_iff.mp h
          rw [List.flatMap_cons, ← ih, List.isEmpty_iff.mp hnil, v.blank c hc]
          rfl
      · rw [List.flatMap_cons, List.flatMap_cons, ih]

@[simp] theorem all_trimStart (ms : List Markup) : v.all (Markup.trimStart ms) = v.all ms := by
  fun_induction Markup.trimStart ms with
  | case1 s rest hblank ih =>
      rw [ih, all_cons, of, ← flatMap_dropWhile, hblank]
      rfl
  | case2 s rest hsolid =>
      rw [all_cons, all_cons, of, of, String.toList_ofList, flatMap_dropWhile]
  | case3 => rfl

theorem all_consTrimmed (m : Markup) (rest : List Markup) :
    v.all (Markup.consTrimmed m rest) = v.of m ++ v.all rest := by
  unfold Markup.consTrimmed
  split
  · next s =>
      rw [all_nil, List.append_nil, of, ← flatMap_dropEndWhile]
      split
      · next hnil => rw [hnil, all_nil]; rfl
      · rw [all_cons, of, String.toList_ofList, all_nil, List.append_nil]
  · exact v.all_cons m rest

@[simp] theorem all_trimEnd (ms : List Markup) : v.all (Markup.trimEnd ms) = v.all ms := by
  induction ms with
  | nil => rfl
  | cons m ms ih =>
      rw [show Markup.trimEnd (m :: ms) = Markup.consTrimmed m (Markup.trimEnd ms) from rfl,
        all_consTrimmed, ih, all_cons]

/-- **Trimming does not show in a view.** -/
@[simp] theorem all_trim (ms : List Markup) : v.all (Markup.trim ms) = v.all ms := by
  rw [Markup.trim, all_trimEnd, all_trimStart]

/-! ## Lines and blocks -/

@[simp] theorem all_onLines (groups : List (List Markup)) :
    v.all (Markup.onLines groups) = groups.flatMap v.all := by
  fun_induction Markup.onLines groups with
  | case1 => simp
  | case2 ms => simp
  | case3 ms rest hrest ih => simp [ih]

@[simp] theorem all_flatMap_newline (ms : List Markup) :
    v.all (ms.flatMap fun m => [m, Markup.newline]) = v.all ms := by
  induction ms with
  | nil => rfl
  | cons m ms ih => rw [List.flatMap_cons, all_append, ih]; simp

@[simp] theorem all_paragraphOf (content : List Markup) :
    v.all (paragraphOf content) = v.all content := by
  rw [← v.all_trim content, paragraphOf]
  split
  · next h => rw [h]
  · next inner hinner => simp +decide [v.of_arranging]

@[simp] theorem all_runOf (wrap : Bool) (content : List Markup) :
    v.all (runOf wrap content) = v.all content := by
  cases wrap <;> simp [runOf]

@[simp] theorem flatMap_consBlock (block : List Markup) (blocks : List (List Markup)) :
    (consBlock block blocks).flatMap v.all = v.all block ++ blocks.flatMap v.all := by
  cases block <;> simp [consBlock]

@[simp] theorem of_layoutOf (attributes : List Attribute) (blocks : List (List Markup)) :
    v.of (layoutOf attributes blocks) = blocks.flatMap v.all := by
  rw [layoutOf, of_arranging _ rfl]
  cases blocks <;> simp

@[simp] theorem of_listOf (ordered : Bool) (start : Option Int) (items : List (List Markup)) :
    v.of (listOf ordered start items) = items.flatMap v.all := by
  have htag : (if ordered then Tag.ol else Tag.ul).isArranging = true := by cases ordered <;> rfl
  simp [listOf, v.of_arranging htag]

@[simp] theorem of_quotationOf (quoteType : Option String) (blocks : List (List Markup)) :
    v.of (quotationOf quoteType blocks) = blocks.flatMap v.all := by
  simp +decide [quotationOf, v.of_arranging]

@[simp] theorem all_asItem (n : Node) (content : List Markup) :
    v.all (asItem n content) = v.all content := by
  unfold asItem
  split
  · rfl
  · cases n.isInline <;> simp +decide [v.of_arranging]

/-! ## Tables and pages -/

theorem of_cellOf {tag : Tag} (h : tag.isArranging = true) (alignment : Option String)
    (content : List Markup) : v.of (cellOf tag alignment content) = v.all content := by
  simp [cellOf, v.of_arranging h]

theorem of_onOwnLines {tag : Tag} (h : tag.isArranging = true) (children : List Markup) :
    v.of (onOwnLines tag children) = v.all children := by
  rw [onOwnLines, of_arranging _ h]
  simp

@[simp] theorem of_tableOf (headers : List Markup) (rows : List (List Markup)) :
    v.of (tableOf headers rows) = v.all headers ++ rows.flatMap v.all := by
  have hrow : ∀ cells, v.of (onOwnLines .tr cells) = v.all cells := v.of_onOwnLines rfl
  have hrows : v.all (rows.map (onOwnLines .tr)) = rows.flatMap v.all := by
    induction rows with
    | nil => simp
    | cons cells rows ih => simp [hrow, ih]
  rw [tableOf, of_onOwnLines _ rfl, all_cons, of_onOwnLines _ rfl, all_cons, hrow, all_nil,
    List.append_nil, ← hrows]
  cases rows <;> simp +decide [v.of_onOwnLines]

theorem all_map_eq_nil {β : Type} {f : β → Markup} (h : ∀ x, v.of (f x) = []) (xs : List β) :
    v.all (xs.map f) = [] := by
  induction xs with
  | nil => simp
  | cons x xs ih => simp [h, ih]

end View

end Livedoc.Html
