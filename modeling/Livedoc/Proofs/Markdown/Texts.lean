import Livedoc.Markdown.Block.Structure
import Livedoc.Proofs.Call.Drawn

/-!
# The texts of blocks

Reading blocks takes lines apart and joins them again: indentation and markers are taken off,
tabs become spaces, cells are cut out of the lines of tables, and the lines of a paragraph are
joined.  So the texts that the blocks hold have any property that lasts through this
(`readBlocks_holds`): they have no names but those of the source (`lasting_drawnFrom`), and no more
lines than it (`lasting_count`).
-/

namespace Livedoc.Markdown

open Livedoc.Call Livedoc.Text

/-- A property of texts of at most so many lines. A part of a text has it, a line has it if spaces
are put before it, and a text has it if a line is joined to it. -/
structure Lasting (T : Nat → List Char → Prop) : Prop where
  nil : T 1 []
  of_isInfix : ∀ {n cs ds}, T n cs → ds <:+: cs → T n ds
  space : ∀ {cs}, T 1 cs → T 1 (' ' :: cs)
  mono : ∀ {n m cs}, n ≤ m → T n cs → T m cs
  line : ∀ {n cs line}, T n cs → line ∈ lines cs → T 1 line
  join : ∀ {n cs line}, T n cs → T 1 line → T (n + 1) (cs ++ '\n' :: line)

/-- Texts that have no names but those of the source. -/
theorem lasting_drawnFrom (source : List Char) : Lasting fun _ cs => DrawnFrom source cs where
  nil := .nil
  of_isInfix := .of_isInfix
  space := .cons (by decide)
  mono _ h := h
  line h hline := h.line hline
  join := .append_cons (by decide)

variable {T : Nat → List Char → Prop} {n : Nat} {cs line : List Char} {ls : List Line} {r : Reading}

namespace Lasting

theorem of_isSuffix (hT : Lasting T) (h : T n cs) {ds : List Char} (hds : ds <:+ cs) : T n ds :=
  hT.of_isInfix h hds.isInfix

theorem of_isPrefix (hT : Lasting T) (h : T n cs) {ds : List Char} (hds : ds <+: cs) : T n ds :=
  hT.of_isInfix h hds.isInfix

theorem trimWhile (hT : Lasting T) (p : Char → Bool) (h : T n cs) : T n (trimWhile p cs) :=
  hT.of_isPrefix (hT.of_isSuffix h (List.dropWhile_suffix p)) (prefix_dropEndWhile p _)

theorem spaces_append (hT : Lasting T) (n : Nat) (h : T 1 cs) : T 1 (spaces n ++ cs) := by
  induction n with
  | zero => exact h
  | succ n ih => exact hT.space ih

end Lasting

/-! ## Blocks -/

/-- A text with the property, or with the property but for a newline at its end. -/
def Ended (P : List Char → Prop) (text : List Char) : Prop :=
  ∃ front, P front ∧ (text = front ∨ text = front ++ ['\n'])

theorem Ended.of_holds {P : List Char → Prop} {text : List Char} (h : P text) : Ended P text :=
  ⟨text, h, .inl rfl⟩

/-- A newline at the end is no part of a text that is trimmed. -/
theorem Ended.trimWhile {P : List Char → Prop} (hP : ∀ {cs ds}, P cs → ds <:+: cs → P ds)
    {text : List Char} (h : Ended P text) {p : Char → Bool} (hp : p '\n' = true) :
    P (trimWhile p text) := by
  obtain ⟨front, hfront, rfl | rfl⟩ := h
  · exact hP hfront (trimWhile_isInfix p _)
  · exact hP hfront (trimWhile_append_isInfix hp _)

namespace Block

mutual

/-- Whether the texts in a block have the property. -/
def Holds (P : List Char → Prop) : Block → Prop
  | paragraph text | tightText text | heading _ text => Ended P text
  | quote children => AllHold P children
  | list _ _ items => ItemsHold P items
  | table headers _ rows => (∀ cell ∈ headers, P cell) ∧ ∀ row ∈ rows, ∀ cell ∈ row, P cell
  | _ => True

/-- Whether the texts in several blocks have the property. -/
def AllHold (P : List Char → Prop) : List Block → Prop
  | [] => True
  | b :: rest => b.Holds P ∧ AllHold P rest

/-- Whether the texts in the items of a list have the property. -/
def ItemsHold (P : List Char → Prop) : List (List Block) → Prop
  | [] => True
  | item :: rest => AllHold P item ∧ ItemsHold P rest

end

variable {P : List Char → Prop}

theorem allHold_iff {bs : List Block} : AllHold P bs ↔ ∀ b ∈ bs, b.Holds P := by
  induction bs with
  | nil => simp [AllHold]
  | cons b rest ih => rw [AllHold, ih, List.forall_mem_cons]

theorem itemsHold_iff {items : List (List Block)} :
    ItemsHold P items ↔ ∀ item ∈ items, AllHold P item := by
  induction items with
  | nil => simp [ItemsHold]
  | cons item rest ih => rw [ItemsHold, ih, List.forall_mem_cons]

/-- A paragraph of a tight list has the text that it has elsewhere. -/
theorem Holds.tightened {b : Block} (h : b.Holds P) : b.tightened.Holds P := by
  cases b <;> exact h

end Block

/-! ## Lines -/

/-- At most so many lines, each with the property. -/
structure LinesHold (T : Nat → List Char → Prop) (n : Nat) (ls : List Line) : Prop where
  length_le : ls.length ≤ n
  line : ∀ l ∈ ls, T 1 l.chars

namespace LinesHold

theorem nil : LinesHold T n [] := ⟨Nat.zero_le n, nofun⟩

theorem cons {l : Line} (hl : T 1 l.chars) (h : LinesHold T n ls) : LinesHold T (n + 1) (l :: ls) :=
  ⟨Nat.succ_le_succ h.length_le, List.forall_mem_cons.mpr ⟨hl, h.line⟩⟩

theorem head {l : Line} (h : LinesHold T n (l :: ls)) : T 1 l.chars := h.line l List.mem_cons_self

theorem exists_eq {l : Line} (h : LinesHold T n (l :: ls)) : ∃ m, n = m + 1 :=
  Nat.exists_eq_add_one.mpr (Nat.lt_of_lt_of_le (Nat.succ_pos _) h.length_le)

theorem tail {l : Line} (h : LinesHold T (n + 1) (l :: ls)) : LinesHold T n ls :=
  ⟨Nat.le_of_succ_le_succ h.length_le, fun l hl => h.line l (List.mem_cons_of_mem _ hl)⟩

theorem mono {m : Nat} (h : LinesHold T n ls) (hle : n ≤ m) : LinesHold T m ls :=
  ⟨Nat.le_trans h.length_le hle, h.line⟩

theorem of_sublist {ms : List Line} (h : LinesHold T n ls) (hms : ms.Sublist ls) :
    LinesHold T n ms :=
  ⟨Nat.le_trans hms.length_le h.length_le, fun l hl => h.line l (hms.subset hl)⟩

end LinesHold

theorem dropIndent?_suffix {most indent : Nat} {body : List Char}
    (h : dropIndent? most cs = some (indent, body)) : body <:+ cs := by
  unfold dropIndent? at h
  dsimp only at h
  split at h
  · cases h
    exact List.drop_suffix _ _
  · cases h

theorem dropSpaces_suffix (most : Nat) (cs : List Char) : dropSpaces most cs <:+ cs := by
  fun_induction dropSpaces most cs with
  | case1 most rest ih => exact ih.trans (List.suffix_cons _ _)
  | case2 => exact List.suffix_rfl

section Lines

variable (hT : Lasting T)
include hT

theorem Lasting.expandLeadingTab (width : Nat) (h : T 1 cs) :
    T 1 (expandLeadingTab width cs) := by
  unfold Markdown.expandLeadingTab
  split
  · next indent rest hindent =>
      refine hT.spaces_append _ (hT.of_isSuffix h ?_)
      exact (List.suffix_cons _ _).trans (dropIndent?_suffix hindent)
  · exact h

theorem Lasting.expandSecondTab (h : T 1 cs) : T 1 (expandSecondTab cs) := by
  unfold Markdown.expandSecondTab
  split
  · next indent rest hindent =>
      refine hT.spaces_append _ (hT.of_isSuffix h ?_)
      exact (List.suffix_cons _ _).trans (dropIndent?_suffix hindent)
  · exact h

theorem linesOf_hold (h : T n cs) : LinesHold T (linesOf cs).length (linesOf cs) where
  length_le := Nat.le_refl _
  line := by
    unfold linesOf
    split
    · nofun
    · intro l hl
      dsimp only at hl
      obtain ⟨part, hpart, rfl⟩ := List.mem_map.mp hl
      refine hT.line h ?_
      split at hpart
      · exact (List.dropLast_prefix _).subset hpart
      · exact hpart

/-! ## Headings and cells -/

theorem markedHeading?_holds {level : Nat} {title : List Char} (h : T 1 cs)
    (hheading : markedHeading? cs = some (level, title)) : T 1 title := by
  have hclosing : ∀ {cs}, T 1 cs → T 1 (dropClosingMarks cs) := by
    intro cs h
    have hfront := hT.of_isPrefix (hT.of_isPrefix h (prefix_dropEndWhile isBlank cs))
      (prefix_dropEndWhile (· == '#') _)
    unfold dropClosingMarks
    dsimp only
    split
    · exact h
    · split
      · exact hT.nil
      · split
        · exact hT.of_isPrefix hfront (prefix_dropEndWhile isBlank _)
        · exact h
  unfold markedHeading? at hheading
  split at hheading
  · cases hheading
  · next indent body hindent =>
      dsimp only at hheading
      split at hheading
      · cases hheading
        refine hclosing (hT.trimWhile _ (hT.of_isSuffix h ?_))
        exact (List.drop_suffix _ _).trans (dropIndent?_suffix hindent)
      · cases hheading

end Lines

/-- Cells are cut out of a line. -/
theorem infix_of_mem_splitCells {escaped : Bool} :
    ∀ cell ∈ splitCells escaped cs, cell <:+: cs := by
  suffices hcells : ∃ first others, splitCells escaped cs = first :: others ∧ first <+: cs ∧
      ∀ cell ∈ others, cell <:+: cs by
    obtain ⟨first, others, heq, hfirst, hothers⟩ := hcells
    rw [heq]
    exact List.forall_mem_cons.mpr ⟨hfirst.isInfix, hothers⟩
  induction cs generalizing escaped with
  | nil => exact ⟨[], [], rfl, List.prefix_rfl, nofun⟩
  | cons c rest ih =>
      unfold splitCells
      split
      · obtain ⟨first, others, heq, hfirst, hothers⟩ := @ih false
        refine ⟨[], _, rfl, List.nil_prefix, fun cell hcell => ?_⟩
        rw [heq] at hcell
        have hall : ∀ cell ∈ first :: others, cell <:+: rest :=
          List.forall_mem_cons.mpr ⟨hfirst.isInfix, hothers⟩
        exact List.infix_cons (hall cell hcell)
      · obtain ⟨first, others, heq, hfirst, hothers⟩ := @ih (c == '\\' && !escaped)
        rw [heq]
        refine ⟨c :: first, others, rfl, List.cons_prefix_cons.mpr ⟨rfl, hfirst⟩, ?_⟩
        exact fun cell hcell => List.infix_cons (hothers cell hcell)

theorem cells_isInfix : ∀ cell ∈ cells cs, cell <:+: cs := by
  intro cell hcell
  obtain ⟨part, hpart, rfl⟩ := List.mem_map.mp hcell
  exact (trimWhile_isInfix isBlank part).trans
    ((infix_of_mem_splitCells part hpart).trans (trimWhile_isInfix isBlank cs))

theorem piped?_isInfix (h : piped? cs = some line) : line <:+: cs := by
  unfold piped? at h
  split at h
  · next indent rest hindent =>
      dsimp only at h
      split at h
      · cases h
        refine (List.dropLast_prefix _).isInfix.trans ((prefix_dropEndWhile _ _).isInfix.trans ?_)
        exact ((List.suffix_cons _ _).trans (dropIndent?_suffix hindent)).isInfix
      · cases h
  · cases h

theorem open?_isInfix (h : open? cs = some line) : line <:+: cs := by
  unfold open? at h
  split at h
  · next indent c rest hindent =>
      split at h
      · cases h
        exact (dropIndent?_suffix hindent).isInfix
      · cases h
  · cases h

theorem openRow?_isInfix (h : openRow? cs = some line) : line <:+: cs := by
  unfold openRow? at h
  split at h
  · cases h
    exact List.infix_rfl
  · cases h

/-- The cells of a table are cut out of its lines. -/
theorem tableWith?_isInfix {line? row? : List Char → Option (List Char)} {rest : List Line}
    {parts : TableParts} {taken : Nat}
    (hline : ∀ {cs ds}, line? cs = some ds → ds <:+: cs)
    (hrow : ∀ {cs ds}, row? cs = some ds → ds <:+: cs)
    (htable : tableWith? line? row? cs rest = some (parts, taken)) :
    (∀ cell ∈ parts.1, cell <:+: cs) ∧
      ∀ row ∈ parts.2.2, ∀ cell ∈ row, ∃ l ∈ rest, cell <:+: l.chars := by
  unfold tableWith? at htable
  split at htable
  · next head dashes body hhead =>
      split at htable
      · cases htable
      · dsimp only at htable
        split at htable
        · cases htable
        · split at htable
          · cases htable
            refine ⟨fun cell hcell => (cells_isInfix cell hcell).trans (hline hhead), ?_⟩
            intro row hmem cell hcell
            obtain ⟨l, hl, rfl⟩ := List.mem_map.mp hmem
            have hread := List.mem_takeWhile_imp hl
            obtain ⟨ds, hds⟩ := Option.isSome_iff_exists.mp hread
            rw [hds] at hcell
            refine ⟨l, ?_, (cells_isInfix cell hcell).trans (hrow hds)⟩
            exact List.mem_cons_of_mem _ ((List.takeWhile_prefix _).subset hl)
          · cases htable
  · cases htable

theorem table?_isInfix {rest : List Line} {parts : TableParts} {taken : Nat}
    (htable : table? cs rest = some (parts, taken)) :
    (∀ cell ∈ parts.1, cell <:+: cs) ∧
      ∀ row ∈ parts.2.2, ∀ cell ∈ row, ∃ l ∈ rest, cell <:+: l.chars := by
  unfold table? at htable
  split at htable
  · exact tableWith?_isInfix piped?_isInfix piped?_isInfix htable
  · exact tableWith?_isInfix open?_isInfix openRow?_isInfix htable

/-! ## Quotations and items -/

theorem markerWith?_suffix {allows : List Char → Char → Bool} {indent : Nat} {m : Marker}
    (h : markerWith? allows indent cs = some m) : m.rest <:+ cs := by
  unfold markerWith? at h
  split at h
  · cases h
  · next indent body hindent =>
      dsimp only at h
      split at h
      · next c rest hrest =>
          split at h
          · cases h
            have hbody : c :: rest <:+ body := hrest ▸ List.drop_suffix _ body
            exact (List.suffix_cons c rest).trans (hbody.trans (dropIndent?_suffix hindent))
          · cases h
      · cases h

theorem dropBlankEnd_sublist (ls : List Line) : (dropBlankEnd ls).Sublist ls := by
  have hfold : ∀ rest : List Line, (rest.foldr (fun next kept =>
      if kept.isEmpty && allBlank next.chars then [] else next :: kept) []).Sublist rest := by
    intro rest
    induction rest with
    | nil => exact List.Sublist.refl []
    | cons l rest ih =>
        rw [List.foldr_cons]
        split
        · exact List.nil_sublist _
        · exact ih.cons_cons l
  unfold dropBlankEnd
  split
  · exact List.Sublist.refl []
  · next l rest => exact (hfold rest).cons_cons l

/-- What the lines of an item are made of: its own lines, and the marker of the next item. -/
structure ItemBody.Holds (T : Nat → List Char → Prop) (n : Nat) (b : ItemBody) : Prop where
  body : LinesHold T n b.body
  next : ∀ m, b.next = some m → T 1 m.rest

theorem ItemBody.Holds.cons {b : ItemBody} (h : b.Holds T n) {l : Line} (hl : T 1 l.chars) :
    (b.cons l).Holds T (n + 1) where
  body := h.body.cons hl
  next := h.next

section Lines

variable (hT : Lasting T)
include hT

/-- The content of a quoted line, after its mark. -/
theorem afterQuoteMark?_holds (h : T 1 cs) (hmark : afterQuoteMark? cs = some line) :
    T 1 (quotedContent line) := by
  unfold afterQuoteMark? at hmark
  split at hmark
  · next indent rest hindent =>
      cases hmark
      have hrest := hT.of_isSuffix h
        ((List.suffix_cons '>' line).trans (dropIndent?_suffix hindent))
      exact hT.of_isSuffix (hT.expandLeadingTab 3 hrest) (dropSpaces_suffix 1 _)
  · cases hmark

theorem quoteLines_hold {lazyAllowed afterBlank : Bool} (h : LinesHold T n ls) :
    LinesHold T n (quoteLines lazyAllowed afterBlank ls) := by
  induction ls generalizing n afterBlank with
  | nil => exact .nil
  | cons l rest ih =>
      obtain ⟨n, rfl⟩ := h.exists_eq
      unfold quoteLines
      split
      · next cs hmark =>
          exact (ih h.tail).cons (hT.expandSecondTab (afterQuoteMark?_holds hT h.head hmark))
      · split
        · exact .nil
        · exact (ih h.tail).cons (hT.expandSecondTab (hT.expandLeadingTab 3 h.head))

theorem quote?_hold {inside : List Line} (h : LinesHold T n ls) (hquote : quote? ls = some inside) :
    LinesHold T n inside := by
  unfold quote? at hquote
  split at hquote
  · cases hquote
  · next l rest =>
      obtain ⟨n, rfl⟩ := h.exists_eq
      split at hquote
      · cases hquote
      · next cs hmark =>
          cases hquote
          refine (quoteLines_hold hT h.tail).cons ?_
          exact hT.expandSecondTab (afterQuoteMark?_holds hT h.head hmark)

theorem Marker.content_holds {m : Marker} (h : T 1 m.rest) : T 1 m.content.1 := by
  have htext := hT.expandSecondTab (hT.expandLeadingTab 3 h)
  unfold Marker.content
  dsimp only
  split
  · exact hT.nil
  · exact hT.of_isSuffix htext (List.drop_suffix _ _)

theorem itemBody_holds {bullet : Char} {column indent : Nat} {started afterBlank : Bool}
    (h : LinesHold T n ls) : (itemBody bullet column indent started afterBlank ls).Holds T n := by
  have hend : ∀ {n taken blank}, ItemBody.Holds T n ⟨[], taken, none, blank⟩ := ⟨.nil, nofun⟩
  induction ls generalizing n started afterBlank with
  | nil => exact hend
  | cons l rest ih =>
      obtain ⟨n, rfl⟩ := h.exists_eq
      have hexpanded := hT.expandLeadingTab 4 h.head
      unfold itemBody
      split
      · exact (ih h.tail).cons hT.nil
      · dsimp only
        split
        · split
          · exact hend
          · have hcontent := hT.of_isSuffix hexpanded (List.drop_suffix column _)
            exact (ih h.tail).cons (hT.expandSecondTab hcontent)
        · split
          · exact hend
          · split
            · next m hm =>
                refine ⟨.nil, fun m' hm' => ?_⟩
                cases hm'
                exact hT.of_isSuffix h.head (markerWith?_suffix hm)
            · split
              · exact hend
              · exact (ih h.tail).cons hexpanded

end Lines

/-! ## Lists -/

/-- Whether reading nested lines gives texts with the property. -/
def Nested.Holds (T : Nat → List Char → Prop) (nested : Nested) : Prop :=
  ∀ {n ls} refs, LinesHold T n ls → Block.AllHold (T n) (nested ls refs).1

theorem readItems_hold (hT : Lasting T) {nested : Nested} (hnested : nested.Holds T) (bullet : Char)
    (rounds : Nat) {k : Nat} {m : Marker} {rest : List Line} {acc : ItemList} (hm : T 1 m.rest)
    (hrest : LinesHold T k rest) (hle : k + 1 ≤ n)
    (hacc : ∀ item ∈ acc.items, Block.AllHold (T n) item) :
    ∀ item ∈ (readItems nested bullet rounds m rest acc).items, Block.AllHold (T n) item := by
  induction rounds generalizing m rest acc with
  | zero => exact hacc
  | succ rounds ih =>
      have hbody : (itemBody bullet m.content.2 (min 3 m.width) (!m.content.1.isEmpty) false
          rest).Holds T k := itemBody_holds hT hrest
      have hlines : LinesHold T n
          ((if m.content.1.isEmpty then [] else [{ chars := m.content.1 }]) ++ (itemBody bullet
            m.content.2 (min 3 m.width) (!m.content.1.isEmpty) false rest).body) := by
        refine .mono (n := k + 1) ?_ hle
        split
        · exact hbody.body.mono (Nat.le_succ k)
        · exact hbody.body.cons (m.content_holds hT hm)
      have hall := hnested acc.references (hlines.of_sublist (dropBlankEnd_sublist _))
      have hitems := List.forall_mem_cons.mpr ⟨hall, hacc⟩
      unfold readItems
      dsimp only
      split
      · next next hnext =>
          exact ih (hbody.next next hnext) (hrest.of_sublist (List.drop_sublist _ _)) hitems
      · exact hitems

theorem readList_holds (hT : Lasting T) {nested : Nested} (hnested : nested.Holds T) {k : Nat}
    {m : Marker} {rest : List Line} (refs : References) (hm : T 1 m.rest)
    (hrest : LinesHold T k rest) (hle : k + 1 ≤ n) :
    (readList nested m rest refs).1.Holds (T n) := by
  have hempty : ∀ item ∈ (⟨[], false, refs, 0⟩ : ItemList).items, Block.AllHold (T n) item := nofun
  have hitems := readItems_hold hT hnested m.bullet (rest.length + 1) hm hrest hle hempty
  unfold readList
  dsimp only
  rw [Block.Holds, Block.itemsHold_iff]
  split
  · exact fun item hitem => hitems item (List.mem_reverse.mp hitem)
  · intro item hitem
    obtain ⟨loose, hloose, rfl⟩ := List.mem_map.mp hitem
    rw [Block.allHold_iff]
    intro b hb
    obtain ⟨b', hb', rfl⟩ := List.mem_map.mp hb
    exact (Block.allHold_iff.mp (hitems loose (List.mem_reverse.mp hloose)) b' hb').tightened

/-! ## Steps -/

/-- Whether the texts of what has been read have the property, and the last paragraph, to which
lines may be added, has that of so many lines. -/
structure Reading.Holds (T : Nat → List Char → Prop) (n k : Nat) (r : Reading) : Prop where
  blocks : Block.AllHold (T n) r.blocks
  growing : ∀ {text rest}, r.blocks = .paragraph text :: rest →
    ∃ front, T k front ∧ text = front ++ ['\n']

/-- Rules whose nested lines have the property. -/
def Rules.Hold (T : Nat → List Char → Prop) (rules : Rules) : Prop :=
  ∀ nested, rules.nested = some nested → nested.Holds T

namespace Reading.Holds

variable {k m : Nat}

theorem empty (refs : References) : Reading.Holds T n k ⟨[], refs⟩ := ⟨trivial, nofun⟩

theorem mono (hT : Lasting T) (h : r.Holds T n k) (hle : k ≤ m) : r.Holds T n m where
  blocks := h.blocks
  growing hblocks :=
    have ⟨front, hfront, htext⟩ := h.growing hblocks
    ⟨front, hT.mono hle hfront, htext⟩

/-- A block that is no paragraph. -/
theorem push {blocks : List Block} {refs : References} (h : Block.AllHold (T n) blocks) {b : Block}
    (hb : b.Holds (T n)) (hkind : b.isParagraph = false) :
    Reading.Holds T n k ⟨b :: blocks, refs⟩ where
  blocks := ⟨hb, h⟩
  growing hblocks := by
    cases hblocks
    cases hkind

/-- A paragraph whose text ends with a newline. -/
theorem pushText (hT : Lasting T) (hle : k ≤ n) {blocks : List Block} {refs : References}
    (h : Block.AllHold (T n) blocks) {front : List Char} (hfront : T k front) :
    Reading.Holds T n k ⟨.paragraph (front ++ ['\n']) :: blocks, refs⟩ where
  blocks := by
    rw [Block.AllHold, Block.Holds]
    exact ⟨⟨front, hT.mono hle hfront, .inr rfl⟩, h⟩
  growing hblocks := by
    cases hblocks
    exact ⟨front, hfront, rfl⟩

theorem addText (hT : Lasting T) (h : r.Holds T n k) (hline : T 1 line) (hle : k + 1 ≤ n) :
    (r.addText line).Holds T n (k + 1) := by
  unfold Reading.addText
  split
  · next text rest hblocks =>
      obtain ⟨front, hfront, rfl⟩ := h.growing hblocks
      have hrest := h.blocks
      rw [hblocks, Block.AllHold] at hrest
      rw [List.append_assoc front]
      exact pushText hT hle hrest.2 (hT.join hfront hline)
  · exact pushText hT hle h.blocks (hT.mono (Nat.le_add_left 1 k) hline)

end Reading.Holds

section Steps

variable {k m : Nat} {rules : Rules} {l : Line} {rest : List Line}

theorem stepList_holds (hT : Lasting T) (hrules : rules.Hold T) (h : r.Holds T n k)
    (hl : T 1 l.chars) (hrest : LinesHold T m rest) (hle : k + (m + 1) ≤ n) {result : Reading × Nat}
    (hstep : stepList rules l rest r = some result) : result.1.Holds T n (k + 1) := by
  unfold stepList at hstep
  split at hstep
  · next nested marker hnested hmarker =>
      split at hstep
      · cases hstep
        have hmark := hT.of_isSuffix hl (markerWith?_suffix hmarker)
        refine .push h.blocks ?_ rfl
        exact readList_holds hT (hrules nested hnested) r.references hmark hrest (by omega)
      · cases hstep
        exact h.addText hT hl (by omega)
  · cases hstep

theorem stepUnderline_holds (hT : Lasting T) (hrules : rules.Hold T) (h : r.Holds T n k)
    (hl : T 1 l.chars) (hrest : LinesHold T m rest) (hle : k + (m + 1) ≤ n) (level : Nat) :
    (stepUnderline rules level l rest r).1.Holds T n (k + 1) := by
  unfold stepUnderline
  split
  · next text before hblocks =>
      split
      · exact h.addText hT hl (by omega)
      · have hall := h.blocks
        rw [hblocks, Block.AllHold] at hall
        exact .push hall.2 hall.1 rfl
  · split
    · exact .push h.blocks trivial rfl
    · cases hlist : stepList rules l rest r with
      | none => exact h.addText hT hl (by omega)
      | some result => exact stepList_holds hT hrules h hl hrest hle hlist

theorem stepQuote_holds {nested : Nested} (hnested : nested.Holds T) (h : r.Holds T n k)
    (hlines : LinesHold T n ls) : (stepQuote nested ls r).1.Holds T n (k + 1) :=
  .push h.blocks (hnested r.references hlines) rfl

theorem stepHtml_holds (hT : Lasting T) (e : HtmlEnd) (h : r.Holds T n k) (hl : T 1 l.chars)
    (hle : k + 1 ≤ n) : (stepHtml e l rest r).1.Holds T n (k + 1) := by
  have htake : ∀ raw, (r.push (.html raw)).Holds T n (k + 1) := fun raw =>
    .push h.blocks trivial rfl
  unfold stepHtml
  dsimp only
  split
  · split
    · exact h.addText hT hl hle
    · exact htake _
  · exact htake _

theorem stepDefinition_holds (hT : Lasting T) (h : r.Holds T n k) (hl : T 1 l.chars)
    (hle : k + 1 ≤ n) : (stepDefinition l rest r).1.Holds T n (k + 1) := by
  unfold stepDefinition
  split
  · exact h.addText hT hl hle
  · split
    · exact ⟨h.blocks, (h.mono hT (Nat.le_succ k)).growing⟩
    · exact h.addText hT hl hle

theorem stepTable_holds (hT : Lasting T) (h : r.Holds T n k) (hl : T 1 l.chars)
    (hrest : LinesHold T m rest) (hle : k + (m + 1) ≤ n) :
    (stepTable l rest r).1.Holds T n (k + 1) := by
  have hpart : ∀ {cs cell}, T 1 cs → cell <:+: cs → T n cell := fun hcs hcell =>
    hT.mono (by omega) (hT.of_isInfix hcs hcell)
  unfold stepTable
  split
  · next headers alignment rows taken htable =>
      obtain ⟨hheaders, hrows⟩ := table?_isInfix htable
      refine .push h.blocks ?_ rfl
      rw [Block.Holds]
      refine ⟨fun cell hcell => hpart hl (hheaders cell hcell), fun row hrow cell hcell => ?_⟩
      obtain ⟨l', hl', hinfix⟩ := hrows row hrow cell hcell
      exact hpart (hrest.line l' hl') hinfix
  · exact h.addText hT hl (by omega)

/-- **What one line starts has the property of the lines.** -/
theorem stepBlock_holds (hT : Lasting T) (hrules : rules.Hold T) (h : r.Holds T n k)
    (hl : T 1 l.chars) (hrest : LinesHold T m rest) (hle : k + (m + 1) ≤ n) :
    (stepBlock rules l rest r).1.Holds T n (k + 1) := by
  have hone : k + 1 ≤ n := by omega
  have htext : (stepText l r).1.Holds T n (k + 1) := h.addText hT hl hone
  unfold stepBlock
  dsimp only
  split
  · -- a fence
    split
    · exact .push h.blocks trivial rfl
    · exact htext
  split
  · -- indented code
    split
    · exact htext
    · exact .push h.blocks trivial rfl
  split
  · next level title hheading =>
      have htitle := markedHeading?_holds hT hl hheading
      refine .push h.blocks ?_ rfl
      rw [Block.Holds]
      exact .of_holds (hT.mono (by omega) htitle)
  split
  · exact stepUnderline_holds hT hrules h hl hrest hle _
  split
  · exact .push h.blocks trivial rfl
  split
  · next nested inside hquote =>
      obtain ⟨nested', hnested, hinside⟩ := Option.bind_eq_some_iff.mp hquote
      obtain ⟨inside', hread, heq⟩ := Option.map_eq_some_iff.mp hinside
      cases heq
      refine stepQuote_holds (hrules nested hnested) h (quote?_hold hT ?_ hread)
      exact (hrest.cons hl).mono (by omega)
  split
  · exact .push h.blocks trivial rfl
  split
  · next result hlist => exact stepList_holds hT hrules h hl hrest hle hlist
  split
  · exact stepDefinition_holds hT h hl hone
  split
  · exact stepHtml_holds hT _ h hl hone
  split
  · exact htext
  split
  · exact .push h.blocks trivial rfl
  split
  · exact stepTable_holds hT h hl hrest hle
  · exact htext

theorem readLines_hold (hT : Lasting T) (hrules : rules.Hold T) (h : r.Holds T n k) (skip : Nat)
    (hlines : LinesHold T m ls) (hle : k + m ≤ n) :
    Block.AllHold (T n) (readLines rules skip ls r).blocks := by
  induction ls generalizing k m skip r with
  | nil => cases skip <;> exact h.blocks
  | cons l rest ih =>
      obtain ⟨m, rfl⟩ := hlines.exists_eq
      have hrest : k + 1 + m ≤ n := by omega
      cases skip with
      | succ skip => exact ih (h.mono hT (Nat.le_succ k)) skip hlines.tail hrest
      | zero =>
          exact ih (stepBlock_holds hT hrules h hlines.head hlines.tail hle) _ hlines.tail hrest

end Steps

/-- By induction on the levels: what is nested is read with one level less. -/
theorem readNested_holds (hT : Lasting T) (outermost : Bool) (levels : Nat) :
    Nested.Holds T (readNested outermost levels) := by
  have hread : ∀ {rules : Rules}, rules.Hold T → ∀ {n ls} refs, LinesHold T n ls →
      Block.AllHold (T n) (readLines rules 0 ls ⟨[], refs⟩).blocks.reverse := by
    intro rules hrules n ls refs hlines
    have hempty : Reading.Holds T n 0 ⟨[], refs⟩ := .empty refs
    have hall := readLines_hold hT hrules hempty 0 hlines (Nat.zero_add n).le
    rw [Block.allHold_iff]
    exact fun b hb => Block.allHold_iff.mp hall b (List.mem_reverse.mp hb)
  induction levels generalizing outermost with
  | zero =>
      intro n ls refs hlines
      refine hread (fun nested hnested => ?_) refs hlines
      cases hnested
  | succ levels ih =>
      intro n ls refs hlines
      refine hread (fun nested hnested => ?_) refs hlines
      cases hnested
      exact ih false

theorem length_linesOf_le (cs : List Char) : (linesOf cs).length ≤ (lines cs).length := by
  unfold linesOf
  split
  · exact Nat.zero_le _
  · rw [List.length_map]
    split
    · exact (List.dropLast_prefix _).length_le
    · exact Nat.le_refl _

/-- **The texts of the blocks of a text have the property of texts of so many lines.** -/
theorem readBlocks_hold (hT : Lasting T) (h : T n cs) :
    Block.AllHold (T (lines cs).length) (readBlocks cs).1 :=
  readNested_holds hT true maxLevels [] ((linesOf_hold hT h).mono (length_linesOf_le cs))

end Livedoc.Markdown
