import Livedoc.Proofs.Markdown.Texts
import Livedoc.Proofs.Text.Tally

/-!
# Brackets in blocks

Dividing a text into blocks adds no opening brackets (`weight_readBlocks_le`).  Indentation and
markers are taken off lines, tabs become spaces, and a line that belongs to a block goes into it
once: the brackets of a block and of the lines behind it are no more than those of the lines from
its first one on (`stepBlock_conserves`).
-/

namespace Livedoc.Markdown

open Livedoc.Text

variable {cs line : List Char} {ls rest : List Line} {l : Line} {r : Reading}

namespace Block

mutual

/-- The number of opening brackets in the texts of a block. -/
def weight : Block → Nat
  | blank | thematicBreak => 0
  | paragraph text | tightText text | heading _ text => tally text
  | code raw _ | math raw | html raw => tally raw
  | quote children => weightAll children
  | list _ _ items => weightItems items
  | table headers _ rows => tallyAll headers + (rows.map tallyAll).sum

/-- The number of opening brackets in the texts of several blocks. -/
def weightAll : List Block → Nat
  | [] => 0
  | b :: rest => b.weight + weightAll rest

/-- The number of opening brackets in the texts of the items of a list. -/
def weightItems : List (List Block) → Nat
  | [] => 0
  | item :: rest => weightAll item + weightItems rest

end

theorem weightAll_eq (bs : List Block) : weightAll bs = (bs.map weight).sum := by
  induction bs with
  | nil => rfl
  | cons b rest ih => rw [weightAll, ih, List.map_cons, List.sum_cons]

theorem weightItems_eq (items : List (List Block)) :
    weightItems items = (items.map weightAll).sum := by
  induction items with
  | nil => rfl
  | cons item rest ih => rw [weightItems, ih, List.map_cons, List.sum_cons]

@[simp]
theorem weightAll_reverse (bs : List Block) : weightAll bs.reverse = weightAll bs := by
  rw [weightAll_eq, weightAll_eq, List.map_reverse, List.sum_reverse]

@[simp]
theorem weightItems_reverse (items : List (List Block)) :
    weightItems items.reverse = weightItems items := by
  rw [weightItems_eq, weightItems_eq, List.map_reverse, List.sum_reverse]

/-- A paragraph of a tight list has the text that it has elsewhere. -/
theorem weight_tightened (b : Block) : b.tightened.weight = b.weight := by
  cases b <;> simp [tightened, weight]

theorem weightItems_tightened (items : List (List Block)) :
    weightItems (items.map (·.map tightened)) = weightItems items := by
  rw [weightItems_eq, weightItems_eq, List.map_map]
  refine congrArg List.sum (List.map_congr_left fun item _ => ?_)
  rw [Function.comp_apply, weightAll_eq, weightAll_eq, List.map_map]
  exact congrArg List.sum (List.map_congr_left fun b _ => weight_tightened b)

end Block

/-! ## Lines -/

/-- The number of opening brackets in lines. -/
def tallyLines (ls : List Line) : Nat := tallyAll (ls.map (·.chars))

@[simp]
theorem tallyLines_nil : tallyLines [] = 0 := rfl

@[simp]
theorem tallyLines_cons (l : Line) (ls : List Line) :
    tallyLines (l :: ls) = tally l.chars + tallyLines ls :=
  tallyAll_cons _ _

@[simp]
theorem tallyLines_append (ls ms : List Line) :
    tallyLines (ls ++ ms) = tallyLines ls + tallyLines ms := by
  rw [tallyLines, List.map_append, tallyAll_append, tallyLines, tallyLines]

theorem tallyLines_drop_le (n : Nat) (ls : List Line) : tallyLines (ls.drop n) ≤ tallyLines ls :=
  tallyAll_le_of_sublist ((List.drop_sublist n ls).map _)

/-- Lines from the start and lines behind them are lines of the text. -/
theorem tallyLines_take_add_drop_le {m n : Nat} (h : m ≤ n) (ls : List Line) :
    tallyLines (ls.take m) + tallyLines (ls.drop n) ≤ tallyLines ls := by
  have hrest := tallyLines_drop_le (n - m) (ls.drop m)
  have hall := tallyLines_append (ls.take m) (ls.drop m)
  rw [List.drop_drop, Nat.add_sub_cancel' h] at hrest
  rw [List.take_append_drop] at hall
  omega

theorem tallyLines_takeWhile_add_drop_le (p : Line → Bool) (ls : List Line) {n : Nat}
    (h : (ls.takeWhile p).length ≤ n) :
    tallyLines (ls.takeWhile p) + tallyLines (ls.drop n) ≤ tallyLines ls := by
  have htake : ls.takeWhile p = ls.take (ls.takeWhile p).length :=
    (List.prefix_iff_eq_take.mp (List.takeWhile_prefix p))
  have hlines := tallyLines_take_add_drop_le h ls
  rwa [← htake] at hlines

theorem tally_textOfLines (ls : List Line) : tally (textOfLines ls) = tallyLines ls := by
  induction ls with
  | nil => rfl
  | cons l ls ih =>
      have htext : textOfLines (l :: ls) = l.chars ++ ['\n'] ++ textOfLines ls := rfl
      rw [htext, tally_append, tally_append, ih, tallyLines_cons]
      rfl

/-- A tab that becomes spaces. -/
private theorem tally_expandedTab_le {most indent n : Nat} {rest : List Char}
    (h : dropIndent? most cs = some (indent, '\t' :: rest)) :
    tally (spaces n ++ rest) ≤ tally cs := by
  have hrest := tally_le_of_suffix ((List.suffix_cons '\t' rest).trans (dropIndent?_suffix h))
  rw [tally_append, spaces, tally_replicate (by decide), Nat.zero_add]
  exact hrest

theorem tally_expandLeadingTab_le (width : Nat) (cs : List Char) :
    tally (expandLeadingTab width cs) ≤ tally cs := by
  unfold expandLeadingTab
  split
  · next indent rest hindent => exact tally_expandedTab_le hindent
  · exact Nat.le_refl _

theorem tally_expandSecondTab_le (cs : List Char) : tally (expandSecondTab cs) ≤ tally cs := by
  unfold expandSecondTab
  split
  · next indent rest hindent => exact tally_expandedTab_le hindent
  · exact Nat.le_refl _

theorem tallyLines_linesOf_le (cs : List Char) : tallyLines (linesOf cs) ≤ tally cs := by
  unfold linesOf
  split
  · exact Nat.zero_le _
  · rw [tallyLines, List.map_map]
    have hparts : ∀ parts : List (List Char),
        parts.map ((fun l : Line => l.chars) ∘ fun p => { chars := p }) = parts := List.map_id
    rw [hparts, ← tallyAll_lines cs]
    split
    · exact tallyAll_le_of_sublist (List.dropLast_sublist _)
    · exact Nat.le_refl _

/-! ## Code, formulas, headings and tables -/

/-- What a step gives and the lines that it leaves have no more brackets than what it starts from
and all lines. -/
def Conserves (r : Reading) (l : Line) (rest : List Line) (result : Reading × Nat) : Prop :=
  Block.weightAll result.1.blocks + tallyLines (rest.drop result.2) ≤
    Block.weightAll r.blocks + tallyLines (l :: rest)

/-- A block whose text comes from the lines that it takes. -/
theorem Conserves.push {b : Block} {taken : Nat}
    (h : b.weight + tallyLines (rest.drop taken) ≤ tallyLines (l :: rest)) :
    Conserves r l rest (r.push b, taken) := by
  simp only [Conserves, Reading.push, Block.weightAll]
  omega

/-- A line that goes into a paragraph. -/
theorem Conserves.addText : Conserves r l rest (r.addText l.chars, 0) := by
  have hline : tally (l.chars ++ ['\n']) = tally l.chars := by
    rw [tally_append]
    rfl
  unfold Conserves Reading.addText
  split
  · next text before hblocks =>
      simp only [hblocks, Block.weightAll, Block.weight, List.append_assoc, tally_append text,
        hline, List.drop_zero, tallyLines_cons]
      omega
  · simp only [Reading.push, Block.weightAll, Block.weight, hline, List.drop_zero,
      tallyLines_cons]
    omega

theorem weight_fence_le (f : Fence) (rest : List Line) :
    tally (f.raw (f.content rest).1) + tallyLines (rest.drop (f.content rest).2) ≤
      tallyLines rest := by
  have hraw : ∀ content : List (List Char), tally (f.raw content) ≤ tallyAll content := by
    intro content
    induction content with
    | nil => exact Nat.le_refl _
    | cons cs content ih =>
        have hline := tally_le_of_suffix (dropSpaces_suffix f.indent cs)
        have hcons : f.raw (cs :: content) = dropSpaces f.indent cs ++ ['\n'] ++ f.raw content :=
          rfl
        have hnewline : tally ['\n'] = 0 := rfl
        rw [hcons, tally_append, tally_append, tallyAll_cons]
        omega
  have hinside := hraw (f.content rest).1
  have hlength : (rest.takeWhile fun l => !f.closedBy l.chars).length ≤ rest.length :=
    (List.takeWhile_prefix _).length_le
  have hlines := tallyLines_takeWhile_add_drop_le (fun l => !f.closedBy l.chars) rest
    (n := (f.content rest).2) (by rw [Fence.content]; dsimp only; omega)
  exact Nat.le_trans (Nat.add_le_add_right hinside _) hlines

theorem weight_indentedText_le (block : List Line) :
    tally (indentedText block) ≤ tallyLines block := by
  refine Nat.le_trans (tally_trimWhile_le _ _) ?_
  induction block with
  | nil => exact Nat.le_refl _
  | cons l block ih =>
      have hspaces := tally_le_of_suffix (dropSpaces_suffix 4 (expandLeadingTab 4 l.chars))
      have htab := tally_expandLeadingTab_le 4 l.chars
      have hnewline : tally ['\n'] = 0 := rfl
      rw [List.flatMap_cons, tally_append, tally_append, tallyLines_cons]
      omega

theorem tally_dropClosingMarks_le (cs : List Char) : tally (dropClosingMarks cs) ≤ tally cs := by
  have hfront := tally_dropEndWhile_le (· == '#') (trimEnd cs)
  have hbody : tally (trimEnd cs) ≤ tally cs := tally_dropEndWhile_le isBlank cs
  unfold dropClosingMarks
  dsimp only
  split
  · exact Nat.le_refl _
  · split
    · exact Nat.zero_le _
    · split
      · have htext : ∀ ds, tally (trimEnd ds) ≤ tally ds := tally_dropEndWhile_le isBlank
        exact Nat.le_trans (htext _) (Nat.le_trans hfront hbody)
      · exact Nat.le_refl _

theorem tally_markedHeading?_le {level : Nat} {title : List Char}
    (h : markedHeading? cs = some (level, title)) : tally title ≤ tally cs := by
  unfold markedHeading? at h
  split at h
  · cases h
  · next indent body hindent =>
      dsimp only at h
      split at h
      · cases h
        refine Nat.le_trans (tally_dropClosingMarks_le _) ?_
        refine Nat.le_trans (tally_trimWhile_le _ _) ?_
        refine Nat.le_trans (tally_drop_le _ _) ?_
        exact tally_le_of_suffix (dropIndent?_suffix hindent)
      · cases h

theorem tally_beforeClosing?_le {raw : List Char} (h : beforeClosing? cs = some raw) :
    tally raw ≤ tally cs := by
  induction cs generalizing raw with
  | nil => cases h
  | cons c rest ih =>
      unfold beforeClosing? at h
      split at h
      · cases h
        exact Nat.zero_le _
      · obtain ⟨raw', hraw, rfl⟩ := Option.map_eq_some_iff.mp h
        have hrest := ih hraw
        rw [tally_cons, tally_cons]
        omega

theorem weight_formula?_le {raw : List Char} {taken : Nat}
    (h : formula? cs rest = some (raw, taken)) :
    tally raw + tallyLines (rest.drop taken) ≤ tally cs + tallyLines rest := by
  have hdollars : ∀ {body}, afterDollars? cs = some body → tally body ≤ tally cs := by
    intro body hbody
    unfold afterDollars? at hbody
    split at hbody
    · next indent rest hindent =>
        cases hbody
        have hsuffix : body <:+ '$' :: '$' :: body := ⟨['$', '$'], rfl⟩
        exact tally_le_of_suffix (hsuffix.trans (dropIndent?_suffix hindent))
    · cases hbody
  unfold formula? at h
  split at h
  · cases h
  · next body hbody =>
      split at h
      · next raw' hraw =>
          cases h
          have htally := tally_beforeClosing?_le hraw
          have hline := hdollars hbody
          rw [List.drop_zero]
          omega
      · split at h
        · next line more hgap =>
            dsimp only at h
            split at h
            · cases h
              have hlines := tallyLines_takeWhile_add_drop_le
                (fun l => !isFormulaEnd l.chars) more (Nat.le_add_right _ 1)
              have hraw : tally (unlines ((line :: more.takeWhile
                  fun l => !isFormulaEnd l.chars).map (·.chars))) =
                  tallyLines (line :: more.takeWhile fun l => !isFormulaEnd l.chars) :=
                tally_unlines _
              rw [hraw, List.drop_succ_cons, tallyLines_cons, tallyLines_cons]
              omega
            · cases h
        · cases h

theorem tallyAll_cells_le (cs : List Char) : tallyAll (cells cs) ≤ tally cs := by
  have hsplit : ∀ (cs : List Char) (escaped : Bool),
      tallyAll (splitCells escaped cs) ≤ tally cs := by
    intro cs
    induction cs with
    | nil => exact fun _ => Nat.le_refl _
    | cons c cs ih =>
        intro escaped
        unfold splitCells
        split
        · have hrest := ih false
          rw [tallyAll_cons, tally_nil, tally_cons]
          omega
        · have hrest := ih (c == '\\' && !escaped)
          split
          · rw [tallyAll_cons, tallyAll_nil, tally_cons, tally_cons, tally_nil]
            omega
          · next cell others hcells =>
              rw [hcells, tallyAll_cons] at hrest
              rw [tallyAll_cons, tally_cons, tally_cons]
              omega
  refine Nat.le_trans (tallyAll_map_le (tally_trimWhile_le isBlank) _) ?_
  exact Nat.le_trans (hsplit _ false) (tally_trimWhile_le isBlank cs)

theorem weight_tableWith?_le {line? row? : List Char → Option (List Char)} {parts : TableParts}
    {taken : Nat} (hline : ∀ {cs ds}, line? cs = some ds → ds <:+: cs)
    (hrow : ∀ {cs ds}, row? cs = some ds → ds <:+: cs)
    (h : tableWith? line? row? cs rest = some (parts, taken)) :
    tallyAll parts.1 + (parts.2.2.map tallyAll).sum + tallyLines (rest.drop taken) ≤
      tally cs + tallyLines rest := by
  have hrows : ∀ body : List Line, (((body.takeWhile fun l => (row? l.chars).isSome).map fun l =>
      cells ((row? l.chars).getD [])).map tallyAll).sum ≤
        tallyLines (body.takeWhile fun l => (row? l.chars).isSome) := by
    intro body
    induction body with
    | nil => exact Nat.le_refl _
    | cons l body ih =>
        cases hread : row? l.chars with
        | none => simp [hread]
        | some ds =>
            have hcells := tallyAll_cells_le ds
            have hdrawn := tally_le_of_sublist (hrow hread).sublist
            rw [List.takeWhile_cons_of_pos (by rw [hread]; rfl), List.map_cons, List.map_cons,
              List.sum_cons, tallyLines_cons, hread, Option.getD_some]
            omega
  unfold tableWith? at h
  split at h
  · next head dashes body hhead =>
      split at h
      · cases h
      · dsimp only at h
        split at h
        · cases h
        · split at h
          · cases h
            have hheaders := tallyAll_cells_le head
            have hdrawn := tally_le_of_sublist (hline hhead).sublist
            have hlines := tallyLines_takeWhile_add_drop_le
              (fun l => (row? l.chars).isSome) body (Nat.le_refl _)
            have hbody := hrows body
            dsimp only
            rw [List.drop_succ_cons, List.length_map, tallyLines_cons]
            omega
          · cases h
  · cases h

theorem weight_table?_le {parts : TableParts} {taken : Nat}
    (h : table? cs rest = some (parts, taken)) :
    tallyAll parts.1 + (parts.2.2.map tallyAll).sum + tallyLines (rest.drop taken) ≤
      tally cs + tallyLines rest := by
  unfold table? at h
  split at h
  · exact weight_tableWith?_le piped?_isInfix piped?_isInfix h
  · exact weight_tableWith?_le open?_isInfix openRow?_isInfix h

/-! ## Quotations -/

theorem tally_quotedContent_le (hmark : afterQuoteMark? cs = some line) :
    tally (expandSecondTab (quotedContent line)) ≤ tally cs := by
  unfold afterQuoteMark? at hmark
  split at hmark
  · next indent rest hindent =>
      cases hmark
      refine Nat.le_trans (tally_expandSecondTab_le _) ?_
      refine Nat.le_trans (tally_le_of_suffix (dropSpaces_suffix 1 _)) ?_
      refine Nat.le_trans (tally_expandLeadingTab_le 3 line) ?_
      exact tally_le_of_suffix ((List.suffix_cons '>' line).trans (dropIndent?_suffix hindent))
  · cases hmark

theorem tallyLines_quoteLines_le (lazyAllowed afterBlank : Bool) (ls : List Line) :
    tallyLines (quoteLines lazyAllowed afterBlank ls) +
      tallyLines (ls.drop (quoteLines lazyAllowed afterBlank ls).length) ≤ tallyLines ls := by
  induction ls generalizing afterBlank with
  | nil => exact Nat.le_refl _
  | cons l rest ih =>
      unfold quoteLines
      split
      · next cs hmark =>
          have hline := tally_quotedContent_le hmark
          have hrest := ih (isBlankLine (quotedContent cs))
          simp only [List.length_cons, List.drop_succ_cons, tallyLines_cons]
          omega
      · split
        · simp
        · have hline := Nat.le_trans (tally_expandSecondTab_le _)
            (tally_expandLeadingTab_le 3 l.chars)
          have hrest := ih false
          simp only [List.length_cons, List.drop_succ_cons, tallyLines_cons]
          omega

theorem tallyLines_quote?_le {inside : List Line} (h : quote? (l :: rest) = some inside) :
    tallyLines inside + tallyLines (rest.drop (inside.length - 1)) ≤ tallyLines (l :: rest) := by
  unfold quote? at h
  dsimp only at h
  split at h
  · cases h
  · next cs hmark =>
      cases h
      have hline := tally_quotedContent_le hmark
      have hrest := tallyLines_quoteLines_le (allowsLazy (quotedContent cs)) false rest
      simp only [List.length_cons, Nat.add_sub_cancel, tallyLines_cons]
      omega

/-! ## Items -/

theorem tally_markerWith?_le {allows : List Char → Char → Bool} {indent : Nat} {m : Marker}
    (h : markerWith? allows indent cs = some m) : tally m.rest ≤ tally cs :=
  tally_le_of_suffix (markerWith?_suffix h)

theorem Marker.tally_content_le (m : Marker) : tally m.content.1 ≤ tally m.rest := by
  have htext := Nat.le_trans (tally_expandSecondTab_le _) (tally_expandLeadingTab_le 3 m.rest)
  unfold Marker.content
  dsimp only
  split
  · exact Nat.zero_le _
  · exact Nat.le_trans (tally_drop_le _ _) htext

/-- The number of opening brackets in the lines of an item and behind the marker of the next. -/
def ItemBody.weight (b : ItemBody) : Nat :=
  tallyLines b.body + ((b.next.map fun m => tally m.rest).getD 0)

theorem weight_itemBody_le (bullet : Char) (column indent : Nat) (started afterBlank : Bool)
    (ls : List Line) :
    (itemBody bullet column indent started afterBlank ls).weight +
      tallyLines (ls.drop (itemBody bullet column indent started afterBlank ls).taken) ≤
        tallyLines ls := by
  have hend : ∀ (ls : List Line) (blank : Bool),
      (⟨[], 0, none, blank⟩ : ItemBody).weight + tallyLines (ls.drop 0) ≤ tallyLines ls :=
    fun _ _ => (Nat.zero_add _).le
  have hcons : ∀ {b : ItemBody} {l m : Line} {rest : List Line},
      b.weight + tallyLines (rest.drop b.taken) ≤ tallyLines rest →
      tally m.chars ≤ tally l.chars →
      (b.cons m).weight + tallyLines ((l :: rest).drop (b.cons m).taken) ≤
        tallyLines (l :: rest) := by
    intro b l m rest hb hm
    simp only [ItemBody.weight, ItemBody.cons, List.drop_succ_cons, tallyLines_cons] at hb ⊢
    omega
  induction ls generalizing started afterBlank with
  | nil => exact hend [] afterBlank
  | cons l rest ih =>
      have hexpanded := tally_expandLeadingTab_le 4 l.chars
      unfold itemBody
      split
      · exact hcons (ih started true) (Nat.zero_le _)
      · dsimp only
        split
        · split
          · exact hend _ afterBlank
          · refine hcons (ih true false) (Nat.le_trans (tally_expandSecondTab_le _) ?_)
            exact Nat.le_trans (tally_drop_le column _) hexpanded
        · split
          · exact hend _ afterBlank
          · split
            · next m hm =>
                have hmarker := tally_markerWith?_le hm
                simp only [ItemBody.weight, tallyLines_nil, Option.map_some, Option.getD_some,
                  List.drop_succ_cons, List.drop_zero, tallyLines_cons]
                omega
            · split
              · exact hend _ afterBlank
              · exact hcons (ih true false) hexpanded

theorem tallyLines_dropBlankEnd_le (ls : List Line) :
    tallyLines (dropBlankEnd ls) ≤ tallyLines ls :=
  tallyAll_le_of_sublist ((dropBlankEnd_sublist ls).map _)

/-! ## Lists -/

/-- Whether reading nested lines adds no brackets. -/
def Nested.Conserves (nested : Nested) : Prop :=
  ∀ ls refs, Block.weightAll (nested ls refs).1 ≤ tallyLines ls

/-- By induction on the items: `all` are the lines behind the first marker, of which those that
belong to the items so far are taken. -/
theorem weight_readItems_le {nested : Nested} (hnested : nested.Conserves) (bullet : Char)
    (rounds : Nat) (m : Marker) (all : List Line) (acc : ItemList) :
    Block.weightItems (readItems nested bullet rounds m (all.drop acc.taken) acc).items +
      tallyLines (all.drop (readItems nested bullet rounds m (all.drop acc.taken) acc).taken) ≤
        Block.weightItems acc.items + tally m.rest + tallyLines (all.drop acc.taken) := by
  induction rounds generalizing m acc with
  | zero =>
      have hsame : readItems nested bullet 0 m (all.drop acc.taken) acc = acc := rfl
      rw [hsame]
      omega
  | succ rounds ih =>
      have hbody := weight_itemBody_le bullet m.content.2 (min 3 m.width) (!m.content.1.isEmpty)
        false (all.drop acc.taken)
      have hcontent := m.tally_content_le
      have hown : tallyLines (if m.content.1.isEmpty then [] else [{ chars := m.content.1 }]) ≤
          tally m.content.1 := by
        split <;> simp
      unfold readItems
      dsimp only
      generalize itemBody bullet m.content.2 (min 3 m.width) (!m.content.1.isEmpty) false
        (all.drop acc.taken) = body at hbody ⊢
      generalize (if m.content.1.isEmpty then [] else [{ chars := m.content.1 : Line }]) = own
        at hown ⊢
      have hread := hnested (dropBlankEnd (own ++ body.body)) acc.references
      have hlines := tallyLines_dropBlankEnd_le (own ++ body.body)
      rw [tallyLines_append] at hlines
      rw [List.drop_drop] at hbody ⊢
      split
      · next next hnext =>
          have hweight : body.weight = tallyLines body.body + tally next.rest := by
            rw [ItemBody.weight, hnext]
            rfl
          refine Nat.le_trans (ih next ⟨_, _, _, acc.taken + body.taken⟩) ?_
          simp only [Block.weightItems]
          omega
      · next hnext =>
          have hweight : body.weight = tallyLines body.body := by
            rw [ItemBody.weight, hnext]
            rfl
          simp only [Block.weightItems]
          omega

theorem weight_readList_le {nested : Nested} (hnested : nested.Conserves) (m : Marker)
    (rest : List Line) (refs : References) :
    (readList nested m rest refs).1.weight +
      tallyLines (rest.drop (readList nested m rest refs).2.2) ≤ tally m.rest + tallyLines rest := by
  have hitems := weight_readItems_le hnested m.bullet (rest.length + 1) m rest ⟨[], false, refs, 0⟩
  rw [List.drop_zero, Block.weightItems, Nat.zero_add] at hitems
  unfold readList
  dsimp only
  rw [Block.weight]
  split
  · rw [Block.weightItems_reverse]
    exact hitems
  · rw [Block.weightItems_tightened, Block.weightItems_reverse]
    exact hitems

/-! ## Steps -/

section Steps

variable {rules : Rules}

/-- Rules by which nested lines are read without adding brackets. -/
def Rules.Conserve (rules : Rules) : Prop :=
  ∀ nested, rules.nested = some nested → nested.Conserves

theorem stepList_conserves (hrules : rules.Conserve) {result : Reading × Nat}
    (h : stepList rules l rest r = some result) : Conserves r l rest result := by
  unfold stepList at h
  split at h
  · next nested m hnested hm =>
      split at h
      · have hlist := weight_readList_le (hrules nested hnested) m rest r.references
        have hmarker := tally_markerWith?_le hm
        generalize readList nested m rest r.references = read at h hlist
        obtain ⟨list, refs, taken⟩ := read
        cases h
        dsimp only at hlist
        simp only [Conserves, Block.weightAll, tallyLines_cons]
        omega
      · cases h
        exact .addText
  · cases h

theorem stepUnderline_conserves (hrules : rules.Conserve) (level : Nat) :
    Conserves r l rest (stepUnderline rules level l rest r) := by
  unfold stepUnderline
  split
  · next text before hblocks =>
      split
      · exact .addText
      · -- the paragraph becomes the heading
        simp only [Conserves, hblocks, Block.weightAll, Block.weight, List.drop_zero,
          tallyLines_cons]
        omega
  · split
    · exact .push (by simp [Block.weight])
    · cases hlist : stepList rules l rest r with
      | none => exact .addText
      | some result => exact stepList_conserves hrules hlist

theorem stepQuote_conserves {nested : Nested} (hnested : nested.Conserves) {inside : List Line}
    (h : quote? (l :: rest) = some inside) :
    Conserves r l rest (stepQuote nested inside r) := by
  have hinside := hnested inside r.references
  have hlines := tallyLines_quote?_le h
  unfold stepQuote
  simp only [Conserves, Block.weightAll, Block.weight]
  omega

theorem stepHtml_conserves (e : HtmlEnd) : Conserves r l rest (stepHtml e l rest r) := by
  have htake : ∀ size, Conserves r l rest
      (r.push (.html (textOfLines ((l :: rest).take size))), size - 1) := by
    intro size
    refine .push ?_
    rw [Block.weight, tally_textOfLines]
    cases size with
    | zero => simp
    | succ size =>
        have hlines := tallyLines_take_add_drop_le (Nat.le_refl size) rest
        rw [List.take_succ_cons, tallyLines_cons, tallyLines_cons, Nat.add_sub_cancel]
        omega
  unfold stepHtml
  dsimp only
  split
  · split
    · exact .addText
    · exact htake _
  · exact htake _

theorem stepDefinition_conserves : Conserves r l rest (stepDefinition l rest r) := by
  unfold stepDefinition
  split
  · exact .addText
  · split
    · next key target size _ =>
        have hrest := tallyLines_drop_le (size - 1) rest
        simp only [Conserves, tallyLines_cons]
        omega
    · exact .addText

theorem stepTable_conserves : Conserves r l rest (stepTable l rest r) := by
  unfold stepTable
  split
  · next headers alignment rows taken htable =>
      have hcells := weight_table?_le htable
      refine .push ?_
      rw [Block.weight, tallyLines_cons]
      exact hcells
  · exact .addText

/-- **What one line starts has no brackets but those of the lines that it takes.** -/
theorem stepBlock_conserves (hrules : rules.Conserve) :
    Conserves r l rest (stepBlock rules l rest r) := by
  have htext : Conserves r l rest (stepText l r) := .addText
  unfold stepBlock
  dsimp only
  split
  · next f _ =>
      split
      · have hcontent := weight_fence_le f rest
        refine .push ?_
        rw [Block.weight, tallyLines_cons]
        omega
      · exact htext
  split
  · split
    · exact htext
    · have hbody := weight_indentedText_le (l :: rest.take (indentedLength rest))
      have hlines := tallyLines_take_add_drop_le (Nat.le_refl (indentedLength rest)) rest
      refine .push ?_
      rw [tallyLines_cons] at hbody
      rw [Block.weight, tallyLines_cons]
      omega
  split
  · next level title hheading =>
      have htitle := tally_markedHeading?_le hheading
      refine .push ?_
      rw [Block.weight, List.drop_zero, tallyLines_cons]
      omega
  split
  · exact stepUnderline_conserves hrules _
  split
  · exact .push (by simp [Block.weight])
  split
  · next nested inside hquote =>
      obtain ⟨nested', hnested, hinside⟩ := Option.bind_eq_some_iff.mp hquote
      obtain ⟨inside', hread, heq⟩ := Option.map_eq_some_iff.mp hinside
      cases heq
      exact stepQuote_conserves (hrules nested hnested) hread
  split
  · next raw taken hformula =>
      split at hformula
      · have hraw := weight_formula?_le hformula
        exact .push (by rw [Block.weight, tallyLines_cons]; exact hraw)
      · cases hformula
  split
  · next result hlist => exact stepList_conserves hrules hlist
  split
  · exact stepDefinition_conserves
  split
  · exact stepHtml_conserves _
  split
  · exact htext
  split
  · refine .push ?_
    rw [Block.weight, Nat.zero_add]
    exact Nat.le_trans (tallyLines_drop_le _ _) (Nat.le_add_left _ _)
  split
  · exact stepTable_conserves
  · exact htext

theorem weight_readLines_le (hrules : rules.Conserve) (skip : Nat) (ls : List Line)
    (r : Reading) :
    Block.weightAll (readLines rules skip ls r).blocks ≤
      Block.weightAll r.blocks + tallyLines (ls.drop skip) := by
  induction ls generalizing skip r with
  | nil => cases skip <;> exact Nat.le_add_right _ _
  | cons l rest ih =>
      cases skip with
      | succ skip => exact ih skip r
      | zero =>
          exact Nat.le_trans (ih _ _) (stepBlock_conserves (r := r) (l := l) hrules)

end Steps

/-- By induction on the levels: what is nested is read with one level less. -/
theorem readNested_conserves (outermost : Bool) (levels : Nat) :
    Nested.Conserves (readNested outermost levels) := by
  have hread : ∀ {rules : Rules}, rules.Conserve → ∀ ls refs,
      Block.weightAll (readLines rules 0 ls ⟨[], refs⟩).blocks.reverse ≤ tallyLines ls := by
    intro rules hrules ls refs
    have hlines := weight_readLines_le hrules 0 ls ⟨[], refs⟩
    rw [List.drop_zero, Block.weightAll, Nat.zero_add] at hlines
    rwa [Block.weightAll_reverse]
  induction levels generalizing outermost with
  | zero =>
      refine hread fun nested hnested => ?_
      cases hnested
  | succ levels ih =>
      refine hread fun nested hnested => ?_
      cases hnested
      exact ih false

/-- **The blocks of a text have no more brackets than the text.** -/
theorem weight_readBlocks_le (cs : List Char) : Block.weightAll (readBlocks cs).1 ≤ tally cs :=
  Nat.le_trans (readNested_conserves true maxLevels _ _) (tallyLines_linesOf_le cs)

end Livedoc.Markdown
