import Livedoc.Proofs.Document.LineText
import Livedoc.Proofs.Document.TypedQuote
import Livedoc.Proofs.Markdown.BlockTally
import Livedoc.Proofs.Markdown.InlineTally

/-!
# Brackets in nodes

The weight of nodes is the number of opening brackets in their contents, with one more for each
quotation that has a type: the type was taken off a marker, which is one bracket less
(`weight_takeQuoteType_le`).  The nodes of a stretch of Markdown weigh no more than the stretch has
brackets (`weight_markdownNodes_le`).
-/

namespace Livedoc.Tree.Node

open Livedoc.Call Livedoc.Source Livedoc.Text

variable {ns ms : List Node}

/-- The contents of a node of text, code or mathematics, and of the named arguments of a call. Its
other arguments are nodes below it. -/
def contents : Node → List String
  | text content _ | code content _ _ _ | math content _ _ => [content]
  | call _ _ named _ _ => named.map (·.value.content)
  | _ => []

/-- Whether a node is a quotation with a type. -/
def isTypedQuote : Node → Bool
  | blockquote _ quoteType _ => quoteType.isSome
  | _ => false

/-- The number of opening brackets in the contents of nodes and of those below them. -/
def brackets (ns : List Node) : Nat := tallyAll (((walkAll ns).flatMap contents).map String.toList)

/-- The number of quotations with a type among nodes and below them. -/
def typedQuotes (ns : List Node) : Nat := (walkAll ns).countP isTypedQuote

/-- The number of opening brackets in contents and of quotations with a type. -/
def weight (ns : List Node) : Nat := brackets ns + typedQuotes ns

/-- No content holds an opening bracket if there are none. -/
theorem brackets_eq_zero_iff : brackets ns = 0 ↔
    ∀ m ∈ walkAll ns, ∀ content ∈ m.contents, '[' ∉ content.toList := by
  rw [brackets, tallyAll_eq_zero_iff, List.forall_mem_map]
  simp only [List.mem_flatMap]
  exact ⟨fun h m hm content hcontent => h content ⟨m, hm, hcontent⟩,
    fun h content ⟨m, hm, hcontent⟩ => h m hm content hcontent⟩

/-! ## Parts of the weight -/

@[simp]
theorem weight_nil : weight [] = 0 := rfl

@[simp]
theorem weight_append (ns ms : List Node) : weight (ns ++ ms) = weight ns + weight ms := by
  simp only [weight, brackets, typedQuotes, walkAll_append, List.flatMap_append, List.map_append,
    tallyAll_append, List.countP_append]
  omega

theorem weight_cons (n : Node) (ns : List Node) : weight (n :: ns) = weight [n] + weight ns := by
  rw [← List.singleton_append, weight_append]

/-- A node weighs as much as its own contents and what stands below it. -/
theorem weight_of_walk {n : Node} {ns : List Node} (h : n.walk = n :: walkAll ns) :
    weight [n] = tallyAll (n.contents.map String.toList) + (if n.isTypedQuote then 1 else 0) +
      weight ns := by
  simp only [weight, brackets, typedQuotes, walkAll, List.append_nil, h, List.flatMap_cons,
    List.map_append, tallyAll_append, List.countP_cons]
  omega

/-- A node of another kind with nodes below it. -/
theorem weight_container {n : Node} (h : n.walk = n :: walkAll ns) (hcontents : n.contents = [])
    (htype : n.isTypedQuote = false) : weight [n] = weight ns := by
  rw [weight_of_walk h, hcontents, htype]
  exact Nat.zero_add _

theorem weight_leaf {n : Node} (h : n.isLeaf = true) :
    weight [n] = tallyAll (n.contents.map String.toList) := by
  have htype : n.isTypedQuote = false := by
    cases n <;> first | rfl | cases h
  have hwalk : n.walk = n :: walkAll [] := by rw [walk_of_isLeaf h, walkAll]
  rw [weight_of_walk hwalk, htype]
  rfl

theorem weight_text (content : String) (s : Span) :
    weight [.text content s] = tally content.toList := by
  rw [weight_leaf rfl]
  exact Nat.add_zero _

theorem weight_paragraph (ns : List Node) (s : Span) : weight [.paragraph ns s] = weight ns :=
  weight_container (by rw [walk]) rfl rfl

theorem weight_blockquote (ns : List Node) (quoteType : Option String) (s : Span) :
    weight [.blockquote ns quoteType s] = weight ns + if quoteType.isSome then 1 else 0 := by
  have hwalk : (blockquote ns quoteType s).walk = blockquote ns quoteType s :: walkAll ns := by
    rw [walk]
  rw [weight_of_walk hwalk, Nat.add_comm]
  exact congrArg _ (Nat.zero_add _)

theorem weight_table (headers : List (List Node)) (rows : List (List (List Node)))
    (alignment : List (Option String)) (s : Span) :
    weight [.table headers rows alignment s] =
      weight headers.flatten + weight rows.flatten.flatten := by
  rw [← weight_append]
  exact weight_container (by rw [walk, walkCells_eq, walkRows_eq, walkAll_append]) rfl rfl

theorem walkAll_arguments (args : List Argument) :
    walkAll (args.map Argument.toNode) = args.map Argument.toNode := by
  induction args with
  | nil => rfl
  | cons a args ih =>
      rw [List.map_cons, walkAll, ih]
      rfl

theorem weight_arguments (args : List Argument) :
    weight (args.map Argument.toNode) = tallyAll (args.map (·.content.toList)) := by
  induction args with
  | nil => rfl
  | cons a args ih =>
      rw [List.map_cons, weight_cons, ih, List.map_cons, tallyAll_cons, Argument.toNode,
        weight_text]

/-- A call whose arguments are the values of the groups of a head. -/
theorem weight_call (head : Head) {args : List Argument} {named : List NamedArgument}
    (hargs : args.map (·.content) = head.positional.map (·.value))
    (hnamed : named.map (·.value.content) = head.keyed.map (·.value)) (body : List Node)
    (span : Span) :
    weight [.call head.name args named body span] = tallyGroups head.groups + weight body := by
  have hvalues (groups : List Group) :
      tallyAll ((groups.map (·.value)).map String.toList) = tallyGroups groups := by
    rw [List.map_map]
    rfl
  have hpositional : tallyAll (args.map (·.content.toList)) = tallyGroups head.positional := by
    rw [← hvalues, ← hargs, List.map_map]
    rfl
  have hbelow : weight [.call head.name args named body span] =
      tallyAll ((named.map (·.value.content)).map String.toList) + 0 +
        weight (args.map Argument.toNode ++ body) :=
    weight_of_walk (by rw [walk, walkAll_append, walkAll_arguments])
  rw [hbelow, weight_append, weight_arguments, hpositional, hnamed, hvalues,
    ← tallyGroups_positional_add_keyed]
  omega

end Livedoc.Tree.Node

namespace Livedoc.Document

open Livedoc.Call Livedoc.Markdown Livedoc.Source Livedoc.Text Livedoc.Tree Livedoc.Tree.Node

/-! ## Joining texts and taking types off quotations -/

/-- Joining texts keeps their brackets. -/
theorem weight_joinTextNodes (ns : List Node) : weight (joinTextNodes ns) = weight ns := by
  have hafter (before : Node) (ns : List Node) :
      weight (joinAfter before ns) = weight (before :: ns) := by
    fun_induction joinAfter before ns with
    | case1 => rfl
    | case2 rest a s b t ih =>
        rw [ih, weight_cons, weight_cons (.text a s), weight_cons (.text b t), weight_text,
          weight_text, weight_text, String.toList_append, tally_append, Nat.add_assoc]
    | case3 before next rest _ ih => rw [weight_cons, ih, ← weight_cons]
  cases ns with
  | nil => rfl
  | cons n rest => exact hafter n rest

/-- A marker is one bracket, and what follows it has the others. -/
theorem tally_takeMarker?_lt {cs after : List Char} {label : String}
    (h : takeMarker? cs = some (label, after)) : tally after + 1 ≤ tally cs := by
  unfold takeMarker? at h
  split at h
  · next rest =>
      split at h
      · next name rest' hname =>
          have hlabel := (takeLabel?_eq_some_iff.mp hname).2
          have hsuffix : rest'.dropWhile isGap <:+ rest := by
            rw [hlabel]
            refine (List.dropWhile_suffix _).trans ?_
            exact (List.suffix_cons ']' _).trans (List.suffix_append _ _)
          have hafter : after <:+ rest := by
            dsimp only at h
            cases h
            split
            · next more hmore => exact (List.suffix_cons '\n' more).trans (hmore ▸ hsuffix)
            · exact hsuffix
          have htally := tally_le_of_suffix hafter
          rw [tally_cons, if_pos rfl, tally_cons]
          omega
      · cases h
  · cases h

/-- **A quotation gives a bracket for its type.** -/
theorem weight_takeQuoteType_le {ns nodes : List Node} {quoteType : Option String}
    (h : takeQuoteType ns = (nodes, quoteType)) :
    weight nodes + (if quoteType.isSome then 1 else 0) ≤ weight ns := by
  unfold takeQuoteType at h
  split at h
  · next content span more s rest =>
      split at h
      · cases h
        exact Nat.le_refl _
      · next label after hmarker =>
          have hmark := tally_takeMarker?_lt hmarker
          have htrim : ∀ cs, tally (trimStart cs) ≤ tally cs := tally_dropWhile_le isBlank
          have hchildren : weight (.paragraph (.text content span :: more) s :: rest) =
              tally content.toList + weight more + weight rest := by
            rw [weight_cons, weight_paragraph, weight_cons, weight_text]
          have htyped : ∀ ms, weight ms ≤ tally after + weight more →
              weight (if ms.isEmpty then rest else .paragraph ms s :: rest) + 1 ≤
                tally content.toList + weight more + weight rest := by
            intro ms hms
            split
            · omega
            · rw [weight_cons, weight_paragraph]
              omega
          have hstripped : weight (if (trimStart after).isEmpty then more
              else .text (String.ofList (trimStart after)) span :: more) ≤
                tally after + weight more := by
            have hafter := htrim after
            split
            · exact Nat.le_add_left _ _
            · rw [weight_cons, weight_text, String.toList_ofList]
              omega
          cases h
          rw [hchildren]
          refine htyped _ ?_
          split
          · next content' span' others hothers =>
              rw [hothers, weight_cons, weight_text] at hstripped
              dsimp only
              split
              · omega
              · have hcontent := htrim content'.toList
                rw [weight_cons, weight_text, stripStart, String.toList_ofList]
                omega
          · exact hstripped
  · cases h
    exact Nat.le_refl _

/-! ## Markup within a line -/

/-- A node over the place of a text. -/
private theorem findsAny_located {most : Nat} (part : List Char) {f : Span → Node}
    (hf : ∀ s, weight [f s] ≤ most) :
    FindsAny (fun n => weight [n] ≤ most) (do return f (← locate part)) :=
  .bind (P := fun _ => True) (fun _ _ => ⟨trivial, trivial⟩) fun s _ => .pure (hf s)

private theorem headNode_weight (head : Head) (raw : List Char) :
    FindsAny (fun n => weight [n] ≤ (Inline.call head raw).weight) (headNode head raw) := by
  have hlocate : FindsAny (fun _ => True) (locate raw) := fun _ _ => ⟨trivial, trivial⟩
  rw [Inline.weight]
  unfold headNode Head.problem?
  refine .bind hlocate fun span _ => ?_
  cases hclosed : head.unterminated with
  | true =>
      have hreport : ∀ message, FindsAny (fun _ => True) (report message span) :=
        fun _ _ _ => ⟨trivial, trivial⟩
      refine .bind (hreport _) fun _ _ => .pure ?_
      rw [weight_text, String.toList_ofList]
      exact Nat.le_refl _
  | false =>
      cases hcall : head.isCall with
      | true =>
          refine .pure (weight_call head ?_ ?_ [] span).le
          · rw [List.map_map]
            rfl
          · rw [List.map_map]
            rfl
      | false => exact .pure ((weight_leaf rfl).trans_le (Nat.zero_le _))

mutual

/-- The node of a piece of markup has the brackets of the piece. -/
theorem inlineNode_weight : ∀ i : Inline, FindsAny (fun n => weight [n] ≤ i.weight) (inlineNode i)
  | .text raw | .escaped raw | .code raw | .html raw =>
      findsAny_located raw fun s => by
        rw [weight_leaf rfl, Inline.weight]
        simp [contents]
  | .math raw display =>
      findsAny_located raw fun s => by
        have htrim : tally (trim raw) ≤ tally raw := tally_trimWhile_le isBlank raw
        rw [weight_leaf rfl, Inline.weight]
        cases display <;> simp [contents, htrim]
  | .softBreak | .hardBreak =>
      findsAny_located ['\n'] fun s => by
        rw [weight_leaf rfl]
        exact Nat.le_refl _
  | .sizedImage i =>
      findsAny_located i.raw fun s => by
        rw [weight_leaf rfl]
        exact Nat.le_refl _
  | .call head raw => headNode_weight head raw
  | .emphasis strong children => by
      refine .bind (inlineNodeList_weight children) fun ns hns => .pure ?_
      rw [weight_container (by rw [walk]) rfl rfl, weight_joinTextNodes, Inline.weight]
      exact hns
  | .link url title children => by
      refine .bind (inlineNodeList_weight children) fun ns hns => .pure ?_
      rw [weight_container (by rw [walk]) rfl rfl, weight_joinTextNodes, Inline.weight]
      exact hns
  | .image url title children => by
      refine .bind (inlineNodeList_weight children) fun ns _ => .pure ?_
      rw [weight_leaf rfl]
      exact Nat.zero_le _

/-- The nodes of several pieces have the brackets of the pieces. -/
theorem inlineNodeList_weight : ∀ is : List Inline,
    FindsAny (fun ns => weight ns ≤ Inline.weightAll is) (inlineNodeList is)
  | [] => .pure (Nat.le_refl _)
  | i :: rest => by
      refine .bind (inlineNode_weight i) fun n hn => ?_
      refine .bind (inlineNodeList_weight rest) fun ns hns => .pure ?_
      rw [weight_cons, Inline.weightAll]
      exact Nat.add_le_add hn hns

end

/-- **The nodes of a line have no more brackets than the line.** -/
theorem weight_inlineNodes_le (refs : References) (cs : List Char) :
    FindsAny (fun ns => weight ns ≤ tally cs) (inlineNodes (readInline refs cs)) := by
  refine .bind (inlineNodeList_weight _) fun ns hns => .pure ?_
  rw [weight_joinTextNodes]
  exact Nat.le_trans hns (weight_readInline_le refs cs)

theorem weight_textNodes_le (refs : References) (text : List Char) :
    FindsAny (fun ns => weight ns ≤ tally text) (textNodes refs text) := fun s hs =>
  have ⟨hweight, htrue⟩ := weight_inlineNodes_le refs (trimWhile isEdge text) s hs
  ⟨Nat.le_trans hweight (tally_trimWhile_le isEdge text), htrue⟩

/-! ## Blocks -/

theorem weight_cellNodes_le (refs : References) (cells : List (List Char)) :
    FindsAny (fun nss => weight nss.flatten ≤ tallyAll cells) (cellNodes refs cells) := by
  unfold cellNodes
  induction cells with
  | nil => exact .pure (Nat.le_refl _)
  | cons cell rest ih =>
      rw [List.mapM_cons]
      refine .bind (weight_textNodes_le refs cell) fun ns hns => ?_
      refine .bind ih fun nss hnss => .pure ?_
      rw [List.flatten_cons, weight_append, tallyAll_cons]
      exact Nat.add_le_add hns hnss

theorem weight_rowNodes_le (refs : References) (rows : List (List (List Char))) :
    FindsAny (fun nsss => weight nsss.flatten.flatten ≤ (rows.map tallyAll).sum)
      (rows.mapM (cellNodes refs)) := by
  induction rows with
  | nil => exact .pure (Nat.le_refl _)
  | cons cells rest ih =>
      rw [List.mapM_cons]
      refine .bind (weight_cellNodes_le refs cells) fun nss hnss => ?_
      refine .bind ih fun nsss hnsss => .pure ?_
      rw [List.flatten_cons, List.flatten_append, weight_append, List.map_cons, List.sum_cons]
      exact Nat.add_le_add hnss hnsss

/-- The nodes of two searches, put together. -/
private theorem findsAny_append {k m : Nat} {v w : Locating (List Node)}
    (hv : FindsAny (fun ns => weight ns ≤ k) v) (hw : FindsAny (fun ns => weight ns ≤ m) w) :
    FindsAny (fun ns => weight ns ≤ k + m) (do let ns ← v; let ms ← w; return ns ++ ms) :=
  .bind hv fun _ hns => .bind hw fun _ hms => .pure <| by
    rw [weight_append]
    exact Nat.add_le_add hns hms

/-- A leaf over the place of a text, alone. -/
private theorem findsAny_alone {most : Nat} (part : List Char) {f : Span → Node}
    (hf : ∀ s, weight [f s] ≤ most) :
    FindsAny (fun ns => weight ns ≤ most) (do return [f (← locate part)]) :=
  .bind (P := fun _ => True) (fun _ _ => ⟨trivial, trivial⟩) fun s _ => .pure (hf s)

mutual

/-- The nodes of a block have the brackets of the block. -/
theorem blockNodes_weight (refs : References) :
    ∀ b : Block, FindsAny (fun ns => weight ns ≤ b.weight) (blockNodes refs b)
  | .blank => .pure (Nat.le_refl _)
  | .paragraph cs | .tightText cs | .heading _ cs => by
      refine .bind (weight_textNodes_le refs cs) fun ns hns => .pure ?_
      rw [weight_container (by rw [walk]) rfl rfl, Block.weight]
      exact hns
  | .code raw info => findsAny_alone _ fun s => by
      have htrim := tally_dropEndWhile_le (· == '\n') raw
      rw [weight_leaf rfl, Block.weight]
      simp [contents, htrim]
  | .math raw => findsAny_alone raw fun s => by
      have htrim : tally (trim raw) ≤ tally raw := tally_trimWhile_le isBlank raw
      rw [weight_leaf rfl, Block.weight]
      simp [contents, htrim]
  | .thematicBreak => findsAny_alone [] fun s => by
      rw [weight_leaf rfl]
      exact Nat.le_refl _
  | .html raw => by
      have htrim := tally_dropEndWhile_le (· == '\n') raw
      refine .bind (P := fun _ => True) (fun _ _ => ⟨trivial, trivial⟩) fun s _ => .pure ?_
      rw [weight_paragraph, weight_text, String.toList_ofList, Block.weight]
      exact htrim
  | .quote children => by
      refine .bind (blockListNodes_weight refs children) fun ns hns => ?_
      cases hquote : takeQuoteType ns with
      | mk nodes quoteType =>
          refine .pure ?_
          rw [weight_blockquote, Block.weight]
          exact Nat.le_trans (weight_takeQuoteType_le hquote) hns
  | .list _ _ items => by
      refine .bind (itemListNodes_weight refs items) fun ns hns => .pure ?_
      rw [weight_container (by rw [walk]) rfl rfl, Block.weight]
      exact hns
  | .table headers alignment rows => by
      refine .bind (weight_cellNodes_le refs headers) fun heads hheads => ?_
      refine .bind (weight_rowNodes_le refs rows) fun cells hcells => .pure ?_
      rw [weight_table, Block.weight]
      exact Nat.add_le_add hheads hcells

/-- The nodes of several blocks have the brackets of the blocks. -/
theorem blockListNodes_weight (refs : References) :
    ∀ bs : List Block, FindsAny (fun ns => weight ns ≤ Block.weightAll bs) (blockListNodes refs bs)
  | [] => .pure (Nat.le_refl _)
  | b :: rest => by
      rw [Block.weightAll]
      exact findsAny_append (blockNodes_weight refs b) (blockListNodes_weight refs rest)

/-- The nodes of a list item have the brackets of its blocks. -/
theorem itemNodes_weight (refs : References) :
    ∀ bs : List Block, FindsAny (fun ns => weight ns ≤ Block.weightAll bs) (itemNodes refs bs)
  | [] => .pure (Nat.le_refl _)
  | b :: rest => by
      have hrest := itemNodes_weight refs rest
      rw [Block.weightAll]
      cases b with
      | tightText cs =>
          rw [Block.weight]
          exact findsAny_append (weight_textNodes_le refs cs) hrest
      | _ => exact findsAny_append (blockNodes_weight refs _) hrest

/-- The nodes of list items have the brackets of their blocks. -/
theorem itemListNodes_weight (refs : References) :
    ∀ items : List (List Block),
      FindsAny (fun ns => weight ns ≤ Block.weightItems items) (itemListNodes refs items)
  | [] => .pure (Nat.le_refl _)
  | item :: rest => by
      refine .bind (itemNodes_weight refs item) fun ns hns => ?_
      refine .bind (itemListNodes_weight refs rest) fun ms hms => .pure ?_
      rw [weight_cons, weight_container (by rw [walk]) rfl rfl, Block.weightItems]
      exact Nat.add_le_add hns hms

end

/-- **The nodes of a stretch of Markdown weigh no more than the stretch has brackets.** -/
theorem weight_markdownNodes_le (cs : List Char) :
    FindsAny (fun ns => weight ns ≤ tally cs) (markdownNodes cs) := fun s hs =>
  have ⟨hweight, htrue⟩ := blockListNodes_weight (readBlocks cs).2 (readBlocks cs).1 s hs
  ⟨Nat.le_trans hweight (weight_readBlocks_le cs), htrue⟩

end Livedoc.Document
