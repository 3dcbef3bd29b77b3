import Livedoc.Proofs.Document.Placeless
import Livedoc.Proofs.Markdown.Lead
import Livedoc.Proofs.Markdown.QuoteMarker

/-!
# Taking the marker off a quotation

The marker of a typed quotation is the start of the first text of its first paragraph.  Taking it off
gives back the paragraph as it would be without the marker, provided that this one does not start
with white space (`takeQuoteType_marked`); a paragraph that is nothing but the marker disappears
(`takeQuoteType_alone`).
-/

namespace Livedoc.Document

open Livedoc.Source Livedoc.Text Livedoc.Tree Livedoc.Tree.Node Livedoc.Markdown

/-! ## Markers -/

/-- The name in the marker of a type: the label in capital letters. -/
def markerName (label : List Char) : List Char := label.map Char.toUpper

theorem isAlpha_markerName {label : List Char} (h : label ∈ quoteLabels) :
    (∀ c ∈ markerName label, c.isAlpha = true) ∧ markerName label ≠ [] := by
  have hall : (quoteLabels.all fun label =>
      (markerName label).all Char.isAlpha && !(markerName label).isEmpty) = true := by decide
  have hname := List.all_eq_true.mp hall label h
  rw [Bool.and_eq_true, List.all_eq_true, Bool.not_eq_true', List.isEmpty_eq_false_iff] at hname
  exact hname

/-- What may stand between a marker and the text after it. -/
def isMarkerGap (gap : List Char) : Prop := gap = [] ∨ gap = [' '] ∨ gap = ['\n']

/-- **A marker is recognised**, with the gap after it. -/
theorem takeMarker?_quoteMarker {label : List Char} (h : label ∈ quoteLabels) {gap : List Char}
    (hgap : isMarkerGap gap) {cs : List Char} (hcs : ∀ c ∈ cs.head?, isBlank c = false) :
    takeMarker? (quoteMarker (markerName label) ++ gap ++ cs) = some (String.ofList label, cs) := by
  have hlabel : takeLabel? (markerName label ++ ']' :: (gap ++ cs)) =
      some (markerName label, ']' :: (gap ++ cs)) ∧ lower (markerName label) = label := by
    simp only [quoteLabels, List.map_cons, List.map_nil, List.mem_cons, List.not_mem_nil,
      or_false] at h
    rcases h with rfl | rfl | rfl | rfl <;> exact ⟨rfl, by decide⟩
  -- What follows the gap is neither a blank nor a newline.
  have hne (d : Char) (hd : isBlank d = true) : cs.head? ≠ some d := fun hhead => by
    rw [hcs d hhead] at hd
    cases hd
  have hdrop : cs.dropWhile isGap = cs := by
    cases cs with
    | nil => rfl
    | cons c rest =>
        have hspace : c ≠ ' ' := fun hc => hne ' ' (by decide) (congrArg some hc)
        have htab : c ≠ '\t' := fun hc => hne '\t' (by decide) (congrArg some hc)
        rw [List.dropWhile_cons_of_neg]
        simp [isGap, hspace, htab]
  have hmatch : ∀ more, cs ≠ '\n' :: more := by
    rintro more rfl
    exact hne '\n' (by decide) rfl
  have htext : quoteMarker (markerName label) ++ gap ++ cs =
      '[' :: '!' :: (markerName label ++ ']' :: (gap ++ cs)) := by
    simp [quoteMarker]
  rw [htext, takeMarker?]
  simp only [hlabel]
  refine congrArg (fun rest => some (String.ofList label, rest)) ?_
  rcases hgap with rfl | rfl | rfl
  · rw [List.nil_append, hdrop]
    split
    · exact absurd rfl (hmatch _)
    · rfl
  · rw [List.singleton_append, List.dropWhile_cons_of_pos (by decide), hdrop]
    split
    · exact absurd rfl (hmatch _)
    · rfl
  · rfl

/-! ## Texts in front of nodes -/

/-- A text in front of a text and other nodes is put in front of the first node. -/
theorem exists_joinAfter_text (content : String) (s : Span) (ns : List Node) :
    ∃ more span others, ∀ front : String,
      joinAfter (.text (front ++ content) s) ns = .text (front ++ (content ++ more)) span :: others := by
  induction ns generalizing content s with
  | nil => exact ⟨"", s, [], fun front => by rw [String.append_empty]; rfl⟩
  | cons n rest ih =>
      cases n with
      | text b t =>
          obtain ⟨more, span, others, hjoin⟩ :=
            ih (content ++ b) (if s.isKnown then ⟨s.start, t.stop⟩ else t)
          refine ⟨b ++ more, span, others, fun front => ?_⟩
          rw [joinAfter, String.append_assoc, hjoin, String.append_assoc]
      | _ => exact ⟨"", s, _, fun front => by rw [String.append_empty]; rfl⟩

/-- What a piece that leads with `c` becomes: a text that starts with it, or no text. -/
theorem bareNode_of_lead {i : Inline} {c : Char} (hlead : i.lead = some c) (hc : isBlank c = false) :
    (∃ content, bareNode i = .text content .unknown ∧ content.toList.head? = some c) ∨
      ∀ content s, bareNode i ≠ .text content s := by
  have htext (raw : List Char) (hraw : raw.head? = some c) (h : bareNode i =
      .text (String.ofList raw) .unknown) : ∃ content, bareNode i = .text content .unknown ∧
        content.toList.head? = some c :=
    ⟨_, h, by rw [String.toList_ofList]; exact hraw⟩
  -- Where a piece is put into the text as it stands, it is not empty: it leads with no space.
  have hne (raw : List Char) (hraw : some (raw.headD ' ') = some c) : raw.head? = some c := by
    cases raw with
    | nil =>
        cases hraw
        exact absurd hc (by decide)
    | cons d raw => exact hraw
  cases i with
  | text raw | escaped raw => exact .inl (htext raw hlead rfl)
  | html raw => exact .inl (htext raw (hne raw hlead) rfl)
  | call head raw =>
      have hnode : bareNode (.call head raw) = (headNode head raw .anywhere).1.bare := rfl
      rw [hnode] at htext ⊢
      unfold headNode at htext ⊢
      cases hproblem : head.problem? with
      | some message =>
          rw [hproblem] at htext
          exact .inl (htext raw (hne raw hlead) rfl)
      | none =>
          refine .inr ?_
          cases head.isCall <;> exact nofun
  | softBreak =>
      cases hlead
      exact absurd hc (by decide)
  | _ => exact .inr nofun

/-- What is no text stays as it is behind a text. -/
theorem exists_joinAfter_of_ne_text {n : Node} (h : ∀ content s, n ≠ .text content s)
    (ns : List Node) : ∃ others, joinAfter n ns = n :: others ∧
      ∀ content s, joinAfter (.text content s) (n :: ns) = .text content s :: n :: others := by
  have hjoin : ∃ others, joinAfter n ns = n :: others := by
    cases ns with
    | nil => exact ⟨[], rfl⟩
    | cons m ns =>
        rw [joinAfter]
        · exact ⟨_, rfl⟩
        · exact fun a s _ _ ha => absurd ha (h a s)
  obtain ⟨others, hothers⟩ := hjoin
  refine ⟨others, hothers, fun content s => ?_⟩
  rw [joinAfter, hothers]
  exact fun _ _ b t _ hb => h b t hb

/-! ## Quotations -/

variable {label after : List Char} {s : Span} {rest : List Node}

/-- A marker in front of a text. -/
theorem takeQuoteType_text_cons {content : String} {type : String} {c : Char} (hc : isBlank c = false)
    (h : takeMarker? content.toList = some (type, c :: after)) (span : Span) (others : List Node) :
    takeQuoteType (.paragraph (.text content span :: others) s :: rest) =
      (.paragraph (.text (String.ofList (c :: after)) span :: others) s :: rest, some type) := by
  have htrim : trimStart (c :: after) = c :: after := List.dropWhile_cons_of_neg (by simp [hc])
  have hstrip : stripStart (String.ofList (c :: after)) = String.ofList (c :: after) := by
    rw [stripStart, String.toList_ofList, htrim]
  have hne : (String.ofList (c :: after)).isEmpty = false := by
    rw [← Bool.not_eq_true, String.isEmpty_iff, String.ofList_eq_empty_iff]
    exact List.cons_ne_nil c after
  unfold takeQuoteType
  simp only [h, htrim, hstrip, List.isEmpty_cons, Bool.false_eq_true, if_false, hne]

/-- A marker in front of something else than text. -/
theorem takeQuoteType_cons_of_ne_text {content : String} {type : String} {n : Node}
    (hn : ∀ content s, n ≠ .text content s) (h : takeMarker? content.toList = some (type, []))
    (span : Span) (others : List Node) :
    takeQuoteType (.paragraph (.text content span :: n :: others) s :: rest) =
      (.paragraph (n :: others) s :: rest, some type) := by
  unfold takeQuoteType
  simp only [h]
  cases n with
  | text content s => exact absurd rfl (hn content s)
  | _ => rfl

/-- A marker alone: nothing is left of its paragraph. -/
theorem takeQuoteType_alone {content : String} {type : String}
    (h : takeMarker? content.toList = some (type, [])) (span : Span) :
    takeQuoteType (.paragraph [.text content span] s :: rest) = (rest, some type) := by
  unfold takeQuoteType
  simp only [h]
  rfl

/-- **Taking off a marker leaves the paragraph as it is without the marker**, if this one starts with
something other than white space. -/
theorem takeQuoteType_marked {front : List Char} (hfront : ∀ cs : List Char,
      (∀ c ∈ cs.head?, isBlank c = false) →
        takeMarker? (front ++ cs) = some (String.ofList label, cs))
    {is : List Inline} (hstarts : Inline.Starts is) :
    takeQuoteType
        (.paragraph (joinTextNodes (.text (String.ofList front) .unknown :: is.map bareNode)) s :: rest) =
      (.paragraph (bareLine is) s :: rest, some (String.ofList label)) := by
  obtain ⟨c, hlead, hc⟩ := hstarts
  cases is with
  | nil => cases hlead
  | cons i is =>
      rw [bareLine, List.map_cons, joinTextNodes, joinTextNodes]
      obtain ⟨content, hnode, hcontent⟩ | hnode := bareNode_of_lead hlead hc
      · obtain ⟨more, span, others, hjoin⟩ := exists_joinAfter_text content .unknown (is.map bareNode)
        have halone := hjoin ""
        rw [String.empty_append, String.empty_append] at halone
        obtain ⟨after, hafter⟩ := List.head?_eq_some_iff.mp hcontent
        have hmore : (content ++ more).toList = c :: (after ++ more.toList) := by
          rw [String.toList_append, hafter, List.cons_append]
        have hmarker := hfront (c :: (after ++ more.toList)) (by simp [hc])
        rw [hnode, halone]
        have hmarked : joinAfter (.text (String.ofList front) .unknown)
            (.text content .unknown :: is.map bareNode) =
              .text (String.ofList front ++ (content ++ more)) span :: others := hjoin _
        have hcontent : takeMarker? (String.ofList front ++ (content ++ more)).toList =
            some (String.ofList label, c :: (after ++ more.toList)) := by
          rw [String.toList_append, String.toList_ofList, hmore]
          exact hmarker
        rw [hmarked, takeQuoteType_text_cons hc hcontent, ← hmore, String.ofList_toList]
      · obtain ⟨others, halone, hmarked⟩ := exists_joinAfter_of_ne_text hnode (is.map bareNode)
        have hmarker := hfront [] (by simp)
        rw [List.append_nil] at hmarker
        rw [hmarked, halone]
        exact takeQuoteType_cons_of_ne_text hnode (by rw [String.toList_ofList]; exact hmarker) _ _

end Livedoc.Document
