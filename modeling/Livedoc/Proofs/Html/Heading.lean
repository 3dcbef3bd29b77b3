import Livedoc.Html.Body
import Livedoc.Html.Slug
import Livedoc.Proofs.Html.Page
import Livedoc.Proofs.Html.View
import Mathlib.Data.List.Nodup

/-!
# The identifiers of headings

Every heading that is rendered claims an identifier, wherever it stands: in a list, in a
table, in a layout, on a slide, within another heading. Writing the markup of nodes makes
these claims in the order of the headings and no others, and each goes into the tag of its
heading (`Node.markup_claims`). So the identifiers that a reader finds in what is rendered are
those of headings that ask one after the other (`render_headingIds`).

They are distinct unless a heading asks for an identifier that another one is given because
it is not the first to ask for its own.
-/

/-!
## Numbered identifiers

A heading asks for an identifier, and where one was asked for before it gets a number. An
occurrence is an identifier that is asked for, with how often it was asked for before; no two
occurrences are the same, and each is numbered (`identifiers`).

A number is set off by a hyphen, and what is asked for may hold hyphens as well. Two numbered
identifiers never meet (`numbered_injective`), but one that has a number may be what another
heading asks for. This is the only way in which two headings get the same identifier
(`identifiers_nodup_iff`).
-/

namespace Livedoc.Html

open Livedoc.Decimal

/-- The identifier for a heading that asks for one, where so many asked for it before. -/
def numbered (slug : String) (count : Nat) : String :=
  if count = 0 then slug else slug ++ "-" ++ digitText count

@[simp] theorem numbered_zero (slug : String) : numbered slug 0 = slug := rfl

theorem numbered_of_pos (slug : String) {count : Nat} (h : 0 < count) :
    (numbered slug count).toList = slug.toList ++ '-' :: Nat.toDigits 10 count := by
  rw [numbered, if_neg (by omega)]
  simp [digitText]

theorem digit_ne_hyphen {count : Nat} : ∀ c ∈ Nat.toDigits 10 count, (c != '-') = true := by
  intro c hc
  have hdigit : c.isDigit = true :=
    Nat.isDigit_of_mem_toDigits (b := 10) (by decide) (by decide) hc
  rw [bne_iff_ne]
  rintro rfl
  exact absurd hdigit (by decide)

/-- The number of an identifier stands after its last hyphen, so it can be told from what was
asked for. -/
theorem numbered_injective {slug other : String} {count number : Nat} (hcount : 0 < count)
    (hnumber : 0 < number) (h : numbered slug count = numbered other number) :
    slug = other ∧ count = number := by
  have hlist := congrArg (fun s : String => s.toList.reverse) h
  simp only [numbered_of_pos slug hcount, numbered_of_pos other hnumber, List.reverse_append,
    List.reverse_cons, List.append_assoc, List.singleton_append] at hlist
  have hdigits {n : Nat} (rest : List Char) :
      ((Nat.toDigits 10 n).reverse ++ '-' :: rest).takeWhile (· != '-') =
        (Nat.toDigits 10 n).reverse := by
    rw [List.takeWhile_append_of_pos fun c hc => digit_ne_hyphen c (List.mem_reverse.mp hc)]
    simp
  have htake := congrArg (List.takeWhile (· != '-')) hlist
  rw [hdigits, hdigits] at htake
  have hvalue := congrArg (fun ds => Nat.ofDigitChars 10 ds.reverse 0) htake
  have hnumbers : count = number := by simpa using hvalue
  rw [htake] at hlist
  have hslugs : slug.toList.reverse = other.toList.reverse :=
    List.tail_eq_of_cons_eq (List.append_cancel_left hlist)
  exact ⟨String.toList_inj.mp (List.reverse_injective hslugs), hnumbers⟩

/-! ## Occurrences -/

/-- What is asked for, each time with how often it was asked for before, `before` included. -/
def occurrencesFrom (before : List String) : List String → List (String × Nat)
  | [] => []
  | slug :: rest => (slug, before.count slug) :: occurrencesFrom (slug :: before) rest

theorem mem_occurrencesFrom {before slugs : List String} {slug : String} {count : Nat} :
    (slug, count) ∈ occurrencesFrom before slugs ↔
      before.count slug ≤ count ∧ count < before.count slug + slugs.count slug := by
  induction slugs generalizing before with
  | nil => simp [occurrencesFrom]
  | cons first rest ih =>
      rw [occurrencesFrom, List.mem_cons, ih]
      by_cases h : slug = first
      · subst h
        simp only [Prod.mk.injEq, true_and, List.count_cons_self]
        omega
      · simp [h, List.count_cons_of_ne (Ne.symm h)]

theorem occurrencesFrom_nodup (before slugs : List String) :
    (occurrencesFrom before slugs).Nodup := by
  induction slugs generalizing before with
  | nil => exact List.nodup_nil
  | cons first rest ih =>
      refine List.nodup_cons.mpr ⟨fun h => ?_, ih _⟩
      have hcount := (mem_occurrencesFrom.mp h).1
      rw [List.count_cons_self] at hcount
      omega

/-! ## Identifiers -/

/-- The identifiers for headings that ask for these, one after the other. -/
def identifiers (slugs : List String) : List String :=
  (occurrencesFrom [] slugs).map fun o => numbered o.1 o.2

theorem mem_occurrences {slugs : List String} {slug : String} {count : Nat} :
    (slug, count) ∈ occurrencesFrom [] slugs ↔ count < slugs.count slug := by
  simp [mem_occurrencesFrom]

/-- **Identifiers are distinct unless one with a number is asked for**: a heading asks for what
another one, that comes after a heading of its own kind, is given. -/
theorem identifiers_nodup_iff (slugs : List String) : (identifiers slugs).Nodup ↔
    ∀ base ∈ slugs, ∀ count, 0 < count → count < slugs.count base →
      numbered base count ∉ slugs := by
  rw [identifiers, List.nodup_map_iff_inj_on (occurrencesFrom_nodup [] slugs)]
  constructor
  · intro h base _ count hpos hcount hmem
    have hfirst : (numbered base count, 0) ∈ occurrencesFrom [] slugs :=
      mem_occurrences.mpr (List.count_pos_iff.mpr hmem)
    have hsame := h _ hfirst (base, count) (mem_occurrences.mpr hcount) (numbered_zero _)
    have hzero : 0 = count := congrArg Prod.snd hsame
    omega
  · -- an occurrence without a number is what is asked for itself
    have hmem {slug : String} {count : Nat} (h : (slug, count) ∈ occurrencesFrom [] slugs) :
        slug ∈ slugs := by
      have := mem_occurrences.mp h
      exact List.count_pos_iff.mp (by omega)
    rintro h ⟨slug, count⟩ hslug ⟨other, number⟩ hother hsame
    dsimp only at hsame
    rcases Nat.eq_zero_or_pos count with rfl | hcount
    · rcases Nat.eq_zero_or_pos number with rfl | hnumber
      · rw [show slug = other from hsame]
      · refine absurd ?_ (h other (hmem hother) number hnumber (mem_occurrences.mp hother))
        rw [← hsame]
        exact hmem hslug
    · rcases Nat.eq_zero_or_pos number with rfl | hnumber
      · refine absurd ?_ (h slug (hmem hslug) count hcount (mem_occurrences.mp hslug))
        rw [hsame]
        exact hmem hother
      · obtain ⟨rfl, rfl⟩ := numbered_injective hcount hnumber hsame
        rfl

/-! ## Claiming -/

/-- Headings that claim their identifiers one after the other get numbered ones. -/
theorem mapM_claimId (slugs : List String) : (slugs.mapM claimId []).1 = identifiers slugs := by
  suffices h : ∀ (before : List String) (wanted : Dictionary Nat),
      (∀ slug, (wanted.get? slug).getD 0 = before.count slug) →
        (slugs.mapM claimId wanted).1 =
          (occurrencesFrom before slugs).map fun o => numbered o.1 o.2 from
    h [] [] fun slug => rfl
  induction slugs with
  | nil =>
      intro before wanted _
      rfl
  | cons first rest ih =>
      intro before wanted hwanted
      have hnext : ∀ slug, ((wanted.set first (before.count first + 1)).get? slug).getD 0 =
          (first :: before).count slug := by
        intro slug
        rw [Dictionary.get?_set]
        split
        · next h => simp [h]
        · next h => rw [hwanted, List.count_cons_of_ne (Ne.symm h)]
      rw [List.mapM_cons, occurrencesFrom, List.map_cons, ← ih _ _ hnext]
      show _ :: _ = _
      rw [hwanted first]
      rfl

end Livedoc.Html

namespace Livedoc.Tree.Node

/-! ## Headings -/

mutual

/-- The texts of the headings in a node that are rendered, in order. -/
def headingTexts : Node → List String
  | heading _ cs _ => textOf cs :: headingTextsAll cs
  | paragraph cs _ | list _ cs _ _ | listItem cs _ | blockquote cs _ _ | link _ cs _ _
  | emphasis cs _ _ | row cs _ _ _ | column cs _ _ _ | grid cs _ _ _ | center cs _ =>
    headingTextsAll cs
  | table headers rows _ _ => headingTextsCells headers ++ headingTextsRows rows
  | text .. | code .. | math .. | image .. | lineBreak _ | thematicBreak _ => []
  | document .. | call .. | reference .. | conditional .. | loop .. => []

/-- The texts of the headings in several nodes. -/
def headingTextsAll : List Node → List String
  | [] => []
  | n :: rest => n.headingTexts ++ headingTextsAll rest

/-- The texts of the headings in several cells. -/
def headingTextsCells : List (List Node) → List String
  | [] => []
  | cell :: rest => headingTextsAll cell ++ headingTextsCells rest

/-- The texts of the headings in several rows. -/
def headingTextsRows : List (List (List Node)) → List String
  | [] => []
  | cells :: rest => headingTextsCells cells ++ headingTextsRows rest

end

end Livedoc.Tree.Node

namespace Livedoc.Html

open Livedoc.Text Livedoc.Tree

/-- The element of a heading. -/
def Tag.isHeading : Tag → Bool
  | h1 | h2 | h3 | h4 | h5 | h6 => true
  | _ => false

theorem Tag.isHeading_ofLevel (level : Int) : (ofLevel level).isHeading = true := by
  unfold ofLevel
  split_ifs <;> rfl

theorem Tag.isHeading_of_isArranging {tag : Tag} (h : tag.isArranging = true) :
    tag.isHeading = false := by
  cases tag <;> first | rfl | cases h

/-- The identifiers among attributes. -/
def idsOf (attributes : List Attribute) : List String :=
  (attributes.filter (·.name = .id)).map (·.value)

/-- The identifiers of the headings in markup. -/
def headingView : View String where
  tag t attributes := if t.isHeading then idsOf attributes else []
  arranging t attributes h := by simp [Tag.isHeading_of_isArranging h]

/-- Other elements count for what is within them. -/
theorem headingView_of {tag : Tag} (h : tag.isHeading = false) (attributes : List Attribute)
    (children : List Markup) :
    headingView.of (.element tag attributes children) = headingView.all children := by
  simp [View.of_element, headingView, h]

/-- A heading counts for its identifier, and then for what is within it. -/
theorem headingView_ofLevel (level : Int) (id : String) (children : List Markup) :
    headingView.of (.element (.ofLevel level) [⟨.id, id⟩] children) =
      id :: headingView.all children := by
  simp [View.of_element, headingView, Tag.isHeading_ofLevel, idsOf]

@[simp] theorem headingView_text (s : String) : headingView.of (.text s) = [] := by
  simp [View.of, headingView]

@[simp] theorem headingView_verbatim (s : String) : headingView.of (.verbatim s) = [] := by
  rw [View.of]
  rfl

@[simp] theorem headingView_codeBlock (content : String) (language : Option String) :
    headingView.of (codeBlock content language) = [] := by
  unfold codeBlock
  dsimp only
  split <;> simp +decide [headingView_of]

/-! ## Claims -/

/-- Claiming the identifier of a heading with this text. -/
def claimFor (text : String) : Writing String := claimId (slugify text)

/-- Whether writing claims identifiers for headings with these texts, one after the other, and
no others, and gives a result of a kind for the identifiers that it gets. -/
def Claims {α : Type} (w : Writing α) (texts : List String) (P : α → List String → Prop) : Prop :=
  ∀ wanted, (w wanted).2 = (texts.mapM claimFor wanted).2 ∧
    P (w wanted).1 (texts.mapM claimFor wanted).1

namespace Claims

variable {α β : Type} {w : Writing α} {texts more : List String}
variable {P : α → List String → Prop} {Q : β → List String → Prop}

theorem pure {a : α} (h : P a []) : Claims (Pure.pure a) [] P := fun _ => ⟨rfl, h⟩

theorem bind {f : α → Writing β} (h : Claims w texts P)
    (hf : ∀ a ids, P a ids → Claims (f a) more fun b others => Q b (ids ++ others)) :
    Claims (w >>= f) (texts ++ more) Q := by
  intro wanted
  obtain ⟨hwanted, hresult⟩ := h wanted
  obtain ⟨hwanted', hresult'⟩ := hf _ _ hresult (w wanted).2
  rw [List.mapM_append]
  constructor
  · show (f (w wanted).1 (w wanted).2).2 = (more.mapM claimFor (texts.mapM claimFor wanted).2).2
    rw [hwanted', hwanted]
  · rw [hwanted] at hresult'
    show Q (f (w wanted).1 (w wanted).2).1 _
    rw [hwanted]
    exact hresult'

/-- A result that something is made of. -/
theorem map {f : α → β} (h : Claims w texts P) (hf : ∀ a ids, P a ids → Q (f a) ids) :
    Claims (w >>= fun a => Pure.pure (f a)) texts Q := by
  rw [← List.append_nil texts]
  exact h.bind fun a ids ha => pure (by simpa using hf a ids ha)

/-- A heading claims one identifier. -/
theorem single (text : String) : Claims (claimFor text) [text] fun id ids => ids = [id] :=
  fun _ => ⟨rfl, rfl⟩

end Claims

end Livedoc.Html

namespace Livedoc.Html.Node

open Livedoc.Text Livedoc.Tree Livedoc.Tree.Node

/-- Whether writing claims identifiers for headings with these texts, and puts them into the
tags of headings. -/
abbrev ClaimsHeadings (w : Writing (List Markup)) (texts : List String) : Prop :=
  Claims w texts fun ms ids => headingView.all ms = ids

/-- Whether the blocks that are written hold the identifiers for headings with these texts,
after those that they start with. -/
abbrev ClaimsInBlocks (w : Writing (List (List Markup))) (before : List String)
    (texts : List String) : Prop :=
  Claims w texts fun blocks ids => blocks.flatMap headingView.all = before ++ ids

mutual

/-- **A node claims identifiers for its headings**, in order and nothing else. -/
theorem markup_claims (within : Bool) : (n : Node) →
    ClaimsHeadings (markup within n) n.headingTexts
  | .text .. | .lineBreak _ | .thematicBreak _ => by
      rw [markup, headingTexts]
      exact .pure (by simp)
  | .image .. => by
      rw [markup, headingTexts]
      exact .pure (by simp [imageMarkup])
  | .code content language _ _ => by
      rw [markup, headingTexts]
      exact .pure (by cases within <;> simp +decide [headingView_of])
  | .math content display _ => by
      rw [markup, headingTexts]
      exact .pure (by cases within <;> simp +decide [headingView_of])
  | .emphasis cs strong _ => by
      rw [markup, headingTexts]
      exact (markups_claims cs).map fun ms ids h => by cases strong <;> simp +decide [headingView_of, h]
  | .link url cs title _ => by
      rw [markup, headingTexts]
      exact (markups_claims cs).map fun ms ids h => by simp +decide [headingView_of, h]
  | .paragraph cs _ => by
      rw [markup, headingTexts]
      exact (markups_claims cs).map fun ms ids h => by cases within <;> simp [h]
  | .heading level cs _ => by
      rw [markup, headingTexts]
      exact (Claims.single (textOf cs)).bind fun id ids hid => (markups_claims cs).map fun ms others h => by
        simp [headingView_ofLevel, h, hid]
  | .list ordered cs start _ => by
      rw [markup, headingTexts]
      exact (itemMarkups_claims cs).map fun items ids h => by simp [h]
  | .listItem cs _ => by
      rw [markup, headingTexts, itemOf]
      refine Claims.map (P := fun m ids => headingView.of m = ids) ?_ fun m ids h => by simp [h]
      split
      · exact (markups_claims cs).map fun ms ids h => by
          simp +decide [headingView_of, h]
      · exact (blocksFrom_claims false [] cs).map fun blocks ids h => by
          simp +decide [headingView_of, h]
  | .blockquote cs quoteType _ => by
      rw [markup, headingTexts]
      exact (blocksFrom_claims true [] cs).map fun blocks ids h => by simp [h]
  | .table headers rows alignment _ => by
      rw [markup, headingTexts]
      exact (cellMarkups_claims rfl alignment headers).bind fun heads ids hheads =>
        (rowMarkups_claims alignment rows).map fun others ids' hothers => by simp [hheads, hothers]
  | .row cs alignment gap _ => by
      rw [markup, headingTexts]
      exact (blocksFrom_claims false [] cs).map fun blocks ids h => by simp [h]
  | .column cs alignment gap _ => by
      rw [markup, headingTexts]
      exact (blocksFrom_claims false [] cs).map fun blocks ids h => by simp [h]
  | .grid cs columns gap _ => by
      rw [markup, headingTexts]
      exact (blocksFrom_claims false [] cs).map fun blocks ids h => by simp [h]
  | .center cs _ => by
      rw [markup, headingTexts]
      exact (blocksFrom_claims false [] cs).map fun blocks ids h => by simp [h]
  | .document .. | .call .. | .reference .. | .conditional .. | .loop .. => by
      rw [markup, headingTexts]
      exact .pure (by simp)

theorem markups_claims : (ns : List Node) → ClaimsHeadings (markups ns) (headingTextsAll ns)
  | [] => by
      rw [markups, headingTextsAll]
      exact .pure (by simp)
  | n :: rest => by
      rw [markups, headingTextsAll]
      exact (markup_claims true n).bind fun first ids hfirst =>
        (markups_claims rest).map fun others ids' hothers => by simp [hfirst, hothers]

/-- A run of nodes within a line is flushed before the next block and at the end. -/
theorem blocksFrom_claims (wrap : Bool) (run : List Markup) : (ns : List Node) →
    ClaimsInBlocks (blocksFrom wrap run ns) (headingView.all run) (headingTextsAll ns)
  | [] => by
      rw [blocksFrom, headingTextsAll]
      exact .pure (by simp)
  | n :: rest => by
      rw [blocksFrom, headingTextsAll]
      refine (markup_claims n.isInline n).bind fun next ids hnext => ?_
      split
      · -- the blocks that follow start with what is in the run by then
        intro wanted
        obtain ⟨hwanted, hblocks⟩ := blocksFrom_claims wrap (run ++ next) rest wanted
        exact ⟨hwanted, by simp [hblocks, hnext]⟩
      · exact (blocksFrom_claims wrap [] rest).map fun blocks ids' h => by simp [hnext, h]

theorem itemMarkups_claims : (ns : List Node) →
    ClaimsInBlocks (itemMarkups ns) [] (headingTextsAll ns)
  | [] => by
      rw [itemMarkups, headingTextsAll]
      exact .pure rfl
  | n :: rest => by
      rw [itemMarkups, headingTextsAll]
      exact (markup_claims n.isInline n).bind fun content ids hcontent =>
        (itemMarkups_claims rest).map fun others ids' hothers => by simp [hcontent, hothers]

theorem cellMarkups_claims {tag : Tag} (h : tag.isArranging = true)
    (alignment : List (Option String)) : (cells : List (List Node)) →
      ClaimsHeadings (cellMarkups tag alignment cells) (headingTextsCells cells)
  | [] => by
      rw [cellMarkups, headingTextsCells]
      exact .pure (by simp)
  | cell :: rest => by
      rw [cellMarkups, headingTextsCells]
      exact (markups_claims cell).bind fun content ids hcontent =>
        (cellMarkups_claims h alignment.tail rest).map fun others ids' hothers => by
          simp [View.of_cellOf _ h, hcontent, hothers]

theorem rowMarkups_claims (alignment : List (Option String)) :
    (rows : List (List (List Node))) →
      ClaimsInBlocks (rowMarkups alignment rows) [] (headingTextsRows rows)
  | [] => by
      rw [rowMarkups, headingTextsRows]
      exact .pure rfl
  | cells :: rest => by
      rw [rowMarkups, headingTextsRows]
      exact (cellMarkups_claims rfl alignment cells).bind fun first ids hfirst =>
        (rowMarkups_claims alignment rest).map fun others ids' hothers => by
          simp [hfirst, hothers]

end

end Livedoc.Html.Node

namespace Livedoc.Html

open Livedoc.Text Livedoc.Tree Markup

/-! ## Pages -/

/-- Horizontal rules are no headings, so slides hold the headings of the document. -/
theorem headingTextsAll_slideGroups (ns : List Node) :
    (slideGroups ns).flatMap Node.headingTextsAll = Node.headingTextsAll ns :=
  flatMap_slideGroups rfl (fun _ _ => rfl) (fun _ => rfl) ns

theorem contentOf_claims (ns : List Node) :
    Node.ClaimsHeadings (contentOf ns) (Node.headingTextsAll ns) := by
  have hblocks := Node.blocksFrom_claims true [] ns
  rw [← List.append_nil (Node.headingTextsAll ns)]
  refine hblocks.bind fun blocks ids h => ?_
  split
  · exact .pure (by simpa using h)
  · exact .pure (by simpa using h)

theorem slideOf_claims (ns : List Node) :
    Node.ClaimsHeadings (slideOf ns) (Node.headingTextsAll ns) := by
  rw [← List.append_nil (Node.headingTextsAll ns)]
  refine (contentOf_claims ns).bind fun content ids h => ?_
  split
  · exact .pure (by simpa +decide [headingView_of] using h)
  · exact .pure (by simpa +decide [headingView_of] using h)

theorem slidesOf_claims (groups : List (List Node)) :
    Node.ClaimsHeadings (slidesOf groups) (groups.flatMap Node.headingTextsAll) := by
  induction groups with
  | nil => exact .pure (by simp)
  | cons group groups ih =>
      exact (slideOf_claims group).bind fun first ids hfirst =>
        ih.map fun others ids' hothers => by simp [hfirst, hothers]

/-- **The wrapper of a document claims what its headings do**, as slides, paged or plain. -/
theorem wrappedContent_claims (type : String) (ns : List Node) :
    Claims (wrappedContent type ns) (Node.headingTextsAll ns) fun m ids =>
      headingView.of m = ids := by
  unfold wrappedContent
  split
  · rw [← headingTextsAll_slideGroups ns]
    exact (slidesOf_claims (slideGroups ns)).map fun slides ids h => by
      simp +decide [headingView_of, h]
  · split
    · exact (contentOf_claims ns).map fun content ids h => by simp +decide [headingView_of, h]
    · exact (contentOf_claims ns).map fun content ids h => by simp +decide [headingView_of, h]

/-! ## The page around them -/

@[simp] theorem headingView_property (key content : String) :
    headingView.of (property key content) = [] := by
  simp [property]

@[simp] theorem headingView_styleLink (address : String) :
    headingView.of (styleLink address) = [] := by
  simp [styleLink]

@[simp] theorem headingView_scriptLink (address : String) :
    headingView.of (scriptLink address) = [] := by
  simp +decide [scriptLink, headingView_of]

@[simp] theorem headingView_startScript (type : String) (diagrams : Bool) :
    headingView.of (startScript type diagrams) = [] := by
  simp +decide [startScript, headingView_of]

@[simp] theorem headingView_dependencyLinks (type : String) :
    headingView.all (dependencyLinks type) = [] := by
  unfold dependencyLinks
  split <;> simp

@[simp] theorem headingView_dependencyScripts (type : String) (diagrams : Bool) :
    headingView.all (dependencyScripts type diagrams) = [] := by
  unfold dependencyScripts
  split_ifs <;> simp

/-- A head holds no headings. -/
theorem headingView_headOf (p : Presentation) : headingView.of (headOf p) = [] := by
  have htag : Tag.head.isArranging = true := rfl
  simp only [headOf, headingView.of_onOwnLines htag, View.all_append, headingView_dependencyLinks,
    headingView.all_map_eq_nil headingView_styleLink]
  rw [headingView.all_map_eq_nil (f := fun x : String × String => property x.1 x.2)
    fun x => headingView_property x.1 x.2]
  cases p.author with
  | none => simp +decide [headingView_of]
  | some a =>
      dsimp only
      split <;> simp +decide [headingView_of]

/-- A body holds the headings of its content. -/
theorem headingView_bodyOf (p : Presentation) (diagrams : Bool) (content : Markup) :
    headingView.of (bodyOf p diagrams content) = headingView.of content := by
  have hscripts : headingView.all (p.scripts.map scriptLink) = [] :=
    headingView.all_map_eq_nil headingView_scriptLink _
  simp +decide [bodyOf, headingView_of, hscripts]

/-- A page holds the headings of the wrapper of its document. -/
theorem headingView_pageOf (p : Presentation) (d : Document) :
    headingView.all (pageOf p d) =
      headingView.of (wrappedContent p.shownType d.children []).1 := by
  simp +decide [pageOf_eq, headingView_of, headingView_headOf, headingView_bodyOf]

end Livedoc.Html
