import Livedoc.Proofs.Decimal.FixedPlaces
import Livedoc.Proofs.Expansion.ControlFlow
import Livedoc.Proofs.Expansion.Splice

/-!
# Truncating twice

The text of a number with a fixed number of places is a number again, and with as many places it has
the same text. This does not follow from the number being read back, since it need not be: the text
is rounded to places, and what is read is rounded to a double. It follows from the double that is
read being no further away from the text than the first one was (`inPlaces_nearest`).

So a call of `truncate` whose body is another call of it, with the same argument, comes to what the
inner call comes to (`truncate_idempotent`).
-/

namespace Livedoc

open Livedoc.Decimal Livedoc.Environment Livedoc.Expansion Livedoc.Source Livedoc.Text Livedoc.Tree

/-! ## Text -/

/-- There is no white space around the text of a number. -/
theorem strip_formatFixed (x : Float) (places : Int) :
    strip (formatFixed x places) = formatFixed x places := by
  unfold formatFixed
  cases hx : Binary.ofFloat x with
  | nan =>
      show strip (formatBinary .nan) = formatBinary .nan
      decide +kernel
  | infinite negative =>
      show strip (formatBinary (.infinite negative)) = formatBinary (.infinite negative)
      cases negative <;> decide +kernel
  | finite negative m e => exact ((OfMarks.signText negative).append (.placesText _ _)).strip

/-- A number that was read and is shown with so many places is read, and shown, once more. -/
theorem exists_parseNumber?_formatFixed {text : String} {x : Float}
    (h : parseNumber? text = some x) (places : Int) :
    ∃ y, parseNumber? (formatFixed x places) = some y ∧
      formatFixed y places = formatFixed x places := by
  obtain ⟨⟨n, rest⟩, -, rfl⟩ := Option.map_eq_some_iff.mp h
  obtain ⟨y, hreads, -, hsame⟩ := exists_readsAs_formatFixed (toFloat_ne_nan n) places
  exact ⟨y, hreads.parse.1, hsame⟩

/-- What truncating gives is truncated already. -/
theorem truncateBody_truncateBody (places : Float) (ns : List Node) :
    truncateBody places (truncateBody places ns) = truncateBody places ns := by
  cases hparse : parseNumber? (strip (Node.textOf ns)) with
  | none =>
      have hself : truncateBody places ns = ns := by rw [truncateBody, hparse]
      rw [hself, hself]
  | some x =>
      let shown := formatFixed x (Decimal.truncate (.ofFloat places))
      have hshown : truncateBody places ns = [.text shown .unknown] := by rw [truncateBody, hparse]
      have htext : Node.textOf [.text shown .unknown] = shown := String.append_empty
      obtain ⟨y, hread, hsame⟩ :=
        exists_parseNumber?_formatFixed hparse (Decimal.truncate (.ofFloat places))
      rw [hshown, truncateBody, htext, strip_formatFixed, hread]
      show [Node.text (formatFixed y _) .unknown] = _
      rw [hsame]

/-! ## Calls -/

namespace Expansion

variable {e after : Environment} {argument : String} {body nodes : List Node}

/-- Within its call, `truncate` with a literal expands its body and truncates it. -/
theorem run_truncate (h : Literal argument) (named : List NamedArgument) (body : List Node)
    (place span : Span) :
    Builtin.run expandNodes ⟨"truncate", [⟨argument, place⟩], named, body, span⟩ .truncate = do
      return truncateBody (numberOr 0 (literalText argument)) (← expandNodes body) := by
  funext e
  simp only [Builtin.run, argumentText, List.getElem?_cons_zero]
  rw [bind_ok (h.resolve e)]

/-- What a call of `truncate` gives is truncated already. -/
theorem truncateBody_of_call (hnone : e.store.functions.get? "truncate" = none)
    (h : Literal argument) {named : List NamedArgument} {place span : Span}
    (hrun : expandNodes [.call "truncate" [⟨argument, place⟩] named body span] e =
      (.ok nodes, after)) : truncateBody (numberOr 0 (literalText argument)) nodes = nodes := by
  let c : Invocation := ⟨"truncate", [⟨argument, place⟩], named, body, span⟩
  have hcallee : e.store.callee? c.name = some (.builtin .truncate) :=
    callee_builtin (b := .truncate) hnone
  have hcall : expandNodes [c.toNode] e = (.ok nodes, after) := hrun
  rw [expandNodes_builtin hcallee rfl, run_truncate h] at hcall
  obtain ⟨inner, block, last, -, hbody, -⟩ := inBlock_eq_ok hcall
  obtain ⟨given, between, -, hgiven⟩ := bind_eq_ok hbody
  obtain rfl : truncateBody _ given = nodes := Except.ok.inj (Prod.mk.inj hgiven).1
  exact truncateBody_truncateBody _ given

/-- **Truncating is idempotent.** The text of a number that was read, shown with any number of places,
is read as a number again, and shown with as many places this has the same text. So truncating nodes
that have been truncated changes nothing. Let `truncate` be no function of the document. If a call
of it with a literal argument, the body of which is another such call, expands without breaking off,
the inner call alone expands to the same nodes and leaves the same environment. -/
theorem truncate_idempotent :
    (∀ text x places, parseNumber? text = some x →
      ∃ y, parseNumber? (formatFixed x places) = some y ∧
        formatFixed y places = formatFixed x places) ∧
    (∀ places ns, truncateBody places (truncateBody places ns) = truncateBody places ns) ∧
    (∀ e after argument nodes body named named' place place' span span',
      e.store.functions.get? "truncate" = none → Literal argument →
        let once : Node := .call "truncate" [⟨argument, place⟩] named body span
        expandNodes [.call "truncate" [⟨argument, place'⟩] named' [once] span'] e =
          (.ok nodes, after) → expandNodes [once] e = (.ok nodes, after)) := by
  constructor
  · intro text x places h
    exact exists_parseNumber?_formatFixed h places
  · constructor
    · exact truncateBody_truncateBody
    · intro e after argument nodes body named named' place place' span span' hnone h once hrun
      let c : Invocation := ⟨"truncate", [⟨argument, place'⟩], named', [once], span'⟩
      have hcallee : e.store.callee? c.name = some (.builtin .truncate) :=
        callee_builtin (b := .truncate) hnone
      have hcall : expandNodes [c.toNode] e = (.ok nodes, after) := hrun
      rw [expandNodes_builtin hcallee rfl, run_truncate h] at hcall
      obtain ⟨inner, block, last, henter, hbody, hleave⟩ := inBlock_eq_ok hcall
      obtain ⟨given, between, honce, hgiven⟩ := bind_eq_ok hbody
      obtain ⟨hresult, rfl⟩ := Prod.mk.inj hgiven
      have hnodes : truncateBody _ given = nodes := Except.ok.inj hresult
      -- the functions of the document are the same within the call
      obtain ⟨setting, -, rfl, -⟩ := enter_call_eq_ok henter
      rw [truncateBody_of_call (by exact hnone) h honce] at hnodes
      subst hnodes
      have hwithin : inBlock (.call c.name c.namedTexts c.span) (expandNodes [once]) e =
          (.ok given, after) := by
        rw [inBlock_ok henter, honce, ← hleave]
      exact expandNodes_of_inCall hwithin

/-- A number that seems to lie half way between two decimals, with two places and then again. -/
theorem truncate_idempotent_half :
    let e := folderWith ""
    let once : Node := .call "truncate" [⟨"2", .unknown⟩] [] [.text "-2.675" .unknown] .unknown
    let twice : Node := .call "truncate" [⟨"2", .unknown⟩] [] [once] .unknown
    e.store.functions.get? "truncate" = none ∧ Literal "2" ∧
      expandNodes [once] e = expandNodes [twice] e ∧
      (expandNodes [twice] e).1.toOption.map Node.textOf = some "-2.67" ∧
      ∃ x y, parseNumber? "-2.675" = some x ∧ formatFixed x 2 = "-2.67" ∧
        parseNumber? "-2.67" = some y ∧ formatFixed y 2 = "-2.67" := by
  intro e once twice
  have hliteral : Literal "2" := by
    intro hdot
    exact absurd hdot (by decide)
  have htwice : (expandNodes [twice] e).1.toOption.map Node.textOf = some "-2.67" := by
    decide +kernel
  have honce : expandNodes [once] e = expandNodes [twice] e := by
    rcases hrun : expandNodes [twice] e with ⟨result, after⟩
    rw [hrun] at htwice
    cases result with
    | error f => cases htwice
    | ok nodes =>
        exact truncate_idempotent.2.2 e after "2" nodes _ [] [] _ _ _ _ rfl hliteral hrun
  have hread : (parseNumber? "-2.675").map (formatFixed · 2) = some "-2.67" := by decide +kernel
  obtain ⟨x, hx, hshown⟩ := Option.map_eq_some_iff.mp hread
  obtain ⟨y, hy, hsame⟩ := truncate_idempotent.1 "-2.675" x 2 hx
  rw [hshown] at hy hsame
  exact ⟨rfl, hliteral, honce, htwice, x, y, hx, hshown, hy, hsame⟩

end Expansion

end Livedoc
