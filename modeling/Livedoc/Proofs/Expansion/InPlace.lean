import Livedoc.Proofs.Expansion.Isolation

/-!
# Expansion without isolated includes

Whether an isolated include was executed on the way cannot be seen from what an expansion comes
to. It can be seen from what becomes of the expansion if something else is done instead. So
`expandNodesBy isolate` is expansion in which `isolate` is done with the content of a file that
is included in isolation, and everything else is as it was. If that is to expand it on a copy of
the environment, this is expansion itself (`expandNodesBy_inIsolation`). Nodes never isolate in
an environment if it makes no difference what is done (`NeverIsolates`).

Breaking off is one thing that can be done (`expandInPlace`). As nothing on the way recovers from
a failure, the expansion then ends with the failure, or it comes to the same as with anything
else (`expandInPlace_bars`). So whether nodes never isolate is seen from a single run
(`neverIsolates_iff`), and a property of steps need not pass on from copies of the environment
for this run to have it (`ClosedInPlace.expanderBy`).
-/

namespace Livedoc

open Livedoc.Environment Livedoc.Expansion Livedoc.Problem Livedoc.Source Livedoc.Tree
open Livedoc.Tree.Node

/-! ## Isolating in another way -/

/-- What is done with content that is to be expanded in isolation. -/
abbrev Isolating := Expansion (List Node) → Expansion (List Node)

/-- The content that an include gives. -/
def Inclusion.contentBy (isolate : Isolating) (expand : Expander) (c : Invocation) :
    Inclusion → Expansion (List Node)
  | .refused content => pure content
  | .file path display source isolated =>
    if isolated then isolate (fileNodes expand c path display source)
    else fileNodes expand c path display source

/-- The content that a built-in function gives. -/
def Builtin.runBy (isolate : Isolating) (expand : Expander) (c : Invocation) :
    Builtin → Expansion (List Node)
  | .inclusion => inclusionOf expand c >>= Inclusion.contentBy isolate expand c
  | b => b.run expand c

/-- Runs what a call stands for. -/
def Callee.runBy (isolate : Isolating) (expand : Expander) (c : Invocation) :
    Callee → Expansion (List Node)
  | .defined f => f.run expand c
  | .builtin b => do expand (← b.runBy isolate expand c)

/-- What a call stands for. -/
def expandCallBy (isolate : Isolating) (expand : Expander) : CallMeaning := fun c => do
  match ← inspect (·.store.callee? c.name) with
  | none =>
    warn ("Unknown function: " ++ c.name) .style c.span
    return []
  | some callee => inBlock (.call c.name c.namedTexts c.span) (callee.runBy isolate expand c)

/-- What calls mean where `levels` further calls may be open. -/
def callMeaningBy (isolate : Isolating) : Nat → CallMeaning
  | 0 => expandCallBy isolate fun _ => pure []
  | levels + 1 => expandCallBy isolate (expander (callMeaningBy isolate levels))

/-- Expands nodes. -/
def expandNodesBy (isolate : Isolating) : Expander := fun ns e =>
  expander (callMeaningBy isolate e.setting.levels) ns e

/-- Nothing is expanded in isolation on the way: whatever were done instead, the nodes would
expand to the same and leave the same environment. -/
def NeverIsolates (ns : List Node) (e : Environment) : Prop :=
  ∀ isolate, expandNodesBy isolate ns e = expandNodes ns e

/-- Expands nodes, and breaks off with `f` where a file is to be expanded in isolation. -/
def expandInPlace (f : Failure) : Expander := expandNodesBy fun _ => throw f

/-- Apart from includes, functions are not about isolation. -/
theorem Builtin.runBy_of_ne {b : Builtin} (hb : b ≠ .inclusion) (isolate : Isolating)
    (x : Expander) (c : Invocation) : b.runBy isolate x c = b.run x c := by
  cases b <;> first | rfl | exact absurd rfl hb

theorem Builtin.runBy_inIsolation (x : Expander) (c : Invocation) (b : Builtin) :
    b.runBy inIsolation x c = b.run x c := by
  by_cases hb : b = .inclusion
  · subst hb
    have hcontent : Inclusion.contentBy inIsolation x c = Inclusion.content x c := by
      funext i
      cases i <;> rfl
    show inclusionOf x c >>= Inclusion.contentBy inIsolation x c = includeFile x c
    rw [hcontent, includeFile_eq]
  · exact runBy_of_ne hb inIsolation x c

theorem expandCallBy_inIsolation : expandCallBy inIsolation = expandCall := by
  funext x c
  refine bind_congr fun found => ?_
  cases found with
  | none => rfl
  | some callee =>
      cases callee with
      | defined f => rfl
      | builtin b =>
          have hrun : Callee.runBy inIsolation x c (.builtin b) = Callee.run x c (.builtin b) :=
            congrArg (· >>= x) (Builtin.runBy_inIsolation x c b)
          simp only [hrun]

/-- **With copies of the environment this is expansion.** -/
theorem expandNodesBy_inIsolation : expandNodesBy inIsolation = expandNodes := by
  have hcalls : ∀ levels, callMeaningBy inIsolation levels = callMeaning levels := by
    intro levels
    induction levels with
    | zero => rw [callMeaningBy, callMeaning, expandCallBy_inIsolation]
    | succ levels ih => rw [callMeaningBy, callMeaning, expandCallBy_inIsolation, ih]
  funext ns e
  rw [expandNodesBy, hcalls]
  rfl

namespace Expansion

variable {α β : Type} {f : Failure} {isolate : Isolating}

theorem Composed.inclusionOf {isolation : Prop} (c : Invocation) :
    Composed (.within isolation) fun x => Livedoc.inclusionOf x.nodes c := by
  unfold Livedoc.inclusionOf
  refine bind (strippedArgument c 0) fun path => ?_
  split
  · exact andThen (Composed.warn _ _ _) (pure _)
  · refine bind (primitive (.findFile path c.firstSpan)) fun found => ?_
    cases found with
    | none => exact andThen (Composed.warn _ _ _) (pure _)
    | some file => exact map (namedText "isolated") _

/-! ## Breaking off -/

/-- The first step ends with the failure wherever it is not the second one. -/
def Bars (f : Failure) (m' m : Expansion α) : Prop := ∀ e, (m' e).1 = .error f ∨ m' e = m e

namespace Bars

theorem refl (m : Expansion α) : Bars f m m := fun _ => .inr rfl

/-- A failure is the end of what follows. -/
theorem bind {m' m : Expansion α} {k' k : α → Expansion β} (hm : Bars f m' m)
    (hk : ∀ a, Bars f (k' a) (k a)) : Bars f (m' >>= k') (m >>= k) := by
  intro e
  rcases hrun : m' e with ⟨result, after⟩
  rcases hm e with herror | hsame
  · rw [hrun] at herror
    obtain rfl : result = .error f := herror
    exact .inl (congrArg Prod.fst (bind_error hrun k'))
  · have hrun' : m e = (result, after) := hsame.symm.trans hrun
    cases result with
    | ok a =>
        rw [bind_ok hrun, bind_ok hrun']
        exact hk a after
    | error g => exact .inr ((bind_error hrun k').trans (bind_error hrun' k).symm)

theorem inBlock (o : Opening) {m' m : Expansion α} (hm : Bars f m' m) :
    Bars f (inBlock o m') (inBlock o m) := by
  intro e
  cases henter : e.enter o with
  | error g => exact .inr ((inBlock_error henter m').trans (inBlock_error henter m).symm)
  | ok entered =>
      rw [inBlock_ok henter, inBlock_ok henter]
      rcases hm entered.1 with herror | hsame
      · exact .inl herror
      · exact .inr (by rw [hsame])

/-- What is composed without isolated work ends with the failure only where an expansion that it
asks for does. -/
theorem composed {u : Use} (hu : ¬ u.isolation) {y x : Meaning}
    (hnodes : ∀ ns, u.nodes ns → Bars f (y.nodes ns) (x.nodes ns))
    (hcall : ∀ c, u.call c → Bars f (y.call c) (x.call c)) {m : Meaning → Expansion α}
    (h : Composed u m) : Bars f (m y) (m x) := by
  induction h with
  | pure a => exact refl _
  | primitive _ => exact refl _
  | bind _ _ ihm ihk => exact bind ihm ihk
  | nodes h => exact hnodes _ h
  | call h => exact hcall _ h
  | inBlock _ _ ih => exact inBlock _ ih
  | inIsolation h => exact absurd h hu

/-- Within a call it is enough that nodes do. -/
theorem within {x' x : Expander} (hx : ∀ ns, Bars f (x' ns) (x ns)) {m : Meaning → Expansion α}
    (h : Composed (.within False) m) : Bars f (m (.of x')) (m (.of x)) :=
  composed id (fun ns _ => hx ns) (fun _ hcall => False.elim hcall) h

theorem expander {onCall' onCall : CallMeaning} (hcall : ∀ c, Bars f (onCall' c) (onCall c)) :
    ∀ ns, Bars f (expander onCall' ns) (expander onCall ns) := by
  intro ns
  induction ns using fragment_induction with
  | h ns ih =>
      rw [expander_eq, expander_eq]
      refine composed (y := ⟨Livedoc.expander onCall', onCall'⟩)
        (x := ⟨Livedoc.expander onCall, onCall⟩) id ?_ (fun c _ => hcall c) (Composed.level ns)
      rintro cs ⟨n, hn, hcs⟩
      exact ih n hn cs hcs

theorem content {x' x : Expander} (hx : ∀ ns, Bars f (x' ns) (x ns)) (c : Invocation)
    (i : Inclusion) : Bars f (i.contentBy (fun _ => throw f) x' c) (i.contentBy isolate x c) := by
  match i with
  | .refused content => exact refl _
  | .file path display source true => exact fun _ => .inl rfl
  | .file path display source false => exact within hx (Composed.fileNodes c path display source)

theorem builtin {x' x : Expander} (hx : ∀ ns, Bars f (x' ns) (x ns)) (c : Invocation)
    (b : Builtin) : Bars f (b.runBy (fun _ => throw f) x' c) (b.runBy isolate x c) := by
  by_cases hb : b = .inclusion
  · subst hb
    exact bind (within hx (Composed.inclusionOf c)) (content hx c)
  · rw [Builtin.runBy_of_ne hb, Builtin.runBy_of_ne hb]
    exact within hx (Composed.builtin c b fun h => absurd h hb)

theorem expandCall {x' x : Expander} (hx : ∀ ns, Bars f (x' ns) (x ns)) (c : Invocation) :
    Bars f (expandCallBy (fun _ => throw f) x' c) (expandCallBy isolate x c) := by
  refine bind (refl _) fun found => ?_
  cases found with
  | none => exact refl _
  | some callee =>
      refine inBlock _ ?_
      cases callee with
      | defined g => exact within hx (Composed.function c g)
      | builtin b => exact bind (builtin hx c b) hx

theorem callMeaning : ∀ (levels : Nat) (c : Invocation),
    Bars f (callMeaningBy (fun _ => throw f) levels c) (callMeaningBy isolate levels c) := by
  intro levels
  induction levels with
  | zero => exact expandCall fun _ => refl _
  | succ levels ih => exact expandCall (expander ih)

end Bars

/-- **Expansion in place ends with its failure, or it comes to the same as any other.** -/
theorem expandInPlace_bars (f : Failure) (isolate : Isolating) (ns : List Node) :
    Bars f (expandInPlace f ns) (expandNodesBy isolate ns) :=
  fun e => Bars.expander (Bars.callMeaning e.setting.levels) ns e

/-- Every outcome is different from some failure. -/
theorem exists_failure_ne (result : Except Failure α) : ∃ f, result ≠ .error f := by
  cases result with
  | ok a => exact ⟨⟨.unreadable "", .unknown, "", []⟩, nofun⟩
  | error g =>
      refine ⟨{ g with calls := "" :: g.calls }, fun h => ?_⟩
      have hcalls : g.calls = "" :: g.calls := congrArg Failure.calls (Except.error.inj h)
      exact absurd (congrArg List.length hcalls) (by simp)

/-- **Nodes never isolate exactly if expansion in place does not end with its failure**, for one
failure. -/
theorem neverIsolates_iff {ns : List Node} {e : Environment} :
    NeverIsolates ns e ↔ ∃ f, (expandInPlace f ns e).1 ≠ .error f := by
  constructor
  · intro h
    obtain ⟨f, hf⟩ := exists_failure_ne (expandNodes ns e).1
    have hinPlace : expandInPlace f ns e = expandNodes ns e := h _
    exact ⟨f, hinPlace ▸ hf⟩
  · rintro ⟨f, hf⟩ isolate
    have hsame (isolate : Isolating) : expandInPlace f ns e = expandNodesBy isolate ns e :=
      (expandInPlace_bars f isolate ns e).resolve_left hf
    rw [← expandNodesBy_inIsolation, ← hsame isolate, hsame inIsolation]

/-! ## What holds of expansion in place -/

namespace ClosedInPlace

variable {P : ∀ α : Type, Expansion α → Prop}

/-- What is composed within a call, without isolated work, has the property if nodes do. -/
theorem within (hP : ClosedInPlace P) {x : Expander} (hx : ∀ ns, P _ (x ns))
    {m : Meaning → Expansion α} (h : Composed (.within False) m) : P _ (m (.of x)) :=
  hP.composed (False.elim ·) (fun ns _ => hx ns) (fun _ hcall => False.elim hcall) h

theorem builtin (hP : ClosedInPlace P) (hisolate : ∀ m, P _ (isolate m)) {x : Expander}
    (hx : ∀ ns, P _ (x ns)) (c : Invocation) (b : Builtin) : P _ (b.runBy isolate x c) := by
  by_cases hb : b = .inclusion
  · subst hb
    refine hP.bind (hP.within hx (Composed.inclusionOf c)) fun i => ?_
    match i with
    | .refused content => exact hP.pure content
    | .file path display source true => exact hisolate _
    | .file path display source false =>
        exact hP.within hx (Composed.fileNodes c path display source)
  · rw [Builtin.runBy_of_ne hb]
    exact hP.within hx (Composed.builtin c b fun h => absurd h hb)

theorem callMeaning (hP : ClosedInPlace P) (hisolate : ∀ m, P _ (isolate m)) :
    ∀ (levels : Nat) (c : Invocation), P _ (callMeaningBy isolate levels c) := by
  have hcall {x : Expander} (hx : ∀ ns, P _ (x ns)) (c : Invocation) :
      P _ (expandCallBy isolate x c) := by
    refine hP.bind (hP.primitive (.callee c.name)) fun found => ?_
    cases found with
    | none => exact hP.bind (hP.primitive (.warn _ _ _)) fun _ => hP.pure []
    | some callee =>
        refine hP.inBlock _ ?_
        cases callee with
        | defined g => exact hP.within hx (Composed.function c g)
        | builtin b => exact hP.bind (hP.builtin hisolate hx c b) hx
  intro levels
  induction levels with
  | zero => exact hcall fun _ => hP.pure []
  | succ levels ih => exact hcall (hP.expander ih)

/-- **A property that passes on in place is one of expansion**, however many calls may be open,
if what is done instead of isolated work has it. -/
theorem expanderBy (hP : ClosedInPlace P) (hisolate : ∀ m, P _ (isolate m)) (levels : Nat)
    (ns : List Node) : P _ (Livedoc.expander (callMeaningBy isolate levels) ns) :=
  hP.expander (hP.callMeaning hisolate levels) ns

end ClosedInPlace

end Expansion

end Livedoc
