import Livedoc.Proofs.Expansion.Steps

/-!
# What expansion is composed of

Expanding a node, and running what a call stands for, expands further nodes on the
way: children, bodies, the text of an argument, the content of a file.  `Composed`
says of such a step that it is put together from primitive steps, blocks and isolated
work, and reaches further expansions in no other way than by asking for them.  Which
ones it may ask for, which blocks it may enter, and whether it may work in isolation, is
the parameter `Use`.

All functions are composed (`Composed.builtin`, `Composed.function`,
`Composed.callee`).  A statement about all of them is then proved by induction over
the composition, with one case for each way of putting steps together, and not
function by function.
-/

namespace Livedoc.Expansion

open Livedoc.Environment Livedoc.Problem Livedoc.Source Livedoc.Tree

variable {α β : Type}

/-- What the expansions that a step asks for give. -/
structure Meaning where
  /-- What nodes expand to. -/
  nodes : Expander
  /-- What calls stand for. -/
  call : CallMeaning

/-- What a step may ask for, which blocks it may enter, and whether it may work on a copy of
the environment. -/
structure Use where
  nodes : List Node → Prop
  call : Invocation → Prop
  block : Opening → Prop
  isolation : Prop

/-- A step, given what the expansions that it asks for mean, is put together from
primitive steps, blocks, isolated work and such expansions. -/
inductive Composed (u : Use) : {α : Type} → (Meaning → Expansion α) → Prop
  | pure {α : Type} (a : α) : Composed u fun _ => pure a
  | primitive {α : Type} {m : Expansion α} (h : Primitive m) : Composed u fun _ => m
  | bind {α β : Type} {m : Meaning → Expansion α} {k : α → Meaning → Expansion β}
      (hm : Composed u m) (hk : ∀ a, Composed u (k a)) : Composed u fun x => m x >>= fun a => k a x
  | nodes {ns : List Node} (h : u.nodes ns) : Composed u fun x => x.nodes ns
  | call {c : Invocation} (h : u.call c) : Composed u fun x => x.call c
  | inBlock {α : Type} {o : Opening} {m : Meaning → Expansion α} (h : u.block o)
      (hm : Composed u m) : Composed u fun x => inBlock o (m x)
  | inIsolation {α : Type} {m : Meaning → Expansion α} (h : u.isolation) (hm : Composed u m) :
      Composed u fun x => inIsolation (m x)

/-- The expansions that may be asked for restore the environment. -/
structure Meaning.Restores (x : Meaning) (u : Use) : Prop where
  nodes : ∀ ns, u.nodes ns → Expansion.Restores (x.nodes ns)
  call : ∀ c, u.call c → Expansion.Restores (x.call c)

/-- A composed step has a closed property if the expansions that it asks for have it. From
copies of the environment the property has to pass on only if there may be any. -/
theorem ClosedInPlace.composed {P : ∀ α : Type, Expansion α → Prop} (hP : ClosedInPlace P)
    {u : Use} (hcopy : u.isolation → ∀ {β : Type} {m : Expansion β}, P β m → P β (inIsolation m))
    {x : Meaning} (hnodes : ∀ ns, u.nodes ns → P _ (x.nodes ns))
    (hcall : ∀ c, u.call c → P _ (x.call c)) {m : Meaning → Expansion α} (h : Composed u m) :
    P α (m x) := by
  induction h with
  | pure a => exact hP.pure a
  | primitive h => exact hP.primitive h
  | bind _ _ ihm ihk => exact hP.bind ihm ihk
  | nodes h => exact hnodes _ h
  | call h => exact hcall _ h
  | inBlock _ _ ih => exact hP.inBlock _ ih
  | inIsolation h _ ih => exact hcopy h ih

/-- A composed step restores the environment if the expansions that it asks for do. -/
theorem Composed.restores {u : Use} {x : Meaning} (hx : x.Restores u) {m : Meaning → Expansion α}
    (h : Composed u m) : Restores (m x) :=
  restores_closed.toClosedInPlace.composed (fun _ => restores_closed.inIsolation) hx.nodes hx.call h

namespace Composed

variable {u : Use}

theorem warn (message : String) (kind : WarningKind) (span : Span) :
    Composed u fun _ => Expansion.warn message kind span :=
  primitive (.warn message kind span)

/-- A step after one whose result does not matter. -/
theorem andThen {m : Meaning → Expansion α} {k : Meaning → Expansion β} (hm : Composed u m)
    (hk : Composed u k) : Composed u fun x => m x >>= fun _ => k x :=
  bind hm fun _ => hk

/-- Changing the result of a step. -/
theorem map {m : Meaning → Expansion α} (hm : Composed u m) (f : α → β) :
    Composed u fun x => m x >>= fun a => Pure.pure (f a) :=
  bind hm fun a => pure (f a)

theorem mapM {γ : Type} {f : γ → Meaning → Expansion α} :
    ∀ {l : List γ}, (∀ c ∈ l, Composed u (f c)) → Composed u fun x => l.mapM (f · x) := by
  intro l
  induction l with
  | nil =>
      intro _
      simp only [List.mapM_nil]
      exact pure []
  | cons c l ih =>
      intro h
      simp only [List.mapM_cons]
      refine bind (h c (by simp)) fun a => ?_
      exact map (ih fun c' hc' => h c' (by simp [hc'])) (a :: ·)

/-- The text of an argument asks for nothing but what the text reads as. -/
theorem resolveText {raw : String} (h : u.nodes (Document.readLine raw)) :
    Composed u fun x => Livedoc.resolveText x.nodes raw := by
  unfold Livedoc.resolveText
  split
  · exact map (nodes h) Node.textOf
  · exact pure raw

theorem iterationCount (text : String) (span : Span) :
    Composed u fun _ => Livedoc.iterationCount text span :=
  primitive (.count text span)

theorem repeatFrom {ns : List Node} (h : u.nodes ns) (counter : String) :
    ∀ rounds done, Composed u fun x => Livedoc.repeatFrom x.nodes ns counter done rounds := by
  intro rounds
  induction rounds with
  | zero =>
      intro done
      exact pure []
  | succ rounds ih =>
      intro done
      refine andThen (primitive (.assign counter _)) ?_
      refine bind (nodes h) fun first => ?_
      exact map (ih (done + 1)) (first ++ ·)

theorem repeatBody {ns : List Node} (h : u.nodes ns) (counter : String) (rounds : Int) :
    Composed u fun x => Livedoc.repeatBody x.nodes ns counter rounds :=
  repeatFrom h counter rounds.toNat 0

theorem expandReference (name : String) (span : Span) :
    Composed u fun _ => Livedoc.expandReference name span := by
  unfold Livedoc.expandReference
  refine bind (primitive (.lookup name)) fun value => ?_
  cases value with
  | some value => exact pure _
  | none => exact andThen (warn _ _ _) (pure _)

end Composed

/-! ## Functions

Within a call any nodes may be expanded, and any blocks but further calls entered:
a further call comes about only by expanding nodes that hold one. Of all functions only the
built-in one for includes works in isolation. -/

/-- What functions may use, if they work in isolation or not. -/
def Use.within (isolation : Prop) : Use where
  nodes _ := True
  call _ := False
  block o := ∀ name named span, o ≠ .call name named span
  isolation := isolation

/-- What the functions of a document and the built-in ones may use. -/
abbrev Use.inCall : Use := .within True

namespace Composed

variable {isolation : Prop}

/-- Expanding any nodes within a call. -/
theorem anyNodes (ns : List Node) : Composed (.within isolation) fun x => x.nodes ns :=
  nodes True.intro

theorem anyText (raw : String) :
    Composed (.within isolation) fun x => Livedoc.resolveText x.nodes raw :=
  resolveText True.intro

theorem argumentText (c : Invocation) (index : Nat) :
    Composed (.within isolation) fun x => Livedoc.argumentText x.nodes c index := by
  unfold Livedoc.argumentText
  cases c.arguments[index]? with
  | some a => exact anyText a.content
  | none => exact pure ""

theorem namedText (key : String) : Composed (.within isolation) fun x => namedText? x.nodes key := by
  unfold namedText?
  refine bind (primitive (.named key)) fun raw => ?_
  cases raw with
  | some raw => exact map (anyText raw) some
  | none => exact pure none

theorem namedNumber (key : String) (default : Float) :
    Composed (.within isolation) fun x => Livedoc.namedNumber x.nodes key default :=
  map (namedText key) _

theorem strippedArgument (c : Invocation) (index : Nat) :
    Composed (.within isolation) fun x => Livedoc.strippedArgument x.nodes c index :=
  map (argumentText c index) _

theorem setMetadata (key : String) (c : Invocation) :
    Composed (.within isolation) fun x => Livedoc.setMetadata x.nodes key c := by
  refine bind (strippedArgument c 0) fun value => ?_
  exact andThen (primitive (.record key value)) (pure [])

theorem fileNodes (c : Invocation) (path : Path) (display source : String) :
    Composed (.within isolation) fun x => Livedoc.fileNodes x.nodes c path display source := by
  have hfile : (Use.within isolation).block (.file path display c.firstSpan) := by
    intro _ _ _ h; cases h
  have hsource : (Use.within isolation).block (.source path source) := by
    intro _ _ _ h; cases h
  exact inBlock hfile (inBlock hsource (andThen (primitive (.failAll _)) (anyNodes _)))

theorem includeFile (c : Invocation) (h : isolation) :
    Composed (.within isolation) fun x => Livedoc.includeFile x.nodes c := by
  unfold Livedoc.includeFile
  refine bind (strippedArgument c 0) fun path => ?_
  split
  · exact andThen (warn _ _ _) (pure [])
  · refine bind (primitive (.findFile path c.firstSpan)) fun found => ?_
    cases found with
    | none => exact andThen (warn _ _ _) (pure _)
    | some file =>
        refine bind (namedText "isolated") fun isolated => ?_
        dsimp only
        split
        · exact inIsolation h (fileNodes c file.1 path file.2)
        · exact fileNodes c file.1 path file.2

theorem define (c : Invocation) :
    Composed (.within isolation) fun x => Livedoc.define x.nodes c := by
  unfold Livedoc.define
  refine bind (strippedArgument c 0) fun name => ?_
  split
  · exact andThen (warn _ _ _) (pure [])
  · dsimp only
    split
    · exact andThen (warn _ _ _) (andThen (primitive (.define _)) (pure []))
    · exact andThen (primitive (.define _)) (pure [])

/-- **Every built-in function is composed.** -/
theorem builtin (c : Invocation) (b : Builtin) (hb : b = .inclusion → isolation) :
    Composed (.within isolation) fun x => b.run x.nodes c := by
  cases b with
  | row =>
      refine bind (namedText "alignment") fun alignment => ?_
      exact map (namedText "gap") _
  | column =>
      refine bind (namedText "cross") fun alignment => ?_
      exact map (namedText "gap") _
  | grid =>
      refine bind (namedNumber "columns" 2) fun columns => ?_
      exact map (namedText "gap") _
  | center => exact pure _
  | add =>
      refine bind (argumentText c 0) fun value => ?_
      exact map (namedNumber "to" 0) _
  | multiply =>
      refine bind (argumentText c 0) fun value => ?_
      exact map (namedNumber "by" 1) _
  | pow =>
      refine bind (argumentText c 0) fun value => ?_
      exact map (namedNumber "to" 1) _
  | truncate =>
      refine bind (argumentText c 0) fun places => ?_
      exact map (anyNodes c.body) _
  | conditional =>
      simp only [Builtin.run]
      cases c.arguments.head? with
      | none => exact pure []
      | some condition =>
          refine bind (primitive (.holds condition.content)) fun holds => ?_
          cases holds
          · exact pure []
          · exact pure c.body
  | repetition =>
      refine bind (argumentText c 0) fun count => ?_
      refine bind (iterationCount count c.firstSpan) fun rounds => ?_
      exact repeatBody True.intro "_index" rounds
  | «variable» =>
      refine bind (strippedArgument c 0) fun name => ?_
      split
      · exact andThen (warn _ _ _) (pure [])
      · refine bind (argumentText c 1) fun value => ?_
        exact andThen (primitive (.assign name _)) (pure [])
  | upper => exact map (anyNodes c.body) _
  | lower => exact map (anyNodes c.body) _
  | documentName => exact setMetadata "title" c
  | documentAuthor => exact setMetadata "author" c
  | documentLanguage => exact setMetadata "language" c
  | documentType =>
      refine bind (strippedArgument c 0) fun value => ?_
      split
      · exact andThen (warn _ _ _) (andThen (primitive (.record _ _)) (pure []))
      · exact andThen (primitive (.record _ _)) (pure [])
  | theme =>
      refine bind (strippedArgument c 0) fun value => ?_
      refine andThen (primitive (.record _ _)) ?_
      refine bind (namedText "layout") fun layout => ?_
      cases layout with
      | none => exact pure []
      | some layout =>
          dsimp only
          split
          · exact andThen (primitive (.record _ _)) (pure [])
          · exact pure []
  | inclusion => exact includeFile c (hb rfl)
  | definition => exact define c

theorem bindPositional (c : Invocation) :
    ∀ (parameters : List String) (index : Nat) (frame : Frame),
      Composed (.within isolation) fun x =>
        Function.bindPositional x.nodes c index parameters frame := by
  intro parameters
  induction parameters with
  | nil =>
      intro index frame
      exact pure frame
  | cons p rest ih =>
      intro index frame
      exact bind (argumentText c index) fun value => ih (index + 1) _

theorem bindNamed :
    ∀ (parameters : List String) (frame : Frame),
      Composed (.within isolation) fun x => Function.bindNamed x.nodes parameters frame := by
  intro parameters
  induction parameters with
  | nil =>
      intro frame
      exact pure frame
  | cons p rest ih =>
      intro frame
      refine bind (namedText p) fun value => ?_
      cases value with
      | some value => exact ih _
      | none => exact ih frame

theorem function (c : Invocation) (f : Function) :
    Composed (.within isolation) fun x => f.run x.nodes c := by
  refine bind (bindPositional c f.parameters 0 []) fun frame => ?_
  refine bind (bindNamed (f.parameters ++ f.named) frame) fun frame => ?_
  have hframe : ∀ locals, (Use.within isolation).block (.frame locals) := by
    intro locals _ _ _ h; cases h
  exact inBlock (hframe _) (anyNodes f.body)

/-- **What a call runs is composed**, be it a function of the document or a built-in
one, whose result is expanded once more. -/
theorem callee (c : Invocation) (callee : Callee) :
    Composed .inCall fun x => callee.run x.nodes c := by
  cases callee with
  | defined f => exact function c f
  | builtin b => exact bind (builtin c b fun _ => True.intro) fun ns => anyNodes ns

end Composed

end Livedoc.Expansion
