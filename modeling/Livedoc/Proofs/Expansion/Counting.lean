import Livedoc.Proofs.Environment.Restored
import Livedoc.Proofs.Expansion.Pieces

/-!
# The counting variable in nested repetitions

A call of `repeat` counts its rounds in `_index`, which is a variable as any other: a round begins
by setting it, and nothing brings it back when the repetition is over. So what a reference to it
shows depends on what stands before the reference. `Shows` says what nodes show and what `_index`
is afterwards; it goes through the nodes in their order with the current number. A round begins
with its own number, and after a repetition `_index` stays what the last round left.

The nodes are a `Nest`: references to `_index`, containers, calls of built-in functions that hand
nodes on, and repetitions, with any nodes between them that are `Quiet`, that is, leave `_index` as
it is. What a nest expands to is what it shows (`Nest.tracks`). Up to the first repetition within
a round, that is the number of the round.
-/

namespace Livedoc

open Livedoc.Environment Livedoc.Expansion Livedoc.Problem Livedoc.Source Livedoc.Tree
open Livedoc.Tree.Node

/-- How many rounds there are under a limit. -/
def Rounds.number (limit : Int) : Rounds → Nat
  | .exactly n => n
  | .limited _ => limit.toNat

namespace Expansion

variable {α β : Type}

/-- What is known of the functions of a document. -/
abbrev Known := Dictionary Function → Prop

variable {K : Known}

/-! ## Steps that leave the counting variable -/

/-- The functions of the document are known, and `_index` is a number. -/
structure Counts (K : Known) (e : Environment) (k : Nat) : Prop where
  functions : K e.store.functions
  index : e.store.lookup "_index" = some (.ofNat k)

/-- Where the functions are known they stay so, and `_index` is left as it is. -/
def Quiet (K : Known) (m : Expansion α) : Prop :=
  ∀ e a after, K e.store.functions → m e = (.ok a, after) →
    K after.store.functions ∧ after.store.lookup "_index" = e.store.lookup "_index"

namespace Quiet

theorem counts {m : Expansion α} (hm : Quiet K m) {e after : Environment} {a : α} {k : Nat}
    (he : Counts K e k) (h : m e = (.ok a, after)) : Counts K after k := by
  obtain ⟨hfunctions, hindex⟩ := hm e a after he.functions h
  exact ⟨hfunctions, hindex.trans he.index⟩

theorem of_untouched {m : Expansion α}
    (hm : ∀ e a after, m e = (.ok a, after) → Untouched e after) : Quiet K m := by
  intro e a after hknown h
  have hsame := hm e a after h
  exact ⟨hsame.functions ▸ hknown, congrFun hsame.lookup "_index"⟩

theorem pure (a : α) : Quiet K (pure a : Expansion α) :=
  of_untouched fun e _ _ h => (Prod.mk.inj h).2 ▸ Untouched.refl e

/-- Static nodes expand to themselves. -/
theorem of_static {ns : List Node} (h : Static ns) : Quiet K (expandNodes ns) := by
  rw [expandNodes_of_static h]
  exact pure ns

end Quiet

theorem iterationCount_eq_ok {text : String} {span : Span} {e after : Environment} {rounds : Int}
    (h : iterationCount text span e = (.ok rounds, after)) : Untouched e after ∧
      rounds.toNat =
        (roundsOf text e.setting.limits.iterations).number e.setting.limits.iterations := by
  unfold iterationCount at h
  rw [bind_ok (inspect_run _ e)] at h
  cases hrounds : roundsOf text e.setting.limits.iterations with
  | exactly n =>
      rw [hrounds] at h
      cases h
      exact ⟨.refl e, rfl⟩
  | limited wanted =>
      rw [hrounds] at h
      cases h
      exact ⟨.warn e _, rfl⟩

theorem lookup_assign (s : Store) (name : String) (value : Value) :
    (s.assign name value).lookup name = some value := by
  unfold Store.assign Store.lookup
  cases s.frames <;> simp [Dictionary.get?_set]

theorem functions_assign (s : Store) (name : String) (value : Value) :
    (s.assign name value).functions = s.functions := by
  unfold Store.assign
  cases s.frames <;> rfl

/-! ## Rounds -/

/-- A round: what it shows, and what `_index` is after it. -/
abbrev Round := List Node × Nat

/-- What rounds show, one after the other. -/
def shownBy (rounds : List Round) : List Node := (rounds.map (·.1)).flatten

/-- What `_index` is after rounds, if it was `k` before them. -/
def indexAfter (k : Nat) (rounds : List Round) : Nat := rounds.foldl (fun _ r => r.2) k

theorem indexAfter_cons (k : Nat) (r : Round) (rounds : List Round) :
    indexAfter k (r :: rounds) = indexAfter r.2 rounds := rfl

/-- Rounds that leave their own numbers leave the last one. -/
theorem indexAfter_eq {rounds : List Round}
    (h : ∀ (i : Nat) (hi : i < rounds.length), rounds[i].2 = i) (hne : rounds ≠ []) (k : Nat) :
    indexAfter k rounds = rounds.length - 1 := by
  obtain ⟨others, r, rfl⟩ := (List.eq_nil_or_concat' rounds).resolve_left hne
  have hlast := h others.length (by simp)
  simpa [indexAfter] using hlast

/-- What a body does in every round: from each number of `_index` it gives something that `P`
relates to the number before and after. -/
def Body (K : Known) (body : List Node) (P : Nat → List Node → Nat → Prop) : Prop :=
  ∀ ⦃e k out after⦄, Counts K e k → expandNodes body e = (.ok out, after) →
    ∃ last, P k out last ∧ Counts K after last

/-- **Every round begins with its own number.** Between the rounds `_index` is what the round
before has left, which does not matter, since the next one sets it. -/
theorem repeatFrom_rounds {body : List Node} {P : Nat → List Node → Nat → Prop}
    (hbody : Body K body P) : ∀ {number done : Nat} {e after : Environment} {out : List Node},
      K e.store.functions →
      repeatFrom expandNodes body "_index" done number e = (.ok out, after) →
      ∃ rounds : List Round, out = shownBy rounds ∧ rounds.length = number ∧
        (∀ (i : Nat) (h : i < rounds.length), P (done + i) rounds[i].1 rounds[i].2) ∧
        ∀ k, (rounds = [] → Counts K e k) → Counts K after (indexAfter k rounds) := by
  intro number
  induction number with
  | zero =>
      intro done e after out hknown h
      cases h
      exact ⟨[], rfl, rfl, by simp, fun k hk => hk rfl⟩
  | succ number ih =>
      intro done e after out hknown h
      -- whatever `_index` was, the round begins by setting it
      have hbegun : Counts K (e.mapStore (·.assign "_index" (.ofNat done))) done :=
        ⟨(functions_assign e.store _ _).symm ▸ hknown, lookup_assign e.store _ _⟩
      rw [repeatFrom, bind_ok (m := update _) (a := ()) rfl] at h
      obtain ⟨first, between, hfirst, h⟩ := bind_eq_ok h
      obtain ⟨others, last, hothers, hpure⟩ := bind_eq_ok h
      cases hpure
      obtain ⟨m, hP, hm⟩ := hbody hbegun hfirst
      obtain ⟨rounds, rfl, hlength, hrounds, hafter⟩ := ih hm.functions hothers
      refine ⟨(first, m) :: rounds, rfl, by simp [hlength], ?_, fun k _ => ?_⟩
      · intro i hi
        cases i with
        | zero => exact hP
        | succ i =>
            have hi' := hrounds i (by simpa using hi)
            rwa [Nat.add_right_comm] at hi'
      · rw [indexAfter_cons]
        exact hafter m fun _ => hm

/-- In an environment the count of a call of `repeat` asks for so many rounds, under the limit. -/
def AsksFor (c : Invocation) (e : Environment) (number : Nat) : Prop :=
  ∃ text between, argumentText expandNodes c 0 (c.inside e) = (.ok text, between) ∧
    number = (roundsOf text e.setting.limits.iterations).number e.setting.limits.iterations

/-! ## What nests show -/

/-- A relation along a list that hands a number on from one element to the next. -/
inductive Thread (R : α → Nat → β → Nat → Prop) : List α → Nat → List β → Nat → Prop
  | nil {k : Nat} : Thread R [] k [] k
  | cons {a : α} {as : List α} {b : β} {bs : List β} {k m last : Nat} :
      R a k b m → Thread R as m bs last → Thread R (a :: as) k (b :: bs) last

/-- Nodes in which references to `_index` stand. If not `inner`, there are no repetitions among
them. -/
inductive Nest (K : Known) (inner : Bool) : List Node → Prop
  | nil : Nest K inner []
  /-- A reference. -/
  | index {rest : List Node} (span : Span) :
      Nest K inner rest → Nest K inner (.reference "_index" span :: rest)
  /-- Any node that does not set `_index`. -/
  | other {n : Node} {rest : List Node} :
      Quiet K (expandNodes [n]) → Nest K inner rest → Nest K inner (n :: rest)
  /-- A container, with such nodes within it. -/
  | within {n : Node} {rest : List Node} : n.isDynamic = false →
      (∀ cs ∈ n.fragments, Nest K inner cs) → Nest K inner rest → Nest K inner (n :: rest)
  /-- A call of a built-in function that gives such nodes. -/
  | handed {c : Invocation} {b : Builtin} {rest : List Node} : c.name = b.name →
      (∀ F, K F → F.get? b.name = none) → Quiet K (b.run expandNodes c) →
      (∀ e given after, b.run expandNodes c e = (.ok given, after) → Nest K inner given) →
      Nest K inner rest → Nest K inner (c.toNode :: rest)
  /-- A repetition of such nodes. -/
  | repetition {c : Invocation} {rest : List Node} : inner = true → c.name = "repeat" →
      Quiet K (argumentText expandNodes c 0) → Nest K inner c.body →
      Nest K inner rest → Nest K inner (c.toNode :: rest)

/-- What nodes show where `_index` is `k`, and what it is after them. A reference shows it. A
repetition has as many rounds as it asks for there. A round shows the body from its own number on,
and `_index` is afterwards what the last round has left. All other nodes leave it, and expand where
it is what it is there. -/
inductive Shows (K : Known) : List Node → Nat → List Node → Nat → Prop
  | nil {k : Nat} : Shows K [] k [] k
  | index {rest out : List Node} {span : Span} {k last : Nat} : Shows K rest k out last →
      Shows K (.reference "_index" span :: rest) k (.text (Value.ofNat k).toText span :: out) last
  | other {n : Node} {rest shown out : List Node} {e after : Environment} {k last : Nat} :
      Quiet K (expandNodes [n]) → Counts K e k → expandNodes [n] e = (.ok shown, after) →
      Shows K rest k out last → Shows K (n :: rest) k (shown ++ out) last
  | within {n : Node} {rest out : List Node} {cells : List (List Node)} {k m last : Nat} :
      n.isDynamic = false → Thread (Shows K) n.fragments k cells m → Shows K rest m out last →
      Shows K (n :: rest) k (n.refill cells :: out) last
  | handed {c : Invocation} {b : Builtin} {rest given shown out : List Node}
      {e after : Environment} {k m last : Nat} : c.name = b.name → Quiet K (b.run expandNodes c) →
      Counts K e k → b.run expandNodes c e = (.ok given, after) → Shows K given k shown m →
      Shows K rest m out last → Shows K (c.toNode :: rest) k (shown ++ out) last
  | repetition {c : Invocation} {rest out : List Node} {e : Environment} {rounds : List Round}
      {k last : Nat} : c.name = "repeat" → Counts K e k → AsksFor c e rounds.length →
      (∀ (i : Nat) (h : i < rounds.length), Shows K c.body i rounds[i].1 rounds[i].2) →
      Shows K rest (indexAfter k rounds) out last →
      Shows K (c.toNode :: rest) k (shownBy rounds ++ out) last

/-- The nodes do what they show, and without repetitions they leave `_index` as it is. -/
def Tracks (K : Known) (inner : Bool) (ns : List Node) : Prop :=
  Body K ns fun k out last => Shows K ns k out last ∧ (inner = false → last = k)

/-! ## Repetitions -/

section Repetition

variable {c : Invocation} {e after : Environment} {out : List Node}

theorem argumentText_restores (c : Invocation) (index : Nat) :
    Restores (argumentText expandNodes c index) := by
  have hcomposed : Composed (.within True) fun x => argumentText x.nodes c index :=
    Composed.argumentText c index
  exact hcomposed.restores (Meaning.of_restores expandNodes_restores _)

/-- **A call of `repeat` shows its rounds**, as many as its count asks for. -/
theorem repetition_rounds {P : Nat → List Node → Nat → Prop} (hname : c.name = "repeat")
    (hnone : e.store.functions.get? "repeat" = none)
    (hcount : Quiet K (argumentText expandNodes c 0)) (hbody : Body K c.body P)
    (hknown : K e.store.functions) (h : expandNodes [c.toNode] e = (.ok out, after)) :
    ∃ rounds : List Round, out = shownBy rounds ∧
      (∀ (i : Nat) (h : i < rounds.length), P i rounds[i].1 rounds[i].2) ∧
      AsksFor c e rounds.length ∧
      ∀ k, (rounds = [] → Counts K e k) → Counts K after (indexAfter k rounds) := by
  obtain ⟨last, hrun, hstore⟩ :=
    expandNodes_call_eq_ok_of_static (b := .repetition) hname hnone rfl h
  obtain ⟨text, between, htext, hrun⟩ := bind_eq_ok hrun
  obtain ⟨number, begun, hnumber, hrun⟩ := bind_eq_ok hrun
  obtain ⟨hsame, hlength⟩ := iterationCount_eq_ok hnumber
  -- the rounds are counted under the limit outside, since nothing changes it
  have hlimits : between.setting = (c.inside e).setting :=
    ((argumentText_restores c 0).restored htext).setting
  have hbetween := hcount (c.inside e) text between hknown htext
  obtain ⟨rounds, rfl, hcounted, hrounds, hindex⟩ :=
    repeatFrom_rounds hbody (hsame.functions ▸ hbetween.1) hrun
  refine ⟨rounds, rfl, ?_, ⟨text, between, htext, ?_⟩, fun k hk => ?_⟩
  · simpa only [Nat.zero_add] using hrounds
  · rw [hcounted, hlength, hlimits]
    rfl
  · have hbegun : rounds = [] → Counts K begun k := fun hnil =>
      ⟨hsame.functions ▸ hbetween.1,
        (congrFun hsame.lookup "_index").trans (hbetween.2.trans (hk hnil).index)⟩
    obtain ⟨hfunctions, hindex⟩ := hindex k hbegun
    exact ⟨hstore ▸ hfunctions, hstore ▸ hindex⟩

end Repetition

/-! ## Nests do what they show -/

/-- What a node does to what comes after it. -/
def Leads (K : Known) (inner : Bool) (n : Node) : Prop :=
  ∀ ⦃e k shown after⦄, Counts K e k → expandNodes [n] e = (.ok shown, after) →
    ∃ m, Counts K after m ∧ (inner = false → m = k) ∧
      ∀ {rest out last}, Shows K rest m out last → Shows K (n :: rest) k (shown ++ out) last

namespace Leads

variable {inner : Bool} {n : Node} {c : Invocation}

theorem index (span : Span) : Leads K inner (.reference "_index" span) := by
  intro e k shown after he h
  have hrun : expandNodes [.reference "_index" span] e =
      (.ok [.text (Value.ofNat k).toText span], e) := by
    rw [expandNodes_single, expandNode, expandReference, bind_ok (inspect_run _ e), he.index]
    rfl
  rw [hrun] at h
  cases h
  exact ⟨k, he, fun _ => rfl, .index⟩

theorem other (hn : Quiet K (expandNodes [n])) : Leads K inner n := by
  intro e k shown after he h
  exact ⟨k, hn.counts he h, fun _ => rfl, .other hn he h⟩

/-- The cells of a container, one after the other. -/
theorem thread {cells shown : List (List Node)} (hcells : ∀ cs ∈ cells, Tracks K inner cs)
    {e after : Environment} {k : Nat} (he : Counts K e k)
    (h : cells.mapM expandNodes e = (.ok shown, after)) :
    ∃ m, Thread (Shows K) cells k shown m ∧ (inner = false → m = k) ∧ Counts K after m := by
  induction cells generalizing e k shown with
  | nil =>
      cases h
      exact ⟨k, .nil, fun _ => rfl, he⟩
  | cons cs cells ih =>
      rw [List.mapM_cons] at h
      obtain ⟨first, between, hfirst, h⟩ := bind_eq_ok h
      obtain ⟨others, last, hothers, hpure⟩ := bind_eq_ok h
      cases hpure
      obtain ⟨m, ⟨hshows, hsame⟩, hm⟩ := hcells cs (by simp) he hfirst
      obtain ⟨m', hthread, hsame', hm'⟩ := ih (fun cs hcs => hcells cs (by simp [hcs])) hm hothers
      refine ⟨m', .cons hshows hthread, fun hflat => ?_, hm'⟩
      rw [hsame' hflat, hsame hflat]

theorem within (hn : n.isDynamic = false) (hcells : ∀ cs ∈ n.fragments, Tracks K inner cs) :
    Leads K inner n := by
  intro e k shown after he h
  obtain ⟨cells, hrun, rfl⟩ := expandNodes_refill hn h
  obtain ⟨m, hthread, hsame, hm⟩ := thread hcells he hrun
  exact ⟨m, hm, hsame, .within hn hthread⟩

theorem handed {b : Builtin} (hname : c.name = b.name) (hnone : ∀ F, K F → F.get? b.name = none)
    (hquiet : Quiet K (b.run expandNodes c))
    (hgiven : ∀ e given after, b.run expandNodes c e = (.ok given, after) → Tracks K inner given) :
    Leads K inner c.toNode := by
  intro e k shown after he h
  obtain ⟨given, between, last, hrun, hshown, hstore⟩ :=
    expandNodes_call_eq_ok hname (hnone _ he.functions) h
  have hinside : Counts K (c.inside e) k := ⟨he.functions, he.index⟩
  obtain ⟨m, ⟨hshows, hsame⟩, hm⟩ :=
    hgiven _ _ _ hrun (hquiet.counts hinside hrun) hshown
  refine ⟨m, ⟨hstore ▸ hm.functions, hstore ▸ hm.index⟩, hsame, ?_⟩
  exact .handed hname hquiet hinside hrun hshows

theorem repetition (hname : c.name = "repeat") (hnone : ∀ F, K F → F.get? "repeat" = none)
    (hcount : Quiet K (argumentText expandNodes c 0)) (hbody : Tracks K true c.body) :
    Leads K true c.toNode := by
  intro e k shown after he h
  obtain ⟨rounds, rfl, hrounds, hasked, hindex⟩ :=
    repetition_rounds hname (hnone _ he.functions) hcount hbody he.functions h
  refine ⟨indexAfter k rounds, hindex k fun _ => he, nofun, ?_⟩
  exact .repetition hname he hasked fun i hi => (hrounds i hi).1

end Leads

theorem Tracks.nil {inner : Bool} : Tracks K inner [] := by
  intro e k out after he h
  obtain ⟨rfl, rfl⟩ := expandNodes_nil_eq_ok h
  exact ⟨k, ⟨.nil, fun _ => rfl⟩, he⟩

theorem Tracks.cons {inner : Bool} {n : Node} {rest : List Node} (hn : Leads K inner n)
    (hrest : Tracks K inner rest) : Tracks K inner (n :: rest) := by
  intro e k out after he h
  obtain ⟨first, others, between, hfirst, hothers, rfl⟩ := expandNodes_cons_eq_ok h
  obtain ⟨m, hm, hsame, hshows⟩ := hn he hfirst
  obtain ⟨last, ⟨hothers, hsame'⟩, hlast⟩ := hrest hm hothers
  refine ⟨last, ⟨hshows hothers, fun hflat => ?_⟩, hlast⟩
  rw [hsame' hflat, hsame hflat]

/-- **A nest expands to what it shows.** -/
theorem Nest.tracks (hnone : ∀ F, K F → F.get? "repeat" = none) {inner : Bool} {ns : List Node}
    (h : Nest K inner ns) : Tracks K inner ns := by
  induction h with
  | nil => exact .nil
  | index span _ ih => exact .cons (.index span) ih
  | other hn _ ih => exact .cons (.other hn) ih
  | within hn _ _ ihcells ih => exact .cons (.within hn ihcells) ih
  | handed hname hb hquiet _ _ ihgiven ih => exact .cons (.handed hname hb hquiet ihgiven) ih
  | repetition hinner hname hcount _ _ ihbody ih =>
      subst hinner
      exact .cons (.repetition hname hnone hcount ihbody) ih

theorem Nest.of_append {inner : Bool} {before rest : List Node}
    (h : Nest K inner (before ++ rest)) : Nest K inner rest := by
  induction before with
  | nil => exact h
  | cons n before ih =>
      rw [List.cons_append] at h
      cases h <;> exact ih ‹_›

/-- What a round shows that begins with the number `i`, and what it leaves: what the body shows
from there. As long as no repetition is over, `_index` is `i`, and it is `i` after the round if
there is no repetition in it at all. -/
structure ShowsRound (K : Known) (body : List Node) (i : Nat) (out : List Node) (last : Nat) :
    Prop where
  shows : Shows K body i out last
  flat : Nest K false body → last = i
  upTo : ∀ before rest, body = before ++ rest → Nest K false before →
    ∃ shown others last, out = shown ++ others ∧ Shows K before i shown i ∧
      Shows K rest i others last

/-- A nest shows such rounds. -/
theorem Nest.showsRound (hnone : ∀ F, K F → F.get? "repeat" = none) {body : List Node}
    (hbody : Nest K true body) : Body K body (ShowsRound K body) := by
  intro e k out after he h
  have hupTo : ∀ before rest, body = before ++ rest → Nest K false before →
      ∃ shown others last, out = shown ++ others ∧ Shows K before k shown k ∧
        Shows K rest k others last := by
    rintro before rest rfl hflat
    obtain ⟨shown, others, between, hshown, hothers, rfl⟩ := expandNodes_append_eq_ok h
    obtain ⟨k', ⟨hbefore, hsame⟩, hk'⟩ := hflat.tracks hnone he hshown
    obtain rfl : k' = k := hsame rfl
    obtain ⟨last, ⟨hrest, -⟩, -⟩ := hbody.of_append.tracks hnone hk' hothers
    exact ⟨shown, others, last, rfl, hbefore, hrest⟩
  -- a body without repetitions leaves its own number, any other body some number
  by_cases hflat : Nest K false body
  · obtain ⟨last, ⟨hshows, hsame⟩, hlast⟩ := hflat.tracks hnone he h
    exact ⟨last, ⟨hshows, fun _ => hsame rfl, hupTo⟩, hlast⟩
  · obtain ⟨last, ⟨hshows, -⟩, hlast⟩ := hbody.tracks hnone he h
    exact ⟨last, ⟨hshows, fun h => absurd h hflat, hupTo⟩, hlast⟩

/-- **A repetition shows its own numbers up to the first repetition in its body.** Let `repeat` be
no function of the document, and the body of a call of it a nest, in which nothing but repetitions
sets `_index`. If the call expands without breaking off, it gives its rounds one after the other,
as many as its count asks for. Round `i`, counted from zero, is what the body shows from `i` on:
as long as no repetition in it is over every reference shows `i`, and behind one a reference shows
what its last round has left. If there is none, `_index` is the number of the last round when the
call is over. -/
theorem expandNodes_repetition_index {e after : Environment} {c : Invocation} {out : List Node}
    (hnone : ∀ F, K F → F.get? "repeat" = none) (hname : c.name = "repeat")
    (hcount : Quiet K (argumentText expandNodes c 0)) (hbody : Nest K true c.body)
    (hknown : K e.store.functions) (h : expandNodes [c.toNode] e = (.ok out, after)) :
    ∃ rounds : List Round, out = shownBy rounds ∧ AsksFor c e rounds.length ∧
      (∀ (i : Nat) (h : i < rounds.length), ShowsRound K c.body i rounds[i].1 rounds[i].2) ∧
      (Nest K false c.body → rounds ≠ [] →
        after.store.lookup "_index" = some (.ofNat (rounds.length - 1))) := by
  obtain ⟨rounds, hout, hrounds, hasked, hindex⟩ :=
    repetition_rounds hname (hnone _ hknown) hcount (hbody.showsRound hnone) hknown h
  refine ⟨rounds, hout, hasked, hrounds, fun hflat hne => ?_⟩
  have hleft : Counts K after (indexAfter 0 rounds) := hindex 0 fun hnil => absurd hnil hne
  rw [indexAfter_eq (fun i hi => (hrounds i hi).flat hflat) hne] at hleft
  exact hleft.index

/-- A call of `repeat` with a literal count. -/
def repeatCall (count : String) (body : List Node) : Invocation :=
  ⟨"repeat", [⟨count, .unknown⟩], [], body, .unknown⟩

/-- A paragraph that refers to `_index`, a repetition that is done three times, and a reference
behind it. -/
def countedTwice : List Node :=
  [.paragraph [.reference "_index" .unknown] .unknown,
    (repeatCall "3" [.text "x" .unknown]).toNode, .reference "_index" .unknown]

theorem nest_countedTwice {K : Known} : Nest K true countedTwice := by
  have htext : Static [.text "x" .unknown] := .leaf (by simp [walk]) rfl
  have hinner : Nest K true [.text "x" .unknown] := .other (.of_static htext) .nil
  refine .within rfl (fun cs hcs => ?_) ?_
  · obtain rfl := List.mem_singleton.mp hcs
    exact .index _ .nil
  · exact .repetition rfl rfl (Quiet.pure "3") hinner (.index _ .nil)

/-- Done twice, the paragraph shows the number of the round. The reference behind the repetition
shows the number that the repetition has left. -/
theorem expandNodes_repetition_index_twice :
    let c := repeatCall "2" countedTwice
    let x : Node := .text "x" .unknown
    let shown (number : String) : Node := .text number .unknown
    let out := [.paragraph [shown "0"] .unknown, x, x, x, shown "2",
      .paragraph [shown "1"] .unknown, x, x, x, shown "2"]
    (expandNodes [c.toNode] (folderWith "")).1 = .ok out ∧
      ∃ rounds : List Round, out = shownBy rounds ∧
        ∀ (i : Nat) (h : i < rounds.length),
          ShowsRound (·.get? "repeat" = none) countedTwice i rounds[i].1 rounds[i].2 := by
  intro c x shown out
  have hresult : (expandNodes [c.toNode] (folderWith "")).1 = .ok out := by rfl
  obtain ⟨rounds, hout, -, hrounds, -⟩ := expandNodes_repetition_index (fun _ h => h) rfl
    (Quiet.pure "2") (nest_countedTwice (K := (·.get? "repeat" = none))) rfl (Prod.ext hresult rfl)
  exact ⟨hresult, rounds, hout, hrounds⟩

/-- **Behind a repetition a reference does not show its own round.** Done twice around a
repetition that is done three times, it shows two both times. -/
theorem expandNodes_repetition_index_ne :
    let x : Node := .text "x" .unknown
    let shown (number : String) : Node := .text number .unknown
    let c := repeatCall "2" [(repeatCall "3" [x]).toNode, .reference "_index" .unknown]
    let result := (expandNodes [c.toNode] (folderWith "")).1
    result = .ok [x, x, x, shown "2", x, x, x, shown "2"] ∧
      result ≠ .ok [x, x, x, shown "0", x, x, x, shown "1"] := by
  intro x shown c result
  have hresult : result = .ok [x, x, x, shown "2", x, x, x, shown "2"] := by rfl
  refine ⟨hresult, ?_⟩
  rw [hresult]
  simp [shown]

end Expansion

end Livedoc
