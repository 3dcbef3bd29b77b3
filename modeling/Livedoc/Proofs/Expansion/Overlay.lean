import Livedoc.Proofs.Dictionary
import Livedoc.Proofs.Expansion.Agreement

/-!
# Metadata that were there before expansion

Expansion records metadata and never looks at them. So what an environment holds before has no
influence on what is expanded, and in the end it stands below what was recorded: a key has the
value that was recorded for it last, or else the one that it had before. `Overlaid` relates an
environment to one that holds further metadata in this way. Single steps, blocks and isolated
work keep it (`overlaid_indistinct`), hence so does the expansion of a document
(`expand_overlaid`).
-/

namespace Livedoc

open Livedoc.Environment Livedoc.Problem Livedoc.Source Livedoc.Tree

/-- The second dictionary is the first one with another one below it, to which keys fall back. -/
structure Dictionary.Overlays {α : Type} (base d d' : Dictionary α) : Prop where
  distinct : d'.Distinct
  get? : ∀ key, d'.get? key = (d.get? key).or (base.get? key)

namespace Dictionary.Overlays

variable {α : Type} {base d d' : Dictionary α}

/-- A dictionary stands below nothing as itself. -/
theorem of_distinct (h : base.Distinct) : Overlays base [] base := ⟨h, fun _ => rfl⟩

/-- A key that is set hides what is below it. -/
theorem set (h : Overlays base d d') (key : String) (value : α) :
    Overlays base (d.set key value) (d'.set key value) where
  distinct := h.distinct.set key value
  get? := by
    intro other
    rw [get?_set, get?_set, h.get?]
    split <;> rfl

end Dictionary.Overlays

namespace Environment

/-- The environment with other metadata. -/
def withMetadata (e : Environment) (metadata : Dictionary String) : Environment :=
  { e with store := { e.store with metadata } }

/-- Metadata have no say in whether a block can be entered. -/
theorem enter_withMetadata (e : Environment) (o : Opening) (metadata : Dictionary String) :
    (e.withMetadata metadata).enter o =
      (e.enter o).map fun entered => (entered.1.withMetadata metadata, entered.2) := by
  have hsetting : (e.withMetadata metadata).setting = e.setting := rfl
  cases o with
  | frame locals => rfl
  | call name named span =>
      simp only [enter, hsetting]
      cases e.setting.call name named span <;> rfl
  | file path display span =>
      simp only [enter, hsetting]
      cases e.setting.including path display span <;> rfl
  | source path text => rfl

/-- Entering a block keeps metadata. -/
theorem metadata_enter {e inner : Environment} {o : Opening} {block : OpenBlock}
    (h : e.enter o = .ok (inner, block)) : inner.store.metadata = e.store.metadata := by
  obtain ⟨locals, -, rfl, -⟩ | ⟨name, named, span, -, -, rfl, -⟩ |
    ⟨path, display, span, -, -, -, rfl, -⟩ | ⟨path, text, -, rfl, -⟩ := enter_cases h <;> rfl

end Environment

namespace Expansion

variable {α : Type} {base : Dictionary String} {e e' : Environment}

/-- The second environment is the first one with further metadata, which stand below those of
the first one. -/
def Overlaid (base : Dictionary String) (e e' : Environment) : Prop :=
  ∃ metadata, e' = e.withMetadata metadata ∧ base.Overlays e.store.metadata metadata

namespace Overlaid

theorem setting (h : Overlaid base e e') : e'.setting = e.setting := by
  obtain ⟨metadata, rfl, -⟩ := h
  rfl

/-- A change of the store that has nothing to do with metadata. -/
theorem mapStore {f : Store → Store} (hkeeps : ∀ s, (f s).metadata = s.metadata)
    (hcommutes : ∀ s metadata, f { s with metadata } = { f s with metadata })
    (h : Overlaid base e e') : Overlaid base (e.mapStore f) (e'.mapStore f) := by
  obtain ⟨metadata, rfl, hover⟩ := h
  refine ⟨metadata, congrArg (Environment.mk e.setting) (hcommutes e.store metadata), ?_⟩
  show base.Overlays (f e.store).metadata metadata
  rw [hkeeps]
  exact hover

theorem askFor (h : Overlaid base e e') (paths : List Path) :
    Overlaid base (e.mapStore (·.askFor paths)) (e'.mapStore (·.askFor paths)) :=
  h.mapStore (fun _ => rfl) fun _ _ => rfl

theorem giveUp (h : Overlaid base e e') (reason : String) :
    Overlaid base (e.mapStore (·.giveUp reason)) (e'.mapStore (·.giveUp reason)) :=
  h.mapStore (fun _ => rfl) fun _ _ => rfl

theorem leave (h : Overlaid base e e') (block : OpenBlock) :
    Overlaid base (e.leave block) (e'.leave block) := by
  obtain ⟨metadata, rfl, hover⟩ := h
  cases block <;> exact ⟨metadata, rfl, hover⟩

end Overlaid

/-! ## Steps -/

theorem inspect_overlaid {f : Environment → α}
    (hf : ∀ e metadata, f (e.withMetadata metadata) = f e) :
    Agrees (Overlaid base) (inspect f) := by
  rintro e e' ⟨metadata, rfl, hover⟩
  exact ⟨congrArg Except.ok (hf e metadata), metadata, rfl, hover⟩

theorem update_overlaid {f : Store → Store} (hkeeps : ∀ s, (f s).metadata = s.metadata)
    (hcommutes : ∀ s metadata, f { s with metadata } = { f s with metadata }) :
    Agrees (Overlaid base) (update f) :=
  fun _ _ h => ⟨rfl, h.mapStore hkeeps hcommutes⟩

theorem warn_overlaid (message : String) (kind : WarningKind) (span : Span) :
    Agrees (Overlaid base) (warn message kind span) :=
  update_overlaid (fun _ => rfl) fun _ _ => rfl

theorem assign_overlaid (name : String) (value : Value) :
    Agrees (Overlaid base) (update (·.assign name value)) := by
  refine update_overlaid (fun s => ?_) fun s metadata => ?_
  all_goals
    simp only [Store.assign]
    split <;> rfl

/-- What is recorded in both goes before what was there. -/
theorem record_overlaid (key value : String) :
    Agrees (Overlaid base) (update (·.record key value)) := by
  rintro e e' ⟨metadata, rfl, hover⟩
  exact ⟨rfl, metadata.set key value, rfl, hover.set key value⟩

theorem findFile_overlaid (path : String) (span : Span) :
    Agrees (Overlaid base) (findFile path span) := by
  intro e e' h
  have hasked := h.askFor (e.setting.files.unknown (e.setting.candidates path))
  simp only [findFile, h.setting]
  split <;> exact ⟨rfl, hasked⟩

theorem primitive_overlaid {m : Expansion α} (h : Primitive m) : Agrees (Overlaid base) m := by
  cases h with
  | lookup | holds | callee | named => exact inspect_overlaid fun _ _ => rfl
  | count text span => exact .iterationCount (inspect_overlaid fun _ _ => rfl) warn_overlaid text span
  | findFile path span => exact findFile_overlaid path span
  | warn message kind span => exact warn_overlaid message kind span
  | assign name value => exact assign_overlaid name value
  | record key value => exact record_overlaid key value
  | define f => exact update_overlaid (fun _ => rfl) fun _ _ => rfl
  | failAll es => exact update_overlaid (fun _ => rfl) fun _ _ => rfl

theorem inBlock_overlaid (o : Opening) {m : Expansion α} (hm : Agrees (Overlaid base) m) :
    Agrees (Overlaid base) (inBlock o m) := by
  rintro e e' ⟨metadata, rfl, hover⟩
  have henter' := enter_withMetadata e o metadata
  cases henter : e.enter o with
  | error f =>
      rw [henter] at henter'
      rw [inBlock_error henter, inBlock_error henter']
      exact ⟨rfl, metadata, rfl, hover⟩
  | ok entered =>
      obtain ⟨inner, block⟩ := entered
      rw [henter] at henter'
      rw [inBlock_ok henter, inBlock_ok henter']
      have hinner : Overlaid base inner (inner.withMetadata metadata) :=
        ⟨metadata, rfl, metadata_enter henter ▸ hover⟩
      obtain ⟨hresult, hafter⟩ := hm inner _ hinner
      exact ⟨hresult, hafter.leave block⟩

/-- The metadata of a copy are dropped with it, whatever stood below them. -/
theorem inIsolation_overlaid {m : Expansion α} (hm : Agrees (Overlaid base) m) :
    Agrees (Overlaid base) (inIsolation m) := by
  rintro e e' ⟨metadata, rfl, hover⟩
  have hclone : Overlaid base e.clone (e.withMetadata metadata).clone := ⟨metadata, rfl, hover⟩
  obtain ⟨hresult, beneath, hcopy, -⟩ := hm _ _ hclone
  rcases hrun : m e.clone with ⟨result, copy⟩
  rcases hrun' : m (e.withMetadata metadata).clone with ⟨result', copy'⟩
  rw [hrun, hrun'] at hresult
  rw [hrun, hrun'] at hcopy
  obtain rfl : result' = result := hresult
  obtain rfl : copy' = copy.withMetadata beneath := hcopy
  simp only [inIsolation, hrun, hrun']
  cases result' <;> exact ⟨rfl, metadata, rfl, hover⟩

/-- **Metadata that were there before do not show.** -/
theorem overlaid_indistinct (base : Dictionary String) : Indistinct (Overlaid base) where
  levels h := by rw [h.setting]
  primitive := primitive_overlaid
  inBlock := inBlock_overlaid
  inIsolation := inIsolation_overlaid

/-- **Expansion over earlier metadata.** In an environment that holds metadata already, a
document expands to the same as in one without, and what is recorded is laid over them. -/
theorem expand_overlaid (h : Overlaid base e e') (d : Document) :
    (e'.expand d).1 = (e.expand d).1 ∧ Overlaid base (e.expand d).2 (e'.expand d).2 := by
  obtain ⟨hnodes, hafter⟩ := (overlaid_indistinct base).expandEach
    (fun reason h => h.giveUp reason) d.children e e' h
  exact ⟨congrArg (fun children => { d with children }) hnodes, hafter⟩

end Expansion

end Livedoc
