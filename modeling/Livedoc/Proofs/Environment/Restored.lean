import Livedoc.Environment.Block

/-!
# What leaving a block brings back

Work on an environment may set variables of the innermost frame, record metadata,
define functions and add messages.  Everything else has to be as it was once the
work is over: the setting, the number of frames, the frames below the innermost one,
and the globals as long as a frame hides them from assignments.  `Restored` is that
relation between the environment before and after some work.

A block is entered and left around work that is `Restored` by itself.
`leave_enter` says that leaving a block undoes entering it, and `Restored.leave`
that the two together keep the relation, whatever block it is.  Every later
statement about what expansion leaves untouched rests on these two facts.

`Untouched` is the strictest relation of this kind: nothing that later work could read is
different.  Only messages may have been added, and the inquiry may have changed.
-/

namespace Livedoc.Environment

/-- The environment after some work, compared with the one before it: the setting is
the same, only the innermost frame differs (or the globals, if there is no frame),
and no message is lost. -/
structure Restored (before after : Environment) : Prop where
  setting : after.setting = before.setting
  frames_length : after.store.frames.length = before.store.frames.length
  outer : after.store.frames.tail = before.store.frames.tail
  globals : before.store.frames ≠ [] → after.store.globals = before.store.globals
  warnings : before.store.report.warnings <+: after.store.report.warnings
  errors : before.store.report.errors <+: after.store.report.errors

namespace Restored

theorem refl (e : Environment) : Restored e e :=
  ⟨rfl, rfl, rfl, fun _ => rfl, List.prefix_refl _, List.prefix_refl _⟩

/-- With no frame before there is none after, and with one before there is one
after. -/
theorem frames_eq_nil_iff {e e' : Environment} (h : Restored e e') :
    e'.store.frames = [] ↔ e.store.frames = [] := by
  rw [← List.length_eq_zero_iff, ← List.length_eq_zero_iff, h.frames_length]

theorem trans {e e' e'' : Environment} (h : Restored e e') (h' : Restored e' e'') :
    Restored e e'' where
  setting := h'.setting.trans h.setting
  frames_length := h'.frames_length.trans h.frames_length
  outer := h'.outer.trans h.outer
  globals := by
    intro hne
    have hne' : e'.store.frames ≠ [] := fun hnil => hne (h.frames_eq_nil_iff.mp hnil)
    exact (h'.globals hne').trans (h.globals hne)
  warnings := h.warnings.trans h'.warnings
  errors := h.errors.trans h'.errors

/-- A change of the store that keeps frames and globals and only adds messages. -/
theorem of_mapStore (e : Environment) (f : Store → Store)
    (hframes : (f e.store).frames = e.store.frames)
    (hglobals : (f e.store).globals = e.store.globals)
    (hwarnings : e.store.report.warnings <+: (f e.store).report.warnings)
    (herrors : e.store.report.errors <+: (f e.store).report.errors) :
    Restored e (e.mapStore f) where
  setting := rfl
  frames_length := congrArg List.length hframes
  outer := congrArg List.tail hframes
  globals := fun _ => hglobals
  warnings := hwarnings
  errors := herrors

/-- Setting a variable writes to the innermost frame, and to the globals only if
there is no frame. -/
theorem assign (e : Environment) (name : String) (value : Value) :
    Restored e (e.mapStore (·.assign name value)) := by
  cases hf : e.store.frames with
  | nil =>
      constructor <;> simp [mapStore, Store.assign, hf]
  | cons frame outer =>
      constructor <;> simp [mapStore, Store.assign, hf]

theorem warn (e : Environment) (w : Problem.Warning) :
    Restored e (e.mapStore (·.warn w)) :=
  of_mapStore e _ rfl rfl (List.prefix_append _ _) (List.prefix_refl _)

theorem failAll (e : Environment) (es : List Problem.Error) :
    Restored e (e.mapStore (·.failAll es)) :=
  of_mapStore e _ rfl rfl (List.prefix_refl _) (List.prefix_append _ _)

theorem record (e : Environment) (key value : String) :
    Restored e (e.mapStore (·.record key value)) :=
  of_mapStore e _ rfl rfl (List.prefix_refl _) (List.prefix_refl _)

theorem define (e : Environment) (f : Function) :
    Restored e (e.mapStore (·.define f)) :=
  of_mapStore e _ rfl rfl (List.prefix_refl _) (List.prefix_refl _)

/-- Taking over what a copy found out adds messages and nothing else. -/
theorem adopt (e : Environment) (copy : Store) :
    Restored e (e.mapStore (·.adopt copy)) :=
  of_mapStore e _ rfl rfl (List.prefix_append _ _) (List.prefix_append _ _)

/-- The inquiry is no part of what has to be restored. -/
theorem inquire (e : Environment) (i : Inquiry) :
    Restored e (e.mapStore fun s => { s with inquiry := i }) :=
  of_mapStore e _ rfl rfl (List.prefix_refl _) (List.prefix_refl _)

end Restored

/-! ## Entering and leaving -/

/-- A call is entered where a further one is allowed, and nowhere else. -/
theorem call_eq_ok_iff {s inner : Setting} {name : String} {named : Dictionary String}
    {span : Source.Span} :
    s.call name named span = .ok inner ↔
      (s.calls.length : Int) < s.limits.callDepth ∧ inner = s.enterCall name named := by
  unfold Setting.call
  split
  · constructor
    · intro h; cases h
    · rintro ⟨hlt, -⟩; omega
  · constructor
    · intro h
      cases h
      exact ⟨by omega, rfl⟩
    · rintro ⟨-, rfl⟩; rfl

/-- A file is entered where a further one is allowed and it is not open already. -/
theorem including_eq_ok_iff {s inner : Setting} {path : Path} {display : String}
    {span : Source.Span} :
    s.including path display span = .ok inner ↔
      (s.includes.length : Int) < s.limits.includeDepth ∧ path ∉ s.includes ∧
        inner = { s with includes := s.includes ++ [path] } := by
  unfold Setting.including
  split
  · constructor
    · intro h; cases h
    · rintro ⟨hlt, -, -⟩; omega
  · split
    · rename_i hmem
      constructor
      · intro h; cases h
      · rintro ⟨-, hnot, -⟩
        exact absurd (List.contains_iff_mem.mp hmem) hnot
    · rename_i hlt hmem
      constructor
      · intro h
        cases h
        exact ⟨by omega, fun h => hmem (List.contains_iff_mem.mpr h), rfl⟩
      · rintro ⟨-, -, rfl⟩; rfl

theorem enter_call_eq_ok {e inner : Environment} {name : String} {named : Dictionary String}
    {span : Source.Span} {block : OpenBlock}
    (h : e.enter (.call name named span) = .ok (inner, block)) :
    ∃ setting, e.setting.call name named span = .ok setting ∧ inner = { e with setting } ∧
      block = .call e.setting.named := by
  simp only [enter] at h
  split at h
  · rename_i setting hcall
    cases h
    exact ⟨setting, hcall, rfl, rfl⟩
  · cases h

/-- Where fewer calls are open than the limit, another one can be opened. -/
theorem enter_call_of_lt {e : Environment}
    (h : (e.setting.calls.length : Int) < e.setting.limits.callDepth) (name : String)
    (named : Dictionary String) (span : Source.Span) : e.enter (.call name named span) =
      .ok ({ e with setting := e.setting.enterCall name named }, .call e.setting.named) := by
  have hcall : e.setting.call name named span = .ok (e.setting.enterCall name named) :=
    call_eq_ok_iff.mpr ⟨h, rfl⟩
  simp only [enter, hcall]

theorem enter_file_eq_ok {e inner : Environment} {path : Path} {display : String}
    {span : Source.Span} {block : OpenBlock}
    (h : e.enter (.file path display span) = .ok (inner, block)) :
    ∃ setting, e.setting.including path display span = .ok setting ∧
      inner = { e with setting } ∧ block = .file := by
  simp only [enter] at h
  split at h
  · rename_i setting hfile
    cases h
    exact ⟨setting, hfile, rfl, rfl⟩
  · cases h

/-- What entering a block does, for each kind of block. -/
theorem enter_cases {e inner : Environment} {o : Opening} {block : OpenBlock}
    (h : e.enter o = .ok (inner, block)) :
    (∃ locals, o = .frame locals ∧
      inner = e.mapStore (·.push locals) ∧ block = .frame) ∨
    (∃ name named span, o = .call name named span ∧
      (e.setting.calls.length : Int) < e.setting.limits.callDepth ∧
      inner = { e with setting := e.setting.enterCall name named } ∧
      block = .call e.setting.named) ∨
    (∃ path display span, o = .file path display span ∧
      (e.setting.includes.length : Int) < e.setting.limits.includeDepth ∧
      path ∉ e.setting.includes ∧
      inner = { e with setting := { e.setting with includes := e.setting.includes ++ [path] } } ∧
      block = .file) ∨
    (∃ path text, o = .source path text ∧
      inner = { e with setting := e.setting.reading path text } ∧
      block = .source e.setting.source e.setting.filename e.setting.folder) := by
  cases o with
  | frame locals =>
      cases h
      exact .inl ⟨locals, rfl, rfl, rfl⟩
  | call name named span =>
      obtain ⟨setting, hcall, rfl, rfl⟩ := enter_call_eq_ok h
      obtain ⟨hlt, rfl⟩ := call_eq_ok_iff.mp hcall
      exact .inr (.inl ⟨name, named, span, rfl, hlt, rfl, rfl⟩)
  | file path display span =>
      obtain ⟨setting, hfile, rfl, rfl⟩ := enter_file_eq_ok h
      obtain ⟨hlt, hnot, rfl⟩ := including_eq_ok_iff.mp hfile
      exact .inr (.inr (.inl ⟨path, display, span, rfl, hlt, hnot, rfl, rfl⟩))
  | source path text =>
      cases h
      exact .inr (.inr (.inr ⟨path, text, rfl, rfl, rfl⟩))

/-- Leaving a block right after entering it gives the same environment again. -/
theorem leave_enter {e inner : Environment} {o : Opening} {block : OpenBlock}
    (h : e.enter o = .ok (inner, block)) : inner.leave block = e := by
  obtain ⟨locals, -, rfl, rfl⟩ | ⟨name, named, span, -, -, rfl, rfl⟩ |
    ⟨path, display, span, -, -, -, rfl, rfl⟩ | ⟨path, text, -, rfl, rfl⟩ := enter_cases h
  · rfl
  · simp [leave, Setting.enterCall]
  · simp [leave]
  · rfl

/-- The setting after leaving a block hangs on the setting before alone. -/
theorem leave_setting_congr {e e' : Environment} (h : e'.setting = e.setting) (block : OpenBlock) :
    (e'.leave block).setting = (e.leave block).setting := by
  cases block <;> simp [leave, mapStore, h]

/-- Leaving a block adds no message. -/
theorem report_leave (e : Environment) (block : OpenBlock) :
    (e.leave block).store.report = e.store.report := by
  cases block <;> rfl

/-- **A block keeps the relation.**  If the work within a block restores the
environment within the block, then entering the block, doing the work and leaving the
block restores the environment outside. -/
theorem Restored.leave {e inner after : Environment} {o : Opening} {block : OpenBlock}
    (hin : e.enter o = .ok (inner, block)) (h : Restored inner after) :
    Restored e (after.leave block) := by
  have hsetting : (after.leave block).setting = e.setting := by
    rw [leave_setting_congr h.setting, leave_enter hin]
  obtain ⟨locals, -, rfl, rfl⟩ | ⟨name, named, span, -, -, rfl, rfl⟩ |
    ⟨path, display, span, -, -, -, rfl, rfl⟩ | ⟨path, text, -, rfl, rfl⟩ := enter_cases hin
  · -- within the frame the globals are hidden, and the frames outside are its tail
    have houter : after.store.frames.tail = e.store.frames := h.outer
    have hglobals : after.store.globals = e.store.globals :=
      h.globals (by simp [mapStore, Store.push])
    exact ⟨hsetting, congrArg List.length houter, congrArg List.tail houter,
      fun _ => hglobals, h.warnings, h.errors⟩
  · exact ⟨hsetting, h.frames_length, h.outer, h.globals, h.warnings, h.errors⟩
  · exact ⟨hsetting, h.frames_length, h.outer, h.globals, h.warnings, h.errors⟩
  · exact ⟨hsetting, h.frames_length, h.outer, h.globals, h.warnings, h.errors⟩

/-! ## Work that leaves no trace but messages -/

/-- The environment after some work that changed nothing and at most added messages. -/
structure Untouched (before after : Environment) : Prop where
  setting : after.setting = before.setting
  globals : after.store.globals = before.store.globals
  frames : after.store.frames = before.store.frames
  metadata : after.store.metadata = before.store.metadata
  functions : after.store.functions = before.store.functions
  warnings : before.store.report.warnings <+: after.store.report.warnings
  errors : before.store.report.errors <+: after.store.report.errors

namespace Untouched

variable {e e' e'' : Environment}

theorem refl (e : Environment) : Untouched e e :=
  ⟨rfl, rfl, rfl, rfl, rfl, List.prefix_refl _, List.prefix_refl _⟩

theorem trans (h : Untouched e e') (h' : Untouched e' e'') : Untouched e e'' where
  setting := h'.setting.trans h.setting
  globals := h'.globals.trans h.globals
  frames := h'.frames.trans h.frames
  metadata := h'.metadata.trans h.metadata
  functions := h'.functions.trans h.functions
  warnings := h.warnings.trans h'.warnings
  errors := h.errors.trans h'.errors

/-- Every variable is what it was. -/
theorem lookup (h : Untouched e e') : e'.store.lookup = e.store.lookup := by
  funext name
  rw [Store.lookup, Store.lookup, h.frames, h.globals]

theorem warn (e : Environment) (w : Problem.Warning) : Untouched e (e.mapStore (·.warn w)) :=
  ⟨rfl, rfl, rfl, rfl, rfl, List.prefix_append _ _, List.prefix_refl _⟩

/-- The inquiry is nothing that work could read. -/
theorem inquire (e : Environment) (i : Inquiry) :
    Untouched e (e.mapStore fun s => { s with inquiry := i }) :=
  ⟨rfl, rfl, rfl, rfl, rfl, List.prefix_refl _, List.prefix_refl _⟩

/-- Taking over what a copy found out adds messages and nothing else. -/
theorem adopt (e : Environment) (copy : Store) : Untouched e (e.mapStore (·.adopt copy)) :=
  ⟨rfl, rfl, rfl, rfl, rfl, List.prefix_append _ _, List.prefix_append _ _⟩

/-- Within a call the store is the one outside, and leaving the call brings the setting back. -/
theorem leave_call {inner after : Environment} {block : OpenBlock} {name : String}
    {named : Dictionary String} {span : Source.Span}
    (hin : e.enter (.call name named span) = .ok (inner, block)) (h : Untouched inner after) :
    Untouched e (after.leave block) := by
  have hsetting : (after.leave block).setting = e.setting := by
    rw [leave_setting_congr h.setting, leave_enter hin]
  obtain ⟨setting, -, rfl, rfl⟩ := enter_call_eq_ok hin
  exact ⟨hsetting, h.globals, h.frames, h.metadata, h.functions, h.warnings, h.errors⟩

end Untouched

end Livedoc.Environment
