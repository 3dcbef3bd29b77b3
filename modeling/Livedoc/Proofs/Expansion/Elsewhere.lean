import Livedoc.Proofs.Expansion.Following

/-!
# Text that could stand elsewhere

Where a text stands, that is, in which source and file, in which folder, and with which files
open around it, is asked for when a file is looked for or entered, and when something fails. So
nodes that include no file and do not break off come to the same at any other place
(`elsewhere_simulation`). Nor do they look at the errors recorded before, and they add the same
ones to them.

That nodes include no file is said by trying all files (`NeverIncludes`). It is seen from one run
in which no file can be read: if nodes do not break off there, they have looked for none
(`neverIncludes_of_blind`).
-/

namespace Livedoc

open Livedoc.Environment Livedoc.Expansion Livedoc.Problem Livedoc.Source Livedoc.Tree
open List (Sublist)

namespace Files

/-- No file can be read, whatever its path is. -/
def Blind (files : Files) : Prop := ∀ path, ∃ reason, files.look path = some (.unreadable reason)

/-- Files none of which can be read. -/
def blind : Files where
  look _ := some (.unreadable "")

theorem blind_blind : blind.Blind := fun _ => ⟨"", rfl⟩

end Files

/-- There is a folder to look in, so a search among such files meets one that cannot be read. -/
theorem Setting.searchInclude_of_blind {s : Setting} (h : s.files.Blind) (path : String) :
    ∃ reason, s.searchInclude path = .unreadable reason := by
  obtain ⟨reason, hlook⟩ := h (s.folder.join (.ofText path))
  exact ⟨reason, by simp only [searchInclude, candidates, List.map_cons, Files.search, hlook]⟩

namespace Environment

/-- The environment with other files. -/
def withFiles (e : Environment) (files : Files) : Environment :=
  { e with setting := { e.setting with files } }

/-- The environment at another place, with other errors and another inquiry. The limits, the
named arguments and the open calls are kept, and so is everything else in the store. -/
def moved (e : Environment) (place : Setting) (errors : List Error) (inquiry : Inquiry) :
    Environment where
  setting := { place with
    limits := e.setting.limits, named := e.setting.named, calls := e.setting.calls }
  store := { e.store with report := { e.store.report with errors }, inquiry }

end Environment

namespace Expansion

/-- No file is included on the way: whatever files there were, the nodes would expand to the same
and leave the same environment. An include looks for its file, and the expansion breaks off there
if the file cannot be read, so there is a difference as soon as one is executed that names a path. -/
def NeverIncludes (ns : List Node) (e : Environment) : Prop :=
  ∀ files, expandNodes ns (e.withFiles files) =
    ((expandNodes ns e).1, (expandNodes ns e).2.withFiles files)

variable {α : Type} {errors errors' : List Error} {inquiry : Inquiry} {e e' : Environment}

/-- No file can be read in the first environment. The second one is the first at another place,
where the same files are open or fewer. The first had `errors` at the start and the second
`errors'`, and what was added since is the same. -/
def Elsewhere (errors errors' : List Error) (inquiry : Inquiry) (e e' : Environment) : Prop :=
  e.setting.files.Blind ∧ ∃ place new, Sublist place.includes e.setting.includes ∧
    e.store.report.errors = errors ++ new ∧ e' = e.moved place (errors' ++ new) inquiry

/-! ## Steps -/

theorem inspect_elsewhere {f : Environment → α}
    (hf : ∀ e place es i, f (moved e place es i) = f e) :
    Follows (Elsewhere errors errors' inquiry) (inspect f) := by
  rintro e _ after a ⟨hblind, place, new, hincludes, herrors, rfl⟩ hrun
  cases hrun
  exact ⟨_, Prod.ext (congrArg Except.ok (hf e place _ _)) rfl, hblind, place, new, hincludes,
    herrors, rfl⟩

/-- Changes of the store that are not about errors are the same at any place. -/
theorem update_elsewhere {f : Store → Store}
    (hkeeps : ∀ s, (f s).report.errors = s.report.errors)
    (hcommutes : ∀ s es i, f { s with report := { s.report with errors := es }, inquiry := i } =
      { f s with report := { (f s).report with errors := es }, inquiry := i }) :
    Follows (Elsewhere errors errors' inquiry) (update f) := by
  rintro e _ after a ⟨hblind, place, new, hincludes, herrors, rfl⟩ hrun
  cases hrun
  exact ⟨_, rfl, hblind, place, new, hincludes, (hkeeps e.store).trans herrors,
    congrArg (Environment.mk _) (hcommutes e.store _ _)⟩

theorem assign_elsewhere (name : String) (value : Value) :
    Follows (Elsewhere errors errors' inquiry) (update (·.assign name value)) := by
  apply update_elsewhere
  · intro s
    cases hframes : s.frames <;> simp only [Store.assign, hframes]
  · intro s es i
    cases hframes : s.frames <;> simp only [Store.assign, hframes]

/-- Further errors are further ones in both environments. -/
theorem failAll_elsewhere (es : List Error) :
    Follows (Elsewhere errors errors' inquiry) (update (·.failAll es)) := by
  rintro e _ after a ⟨hblind, place, new, hincludes, herrors, rfl⟩ hrun
  cases hrun
  refine ⟨_, rfl, hblind, place, new ++ es, hincludes, ?_, ?_⟩
  · simp only [mapStore, Store.failAll, herrors, List.append_assoc]
  · simp only [mapStore, Store.failAll, moved, List.append_assoc]

/-- Looking for a file breaks off in the first environment. -/
theorem findFile_elsewhere (path : String) (span : Span) :
    Follows (Elsewhere errors errors' inquiry) (findFile path span) := by
  rintro e e' after a ⟨hblind, -⟩ hrun
  obtain ⟨reason, hsearch⟩ := Setting.searchInclude_of_blind hblind path
  simp only [findFile, hsearch] at hrun
  cases hrun

theorem primitive_elsewhere {m : Expansion α} (h : Primitive m) :
    Follows (Elsewhere errors errors' inquiry) m := by
  cases h with
  | lookup | holds | callee | named => exact inspect_elsewhere fun _ _ _ _ => rfl
  | count text span =>
      exact .iterationCount (inspect_elsewhere fun _ _ _ _ => rfl)
        (fun _ _ _ => update_elsewhere (fun _ => rfl) fun _ _ _ => rfl) text span
  | findFile path span => exact findFile_elsewhere path span
  | assign name value => exact assign_elsewhere name value
  | failAll es => exact failAll_elsewhere es
  | warn | record | define => exact update_elsewhere (fun _ => rfl) fun _ _ _ => rfl

/-! ## Blocks and copies -/

/-- Of a list that is a part of another one the same is true without their last elements. -/
theorem dropLast_sublist_dropLast {l l' : List Path} (h : Sublist l l') :
    Sublist l.dropLast l'.dropLast := by
  have htail := h.reverse.tail
  rw [List.tail_reverse, List.tail_reverse] at htail
  exact List.reverse_sublist.mp htail

/-- A block that can be entered can be entered at any place. -/
theorem enter_elsewhere {inner : Environment} {o : Opening} {block : OpenBlock}
    (h : Elsewhere errors errors' inquiry e e') (henter : e.enter o = .ok (inner, block)) :
    ∃ inner' block', e'.enter o = .ok (inner', block') ∧
      Elsewhere errors errors' inquiry inner inner' ∧
      ∀ {after after'}, Elsewhere errors errors' inquiry after after' →
        Elsewhere errors errors' inquiry (after.leave block) (after'.leave block') := by
  obtain ⟨hblind, place, new, hincludes, herrors, rfl⟩ := h
  obtain ⟨locals, rfl, rfl, rfl⟩ | ⟨name, named, span, rfl, hlt, rfl, rfl⟩ |
    ⟨path, display, span, rfl, hlt, hnot, rfl, rfl⟩ | ⟨path, text, rfl, rfl, rfl⟩ :=
      enter_cases henter
  · refine ⟨_, _, rfl, ⟨hblind, place, new, hincludes, herrors, rfl⟩, ?_⟩
    rintro after _ ⟨hblind, place, new, hincludes, herrors, rfl⟩
    exact ⟨hblind, place, new, hincludes, herrors, rfl⟩
  · have hcall : (e.moved place (errors' ++ new) inquiry).setting.call name named span =
        .ok ((e.moved place (errors' ++ new) inquiry).setting.enterCall name named) :=
      call_eq_ok_iff.mpr ⟨hlt, rfl⟩
    refine ⟨_, .call e.setting.named, ?_, ⟨hblind, place, new, hincludes, herrors, rfl⟩, ?_⟩
    · simp only [enter, hcall]
      rfl
    · rintro after _ ⟨hblind, place, new, hincludes, herrors, rfl⟩
      exact ⟨hblind, place, new, hincludes, herrors, rfl⟩
  · have hfewer : (place.includes.length : Int) < e.setting.limits.includeDepth :=
      Int.lt_of_le_of_lt (Int.ofNat_le.mpr hincludes.length_le) hlt
    have hfile : (e.moved place (errors' ++ new) inquiry).setting.including path display span =
        .ok { (e.moved place (errors' ++ new) inquiry).setting with
          includes := place.includes ++ [path] } :=
      including_eq_ok_iff.mpr ⟨hfewer, fun hmem => hnot (hincludes.subset hmem), rfl⟩
    refine ⟨_, .file, ?_, ⟨hblind, { place with includes := place.includes ++ [path] }, new,
      hincludes.append_right [path], herrors, rfl⟩, ?_⟩
    · simp only [enter, hfile]
      rfl
    · rintro after _ ⟨hblind, place, new, hincludes, herrors, rfl⟩
      exact ⟨hblind, { place with includes := place.includes.dropLast }, new,
        dropLast_sublist_dropLast hincludes, herrors, rfl⟩
  · refine ⟨_, _, rfl, ⟨hblind, place.reading path text, new, hincludes, herrors, rfl⟩, ?_⟩
    rintro after _ ⟨hblind, inner, new, hincludes, herrors, rfl⟩
    exact ⟨hblind, { inner with
      source := place.source, filename := place.filename, folder := place.folder }, new, hincludes,
      herrors, rfl⟩

/-- The messages that a copy has more are the same at any place. -/
theorem Elsewhere.adopt {copy copy' : Environment} (h : Elsewhere errors errors' inquiry e e')
    (hcopy : Elsewhere errors errors' inquiry copy copy') :
    Elsewhere errors errors' inquiry (e.mapStore (·.adopt copy.store))
      (e'.mapStore (·.adopt copy'.store)) := by
  obtain ⟨hblind, place, new, hincludes, herrors, rfl⟩ := h
  obtain ⟨-, -, more, -, hmore, rfl⟩ := hcopy
  refine ⟨hblind, place, new ++ more.drop new.length, hincludes, ?_, ?_⟩
  · simp [mapStore, Store.adopt, Report.extend, herrors, hmore, List.drop_append]
  · simp [mapStore, Store.adopt, Report.extend, moved, List.drop_append]

/-- **What is done where no file can be read is followed at any other place.** -/
theorem elsewhere_simulation : Simulation (Elsewhere errors errors' inquiry) where
  levels := by
    rintro e _ ⟨-, place, new, -, -, rfl⟩
    exact le_rfl
  primitive := primitive_elsewhere
  inBlock _ _ hm := hm.inBlock enter_elsewhere
  inIsolation hm := by
    refine hm.inIsolation ?_ Elsewhere.adopt
    rintro e _ ⟨hblind, place, new, hincludes, herrors, rfl⟩
    exact ⟨hblind, place, new, hincludes, herrors, rfl⟩

/-! ## Nodes -/

/-- **Nodes that look for no file come to the same at any other place**, if they do not break off,
and they add the same errors to other ones. -/
theorem expandNodes_moved {ns nodes : List Node} {after : Environment}
    (hblind : e.setting.files.Blind) (hrun : expandNodes ns e = (.ok nodes, after)) :
    ∃ new, after.store.report.errors = e.store.report.errors ++ new ∧
      ∀ (place : Setting) (errors : List Error) (inquiry : Inquiry),
        Sublist place.includes e.setting.includes →
          expandNodes ns (e.moved place errors inquiry) =
            (.ok nodes, after.moved place (errors ++ new) inquiry) := by
  have hrestored := (expandNodes_restores ns).restored hrun
  obtain ⟨new, hnew⟩ := hrestored.errors
  refine ⟨new, hnew.symm, fun place errors inquiry hincludes => ?_⟩
  have hrelated : Elsewhere e.store.report.errors errors inquiry e
      (e.moved place errors inquiry) :=
    ⟨hblind, place, [], hincludes, by simp, by simp⟩
  obtain ⟨_, hrun', -, place', new', -, hnew', rfl⟩ :=
    elsewhere_simulation.expandNodes ns e _ after nodes hrelated hrun
  obtain rfl : new' = new := List.append_cancel_left (hnew'.symm.trans hnew.symm)
  have hsetting : (after.moved place' (errors ++ new') inquiry).setting =
      (after.moved place (errors ++ new') inquiry).setting := by
    rw [((expandNodes_restores ns).restored hrun').setting]
    simp only [moved, hrestored.setting]
  rw [hrun']
  exact Prod.ext rfl (congrArg (Environment.mk · _) hsetting)

/-- Nodes that do not break off where no file can be read include none. -/
theorem neverIncludes_of_blind {ns nodes : List Node} {e : Environment}
    (h : (expandNodes ns (e.withFiles .blind)).1 = .ok nodes) : NeverIncludes ns e := by
  obtain ⟨new, -, hmoved⟩ := expandNodes_moved (e := e.withFiles .blind) Files.blind_blind
    (Prod.ext h rfl)
  have hfiles (files : Files) : expandNodes ns (e.withFiles files) =
      (.ok nodes, (expandNodes ns (e.withFiles .blind)).2.moved (e.withFiles files).setting
        (e.store.report.errors ++ new) e.store.inquiry) :=
    hmoved (e.withFiles files).setting e.store.report.errors e.store.inquiry (.refl _)
  intro files
  have hown := hfiles e.setting.files
  rw [show e.withFiles e.setting.files = e from rfl] at hown
  rw [hfiles files, hown]
  rfl

end Expansion

end Livedoc
