import Livedoc.Command.Run
import Livedoc.Proofs.Expansion.Unfolding

/-!
# The files that a run includes

An include is looked for in the folder of the document, then in the folders that the configuration
names, and then in those that the arguments name.  The first file that is there is taken, so the
configuration comes before the arguments, other than with every option that is settled by one of
them alone (`searchInclude_eq_found_iff`).

A search notes the paths of which nothing is known.  Where something is known of every path, a
compilation notes none (`compile_unknown`).
-/

namespace Livedoc

open Livedoc.Environment Livedoc.Expansion Livedoc.Source Livedoc.Tree

namespace Files

variable {files : Files} {paths : List Path} {path : Path} {text : String}

/-! ## Searching -/

/-- No file is known to be at a path. -/
def Lacks (files : Files) (path : Path) : Prop :=
  files.look path = some .absent ∨ files.look path = none

/-- The first file at one of several paths, by its resolved path, with its text. -/
def First (files : Files) (paths : List Path) (path : Path) (text : String) : Prop :=
  ∃ before candidate after, paths = before ++ candidate :: after ∧
    (∀ other ∈ before, files.Lacks other) ∧ files.look candidate = some (.text text) ∧
    path = files.folder.resolve candidate

theorem Lacks.look_ne (h : files.Lacks path) : files.look path ≠ some (.text text) := by
  rcases h with h | h <;> simp [h]

/-- The first file is at the first path, or there is none and it is at one of the others. -/
theorem first_cons_iff {candidate : Path} : files.First (candidate :: paths) path text ↔
    (files.look candidate = some (.text text) ∧ path = files.folder.resolve candidate) ∨
      (files.Lacks candidate ∧ files.First paths path text) := by
  constructor
  · rintro ⟨before, found, after, hpaths, hbefore, hlook, hpath⟩
    cases before with
    | nil =>
        cases hpaths
        exact .inl ⟨hlook, hpath⟩
    | cons first before =>
        cases hpaths
        obtain ⟨hfirst, hbefore⟩ := List.forall_mem_cons.mp hbefore
        exact .inr ⟨hfirst, before, found, after, rfl, hbefore, hlook, hpath⟩
  · rintro (⟨hlook, hpath⟩ | ⟨hlacks, before, found, after, rfl, hbefore, hlook, hpath⟩)
    · exact ⟨[], candidate, paths, rfl, nofun, hlook, hpath⟩
    · exact ⟨candidate :: before, found, after, rfl, List.forall_mem_cons.mpr ⟨hlacks, hbefore⟩,
        hlook, hpath⟩

theorem not_first_nil : ¬files.First [] path text := by
  rintro ⟨before, candidate, after, hpaths, -⟩
  simp at hpaths

/-- **A search finds the first file.** -/
theorem search_eq_found_iff :
    files.search paths = .found path text ↔ files.First paths path text := by
  induction paths with
  | nil => exact iff_of_false nofun not_first_nil
  | cons candidate paths ih =>
      rw [search, first_cons_iff, ← ih]
      cases hlook : files.look candidate with
      | none => simp [Lacks, hlook]
      | some content => cases content <;> simp [Lacks, hlook, and_comm, eq_comm]

/-- What comes first among some paths comes before what is first among others. -/
theorem first_append_iff {others : List Path} : files.First (paths ++ others) path text ↔
    files.First paths path text ∨
      ((∀ candidate ∈ paths, files.Lacks candidate) ∧ files.First others path text) := by
  induction paths with
  | nil => simp [not_first_nil]
  | cons candidate paths ih =>
      rw [List.cons_append, first_cons_iff, first_cons_iff, ih, List.forall_mem_cons]
      tauto

end Files

namespace Command

open Livedoc.Text

/-! ## Folders -/

variable {a : Arguments} {input : Path} {config : Table} {o : Options}

/-- The folders that a configuration names, seen from the folder of the input. -/
def configuredFolders (config : Table) (input : Path) : List Path :=
  ((config.table "compile").list "include_paths").map fun d => input.parent.join (.ofText d.toText)

/-- The folders that the arguments name. -/
def givenFolders (a : Arguments) : List Path := a.includePaths.map .ofText

/-- What options take over from the arguments, the input and the configuration. -/
structure Options.Follows (o : Options) (a : Arguments) (input : Path) (config : Table) : Prop where
  includePaths : o.includePaths = configuredFolders config input ++ givenFolders a
  output : o.output = givenPath? a.output
  standalone : o.standalone = !a.fragment
  watch : o.watch = a.watch
  input : o.input = input

theorem resolve_follows (h : Options.resolve a input config = .ok o) :
    o.Follows a input config := by
  unfold Options.resolve at h
  simp only [bind, Except.bind, pure, Except.pure] at h
  split at h
  · cases h
  · split at h
    · cases h
    · split at h
      · cases h
      · cases h
        exact ⟨rfl, rfl, rfl, rfl, rfl⟩

/-- **The folders of the configuration come before those of the arguments.**  Where an include
names no file in the folder of the document, the file that is found is the first one in the folders
of the configuration, and if there is none in these, the first one in the folders of the arguments. -/
theorem searchInclude_eq_found_iff (ho : Options.resolve a input config = .ok o) {s : Setting}
    (hs : s.includePaths = o.includePaths) {name : String}
    (hfolder : s.files.Lacks (s.folder.join (.ofText name))) (path : Path) (text : String) :
    s.searchInclude name = .found path text ↔
      s.files.First ((configuredFolders config input).map (·.join (.ofText name))) path text ∨
        ((∀ folder ∈ configuredFolders config input, s.files.Lacks (folder.join (.ofText name))) ∧
          s.files.First ((givenFolders a).map (·.join (.ofText name))) path text) := by
  have hcandidates : s.candidates name = s.folder.join (.ofText name) ::
      ((configuredFolders config input).map (·.join (.ofText name)) ++
        (givenFolders a).map (·.join (.ofText name))) := by
    rw [Setting.candidates, List.map_cons, hs, (resolve_follows ho).includePaths, List.map_append]
  rw [Setting.searchInclude, hcandidates, Files.search_eq_found_iff, Files.first_cons_iff,
    Files.first_append_iff, List.forall_mem_map]
  refine or_iff_right_of_imp ?_ |>.trans (and_iff_right hfolder)
  exact fun hfound => absurd hfound.1 hfolder.look_ne

/-- A configuration that names a folder. -/
def configuresFolder : Table := [("compile", .table [("include_paths", .list [.text "cfg"])])]

/-- Arguments that name a folder. -/
def givesFolder : Arguments := { input := some "d.dd", includePaths := ["cli"] }

/-- A disk with a file of one name in both folders. -/
def bothFolders : Disk :=
  .ofFiles (.ofText "/w")
    [(["w", "cfg", "a.dd"], encodeUtf8 "config"), (["w", "cli", "a.dd"], encodeUtf8 "cli")]

/-- The setting of a document on the disk, under the options of a run. -/
def settingOnBoth (o : Options) : Setting :=
  ((o.compileOptions bothFolders.files ⟨2024, 3, 9, 12, 0, 0, 0⟩).environment "" []).setting

theorem searchInclude_eq_found_both :
    ∃ o, Options.resolve givesFolder (.ofText "d.dd") configuresFolder = .ok o ∧
      (settingOnBoth o).includePaths = o.includePaths ∧
      (settingOnBoth o).files.Lacks ((settingOnBoth o).folder.join (.ofText "a.dd")) ∧
      (settingOnBoth o).searchInclude "a.dd" = .found ⟨true, ["w", "cfg", "a.dd"]⟩ "config" := by
  have ho : Options.resolve givesFolder (.ofText "d.dd") configuresFolder = .ok _ := rfl
  refine ⟨_, ho, rfl, .inl (by decide +kernel), ?_⟩
  refine (searchInclude_eq_found_iff ho rfl (.inl (by decide +kernel)) _ _).mpr (.inl ?_)
  exact ⟨[], _, [], rfl, nofun, by decide +kernel, by decide +kernel⟩

/-- **A folder of the arguments does not come before one of the configuration**: where both have
the file, it is not taken from the former. -/
theorem searchInclude_not_given :
    ∃ o, Options.resolve givesFolder (.ofText "d.dd") configuresFolder = .ok o ∧
      (settingOnBoth o).files.Lacks ((settingOnBoth o).folder.join (.ofText "a.dd")) ∧
      (∃ folder ∈ configuredFolders configuresFolder (.ofText "d.dd"),
        bothFolders.files.look (folder.join (.ofText "a.dd")) = some (.text "config")) ∧
      (∃ folder ∈ givenFolders givesFolder,
        bothFolders.files.look (folder.join (.ofText "a.dd")) = some (.text "cli")) ∧
      ∃ path, (settingOnBoth o).searchInclude "a.dd" = .found path "config" ∧
        ∀ folder ∈ givenFolders givesFolder,
          path ≠ bothFolders.folder.resolve (folder.join (.ofText "a.dd")) := by
  refine ⟨_, rfl, .inl (by decide +kernel), ⟨.ofText "cfg", ?_, by decide +kernel⟩,
    ⟨.ofText "cli", ?_, by decide +kernel⟩, ⟨true, ["w", "cfg", "a.dd"]⟩, by decide +kernel, ?_⟩
  · exact List.mem_singleton.mpr rfl
  · exact List.mem_singleton.mpr rfl
  · decide +kernel

end Command

namespace Files

variable {files : Files}

/-! ## Asking -/

/-- Something is known of every path. -/
def Known (files : Files) : Prop := ∀ path, files.look path ≠ none

theorem Known.unknown_eq_nil (h : files.Known) (paths : List Path) : files.unknown paths = [] := by
  induction paths with
  | nil => rfl
  | cons path paths ih =>
      rw [unknown]
      cases hlook : files.look path with
      | none => exact absurd hlook (h path)
      | some content => cases content <;> first | rfl | exact ih

end Files

/-- Something is known of every path, and no path was noted as unknown. -/
structure Environment.Answered (e : Environment) : Prop where
  known : e.setting.files.Known
  unknown : e.store.inquiry.unknown = []

namespace Expansion

variable {α β : Type}

/-- The step notes no path where something is known of every path. -/
abbrev KeepsAnswered (m : Expansion α) : Prop :=
  Maintains Answered (fun _ => True) (fun _ => True) m

namespace KeepsAnswered

theorem update {f : Store → Store} (hf : ∀ s, (f s).inquiry = s.inquiry) :
    KeepsAnswered (update f) :=
  Maintains.update fun e he => ⟨he.known, by rw [mapStore, hf]; exact he.unknown⟩

theorem inBlock (o : Opening) {m : Expansion α} (hm : KeepsAnswered m) :
    KeepsAnswered (inBlock o m) := by
  refine Maintains.inBlock hm (fun _ _ _ => True.intro) fun e inner block he henter => ?_
  have hleave (after : Environment) (block : OpenBlock) (h : after.Answered) :
      (after.leave block).Answered := by
    cases block <;> exact ⟨h.known, h.unknown⟩
  refine ⟨?_, fun after => hleave after block⟩
  obtain ⟨locals, -, rfl, -⟩ | ⟨name, named, span, -, -, rfl, -⟩ |
    ⟨path, display, span, -, -, -, rfl, -⟩ | ⟨path, text, -, rfl, -⟩ := enter_cases henter
  all_goals exact ⟨he.known, he.unknown⟩

/-- What was noted in isolation is taken over. -/
theorem inIsolation {m : Expansion α} (hm : KeepsAnswered m) : KeepsAnswered (inIsolation m) := by
  intro e he
  have hcopy := (hm e.clone ⟨he.known, he.unknown⟩).1
  rcases hrun : m e.clone with ⟨result, copy⟩
  rw [hrun] at hcopy
  refine ⟨?_, fun _ _ => True.intro, fun _ _ => True.intro⟩
  cases result with
  | ok a =>
      rw [inIsolation_ok hrun]
      exact ⟨he.known, hcopy.unknown⟩
  | error f =>
      rw [inIsolation_error hrun]
      exact ⟨he.known, hcopy.unknown⟩

theorem findFile (path : String) (span : Span) : KeepsAnswered (findFile path span) := by
  intro e he
  have hasked : (e.mapStore
      (·.askFor (e.setting.files.unknown (e.setting.candidates path)))).Answered :=
    ⟨he.known, by simp [mapStore, Store.askFor, he.known.unknown_eq_nil, he.unknown]⟩
  refine ⟨?_, fun _ _ => True.intro, fun _ _ => True.intro⟩
  simp only [Expansion.findFile]
  split <;> exact hasked

theorem primitive {m : Expansion α} (h : Primitive m) : KeepsAnswered m := by
  cases h with
  | lookup | holds | callee | named => exact Maintains.look _
  | count text span =>
      exact iterationCount_of (P := fun _ => KeepsAnswered) (fun _ => Maintains.pure True.intro)
        Maintains.andThen (Maintains.look _) (fun _ _ _ => update fun _ => rfl) text span
  | findFile path span => exact findFile path span
  | assign name value =>
      refine update fun s => ?_
      rw [Store.assign]
      split <;> rfl
  | warn | record | define | failAll => exact update fun _ => rfl

end KeepsAnswered

end Expansion

end Livedoc
