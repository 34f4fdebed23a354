import Socle.KeyedTable
import Socle.ModuleRegistry

/-!
Beat entries: the static schedule made of the periodic tasks that the modules of a
registry declare, and the declaration that the arguments of an entry lead back to.
-/

namespace Socle.BeatEntries

open Socle.KeyedTable
open Socle.TokenExchange (py)
open Socle.ModuleRegistry (ModuleManifest validateRegistry validateRegistry_eq_ok_iff Valid
  inNamespace name_eq_of_inNamespace dot_notMem_of_moduleNameMatches)

/-- `PeriodicTaskSpec`; a function stands for its identity. -/
structure PeriodicTaskSpec (S : Type) where
  name : String
  scheduleSeconds : S
  fn : Nat
  deriving DecidableEq

/-- A manifest with its periodic tasks in full. -/
structure Manifest (S : Type) extends ModuleManifest where
  tasks : List (PeriodicTaskSpec S)
  taskNames : periodicTasks = tasks.map (·.name)

/-- An entry of the beat: the key it is under, and its value. -/
structure BeatEntry (S : Type) where
  key : String
  task : String
  schedule : S
  args : String × String
  deriving DecidableEq

section Entries

variable {S : Type}

/-- `get_module`. -/
def getModule (modules : List (Manifest S)) (name : String) : Option (Manifest S) :=
  modules.find? fun manifest => manifest.name == name

/-- `_find_task`. -/
def findTask (modules : List (Manifest S)) (moduleName taskName : String) :
    Option (PeriodicTaskSpec S) :=
  match getModule modules moduleName with
  | none => none
  | some manifest => manifest.tasks.find? fun task => task.name == taskName

def entryOf (moduleName : String) (task : PeriodicTaskSpec S) : BeatEntry S where
  key := "module-" ++ task.name
  task := "automation.periodic_fanout"
  schedule := task.scheduleSeconds
  args := (moduleName, task.name)

/-- `beat_entries`: an entry takes the place of the one that its key had. -/
def beatEntries (modules : List (Manifest S)) : List (BeatEntry S) :=
  modules.foldl (fun entries manifest =>
    manifest.tasks.foldl (fun entries task =>
      upsert BeatEntry.key (entryOf manifest.name task) entries) entries) []

/-- The declarations of a registry, each with the name of its module. -/
def declarations (modules : List (Manifest S)) : List (String × PeriodicTaskSpec S) :=
  modules.flatMap fun manifest => manifest.tasks.map fun task => (manifest.name, task)

/-- Every declaration is scheduled, and its entry leads back to it. -/
def AllScheduled (modules : List (Manifest S)) : Prop :=
  (beatEntries modules).length = (declarations modules).length ∧
    ∀ declared ∈ declarations modules, ∃ entry ∈ beatEntries modules,
      entry.schedule = declared.2.scheduleSeconds ∧
        findTask modules entry.args.1 entry.args.2 = some declared.2

theorem beatEntries_eq (modules : List (Manifest S)) :
    beatEntries modules = upsertAll BeatEntry.key []
      ((declarations modules).map fun declared => entryOf declared.1 declared.2) := by
  rw [upsertAll, List.foldl_map, declarations, List.foldl_flatMap, beatEntries]
  congr 1
  funext entries manifest
  rw [List.foldl_map]

theorem nodup_keys_iff (modules : List (Manifest S)) :
    (((declarations modules).map fun declared =>
        entryOf declared.1 declared.2).map BeatEntry.key).Nodup ↔
      (modules.flatMap fun manifest => manifest.tasks.map (·.name)).Nodup := by
  have hkeys : ((declarations modules).map fun declared =>
        entryOf declared.1 declared.2).map BeatEntry.key =
      (modules.flatMap fun manifest => manifest.tasks.map (·.name)).map ("module-" ++ ·) := by
    rw [declarations, List.map_flatMap, List.map_flatMap, List.map_flatMap]
    congr 1
    funext manifest
    rw [List.map_map, List.map_map, List.map_map]
    rfl
  rw [hkeys]
  exact List.nodup_map_iff fun _ _ h => (String.append_right_inj "module-").mp h

theorem nodup_names_iff {modules : List (Manifest S)}
    (haccepted : validateRegistry (modules.map Manifest.toModuleManifest) = .ok ()) :
    (modules.flatMap fun manifest => manifest.tasks.map (·.name)).Nodup ↔
      ∀ manifest ∈ modules, (manifest.tasks.map (·.name)).Nodup := by
  obtain ⟨hvalid, hnodup⟩ := validateRegistry_eq_ok_iff.mp haccepted
  have hvalid' : ∀ manifest ∈ modules, Valid manifest.toModuleManifest := fun manifest hmem =>
    hvalid _ (List.mem_map_of_mem hmem)
  have hown : ∀ manifest ∈ modules, ∀ name ∈ manifest.tasks.map (·.name),
      inNamespace manifest.name name = true := fun manifest hmem name hname =>
    (hvalid' manifest hmem).periodicTasks name (manifest.taskNames ▸ hname)
  have hapart : modules.Pairwise (Function.onFun List.Disjoint fun manifest : Manifest S =>
      manifest.tasks.map (·.name)) := by
    rw [List.map_map, List.Nodup, List.pairwise_map] at hnodup
    refine hnodup.imp_of_mem fun {m m'} hm hm' hne => ?_
    intro name hname hname'
    exact hne (name_eq_of_inNamespace (dot_notMem_of_moduleNameMatches (hvalid' m hm).name)
      (dot_notMem_of_moduleNameMatches (hvalid' m' hm').name) (hown m hm name hname)
      (hown m' hm' name hname'))
  rw [List.nodup_flatMap]
  exact and_iff_left hapart

theorem getModule_of_mem {modules : List (Manifest S)}
    (hnames : (modules.map fun manifest => manifest.name).Nodup) {manifest : Manifest S}
    (hmem : manifest ∈ modules) : getModule modules manifest.name = some manifest :=
  (lookup_eq_some_iff hnames).mpr ⟨hmem, rfl⟩

theorem findTask_of_mem {modules : List (Manifest S)}
    (hnames : (modules.map fun manifest => manifest.name).Nodup) {manifest : Manifest S}
    (hmem : manifest ∈ modules) (htasks : (manifest.tasks.map (·.name)).Nodup)
    {task : PeriodicTaskSpec S} (htask : task ∈ manifest.tasks) :
    findTask modules manifest.name task.name = some task := by
  rw [findTask, getModule_of_mem hnames hmem]
  exact (lookup_eq_some_iff htasks).mpr ⟨htask, rfl⟩

/-- In an accepted registry every declaration is scheduled, under arguments that lead back
to it, exactly when no module declares two tasks of the same name. -/
theorem allScheduled_iff (modules : List (Manifest S))
    (haccepted : validateRegistry (modules.map Manifest.toModuleManifest) = .ok ()) :
    AllScheduled modules ↔ ∀ manifest ∈ modules, (manifest.tasks.map (·.name)).Nodup := by
  have hlength : (beatEntries modules).length = (declarations modules).length ↔
      ∀ manifest ∈ modules, (manifest.tasks.map (·.name)).Nodup := by
    rw [← nodup_names_iff haccepted, ← nodup_keys_iff, ← length_upsertAll_nil_iff,
      ← beatEntries_eq, List.length_map]
  refine ⟨fun h => hlength.mp h.1, fun htasks => ⟨hlength.mpr htasks, ?_⟩⟩
  have hnames : (modules.map fun manifest => manifest.name).Nodup := by
    have hnodup := (validateRegistry_eq_ok_iff.mp haccepted).2
    rwa [List.map_map] at hnodup
  have hkeys := (nodup_keys_iff modules).mpr ((nodup_names_iff haccepted).mpr htasks)
  intro declared hdeclared
  obtain ⟨manifest, hmem, hpair⟩ := List.mem_flatMap.mp hdeclared
  obtain ⟨task, htask, rfl⟩ := List.mem_map.mp hpair
  have hentry := lookup_upsertAll_of_mem [] hkeys (List.mem_map_of_mem hdeclared)
  rw [← beatEntries_eq] at hentry
  exact ⟨_, (mem_of_lookup hentry).1, rfl,
    findTask_of_mem hnames hmem (htasks manifest hmem) htask⟩

end Entries

/-- The manifest of `sample_digest`, with its daily task. -/
def sampleDigest : Manifest Nat where
  toModuleManifest := ModuleRegistry.sampleDigest
  tasks := [⟨"sample_digest.daily_digest", 86400, 0⟩]
  taskNames := rfl

theorem sampleDigest_scheduled : AllScheduled [sampleDigest] :=
  (allScheduled_iff [sampleDigest] (by decide +kernel)).mpr (by decide)

/-- A module that declares two tasks of one name. -/
def reports : Manifest Nat where
  name := "reports"
  router := []
  periodicTasks := ["reports.send", "reports.send"]
  tasks := [⟨"reports.send", 86400, 0⟩, ⟨"reports.send", 3600, 1⟩]
  taskNames := rfl

/-- The second task takes the entry of the first, whose function it never runs. -/
theorem one_entry_for_two_tasks :
    validateRegistry [reports.toModuleManifest] = .ok () ∧
      beatEntries [reports] = [⟨"module-reports.send", "automation.periodic_fanout", 3600,
        ("reports", "reports.send")⟩] ∧
      findTask [reports] "reports" "reports.send" = some ⟨"reports.send", 86400, 0⟩ ∧
      ¬ AllScheduled [reports] := by
  refine ⟨by decide +kernel, by decide +kernel, by decide +kernel, fun h => ?_⟩
  exact absurd h.1 (by decide +kernel)

end Socle.BeatEntries
