import JavaMachine.Loading
import JavaMachine.Proofs.Files
import JavaMachine.Proofs.Soundness
import Mathlib.Algebra.GroupWithZero.Nat

/-!
# How many classes sources have

A class file declares one name, so a source has no more classes that are called what they are asked
for than it holds files. This bounds the places at which loaders can define classes.
-/

namespace JavaMachine

/-! ### File systems -/

namespace FileSystem

/-- The content of a file. -/
def FileNode.content? : FileNode → Option (List UInt8)
  | .directory => none
  | .file content => some content

/-- The contents of all files. -/
def contents : FileSystem → List (List UInt8)
  | tree entries => entries.filterMap fun entry => FileNode.content? entry.2
  | answers known => known.values.filterMap fun found => found.toOption.bind FileNode.content?

theorem length_contents_le (files : FileSystem) : files.contents.length ≤ files.size := by
  cases files with
  | tree entries => exact List.length_filterMap_le _ _
  | answers known =>
      have bound := List.length_filterMap_le
        (fun found : Except FileFault FileNode => found.toOption.bind FileNode.content?)
        known.values
      rwa [Table.values, List.length_map] at bound

theorem walkOutside_ne_file (components : List String) (content : List UInt8) :
    walkOutside components ≠ .ok (.file content) := by
  induction components with
  | nil => exact nofun
  | cons component rest inductionHypothesis =>
      rw [walkOutside]
      split
      · exact inductionHypothesis
      · split <;> exact nofun

/-- Walks end at files of the tree. -/
theorem mem_of_walk {entries : List (List String × FileNode)} {place components : List String}
    {content : List UInt8} (found : walk entries place components = .ok (.file content)) :
    ∃ entry ∈ entries, entry.2 = .file content := by
  induction components generalizing place with
  | nil =>
      rw [walk] at found
      split at found
      next node known =>
        cases found
        rw [nodeIn] at known
        split at known
        next entry among =>
          exact ⟨entry, List.mem_of_find?_eq_some among, Option.some_inj.1 known⟩
        · split at known <;> cases known
      · cases found
  | cons component rest inductionHypothesis =>
      rw [walk] at found
      split at found
      · cases found
      · cases found
      · split at found
        · exact inductionHypothesis found
        · split at found
          · split at found
            · exact absurd found (walkOutside_ne_file rest content)
            · exact inductionHypothesis found
          · split at found
            · cases found
            · exact inductionHypothesis found

theorem mem_contents_of_read {files : FileSystem} {path : String} {content : List UInt8}
    (read : files.read path = .ok content) : content ∈ files.contents := by
  have located : files.locate path = .ok (.file content) := by
    rw [FileSystem.read] at read
    split at read
    next found =>
      cases read
      exact found
    · cases read
    · cases read
  unfold locate at located
  split at located
  · cases located
  · split at located
    next known =>
      cases found : known.find? path with
      | none =>
          rw [found] at located
          cases located
      | some answer =>
          rw [found, Option.getD_some] at located
          refine List.mem_filterMap.2 ⟨answer, Table.mem_values_of_find? found, ?_⟩
          rw [located]
          rfl
    next entries =>
      split at located
      · cases located
      · split at located
        · exact absurd located (walkOutside_ne_file _ content)
        · obtain ⟨entry, membership, same⟩ := mem_of_walk located
          exact List.mem_filterMap.2 ⟨entry, membership, by rw [same]; rfl⟩

end FileSystem

/-! ### Sources -/

/-- The name that a class file declares, given its bytes. -/
def ClassFile.declaredBy? (bytes : List UInt8) : Option String :=
  (ClassFile.parse bytes).toOption.bind ClassFile.name?

namespace Source

/-- The names that the class files of a source declare. -/
def declared : Source → List String
  | memory classes => classes.values.filterMap ClassFile.name?
  | directory files _ => files.contents.filterMap ClassFile.declaredBy?
  | archive _ _ content =>
      content.entries.filterMap fun entry =>
        (content.dataOf entry).toOption.bind ClassFile.declaredBy?

theorem length_declared_le (source : Source) : source.declared.length ≤ source.capacity := by
  cases source with
  | memory classes =>
      have bound := List.length_filterMap_le ClassFile.name? classes.values
      rwa [Table.values, List.length_map] at bound
  | directory files base =>
      exact Nat.le_trans (List.length_filterMap_le _ _) files.length_contents_le
  | archive path folder content => exact List.length_filterMap_le _ _

theorem declaredBy?_of_parseNamed {name : String} {bytes : List UInt8} {file : ClassFile}
    (parsed : parseNamed name bytes = .ok file) : ClassFile.declaredBy? bytes = file.name? := by
  rw [parseNamed] at parsed
  split at parsed
  next known =>
    cases parsed
    rw [ClassFile.declaredBy?, known]
    rfl
  · cases parsed

/-- A source is asked for a class by the name that the file declares. -/
theorem mem_declared {source : Source} {name : String} {file : ClassFile}
    (found : source.find? name = .ok (some file)) (named : file.name? = some name) :
    name ∈ source.declared := by
  have parsed {bytes : List UInt8} (same : (parseNamed name bytes).map some = .ok (some file)) :
      ClassFile.declaredBy? bytes = some name := by
    cases known : parseNamed name bytes with
    | error cause =>
        rw [known] at same
        cases same
    | ok own =>
        rw [known] at same
        cases same
        rw [declaredBy?_of_parseNamed known, named]
  cases source with
  | memory classes =>
      have known : classes.find? name = some file := Except.ok.inj found
      exact List.mem_filterMap.2 ⟨file, Table.mem_values_of_find? known, named⟩
  | directory files base =>
      rw [Source.find?] at found
      split at found
      next bytes read =>
        exact List.mem_filterMap.2 ⟨bytes, FileSystem.mem_contents_of_read read, parsed found⟩
      · cases found
      · cases found
  | archive path folder content =>
      rw [Source.find?] at found
      split at found
      next bytes read =>
        rw [Archive.read?] at read
        split at read
        · cases read
        next entry among =>
          cases unpacked : content.dataOf entry with
          | error fault =>
              rw [unpacked] at read
              cases read
          | ok data =>
              rw [unpacked] at read
              cases read
              have membership := List.mem_reverse.1 (List.mem_of_find?_eq_some among)
              refine List.mem_filterMap.2 ⟨entry, membership, ?_⟩
              rw [unpacked]
              exact parsed found
      · cases found
      · cases found

theorem exists_of_findFirst? {sources : List Source} {name : String} {file : ClassFile}
    (found : findFirst? sources name = .ok (some file)) :
    ∃ source ∈ sources, source.find? name = .ok (some file) := by
  induction sources with
  | nil => cases found
  | cons source rest inductionHypothesis =>
      cases known : source.find? name with
      | error cause =>
          rw [findFirst?, known] at found
          cases found
      | ok own =>
          rw [findFirst?_cons known] at found
          cases own with
          | some own =>
              cases found
              exact ⟨source, List.mem_cons_self, known⟩
          | none =>
              obtain ⟨other, among, has⟩ := inductionHypothesis found
              exact ⟨other, List.mem_cons_of_mem _ among, has⟩

end Source

/-! ### Places -/

namespace World

variable {world : World} {loader : LoaderId} {name : String} {file : ClassFile}

/-- The places of classes: loaders with the names that their class files declare. -/
def places (world : World) : List (LoaderId × String) :=
  world.loaders.toList.zipIdx.flatMap fun (loader, index) =>
    loader.sources.flatMap fun source => source.declared.map fun name => (⟨index⟩, name)

/-- The limit depends on the sources alone. -/
theorem definitionLimit_eq {later : World} (size : later.loaders.size = world.loaders.size)
    (sources : ∀ loader, (later.loader loader).sources = (world.loader loader).sources) :
    later.definitionLimit = world.definitionLimit := by
  have same : later.loaders.toList.map Loader.sources =
      world.loaders.toList.map Loader.sources := by
    refine List.ext_getElem (by simp [size]) fun index present presentToo => ?_
    have equal := sources ⟨index⟩
    simp only [List.length_map, Array.length_toList] at present presentToo
    simpa [World.loader, present, presentToo] using equal
  rw [definitionLimit, definitionLimit, List.flatMap, List.flatMap, same]

theorem length_flatMap_declared_le (index : Nat) (sources : List Source) :
    (sources.flatMap fun source =>
      source.declared.map fun name => (LoaderId.mk index, name)).length ≤
        (sources.map Source.capacity).sum := by
  induction sources with
  | nil => exact Nat.le_refl _
  | cons source rest inductionHypothesis =>
      rw [List.flatMap_cons, List.length_append, List.length_map, List.map_cons, List.sum_cons]
      exact Nat.add_le_add source.length_declared_le inductionHypothesis

theorem length_places_lt (world : World) : world.places.length < world.definitionLimit := by
  have sums (sources : List Source) (start : Nat) :
      sources.foldl (fun total source => total + source.capacity) start =
        start + (sources.map Source.capacity).sum := by
    induction sources generalizing start with
    | nil => rfl
    | cons source rest inductionHypothesis =>
        rw [List.foldl_cons, inductionHypothesis, List.map_cons, List.sum_cons, Nat.add_assoc]
  have bound (loaders : List Loader) (start : Nat) :
      ((loaders.zipIdx start).flatMap fun (loader, index) => loader.sources.flatMap fun source =>
        source.declared.map fun name => (LoaderId.mk index, name)).length ≤
          ((loaders.flatMap Loader.sources).map Source.capacity).sum := by
    induction loaders generalizing start with
    | nil => exact Nat.le_refl _
    | cons loader rest inductionHypothesis =>
        rw [List.zipIdx_cons, List.flatMap_cons, List.length_append, List.flatMap_cons,
          List.map_append, List.sum_append]
        exact Nat.add_le_add (length_flatMap_declared_le start loader.sources)
          (inductionHypothesis (start + 1))
  rw [definitionLimit, sums, Nat.zero_add]
  exact Nat.lt_succ_of_le (bound world.loaders.toList 0)

/-- A loader has a place for each file that declares the name for which it is found. -/
theorem mem_places (found : world.fileFor loader name = .ok (some file))
    (named : file.name? = some name) : (loader, name) ∈ world.places := by
  obtain ⟨source, among, has⟩ := Source.exists_of_findFirst? found
  have present : loader.index < world.loaders.size := by
    apply Decidable.byContradiction
    intro absent
    have none : world.loader loader = default := by
      simp [World.loader, Nat.not_lt.1 absent]
    rw [none] at among
    cases among
  have listed : (world.loader loader, loader.index) ∈ world.loaders.toList.zipIdx := by
    rw [List.mem_zipIdx_iff_getElem?, Array.getElem?_toList, World.loader,
      Array.getD_eq_getD_getElem?, Array.getElem?_eq_getElem present]
    rfl
  refine List.mem_flatMap.2 ⟨_, listed, List.mem_flatMap.2 ⟨source, among, ?_⟩⟩
  exact List.mem_map_of_mem (Source.mem_declared has named)

end World
end JavaMachine
