import DecoderTables.Proofs.Files.Installation

/-!
Artifacts that do not get in each other's way: their files and their temporary files are all
different. For them the two passes of a writing amount to one change of contents.
-/

namespace DecoderTables
open Disk

/-- The files of artifacts and their temporary files. -/
def artifactPaths (artifacts : List Artifact) : List Path :=
  artifacts.map (·.path) ++ artifacts.map (·.temporary)

structure Separate (place : Path → Place) (artifacts : List Artifact) : Prop where
  files : (artifacts.map (place ·.path)).Nodup
  temporaries : (artifacts.map (place ·.temporary)).Nodup
  apart : ∀ artifact ∈ artifacts, ∀ other ∈ artifacts,
    place artifact.path ≠ place other.temporary

theorem separate_iff (place : Path → Place) (artifacts : List Artifact) :
    Separate place artifacts ↔ ((artifactPaths artifacts).map place).Nodup := by
  rw [artifactPaths, List.map_append, List.map_map, List.map_map, List.nodup_append]
  simp only [List.forall_mem_map]
  apply Iff.intro
  · intro given
    obtain ⟨files, temporaries, apart⟩ := given
    exact ⟨files, temporaries, apart⟩
  · intro given
    obtain ⟨files, temporaries, apart⟩ := given
    exact ⟨files, temporaries, apart⟩

namespace Separate

variable {place : Path → Place} {artifacts few : List Artifact} {artifact : Artifact}
  (separate : Separate place artifacts)
include separate

theorem of_sublist (part : few.Sublist artifacts) : Separate place few where
  files := separate.files.sublist (part.map _)
  temporaries := separate.temporaries.sublist (part.map _)
  apart artifact member other otherMember :=
    separate.apart artifact (part.subset member) other (part.subset otherMember)

theorem ordered :
    artifacts.Pairwise fun earlier later => place earlier.path ≠ place later.temporary :=
  List.pairwise_of_forall_mem_list separate.apart

section Members

variable (member : artifact ∈ artifacts) (listed : few ⊆ artifacts)
include member listed

theorem path_not_mem_temporaries : place artifact.path ∉ few.map (place ·.temporary) := by
  intro inside
  obtain ⟨other, known, same⟩ := List.mem_map.mp inside
  exact separate.apart artifact member other (listed known) same.symm

theorem temporary_not_mem_files : place artifact.temporary ∉ few.map (place ·.path) := by
  intro inside
  obtain ⟨other, known, same⟩ := List.mem_map.mp inside
  exact separate.apart other (listed known) artifact member same

theorem path_not_mem_files (other : artifact ∉ few) :
    place artifact.path ∉ few.map (place ·.path) := by
  intro inside
  obtain ⟨found, known, same⟩ := List.mem_map.mp inside
  rw [List.inj_on_of_nodup_map separate.files (listed known) member same] at known
  exact other known

theorem temporary_not_mem_temporaries (other : artifact ∉ few) :
    place artifact.temporary ∉ few.map (place ·.temporary) := by
  intro inside
  obtain ⟨found, known, same⟩ := List.mem_map.mp inside
  rw [List.inj_on_of_nodup_map separate.temporaries (listed known) member same] at known
  exact other known

end Members

/-! What both passes leave. -/

variable (contents : Contents)

theorem installed_path (member : artifact ∈ artifacts) :
    artifacts.foldl (settle place) (artifacts.foldl (stage place) contents)
      (place artifact.path) = some artifact.text.toUTF8 :=
  settle_file separate.files separate.temporaries separate.ordered
    (stage_temporary separate.temporaries) artifact member

theorem installed_temporary (member : artifact ∈ artifacts) :
    artifacts.foldl (settle place) (artifacts.foldl (stage place) contents)
      (place artifact.temporary) = none :=
  settle_temporary_eq_none member
    (separate.temporary_not_mem_files member (List.Subset.refl artifacts))

omit separate in
theorem installed_other {other : Place} (files : other ∉ artifacts.map (place ·.path))
    (temporaries : other ∉ artifacts.map (place ·.temporary)) :
    artifacts.foldl (settle place) (artifacts.foldl (stage place) contents) other =
      contents other := by
  rw [settle_of_not_mem files temporaries, stage_of_not_mem temporaries]

/-- Artifacts that are in place already stay as they are. -/
theorem installed_eq_self
    (held : ∀ artifact ∈ artifacts, contents (place artifact.path) = some artifact.text.toUTF8)
    (cleared : ∀ artifact ∈ artifacts, contents (place artifact.temporary) = none) :
    artifacts.foldl (settle place) (artifacts.foldl (stage place) contents) = contents := by
  funext other
  by_cases files : other ∈ artifacts.map (place ·.path)
  · obtain ⟨artifact, member, rfl⟩ := List.mem_map.mp files
    rw [separate.installed_path contents member, held artifact member]
  by_cases temporaries : other ∈ artifacts.map (place ·.temporary)
  · obtain ⟨artifact, member, rfl⟩ := List.mem_map.mp temporaries
    rw [separate.installed_temporary contents member, cleared artifact member]
  exact installed_other contents files temporaries

end Separate

end DecoderTables
