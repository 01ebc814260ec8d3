import Mathlib.Data.List.Basic
import Mathlib.Logic.Function.Basic

/-! # A medium with a write cache

A write is visible to reads at once, but it is sure to be on the medium only after
a flush. When the power fails, any of the writes since the last flush may have
reached the medium. `Every` says that something holds of all contents a power
failure can leave; the rules below say how a write and a flush change that.
-/

structure Medium (κ ν : Type) where
  durable : κ → ν
  pending : List (κ × ν)

namespace Medium

variable {κ ν : Type} [DecidableEq κ]

/-- Contents after some writes, the first one first. -/
def apply (image : κ → ν) (writes : List (κ × ν)) : κ → ν :=
  writes.foldl (fun image write => Function.update image write.1 write.2) image

section

variable (medium : Medium κ ν)

/-- What reads see. -/
def contents : κ → ν :=
  apply medium.durable medium.pending

def write (key : κ) (value : ν) : Medium κ ν :=
  { medium with pending := medium.pending ++ [(key, value)] }

def flush : Medium κ ν where
  durable := medium.contents
  pending := []

/-- A medium with nothing in its cache. -/
def settled (image : κ → ν) : Medium κ ν where
  durable := image
  pending := []

/-- Contents that a power failure can leave. -/
def Survives (image : κ → ν) : Prop :=
  ∃ reached, reached.Sublist medium.pending ∧ image = apply medium.durable reached

/-- A property of all contents that a power failure can leave. -/
def Every (property : (κ → ν) → Prop) : Prop :=
  ∀ image, medium.Survives image → property image

end

section

variable {medium : Medium κ ν} {key : κ} {value : ν} {property other : (κ → ν) → Prop}

@[simp] theorem contents_write :
    (medium.write key value).contents = Function.update medium.contents key value := by
  simp only [contents, write, apply, List.foldl_append, List.foldl_cons, List.foldl_nil]

@[simp] theorem contents_settled (image : κ → ν) : (settled image).contents = image :=
  rfl

theorem survives_contents : medium.Survives medium.contents :=
  ⟨medium.pending, .refl _, rfl⟩

theorem survives_of_flushed (empty : medium.pending = []) :
    medium.Survives image ↔ image = medium.contents := by
  unfold Survives contents
  rw [empty]
  constructor
  · rintro ⟨reached, sublist, isImage⟩
    rw [isImage, List.sublist_nil.mp sublist]
  · intro isImage
    exact ⟨[], .refl _, isImage⟩

theorem survives_write (survives : (medium.write key value).Survives image) :
    medium.Survives image ∨ ∃ old, medium.Survives old ∧ image = Function.update old key value := by
  obtain ⟨reached, sublist, isImage⟩ := survives
  obtain ⟨first, last, isReached, before, after⟩ := List.sublist_append_iff.mp sublist
  rcases List.sublist_singleton.mp after with none | one
  · refine .inl ⟨first, before, ?_⟩
    rw [isImage, isReached, none, List.append_nil]
    rfl
  · refine .inr ⟨apply medium.durable first, ⟨first, before, rfl⟩, ?_⟩
    rw [isImage, isReached, one]
    simp only [apply, List.foldl_append, List.foldl_cons, List.foldl_nil, write]

theorem Every.contents (every : medium.Every property) : property medium.contents :=
  every _ survives_contents

theorem Every.imp (every : medium.Every property) (implies : ∀ image, property image → other image) :
    medium.Every other :=
  fun image survives => implies image (every image survives)

theorem every_of_flushed (empty : medium.pending = []) (holds : property medium.contents) :
    medium.Every property := by
  intro image survives
  rw [(survives_of_flushed empty).mp survives]
  exact holds

theorem Every.flush (every : medium.Every property) : medium.flush.Every property :=
  every_of_flushed rfl every.contents

theorem Every.write (every : medium.Every property)
    (kept : ∀ image, property image → other image)
    (reached : ∀ image, property image → other (Function.update image key value)) :
    (medium.write key value).Every other := by
  intro image survives
  rcases survives_write survives with old | ⟨old, survived, isImage⟩
  · exact kept image (every image old)
  · rw [isImage]
    exact reached old (every old survived)

end

end Medium
