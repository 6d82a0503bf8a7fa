import ArgGuard.Proofs.BatchSteps
import ArgGuard.Proofs.Listings
import Mathlib.Data.Char
import Mathlib.Data.List.Forall2
import Mathlib.Data.List.Lex
import Mathlib.Data.List.Sort
import Mathlib.Data.Prod.Lex

/-!
# The order of paths

Paths are compared by their components, kind by kind and name by name, so they are in order as
lists of kinds with names are. Putting paths into their order leaves none of them twice, and what
comes out is told up to spelling by which paths went in.
-/

namespace ArgGuard

namespace Path

section Lists

variable {α : Type} [LinearOrder α] {a b : α} {s t : List α}

/-- No list comes before the empty one. -/
theorem nil_le : [] ≤ s := not_lt.1 (List.not_lt_nil s)

/-- Lists with a first member are compared by that first. -/
theorem cons_le_cons_iff : a :: s ≤ b :: t ↔ a < b ∨ a = b ∧ s ≤ t := by
  rw [le_iff_lt_or_eq, le_iff_lt_or_eq, List.cons_lt_cons_iff, List.cons_eq_cons]
  tauto

end Lists

/-- Texts are compared as lists. -/
theorem leText_iff {s t : Text} : leText s t ↔ s ≤ t := by
  induction s generalizing t with
  | nil => simp [leText, nil_le]
  | cons c s ih =>
    cases t with
    | nil => simp [leText]
    | cons d t => simp [leText, cons_le_cons_iff, ih]

/-- What decides about a component in the order. -/
def Component.key (c : Component) : ℕ ×ₗ List Char := toLex (c.rank, c.text)

/-- Different components differ in what decides about them. -/
theorem Component.key_injective : Function.Injective Component.key := by
  intro a b h
  obtain ⟨hrank, htext⟩ := Prod.mk.inj (toLex_inj.1 h)
  cases a <;> cases b <;> simp_all [Component.rank, Component.text]

/-- Components are compared by kind and then by name. -/
theorem Component.le_iff {a b : Component} : a.le b ↔ a.key ≤ b.key := by
  simp [Component.le, Component.key, Prod.Lex.toLex_le_toLex, leText_iff]

/-- What decides about a path in the order. -/
def key (path : Text) : List (ℕ ×ₗ List Char) := (components path).map Component.key

/-- Lists of components are compared component by component. -/
theorem leComponents_iff {as bs : List Component} :
    leComponents as bs ↔ as.map Component.key ≤ bs.map Component.key := by
  induction as generalizing bs with
  | nil => simp [leComponents, nil_le]
  | cons a as ih =>
    cases bs with
    | nil => simp [leComponents]
    | cons b bs =>
      rw [leComponents, List.map_cons, List.map_cons, cons_le_cons_iff]
      split
      next h => simp [h, ih]
      next h =>
        have hne : a.key ≠ b.key := fun hkey => h (Component.key_injective hkey)
        rw [Component.le_iff, le_iff_lt_or_eq]
        simp [hne]

/-- Paths are compared by what decides about them. -/
theorem le_iff {a b : Text} : le a b ↔ key a ≤ key b := leComponents_iff

/-- Equal paths are those that nothing tells apart in the order. -/
theorem same_iff {a b : Text} : same a b ↔ key a = key b := by
  rw [same, decide_eq_true_iff, key, key, List.map_inj_right fun _ _ h => Component.key_injective h]

/-- A path in front of another one, and not equal to it. -/
def Precedes (a b : Text) : Prop := le a b ∧ ¬ same a b

/-- One path is in front of another one if it is less in the order. -/
theorem precedes_iff {a b : Text} : Precedes a b ↔ key a < key b := by
  rw [Precedes, le_iff, same_iff, lt_iff_le_and_ne]

/-- Of two paths that are not equal one is in front of the other. -/
theorem precedes_of_not_le {a b : Text} (h : ¬ le a b) : Precedes b a := by
  rw [le_iff, not_le] at h
  exact precedes_iff.2 h

end Path

namespace Batch

variable {path : Text} {paths others : List Text}

/-- Paths that get greater and greater, so that none is there twice. -/
def IsIncreasing (paths : List Text) : Prop := paths.Pairwise Path.Precedes

/-- A path that is put at its place leaves the others in order. -/
theorem IsIncreasing.place (h : IsIncreasing paths) (path : Text) :
    IsIncreasing (place path paths) := by
  induction paths with
  | nil => exact List.pairwise_singleton _ _
  | cons next rest ih =>
    obtain ⟨hnext, hrest⟩ := List.pairwise_cons.1 h
    rw [Batch.place]
    split
    next hsame =>
      refine List.pairwise_cons.2 ⟨fun other hother => ?_, hrest⟩
      rw [Path.precedes_iff, Path.same_iff.1 hsame]
      exact Path.precedes_iff.1 (hnext other hother)
    next hsame =>
      split
      next hle =>
        have hpath : Path.Precedes path next := ⟨hle, hsame⟩
        refine List.pairwise_cons.2 ⟨fun other hother => ?_, h⟩
        rcases List.mem_cons.1 hother with rfl | hother
        · exact hpath
        · exact Path.precedes_iff.2
            ((Path.precedes_iff.1 hpath).trans (Path.precedes_iff.1 (hnext other hother)))
      next hle =>
        refine List.pairwise_cons.2 ⟨fun other hother => ?_, ih hrest⟩
        rcases mem_of_mem_place hother with rfl | hother
        · exact Path.precedes_of_not_le hle
        · exact hnext other hother

/-- Paths in order get greater and greater. -/
theorem isIncreasing_inOrder (paths : List Text) : IsIncreasing (inOrder paths) := by
  induction paths with
  | nil => exact .nil
  | cons path rest ih => exact ih.place path

/-- In the order there is what there is without it, up to spelling. -/
theorem sameMembers_map_key_inOrder (paths : List Text) :
    SameMembers ((inOrder paths).map Path.key) (paths.map Path.key) := by
  intro key
  simp only [List.mem_map]
  constructor
  · rintro ⟨path, hpath, rfl⟩
    exact ⟨path, mem_of_mem_inOrder hpath, rfl⟩
  · rintro ⟨path, hpath, rfl⟩
    obtain ⟨other, hother, hsame⟩ := exists_same_mem_inOrder hpath
    exact ⟨other, hother, Path.same_iff.1 hsame⟩

/-- Lists of paths that are equal one by one. -/
abbrev SamePaths (paths others : List Text) : Prop :=
  List.Forall₂ (fun a b => Path.same a b) paths others

/-- Lists of paths are equal one by one if nothing tells them apart in the order. -/
theorem samePaths_iff : SamePaths paths others ↔ paths.map Path.key = others.map Path.key := by
  simp only [SamePaths, Path.same_iff]
  rw [← congrFun₂ List.forall₂_eq_eq_eq, List.forall₂_map_left_iff, List.forall₂_map_right_iff]

/-- The order of paths is told, up to spelling, by which paths there are. -/
theorem samePaths_inOrder (h : SameMembers paths others) :
    SamePaths (inOrder paths) (inOrder others) := by
  have hsorted (paths : List Text) : ((inOrder paths).map Path.key).Pairwise (· < ·) :=
    List.pairwise_map.2 ((isIncreasing_inOrder paths).imp Path.precedes_iff.1)
  refine samePaths_iff.2 ((hsorted paths).eq_of_mem_iff (hsorted others) fun key => ?_)
  rw [sameMembers_map_key_inOrder, sameMembers_map_key_inOrder, h.map]

end Batch

end ArgGuard
