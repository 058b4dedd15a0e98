import Mathlib.Data.List.Find
import Mathlib.Data.Set.Basic
import Mathlib.Logic.Relation

/-!
# Graphs of shared nodes

Documents with anchors and aliases: a node may stand in several places, below
itself too. What a node stands for is its unfolding, a tree that need not be
finite. Graphs that agree on what can be reached have the same unfoldings
(`Embedding.unfold`), wherever the nodes are.
-/

namespace Lib

/-- What a node holds, over a type of scalars. An entry of a map is a key node
and a value node. -/
inductive Content (α : Type u)
  | null
  | scalar (text : α)
  | sequence (elements : List Nat)
  | map (entries : List (Nat × Nat))
  deriving DecidableEq

inductive Shape (α : Type u)
  | null
  | scalar (text : α)
  | sequence (length : Nat)
  | map (length : Nat)
  deriving DecidableEq

namespace Content

def children : Content α → List Nat
  | sequence elements => elements
  | map entries => entries.flatMap fun entry => [entry.1, entry.2]
  | _ => []

def shape : Content α → Shape α
  | null => .null
  | scalar text => .scalar text
  | sequence elements => .sequence elements.length
  | map entries => .map entries.length

def rename (f : Nat → Nat) : Content α → Content α
  | null => null
  | scalar text => scalar text
  | sequence elements => sequence (elements.map f)
  | map entries => map (entries.map (Prod.map f f))

@[simp] theorem children_rename (f : Nat → Nat) (content : Content α) :
    (content.rename f).children = content.children.map f := by
  cases content with
  | map entries =>
    simp only [rename, children, List.flatMap_map, List.map_flatMap]
    rfl
  | _ => rfl

@[simp] theorem shape_rename (f : Nat → Nat) (content : Content α) :
    (content.rename f).shape = content.shape := by
  cases content <;> simp [rename, shape]

theorem rename_rename (f g : Nat → Nat) (content : Content α) :
    (content.rename f).rename g = content.rename (g ∘ f) := by
  cases content <;> simp [rename, Prod.map_comp_map]

theorem rename_congr {f g : Nat → Nat} {content : Content α}
    (h : ∀ n ∈ content.children, f n = g n) : content.rename f = content.rename g := by
  cases content with
  | sequence elements => exact congrArg sequence (List.map_congr_left h)
  | map entries =>
    refine congrArg map (List.map_congr_left fun entry hentry => ?_)
    have hmem : ∀ n ∈ [entry.1, entry.2], f n = g n := fun n hn =>
      h n (List.mem_flatMap.mpr ⟨entry, hentry, hn⟩)
    exact Prod.ext (hmem _ (by simp)) (hmem _ (by simp))
  | _ => rfl

end Content

/-- What each node holds; `none` is an undefined node. -/
abbrev Graph (α : Type u) := Nat → Option (Content α)

namespace Graph

def children (g : Graph α) (n : Nat) : List Nat :=
  match g n with
  | some content => content.children
  | none => []

def Child (g : Graph α) (n m : Nat) : Prop := m ∈ g.children n

abbrev Reach (g : Graph α) : Nat → Nat → Prop := Relation.ReflTransGen g.Child

/-- The tree a node stands for, by the positions in it: the shape at each, if
there is a node. An entry of a map takes two indices. -/
def unfold (g : Graph α) (n : Nat) : List Nat → Option (Shape α)
  | [] => (g n).map Content.shape
  | i :: position =>
    match (g.children n)[i]? with
    | some m => unfold g m position
    | none => none

def IsMap (g : Graph α) (n : Nat) : Prop := ∃ entries, g n = some (.map entries)

variable [DecidableEq α]

def isScalar (g : Graph α) (text : α) (n : Nat) : Bool :=
  match g n with
  | some (.scalar text') => text' = text
  | _ => false

def member (g : Graph α) (n : Nat) (key : α) : Option Nat :=
  match g n with
  | some (.map entries) => (entries.find? fun entry => g.isScalar key entry.1).map Prod.snd
  | _ => none

def follow (g : Graph α) (n : Nat) : List α → Option Nat
  | [] => some n
  | key :: path => (g.member n key).bind fun m => g.follow m path

omit [DecidableEq α] in
theorem Child.of_map {g : Graph α} {entries : List (Nat × Nat)} (h : g n = some (.map entries))
    (hentry : entry ∈ entries) : g.Child n entry.1 ∧ g.Child n entry.2 := by
  have hmem : ∀ m ∈ [entry.1, entry.2], g.Child n m := by
    intro m hm
    simp only [Child, children, h]
    exact List.mem_flatMap.mpr ⟨entry, hentry, hm⟩
  exact ⟨hmem _ (by simp), hmem _ (by simp)⟩

theorem child_of_member {g : Graph α} (h : g.member n key = some m) : g.Child n m := by
  unfold member at h
  split at h
  · next entries hmap =>
    obtain ⟨entry, hfind, rfl⟩ := Option.map_eq_some_iff.mp h
    exact (Child.of_map hmap (List.mem_of_find?_eq_some hfind)).2
  · cases h

theorem isMap_of_member {g : Graph α} (h : g.member n key = some m) : g.IsMap n := by
  unfold member at h
  split at h
  · next entries hmap => exact ⟨entries, hmap⟩
  · cases h

theorem isScalar_of_isMap {g : Graph α} (h : g.IsMap n) (text : α) : g.isScalar text n = false := by
  obtain ⟨entries, hmap⟩ := h
  simp [isScalar, hmap]

omit [DecidableEq α] in
theorem isMap_of_content {g g' : Graph α} {f : Nat → Nat}
    (hn : g' (f n) = (g n).map (Content.rename f)) : g'.IsMap (f n) ↔ g.IsMap n := by
  unfold IsMap
  rw [hn]
  cases hg : g n with
  | none => simp
  | some content => cases content <;> simp [Content.rename]

theorem isScalar_of_content {g g' : Graph α} {f : Nat → Nat}
    (hn : g' (f n) = (g n).map (Content.rename f)) (text : α) :
    g'.isScalar text (f n) = g.isScalar text n := by
  unfold isScalar
  rw [hn]
  cases hg : g n with
  | none => rfl
  | some content => cases content <;> rfl

theorem member_of_content {g g' : Graph α} {f : Nat → Nat}
    (hn : g' (f n) = (g n).map (Content.rename f))
    (hkeys : ∀ m, g.Child n m → g'.isScalar key (f m) = g.isScalar key m) :
    g'.member (f n) key = (g.member n key).map f := by
  unfold member
  rw [hn]
  cases hg : g n with
  | none => rfl
  | some content =>
    cases content with
    | map entries =>
      have hentries : ∀ entry ∈ entries,
          g'.isScalar key (Prod.map f f entry).1 = g.isScalar key entry.1 := fun entry hentry =>
        hkeys _ (Child.of_map hg hentry).1
      have hfind : entries.find? ((fun entry => g'.isScalar key entry.1) ∘ Prod.map f f) =
          entries.find? fun entry => g.isScalar key entry.1 := List.find?_congr hentries
      simp only [Option.map_some, Content.rename, List.find?_map, Option.map_map, hfind]
      rfl
    | _ => rfl

end Graph

/-- `g'` holds the part `S` of `g`, under the names `f`. -/
structure Embedding (g g' : Graph α) (f : Nat → Nat) (S : Set Nat) : Prop where
  closed : ∀ n ∈ S, ∀ m, g.Child n m → m ∈ S
  content : ∀ n ∈ S, g' (f n) = (g n).map (Content.rename f)

namespace Embedding

variable {g g' : Graph α} {f : Nat → Nat} {S : Set Nat}

theorem children (h : Embedding g g' f S) (hn : n ∈ S) :
    g'.children (f n) = (g.children n).map f := by
  unfold Graph.children
  rw [h.content n hn]
  cases g n <;> simp

theorem unfold (h : Embedding g g' f S) (hn : n ∈ S) : g'.unfold (f n) = g.unfold n := by
  funext position
  induction position generalizing n with
  | nil =>
    simp only [Graph.unfold, h.content n hn, Option.map_map]
    congr 1
    funext content
    simp
  | cons i position ih =>
    simp only [Graph.unfold, h.children hn, List.getElem?_map]
    cases hi : (g.children n)[i]? with
    | none => rfl
    | some m => exact ih (h.closed n hn m (List.mem_of_getElem? hi))

end Embedding

end Lib
